import ModalEdit.Key.Script

/-! Scripts that are written out of presses and read again. The bracket that closes a group cannot
stand inside of one, so the press of that key with a modifier has a written form that is not read
back. Any other presses, in any order, are read back as they were written. -/
namespace ModalEdit

theorem Modifiers.isEmpty_iff {m : Modifiers} : m.isEmpty = true ↔ m = {} := by
  obtain ⟨ctrl, alt, shift⟩ := m
  cases ctrl <;> cases alt <;> cases shift <;> decide

namespace KeyPress

/-- The script of some presses: their written forms, one right after the other. -/
def script (ks : List KeyPress) : Text := ks.flatMap shown

/-- A press that is not a plain character is written as a group. -/
def Grouped (k : KeyPress) : Prop := ∀ c, k ≠ char c

/-- The press is written as a group, and its key is the bracket that closes a group. -/
def closesOwnGroup (k : KeyPress) : Bool := k.code = .char '>' && !k.mods.isEmpty

theorem closesOwnGroup_iff {k : KeyPress} :
    k.closesOwnGroup = true ↔ k.code = .char '>' ∧ k.mods ≠ {} := by
  rw [closesOwnGroup, Bool.and_eq_true, decide_eq_true_eq, Bool.not_eq_true', ← Bool.not_eq_true,
    Modifiers.isEmpty_iff]

theorem plain_or_grouped (k : KeyPress) : (∃ c, k = char c) ∨ k.Grouped := by
  by_cases plain : ∃ c, k = char c
  · exact .inl plain
  · exact .inr fun c same => plain ⟨c, same⟩

theorem Grouped.mods_isEmpty {m : Modifiers} (grouped : Grouped ⟨.char c, m⟩) :
    m.isEmpty = false := by
  refine Bool.eq_false_iff.mpr fun empty => grouped c ?_
  rw [Modifiers.isEmpty_iff.mp empty, char]

/-! ### Names in groups -/

theorem splitModifiers_shown (m : Modifiers) (c : Char) (key : Text) :
    splitModifiers {} (m.shown ++ c :: key) = splitModifiers m (c :: key) := by
  obtain ⟨ctrl, alt, shift⟩ := m
  cases ctrl <;> cases alt <;> cases shift <;> rfl

/-- No name of a key begins like a modifier. -/
theorem splitModifiers_name (m : Modifiers) (code : KeyCode) :
    splitModifiers m code.name = (m, code.name) := by
  cases code <;> rfl

theorem splitModifiers_shown_name (m : Modifiers) (code : KeyCode) :
    splitModifiers {} (m.shown ++ code.name) = (m, code.name) := by
  have written : ∃ c key, code.name = c :: key := by cases code <;> exact ⟨_, _, rfl⟩
  obtain ⟨c, key, same⟩ := written
  rw [← splitModifiers_name m code, same, splitModifiers_shown]

/-- All names in the table are longer than a character. -/
theorem lookup_singleton (c : Char) : knownNames.lookup [c] = none := by
  simp [List.lookup_eq_none_iff, knownNames]

/-- The inside of a group is read as the press that it was written for. -/
theorem Grouped.ofName_eq {k : KeyPress} (grouped : k.Grouped) :
    ofName (k.mods.shown ++ k.code.name) = .ok k := by
  obtain ⟨code, mods⟩ := k
  rw [ofName, splitModifiers_shown_name]
  cases code with
  | char c =>
    simp only [KeyCode.name, List.map_singleton, lookup_singleton, grouped.mods_isEmpty]
    rfl
  | _ => rfl

/-- Modifiers without a key are no name. -/
theorem ofName_shown (m : Modifiers) : ofName m.shown = .error (.unknownKey m.shown) := by
  obtain ⟨ctrl, alt, shift⟩ := m
  cases ctrl <;> cases alt <;> cases shift <;> rfl

theorem close_not_mem_shown (m : Modifiers) : '>' ∉ m.shown := by
  obtain ⟨ctrl, alt, shift⟩ := m
  cases ctrl <;> cases alt <;> cases shift <;> decide

theorem close_not_mem_name {code : KeyCode} (other : code ≠ .char '>') : '>' ∉ code.name := by
  cases code with
  | char c => simpa [KeyCode.name, eq_comm] using other
  | _ => decide

/-! ### Reading what was written -/

theorem shown_char (c : Char) : (char c).shown = if c = '<' then ['<', 'l', 't', '>'] else [c] :=
  rfl

theorem Grouped.shown_eq {k : KeyPress} (grouped : k.Grouped) :
    k.shown = '<' :: (k.mods.shown ++ k.code.name ++ ['>']) := by
  obtain ⟨code, mods⟩ := k
  cases code with
  | char c => simp [shown, grouped.mods_isEmpty]
  | _ => rfl

/-- A group goes up to the first bracket that closes it. -/
theorem readFrom_group (inside : '>' ∉ name) (i : Nat) (held rest : Text) :
    readFrom i (some held) (name ++ '>' :: rest) = (do
      let key ← ofName (held ++ name)
      (readFrom (i + name.length + 1) none rest).map (key :: ·)) := by
  induction name generalizing i held with
  | nil => simp [readFrom]
  | cons c name ih =>
    obtain ⟨other, inside⟩ := List.ne_and_not_mem_of_not_mem_cons inside
    have next : i + 1 + name.length + 1 = i + (c :: name).length + 1 := by
      rw [List.length_cons]
      omega
    rw [List.cons_append, readFrom, if_neg other.symm, ih inside, List.append_assoc,
      List.singleton_append, next]

/-- What follows a bracket that opens a group, up to the first one that closes it. -/
theorem readFrom_open (inside : '>' ∉ name) (i : Nat) (rest : Text) :
    readFrom i none ('<' :: (name ++ '>' :: rest)) = (do
      let key ← ofName name
      (readFrom (i + name.length + 2) none rest).map (key :: ·)) := by
  have next : i + 1 + name.length + 1 = i + name.length + 2 := by omega
  rw [readFrom, if_pos rfl, readFrom_group inside, List.nil_append, next]

theorem readFrom_shown {k : KeyPress} (fits : k.closesOwnGroup = false) (i : Nat) (rest : Text) :
    readFrom i none (k.shown ++ rest) =
      (readFrom (i + k.shown.length) none rest).map (k :: ·) := by
  rcases k.plain_or_grouped with ⟨c, rfl⟩ | grouped
  · rw [shown_char]
    split
    · rename_i opens
      have inside : '>' ∉ ['l', 't'] := by decide
      rw [opens]
      exact readFrom_open inside i rest
    · rename_i other
      rw [List.singleton_append, readFrom, if_neg other]
      rfl
  · have other : k.code ≠ .char '>' := by
      intro close
      obtain ⟨code, mods⟩ := k
      obtain rfl : code = .char '>' := close
      have held := grouped.mods_isEmpty
      simp [closesOwnGroup, held] at fits
    have inside : '>' ∉ k.mods.shown ++ k.code.name :=
      List.not_mem_append (close_not_mem_shown k.mods) (close_not_mem_name other)
    have length : i + k.shown.length = i + (k.mods.shown ++ k.code.name).length + 2 := by
      simp [grouped.shown_eq]
      omega
    rw [length, grouped.shown_eq, List.cons_append, List.append_assoc, List.singleton_append,
      readFrom_open inside, grouped.ofName_eq]
    rfl

/-- The group of modifiers is closed by the key itself. -/
theorem readFrom_closesOwnGroup {k : KeyPress} (closes : k.closesOwnGroup = true) (i : Nat)
    (rest : Text) : readFrom i none (k.shown ++ rest) = .error (.unknownKey k.mods.shown) := by
  obtain ⟨code, mods⟩ := k
  simp only [closesOwnGroup, Bool.and_eq_true, decide_eq_true_eq, Bool.not_eq_true'] at closes
  obtain ⟨rfl, held⟩ := closes
  have written : shown ⟨.char '>', mods⟩ ++ rest = '<' :: (mods.shown ++ '>' :: '>' :: rest) := by
    simp [shown, held, KeyCode.name]
  rw [written, readFrom_open (close_not_mem_shown mods), ofName_shown]
  rfl

/-- A script is read back up to the first press that closes its own group, if there is one. -/
theorem readFrom_script (ks : List KeyPress) (i : Nat) :
    readFrom i none (script ks) =
      match ks.find? closesOwnGroup with
      | none => .ok ks
      | some k => .error (.unknownKey k.mods.shown) := by
  induction ks generalizing i with
  | nil => rfl
  | cons k rest ih =>
    rw [script, List.flatMap_cons, List.find?_cons]
    cases closes : k.closesOwnGroup with
    | true => exact readFrom_closesOwnGroup closes i _
    | false =>
      rw [readFrom_shown closes]
      rw [← script, ih]
      dsimp only
      cases rest.find? closesOwnGroup <;> rfl

/-- The written forms of presses, one right after the other, are read as exactly those presses
unless one of them is the closing bracket with a modifier. The first one that is makes the script
unreadable: its modifiers are taken for the name of a key. -/
theorem script_reads_back (ks : List KeyPress) :
    (readScript (script ks) = .ok ks ↔ ∀ k ∈ ks, ¬(k.code = .char '>' ∧ k.mods ≠ {})) ∧
      ∀ (before after : List KeyPress) (k : KeyPress), ks = before ++ k :: after →
        (∀ other ∈ before, ¬(other.code = .char '>' ∧ other.mods ≠ {})) →
        k.code = .char '>' ∧ k.mods ≠ {} →
        readScript (script ks) = .error (.unknownKey k.mods.shown) := by
  have read : readScript (script ks) = _ := readFrom_script ks 0
  constructor
  · cases first : ks.find? closesOwnGroup with
    | none =>
      rw [first] at read
      refine iff_of_true read fun k member closes => ?_
      exact List.find?_eq_none.mp first k member (closesOwnGroup_iff.mpr closes)
    | some k =>
      rw [first] at read
      refine iff_of_false (by rw [read]; nofun) fun all => ?_
      exact all k (List.mem_of_find?_eq_some first)
        (closesOwnGroup_iff.mp (List.find?_some first))
  · rintro before after k rfl fit closes
    have first : (before ++ k :: after).find? closesOwnGroup = some k := by
      have none : before.find? closesOwnGroup = none :=
        List.find?_eq_none.mpr fun other member => fit other member ∘ closesOwnGroup_iff.mp
      rw [List.find?_append, none, Option.none_or,
        List.find?_cons_of_pos (closesOwnGroup_iff.mpr closes)]
    rw [read, first]

/-- Brackets and dashes as keys, with and without modifiers, and after them the press that closes
its own group. -/
theorem script_reads_back_brackets :
    let before : List KeyPress :=
      [char '<', char '>', ctrl '<', ctrl '-', ⟨.char 'c', { alt := true, shift := true }⟩,
        ⟨.enter, { shift := true }⟩]
    let k : KeyPress := ⟨.char '>', { ctrl := true, alt := true }⟩
    script before =
        "<lt>><C-<><C--><A-S-c><S-CR>".toList ∧
      readScript (script before) = .ok before ∧
      readScript (script (before ++ [k, char 'x'])) = .error (.unknownKey ['C', '-', 'A', '-']) := by
  intro before k
  have fit : ∀ other ∈ before, ¬(other.code = .char '>' ∧ other.mods ≠ {}) := by decide
  refine ⟨by decide, (script_reads_back before).1.mpr fit, ?_⟩
  exact (script_reads_back _).2 before [char 'x'] k rfl fit (by decide)

/-- The closing bracket with the control key is written in a form that cannot be read. -/
theorem script_of_closing_bracket_unread :
    script [ctrl '>'] = ['<', 'C', '-', '>', '>'] ∧
      readScript (script [ctrl '>']) = .error (.unknownKey ['C', '-']) ∧
      readScript (script [ctrl '>']) ≠ .ok [ctrl '>'] := by
  have unread : readScript (script [ctrl '>']) = .error (.unknownKey ['C', '-']) := rfl
  exact ⟨rfl, unread, by rw [unread]; nofun⟩

end KeyPress

end ModalEdit
