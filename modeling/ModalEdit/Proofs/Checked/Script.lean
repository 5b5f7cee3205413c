import Mathlib.Algebra.GroupWithZero.Nat
import ModalEdit.Proofs.Checked.Text
import ModalEdit.Proofs.KeyScript

/-! Scripts, read by offsets. The characters of a script are counted, but the modifiers of a name are
cut off by their bytes, which can be done only between two characters. -/
namespace ModalEdit.Checked

open KeyPress (knownNames holding? splitModifiers ofName readFrom)

/-! ### Bytes -/

def byteLength (t : Text) : Nat := (t.map Char.utf8Size).sum

/-- The first `n` bytes of a text and the rest, if there are as many and no character is cut. -/
def splitAtByte : (n : Nat) → Text → Option (Text × Text)
  | 0, t => some ([], t)
  | _ + 1, [] => none
  | n + 1, c :: t =>
    if c.utf8Size ≤ n + 1 then
      (splitAtByte (n + 1 - c.utf8Size) t).map fun (front, rest) => (c :: front, rest)
    else none

/-- The modifier that two bytes stand for, in either case. -/
def modifier? (front : Text) (held : Modifiers) : Option Modifiers :=
  match front.map Char.toLower with
  | ['c', '-'] => some { held with ctrl := true }
  | ['a', '-'] | ['m', '-'] => some { held with alt := true }
  | ['s', '-'] => some { held with shift := true }
  | _ => none

/-- A look at the first two bytes may find none, but they can be taken off only if they are there. -/
def readModifiers : (steps : Nat) → (held : Modifiers) → (rest : Text) → Option (Modifiers × Text)
  | 0, _, _ => none
  | steps + 1, held, rest =>
    match (splitAtByte 2 rest).bind fun parts => modifier? parts.1 held with
    | none => some (held, rest)
    | some more =>
      if 2 < byteLength rest then do
        let (_, rest) ← splitAtByte 2 rest
        readModifiers steps more rest
      else some (held, rest)

theorem toLower_of_wide {c : Char} (wide : c.utf8Size ≠ 1) : c.toLower = c := by
  unfold Char.toLower
  split
  · rename_i upper
    exact absurd (Char.utf8Size_eq_one_iff.mpr (UInt32.le_trans upper.2 (by decide))) wide
  · rfl

/-- Only the dash itself is a dash in lower case. -/
theorem toLower_eq_dash_iff {c : Char} : c.toLower = '-' ↔ c = '-' := by
  by_cases narrow : c.utf8Size = 1
  · have ascii : c.toNat < 128 :=
      Nat.lt_succ_of_le (UInt32.le_iff_toNat_le.mp (Char.utf8Size_eq_one_iff.mp narrow))
    have all : ∀ n < 128, (Char.ofNat n).toLower = '-' ↔ Char.ofNat n = '-' := by decide
    have own := all c.toNat ascii
    rwa [Char.ofNat_toNat] at own
  · rw [toLower_of_wide narrow]

theorem holding?_of_wide {c : Char} (wide : c.utf8Size ≠ 1) (held : Modifiers) :
    holding? c held = none := by
  rw [holding?, toLower_of_wide wide]
  split
  · exact absurd rfl wide
  · exact absurd rfl wide
  · exact absurd rfl wide
  · exact absurd rfl wide
  · rfl

theorem narrow_of_holding {c : Char} (holds : holding? c held = some more) : c.utf8Size = 1 := by
  by_contra wide
  rw [holding?_of_wide wide] at holds
  cases holds

theorem modifier?_pair (a b : Char) (held : Modifiers) :
    modifier? [a, b] held = if b = '-' then holding? a held else none := by
  by_cases dash : b = '-'
  · have lower : b.toLower = '-' := toLower_eq_dash_iff.mpr dash
    simp only [modifier?, holding?, List.map_cons, List.map_nil, lower, if_pos dash]
    split <;> simp_all
  · have lower : b.toLower ≠ '-' := mt toLower_eq_dash_iff.mp dash
    simp [modifier?, dash, lower]

theorem splitAtByte_pair {a b : Char} (ha : a.utf8Size = 1) (hb : b.utf8Size = 1) (rest : Text) :
    splitAtByte 2 (a :: b :: rest) = some ([a, b], rest) := by
  simp [splitAtByte, ha, hb]

/-- The first two bytes are a modifier just when the first two characters are. -/
theorem modifier?_front (a b : Char) (rest : Text) (held : Modifiers) :
    ((splitAtByte 2 (a :: b :: rest)).bind fun parts => modifier? parts.1 held) =
      if b = '-' then holding? a held else none := by
  by_cases ha : a.utf8Size = 1
  · by_cases hb : b.utf8Size = 1
    · rw [splitAtByte_pair ha hb, Option.bind_some, modifier?_pair]
    · have wide : ¬b.utf8Size ≤ 1 := fun small => hb (Nat.le_antisymm small b.utf8Size_pos)
      have other : b ≠ '-' := by
        rintro rfl
        exact hb rfl
      simp [splitAtByte, ha, wide, other]
  · rw [holding?_of_wide ha, ite_self]
    by_cases two : a.utf8Size = 2
    · simp [splitAtByte, two, modifier?]
    · have size := a.utf8Size_pos
      have wide : ¬a.utf8Size ≤ 2 := by omega
      simp [splitAtByte, wide]

theorem modifier?_short (h : rest.length ≤ 1) (held : Modifiers) :
    ((splitAtByte 2 rest).bind fun parts => modifier? parts.1 held) = none := by
  match rest with
  | [] => rfl
  | [a] =>
    have size := a.utf8Size_pos
    by_cases wide : a.utf8Size ≤ 2
    · have left : 2 - a.utf8Size = 0 ∨ 2 - a.utf8Size = 1 := by omega
      rcases left with left | left <;> simp [splitAtByte, wide, left, modifier?]
    · simp [splitAtByte, wide]

/-- What ends with a modifier, or begins with none, is left as it is. -/
theorem readModifiers_of_end (ended : ∀ a c rest, name ≠ a :: '-' :: c :: rest) (steps : Nat)
    (held : Modifiers) : readModifiers (steps + 1) held name = some (held, name) := by
  match name with
  | [] | [_] =>
    rw [readModifiers, modifier?_short (by simp)]
  | a :: b :: rest =>
    rw [readModifiers, modifier?_front]
    by_cases dash : b = '-'
    · have last : rest = [] := by
        cases rest with
        | nil => rfl
        | cons c rest => exact absurd (by rw [dash]) (ended a c rest)
      rw [if_pos dash, dash, last]
      cases first : holding? a held with
      | none => rfl
      | some more =>
        have two : byteLength [a, '-'] = 2 := by
          rw [byteLength, List.map_cons, List.sum_cons, narrow_of_holding first]
          rfl
        rw [two]
        rfl
    · rw [if_neg dash]

theorem readModifiers_eq (held : Modifiers) (h : name.length < steps) :
    readModifiers steps held name = some (splitModifiers held name) := by
  obtain ⟨steps, rfl⟩ := Nat.exists_eq_add_of_lt (Nat.zero_lt_of_lt h)
  rw [Nat.zero_add] at h ⊢
  fun_induction splitModifiers held name generalizing steps with
  | case1 held a c rest more first ih =>
    have narrow := narrow_of_holding first
    have size := c.utf8Size_pos
    have dash : ('-').utf8Size = 1 := rfl
    have further : 2 < byteLength (a :: '-' :: c :: rest) := by
      simp only [byteLength, List.map_cons, List.sum_cons, narrow, dash]
      omega
    obtain ⟨steps, rfl⟩ := Nat.exists_eq_succ_of_ne_zero (n := steps) (by rintro rfl; simp at h)
    rw [readModifiers, modifier?_front, if_pos rfl, first]
    simp only [further, if_true, splitAtByte_pair narrow dash, Option.bind_eq_bind,
      Option.bind_some]
    exact ih steps (by simp at h ⊢; omega)
  | case2 held a c rest first =>
    rw [readModifiers, modifier?_front, if_pos rfl, first]
  | case3 held name other => exact readModifiers_of_end other steps held

/-! ### Characters -/

def parseName (name : Text) : Option (Except ScriptError KeyPress) := do
  let (mods, key) ← readModifiers (name.length + 1) {} name
  return match knownNames.lookup (key.map Char.toLower), key with
    | some code, _ => .ok ⟨code, mods⟩
    | none, [c] => if mods.isEmpty then .error (.unknownKey name) else .ok ⟨.char c, mods⟩
    | none, _ => .error (.unknownKey name)

/-- Reads on from the `i`-th character. The inside of a group is looked for behind its bracket. -/
def parseFrom (chars : List Char) : (steps i : Nat) → Option (Except ScriptError (List KeyPress))
  | 0, _ => none
  | steps + 1, i =>
    if i < chars.length then do
      let c ← chars[i]?
      if c ≠ '<' then
        let keys ← parseFrom chars steps (i + 1)
        return keys.map (.char c :: ·)
      else
        let behind ← sublist chars (i + 1) chars.length
        match behind.idxOf? '>' with
        | none => return .error (.unterminated i)
        | some offset =>
          let name ← sublist chars (i + 1) (i + 1 + offset)
          let key ← parseName name
          match key with
          | .error e => return .error e
          | .ok k =>
            let keys ← parseFrom chars steps (i + 1 + offset + 1)
            return keys.map (k :: ·)
    else some (.ok [])

def readScript (script : Text) : Option (Except ScriptError (List KeyPress)) :=
  parseFrom script (script.length + 1) 0

theorem parseName_eq (name : Text) : parseName name = some (ofName name) := by
  rw [parseName, readModifiers_eq {} (Nat.lt_succ_self _)]
  rfl

/-- A group that is not closed ends with the script. -/
theorem readFrom_unclosed (unclosed : '>' ∉ t) (i : Nat) (held : Text) :
    readFrom i (some held) t = .error (.unterminated (i - held.length - 1)) := by
  induction t generalizing i held with
  | nil => rfl
  | cons c t ih =>
    obtain ⟨other, unclosed⟩ := List.ne_and_not_mem_of_not_mem_cons unclosed
    have start : i + 1 - (held ++ [c]).length - 1 = i - held.length - 1 := by
      rw [List.length_append, List.length_singleton]
      omega
    rw [readFrom, if_neg other.symm, ih unclosed, start]

/-- The inside of a group goes up to the first bracket that closes it. -/
theorem eq_append_of_idxOf? {t : Text} (found : t.idxOf? '>' = some offset) :
    offset < t.length ∧ '>' ∉ t.take offset ∧
      t = t.take offset ++ '>' :: t.drop (offset + 1) := by
  obtain ⟨inside, close, first⟩ := List.idxOf?_eq_some_iff.mp found
  refine ⟨inside, ?_, ?_⟩
  · intro member
    obtain ⟨j, bound, same⟩ := List.mem_take_iff_getElem.mp member
    exact first j (Nat.lt_of_lt_of_le bound (Nat.min_le_left _ _)) same
  · rw [← close, ← List.drop_eq_getElem_cons inside, List.take_append_drop]

/-- A group that is closed has all that its bracket has behind it up to the closing one. -/
theorem readFrom_closed {t : Text} (found : t.idxOf? '>' = some offset) (i : Nat) :
    readFrom i none ('<' :: t) = (do
      let key ← ofName (t.take offset)
      (readFrom (i + 1 + offset + 1) none (t.drop (offset + 1))).map (key :: ·)) := by
  obtain ⟨bound, inside, parts⟩ := eq_append_of_idxOf? found
  have length : (t.take offset).length = offset := List.length_take_of_le (Nat.le_of_lt bound)
  have next : i + offset + 2 = i + 1 + offset + 1 := by omega
  have read := KeyPress.readFrom_open inside i (t.drop (offset + 1))
  rwa [← parts, length, next] at read

theorem parseFrom_eq {chars : List Char} (inside : i ≤ chars.length)
    (room : chars.length < i + steps) :
    parseFrom chars steps i = some (readFrom i none (chars.drop i)) := by
  induction steps generalizing i with
  | zero => omega
  | succ steps ih =>
    rw [parseFrom]
    split
    · rename_i more
      have there := List.getElem?_eq_getElem more
      have behind : sublist chars (i + 1) chars.length = some (chars.drop (i + 1)) := by
        rw [sublist_eq more (Nat.le_refl _), ← List.length_drop, List.take_length]
      rw [there, List.drop_eq_getElem_cons more, Option.bind_eq_bind, Option.bind_some]
      by_cases opens : chars[i] = '<'
      · rw [if_neg (not_not.mpr opens), behind, Option.bind_eq_bind, Option.bind_some, opens]
        cases found : (chars.drop (i + 1)).idxOf? '>' with
        | none =>
          have unclosed := List.idxOf?_eq_none_iff.mp found
          rw [readFrom, if_pos rfl, readFrom_unclosed unclosed]
          rfl
        | some offset =>
          have bound := (eq_append_of_idxOf? found).1
          rw [List.length_drop] at bound
          have name : sublist chars (i + 1) (i + 1 + offset) =
              some ((chars.drop (i + 1)).take offset) := by
            rw [sublist_eq (Nat.le_add_right _ _) (by omega), Nat.add_sub_cancel_left]
          have further := ih (i := i + 1 + offset + 1) (by omega) (by omega)
          rw [readFrom_closed found, List.drop_drop, ← Nat.add_assoc]
          simp only [name, parseName_eq, further, Option.bind_eq_bind, Option.bind_some]
          cases ofName ((chars.drop (i + 1)).take offset) <;> rfl
      · rw [if_pos opens, ih more (by omega), readFrom, if_neg opens]
        rfl
    · rename_i last
      rw [List.drop_of_length_le (Nat.le_of_not_lt last)]
      rfl

/-- Every script is read without leaving a domain, whatever is in it. -/
theorem readScript_eq (script : Text) : readScript script = some (KeyPress.readScript script) :=
  parseFrom_eq (Nat.zero_le _) (by omega)

end ModalEdit.Checked
