import ModalEdit.Proofs.Placement
import ModalEdit.Proofs.StoredRegisters

/-! What a paste puts where. Characters go in as one block; lines go between the lines that are
there, also behind a last line that has no break of its own. -/
namespace ModalEdit

namespace Workspace

variable {w : Workspace} {t : Text} {r : Register}

/-! ### Characters -/

/-- Where a paste puts characters: at the cursor, or behind the character under it if that is no
break. -/
def blockStart (t : Text) (i : Nat) (before : Bool) : Nat :=
  if before = true ∨ t[i]? = some '\n' ∨ t = [] then i else i + 1

theorem blockStart_le (cursor : i ≤ t.length - 1) (before : Bool) :
    blockStart t i before ≤ t.length := by
  unfold blockStart
  split
  · omega
  · rename_i ahead
    have filled : t ≠ [] := fun empty => ahead (.inr (.inr empty))
    have := List.length_pos_iff.mpr filled
    omega

theorem placement_of_chars (chars : r.linewise = false) (cursor : i ≤ t.length - 1)
    (before : Bool) (n : Nat) :
    placement t i before n r =
      ⟨blockStart t i before, copies n r.content,
        blockStart t i before + (copies n r.content).length - 1⟩ := by
  have offset : (if !before && t[i]?.any (· != '\n') then i + 1 else i) =
      blockStart t i before := by
    unfold blockStart
    cases before with
    | true => simp
    | false =>
      cases there : t[i]? with
      | none =>
        have empty : t = [] := by
          have := List.getElem?_eq_none_iff.mp there
          rw [← List.length_eq_zero_iff]
          omega
        simp [empty]
      | some c =>
        have filled : t ≠ [] := by
          rintro rfl
          cases there
        by_cases c = '\n' <;> simp_all
  simp only [placement, chars, Bool.false_eq_true, if_false, offset]

/-! ### Lines -/

theorem copies_endsInBreak (ended : r.content.endsInBreak = true) (times : 1 ≤ n) :
    (copies n r.content).endsInBreak = true := by
  obtain ⟨u, same⟩ := Text.eq_append_break ended
  obtain ⟨v, whole, _⟩ := Text.copies_eq_append_break times u
  rw [same, whole]
  simp [Text.endsInBreak]

/-- The line that the first of the pasted lines becomes, given the line of the cursor. -/
def firstPasted (l : Nat) (before : Bool) : Nat := if before = true then l else l + 1

theorem placement_of_lines (lines : r.linewise = true) (ended : r.content.endsInBreak = true)
    (i : Nat) (before : Bool) (times : 1 ≤ n) :
    let p := placement t i before n r
    let first := firstPasted (t.lineOf i) before
    first ≤ t.lastLine ∧ p = ⟨t.lineStart first, copies n r.content, t.lineStart first⟩ ∨
      first = t.lastLine + 1 ∧
        p = ⟨t.length, '\n' :: (copies n r.content).dropLast, t.length + 1⟩ := by
  have line := t.lineOf_le_lastLine i
  simp only [placement, lines, if_true, firstPasted]
  cases before with
  | true => exact .inl ⟨line, rfl⟩
  | false =>
    by_cases inside : t.lineOf i < t.lastLine
    · left
      exact ⟨inside, by simp [inside]⟩
    · right
      have last : t.lineOf i = t.lastLine := Nat.le_antisymm line (Nat.le_of_not_lt inside)
      constructor
      · exact congrArg (· + 1) last
      · simp [inside, copies_endsInBreak ended times]

theorem lines_insertAt_placement (lines : r.linewise = true)
    (ended : r.content.endsInBreak = true) (i : Nat) (before : Bool) (times : 1 ≤ n) :
    let p := placement t i before n r
    let first := firstPasted (t.lineOf i) before
    let after := t.insertAt p.offset p.written
    after.lines = t.lines.take first ++ (List.replicate n r.rows).flatten ++ t.lines.drop first ∧
      after.lineStart first = p.landing := by
  intro p first after
  obtain ⟨u, same⟩ := Text.eq_append_break ended
  have rows := Register.rows_of_append_break same
  rcases placement_of_lines (t := t) lines ended i before times with ⟨inside, place⟩ | ⟨last, place⟩
  · have inserted := Text.lines_insert_copies inside n u
    rw [← same, ← rows] at inserted
    simp only [after, p, place]
    exact inserted
  · have appended := Text.lines_append_copies (t := t) times u
    rw [← same, ← rows] at appended
    have whole : t.lines.length ≤ first := by
      rw [Text.length_lines, Text.lineCount]
      exact Nat.le_of_eq last.symm
    have behind : after = t ++ '\n' :: (copies n r.content).dropLast := by
      simp only [after, p, place, Text.insertAt, List.take_length, List.drop_length,
        List.append_nil]
    rw [behind, List.take_of_length_le whole, List.drop_of_length_le whole, List.append_nil]
    refine ⟨appended.1, ?_⟩
    have there : first = t.lastLine + 1 := last
    rw [there, appended.2]
    simp only [p, place]

/-! ### Pastes -/

section paste

variable (normal : w.editor.mode = .normal) (found : (w.registers.read name?).2 = some r)
  (before : Bool) (times : 1 ≤ n)
include normal found times

theorem paste_eq (filled : r.content ≠ []) :
    let p := placement w.editor.text w.editor.cursor before n r
    let after := (w.paste before n name?).1.editor
    after.text = w.editor.text.insertAt p.offset p.written ∧
      after.cursor = min p.landing (after.text.length - 1) := by
  have kept : (some r).filter (!·.content.isEmpty) = some r := by simp [filled]
  have count : max n 1 = n := Nat.max_eq_left times
  rw [paste, inMode, if_pos normal]
  simp only [found, kept, count]
  constructor
  · rfl
  · simp [Editor.clampCursor, Editor.maxCursor, Editor.edit, Editor.pushCheckpoint, normal]

theorem paste_chars (filled : r.content ≠ []) (chars : r.linewise = false)
    (cursor : w.editor.cursor ≤ w.editor.text.length - 1) :
    let place := blockStart w.editor.text w.editor.cursor before
    let after := (w.paste before n name?).1.editor
    after.text = w.editor.text.insertAt place (copies n r.content) ∧
      after.cursor + 1 = place + n * r.content.length := by
  intro place after
  obtain ⟨text, landing⟩ := paste_eq normal found before times filled
  rw [placement_of_chars chars cursor] at text landing
  refine ⟨text, ?_⟩
  have start : place ≤ w.editor.text.length := blockStart_le cursor before
  have some : 0 < n * r.content.length := Nat.mul_pos times (List.length_pos_iff.mpr filled)
  have there : after.cursor = min (place + (copies n r.content).length - 1) _ := landing
  rw [there, text, Text.length_insertAt, length_copies]
  omega

theorem paste_lines (ended : r.content.endsInBreak = true) (lines : r.linewise = true) :
    let t := w.editor.text
    let first := firstPasted (t.lineOf w.editor.cursor) before
    let after := (w.paste before n name?).1.editor
    after.text.lines =
        t.lines.take first ++ (List.replicate n r.rows).flatten ++ t.lines.drop first ∧
      after.cursor = min (after.text.lineStart first) (after.text.length - 1) := by
  intro t first after
  have filled : r.content ≠ [] := by
    intro empty
    rw [empty] at ended
    cases ended
  obtain ⟨text, landing⟩ := paste_eq normal found before times filled
  obtain ⟨rows, start⟩ := lines_insertAt_placement (t := t) lines ended w.editor.cursor before times
  rw [← start] at landing
  rw [← text] at rows landing
  exact ⟨rows, landing⟩

end paste

end Workspace

namespace Session

/-- A paste puts in what it finds, once for each of its count, and nothing else changes. Characters
go in as one block at the cursor or behind the character under it, and the cursor to the last of
them. Lines go in ahead of the line of the cursor or behind it, and the cursor to the start of the
first one, as far as there are characters. -/
theorem paste_inserts_register {s : Session} (reached : s.Reachable)
    (normal : s.editor.mode = .normal) {b : RegisterBank} (stored : b.Reachable)
    (found : (b.read name?).2 = some r) (filled : r.content ≠ []) (before : Bool)
    (times : 1 ≤ n) :
    let t := s.editor.text
    let i := s.editor.cursor
    let after := (s.perform b (.edit (.paste before name?) n)).1.1.editor
    (r.linewise = false →
      let place := Workspace.blockStart t i before
      after.text = t.take place ++ Workspace.copies n r.content ++ t.drop place ∧
        after.cursor + 1 = place + n * r.content.length) ∧
      (r.linewise = true →
        let first := Workspace.firstPasted (t.lineOf i) before
        r.content = r.rows.flatMap (· ++ ['\n']) ∧ (∀ row ∈ r.rows, '\n' ∉ row) ∧
          after.text.lines =
            t.lines.take first ++ (List.replicate n r.rows).flatten ++ t.lines.drop first ∧
          after.cursor = min (after.text.lineStart first) (after.text.length - 1)) := by
  intro t i after
  let w := s.workspace b
  have inside : w.editor.cursor ≤ w.editor.text.length - 1 :=
    reached.placed.cursor_le (by simp [normal])
  constructor
  · intro chars
    exact Workspace.paste_chars (w := w) normal found before times filled chars inside
  · intro lines
    have ended := stored.read_ended found
    refine ⟨(ended.flatMap_rows lines).symm, r.break_not_mem_rows, ?_⟩
    exact Workspace.paste_lines (w := w) normal found before times (ended lines) lines

/-- Two lines, the second of them empty, twice behind the last line of a text, and a block of
characters twice at a break. -/
theorem paste_inserts_register_at_end :
    let s := ofText ['a', '\n', '\n', 'b'] .normal 3 100
    let b := ({} : RegisterBank).set (.letter 0 false) (.of ['x', '\n', '\n'] true)
    let s' := ofText ['a', '\n', '\n', 'b'] .normal 2 100
    let b' := ({} : RegisterBank).set .unnamed (.of ['x', 'y'] false)
    let after := (s.perform b (.edit (.paste false (some (.letter 0 false))) 2)).1.1.editor
    let after' := (s'.perform b' (.edit (.paste false none) 2)).1.1.editor
    s.Reachable ∧ b.Reachable ∧ s'.Reachable ∧ b'.Reachable ∧
      after.text.lines = [['a'], [], ['b'], ['x'], [], ['x'], []] ∧ after.cursor = 5 ∧
      after'.text = ['a', '\n', 'x', 'y', 'x', 'y', '\n', 'b'] ∧ after'.cursor = 5 := by
  intro s b s' b' after after'
  have reached : s.Reachable := .opened _ _ _ _
  have reached' : s'.Reachable := .opened _ _ _ _
  have stored : b.Reachable := .set _ _ _ (.fresh none false)
  have stored' : b'.Reachable := .set _ _ _ (.fresh none false)
  have found : (b.read (some (.letter 0 false))).2 = some ⟨['x', '\n', '\n'], true⟩ := by decide
  have found' : (b'.read none).2 = some ⟨['x', 'y'], false⟩ := by decide
  obtain ⟨_, below⟩ := paste_inserts_register reached rfl stored found (by decide) false
    (by decide : 1 ≤ 2)
  obtain ⟨block, _⟩ := paste_inserts_register reached' rfl stored' found' (by decide) false
    (by decide : 1 ≤ 2)
  obtain ⟨_, _, rows, cursor⟩ := below rfl
  obtain ⟨text, cursor'⟩ := block rfl
  refine ⟨reached, stored, reached', stored', rows.trans (by decide), cursor.trans (by decide),
    text.trans (by decide), ?_⟩
  exact Nat.succ.inj (cursor'.trans (by decide))

end Session

end ModalEdit
