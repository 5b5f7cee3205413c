import ModalEdit.Proofs.Charwise
import ModalEdit.Proofs.DeletionLanding
import ModalEdit.Proofs.OperatorKeys

/-! The key that deletes characters, with a count. It takes the character at the cursor and those
behind it, as many as the count says. A break is a character like any other, and only the end of the
text cuts the count short. -/
namespace ModalEdit

/-- A line that ends at a break has characters just if it does not begin there. -/
theorem Text.line_ne_nil_iff {t : Text} (break_ : t[i]? = some '\n') :
    t.line (t.lineOf i) ≠ [] ↔ 0 < i ∧ t[i - 1]? ≠ some '\n' := by
  have inside := (List.getElem?_eq_some_iff.mp break_).1
  have stop : t.lineEnd (t.lineOf i) = i := by
    apply lineEnd_lineOf_eq (Nat.le_of_lt inside)
    intro c first
    rw [List.head?_drop, break_] at first
    exact (Option.some.inj first).symm
  simp only [lineEnd] at stop
  constructor
  · intro filled
    have some : 0 < t.lineLength (t.lineOf i) := List.length_pos_iff.mpr filled
    obtain ⟨c, there, visible⟩ := getElem?_line_ne_break (Nat.sub_lt some Nat.one_pos)
    have before : t.lineStart (t.lineOf i) + (t.lineLength (t.lineOf i) - 1) = i - 1 := by omega
    rw [before] at there
    refine ⟨by omega, ?_⟩
    intro other
    exact visible (Option.some.inj (there.symm.trans other))
  · rintro ⟨behind, visible⟩ empty
    have none : t.lineLength (t.lineOf i) = 0 := congrArg List.length empty
    have start : t.lineStart (t.lineOf i) = i := by omega
    rcases lineStart_behind (t.lineOf_le_lastLine i) with front | other
    · omega
    · rw [start] at other
      exact visible other

/-- The cursor steps back from the break of a line that has characters. -/
theorem Editor.settle_cursor_line (e : Editor) :
    e.settle.cursor =
      let i := min e.cursor e.maxCursor
      if e.text[i]? = some '\n' ∧ e.text.line (e.text.lineOf i) ≠ [] then i - 1 else i := by
  rw [settle_cursor]
  apply if_congr _ rfl rfl
  constructor
  · rintro ⟨behind, break_, visible⟩
    exact ⟨break_, (Text.line_ne_nil_iff break_).mpr ⟨behind, visible⟩⟩
  · rintro ⟨break_, filled⟩
    obtain ⟨behind, visible⟩ := (Text.line_ne_nil_iff break_).mp filled
    exact ⟨behind, break_, visible⟩

namespace Workspace

variable {w : Workspace}

/-- To the right an operator takes what the count says, or all that there is. -/
theorem targetExtent?_right {e : Editor} (cursor : e.cursor ≤ e.text.length)
    (counted : 0 < count) :
    targetExtent? e (.motion .right) count = some (.charwise
      ⟨e.cursor, e.cursor + min count (e.text.length - e.cursor), Nat.le_add_right _ _⟩) := by
  have target : min (min e.cursor e.text.length + max count 1) e.text.length =
      e.cursor + min count (e.text.length - e.cursor) := by omega
  simp only [targetExtent?, Motion.resolve, Motion.landing?, Motion.Context.operator,
    Motion.Landing.upTo, Option.map_some, target, Extent.ofLanding, Span.between]
  congr
  all_goals omega

/-- In an empty text there is nothing to delete. -/
theorem operate_right_of_empty (normal : w.editor.mode = .normal)
    (cursor : w.editor.cursor ≤ w.editor.text.length) (empty : w.editor.text = [])
    (counted : 0 < count) (register : Option RegisterName) :
    w.operate .delete (.motion .right) count register = w.skip := by
  have found := targetExtent?_right cursor counted
  have nothing : w.editor.cursor =
      w.editor.cursor + min count (w.editor.text.length - w.editor.cursor) := by
    rw [empty]
    simp
  have aimed : w.aim (.motion .right) = w := rfl
  simp only [operate, inMode, normal, if_true, aimed, found, operateOn, delete, Extent.removal,
    Extent.charwise, Span.isEmpty, Bool.false_eq_true, if_false]
  rw [if_pos (beq_iff_eq.mpr nothing)]
  rfl

/-- What a deletion to the right takes, and where it leaves the cursor. -/
theorem operate_right (normal : w.editor.mode = .normal)
    (inside : w.editor.cursor < w.editor.text.length) (counted : 0 < count)
    (register : Option RegisterName) :
    let t := w.editor.text
    let i := w.editor.cursor
    let taken := min count (t.length - i)
    let rest : Text := t.take i ++ t.drop (i + taken)
    let after := (w.operate .delete (.motion .right) count register).1
    after.editor.text = rest ∧
      after.registers = w.registers.write ((t.drop i).take taken) false register ∧
      after.editor.cursor =
        let j := min i (rest.length - 1)
        if rest[j]? = some '\n' ∧ rest.line (rest.lineOf j) ≠ [] then j - 1 else j := by
  intro t i taken rest after
  have found := targetExtent?_right (Nat.le_of_lt inside) counted
  let x : Extent := .charwise ⟨i, i + taken, Nat.le_add_right i taken⟩
  have found : targetExtent? w.editor (.motion .right) count = some x := found
  have some : 0 < taken := Nat.lt_min.mpr ⟨counted, Nat.sub_pos_of_lt inside⟩
  have filled : x.span.isEmpty = false := by
    apply beq_eq_false_iff_ne.mpr
    simp only [x, Extent.charwise]
    omega
  obtain ⟨text, registers⟩ := operate_charwise normal found rfl filled .delete register
  have text : after.editor.text = rest := text
  have sliced : t.slice x.span = (t.drop i).take taken := by
    simp only [Text.slice, Span.length, x, Extent.charwise, Nat.add_sub_cancel_left]
  rw [sliced] at registers
  obtain ⟨editor, _⟩ := operate_of_found normal .delete register found
  obtain ⟨e, same, mode, landing, settled⟩ := delete_cursor (w := w) (x := x) filled register
  have editor : after.editor = (w.delete x register).1.editor := editor
  rw [← editor, text] at same
  rw [← editor] at settled
  have limit : e.maxCursor = rest.length - 1 := by
    rw [Editor.maxCursor, mode, normal, same]
    rfl
  refine ⟨text, registers, ?_⟩
  rw [settled, Editor.settle_cursor_line, same, limit, landing]
  rfl

end Workspace

namespace Session

open KeyPress (Types)
open Pending (Completes)

/-- A count and the key that deletes characters make one command. -/
theorem counted_deletion_completes (numeral : Text.IsNumeral n) (types : Types keys n)
    (plain : k.plainChar? = some 'x') :
    Completes .normal {} (keys ++ [k])
      (.edit (.operate .delete (.motion .right) none) (min n.number maxCount)) := by
  obtain ⟨free, idle⟩ := Pending.ahead_free n none
  have gathered := (OperatorFront.unnamed n).gathers numeral types
  have count := Pending.ahead_count numeral none
  have unnamed : (Pending.ahead n none).register? = none := rfl
  generalize Pending.ahead n none = p at free idle gathered count unnamed
  apply gathered.completes
  apply Completes.last
  rw [Pending.press_char (m := .normal) nofun free plain, ← count, ← unnamed]
  obtain ⟨count?, register?, operator?, awaited?⟩ := p
  cases idle
  rfl

/-- The key that deletes characters takes as many as the count in front of it says, or those that
there are from the cursor to the end of the text if these are fewer, breaks among them. The text is
left without them, a read without a name finds them, and the cursor stays at its offset, or goes to
the end of the text that is left; it steps back from the break of a line that has characters. In an
empty text the keys change nothing. -/
theorem counted_deletion_takes_characters {s : Session} (reached : s.Reachable) (ready : s.Ready)
    (b : RegisterBank) (numeral : Text.IsNumeral n) (types : Types keys n)
    (plain : k.plainChar? = some 'x') :
    let t := s.editor.text
    let i := s.editor.cursor
    let taken := min (min n.number maxCount) (t.length - i)
    let rest : Text := t.take i ++ t.drop (i + taken)
    let after := (s.pressAll b (keys ++ [k])).1
    (t ≠ [] → 0 < taken ∧ after.1.editor.text = rest ∧
      after.2.get .unnamed = some ⟨(t.drop i).take taken, false⟩ ∧
      after.2.get after.2.defaultName = some ⟨(t.drop i).take taken, false⟩ ∧
      after.1.editor.cursor =
        let j := min i (rest.length - 1)
        if rest[j]? = some '\n' ∧ rest.line (rest.lineOf j) ≠ [] then j - 1 else j) ∧
    (t = [] → after = (s, b)) := by
  intro t i taken rest after
  let count := min n.number maxCount
  let command : Command := .edit (.operate .delete (.motion .right) none) count
  have counted : 0 < count := Nat.lt_min.mpr ⟨numeral.number_pos, by decide⟩
  have cursor : i ≤ t.length - 1 := reached.placed.cursor_le (by rw [ready.1]; nofun)
  have completes : Completes .normal {} (keys ++ [k]) command :=
    counted_deletion_completes numeral types plain
  have done : after = (s.perform b command).1 :=
    congrArg Prod.fst (performs_of_completes ready b completes).1
  constructor
  · intro some
    have filled := List.length_pos_iff.mpr some
    have inside : i < t.length := by omega
    obtain ⟨text, registers, settled⟩ :=
      Workspace.operate_right (w := s.workspace b) ready.1 inside counted none
    have written : after.2 = b.write ((t.drop i).take taken) false none := by
      rw [done]
      exact registers
    refine ⟨Nat.lt_min.mpr ⟨counted, Nat.sub_pos_of_lt inside⟩, ?_, ?_, ?_, ?_⟩
    · rw [done]
      exact text
    · rw [written]
      exact (b.get_write _ false none rfl).2
    · rw [written]
      exact b.get_write_default _ false
    · rw [done]
      exact settled
  · intro empty
    have nothing := Workspace.operate_right_of_empty (w := s.workspace b) ready.1
      (Nat.le_trans cursor (Nat.sub_le _ _)) empty counted none
    have skipped : s.perform b command = ((s, b), .unchanged) := perform_of_skip nothing
    rw [done, skipped]

/-- All from the second line on, which leaves the cursor on the break of the line above. -/
theorem counted_deletion_takes_characters_over_breaks :
    let s := ofText ['a', 'b', '\n', 'c', '\n', 'd'] .normal 3 100
    let keys := ['1', '0', '0', '0', '0', '0', '0', '0'].map KeyPress.char
    let after := (s.pressAll {} (keys ++ [.char 'x'])).1
    s.Reachable ∧ s.Ready ∧ Text.IsNumeral ['1', '0', '0', '0', '0', '0', '0', '0'] ∧
      Types keys ['1', '0', '0', '0', '0', '0', '0', '0'] ∧
      after.1.editor.text = ['a', 'b', '\n'] ∧
      after.2.get .unnamed = some ⟨['c', '\n', 'd'], false⟩ ∧ after.1.editor.cursor = 1 := by
  intro s keys after
  have reached : s.Reachable := .opened _ _ _ _
  have ready : s.Ready := ⟨rfl, rfl⟩
  have numeral : Text.IsNumeral ['1', '0', '0', '0', '0', '0', '0', '0'] := ⟨by simp, by decide⟩
  have types : Types keys ['1', '0', '0', '0', '0', '0', '0', '0'] := rfl
  obtain ⟨takes, _⟩ := counted_deletion_takes_characters reached ready {} numeral types
    (k := .char 'x') rfl
  obtain ⟨_, text, unnamed, _, cursor⟩ := takes (by decide)
  refine ⟨reached, ready, numeral, types, ?_, ?_, ?_⟩
  · rw [text]
    decide
  · rw [unnamed]
    decide
  · rw [cursor]
    decide

end Session

end ModalEdit
