import ModalEdit.Proofs.LinewiseRegister
import ModalEdit.Proofs.Outcome

/-! Operators on characters. All of them put the same characters into the registers; a deletion and a
change leave the same text without these, and a yank leaves everything else as it is. -/
namespace ModalEdit

theorem Extent.ofLanding_stop_le {t : Text} {i : Nat} (cursor : i ≤ t.length)
    (landing : Motion.Landing) : (ofLanding t i landing).span.stop ≤ t.length := by
  simp only [ofLanding]
  split
  · simp only [charwise, Span.between]
    omega
  · simp only [charwise, Span.between]
    omega
  · have ordered : min (t.lineOf i) (t.lineOf landing.target) ≤
        max (t.lineOf i) (t.lineOf landing.target) := by omega
    have start := t.lineStart_le_lineEnd_of_le ordered
    have stop := t.lineEnd_le_length (max (t.lineOf i) (t.lineOf landing.target))
    simp only [ofLines, Span.between]
    omega

namespace Workspace

variable {w : Workspace}

theorem targetExtent?_stop_le {e : Editor} (cursor : e.cursor ≤ e.text.length)
    (found : targetExtent? e target count = some x) : x.span.stop ≤ e.text.length := by
  cases target with
  | lines =>
    cases found
    have ordered := Nat.le_add_right (e.text.lineOf e.cursor) (count - 1)
    rw [Extent.counted, Text.ofLines_eq ordered]
    exact e.text.lineEnd_le_length _
  | motion m =>
    obtain ⟨landing, _, rfl⟩ := Option.map_eq_some_iff.mp found
    exact Extent.ofLanding_stop_le cursor landing
  | object o =>
    obtain ⟨s, resolved, rfl⟩ := Option.map_eq_some_iff.mp found
    exact TextObject.resolve_stop_le resolved

/-- What an operator takes from a text is removed, unless it is a yank, and goes to the register. -/
theorem operate_charwise (normal : w.editor.mode = .normal)
    (found : targetExtent? w.editor target count = some x) (chars : x.linewise = false)
    (some : x.span.isEmpty = false) (op : Operator) (register : Option RegisterName) :
    (w.operate op target count register).1.editor.text =
        (if op = .yank then w.editor.text else w.editor.text.remove x.span) ∧
      (w.operate op target count register).1.registers =
        w.registers.write (w.editor.text.slice x.span) false register := by
  obtain ⟨f?, aimed⟩ := w.aim_eq target
  obtain ⟨editor, registers⟩ := operate_of_found normal op register found
  rw [aimed] at editor registers
  have text := (w.withFind f?).operateOn_text op x register
  have written := operateOn_writes (w := w.withFind f?) some op register
  rw [editor, registers, text, written, chars]
  refine ⟨?_, rfl⟩
  cases op with
  | yank | change => rfl
  | delete =>
    simp only [Operator.leaves, Extent.removal, chars, Bool.false_eq_true, if_false]
    rfl

/-- But for the registers, a yank leaves nothing behind than the search that it was given. -/
theorem operate_yank (cursor : w.editor.cursor ≤ w.editor.maxCursor)
    (normal : w.editor.mode = .normal) (register : Option RegisterName)
    (found : targetExtent? w.editor target count = some x) :
    ∃ f?, (w.operate .yank target count register).1.editor = (w.withFind f?).editor ∧
      (w.operate .yank target count register).1.recorder = w.recorder := by
  obtain ⟨f?, aimed⟩ := w.aim_eq target
  obtain ⟨editor, _⟩ := operate_of_found normal .yank register found
  rw [aimed, operateOn, yank_editor (w := w.withFind f?) cursor] at editor
  refine ⟨f?, editor, ?_⟩
  rw [← targetExtent?_aim] at found
  have kept := operateOn_recorder (w.aim target) .yank x register
  rw [operate, inMode, if_pos normal]
  simp only [found]
  rw [kept, aimed]
  rfl

end Workspace

/-- What has been removed can be put back. -/
theorem Text.insertAt_slice_remove {t : Text} {s : Span} (inside : s.stop ≤ t.length) :
    (t.remove s).insertAt s.start (t.slice s) = t := by
  have ahead : (t.take s.start).length = s.start :=
    List.length_take_of_le (Nat.le_trans s.start_le_stop inside)
  rw [insertAt, remove, List.take_left' ahead, List.drop_left' ahead, take_slice_drop]

namespace Session

/-- Applied to the same characters, a deletion and a change leave the same text, which is the text
around them, and with a yank they agree in the registers: the register that is named and the one
without a name hold these characters, so that no character is lost. A yank leaves the session as it
is, but for the search that it was given. -/
theorem charwise_operators_agree {s : Session} (reached : s.Reachable)
    (normal : s.editor.mode = .normal) (b : RegisterBank)
    (found : Workspace.targetExtent? s.editor target count = some x) (chars : x.linewise = false)
    (filled : x.span.isEmpty = false) (register : Option RegisterName) :
    let t := s.editor.text
    let name := register.getD .unnamed
    let after (op : Operator) := (s.perform b (.edit (.operate op target register) count)).1
    x.span.stop ≤ t.length ∧
      (∀ op ≠ .yank, (after op).1.editor.text = t.take x.span.start ++ t.drop x.span.stop ∧
        (after op).1.editor.text.insertAt x.span.start (t.slice x.span) = t) ∧
      (∀ op op', (after op).2 = (after op').2) ∧
      (name.appends = false → ∀ op, (after op).2.get name = some ⟨t.slice x.span, false⟩ ∧
        (after op).2.get .unnamed = some ⟨t.slice x.span, false⟩) ∧
      ∃ f?, (after .yank).1 = { s with editor := { s.editor with lastFind? := f? } } := by
  intro t name after
  have placed := reached.placed
  have inside := Workspace.targetExtent?_stop_le placed.cursor_le_length found
  have done := Workspace.operate_charwise (w := s.workspace b) normal found chars filled
  refine ⟨inside, fun op removes => ?_, fun op op' => ?_, fun plain op => ?_, ?_⟩
  · have text : (after op).1.editor.text = t.remove x.span :=
      (done op register).1.trans (if_neg removes)
    rw [text]
    exact ⟨rfl, Text.insertAt_slice_remove inside⟩
  · exact (done op register).2.trans (done op' register).2.symm
  · have written : (after op).2 = b.write (t.slice x.span) false register := (done op register).2
    rw [written]
    exact b.get_write (t.slice x.span) false register plain
  · obtain ⟨f?, editor, recorder⟩ :=
      Workspace.operate_yank (w := s.workspace b) placed.1 normal register found
    have same : (after .yank).1 =
        { s with
          editor := ((s.workspace b).operate .yank target count register).1.editor
          recorder := ((s.workspace b).operate .yank target count register).1.recorder } := rfl
    refine ⟨f?, ?_⟩
    rw [same, editor, recorder]
    rfl

/-- From one bracket to the other one, across a break, into a named register. -/
theorem charwise_operators_agree_on_brackets :
    let s := ofText ['a', '(', 'b', '\n', 'c', ')', 'd'] .normal 1 100
    let name := RegisterName.letter 16 false
    let after (op : Operator) :=
      (s.perform {} (.edit (.operate op (.motion .matchPair) (some name)) 1)).1
    s.Reachable ∧ s.editor.mode = .normal ∧
      Workspace.targetExtent? s.editor (.motion .matchPair) 1 =
        some (.charwise (Span.between 1 6)) ∧ name.appends = false ∧
      (after .change).1.editor.text = ['a', 'd'] ∧ (after .delete).2 = (after .change).2 ∧
      (after .yank).2.get name = some ⟨['(', 'b', '\n', 'c', ')'], false⟩ := by
  intro s name after
  have reached : s.Reachable := Reachable.opened _ _ _ _
  have found : Workspace.targetExtent? s.editor (.motion .matchPair) 1 =
      some (.charwise (Span.between 1 6)) := by decide
  obtain ⟨_, removed, same, written, _⟩ :=
    charwise_operators_agree reached rfl {} found rfl rfl (some name)
  exact ⟨reached, rfl, found, rfl, (removed .change nofun).1, same .delete .change,
    (written rfl .yank).1⟩

end Session

end ModalEdit
