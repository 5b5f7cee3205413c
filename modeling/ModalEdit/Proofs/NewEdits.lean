import ModalEdit.Proofs.Capture
import ModalEdit.Proofs.Outcome
import ModalEdit.Proofs.UndoAll

/-! After a new edit there is nothing to go forth to. Only a push forgets what was undone, and most edits
of an insertion push nothing; but the checkpoint that covers them has been pushed, and nothing can be
undone before the insertion ends. -/
namespace ModalEdit

namespace Workspace

variable {w w' : Workspace}

/-- On the way from one editor to another, a change of the text has forgotten what was undone. -/
def Forgets (w w' : Workspace) : Prop :=
  w.editor.revision < w'.editor.revision → w'.editor.history.redos = []

theorem Forgets.of_revision (same : w'.editor.revision = w.editor.revision) : w.Forgets w' := by
  intro later
  rw [same] at later
  exact absurd later (Nat.lt_irrefl _)

theorem Edited.forgets {e : Editor} (edited : Edited e w) (later : e.revision < w.editor.revision) :
    w.editor.history.redos = [] := by
  cases edited with
  | unchanged _ _ _ same | opened _ _ _ same =>
    rw [same] at later
    exact absurd later (Nat.lt_irrefl _)
  | changed _ _ _ history =>
    rw [history]
    rfl
  | covered _ _ _ history =>
    rw [history]
    rfl

theorem operateSelection_forgets (idle : w.editor.mode ≠ .insert → w.Idle) (op : Operator)
    (register : Option RegisterName) : w.Forgets (w.operateSelection op register).1 := by
  rcases w.operateSelection_cases op register with same | ⟨visual, s, i, _, _, same⟩
  · rw [same]
    exact .of_revision rfl
  · intro later
    have outside := idle (Mode.ne_insert_of_isVisual visual)
    let start : Workspace := { w with editor := { w.editor.setMode .normal with cursor := i } }
    have edited : Edited start.editor (start.operateOn op ⟨s.span, s.kind = .lines⟩ register).1 :=
      operateOn_edited (w := start) ⟨outside.history, outside.typed⟩ rfl op _ register
    rw [same] at later ⊢
    exact edited.forgets later

/-- A first edit of an insertion pushes a checkpoint, and at a later one there was nothing to go forth to
already. -/
theorem InsertionStep.forgets (step : InsertionStep w w') (captured : Captured w.editor w.recorder) :
    w.Forgets w' := by
  cases step with
  | nothing same =>
    rw [same]
    exact .of_revision rfl
  | edit mode t i r same =>
    intro _
    have begun : w'.editor.history =
        (w.editor.history.beginRun w.editor.checkpoint).noteEdits 1 := by
      rw [same]
      rfl
    rw [begun]
    rcases w.editor.history.beginRun_noteEdits w.editor.checkpoint with
      ⟨origin, history⟩ | ⟨covered, n, history⟩
    · rw [history]
      rfl
    · rw [history]
      exact captured.redos covered

/-- The copies that are due at the end of an insertion are copies of what was typed in it, which a
checkpoint covers. -/
theorem leaveInsert_forgets (tidy : Tidy w.editor w.recorder)
    (captured : Captured w.editor w.recorder) : w.Forgets w.leaveInsert.1 := by
  by_cases insert : w.editor.mode = .insert
  · obtain ⟨_, history, _, _, nothing⟩ := leaveInsert_kept insert
    intro later
    have typed : w.recorder.typed ≠ [] := fun none => Nat.ne_of_gt later (nothing none).2
    rw [history]
    exact captured.redos (mt tidy.typed typed)
  · rw [leaveInsert, inMode_of_ne insert]
    exact .of_revision rfl

theorem doEdit_forgets (idle : w.editor.mode ≠ .insert → w.Idle) (count : Nat) (edit : Edit) :
    w.Forgets (w.doEdit count edit).1 := by
  by_cases normal : w.editor.mode = .normal
  · exact (doEdit_edited (idle (by simp [normal])) normal count edit).forgets
  · rw [doEdit_of_ne_normal normal]
    exact .of_revision rfl

theorem repeatLast_forgets (idle : w.editor.mode ≠ .insert → w.Idle)
    (cursor : w.editor.cursor ≤ w.editor.text.length) (count? : Option Nat) :
    w.Forgets (w.repeatLast count?).1 := by
  by_cases normal : w.editor.mode = .normal
  · exact (repeatLast_edited (idle (by simp [normal])) cursor normal count?).forgets
  · rw [repeatLast, inMode_of_ne normal]
    exact .of_revision rfl

theorem selectObject_revision (w : Workspace) (o : TextObject) (count : Nat) :
    (w.selectObject o count).1.editor.revision = w.editor.revision := by
  simp only [selectObject]
  split
  · split
    · rfl
    · simp
  · rfl

theorem swapAnchor_revision (w : Workspace) :
    w.swapAnchor.1.editor.revision = w.editor.revision := by
  simp only [swapAnchor]
  split <;> rfl

theorem startVisual_revision (w : Workspace) (m : Mode) :
    (w.startVisual m).1.editor.revision = w.editor.revision := by
  simp only [startVisual]
  split
  · rfl
  · simp

theorem leaveVisual_revision (w : Workspace) :
    w.leaveVisual.1.editor.revision = w.editor.revision := by
  simp only [leaveVisual]
  split <;> rfl

/-- Each command that does not step through the history forgets what was undone if it changes the text. -/
theorem perform_forgets (placed : w.editor.Placed) (tidy : Tidy w.editor w.recorder)
    (captured : Captured w.editor w.recorder) {c : Command} (stays : c.travels = false) :
    w.Forgets (w.perform c).1 := by
  cases c with
  | move m count => exact .of_revision (w.move_kept m count).2.2.1
  | edit e count => exact doEdit_forgets tidy.idle count e
  | operateSelection op register => exact operateSelection_forgets tidy.idle op register
  | selectObject o count => exact .of_revision (w.selectObject_revision o count)
  | swapAnchor => exact .of_revision w.swapAnchor_revision
  | startVisual | startVisualLine => exact .of_revision (w.startVisual_revision _)
  | leaveVisual => exact .of_revision w.leaveVisual_revision
  | leaveInsert => exact leaveInsert_forgets tidy captured
  | insertText t => exact (insertText_step w t).forgets captured
  | insertBreak => exact (insertText_step w _).forgets captured
  | backspace => exact (backspace_step w).forgets captured
  | repeatLast count? => exact repeatLast_forgets tidy.idle placed.cursor_le_length count?
  | undo count | redo count => cases stays

end Workspace

namespace Session

variable {s : Session}

/-- A key that changes the text has completed a command, and a text from outside drops what was typed of
one. -/
theorem step_pending (later : s.editor.revision < (s.step b i).editor.revision) :
    (s.step b i).pending = {} := by
  cases i with
  | sync t cursor => rfl
  | press k =>
    rcases s.press_cases b k with ⟨c, _, _, after⟩ | ⟨_, p, after⟩
    · rw [step, after]
      rfl
    · rw [step, after] at later
      exact absurd later (Nat.lt_irrefl _)

theorem step_forgets (reached : s.Reachable) (stays : s.travels b i = false)
    (later : s.editor.revision < (s.step b i).editor.revision) :
    (s.step b i).editor.history.redos = [] := by
  obtain ⟨placed, tidy⟩ := reached.placed_and_tidy
  cases i with
  | sync t cursor => rfl
  | press k =>
    rcases s.press_cases b k with ⟨c, _, performed, after⟩ | ⟨_, p, after⟩
    · have onward : c.travels = false := by
        rw [← stays]
        simp only [travels, performed]
      rw [step, after] at later ⊢
      exact Workspace.perform_forgets (w := s.workspace b) placed tidy reached.captured onward later
    · rw [step, after] at later
      exact absurd later (Nat.lt_irrefl _)

/-- Without anything to go forth to, and without anything typed of a command, the key that goes forth
leaves all as it is. -/
theorem press_ctrl_r_of_redos (nothing : s.editor.history.redos = []) (pending : s.pending = {})
    (b : RegisterBank) : (s.press b (.ctrl 'r')).1 = (s, b) := by
  have stuck : s.editor.redo? = none := by simp [Editor.redo?, History.redo?, nothing]
  obtain ⟨editor, p, recorder⟩ := s
  obtain rfl : p = {} := pending
  have idle : (Workspace.travel ⟨editor, b, recorder⟩ Editor.redo? 1).1 =
      ⟨editor, b, recorder⟩ := by
    simp only [Workspace.travel, Workspace.inMode]
    split
    · rw [stuck]
      rfl
    · rfl
  cases mode : editor.mode with
  | insert =>
    have reading : Pending.press {} editor.mode (.ctrl 'r') = .meaningless := by
      rw [mode]
      rfl
    simp only [press, reading]
    rfl
  | normal | visual | visualLine =>
    have reading : Pending.press {} editor.mode (.ctrl 'r') = .complete (.redo 1) := by
      rw [mode]
      rfl
    simp only [press, reading, perform, Workspace.perform]
    rw [idle]
    rfl

/-- After every key and every text from outside that changes the text, but for the keys that step through
the history, there is nothing to go forth to, and the key that would go forth changes nothing. -/
theorem new_edit_forgets_undone (reached : s.Reachable) (b : RegisterBank) (i : Input)
    (stays : s.travels b i = false)
    (later : s.editor.revision < (s.step b i).editor.revision) :
    (s.step b i).editor.history.redos = [] ∧
      ∀ b', ((s.step b i).press b' (.ctrl 'r')).1 = (s.step b i, b') := by
  have nothing := step_forgets reached stays later
  refine ⟨nothing, ?_⟩
  intro b'
  exact press_ctrl_r_of_redos nothing (step_pending later) b'

/-- A second key of a counted insertion after a step back, and the end of it, which makes the copies: they
push no checkpoint. -/
theorem new_edit_forgets_undone_in_insertion :
    let back := (ofText ['a', 'b'] .normal 1 100).run
      [({}, .press (.char 'x')), ({}, .press (.char 'u'))]
    let s := back.run ([.char '2', .char 'i', .char 'c'].map fun k => ({}, .press k))
    let typed := s.step {} (.press (.char 'd'))
    let left := typed.step {} (.press ⟨.escape, {}⟩)
    back.editor.history.redos ≠ [] ∧ s.Reachable ∧
      s.editor.revision < typed.editor.revision ∧ typed.editor.revision < left.editor.revision ∧
      left.editor.text = ['a', 'c', 'd', 'c', 'd', 'b'] ∧
      left.editor.history.undos = s.editor.history.undos ∧
      typed.editor.history.redos = [] ∧ left.editor.history.redos = [] ∧
      (left.press {} (.ctrl 'r')).1 = (left, {}) := by
  intro back s typed left
  have reached : s.Reachable := ((Reachable.opened _ _ _ _).run _).run _
  have later : s.editor.revision < typed.editor.revision := by decide
  have later' : typed.editor.revision < left.editor.revision := by decide
  obtain ⟨nothing, _⟩ := new_edit_forgets_undone reached {} (.press (.char 'd')) (by decide) later
  obtain ⟨nothing', same⟩ := new_edit_forgets_undone (reached.next {} (.press (.char 'd'))) {}
    (.press ⟨.escape, {}⟩) (by decide) later'
  exact ⟨by decide, reached, later, later', by decide, by decide, nothing, nothing', same {}⟩

end Session

end ModalEdit
