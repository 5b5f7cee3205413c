import ModalEdit.Proofs.Effect

/-! The keys that go back and forth in the history, and the one that leads to the mode in which they
do. A step back keeps the state that it leaves, so that a step forth returns to it; the cursor that
a checkpoint remembers is cut to its text. -/
namespace ModalEdit

namespace Editor

variable {e : Editor}

/-- One step back, if there is one. -/
def back (e : Editor) : Editor :=
  e.undo?.elim e fun e => { e.clampCursor with wanted? := none }

/-- One step forth, if there is one. -/
def forth (e : Editor) : Editor :=
  e.redo?.elim e fun e => { e.clampCursor with wanted? := none }

theorem back_mode : e.back.mode = e.mode := by
  simp only [back]
  cases undone : e.undo? with
  | none => rfl
  | some e' =>
    obtain ⟨c, rest, _, rfl⟩ := undo?_cases undone
    rfl

theorem forth_mode : e.forth.mode = e.mode := by
  simp only [forth]
  cases redone : e.redo? with
  | none => rfl
  | some e' =>
    obtain ⟨c, rest, _, rfl⟩ := redo?_cases redone
    rfl

theorem back_eq (undos : e.history.undos = c :: rest) (normal : e.mode = .normal) :
    e.back.text = c.text ∧ e.back.cursor = min c.cursor (c.text.length - 1) ∧
      e.back.history.undos = rest ∧ e.back.history.redos = e.checkpoint :: e.history.redos := by
  have undone : e.undo? = some (e.travel (c, { e.history with
      undos := rest
      redos := e.checkpoint :: e.history.redos })) := by
    simp [undo?, History.undo?, undos]
  rw [back, undone]
  simp [travel, clampCursor, maxCursor, edit, normal]

theorem forth_eq (redos : e.history.redos = c :: rest) (normal : e.mode = .normal) :
    e.forth.text = c.text ∧ e.forth.cursor = min c.cursor (c.text.length - 1) ∧
      e.forth.history.redos = rest := by
  have redone : e.redo? = some (e.travel (c, { e.history with
      undos := e.checkpoint :: e.history.undos
      redos := rest })) := by
    simp [redo?, History.redo?, redos]
  rw [forth, redone]
  simp [travel, clampCursor, maxCursor, edit, normal]

end Editor

namespace Session

variable {s : Session}

/-- The normal mode, with nothing typed of a command. -/
def Ready (s : Session) : Prop := s.editor.mode = .normal ∧ s.pending = {}

theorem step_u (ready : s.Ready) (b : RegisterBank) :
    s.step b (.press (.char 'u')) = { s with editor := s.editor.back } := by
  obtain ⟨normal, nothing⟩ := ready
  have reading : s.pending.press s.editor.mode (.char 'u') = .complete (.undo 1) := by
    rw [normal, nothing]
    rfl
  rw [step, press, reading]
  simp only [perform, Workspace.perform, Workspace.travel, Workspace.inMode, normal, if_true,
    Editor.back, Reading.pending]
  cases s.editor.undo? with
  | none => simp [Workspace.skip, ← nothing]
  | some e => simp [Workspace.travelMany, ← nothing]

theorem step_ctrl_r (ready : s.Ready) (b : RegisterBank) :
    s.step b (.press (.ctrl 'r')) = { s with editor := s.editor.forth } := by
  obtain ⟨normal, nothing⟩ := ready
  have reading : s.pending.press s.editor.mode (.ctrl 'r') = .complete (.redo 1) := by
    rw [normal, nothing]
    rfl
  rw [step, press, reading]
  simp only [perform, Workspace.perform, Workspace.travel, Workspace.inMode, normal, if_true,
    Editor.forth, Reading.pending]
  cases s.editor.redo? with
  | none => simp [Workspace.skip, ← nothing]
  | some e => simp [Workspace.travelMany, ← nothing]

/-- The key leads to the nearest checkpoint, and keeps the state that it leaves. -/
theorem step_u_eq (ready : s.Ready) (undos : s.editor.history.undos = c :: rest)
    (b : RegisterBank) :
    let undone := s.step b (.press (.char 'u'))
    undone.Ready ∧ undone.editor.text = c.text ∧
      undone.editor.cursor = min c.cursor (c.text.length - 1) ∧
      undone.editor.history.undos = rest ∧
      undone.editor.history.redos = s.editor.checkpoint :: s.editor.history.redos := by
  rw [step_u ready]
  exact ⟨⟨Editor.back_mode.trans ready.1, ready.2⟩, Editor.back_eq undos ready.1⟩

theorem step_ctrl_r_eq (ready : s.Ready) (redos : s.editor.history.redos = c :: rest)
    (b : RegisterBank) :
    let redone := s.step b (.press (.ctrl 'r'))
    redone.Ready ∧ redone.editor.text = c.text ∧
      redone.editor.cursor = min c.cursor (c.text.length - 1) ∧
      redone.editor.history.redos = rest := by
  rw [step_ctrl_r ready]
  exact ⟨⟨Editor.forth_mode.trans ready.1, ready.2⟩, Editor.forth_eq redos ready.1⟩

/-- The escape key leads to the normal mode from every other one. -/
theorem step_escape (b : RegisterBank) (escape : k.isEscape = true) :
    (s.step b (.press k)).Ready ∧
      (s.editor.mode = .insert ∧
          (s.step b (.press k)).editor = (s.workspace b).leaveInsert.1.editor ∧
          (s.step b (.press k)).recorder = (s.workspace b).leaveInsert.1.recorder ∨
        s.editor.mode ≠ .insert ∧ (s.step b (.press k)).editor.text = s.editor.text ∧
          (s.step b (.press k)).editor.history = s.editor.history) := by
  cases mode : s.editor.mode with
  | insert =>
    have reading : s.pending.press s.editor.mode k = .complete .leaveInsert := by
      simp [mode, Pending.press, Pending.pressInsert, escape]
    have left := Workspace.leaveInsert_kept (w := s.workspace b) mode
    rw [step, press, reading]
    exact ⟨⟨left.1, rfl⟩, .inl ⟨rfl, rfl, rfl⟩⟩
  | normal =>
    have reading : s.pending.press s.editor.mode k = .incomplete {} := by
      simp [mode, Pending.press, Pending.pressCommand, escape, Mode.isVisual]
    rw [step, press, reading]
    exact ⟨⟨mode, rfl⟩, .inr ⟨by decide, rfl, rfl⟩⟩
  | visual | visualLine =>
    have reading : s.pending.press s.editor.mode k = .complete .leaveVisual := by
      simp [mode, Pending.press, Pending.pressCommand, escape, Mode.isVisual]
    have left : Workspace.leaveVisual ⟨s.editor, b, s.recorder⟩ =
        (⟨(s.editor.setMode .normal).clampCursor, b, s.recorder⟩, .moved) := by
      simp [Workspace.leaveVisual, mode, Mode.isVisual]
    rw [step, press, reading]
    simp only [perform, Workspace.perform]
    rw [left]
    exact ⟨⟨rfl, rfl⟩, .inr ⟨by decide, rfl, rfl⟩⟩

end Session

end ModalEdit
