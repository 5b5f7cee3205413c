import ModalEdit.Proofs.Capture
import ModalEdit.Proofs.Travel

/-! The escape key. One press of it ends whatever is going on, in every mode and in the middle of
every command, and after that it does nothing more. Only the end of a counted insertion shows in the
text. -/
namespace ModalEdit

/-- The insertion that goes on was begun with a count, so that it is repeated when it ends. -/
def Recorder.Counted (r : Recorder) : Prop :=
  ∃ entry count typed?, r.pending? = some ⟨.insert entry, count, typed?⟩ ∧ 1 < count

namespace Workspace

variable {w : Workspace}

theorem counted_of_dueCopies (due : w.dueCopies = some pieces) : w.recorder.Counted := by
  unfold dueCopies at due
  split at due
  · rename_i entry count typed? _ _ pending _
    split at due
    · cases due
    · rename_i more
      exact ⟨entry, count, typed?, pending, Nat.lt_of_not_le more⟩
  · cases due

theorem leaveInsert_text (insert : w.editor.mode = .insert) :
    w.leaveInsert.1.editor.text = w.editor.text ∨ w.recorder.Counted := by
  cases due : w.dueCopies with
  | none =>
    left
    rw [leaveInsert, inMode, if_pos insert, due]
    rfl
  | some pieces => exact .inr (counted_of_dueCopies due)

end Workspace

namespace Session

/-- The normal mode, with nothing begun: no selection, no command, no insertion and no change. -/
structure Settled (s : Session) : Prop where
  mode : s.editor.mode = .normal
  anchor : s.editor.anchor? = none
  selection : s.editor.selection? = none
  pending : s.pending = {}
  run : s.editor.history.run = .inactive
  origin : s.editor.history.origin? = none
  change : s.recorder.pending? = none
  typed : s.recorder.typed = []

variable {s : Session}

theorem Reachable.settled (reached : s.Reachable) (ready : s.Ready) : s.Settled := by
  obtain ⟨mode, nothing⟩ := ready
  obtain ⟨placed, tidy⟩ := reached.placed_and_tidy
  have outside : s.editor.mode ≠ .insert := by simp [mode]
  obtain ⟨_, anchor, selection⟩ := placed.plain (by simp [mode, Mode.isVisual])
  have idle := tidy.idle (w := s.workspace {}) outside
  exact ⟨mode, anchor, selection, nothing, idle.history.run, idle.history.origin,
    reached.captured.pending outside, idle.typed⟩

theorem escape_of_ready (ready : s.Ready) (b : RegisterBank) (escape : k.isEscape = true) :
    s.step b (.press k) = s := by
  obtain ⟨normal, nothing⟩ := ready
  have reading : s.pending.press s.editor.mode k = .incomplete {} := by
    simp [normal, Pending.press, Pending.pressCommand, escape, Mode.isVisual]
  simp only [step, press, reading, Reading.pending]
  rw [← nothing]

theorem escapes_of_ready (ready : s.Ready) (more : List (RegisterBank × KeyPress))
    (escapes : ∀ entry ∈ more, entry.2.isEscape = true) :
    s.run (more.map fun entry => (entry.1, .press entry.2)) = s := by
  induction more with
  | nil => rfl
  | cons entry rest ih =>
    obtain ⟨first, others⟩ := List.forall_mem_cons.mp escapes
    rw [List.map_cons, Session.run, escape_of_ready ready entry.1 first]
    exact ih others

theorem escape_text (b : RegisterBank) (escape : k.isEscape = true) :
    (s.step b (.press k)).editor.text = s.editor.text ∨
      s.editor.mode = .insert ∧ s.recorder.Counted := by
  obtain ⟨_, ⟨insert, same, _⟩ | ⟨_, text, _⟩⟩ := step_escape (s := s) b escape
  · rw [same]
    exact (Workspace.leaveInsert_text (w := s.workspace b) insert).imp_right (⟨insert, ·⟩)
  · exact .inl text

/-- From every state, one press of an escape key leads to the normal mode with nothing begun. The
text changes only at the end of a counted insertion, and more escape keys change nothing at all. -/
theorem escape_settles (reached : s.Reachable) (b : RegisterBank) (escape : k.isEscape = true) :
    let left := s.step b (.press k)
    left.Settled ∧
      (left.editor.text = s.editor.text ∨ s.editor.mode = .insert ∧ s.recorder.Counted) ∧
      ∀ more : List (RegisterBank × KeyPress), (∀ entry ∈ more, entry.2.isEscape = true) →
        left.run (more.map fun entry => (entry.1, .press entry.2)) = left := by
  intro left
  obtain ⟨ready, _⟩ := step_escape (s := s) b escape
  exact ⟨(reached.next b (.press k)).settled ready, escape_text b escape, escapes_of_ready ready⟩

/-- Out of a counted insertion, whose text is put in two more times, and out of a selection with a
command half typed. -/
theorem escape_settles_insertion :
    let inserting := (ofText ['a'] .normal 0 100).run
      [({}, .press (.char '3')), ({}, .press (.char 'i')), ({}, .press (.char 'x'))]
    let selecting := (ofText ['a', 'b'] .visual 1 100).run
      [({}, .press (.char '2')), ({}, .press (.char 'i'))]
    let escapes : List (RegisterBank × KeyPress) := [({}, .ctrl 'c'), ({}, ⟨.escape, {}⟩)]
    let left := inserting.step {} (.press (.ctrl '['))
    inserting.Reachable ∧ left.Settled ∧ left.editor.text = ['x', 'x', 'x', 'a'] ∧
      left.run (escapes.map fun entry => (entry.1, .press entry.2)) = left ∧
      selecting.Reachable ∧ selecting.pending ≠ {} ∧
      (selecting.step {} (.press ⟨.escape, {}⟩)).Settled := by
  intro inserting selecting escapes left
  have reached : inserting.Reachable := (Reachable.opened _ _ _ _).run _
  have reached' : selecting.Reachable := (Reachable.opened _ _ _ _).run _
  obtain ⟨settled, _, still⟩ := escape_settles reached {} (k := .ctrl '[') rfl
  refine ⟨reached, settled, by decide, still escapes (by decide), reached', by decide, ?_⟩
  exact (escape_settles reached' {} (k := ⟨.escape, {}⟩) rfl).1

end Session

end ModalEdit
