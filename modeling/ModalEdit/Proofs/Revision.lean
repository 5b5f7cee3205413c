import ModalEdit.Proofs.Outcome

/-! Revisions as a host sees them. They never go down, a text never changes under one of them, and a
step through the history never comes back to an earlier one, even if it comes back to its text. -/
namespace ModalEdit

namespace Editor

/-- What may follow on an editor: the text under the same revision, or a later revision. -/
inductive Onward (e e' : Editor) : Prop where
  | same (text : e'.text = e.text) (revision : e'.revision = e.revision)
  | later (revision : e.revision < e'.revision)

variable {e e₁ e₂ e₃ : Editor}

theorem Onward.rfl : e.Onward e := .same (.refl _) (.refl _)

theorem Onward.trans (first : e₁.Onward e₂) (second : e₂.Onward e₃) : e₁.Onward e₃ := by
  cases first with
  | same text revision =>
    cases second with
    | same text' revision' => exact .same (text'.trans text) (revision'.trans revision)
    | later up => exact .later (revision ▸ up)
  | later up =>
    cases second with
    | same _ revision => exact .later (revision ▸ up)
    | later up' => exact .later (Nat.lt_trans up up')

theorem Onward.revision_le (onward : e₁.Onward e₂) : e₁.revision ≤ e₂.revision := by
  cases onward with
  | same _ revision => exact Nat.le_of_eq revision.symm
  | later up => exact Nat.le_of_lt up

theorem Onward.text_eq (onward : e₁.Onward e₂) (equal : e₁.revision = e₂.revision) :
    e₁.text = e₂.text := by
  cases onward with
  | same text _ => exact text.symm
  | later up => exact absurd equal (Nat.ne_of_lt up)

/-- The checkpoints that a command steps to, nearest first. -/
def ahead (e : Editor) : Command → List Checkpoint
  | .undo _ => e.history.undos
  | .redo _ => e.history.redos
  | _ => []

end Editor

theorem Outcome.Reports.onward {e e' : Editor} {outcome : Outcome}
    (report : outcome.Reports e e') : e.Onward e' := by
  cases report with
  | unchanged view => exact .same view.text view.revision
  | moved text => exact .same text.text text.revision
  | edited later => exact .later later

namespace Workspace

variable {w : Workspace}

/-- A step through the history that leads anywhere is an edit. -/
theorem perform_of_ahead (normal : w.editor.mode = .normal) {c : Command}
    (ahead : w.editor.ahead c ≠ []) : (w.perform c).2 = .edited := by
  have travelled {step : Editor → Option Editor} {e : Editor} (count : Nat)
      (there : step w.editor = some e) :
      (w.travel step count).2 = .edited := by
    simp only [travel, inMode, if_pos normal, there]
  cases c with
  | undo count =>
    obtain ⟨c, rest, same⟩ := List.exists_cons_of_ne_nil ahead
    have undos : w.editor.history.undos = c :: rest := same
    exact travelled count (by rw [Editor.undo?, History.undo?, undos]; rfl)
  | redo count =>
    obtain ⟨c, rest, same⟩ := List.exists_cons_of_ne_nil ahead
    have redos : w.editor.history.redos = c :: rest := same
    exact travelled count (by rw [Editor.redo?, History.redo?, redos]; rfl)
  | _ => exact absurd rfl ahead

end Workspace

namespace Session

variable {s : Session}

theorem step_onward (reached : s.Reachable) (b : RegisterBank) (i : Input) :
    s.editor.Onward (s.step b i).editor := by
  cases i with
  | press k =>
    rcases s.press_cases b k with ⟨c, _, _, after⟩ | ⟨_, p, after⟩
    · rw [step, after]
      exact (Workspace.perform_reports (w := s.workspace b) reached.placed c).onward
    · rw [step, after]
      exact .rfl
  | sync t cursor => exact .later (Nat.lt_succ_self _)

theorem run_onward (reached : s.Reachable) (inputs : List (RegisterBank × Input)) :
    s.editor.Onward (s.run inputs).editor := by
  induction inputs generalizing s with
  | nil => exact .rfl
  | cons input rest ih =>
    exact (step_onward reached input.1 input.2).trans (ih (reached.next input.1 input.2))

/-- From any moment of a run on to any later one. -/
theorem run_take_onward (reached : s.Reachable) (inputs : List (RegisterBank × Input))
    (h : i ≤ j) : (s.run (inputs.take i)).editor.Onward (s.run (inputs.take j)).editor := by
  obtain ⟨n, rfl⟩ := Nat.exists_eq_add_of_le h
  rw [List.take_add, run_append]
  exact run_onward (reached.run _) _

theorem press_of_ahead (reached : s.Reachable) {b : RegisterBank} {k : KeyPress}
    (performed : (s.press b k).2 = .performed c outcome) (normal : s.editor.mode = .normal)
    (ahead : s.editor.ahead c ≠ []) : s.editor.revision < (s.step b (.press k)).editor.revision := by
  have report := Workspace.perform_reports (w := s.workspace b) reached.placed c
  have edited := Workspace.perform_of_ahead (w := s.workspace b) normal ahead
  rw [step, press_performed performed]
  exact report.sound.2.2.1.mp (by rw [edited]; rfl)

/-- In the course of a run revisions never go down, and two moments with the same revision have the
same text, however far they are apart. Going back or forth in the history, if there is anything to
go to, leads to a revision that has not been seen before. -/
theorem equal_revisions_equal_texts (t : Text) (m : Mode) (cursor undoLevels : Nat)
    (inputs : List (RegisterBank × Input)) :
    let after (n : Nat) : Session := (ofText t m cursor undoLevels).run (inputs.take n)
    let seen (n : Nat) : Snapshot := (after n).editor.snapshot
    (∀ i j, i ≤ j → (seen i).revision ≤ (seen j).revision) ∧
      (∀ i j, (seen i).revision = (seen j).revision → (seen i).text = (seen j).text) ∧
      ∀ n b k c outcome, inputs[n]? = some (b, .press k) →
        ((after n).press b k).2 = .performed c outcome → (after n).editor.mode = .normal →
        (after n).editor.ahead c ≠ [] → ∀ i ≤ n, (seen i).revision < (seen (n + 1)).revision := by
  intro after seen
  have opened : (ofText t m cursor undoLevels).Reachable := .opened t m cursor undoLevels
  have onward {i j : Nat} (h : i ≤ j) : (after i).editor.Onward (after j).editor :=
    run_take_onward opened inputs h
  refine ⟨fun i j h => (onward h).revision_le, fun i j equal => ?_, ?_⟩
  · rcases Nat.le_total i j with h | h
    · exact (onward h).text_eq equal
    · exact ((onward h).text_eq equal.symm).symm
  · intro n b k c outcome input performed normal ahead i h
    have next : after (n + 1) = (after n).step b (.press k) := by
      dsimp only [after]
      rw [List.take_add_one, input, Option.toList_some, run_append]
      rfl
    have up := press_of_ahead (opened.run _) performed normal ahead
    rw [← next] at up
    exact Nat.lt_of_le_of_lt (onward h).revision_le up

/-- A deletion, undone, and brought back from outside; that text, in turn, is undone and redone. The
texts come back and the revisions do not. The motion in between shows in neither. -/
theorem equal_revisions_equal_texts_after_undo :
    let inputs : List (RegisterBank × Input) :=
      [({}, .press (.char 'x')), ({}, .press (.char 'u')), ({}, .press (.char 'l')),
        ({}, .sync ['b'] 0), ({}, .press (.char 'u')), ({}, .press (.ctrl 'r'))]
    let after (n : Nat) : Session := (ofText ['a', 'b'] .normal 0 100).run (inputs.take n)
    let seen (n : Nat) : Snapshot := (after n).editor.snapshot
    (seen 0).text = (seen 2).text ∧ (seen 0).revision < (seen 2).revision ∧
      (seen 1).text = (seen 4).text ∧ (seen 1).revision ≤ (seen 4).revision ∧
      (seen 2).cursor ≠ (seen 3).cursor ∧ (seen 2).text = (seen 3).text ∧
      (∀ i ≤ 5, (seen i).revision < (seen 6).revision) := by
  intro inputs after seen
  obtain ⟨up, same, fresh⟩ := equal_revisions_equal_texts ['a', 'b'] .normal 0 100 inputs
  refine ⟨by decide, ?_, by decide, up 1 4 (by decide), by decide, same 2 3 (by decide), ?_⟩
  · exact fresh 1 {} (.char 'u') (.undo 1) .edited rfl (by decide) (by decide) (by decide) 0
      (by decide)
  · exact fresh 5 {} (.ctrl 'r') (.redo 1) .edited rfl (by decide) (by decide) (by decide)

end Session

end ModalEdit
