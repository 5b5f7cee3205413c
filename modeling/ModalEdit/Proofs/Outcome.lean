import ModalEdit.Proofs.Insertion
import ModalEdit.Proofs.Placement

/-! What a command reports of itself is what it has done: a command that reports no change has left
all that can be seen as it was, and a change of the text is reported just when the revision has
gone up. Cursors that are cut to their range on the way are in it already, so that cutting them is
no change. -/
namespace ModalEdit

namespace Editor

/-- The same text, with the same steps of the history around it. -/
structure SameText (e e' : Editor) : Prop where
  text : e'.text = e.text
  revision : e'.revision = e.revision
  undos : e'.history.undos = e.history.undos
  redos : e'.history.redos = e.history.redos

/-- The same in all that can be seen of an editor. -/
structure SameView (e e' : Editor) : Prop extends SameText e e' where
  cursor : e'.cursor = e.cursor
  mode : e'.mode = e.mode
  anchor : e'.anchor? = e.anchor?
  selection : e'.selection? = e.selection?

variable {e e₁ e₂ e₃ : Editor}

theorem SameText.rfl : e.SameText e := ⟨.refl _, .refl _, .refl _, .refl _⟩

theorem SameText.trans (first : e₁.SameText e₂) (second : e₂.SameText e₃) : e₁.SameText e₃ :=
  ⟨second.text.trans first.text, second.revision.trans first.revision,
    second.undos.trans first.undos, second.redos.trans first.redos⟩

theorem SameView.rfl : e.SameView e := ⟨.rfl, .refl _, .refl _, .refl _, .refl _⟩

theorem SameView.trans (first : e₁.SameView e₂) (second : e₂.SameView e₃) : e₁.SameView e₃ :=
  ⟨first.toSameText.trans second.toSameText, second.cursor.trans first.cursor,
    second.mode.trans first.mode, second.anchor.trans first.anchor,
    second.selection.trans first.selection⟩

@[simp] theorem setMode_revision (e : Editor) (m : Mode) :
    (e.setMode m).revision = e.revision := by
  simp only [setMode]
  split <;> rfl

theorem setMode_sameText (e : Editor) (m : Mode) : e.SameText (e.setMode m) :=
  ⟨by simp, by simp, by simp, by simp⟩

theorem clampCursor_of_le (cursor : e.cursor ≤ e.maxCursor) : e.clampCursor = e := by
  rw [clampCursor, Nat.min_eq_left cursor]

/-- As long as nothing has moved, the selection is the one that there is. -/
theorem Placed.refreshSelection_selection (placed : e.Placed) :
    e.refreshSelection.selection? = e.selection? := by
  obtain ⟨_, rest⟩ := placed
  simp only [refreshSelection]
  split at rest
  · rename_i kind
    rw [kind, rest.2, Option.map_none]
  · rename_i kind same
    obtain ⟨a, bound, anchor, selected⟩ := rest
    have within : min a e.text.length = a := by omega
    rw [same, anchor, selected, Option.map_some, Option.getD_some, within]

end Editor

theorem History.markOrigin_stacks (h : History) (i : Nat) :
    (h.markOrigin i).undos = h.undos ∧ (h.markOrigin i).redos = h.redos := by
  simp only [markOrigin]
  split <;> exact ⟨rfl, rfl⟩

theorem Outcome.merge_comm (a b : Outcome) : a.merge b = b.merge a := by
  simp [merge, Bool.or_comm]

/-- What can truly be reported of the way from one editor to another. -/
inductive Outcome.Reports (e e' : Editor) : Outcome → Prop where
  | unchanged (view : e.SameView e') : Reports e e' .unchanged
  | moved (text : e.SameText e') : Reports e e' .moved
  | edited (later : e.revision < e'.revision) : Reports e e' .edited

namespace Outcome.Reports

variable {e e₁ e₂ : Editor} {first second : Outcome}

theorem merge (report : first.Reports e e₁) (report' : second.Reports e₁ e₂) :
    (first.merge second).Reports e e₂ := by
  cases report with
  | unchanged view =>
    cases report' with
    | unchanged view' => exact .unchanged (view.trans view')
    | moved text => exact .moved (view.toSameText.trans text)
    | edited later => exact .edited (view.revision ▸ later)
  | moved text =>
    cases report' with
    | unchanged view => exact .moved (text.trans view.toSameText)
    | moved text' => exact .moved (text.trans text')
    | edited later => exact .edited (text.revision ▸ later)
  | edited later =>
    cases report' with
    | unchanged view => exact .edited (view.revision ▸ later)
    | moved text => exact .edited (text.revision ▸ later)
    | edited later' => exact .edited (Nat.lt_trans later later')

/-- What a true report says. -/
theorem sound (report : first.Reports e e₁) :
    (first.dirty = false → e.SameView e₁) ∧ (first.textChanged = false → e.SameText e₁) ∧
      (first.textChanged = true ↔ e.revision < e₁.revision) ∧
      (first.textChanged = true → first.dirty = true) := by
  cases report with
  | unchanged view =>
    have still := Nat.not_lt_of_le (Nat.le_of_eq view.revision)
    exact ⟨fun _ => view, fun _ => view.toSameText, iff_of_false nofun still, nofun⟩
  | moved text =>
    have still := Nat.not_lt_of_le (Nat.le_of_eq text.revision)
    exact ⟨nofun, fun _ => text, iff_of_false nofun still, nofun⟩
  | edited later => exact ⟨nofun, nofun, iff_of_true rfl later, fun _ => rfl⟩

end Outcome.Reports

namespace Workspace

open Outcome (Reports)

variable {w : Workspace}

theorem skip_reports : w.skip.2.Reports w.editor w.skip.1.editor := .unchanged .rfl

theorem withFind_reports (f? : Option Find) :
    (w.withFind f?).skip.2.Reports w.editor (w.withFind f?).skip.1.editor :=
  .unchanged ⟨⟨rfl, rfl, rfl, rfl⟩, rfl, rfl, rfl, rfl⟩

/-! ### Moving and selecting -/

theorem move_reports (placed : w.editor.Placed) (m : Motion) (count : Nat) :
    (w.move m count).2.Reports w.editor (w.move m count).1.editor := by
  obtain ⟨f?, remembered⟩ := rememberFind_eq w.editor m
  simp only [move]
  rw [remembered]
  dsimp only
  split
  · exact withFind_reports f?
  · rename_i landing _
    by_cases stays : landing.target = w.editor.cursor
    · simp only [stays, if_true]
      apply Reports.unchanged
      split
      · exact ⟨⟨rfl, rfl, rfl, rfl⟩, rfl, rfl, rfl, placed.refreshSelection_selection⟩
      · exact ⟨⟨rfl, rfl, rfl, rfl⟩, rfl, rfl, rfl, rfl⟩
    · simp only [stays, if_false]
      apply Reports.moved
      split <;> exact ⟨rfl, rfl, rfl, rfl⟩

theorem selectObject_reports (o : TextObject) (count : Nat) :
    (w.selectObject o count).2.Reports w.editor (w.selectObject o count).1.editor := by
  simp only [selectObject]
  split
  · split
    · exact skip_reports
    · exact .moved ⟨by simp, by simp, by simp, by simp⟩
  · exact skip_reports

theorem swapAnchor_reports : w.swapAnchor.2.Reports w.editor w.swapAnchor.1.editor := by
  simp only [swapAnchor]
  split
  · exact skip_reports
  · exact .moved ⟨rfl, rfl, rfl, rfl⟩

theorem startVisual_reports (m : Mode) :
    (w.startVisual m).2.Reports w.editor (w.startVisual m).1.editor := by
  simp only [startVisual]
  split
  · exact skip_reports
  · exact .moved (w.editor.setMode_sameText m)

theorem leaveVisual_reports : w.leaveVisual.2.Reports w.editor w.leaveVisual.1.editor := by
  simp only [leaveVisual]
  split
  · exact .moved ⟨rfl, rfl, rfl, rfl⟩
  · exact skip_reports

/-! ### Operators -/

theorem yank_editor (cursor : w.editor.cursor ≤ w.editor.maxCursor) (x : Extent)
    (register : Option RegisterName) : (w.yank x register).1.editor = w.editor := by
  simp only [yank, Editor.clampCursor_of_le cursor]
  split <;> rfl

theorem operateOn_reports (cursor : w.editor.cursor ≤ w.editor.maxCursor) (op : Operator)
    (x : Extent) (register : Option RegisterName) :
    (w.operateOn op x register).2.Reports w.editor (w.operateOn op x register).1.editor := by
  cases op with
  | yank =>
    simp only [operateOn, yank]
    split
    · exact skip_reports
    · rw [Editor.clampCursor_of_le cursor]
      exact .unchanged .rfl
  | delete =>
    simp only [operateOn, delete]
    split
    · exact skip_reports
    · apply Reports.edited
      simp [Editor.removeSpan, Editor.edit, Editor.pushCheckpoint]
  | change =>
    have marked := w.editor.history.markOrigin_stacks w.editor.cursor
    simp only [operateOn, change]
    split
    · exact .moved ⟨rfl, rfl, marked.1, marked.2⟩
    · exact .edited (Nat.lt_succ_self _)

theorem operate_reports (placed : w.editor.Placed) (op : Operator) (target : Target) (count : Nat)
    (register : Option RegisterName) :
    (w.operate op target count register).2.Reports w.editor
      (w.operate op target count register).1.editor := by
  obtain ⟨f?, same | ⟨_, x, r, _, same, _⟩⟩ := w.operate_cases op target count register
  · rw [same]
    exact withFind_reports f?
  · have report := operateOn_reports (w := w.withFind f?) placed.1 op x register
    rw [same]
    exact (withFind_reports f?).merge report

theorem operateSelection_reports (placed : w.editor.Placed) (op : Operator)
    (register : Option RegisterName) :
    (w.operateSelection op register).2.Reports w.editor
      (w.operateSelection op register).1.editor := by
  rcases w.operateSelection_cases op register with same | ⟨visual, s, i, selected, place, same⟩
  · rw [same]
    exact skip_reports
  · have cursor := placed.cursor_le (Mode.ne_insert_of_isVisual visual)
    have start := placed.selection_start_le selected
    have within : i ≤ w.editor.text.length - 1 := by
      rcases place with rfl | rfl <;> omega
    have left : Outcome.moved.Reports w.editor { w.editor.setMode .normal with cursor := i } :=
      .moved ⟨rfl, rfl, rfl, rfl⟩
    have report := operateOn_reports
      (w := { w with editor := { w.editor.setMode .normal with cursor := i } }) within op
      ⟨s.span, s.kind = .lines⟩ register
    rw [same, Prod.map_snd, Outcome.merge_comm]
    exact left.merge report

/-! ### Insertions -/

theorem enterInsert_reports (entry : InsertEntry) (count : Nat) :
    (w.enterInsert entry count).2.Reports w.editor (w.enterInsert entry count).1.editor := by
  have marked := w.editor.history.markOrigin_stacks w.editor.cursor
  simp only [enterInsert, inMode]
  split
  · cases entry.opensLine with
    | true => exact .edited (Nat.lt_succ_self _)
    | false => exact .moved ⟨rfl, rfl, marked.1, marked.2⟩
  · exact skip_reports

theorem insertText_reports (t : Text) :
    (w.insertText t).2.Reports w.editor (w.insertText t).1.editor := by
  simp only [insertText, inMode]
  split
  · exact skip_reports
  · split
    · exact .edited (Nat.lt_succ_self _)
    · exact skip_reports

theorem backspace_reports : w.backspace.2.Reports w.editor w.backspace.1.editor := by
  simp only [backspace, inMode]
  split
  · exact skip_reports
  · split
    · exact .edited (Nat.lt_succ_self _)
    · exact skip_reports

/-- Copies are due only if there is at least one of them. -/
theorem dueCopies_ne_nil {pieces : List Text} (due : w.dueCopies = some (i, pieces)) :
    pieces ≠ [] := by
  have several {count : Nat} (more : ¬count ≤ 1) (piece : Text) :
      List.replicate (count - 1) piece ≠ [] := by
    rw [ne_eq, List.replicate_eq_nil_iff]
    omega
  unfold dueCopies at due
  split at due
  · split at due
    · cases due
    · rename_i more
      split at due
      · cases due
        exact several more _
      · cases due
        exact several more _
  · cases due

theorem leaveInsert_reports : w.leaveInsert.2.Reports w.editor w.leaveInsert.1.editor := by
  simp only [leaveInsert, inMode]
  split
  · cases due : w.dueCopies with
    | none => exact .moved ⟨rfl, rfl, rfl, rfl⟩
    | some copies =>
      have some_copy := List.length_pos_iff.mpr (dueCopies_ne_nil due)
      exact .edited (Nat.lt_add_of_pos_right some_copy)
  · exact skip_reports

/-! ### Edits that are complete at once -/

theorem replaceChar_reports (c : Char) (count : Nat) :
    (w.replaceChar c count).2.Reports w.editor (w.replaceChar c count).1.editor := by
  simp only [replaceChar, inMode]
  split
  · exact skip_reports
  · split
    · exact .edited (Nat.lt_succ_self _)
    · exact skip_reports

theorem joinLines_reports (count : Nat) :
    (w.joinLines count).2.Reports w.editor (w.joinLines count).1.editor := by
  simp only [joinLines, inMode]
  split
  · exact skip_reports
  · rename_i more
    split
    · exact .edited (joinMany_revision (e := w.editor.pushCheckpoint) (Nat.lt_of_not_le more)
        (max (count - 1) 1) (by omega))
    · exact skip_reports

theorem paste_reports (before : Bool) (count : Nat) (name? : Option RegisterName) :
    (w.paste before count name?).2.Reports w.editor (w.paste before count name?).1.editor := by
  unfold paste inMode
  split
  · dsimp only
    split
    · exact .unchanged .rfl
    · exact .edited (Nat.lt_succ_self _)
  · exact skip_reports

theorem travelMany_revision {step : Editor → Option Editor}
    (up : ∀ e e', step e = some e' → e.revision < e'.revision) (n : Nat) (e : Editor) :
    e.revision ≤ (travelMany step n e).revision := by
  induction n generalizing e with
  | zero => exact Nat.le_refl _
  | succ n ih =>
    simp only [travelMany]
    split
    · rename_i e' stepped
      exact Nat.le_trans (Nat.le_of_lt (up _ _ stepped)) (ih e')
    · exact Nat.le_refl _

theorem travel_reports {step : Editor → Option Editor}
    (up : ∀ e e', step e = some e' → e.revision < e'.revision) (count : Nat) :
    (w.travel step count).2.Reports w.editor (w.travel step count).1.editor := by
  simp only [travel, inMode]
  split
  · split
    · exact skip_reports
    · rename_i e stepped
      exact .edited (Nat.lt_of_lt_of_le (up _ _ stepped) (travelMany_revision up (count - 1) e))
  · exact skip_reports

theorem undo?_revision (e e' : Editor) (undone : e.undo? = some e') : e.revision < e'.revision := by
  obtain ⟨arrival, _, rfl⟩ := Option.map_eq_some_iff.mp undone
  exact Nat.lt_succ_self _

theorem redo?_revision (e e' : Editor) (redone : e.redo? = some e') : e.revision < e'.revision := by
  obtain ⟨arrival, _, rfl⟩ := Option.map_eq_some_iff.mp redone
  exact Nat.lt_succ_self _

theorem doEdit_reports (placed : w.editor.Placed) (count : Nat) (edit : Edit) :
    (w.doEdit count edit).2.Reports w.editor (w.doEdit count edit).1.editor := by
  cases edit with
  | operate op target register => exact operate_reports placed op target count register
  | insert entry => exact enterInsert_reports entry count
  | replace c => exact replaceChar_reports c count
  | paste before register => exact paste_reports before count register
  | joinLines => exact joinLines_reports count

/-! ### All commands -/

theorem followedBy_reports {e : Editor} {done : Workspace × Outcome}
    {f : Workspace → Workspace × Outcome} (first : done.2.Reports e done.1.editor)
    (second : (f done.1).2.Reports done.1.editor (f done.1).1.editor) :
    (followedBy done f).2.Reports e (followedBy done f).1.editor := first.merge second

theorem repeatLast_reports (placed : w.editor.Placed) (count? : Option Nat) :
    (w.repeatLast count?).2.Reports w.editor (w.repeatLast count?).1.editor := by
  simp only [repeatLast, inMode]
  split
  · split
    · exact skip_reports
    · rename_i c _
      have done := doEdit_reports placed (count?.getD c.count) c.edit
      simp only [retype]
      split
      · exact followedBy_reports (followedBy_reports done (insertText_reports _))
          leaveInsert_reports
      · exact done
  · exact skip_reports

theorem perform_reports (placed : w.editor.Placed) (c : Command) :
    (w.perform c).2.Reports w.editor (w.perform c).1.editor := by
  cases c with
  | move m count => exact move_reports placed m count
  | edit e count => exact doEdit_reports placed count e
  | operateSelection op register => exact operateSelection_reports placed op register
  | selectObject o count => exact selectObject_reports o count
  | swapAnchor => exact swapAnchor_reports
  | startVisual | startVisualLine => exact startVisual_reports _
  | leaveVisual => exact leaveVisual_reports
  | leaveInsert => exact leaveInsert_reports
  | insertText t => exact insertText_reports t
  | insertBreak => exact insertText_reports _
  | backspace => exact backspace_reports
  | undo count => exact travel_reports undo?_revision count
  | redo count => exact travel_reports redo?_revision count
  | repeatLast count? => exact repeatLast_reports placed count?

/-! ### What is not there -/

/-- Does an edit look for something that is not there? -/
def EditMisses (e : Editor) (count : Nat) : Edit → Prop
  | .operate _ target _ => targetExtent? e target count = none
  | .replace _ => e.text.lineEnd (e.text.lineOf e.cursor) < e.cursor + max count 1
  | .joinLines => e.text.lastLine ≤ e.text.lineOf e.cursor
  | .insert _ | .paste _ _ => False

/-- Does a command look for something that is not there: a place to move to, the range of an
operator, an object to select, as many characters as are to be replaced, or a line to join? -/
def Misses (w : Workspace) : Command → Prop
  | .move m count => m.resolve w.editor.text w.editor.cursor count (cursorContext w.editor) = none
  | .edit e count => EditMisses w.editor count e
  | .selectObject o count => o.resolve w.editor.text w.editor.cursor count = none
  | .repeatLast count? =>
    ∃ c, w.recorder.last? = some c ∧ EditMisses w.editor (count?.getD c.count) c.edit
  | _ => False

/-- Where a motion leads does not depend on the search that it replaces. -/
theorem resolve_rememberFind (e : Editor) (m : Motion) (t : Text) (i count : Nat) :
    m.resolve t i count (cursorContext (rememberFind e m)) =
      m.resolve t i count (cursorContext e) := by
  cases m <;> rfl

theorem doEdit_of_misses {edit : Edit} (misses : EditMisses w.editor count edit) :
    ∃ f?, w.doEdit count edit = (w.withFind f?).skip := by
  cases edit with
  | operate op target register => exact operate_of_miss op register misses
  | replace c => exact ⟨w.editor.lastFind?, if_pos misses⟩
  | joinLines => exact ⟨w.editor.lastFind?, if_pos misses⟩
  | insert | paste => exact misses.elim

/-- A command that does not find what it looks for does nothing but remember the search that it
was given. -/
theorem perform_of_misses {c : Command} (misses : w.Misses c) :
    ∃ f?, w.perform c = (w.withFind f?).skip := by
  cases c with
  | move m count =>
    obtain ⟨f?, remembered⟩ := rememberFind_eq w.editor m
    have nowhere : m.resolve w.editor.text w.editor.cursor count
        (cursorContext (rememberFind w.editor m)) = none := by
      rw [resolve_rememberFind]
      exact misses
    rw [remembered] at nowhere
    refine ⟨f?, ?_⟩
    simp only [perform, move, remembered, nowhere]
    rfl
  | edit e count => exact doEdit_of_misses misses
  | selectObject o count =>
    have nothing : o.resolve w.editor.text w.editor.cursor count = none := misses
    refine ⟨w.editor.lastFind?, ?_⟩
    simp only [perform, selectObject, nothing, Option.filter_none]
    split <;> rfl
  | repeatLast count? =>
    obtain ⟨c, last, misses⟩ := misses
    by_cases normal : w.editor.mode = .normal
    · obtain ⟨f?, nothing⟩ := doEdit_of_misses misses
      have mode : (w.withFind f?).editor.mode ≠ .insert := by simp [withFind, normal]
      refine ⟨f?, ?_⟩
      rw [perform, repeatLast, inMode, if_pos normal, last]
      dsimp only
      rw [nothing, retype]
      simp [skip, mode]
    · exact ⟨w.editor.lastFind?, if_neg normal⟩
  | _ => exact misses.elim

end Workspace

namespace Session

variable {s : Session}

/-- What a command reports is true of every state and every command, with or without meaning in the
mode: no change if nothing that can be seen has changed, a change of the text just if the revision
has gone up. A command that does not find what it looks for does nothing but remember the search
that it was given, and reports no change. -/
theorem outcome_tells_changes (reached : s.Reachable) (b : RegisterBank) (c : Command) :
    let w := s.workspace b
    let done := w.perform c
    (done.2.dirty = false → w.editor.SameView done.1.editor) ∧
      (done.2.textChanged = false → w.editor.SameText done.1.editor) ∧
      (done.2.textChanged = true ↔ w.editor.revision < done.1.editor.revision) ∧
      (done.2.textChanged = true → done.2.dirty = true) ∧
      (w.Misses c → ∃ f?, done = (w.withFind f?, .unchanged)) := by
  intro w done
  have report := Workspace.perform_reports (w := w) reached.placed c
  obtain ⟨clean, kept, changed, dirty⟩ := report.sound
  exact ⟨clean, kept, changed, dirty, Workspace.perform_of_misses⟩

/-- Two characters are left where three are to be replaced. -/
theorem outcome_tells_missing_characters :
    let s := (ofText ['a', '\n', 'b', 'c'] .normal 0 100).run [({}, .press (.char 'j'))]
    let w := s.workspace {}
    let done := w.perform (.edit (.replace 'x') 3)
    s.Reachable ∧ w.Misses (.edit (.replace 'x') 3) ∧ w.editor.cursor = 2 ∧
      w.editor.SameView done.1.editor ∧ ¬w.editor.revision < done.1.editor.revision ∧
      ∃ f?, done = (w.withFind f?, .unchanged) := by
  intro s w done
  have reached : s.Reachable := (Reachable.opened _ _ _ _).run _
  have misses : w.Misses (.edit (.replace 'x') 3) := by
    show w.editor.text.lineEnd (w.editor.text.lineOf w.editor.cursor) < w.editor.cursor + max 3 1
    decide
  obtain ⟨clean, _, changed, _, nothing⟩ :=
    outcome_tells_changes reached {} (.edit (.replace 'x') 3)
  have still : ¬w.editor.revision < done.1.editor.revision := by
    rw [← changed]
    decide
  exact ⟨reached, misses, by decide, clean (by decide), still, nothing misses⟩

end Session

end ModalEdit
