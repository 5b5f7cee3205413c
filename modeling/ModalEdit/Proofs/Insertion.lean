import ModalEdit.Proofs.Operating

/-! An edit, with the insertion that it may go on with, is one step of the history. Some edits push
their checkpoint at once and others with the first character typed; an edit that has changed the
text is covered by a checkpoint of the state in which it began, and by no other. -/
namespace ModalEdit

namespace Workspace

/-! ### What the commands of an insertion come to -/

variable {w : Workspace}

/-- An edit of an insertion. -/
def insertionEdit (w : Workspace) (t : Text) (i : Nat) (r : Recorder) : Workspace :=
  { w with
    editor := { (w.editor.beginRun.noteEdits 1).edit t with cursor := i, wanted? := none }
    recorder := r }

/-- What a key that types or takes back characters can do. -/
inductive InsertionStep (w w' : Workspace) : Prop where
  | nothing (same : w' = w)
  | edit (mode : w.editor.mode = .insert) (t : Text) (i : Nat) (r : Recorder)
      (same : w' = w.insertionEdit t i r)

theorem insertText_step (w : Workspace) (t : Text) : InsertionStep w (w.insertText t).1 := by
  simp only [insertText, inMode]
  split
  · exact .nothing rfl
  · split
    · rename_i insert
      exact .edit insert _ _ _ rfl
    · exact .nothing rfl

theorem backspace_step (w : Workspace) : InsertionStep w w.backspace.1 := by
  simp only [backspace, inMode]
  split
  · exact .nothing rfl
  · split
    · rename_i insert
      exact .edit insert _ _ _ rfl
    · exact .nothing rfl

theorem InsertionStep.mode {w w' : Workspace} (step : InsertionStep w w') :
    w'.editor.mode = w.editor.mode := by
  cases step with
  | nothing same => rw [same]
  | edit _ t i r same =>
    rw [same]
    rfl

/-- A motion changes neither the text nor the history, and it adds nothing to what was typed. -/
theorem move_kept (w : Workspace) (m : Motion) (count : Nat) :
    (w.move m count).1.editor.text = w.editor.text ∧
      (w.move m count).1.editor.mode = w.editor.mode ∧
      (w.move m count).1.editor.revision = w.editor.revision ∧
      (w.move m count).1.editor.history = w.editor.history ∧
      ((w.move m count).1.recorder = w.recorder ∨ (w.move m count).1.recorder.typed = []) := by
  obtain ⟨f?, remembered⟩ := rememberFind_eq w.editor m
  simp only [move]
  rw [remembered]
  dsimp only
  split
  · exact ⟨rfl, rfl, rfl, rfl, .inl rfl⟩
  · rename_i landing _
    have recorder : (if w.editor.mode = .insert ∧ !decide (landing.target = w.editor.cursor) then
        w.recorder.reset else w.recorder) = w.recorder ∨ (if w.editor.mode = .insert ∧
        !decide (landing.target = w.editor.cursor) then w.recorder.reset else w.recorder).typed =
        [] := by
      split
      · exact .inr rfl
      · exact .inl rfl
    split
    · exact ⟨rfl, rfl, rfl, rfl, recorder⟩
    · exact ⟨rfl, rfl, rfl, rfl, recorder⟩

theorem dueCopies_of_typed (nothing : w.recorder.typed = []) : w.dueCopies = none := by
  simp only [dueCopies]
  rw [nothing]
  split
  · rename_i same
    cases same
  · rfl

/-- Ending an insertion changes the text only if something was typed in it. -/
theorem leaveInsert_kept (insert : w.editor.mode = .insert) :
    w.leaveInsert.1.editor.mode = .normal ∧
      w.leaveInsert.1.editor.history = w.editor.history.endRun ∧
      w.leaveInsert.1.recorder.typed = [] ∧
      w.editor.revision ≤ w.leaveInsert.1.editor.revision ∧
      (w.recorder.typed = [] → w.leaveInsert.1.editor.text = w.editor.text ∧
        w.leaveInsert.1.editor.revision = w.editor.revision) := by
  have ended (n : Nat) : (w.editor.history.noteEdits n).endRun = w.editor.history.endRun := by
    simp only [History.noteEdits]
    split <;> rfl
  simp only [leaveInsert, inMode]
  rw [if_pos insert]
  cases due : w.dueCopies with
  | none => exact ⟨rfl, rfl, rfl, Nat.le_refl _, fun _ => ⟨rfl, rfl⟩⟩
  | some copies =>
    refine ⟨rfl, ended _, rfl, Nat.le_add_right _ _, fun nothing => ?_⟩
    rw [dueCopies_of_typed nothing] at due
    cases due

end Workspace

namespace History

/-- No insertion is going on. -/
structure Idle (h : History) : Prop where
  run : h.run = .inactive
  origin : h.origin? = none

variable {h : History}

theorem Idle.markOrigin (idle : h.Idle) (i : Nat) :
    h.markOrigin i = { h with origin? := some i } := by
  simp [History.markOrigin, idle.run]

/-- A checkpoint that was pushed at once covers the insertion too. -/
theorem Idle.adoptRun_push (idle : h.Idle) (i : Nat) (c : Checkpoint) :
    ((h.markOrigin i).push c).adoptRun = { h.push c with run := .active 0 } := by
  rw [idle.markOrigin]
  simp only [push, adoptRun, idle.run, idle.origin]

theorem Idle.beginRun (idle : h.Idle) (h₀ : i ≤ now.text.length) :
    ({ h with origin? := some i }.beginRun now).noteEdits 1 =
      { h.push ⟨now.text, i⟩ with run := .active 1 } := by
  simp only [History.beginRun, noteEdits, push, idle.run, idle.origin, Option.getD_some,
    Nat.min_eq_left h₀, Nat.zero_add]

theorem Idle.push (idle : h.Idle) (c : Checkpoint) : (h.push c).Idle := ⟨idle.run, idle.origin⟩

theorem Idle.endRun (idle : h.Idle) (run : InsertRun) (origin? : Option Nat) :
    { h with run, origin? }.endRun = h := by
  simp only [History.endRun, ← idle.run, ← idle.origin]

end History

namespace Workspace

/-! ### How far an edit has come -/

variable {w : Workspace}

/-- No insertion is going on, and nothing is left of an earlier one. -/
structure Idle (w : Workspace) : Prop where
  history : w.editor.history.Idle
  typed : w.recorder.typed = []

/-- How far an edit has come that began at the editor `e`. -/
inductive Edited (e : Editor) (w : Workspace) : Prop where
  /-- It is over and has changed nothing. -/
  | unchanged (mode : w.editor.mode = .normal) (typed : w.recorder.typed = [])
      (text : w.editor.text = e.text) (revision : w.editor.revision = e.revision)
      (history : w.editor.history = e.history)
  /-- It is over, and one checkpoint covers what it has changed. -/
  | changed (mode : w.editor.mode = .normal) (typed : w.recorder.typed = [])
      (revision : e.revision < w.editor.revision)
      (history : w.editor.history = e.history.push e.checkpoint)
  /-- Its insertion goes on and has changed nothing yet. -/
  | opened (mode : w.editor.mode = .insert) (typed : w.recorder.typed = [])
      (text : w.editor.text = e.text) (revision : w.editor.revision = e.revision)
      (history : w.editor.history = { e.history with origin? := some e.cursor })
  /-- Its insertion goes on, and one checkpoint covers what has been changed and what will be. -/
  | covered (mode : w.editor.mode = .insert) (edits : Nat)
      (revision : e.revision < w.editor.revision)
      (history : w.editor.history = { e.history.push e.checkpoint with run := .active edits })

namespace Edited

variable {e e' : Editor} {r : Recorder}

theorem of_same (edited : Edited e' w) (now : e'.checkpoint = e.checkpoint)
    (revision : e'.revision = e.revision) (history : e'.history = e.history) : Edited e w := by
  obtain ⟨text, cursor⟩ := Checkpoint.mk.inj now
  cases edited with
  | unchanged mode typed text' revision' history' =>
    exact .unchanged mode typed (text'.trans text) (revision'.trans revision)
      (history'.trans history)
  | changed mode typed revision' history' =>
    exact .changed mode typed (revision ▸ revision') (by rw [history', history, now])
  | opened mode typed text' revision' history' =>
    exact .opened mode typed (text'.trans text) (revision'.trans revision)
      (by rw [history', history, cursor])
  | covered mode edits revision' history' =>
    exact .covered mode edits (revision ▸ revision') (by rw [history', history, now])

theorem with_recorder (edited : Edited e w) (typed : r.typed = []) :
    Edited e { w with recorder := r } := by
  cases edited with
  | unchanged mode _ text revision history => exact .unchanged mode typed text revision history
  | changed mode _ revision history => exact .changed mode typed revision history
  | opened mode _ text revision history => exact .opened mode typed text revision history
  | covered mode edits revision history => exact .covered mode edits revision history

theorem with_registers (edited : Edited e w) (b : RegisterBank) :
    Edited e { w with registers := b } := by
  cases edited with
  | unchanged mode typed text revision history => exact .unchanged mode typed text revision history
  | changed mode typed revision history => exact .changed mode typed revision history
  | opened mode typed text revision history => exact .opened mode typed text revision history
  | covered mode edits revision history => exact .covered mode edits revision history

end Edited

/-! ### Edits -/

theorem skip_edited (idle : w.Idle) (normal : w.editor.mode = .normal) :
    Edited w.editor w.skip.1 := .unchanged normal idle.typed rfl rfl rfl

theorem operateOn_edited (idle : w.Idle) (normal : w.editor.mode = .normal) (op : Operator)
    (x : Extent) (register : Option RegisterName) :
    Edited w.editor (w.operateOn op x register).1 := by
  cases op with
  | yank =>
    simp only [operateOn, yank]
    split
    · exact skip_edited idle normal
    · exact .unchanged normal idle.typed rfl rfl rfl
  | delete =>
    simp only [operateOn, delete]
    split
    · exact skip_edited idle normal
    · obtain ⟨i, _, settled⟩ := Editor.settle_eq { w.editor.removeSpan (x.removal w.editor.text) with
        cursor := deletionLanding (w.editor.removeSpan (x.removal w.editor.text)).text x.span.start
          x.linewise }
      rw [settled]
      exact .changed normal idle.typed (Nat.lt_succ_self _) rfl
  | change =>
    simp only [operateOn, change]
    split
    · exact .opened rfl idle.typed rfl rfl (idle.history.markOrigin _)
    · exact .covered rfl 0 (Nat.lt_succ_self _) (idle.history.adoptRun_push _ _)

theorem operate_edited (idle : w.Idle) (normal : w.editor.mode = .normal) (op : Operator)
    (target : Target) (count : Nat) (register : Option RegisterName) :
    Edited w.editor (w.operate op target count register).1 := by
  obtain ⟨f?, same | ⟨_, x, r, _, same, recorder⟩⟩ := w.operate_cases op target count register
  · rw [same]
    exact .unchanged normal idle.typed rfl rfl rfl
  · have idle' : (w.withFind f?).Idle := ⟨idle.history, idle.typed⟩
    have edited := operateOn_edited idle' normal op x register
    have typed : r.typed = [] := by
      rcases recorder with ⟨_, rfl⟩ | ⟨_, rfl | rfl⟩
      · rfl
      · exact idle.typed
      · exact idle.typed
    rw [same]
    exact (edited.of_same (e := w.editor) rfl rfl rfl).with_recorder typed

theorem enterInsert_edited (idle : w.Idle) (normal : w.editor.mode = .normal)
    (entry : InsertEntry) (count : Nat) : Edited w.editor (w.enterInsert entry count).1 := by
  rw [enterInsert, inMode, if_pos normal]
  dsimp only
  cases opens : entry.opensLine with
  | true =>
    exact .covered rfl 0 (Nat.lt_succ_self _) (idle.history.adoptRun_push _ _)
  | false => exact .opened rfl rfl rfl rfl (idle.history.markOrigin _)

theorem replaceChar_edited (idle : w.Idle) (normal : w.editor.mode = .normal) (c : Char)
    (count : Nat) : Edited w.editor (w.replaceChar c count).1 := by
  simp only [replaceChar, inMode]
  split
  · exact skip_edited idle normal
  · exact .changed normal idle.typed (Nat.lt_succ_self _) rfl

theorem joinMany_kept (l n : Nat) (e : Editor) :
    (joinMany l n e).mode = e.mode ∧ (joinMany l n e).history = e.history ∧
      e.revision ≤ (joinMany l n e).revision := by
  induction n generalizing e with
  | zero => exact ⟨rfl, rfl, Nat.le_refl _⟩
  | succ n ih =>
    simp only [joinMany]
    split
    · exact ⟨rfl, rfl, Nat.le_refl _⟩
    · obtain ⟨mode, history, revision⟩ := ih _
      exact ⟨mode, history, Nat.le_of_succ_le revision⟩

/-- There is a second line to join, so the text changes. -/
theorem joinMany_revision {e : Editor} (more : l < e.text.lastLine) (n : Nat) (h : 0 < n) :
    e.revision < (joinMany l n e).revision := by
  obtain ⟨n, rfl⟩ := Nat.exists_eq_succ_of_ne_zero (Nat.ne_of_gt h)
  rw [joinMany, if_neg (Nat.not_le_of_lt more)]
  exact (joinMany_kept l n { e.edit _ with cursor := _ }).2.2

theorem joinLines_edited (idle : w.Idle) (normal : w.editor.mode = .normal) (count : Nat) :
    Edited w.editor (w.joinLines count).1 := by
  simp only [joinLines, inMode]
  split
  · exact skip_edited idle normal
  · rename_i more
    obtain ⟨mode, history, _⟩ := joinMany_kept (w.editor.text.lineOf w.editor.cursor)
      (max (count - 1) 1) w.editor.pushCheckpoint
    have revision := joinMany_revision (e := w.editor.pushCheckpoint) (Nat.lt_of_not_le more)
      (max (count - 1) 1) (by omega)
    exact .changed (mode.trans normal) idle.typed revision history

theorem paste_edited (idle : w.Idle) (normal : w.editor.mode = .normal) (before : Bool)
    (count : Nat) (name? : Option RegisterName) :
    Edited w.editor (w.paste before count name?).1 := by
  rw [paste, inMode, if_pos normal]
  dsimp only
  split
  · exact .unchanged normal idle.typed rfl rfl rfl
  · exact .changed normal idle.typed (Nat.lt_succ_self _) rfl

theorem doEdit_edited (idle : w.Idle) (normal : w.editor.mode = .normal) (count : Nat)
    (edit : Edit) : Edited w.editor (w.doEdit count edit).1 := by
  cases edit with
  | operate op target register => exact operate_edited idle normal op target count register
  | insert entry => exact enterInsert_edited idle normal entry count
  | replace c => exact replaceChar_edited idle normal c count
  | paste before register => exact paste_edited idle normal before count register
  | joinLines => exact joinLines_edited idle normal count

/-! ### Insertions -/

namespace Edited

variable {e : Editor}

/-- The first edit of an insertion pushes the checkpoint if none covers it yet. -/
theorem insertionEdit (edited : Edited e w) (idle : e.history.Idle)
    (cursor : e.cursor ≤ e.text.length) (insert : w.editor.mode = .insert) (t : Text) (i : Nat)
    (r : Recorder) : Edited e (w.insertionEdit t i r) := by
  have later : (w.insertionEdit t i r).editor.revision = w.editor.revision + 1 := rfl
  have begun : (w.insertionEdit t i r).editor.history =
      (w.editor.history.beginRun w.editor.checkpoint).noteEdits 1 := rfl
  cases edited with
  | unchanged mode | changed mode =>
    rw [mode] at insert
    cases insert
  | opened mode typed text revision history =>
    refine .covered mode 1 (by omega) ?_
    have within : e.cursor ≤ w.editor.checkpoint.text.length := by
      rw [Editor.checkpoint, text]
      exact cursor
    rw [begun, history, idle.beginRun within, Editor.checkpoint, text, ← Editor.checkpoint]
  | covered mode edits revision history =>
    refine .covered mode (edits + 1) (by omega) ?_
    rw [begun, history]
    rfl

theorem insertionStep (edited : Edited e w) (idle : e.history.Idle)
    (cursor : e.cursor ≤ e.text.length) (step : InsertionStep w w') : Edited e w' := by
  cases step with
  | nothing same =>
    rw [same]
    exact edited
  | edit insert t i r same =>
    rw [same]
    exact edited.insertionEdit idle cursor insert t i r

theorem move (edited : Edited e w) (m : Motion) (count : Nat) : Edited e (w.move m count).1 := by
  obtain ⟨text, mode, revision, history, recorder⟩ := w.move_kept m count
  have typed (before : w.recorder.typed = []) : (w.move m count).1.recorder.typed = [] := by
    rcases recorder with same | empty
    · rw [same]
      exact before
    · exact empty
  cases edited with
  | unchanged mode' typed' text' revision' history' =>
    exact .unchanged (mode.trans mode') (typed typed') (text.trans text')
      (revision.trans revision') (history.trans history')
  | changed mode' typed' revision' history' =>
    exact .changed (mode.trans mode') (typed typed') (revision ▸ revision')
      (history.trans history')
  | opened mode' typed' text' revision' history' =>
    exact .opened (mode.trans mode') (typed typed') (text.trans text') (revision.trans revision')
      (history.trans history')
  | covered mode' edits revision' history' =>
    exact .covered (mode.trans mode') edits (revision ▸ revision') (history.trans history')

/-- An edit is over when its insertion is. -/
theorem leaveInsert (edited : Edited e w) (idle : e.history.Idle) :
    Edited e w.leaveInsert.1 := by
  cases stage : edited with
  | unchanged mode | changed mode =>
    have stays : w.leaveInsert.1 = w := by simp [Workspace.leaveInsert, inMode, mode, skip]
    rw [stays]
    exact edited
  | opened insert typed text revision history =>
    obtain ⟨mode', history', typed', later, nothing⟩ := leaveInsert_kept insert
    obtain ⟨text', revision'⟩ := nothing typed
    refine .unchanged mode' typed' (text'.trans text) (revision'.trans revision) ?_
    rw [history', history, idle.endRun e.history.run]
  | covered insert edits revision history =>
    obtain ⟨mode', history', typed', later, _⟩ := leaveInsert_kept insert
    refine .changed mode' typed' (Nat.lt_of_lt_of_le revision later) ?_
    rw [history', history, (idle.push _).endRun _ (e.history.push e.checkpoint).origin?]

end Edited

theorem repeatLast_edited (idle : w.Idle) (cursor : w.editor.cursor ≤ w.editor.text.length)
    (normal : w.editor.mode = .normal) (count? : Option Nat) :
    Edited w.editor (w.repeatLast count?).1 := by
  rw [repeatLast, inMode, if_pos normal]
  split
  · exact skip_edited idle normal
  · rename_i c _
    have edited := doEdit_edited idle normal (count?.getD c.count) c.edit
    simp only [retype]
    split
    · have typed := edited.insertionStep idle.history cursor (insertText_step _ (c.typed?.getD []))
      exact typed.leaveInsert idle.history
    · exact edited

end Workspace

end ModalEdit
