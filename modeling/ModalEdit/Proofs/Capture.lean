import ModalEdit.Proofs.Meaning

/-! What a repetition of an insertion would type stands right before the cursor. Nothing of an
insertion outlasts it: neither the text that was typed, nor the change that it belongs to, nor its
part in the history. -/
namespace ModalEdit

namespace Recorder

/-- Nothing has been typed, and a change is in the making only while an insertion goes on. -/
structure Fresh (r : Recorder) (m : Mode) : Prop where
  typed : r.typed = []
  pending : m ≠ .insert → r.pending? = none

theorem Fresh.of_outside {r : Recorder} {m m' : Mode} (fresh : r.Fresh m) (outside : m ≠ .insert) :
    r.Fresh m' := ⟨fresh.typed, fun _ => fresh.pending outside⟩

end Recorder

namespace Workspace

variable {w : Workspace}

/-! ### What a command outside of an insertion leaves behind -/

theorem leaveInsert_recorder (insert : w.editor.mode = .insert) :
    w.leaveInsert.1.recorder = w.recorder.finish := by
  rw [leaveInsert, inMode, if_pos insert]

theorem doEdit_fresh (outside : w.editor.mode ≠ .insert) (fresh : w.recorder.Fresh w.editor.mode)
    (count : Nat) (edit : Edit) :
    (w.doEdit count edit).1.recorder.Fresh (w.doEdit count edit).1.editor.mode := by
  rcases w.doEdit_recorder_cases count edit with same | ⟨n, recorded⟩ | ⟨insert, started⟩
  · rw [same]
    exact fresh.of_outside outside
  · rw [recorded]
    exact ⟨fresh.typed, fun _ => rfl⟩
  · rw [started]
    exact ⟨rfl, fun other => absurd insert other⟩

theorem repeatLast_fresh (outside : w.editor.mode ≠ .insert)
    (fresh : w.recorder.Fresh w.editor.mode) (count? : Option Nat) :
    (w.repeatLast count?).1.recorder.Fresh (w.repeatLast count?).1.editor.mode := by
  simp only [repeatLast, inMode]
  split
  · split
    · exact fresh
    · rename_i c _
      rw [retype_fst]
      split
      · rename_i both
        have insert := (insertText_step (w.doEdit (count?.getD c.count) c.edit).1
          (c.typed?.getD [])).mode.trans both.2
        rw [leaveInsert_recorder insert]
        exact ⟨rfl, fun _ => rfl⟩
      · exact doEdit_fresh outside fresh _ _
  · exact fresh

theorem move_recorder (outside : w.editor.mode ≠ .insert) (m : Motion) (count : Nat) :
    (w.move m count).1.recorder = w.recorder := by
  obtain ⟨f?, remembered⟩ := rememberFind_eq w.editor m
  simp only [move]
  rw [remembered]
  dsimp only
  split
  · rfl
  · exact if_neg fun both => outside both.1

/-- A command outside of an insertion leaves nothing typed. It leaves a change in the making only
if it begins an insertion. -/
theorem perform_fresh (outside : w.editor.mode ≠ .insert) (fresh : w.recorder.Fresh w.editor.mode)
    (c : Command) : (w.perform c).1.recorder.Fresh (w.perform c).1.editor.mode := by
  have kept {m : Mode} : w.recorder.Fresh m := fresh.of_outside outside
  cases c with
  | move m count =>
    rw [perform, move_recorder outside]
    exact kept
  | edit e count => exact doEdit_fresh outside fresh count e
  | operateSelection op register =>
    rcases w.operateSelection_cases op register with same | ⟨_, s, i, _, _, same⟩
    · rw [perform, same]
      exact kept
    · rw [perform, same]
      dsimp only [Prod.map_fst, id]
      rw [operateOn_recorder]
      exact kept
  | selectObject o count =>
    simp only [perform, selectObject]
    split
    · split <;> exact kept
    · exact kept
  | swapAnchor =>
    simp only [perform, swapAnchor]
    split <;> exact kept
  | startVisual | startVisualLine =>
    simp only [perform, startVisual]
    split <;> exact kept
  | leaveVisual =>
    simp only [perform, leaveVisual]
    split <;> exact kept
  | leaveInsert =>
    rw [perform, leaveInsert, inMode_of_ne outside]
    exact kept
  | insertText | insertBreak | backspace =>
    simp only [perform, insertText, backspace, inMode_of_ne outside, ite_self]
    exact kept
  | undo | redo =>
    simp only [perform, travel, inMode]
    split
    · split <;> exact kept
    · exact kept
  | repeatLast count? => exact repeatLast_fresh outside fresh count?

end Workspace

/-! ### What is typed in an insertion -/

/-- What was typed stands before the cursor, and there is nothing to go forth to while a checkpoint
covers the insertion. A change is in the making only while an insertion goes on. -/
structure Captured (e : Editor) (r : Recorder) : Prop where
  typed : r.typed <:+ e.text.take e.cursor
  redos : e.history.run ≠ .inactive → e.history.redos = []
  pending : e.mode ≠ .insert → r.pending? = none

namespace Captured

variable {w w' : Workspace}

theorem of_fresh {e : Editor} {r : Recorder} (fresh : r.Fresh e.mode)
    (redos : e.history.run ≠ .inactive → e.history.redos = []) : Captured e r := by
  refine ⟨?_, redos, fresh.pending⟩
  rw [fresh.typed]
  exact List.nil_suffix

theorem fresh {e : Editor} {r : Recorder} (captured : Captured e r) (typed : r.typed = []) :
    r.Fresh e.mode := ⟨typed, captured.pending⟩

/-- A motion that moves the cursor drops what was typed. -/
theorem move (captured : Captured w.editor w.recorder) (insert : w.editor.mode = .insert)
    (m : Motion) (count : Nat) :
    Captured (w.move m count).1.editor (w.move m count).1.recorder := by
  obtain ⟨text, mode, _, history, _⟩ := w.move_kept m count
  refine ⟨?_, by rw [history]; exact captured.redos, fun other => absurd (mode.trans insert) other⟩
  rw [text]
  obtain ⟨f?, remembered⟩ := Workspace.rememberFind_eq w.editor m
  simp only [Workspace.move]
  rw [remembered]
  dsimp only
  split
  · exact captured.typed
  · rename_i landing _
    simp only [insert, Mode.isVisual, Bool.false_eq_true, if_false]
    by_cases stays : landing.target = w.editor.cursor
    · simpa [stays] using captured.typed
    · simp [stays, Recorder.reset]

theorem insertionEdit (captured : Captured w.editor w.recorder) (insert : w.editor.mode = .insert)
    {t : Text} {i : Nat} {r : Recorder} (typed : r.typed <:+ t.take i) :
    Captured (w.insertionEdit t i r).editor (w.insertionEdit t i r).recorder := by
  refine ⟨typed, fun active => ?_, fun other => absurd insert other⟩
  have begun : (w.insertionEdit t i r).editor.history =
      (w.editor.history.beginRun w.editor.checkpoint).noteEdits 1 := rfl
  rcases w.editor.history.beginRun_noteEdits w.editor.checkpoint with
    ⟨origin, history⟩ | ⟨covered, n, history⟩
  · rw [begun, history]
    rfl
  · rw [begun, history]
    exact captured.redos covered

theorem insertText (captured : Captured w.editor w.recorder)
    (cursor : w.editor.cursor ≤ w.editor.text.length) (insert : w.editor.mode = .insert)
    (t : Text) : Captured (w.insertText t).1.editor (w.insertText t).1.recorder := by
  simp only [Workspace.insertText, Workspace.inMode, if_pos insert]
  split
  · exact captured
  · refine captured.insertionEdit insert (t := w.editor.text.insertAt w.editor.cursor t) ?_
    have ahead : (w.editor.text.take w.editor.cursor ++ t).length =
        w.editor.cursor + t.length := by
      rw [List.length_append, List.length_take_of_le cursor]
    rw [Text.insertAt, List.take_left' ahead]
    exact List.suffix_append_self_iff.mpr captured.typed

theorem backspace (captured : Captured w.editor w.recorder)
    (cursor : w.editor.cursor ≤ w.editor.text.length) (insert : w.editor.mode = .insert) :
    Captured w.backspace.1.editor w.backspace.1.recorder := by
  simp only [Workspace.backspace, Workspace.inMode, if_pos insert]
  split
  · exact captured
  · refine captured.insertionEdit insert ?_
    have shorter : (w.editor.text.take w.editor.cursor).dropLast =
        w.editor.text.take (w.editor.cursor - 1) := by
      rw [List.dropLast_eq_take, List.length_take_of_le cursor, List.take_take,
        Nat.min_eq_left (Nat.sub_le _ _)]
    rw [Span.between_of_le (Nat.sub_le _ _), Text.remove, List.take_left' (by simp; omega),
      ← shorter]
    obtain ⟨before, same⟩ := captured.typed
    rw [← same]
    simp only [Recorder.pop]
    by_cases empty : w.recorder.typed = []
    · rw [empty]
      exact List.nil_suffix
    · rw [List.dropLast_append_of_ne_nil empty]
      exact List.suffix_append before _

theorem of_leaveInsert (insert : w.editor.mode = .insert) :
    Captured w.leaveInsert.1.editor w.leaveInsert.1.recorder := by
  obtain ⟨_, history, _⟩ := Workspace.leaveInsert_kept insert
  refine of_fresh ?_ fun active => ?_
  · rw [Workspace.leaveInsert_recorder insert]
    exact ⟨rfl, fun _ => rfl⟩
  · rw [history] at active
    exact absurd rfl active

/-- Outside of an insertion. -/
theorem perform_outside (captured : Captured w.editor w.recorder)
    (tidy : Tidy w.editor w.recorder) (cursor : w.editor.cursor ≤ w.editor.text.length)
    (outside : w.editor.mode ≠ .insert) (c : Command) :
    Captured (w.perform c).1.editor (w.perform c).1.recorder := by
  have idle := tidy.idle outside
  refine of_fresh (Workspace.perform_fresh outside (captured.fresh idle.typed) c) fun active => ?_
  have inactive (same : (w.perform c).1.editor.history.run = w.editor.history.run) :
      (w.perform c).1.editor.history.redos = [] := absurd (same.trans idle.history.run) active
  cases travels : c.travels with
  | true =>
    cases Workspace.perform_travel (w := w) travels with
    | nowhere same => exact inactive (by rw [same])
    | journey _ e journey same =>
      refine inactive ?_
      rw [same]
      exact journey.kept.2.2.1
  | false =>
    cases Workspace.perform_effect tidy.idle cursor travels with
    | moved _ _ history => exact inactive (by rw [history])
    | edited e _ _ history edited =>
      cases edited with
      | unchanged _ _ _ _ history' => exact inactive (by rw [history', history])
      | changed _ _ _ history' => exact inactive (by rw [history', ← history]; rfl)
      | opened _ _ _ _ history' => exact inactive (by rw [history', ← history])
      | covered _ _ _ history' =>
        rw [history']
        rfl
    | inserted insert | left insert => exact absurd insert outside

theorem perform (captured : Captured w.editor w.recorder) (placed : w.editor.Placed)
    (tidy : Tidy w.editor w.recorder) (c : Command) :
    Captured (w.perform c).1.editor (w.perform c).1.recorder := by
  by_cases insert : w.editor.mode = .insert
  · cases meant : c.kind.meantFor w.editor.mode with
    | false =>
      rw [Workspace.perform_of_not_meantFor placed meant]
      exact captured
    | true =>
      rw [insert] at meant
      cases c with
      | move m count => exact captured.move insert m count
      | insertText t => exact captured.insertText placed.cursor_le_length insert t
      | insertBreak => exact captured.insertText placed.cursor_le_length insert _
      | backspace => exact captured.backspace placed.cursor_le_length insert
      | leaveInsert => exact of_leaveInsert insert
      | edit e => cases e <;> cases meant
      | _ => cases meant
  · exact captured.perform_outside tidy placed.cursor_le_length insert c

end Captured

/-- What a text ends in before an offset is a slice of it. -/
theorem Text.slice_of_suffix {t typed : Text} (h : i ≤ t.length) (suffix : typed <:+ t.take i) :
    typed.length ≤ i ∧ t.slice (Span.between (i - typed.length) i) = typed := by
  obtain ⟨before, same⟩ := suffix
  have lengths := congrArg List.length same
  rw [List.length_append, List.length_take_of_le h] at lengths
  refine ⟨by omega, ?_⟩
  have start : i - typed.length = before.length := by omega
  have whole : t = before ++ (typed ++ t.drop i) := by
    rw [← List.append_assoc, same, List.take_append_drop]
  rw [Span.between_of_le (Nat.sub_le _ _), slice, Span.length]
  dsimp only
  rw [start, ← lengths, Nat.add_sub_cancel_left, whole, List.drop_left, List.take_left]

namespace Session

variable {s : Session}

theorem Reachable.captured (reached : s.Reachable) : Captured s.editor s.recorder := by
  suffices all : s.editor.Placed ∧ Tidy s.editor s.recorder ∧ Captured s.editor s.recorder from
    all.2.2
  refine reached.invariant (P := fun e r => e.Placed ∧ Tidy e r ∧ Captured e r) ?_ ?_ ?_
  · intro t m cursor undoLevels
    refine ⟨Editor.ofText_placed t m cursor undoLevels, .ofText t m cursor undoLevels, ?_⟩
    refine .of_fresh ⟨rfl, fun _ => rfl⟩ fun active => ?_
    rw [Editor.ofText_history] at active
    exact absurd rfl active
  · rintro w c ⟨placed, tidy, captured⟩
    exact ⟨Workspace.perform_placed placed c, tidy.perform placed.cursor_le_length c,
      captured.perform placed tidy c⟩
  · rintro e r t cursor ⟨placed, tidy, captured⟩
    refine ⟨Editor.replaceText_placed placed t cursor, tidy.replaceText t cursor, ?_⟩
    refine .of_fresh ⟨rfl, captured.pending⟩ fun active => ?_
    exact absurd rfl active

/-- Outside of an insertion nothing is left of one. In an insertion the text that a repetition
would type is what stands before the cursor, and if there is any, a checkpoint covers the
insertion and there is nothing to go forth to. -/
theorem typed_text_precedes_cursor (reached : s.Reachable) :
    (s.editor.mode ≠ .insert → s.editor.history.run = .inactive ∧
      s.editor.history.origin? = none ∧ s.recorder.pending? = none ∧ s.recorder.typed = []) ∧
    (s.editor.mode = .insert → s.recorder.typed.length ≤ s.editor.cursor ∧
      s.editor.text.slice (Span.between (s.editor.cursor - s.recorder.typed.length)
        s.editor.cursor) = s.recorder.typed) ∧
    (s.recorder.typed ≠ [] →
      (∃ edits, s.editor.history.run = .active edits) ∧ s.editor.history.redos = []) := by
  obtain ⟨placed, tidy⟩ := reached.placed_and_tidy
  have captured := reached.captured
  refine ⟨fun outside => ?_, fun _ => ?_, fun typed => ?_⟩
  · have idle := tidy.idle (w := s.workspace {}) outside
    exact ⟨idle.history.run, idle.history.origin, captured.pending outside, idle.typed⟩
  · exact Text.slice_of_suffix placed.cursor_le_length captured.typed
  · have active : s.editor.history.run ≠ .inactive := mt tidy.typed typed
    refine ⟨?_, captured.redos active⟩
    cases run : s.editor.history.run with
    | inactive => exact absurd run active
    | active edits => exact ⟨edits, rfl⟩

/-- Two characters typed after a step back, one of them taken back. -/
theorem typed_text_precedes_cursor_after_undo :
    let back := (ofText ['a', 'b'] .normal 1 100).run
      [({}, .press (.char 'x')), ({}, .press (.char 'u'))]
    let s := back.run ([.char 'i', .char 'c', .char 'd', ⟨.backspace, {}⟩].map
      fun k => ({}, .press k))
    back.Reachable ∧ back.editor.history.redos ≠ [] ∧ back.recorder.typed = [] ∧
      s.Reachable ∧ s.editor.text = ['a', 'c', 'b'] ∧ s.recorder.typed = ['c'] ∧
      s.editor.text.slice (Span.between (s.editor.cursor - 1) s.editor.cursor) = ['c'] ∧
      s.editor.history.redos = [] := by
  intro back s
  have reached : back.Reachable := (Reachable.opened _ _ _ _).run _
  have reached' : s.Reachable := reached.run _
  obtain ⟨outside, _, _⟩ := typed_text_precedes_cursor reached
  obtain ⟨_, inside, covered⟩ := typed_text_precedes_cursor reached'
  obtain ⟨_, _, _, nothing⟩ := outside (by decide)
  obtain ⟨_, before⟩ := inside (by decide)
  have typed : s.recorder.typed = ['c'] := by decide
  rw [typed] at before
  refine ⟨reached, by decide, nothing, reached', by decide, typed, before, ?_⟩
  exact (covered (by decide)).2

end Session

end ModalEdit
