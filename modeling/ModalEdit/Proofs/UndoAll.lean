import Mathlib.Logic.Function.Iterate
import ModalEdit.Proofs.Travel

/-! Nothing that happens to a text escapes the history. As long as no checkpoint has had to give
way, the oldest one holds the text that was opened, whatever edits, insertions, steps through the
history and texts from outside came after it. -/
namespace ModalEdit

namespace Editor

variable {e e' : Editor} {t : Text}

/-- The text that the oldest checkpoint leads back to. -/
def oldest (e : Editor) : Text := (e.history.undos.getLast?.map (·.text)).getD e.text

/-- The history leads back to the text `t`, and has at most `n` checkpoints to offer. -/
def Complete (t : Text) (n : Nat) (e : Editor) : Prop :=
  e.oldest = t ∧ e.history.undos.length + e.history.redos.length ≤ n

/-- A checkpoint of the present text has been pushed. -/
def Pushed (e e' : Editor) : Prop :=
  ∃ i, e'.history.undos = (⟨e.text, i⟩ :: e.history.undos).take e.history.capacity ∧
    e'.history.redos = []

/-- The checkpoints to go back to are what they were. The text may be another one only if there
are some. -/
structure Kept (e e' : Editor) : Prop where
  undos : e'.history.undos = e.history.undos
  redos : e'.history.redos.length ≤ e.history.redos.length
  text : e.history.undos = [] → e'.text = e.text

theorem Kept.of_history (text : e'.text = e.text) (undos : e'.history.undos = e.history.undos)
    (redos : e'.history.redos = e.history.redos) : e.Kept e' where
  undos := undos
  redos := Nat.le_of_eq (congrArg List.length redos)
  text _ := text

theorem oldest_cons (undos : e.history.undos = c :: rest) :
    e.oldest = (rest.getLast?.map (·.text)).getD c.text := by
  rw [oldest, undos, List.getLast?_cons]
  cases rest.getLast? <;> rfl

theorem oldest_nil (undos : e.history.undos = []) : e.oldest = e.text := by
  rw [oldest, undos]
  rfl

theorem Complete.kept (complete : Complete t n e) (kept : e.Kept e') : Complete t n e' := by
  obtain ⟨bottom, few⟩ := complete
  obtain ⟨undos, redos, text⟩ := kept
  constructor
  · cases present : e.history.undos with
    | nil => rw [oldest_nil (undos.trans present), text present, ← oldest_nil present, bottom]
    | cons c rest => rw [oldest_cons (undos.trans present), ← oldest_cons present, bottom]
  · rw [undos]
    omega

theorem Complete.mono (complete : Complete t m e) (h : m ≤ n) : Complete t n e :=
  ⟨complete.1, Nat.le_trans complete.2 h⟩

theorem Complete.pushed (complete : Complete t n e) (room : n < e.history.capacity)
    (pushed : e.Pushed e') : Complete t (n + 1) e' := by
  obtain ⟨bottom, few⟩ := complete
  obtain ⟨i, undos, redos⟩ := pushed
  have fits : (⟨e.text, i⟩ :: e.history.undos).length ≤ e.history.capacity := by
    rw [List.length_cons]
    omega
  rw [List.take_of_length_le fits] at undos
  constructor
  · rw [oldest_cons undos, ← oldest, bottom]
  · rw [undos, redos, List.length_cons]
    simp only [List.length_nil]
    omega

theorem Complete.undo? (complete : Complete t n e) (undone : e.undo? = some e') :
    Complete t n e' := by
  obtain ⟨bottom, few⟩ := complete
  obtain ⟨c, rest, undos, rfl⟩ := undo?_cases undone
  rw [oldest_cons undos] at bottom
  rw [undos, List.length_cons] at few
  refine ⟨bottom, ?_⟩
  simp only [travel, List.length_cons]
  omega

theorem Complete.redo? (complete : Complete t n e) (redone : e.redo? = some e') :
    Complete t n e' := by
  obtain ⟨bottom, few⟩ := complete
  obtain ⟨c, rest, redos, rfl⟩ := redo?_cases redone
  rw [redos, List.length_cons] at few
  constructor
  · have pushed : (e.travel (c, { e.history with
        undos := e.checkpoint :: e.history.undos
        redos := rest })).history.undos = e.checkpoint :: e.history.undos := rfl
    rw [oldest_cons pushed, ← bottom]
    rfl
  · simp only [travel, List.length_cons]
    omega

theorem Complete.travels (complete : Complete t n e) (journey : e.Travels e') : Complete t n e' :=
  journey.invariant (P := Complete t n) (fun _ _ undone complete => complete.undo? undone)
    (fun _ _ redone complete => complete.redo? redone) complete

end Editor

namespace Workspace

variable {w w' : Workspace} {t : Text}

theorem Edited.kept_or_pushed {e : Editor} (edited : Edited e w) :
    e.Kept w.editor ∨ e.Pushed w.editor := by
  cases edited with
  | unchanged _ _ text _ history | opened _ _ text _ history =>
    left
    apply Editor.Kept.of_history text
    · rw [history]
    · rw [history]
  | changed _ _ _ history | covered _ _ _ history =>
    right
    exact ⟨e.cursor, by rw [history]; rfl, by rw [history]; rfl⟩

theorem leaveInsert_history (tidy : Tidy w.editor w.recorder) (insert : w.editor.mode = .insert) :
    w.editor.Kept w.leaveInsert.1.editor := by
  obtain ⟨_, history, _, _, nothing⟩ := leaveInsert_kept insert
  constructor
  · rw [history]
    rfl
  · rw [history]
    exact Nat.le_refl _
  · intro none
    by_cases inactive : w.editor.history.run = .inactive
    · exact (nothing (tidy.typed inactive)).1
    · exact absurd none (tidy.covered inactive)

/-- A change of the text is covered by the checkpoints there are, unless it pushes one. -/
theorem Effect.kept_or_pushed (effect : Effect w w') (tidy : Tidy w.editor w.recorder) :
    w.editor.Kept w'.editor ∨ w.editor.Pushed w'.editor := by
  cases effect with
  | moved _ text history _ =>
    left
    apply Editor.Kept.of_history text
    · rw [history]
    · rw [history]
  | edited e _ text history edited =>
    rcases edited.kept_or_pushed with ⟨undos, redos, text'⟩ | ⟨i, undos, redos⟩
    · rw [history] at undos redos text'
      exact .inl ⟨undos, redos, fun none => (text' none).trans text⟩
    · rw [text, history] at undos
      exact .inr ⟨i, undos, redos⟩
  | inserted _ t' i r same =>
    have begun : w'.editor.history =
        (w.editor.history.beginRun w.editor.checkpoint).noteEdits 1 := by
      rw [same]
      rfl
    rcases w.editor.history.beginRun_noteEdits w.editor.checkpoint with
      ⟨i, history⟩ | ⟨active, n, history⟩
    · exact .inr ⟨i, by rw [begun, history]; rfl, by rw [begun, history]; rfl⟩
    · left
      constructor
      · rw [begun, history]
      · rw [begun, history]
      · intro none
        exact absurd none (tidy.covered active)
  | left mode same =>
    rw [same]
    exact .inl (leaveInsert_history tidy mode)

theorem Travel.complete (travel : Travel w w') (complete : w.editor.Complete t n) :
    w'.editor.Complete t n := by
  cases travel with
  | nowhere same =>
    rw [same]
    exact complete
  | journey _ e journey same =>
    rw [same]
    exact (complete.travels journey).kept (.of_history rfl rfl rfl)

theorem Effect.capacity (effect : Effect w w') :
    w'.editor.history.capacity = w.editor.history.capacity := by
  cases effect with
  | moved _ _ history _ => rw [history]
  | edited e _ _ history edited =>
    cases edited with
    | unchanged _ _ _ _ same | opened _ _ _ _ same => rw [same, ← history]
    | changed _ _ _ same | covered _ _ _ same =>
      rw [same, ← history]
      rfl
  | inserted _ t i r same =>
    have begun : w'.editor.history =
        (w.editor.history.beginRun w.editor.checkpoint).noteEdits 1 := by
      rw [same]
      rfl
    rcases w.editor.history.beginRun_noteEdits w.editor.checkpoint with
        ⟨i, history⟩ | ⟨active, n, history⟩
    · rw [begun, history]
      rfl
    · rw [begun, history]
  | left mode same =>
    obtain ⟨_, history, _⟩ := leaveInsert_kept mode
    rw [same, history]
    rfl

theorem Travel.capacity (travel : Travel w w') :
    w'.editor.history.capacity = w.editor.history.capacity := by
  cases travel with
  | nowhere same => rw [same]
  | journey _ e journey same =>
    obtain ⟨_, capacity, _⟩ := journey.kept
    rw [same]
    exact capacity

end Workspace

namespace Session

variable {s : Session} {t : Text}

/-- Does the input step through the history? -/
def travels (s : Session) (b : RegisterBank) : Input → Bool
  | .press k =>
    match (s.press b k).2 with
    | .performed c _ => c.travels
    | _ => false
  | .sync _ _ => false

/-- How many checkpoints an input pushes. One that leaves the list of checkpoints as it was, as can
happen when the list is full, is not counted. -/
def pushes (s : Session) (b : RegisterBank) (i : Input) : Nat :=
  if s.travels b i ∨ (s.step b i).editor.history.undos = s.editor.history.undos then 0 else 1

/-- How many checkpoints the inputs of a run push. -/
def pushesIn (s : Session) : List (RegisterBank × Input) → Nat
  | [] => 0
  | (b, i) :: rest => s.pushes b i + (s.step b i).pushesIn rest

/-- An input steps through the history, or it pushes a checkpoint or none. -/
theorem step_history (reached : s.Reachable) (b : RegisterBank) (i : Input) :
    s.travels b i = true ∧
        (∀ t n, s.editor.Complete t n → (s.step b i).editor.Complete t n) ∨
      s.travels b i = false ∧
        (s.editor.Kept (s.step b i).editor ∨ s.editor.Pushed (s.step b i).editor) := by
  obtain ⟨placed, tidy⟩ := reached.placed_and_tidy
  cases i with
  | sync text cursor => exact .inr ⟨rfl, .inr ⟨s.editor.cursor, rfl, rfl⟩⟩
  | press k =>
    rcases s.press_cases b k with ⟨c, _, performed, after⟩ | ⟨other, p, after⟩
    · let w : Workspace := ⟨s.editor, b, s.recorder⟩
      have editor : (s.step b (.press k)).editor = (w.perform c).1.editor := by
        rw [step, after]
        rfl
      have onward : s.travels b (.press k) = c.travels := by simp only [travels, performed]
      rw [editor, onward]
      cases travels : c.travels with
      | true =>
        left
        constructor
        · rfl
        · intro t n complete
          exact (Workspace.perform_travel (w := w) travels).complete complete
      | false =>
        have effect := Workspace.perform_effect (w := w) tidy.idle placed.cursor_le_length travels
        exact .inr ⟨rfl, effect.kept_or_pushed tidy⟩
    · have stays : s.travels b (.press k) = false := by
        rcases other with response | response
        · simp only [travels, response]
        · simp only [travels, response]
      have editor : (s.step b (.press k)).editor = s.editor := by rw [step, after]
      rw [stays, editor]
      exact .inr ⟨rfl, .inl (.of_history rfl rfl rfl)⟩

theorem step_complete (reached : s.Reachable) (b : RegisterBank) (i : Input)
    (complete : s.editor.Complete t n) (few : n + s.pushes b i ≤ s.editor.history.capacity) :
    (s.step b i).editor.Complete t (n + s.pushes b i) := by
  obtain ⟨placed, tidy⟩ := reached.placed_and_tidy
  rcases s.step_history reached b i with ⟨_, onward⟩ | ⟨stays, kept | pushed⟩
  · exact (onward t n complete).mono (Nat.le_add_right _ _)
  · exact (complete.kept kept).mono (Nat.le_add_right _ _)
  · by_cases same : (s.step b i).editor.history.undos = s.editor.history.undos
    · obtain ⟨j, undos, redos⟩ := pushed
      have filled : s.editor.history.undos ≠ [] := by
        rw [← same, undos]
        simp [Nat.ne_of_gt tidy.room]
      have kept : s.editor.Kept (s.step b i).editor := by
        refine ⟨same, ?_, fun none => absurd none filled⟩
        rw [redos]
        exact Nat.zero_le _
      exact (complete.kept kept).mono (Nat.le_add_right _ _)
    · have one : s.pushes b i = 1 := by simp [pushes, stays, same]
      rw [one] at few ⊢
      exact complete.pushed few pushed

theorem step_capacity (reached : s.Reachable) (b : RegisterBank) (i : Input) :
    (s.step b i).editor.history.capacity = s.editor.history.capacity := by
  obtain ⟨placed, tidy⟩ := reached.placed_and_tidy
  cases i with
  | sync text cursor => rfl
  | press k =>
    rcases s.press_cases b k with ⟨c, _, _, after⟩ | ⟨_, p, after⟩
    · rw [step, after]
      cases travels : c.travels with
      | true =>
        exact (Workspace.perform_travel (w := ⟨s.editor, b, s.recorder⟩) travels).capacity
      | false =>
        exact (Workspace.perform_effect (w := ⟨s.editor, b, s.recorder⟩) tidy.idle
          placed.cursor_le_length travels).capacity
    · rw [step, after]

theorem run_complete (reached : s.Reachable) (inputs : List (RegisterBank × Input))
    (complete : s.editor.Complete t n)
    (few : n + s.pushesIn inputs ≤ s.editor.history.capacity) :
    (s.run inputs).editor.Complete t (n + s.pushesIn inputs) := by
  induction inputs generalizing s n with
  | nil => exact complete
  | cons input rest ih =>
    obtain ⟨b, i⟩ := input
    rw [pushesIn, ← Nat.add_assoc] at few ⊢
    have first := step_complete reached b i complete (Nat.le_trans (Nat.le_add_right _ _) few)
    rw [← step_capacity reached b i] at few
    exact ih (reached.next b i) first few

theorem step_escape_complete (reached : s.Reachable) (b : RegisterBank)
    (escape : k.isEscape = true) (complete : s.editor.Complete t n) :
    (s.step b (.press k)).editor.Complete t n := by
  obtain ⟨placed, tidy⟩ := reached.placed_and_tidy
  obtain ⟨_, ⟨mode, same, _⟩ | ⟨_, text, history⟩⟩ := step_escape (s := s) b escape
  · rw [same]
    exact complete.kept (Workspace.leaveInsert_history (w := s.workspace b) tidy mode)
  · apply complete.kept (.of_history text _ _)
    · rw [history]
    · rw [history]

/-! ### All the way back, and forth again -/

theorem run_u (ready : s.Ready) (bs : List RegisterBank) :
    s.run (bs.map fun b => (b, .press (.char 'u'))) =
      { s with editor := Editor.back^[bs.length] s.editor } := by
  induction bs generalizing s with
  | nil => rfl
  | cons b bs ih =>
    have ready' : Ready { s with editor := s.editor.back } :=
      ⟨Editor.back_mode.trans ready.1, ready.2⟩
    rw [List.map_cons, run, step_u ready, ih ready', List.length_cons,
      Function.iterate_succ_apply]

theorem run_ctrl_r (ready : s.Ready) (bs : List RegisterBank) :
    s.run (bs.map fun b => (b, .press (.ctrl 'r'))) =
      { s with editor := Editor.forth^[bs.length] s.editor } := by
  induction bs generalizing s with
  | nil => rfl
  | cons b bs ih =>
    have ready' : Ready { s with editor := s.editor.forth } :=
      ⟨Editor.forth_mode.trans ready.1, ready.2⟩
    rw [List.map_cons, run, step_ctrl_r ready, ih ready', List.length_cons,
      Function.iterate_succ_apply]

end Session

namespace Editor

variable {e : Editor}

theorem iterate_back_mode (n : Nat) : (back^[n] e).mode = e.mode := by
  induction n with
  | zero => rfl
  | succ n ih => rw [Function.iterate_succ_apply', back_mode, ih]

theorem oldest_back (undos : e.history.undos = c :: rest) (normal : e.mode = .normal) :
    e.back.oldest = e.oldest := by
  obtain ⟨text, _, undos', _⟩ := back_eq undos normal
  rw [oldest_cons undos, oldest, undos', text]

/-- Going back through all the checkpoints leads to the text of the oldest. -/
theorem iterate_back_text (normal : e.mode = .normal) :
    (back^[e.history.undos.length] e).text = e.oldest := by
  induction undos : e.history.undos generalizing e with
  | nil => exact (oldest_nil undos).symm
  | cons c rest ih =>
    obtain ⟨_, _, undos', _⟩ := back_eq undos normal
    rw [List.length_cons, Function.iterate_succ_apply, ← oldest_back undos normal]
    exact ih (back_mode.trans normal) undos'

/-- Going back by some steps and forth by as many leads to the present text and cursor. -/
theorem iterate_forth_back (n : Nat) (normal : e.mode = .normal)
    (cursor : e.cursor ≤ e.text.length - 1) (h : n ≤ e.history.undos.length) :
    (forth^[n] (back^[n] e)).mode = .normal ∧ (forth^[n] (back^[n] e)).text = e.text ∧
      (forth^[n] (back^[n] e)).cursor = e.cursor ∧
      (forth^[n] (back^[n] e)).history.redos = e.history.redos := by
  induction n generalizing e with
  | zero => exact ⟨normal, rfl, rfl, rfl⟩
  | succ n ih =>
    obtain ⟨c, rest, undos⟩ := List.exists_cons_of_length_pos (Nat.lt_of_lt_of_le n.succ_pos h)
    rw [undos, List.length_cons] at h
    obtain ⟨text, cursor', undos', redos⟩ := back_eq undos normal
    have inside : e.back.cursor ≤ e.back.text.length - 1 := by
      rw [text, cursor']
      exact Nat.min_le_right _ _
    obtain ⟨mode, _, _, redos'⟩ :=
      ih (back_mode.trans normal) inside (by rw [undos']; exact Nat.le_of_succ_le_succ h)
    rw [Function.iterate_succ_apply back, Function.iterate_succ_apply' forth]
    obtain ⟨text'', cursor'', redos''⟩ := forth_eq (redos'.trans redos) mode
    exact ⟨forth_mode.trans mode, text'', cursor''.trans (Nat.min_eq_left cursor), redos''⟩

end Editor

namespace Session

theorem ofText_complete (t : Text) (m : Mode) (cursor undoLevels : Nat) :
    (ofText t m cursor undoLevels).editor.Complete t 0 := by
  have history : (ofText t m cursor undoLevels).editor.history = .empty undoLevels :=
    Editor.ofText_history m t cursor undoLevels
  have undos : (ofText t m cursor undoLevels).editor.history.undos = [] := by
    rw [history]
    rfl
  refine ⟨(Editor.oldest_nil undos).trans (Editor.ofText_text m t cursor undoLevels), ?_⟩
  rw [history]
  exact Nat.le_refl _

/-- As long as a session has pushed no more checkpoints than its history keeps, undoing everything
gives the text that was opened, and redoing everything after that gives the text and the cursor
of before. -/
theorem undo_all_redo_all (t : Text) (m : Mode) (cursor undoLevels : Nat)
    (inputs : List (RegisterBank × Input))
    (few : (ofText t m cursor undoLevels).pushesIn inputs ≤ max undoLevels 1)
    (b : RegisterBank) (escape : k.isEscape = true) (us rs : List RegisterBank) :
    let s := ((ofText t m cursor undoLevels).run inputs).step b (.press k)
    let undone := s.run (us.map fun b => (b, .press (.char 'u')))
    let redone := undone.run (rs.map fun b => (b, .press (.ctrl 'r')))
    us.length = s.editor.history.undos.length → rs.length = s.editor.history.undos.length →
      undone.editor.text = t ∧
        redone.editor.text = s.editor.text ∧ redone.editor.cursor = s.editor.cursor := by
  intro s undone redone all all'
  have opened := Reachable.opened t m cursor undoLevels
  have capacity : (ofText t m cursor undoLevels).editor.history.capacity = max undoLevels 1 := by
    rw [ofText, Editor.ofText_history]
    rfl
  have run := run_complete opened inputs (ofText_complete t m cursor undoLevels)
    (by rw [Nat.zero_add, capacity]; exact few)
  have complete := step_escape_complete (opened.run inputs) b escape run
  have ready : s.Ready := (step_escape b escape).1
  have cursor := ((opened.run inputs).next b (.press k)).placed.cursor_le (by rw [ready.1]; nofun)
  have back : undone = { s with editor := Editor.back^[us.length] s.editor } := run_u ready us
  have ready' : undone.Ready := by
    rw [back]
    exact ⟨(Editor.iterate_back_mode _).trans ready.1, ready.2⟩
  have forth : redone = { undone with editor := Editor.forth^[rs.length] undone.editor } :=
    run_ctrl_r ready' rs
  obtain ⟨_, text, cursor', _⟩ := Editor.iterate_forth_back us.length ready.1 cursor
    (Nat.le_of_eq all)
  refine ⟨?_, ?_, ?_⟩
  · rw [back, all]
    exact (Editor.iterate_back_text ready.1).trans complete.1
  · rw [forth, back, all', ← all]
    exact text
  · rw [forth, back, all', ← all]
    exact cursor'

/-- Counted typing in an insertion, with a text from outside in the middle of it. -/
theorem undo_all_redo_all_insertion :
    let inputs : List (RegisterBank × Input) := [({}, .press (.char '2')),
      ({}, .press (.char 'i')), ({}, .press (.char 'x')), ({}, .sync ['c', 'd'] 1),
      ({}, .press (.char 'y'))]
    (ofText ['a', 'b'] .normal 0 3).pushesIn inputs ≤ 3 ∧ ∃ s undone redone : Session,
      s = ((ofText ['a', 'b'] .normal 0 3).run inputs).step {} (.press ⟨.escape, {}⟩) ∧
      undone = s.run ([{}, {}, {}].map fun b => (b, .press (.char 'u'))) ∧
      redone = undone.run ([{}, {}, {}].map fun b => (b, .press (.ctrl 'r'))) ∧
      s.editor.text = ['c', 'y', 'y', 'd'] ∧ s.editor.history.undos.length = 3 ∧
      undone.editor.text = ['a', 'b'] ∧ redone.editor.text = ['c', 'y', 'y', 'd'] ∧
      redone.editor.cursor = s.editor.cursor := by
  intro inputs
  have few : (ofText ['a', 'b'] .normal 0 3).pushesIn inputs ≤ 3 := by decide
  let s := ((ofText ['a', 'b'] .normal 0 3).run inputs).step {} (.press ⟨.escape, {}⟩)
  have undos : s.editor.history.undos.length = 3 := by decide
  have text : s.editor.text = ['c', 'y', 'y', 'd'] := by decide
  obtain ⟨undone, redone, cursor⟩ := undo_all_redo_all ['a', 'b'] .normal 0 3 inputs few {}
    (k := ⟨.escape, {}⟩) rfl [{}, {}, {}] [{}, {}, {}] undos.symm undos.symm
  exact ⟨few, _, _, _, rfl, rfl, rfl, text, undos, undone, redone.trans text, cursor⟩

end Session

end ModalEdit
