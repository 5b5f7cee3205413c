import ModalEdit.Proofs.Insertion
import ModalEdit.Proofs.Placement

/-! What a command can do to the text and the history, all commands together. -/
namespace ModalEdit

namespace Editor

/-- Some steps through the history, back or forth. -/
inductive Travels : Editor → Editor → Prop where
  | stay (e : Editor) : Travels e e
  | back : e.undo? = some e₁ → Travels e₁ e₂ → Travels e e₂
  | forth : e.redo? = some e₁ → Travels e₁ e₂ → Travels e e₂

variable {e e' : Editor}

theorem undo?_cases (undone : e.undo? = some e') :
    ∃ c rest, e.history.undos = c :: rest ∧
      e' = e.travel (c, { e.history with
        undos := rest
        redos := e.checkpoint :: e.history.redos }) := by
  obtain ⟨arrival, stepped, rfl⟩ := Option.map_eq_some_iff.mp undone
  unfold History.undo? at stepped
  split at stepped
  · cases stepped
  · rename_i c rest same
    cases stepped
    exact ⟨c, rest, same, rfl⟩

theorem redo?_cases (redone : e.redo? = some e') :
    ∃ c rest, e.history.redos = c :: rest ∧
      e' = e.travel (c, { e.history with
        undos := e.checkpoint :: e.history.undos
        redos := rest }) := by
  obtain ⟨arrival, stepped, rfl⟩ := Option.map_eq_some_iff.mp redone
  unfold History.redo? at stepped
  split at stepped
  · cases stepped
  · rename_i c rest same
    cases stepped
    exact ⟨c, rest, same, rfl⟩

/-- What holds across one step through the history holds across any number of them. -/
theorem Travels.invariant {P : Editor → Prop} (journey : e.Travels e')
    (back : ∀ e e₁, e.undo? = some e₁ → P e → P e₁)
    (forth : ∀ e e₁, e.redo? = some e₁ → P e → P e₁) (start : P e) : P e' := by
  induction journey with
  | stay => exact start
  | back stepped _ ih => exact ih (back _ _ stepped start)
  | forth stepped _ ih => exact ih (forth _ _ stepped start)

theorem Travels.kept (journey : e.Travels e') :
    e'.mode = e.mode ∧ e'.history.capacity = e.history.capacity ∧
      e'.history.run = e.history.run ∧ e'.history.origin? = e.history.origin? := by
  induction journey with
  | stay => exact ⟨rfl, rfl, rfl, rfl⟩
  | back stepped _ ih =>
    obtain ⟨c, rest, _, rfl⟩ := undo?_cases stepped
    exact ih
  | forth stepped _ ih =>
    obtain ⟨c, rest, _, rfl⟩ := redo?_cases stepped
    exact ih

end Editor

/-- Does the command step through the history? -/
def Command.travels : Command → Bool
  | undo _ | redo _ => true
  | _ => false

namespace Workspace

variable {w w' : Workspace}

/-- What a command can do that does not step through the history. -/
inductive Effect (w w' : Workspace) : Prop where
  /-- Nothing but the cursor, the selection and the like, and no insertion begins or ends. -/
  | moved (mode : w'.editor.mode = .insert ↔ w.editor.mode = .insert)
      (text : w'.editor.text = w.editor.text) (history : w'.editor.history = w.editor.history)
      (typed : w'.recorder = w.recorder ∨ w'.recorder.typed = [])
  /-- An edit, from the present text and history. -/
  | edited (e : Editor) (mode : w.editor.mode ≠ .insert) (text : e.text = w.editor.text)
      (history : e.history = w.editor.history) (edited : Edited e w')
  /-- An edit of an insertion that was going on. -/
  | inserted (mode : w.editor.mode = .insert) (t : Text) (i : Nat) (r : Recorder)
      (same : w' = w.insertionEdit t i r)
  /-- The end of an insertion. -/
  | left (mode : w.editor.mode = .insert) (same : w' = w.leaveInsert.1)

/-- What a step through the history can do. -/
inductive Travel (w w' : Workspace) : Prop where
  | nowhere (same : w' = w)
  | journey (mode : w.editor.mode = .normal) (e : Editor) (journey : w.editor.Travels e)
      (same : w' = { w with editor := { e.clampCursor with wanted? := none } })

theorem Effect.nothing (w : Workspace) : Effect w w := .moved .rfl rfl rfl (.inl rfl)

theorem inMode_of_ne (other : w.editor.mode ≠ m) (act : Workspace × Outcome) :
    w.inMode m act = w.skip := if_neg other

theorem doEdit_of_ne_normal (other : w.editor.mode ≠ .normal) (count : Nat) (edit : Edit) :
    w.doEdit count edit = w.skip := by
  cases edit with
  | operate | insert | paste => exact inMode_of_ne other _
  | replace | joinLines =>
    simp only [doEdit, replaceChar, joinLines, inMode_of_ne other, ite_self]

theorem doEdit_effect (outside : w.editor.mode ≠ .insert → w.Idle) (count : Nat) (edit : Edit) :
    Effect w (w.doEdit count edit).1 := by
  by_cases normal : w.editor.mode = .normal
  · have mode : w.editor.mode ≠ .insert := by simp [normal]
    exact .edited w.editor mode rfl rfl (doEdit_edited (outside mode) normal count edit)
  · rw [doEdit_of_ne_normal normal]
    exact .nothing w

theorem repeatLast_effect (outside : w.editor.mode ≠ .insert → w.Idle)
    (cursor : w.editor.cursor ≤ w.editor.text.length) (count? : Option Nat) :
    Effect w (w.repeatLast count?).1 := by
  by_cases normal : w.editor.mode = .normal
  · have mode : w.editor.mode ≠ .insert := by simp [normal]
    exact .edited w.editor mode rfl rfl (repeatLast_edited (outside mode) cursor normal count?)
  · rw [repeatLast, inMode_of_ne normal]
    exact .nothing w

theorem operateSelection_effect (outside : w.editor.mode ≠ .insert → w.Idle) (op : Operator)
    (register : Option RegisterName) : Effect w (w.operateSelection op register).1 := by
  rcases w.operateSelection_cases op register with same | ⟨visual, s, i, _, _, same⟩
  · rw [same]
    exact .nothing w
  · have mode := Mode.ne_insert_of_isVisual visual
    rw [same]
    exact .edited { w.editor.setMode .normal with cursor := i } mode rfl rfl
      (operateOn_edited (w := { w with editor := { w.editor.setMode .normal with cursor := i } })
        ⟨(outside mode).history, (outside mode).typed⟩ rfl op _ register)

theorem move_effect (m : Motion) (count : Nat) : Effect w (w.move m count).1 := by
  obtain ⟨text, mode, _, history, recorder⟩ := w.move_kept m count
  exact .moved (by rw [mode]) text history recorder

theorem selectObject_effect (o : TextObject) (count : Nat) :
    Effect w (w.selectObject o count).1 := by
  simp only [selectObject]
  split
  · rename_i visual
    split
    · exact .nothing w
    · have mode := Mode.ne_insert_of_isVisual visual
      exact .moved (by simp [mode]) (by simp) (by simp) (.inl rfl)
  · exact .nothing w

theorem startVisual_effect (m : Mode) (visual : m.isVisual = true) :
    Effect w (w.startVisual m).1 := by
  simp only [startVisual]
  split
  · exact .nothing w
  · rename_i other
    have mode : w.editor.mode ≠ .insert := fun insert => other (.inr insert)
    have next := Mode.ne_insert_of_isVisual visual
    exact .moved (by simp [mode, next]) (by simp) (by simp) (.inl rfl)

theorem leaveVisual_effect : Effect w w.leaveVisual.1 := by
  simp only [leaveVisual]
  split
  · rename_i visual
    have mode := Mode.ne_insert_of_isVisual visual
    exact .moved (by simp [mode, Editor.clampCursor]) rfl rfl (.inl rfl)
  · exact .nothing w

theorem swapAnchor_effect : Effect w w.swapAnchor.1 := by
  simp only [swapAnchor]
  split
  · exact .nothing w
  · exact .moved .rfl rfl rfl (.inl rfl)

theorem InsertionStep.effect (step : InsertionStep w w') : Effect w w' := by
  cases step with
  | nothing same =>
    rw [same]
    exact .nothing w
  | edit insert t i r same => exact .inserted insert t i r same

theorem leaveInsert_effect : Effect w w.leaveInsert.1 := by
  by_cases insert : w.editor.mode = .insert
  · exact .left insert rfl
  · rw [leaveInsert, inMode_of_ne insert]
    exact .nothing w

theorem travelMany_travels {step : Editor → Option Editor}
    (one : ∀ e e₁ e₂, step e = some e₁ → e₁.Travels e₂ → e.Travels e₂) (n : Nat) (e : Editor) :
    e.Travels (travelMany step n e) := by
  induction n generalizing e with
  | zero => exact .stay e
  | succ n ih =>
    simp only [travelMany]
    split
    · rename_i e₁ stepped
      exact one _ _ _ stepped (ih e₁)
    · exact .stay e

theorem travel_travel {step : Editor → Option Editor}
    (one : ∀ e e₁ e₂, step e = some e₁ → e₁.Travels e₂ → e.Travels e₂) (count : Nat) :
    Travel w (w.travel step count).1 := by
  simp only [travel, inMode]
  split
  · rename_i normal
    split
    · exact .nowhere rfl
    · rename_i e₁ stepped
      have journey := one _ _ _ stepped (travelMany_travels one (count - 1) e₁)
      exact .journey normal _ journey rfl
  · exact .nowhere rfl

theorem perform_travel {c : Command} (travels : c.travels = true) : Travel w (w.perform c).1 := by
  cases c with
  | undo count => exact travel_travel (fun _ _ _ => .back) count
  | redo count => exact travel_travel (fun _ _ _ => .forth) count
  | _ => cases travels

theorem perform_effect (outside : w.editor.mode ≠ .insert → w.Idle)
    (cursor : w.editor.cursor ≤ w.editor.text.length) {c : Command}
    (stays : c.travels = false) : Effect w (w.perform c).1 := by
  cases c with
  | move m count => exact move_effect m count
  | edit e count => exact doEdit_effect outside count e
  | operateSelection op register => exact operateSelection_effect outside op register
  | selectObject o count => exact selectObject_effect o count
  | swapAnchor => exact swapAnchor_effect
  | startVisual | startVisualLine => exact startVisual_effect _ rfl
  | leaveVisual => exact leaveVisual_effect
  | leaveInsert => exact leaveInsert_effect
  | insertText t => exact (insertText_step w t).effect
  | insertBreak => exact (insertText_step w _).effect
  | backspace => exact (backspace_step w).effect
  | undo count | redo count => cases stays
  | repeatLast count? => exact repeatLast_effect outside cursor count?

end Workspace

/-! ### The history of a session -/

theorem History.undos_push {h : History} (room : 0 < h.capacity) (c : Checkpoint) :
    (h.push c).undos = c :: h.undos.take (h.capacity - 1) := by
  obtain ⟨n, same⟩ := Nat.exists_eq_add_of_lt room
  simp [push, same]

/-- The first edit of an insertion pushes a checkpoint, and the others do not. -/
theorem History.beginRun_noteEdits (h : History) (now : Checkpoint) :
    (∃ i, (h.beginRun now).noteEdits 1 =
        { h.push ⟨now.text, i⟩ with run := .active 1, origin? := none }) ∨
      h.run ≠ .inactive ∧ ∃ n, (h.beginRun now).noteEdits 1 = { h with run := .active n } := by
  cases run : h.run with
  | inactive =>
    left
    exact ⟨min (h.origin?.getD now.cursor) now.text.length, by simp [beginRun, noteEdits, run]⟩
  | active n =>
    right
    exact ⟨by simp, n + 1, by simp [beginRun, noteEdits, run]⟩

/-- The history has to do with an insertion only while there is one, and what was typed in it is
covered by a checkpoint. -/
structure Tidy (e : Editor) (r : Recorder) : Prop where
  outside : e.mode ≠ .insert → e.history.Idle
  typed : e.history.run = .inactive → r.typed = []
  covered : e.history.run ≠ .inactive → e.history.undos ≠ []
  room : 0 < e.history.capacity

namespace Tidy

variable {w w' : Workspace} {e : Editor} {r : Recorder}

theorem idle (tidy : Tidy w.editor w.recorder) (mode : w.editor.mode ≠ .insert) : w.Idle :=
  ⟨tidy.outside mode, tidy.typed (tidy.outside mode).run⟩

theorem of_idle (idle : w.Idle) (room : 0 < w.editor.history.capacity) :
    Tidy w.editor w.recorder where
  outside _ := idle.history
  typed _ := idle.typed
  covered active := absurd idle.history.run active
  room := room

theorem of_covered (mode : w.editor.mode = .insert) (active : w.editor.history.run ≠ .inactive)
    (covered : w.editor.history.undos ≠ []) (room : 0 < w.editor.history.capacity) :
    Tidy w.editor w.recorder where
  outside other := absurd mode other
  typed inactive := absurd inactive active
  covered _ := covered
  room := room

theorem ofText (t : Text) (m : Mode) (cursor undoLevels : Nat) :
    Tidy (.ofText t m cursor undoLevels) {} := by
  apply of_idle (w := ⟨.ofText t m cursor undoLevels, {}, {}⟩)
  · constructor
    · rw [Editor.ofText_history]
      exact ⟨rfl, rfl⟩
    · rfl
  · rw [Editor.ofText_history]
    exact Nat.lt_of_lt_of_le Nat.one_pos (Nat.le_max_right _ _)

theorem replaceText (tidy : Tidy e r) (t : Text) (cursor : Nat) :
    Tidy (e.replaceText t cursor) r.reset := by
  have idle : (e.replaceText t cursor).history.Idle := ⟨rfl, rfl⟩
  have room : 0 < (e.replaceText t cursor).history.capacity := tidy.room
  exact of_idle (w := ⟨e.replaceText t cursor, {}, r.reset⟩) ⟨idle, rfl⟩ room

theorem edited (edited : Workspace.Edited e w) (idle : e.history.Idle)
    (room : 0 < e.history.capacity) : Tidy w.editor w.recorder := by
  cases edited with
  | unchanged _ typed _ _ history =>
    rw [← history] at idle room
    exact of_idle ⟨idle, typed⟩ room
  | changed _ typed _ history =>
    have idle' := idle.push e.checkpoint
    rw [← history] at idle'
    refine of_idle ⟨idle', typed⟩ ?_
    rw [history]
    exact room
  | opened mode typed _ _ history =>
    constructor
    · intro other
      exact absurd mode other
    · intro _
      exact typed
    · intro active
      rw [history] at active
      exact absurd idle.run active
    · rw [history]
      exact room
  | covered mode edits _ history =>
    have pushed := History.undos_push room e.checkpoint
    apply of_covered mode
    · simp [history]
    · simp [history, pushed]
    · rw [history]
      exact room

theorem insertionEdit (tidy : Tidy w.editor w.recorder) (mode : w.editor.mode = .insert)
    (t : Text) (i : Nat) (r : Recorder) :
    Tidy (w.insertionEdit t i r).editor (w.insertionEdit t i r).recorder := by
  have begun : (w.insertionEdit t i r).editor.history =
      (w.editor.history.beginRun w.editor.checkpoint).noteEdits 1 := rfl
  have insert : (w.insertionEdit t i r).editor.mode = .insert := mode
  rcases w.editor.history.beginRun_noteEdits w.editor.checkpoint with
    ⟨origin, history⟩ | ⟨active, n, history⟩
  · have pushed := History.undos_push tidy.room ⟨w.editor.checkpoint.text, origin⟩
    apply of_covered insert
    · simp [begun, history]
    · simp [begun, history, pushed]
    · rw [begun, history]
      exact tidy.room
  · apply of_covered insert
    · simp [begun, history]
    · rw [begun, history]
      exact tidy.covered active
    · rw [begun, history]
      exact tidy.room

theorem effect (tidy : Tidy w.editor w.recorder) (effect : Workspace.Effect w w') :
    Tidy w'.editor w'.recorder := by
  cases effect with
  | moved mode text history typed =>
    constructor
    · intro other
      rw [history]
      exact tidy.outside (mt mode.mpr other)
    · intro inactive
      rw [history] at inactive
      rcases typed with same | empty
      · rw [same]
        exact tidy.typed inactive
      · exact empty
    · intro active
      rw [history] at active ⊢
      exact tidy.covered active
    · rw [history]
      exact tidy.room
  | edited e mode text history edited =>
    have idle := tidy.outside mode
    have room := tidy.room
    rw [← history] at idle room
    exact Tidy.edited edited idle room
  | inserted mode t i r same =>
    rw [same]
    exact tidy.insertionEdit mode t i r
  | left mode same =>
    obtain ⟨_, history, typed, _⟩ := Workspace.leaveInsert_kept mode
    rw [same]
    refine of_idle ⟨?_, typed⟩ ?_
    · rw [history]
      exact ⟨rfl, rfl⟩
    · rw [history]
      exact tidy.room

theorem travel (tidy : Tidy w.editor w.recorder) (travel : Workspace.Travel w w') :
    Tidy w'.editor w'.recorder := by
  cases travel with
  | nowhere same =>
    rw [same]
    exact tidy
  | journey mode e journey same =>
    obtain ⟨_, capacity, run, origin⟩ := journey.kept
    have idle := tidy.idle (by simp [mode])
    have idle' : e.history.Idle := ⟨run.trans idle.history.run, origin.trans idle.history.origin⟩
    have room : 0 < e.history.capacity := capacity ▸ tidy.room
    rw [same]
    exact of_idle (w := { w with editor := { e.clampCursor with wanted? := none } })
      ⟨idle', idle.typed⟩ room

theorem perform (tidy : Tidy w.editor w.recorder)
    (cursor : w.editor.cursor ≤ w.editor.text.length) (c : Command) :
    Tidy (w.perform c).1.editor (w.perform c).1.recorder := by
  cases travels : c.travels with
  | true => exact tidy.travel (Workspace.perform_travel travels)
  | false => exact tidy.effect (Workspace.perform_effect tidy.idle cursor travels)

end Tidy

namespace Session

variable {s : Session}

theorem Reachable.placed_and_tidy (reached : s.Reachable) :
    s.editor.Placed ∧ Tidy s.editor s.recorder := by
  apply reached.invariant (P := fun e r => e.Placed ∧ Tidy e r)
  · intro t m cursor undoLevels
    exact ⟨Editor.ofText_placed t m cursor undoLevels, .ofText t m cursor undoLevels⟩
  · rintro w c ⟨placed, tidy⟩
    exact ⟨Workspace.perform_placed placed c, tidy.perform placed.cursor_le_length c⟩
  · rintro e r t cursor ⟨placed, tidy⟩
    exact ⟨Editor.replaceText_placed placed t cursor, tidy.replaceText t cursor⟩

end Session

end ModalEdit
