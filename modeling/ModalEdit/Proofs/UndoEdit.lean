import ModalEdit.Proofs.Travel

/-! One edit is one step of the history, however it is typed and whatever is typed in it. -/
namespace ModalEdit

/-- Does the command edit the text outside of a selection, or begin to? -/
def Command.isEdit : Command → Bool
  | edit _ _ | repeatLast _ => true
  | _ => false

theorem Workspace.perform_edited {w : Workspace} {c : Command} (isEdit : c.isEdit = true)
    (idle : w.Idle) (cursor : w.editor.cursor ≤ w.editor.text.length)
    (normal : w.editor.mode = .normal) : Edited w.editor (w.perform c).1 := by
  cases c with
  | edit e count => exact doEdit_edited idle normal count e
  | repeatLast count? => exact repeatLast_edited idle cursor normal count?
  | _ => cases isEdit

namespace Session

/-- Keys that spell a command: each but the last asks for more, and the last one performs it. -/
inductive Spells : Session → List (RegisterBank × KeyPress) → Command → Session → Prop where
  | last : (s.press b k).2 = .performed c outcome → Spells s [(b, k)] c (s.press b k).1.1
  | next : (s.press b k).2 = .awaitingMore → Spells (s.press b k).1.1 keys c t →
      Spells s ((b, k) :: keys) c t

/-- An edit from its first key to its last one, which is the first escape if the edit goes on with
an insertion. -/
inductive Edits (s : Session) : Session → Prop where
  | atOnce : s.Spells keys c t → c.isEdit = true → t.editor.mode = .normal → Edits s t
  | inserted (typed : List (RegisterBank × KeyPress)) : s.Spells keys c t → c.isEdit = true →
      t.editor.mode = .insert → (∀ entry ∈ typed, entry.2.isEscape = false) →
      k.isEscape = true →
      Edits s ((t.run (typed.map fun entry => (entry.1, .press entry.2))).step b (.press k))

variable {s t : Session}

theorem Spells.reachable (spelled : s.Spells keys c t) (reached : s.Reachable) : t.Reachable := by
  induction spelled with
  | last => exact reached.next _ (.press _)
  | next _ _ ih => exact ih (reached.next _ (.press _))

theorem Edits.reachable (edits : s.Edits t) (reached : s.Reachable) : t.Reachable := by
  cases edits with
  | atOnce spelled => exact spelled.reachable reached
  | inserted typed spelled => exact ((spelled.reachable reached).run _).next _ (.press _)

theorem Spells.performed (spelled : s.Spells keys c t) :
    ∃ b, t.editor = (Workspace.perform ⟨s.editor, b, s.recorder⟩ c).1.editor ∧
      t.recorder = (Workspace.perform ⟨s.editor, b, s.recorder⟩ c).1.recorder ∧
      t.pending = {} := by
  induction spelled with
  | @last s b k c outcome performed =>
    rw [press_performed performed]
    exact ⟨b, rfl, rfl, rfl⟩
  | next more _ ih =>
    obtain ⟨p, after⟩ := press_awaitingMore more
    rw [after] at ih
    exact ih

/-- What the keys of an insertion can ask for. -/
theorem pressInsert_cases {k : KeyPress} (stays : k.isEscape = false) :
    Pending.pressInsert k = .meaningless ∨ ∃ c, Pending.pressInsert k = .complete c ∧
      ((∃ t, c = .insertText t) ∨ c = .insertBreak ∨ c = .backspace ∨ ∃ m, c = .move m 1) := by
  obtain ⟨code, mods⟩ := k
  rw [Pending.pressInsert, if_neg (by simp [stays])]
  by_cases held : (mods.ctrl || mods.alt) = true
  · exact .inl (if_pos held)
  · rw [if_neg held]
    cases code with
    | char c => exact .inr ⟨_, rfl, .inl ⟨_, rfl⟩⟩
    | tab => exact .inr ⟨_, rfl, .inl ⟨_, rfl⟩⟩
    | enter => exact .inr ⟨_, rfl, .inr (.inl rfl)⟩
    | backspace => exact .inr ⟨_, rfl, .inr (.inr (.inl rfl))⟩
    | escape => cases stays
    | up | down | left | right | home | endKey =>
      exact .inr ⟨_, rfl, .inr (.inr (.inr ⟨_, rfl⟩))⟩

/-- What typing and moving keep, the keys of an insertion keep. -/
theorem step_insertion {P : Editor → Recorder → Prop}
    (typing : ∀ w w', Workspace.InsertionStep w w' → P w.editor w.recorder →
      P w'.editor w'.recorder)
    (moving : ∀ (w : Workspace) m, P w.editor w.recorder →
      P (w.move m 1).1.editor (w.move m 1).1.recorder)
    (insert : s.editor.mode = .insert) (now : P s.editor s.recorder) (b : RegisterBank)
    (stays : k.isEscape = false) :
    (s.step b (.press k)).editor.mode = .insert ∧
      P (s.step b (.press k)).editor (s.step b (.press k)).recorder := by
  let w := s.workspace b
  have performed (c : Command) (kind : (∃ t, c = .insertText t) ∨ c = .insertBreak ∨
      c = .backspace ∨ ∃ m, c = .move m 1) :
      (w.perform c).1.editor.mode = .insert ∧
        P (w.perform c).1.editor (w.perform c).1.recorder := by
    have typed {w' : Workspace} (step : w.InsertionStep w') :
        w'.editor.mode = .insert ∧ P w'.editor w'.recorder :=
      ⟨step.mode.trans insert, typing w w' step now⟩
    rcases kind with ⟨t, rfl⟩ | rfl | rfl | ⟨m, rfl⟩
    · exact typed (w.insertText_step t)
    · exact typed (w.insertText_step _)
    · exact typed w.backspace_step
    · obtain ⟨_, same, _⟩ := w.move_kept m 1
      exact ⟨same.trans insert, moving w m now⟩
  have reading : s.pending.press s.editor.mode k = Pending.pressInsert k := by rw [insert]; rfl
  rcases pressInsert_cases stays with nothing | ⟨c, completes, kind⟩
  · simp only [Session.step, press, reading, nothing]
    exact ⟨insert, now⟩
  · simp only [Session.step, press, reading, completes]
    exact performed c kind

theorem run_insertion {P : Editor → Recorder → Prop}
    (typing : ∀ w w', Workspace.InsertionStep w w' → P w.editor w.recorder →
      P w'.editor w'.recorder)
    (moving : ∀ (w : Workspace) m, P w.editor w.recorder →
      P (w.move m 1).1.editor (w.move m 1).1.recorder)
    (insert : s.editor.mode = .insert) (now : P s.editor s.recorder)
    (typed : List (RegisterBank × KeyPress)) (stay : ∀ entry ∈ typed, entry.2.isEscape = false) :
    let after := s.run (typed.map fun entry => (entry.1, .press entry.2))
    after.editor.mode = .insert ∧ P after.editor after.recorder := by
  induction typed generalizing s with
  | nil => exact ⟨insert, now⟩
  | cons entry rest ih =>
    obtain ⟨stays, others⟩ := List.forall_mem_cons.mp stay
    obtain ⟨insert', next⟩ := step_insertion typing moving insert now entry.1 stays
    exact ih insert' next others

/-- In an insertion of an edit that began at the editor `e`. -/
def Inserts (e : Editor) (s : Session) : Prop :=
  s.editor.mode = .insert ∧ ∀ b, Workspace.Edited e ⟨s.editor, b, s.recorder⟩

theorem Inserts.run {e : Editor} (inserts : Inserts e s) (idle : e.history.Idle)
    (cursor : e.cursor ≤ e.text.length) (typed : List (RegisterBank × KeyPress))
    (stay : ∀ entry ∈ typed, entry.2.isEscape = false) :
    Inserts e (s.run (typed.map fun entry => (entry.1, .press entry.2))) := by
  refine run_insertion (P := fun e' r => ∀ b, Workspace.Edited e ⟨e', b, r⟩) ?_ ?_ inserts.1
    inserts.2 typed stay
  · intro w w' step edited b
    exact ((edited w.registers).insertionStep idle cursor step).with_registers b
  · intro w m edited b
    exact ((edited w.registers).move m 1).with_registers b

/-- The escape key ends the insertion, and with it the edit. -/
theorem Inserts.escape {e : Editor} (inserts : Inserts e s) (idle : e.history.Idle)
    (b : RegisterBank) (escape : k.isEscape = true) :
    (s.step b (.press k)).Ready ∧ ∀ b',
      Workspace.Edited e ⟨(s.step b (.press k)).editor, b', (s.step b (.press k)).recorder⟩ := by
  obtain ⟨mode, edited⟩ := inserts
  obtain ⟨ready, ⟨_, editor, recorder⟩ | ⟨outside, _⟩⟩ := step_escape (s := s) b escape
  · refine ⟨ready, fun b' => ?_⟩
    rw [editor, recorder]
    exact ((edited b).leaveInsert idle).with_registers b'
  · exact absurd mode outside

/-- An edit ends in the normal mode, and has changed nothing or is covered by one checkpoint. -/
theorem Edits.edited (edits : s.Edits t) (reached : s.Reachable) (normal : s.editor.mode = .normal) :
    t.Ready ∧ ∃ b, Workspace.Edited s.editor ⟨t.editor, b, t.recorder⟩ := by
  obtain ⟨placed, tidy⟩ := reached.placed_and_tidy
  have cursor := placed.cursor_le_length
  have performed (b : RegisterBank) {c : Command} (isEdit : c.isEdit = true) :
      Workspace.Edited s.editor (Workspace.perform ⟨s.editor, b, s.recorder⟩ c).1 :=
    Workspace.perform_edited isEdit (tidy.idle (w := ⟨s.editor, b, s.recorder⟩) (by simp [normal]))
      cursor normal
  cases edits with
  | atOnce spelled isEdit mode =>
    obtain ⟨b, editor, recorder, nothing⟩ := spelled.performed
    refine ⟨⟨mode, nothing⟩, b, ?_⟩
    rw [editor, recorder]
    exact (performed b isEdit).with_registers b
  | @inserted _ _ u b k typed spelled isEdit mode stay escape =>
    obtain ⟨b', editor, recorder, _⟩ := spelled.performed
    have inserts : Inserts s.editor u := by
      refine ⟨mode, fun b'' => ?_⟩
      rw [editor, recorder]
      exact (performed b' isEdit).with_registers b''
    have idle := tidy.outside (by simp [normal])
    obtain ⟨ready, edited⟩ := (inserts.run idle cursor typed stay).escape idle b escape
    exact ⟨ready, b, edited b⟩

/-- An edit that has changed the text is one step of the history: it leaves one checkpoint more,
within the capacity, and nothing to redo; undoing it gives the text and the cursor of before, and
redoing it those that it came to. -/
theorem undo_redo_edit (reached : s.Reachable) (normal : s.editor.mode = .normal)
    (edits : s.Edits t) (changed : s.editor.revision < t.editor.revision) :
    t.editor.history.undos.length =
        min (s.editor.history.undos.length + 1) s.editor.history.capacity ∧
      t.editor.history.redos = [] ∧
      ∀ b b', let undone := t.step b (.press (.char 'u'))
        let redone := undone.step b' (.press (.ctrl 'r'))
        undone.editor.text = s.editor.text ∧ undone.editor.cursor = s.editor.cursor ∧
        redone.editor.text = t.editor.text ∧ redone.editor.cursor = t.editor.cursor := by
  obtain ⟨placed, tidy⟩ := reached.placed_and_tidy
  have placed' := (edits.reachable reached).placed
  obtain ⟨ready, b, edited⟩ := edits.edited reached normal
  have history : t.editor.history = s.editor.history.push s.editor.checkpoint := by
    cases edited with
    | unchanged _ _ _ revision => exact absurd revision (Nat.ne_of_gt changed)
    | changed _ _ _ history => exact history
    | opened mode | covered mode =>
      have := mode.symm.trans ready.1
      cases this
  have undos := History.undos_push tidy.room s.editor.checkpoint
  rw [← history] at undos
  obtain ⟨text, cursor, _, redos⟩ := Editor.back_eq undos ready.1
  have still : t.editor.back.mode = .normal := Editor.back_mode.trans ready.1
  obtain ⟨text', cursor', _⟩ := Editor.forth_eq redos still
  refine ⟨?_, by rw [history]; rfl, fun b b' => ?_⟩
  · rw [history, History.push, List.length_take, List.length_cons, Nat.min_comm]
  · have ready' : Session.Ready { t with editor := t.editor.back } := ⟨still, ready.2⟩
    rw [step_u ready]
    dsimp only
    rw [step_ctrl_r ready']
    refine ⟨text, ?_, text', ?_⟩
    · exact cursor.trans (Nat.min_eq_left (placed.cursor_le (by simp [normal])))
    · exact cursor'.trans (Nat.min_eq_left (placed'.cursor_le (by simp [ready.1])))

/-- Two lines opened below, after a deletion that takes up the only place in the history. -/
theorem undo_redo_opened_lines :
    let s := (ofText ['a', 'b'] .normal 1 1).run [({}, .press (.char 'x'))]
    let t := s.run [({}, .press (.char '2')), ({}, .press (.char 'o')), ({}, .press (.char 'c')),
      ({}, .press ⟨.escape, {}⟩)]
    s.Reachable ∧ s.editor.mode = .normal ∧ s.Edits t ∧ s.editor.revision < t.editor.revision ∧
      t.editor.text = ['a', '\n', 'c', '\n', 'c'] ∧ t.editor.history.undos.length = 1 ∧
      (t.step {} (.press (.char 'u'))).editor.text = ['a'] ∧
      ((t.step {} (.press (.char 'u'))).step {} (.press (.ctrl 'r'))).editor.cursor = 4 := by
  intro s t
  have reached : s.Reachable := (Reachable.opened _ _ _ _).run _
  have spelled : s.Spells [({}, .char '2'), ({}, .char 'o')] (.edit (.insert .openBelow) 2)
      (s.run [({}, .press (.char '2')), ({}, .press (.char 'o'))]) := .next rfl (.last rfl)
  have edits : s.Edits t :=
    .inserted [({}, .char 'c')] spelled rfl (by decide) (by decide) rfl
  have normal : s.editor.mode = .normal := by decide
  have changed : s.editor.revision < t.editor.revision := by decide
  obtain ⟨undos, _, restored⟩ := undo_redo_edit reached normal edits changed
  obtain ⟨text, _, _, cursor⟩ := restored {} {}
  refine ⟨reached, normal, edits, changed, by decide, undos.trans (by decide), ?_, ?_⟩
  · exact text.trans (by decide)
  · exact cursor.trans (by decide)

end Session

end ModalEdit
