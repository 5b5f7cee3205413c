import ModalEdit.Proofs.UndoEdit

/-! A text from outside is one step of the history, whatever it interrupts. It ends what was typed
of an insertion, so that nothing is typed again into the new text, and an insertion that is still
open goes on with a step of its own. -/
namespace ModalEdit

/-- An insertion that found the text `t` and the history `h`, without a checkpoint that covers it:
nothing has been edited since, or a checkpoint of the text covers what has been. -/
inductive GoesOn (t : Text) (revision : Nat) (h : History) (e : Editor) (r : Recorder) : Prop where
  | untouched (typed : r.typed = []) (text : e.text = t) (same : e.revision = revision)
      (history : e.history = h)
  | covered (i edits : Nat) (history : e.history = { h.push ⟨t, i⟩ with run := .active edits })

namespace GoesOn

variable {t : Text} {revision : Nat} {h : History} {w w' : Workspace}

theorem insertionStep (goesOn : GoesOn t revision h w.editor w.recorder) (idle : h.Idle)
    (step : w.InsertionStep w') : GoesOn t revision h w'.editor w'.recorder := by
  cases step with
  | nothing same =>
    rw [same]
    exact goesOn
  | edit _ u i r same =>
    have begun : (w.insertionEdit u i r).editor.history =
        (w.editor.history.beginRun w.editor.checkpoint).noteEdits 1 := rfl
    rw [same]
    cases goesOn with
    | untouched _ text _ history =>
      rcases w.editor.history.beginRun_noteEdits w.editor.checkpoint with
        ⟨origin, pushed⟩ | ⟨active, _⟩
      · refine .covered origin 1 ?_
        rw [begun, pushed, history, Editor.checkpoint, text]
        simp [History.push, idle.origin]
      · rw [history] at active
        exact absurd idle.run active
    | covered j edits history =>
      refine .covered j (edits + 1) ?_
      rw [begun, history]
      rfl

theorem move (goesOn : GoesOn t revision h w.editor w.recorder) (m : Motion) (count : Nat) :
    GoesOn t revision h (w.move m count).1.editor (w.move m count).1.recorder := by
  obtain ⟨text', _, revision', history', recorder⟩ := w.move_kept m count
  cases goesOn with
  | untouched typed text same history =>
    refine .untouched ?_ (text'.trans text) (revision'.trans same) (history'.trans history)
    rcases recorder with kept | empty
    · rw [kept]
      exact typed
    · exact empty
  | covered i edits history => exact .covered i edits (history'.trans history)

end GoesOn

theorem History.Idle.endRun_self {h : History} (idle : h.Idle) : h.endRun = h :=
  idle.endRun h.run h.origin?

namespace Session

variable {s : Session}

/-- The escape key does not show in the text if there is nothing to type again, nor in the history
if no insertion has a part in it. -/
theorem escape_of_untyped (idle : s.editor.history.Idle) (typed : s.recorder.typed = [])
    (b : RegisterBank) (escape : k.isEscape = true) :
    (s.step b (.press k)).Ready ∧ (s.step b (.press k)).editor.text = s.editor.text ∧
      (s.step b (.press k)).editor.history = s.editor.history := by
  obtain ⟨ready, ⟨insert, same, _⟩ | ⟨_, text, history⟩⟩ := step_escape (s := s) b escape
  · obtain ⟨_, history, _, _, nothing⟩ :=
      Workspace.leaveInsert_kept (w := s.workspace b) insert
    rw [same]
    exact ⟨ready, (nothing typed).1, history.trans idle.endRun_self⟩
  · exact ⟨ready, text, history⟩

/-- An insertion in which something has been edited is one step of the history when it is over. -/
theorem escape_of_goesOn {t : Text} {h : History} (idle : h.Idle) (insert : s.editor.mode = .insert)
    (goesOn : GoesOn t revision h s.editor s.recorder) (edited : revision < s.editor.revision)
    (b : RegisterBank) (escape : k.isEscape = true) :
    (s.step b (.press k)).Ready ∧
      ∃ i, (s.step b (.press k)).editor.history = h.push ⟨t, i⟩ := by
  obtain ⟨ready, ⟨_, same, _⟩ | ⟨outside, _⟩⟩ := step_escape (s := s) b escape
  · obtain ⟨_, history, _⟩ := Workspace.leaveInsert_kept (w := s.workspace b) insert
    cases goesOn with
    | untouched _ _ unchanged => exact absurd unchanged (Nat.ne_of_gt edited)
    | covered i edits covers =>
      refine ⟨ready, i, ?_⟩
      rw [same, history]
      dsimp only [workspace]
      rw [covers]
      exact (idle.push _).endRun _ (h.push ⟨t, i⟩).origin?
  · exact absurd insert outside

/-- With room for two checkpoints, the one below the newest is two steps back. -/
theorem two_steps_back {h : History} (ready : s.Ready) (undos : h.undos = c :: rest)
    (capacity : 2 ≤ h.capacity) (history : s.editor.history = h.push c') (b b' : RegisterBank) :
    let undone := s.step b (.press (.char 'u'))
    undone.editor.text = c'.text ∧
      (undone.step b' (.press (.char 'u'))).editor.text = c.text := by
  obtain ⟨n, two⟩ := Nat.exists_eq_add_of_le' capacity
  have kept := History.undos_push (h := h) (by omega) c'
  rw [undos, two, Nat.add_sub_cancel_right (n + 1) 1, List.take_succ_cons, ← history] at kept
  obtain ⟨ready', text, _, undos', _⟩ := step_u_eq ready kept b
  obtain ⟨_, text', _⟩ := step_u_eq ready' undos' b'
  exact ⟨text, text'⟩

/-- A text from outside is a step of the history by itself. One step back leads to the text of
before, and one step forth to the text from outside. In an insertion that is still open, what is
edited after that is a step of its own. -/
theorem sync_is_step (reached : s.Reachable) (t : Text) (cursor : Nat)
    (escape : k.isEscape = true) :
    let synced := s.syncText t cursor
    (∀ b b' b'', let left := synced.step b (.press k)
      let undone := left.step b' (.press (.char 'u'))
      let redone := undone.step b'' (.press (.ctrl 'r'))
      left.editor.mode = .normal ∧ left.editor.text = t ∧
      undone.editor.text = s.editor.text ∧
      undone.editor.cursor = min s.editor.cursor (s.editor.text.length - 1) ∧
      redone.editor.text = t) ∧
    (s.editor.mode = .insert → 2 ≤ s.editor.history.capacity →
      ∀ typed : List (RegisterBank × KeyPress), (∀ entry ∈ typed, entry.2.isEscape = false) →
      let typedOn := synced.run (typed.map fun entry => (entry.1, .press entry.2))
      synced.editor.revision < typedOn.editor.revision →
      ∀ b b' b'', let undone := (typedOn.step b (.press k)).step b' (.press (.char 'u'))
        undone.editor.text = t ∧
        (undone.step b'' (.press (.char 'u'))).editor.text = s.editor.text) := by
  intro synced
  obtain ⟨_, tidy⟩ := reached.placed_and_tidy
  have room : 0 < s.editor.history.endRun.capacity := tidy.room
  have pushed : synced.editor.history = s.editor.history.endRun.push s.editor.checkpoint := rfl
  have idle : synced.editor.history.Idle := ⟨rfl, rfl⟩
  have undos := History.undos_push room s.editor.checkpoint
  rw [← pushed] at undos
  constructor
  · intro b b' b'' left undone redone
    obtain ⟨ready, text, history⟩ := escape_of_untyped (s := synced) idle rfl b escape
    rw [← history] at undos
    obtain ⟨ready', text', cursor', _, redos⟩ := step_u_eq ready undos b'
    obtain ⟨_, text'', _⟩ := step_ctrl_r_eq ready' redos b''
    exact ⟨ready.1, text, text', cursor', text''.trans text⟩
  · intro insert capacity typed stay typedOn edited b b' b'' undone
    have start : GoesOn t synced.editor.revision synced.editor.history synced.editor
        synced.recorder := .untouched rfl rfl rfl rfl
    obtain ⟨insert', goesOn⟩ := run_insertion (s := synced)
      (fun _ _ step goesOn => goesOn.insertionStep idle step)
      (fun _ m goesOn => goesOn.move m 1) insert start typed stay
    obtain ⟨ready, i, history⟩ := escape_of_goesOn idle insert' goesOn edited b escape
    exact two_steps_back ready undos capacity history b' b''

/-- A counted insertion that a text from outside interrupts, with as few checkpoints as it takes.
What is typed into the new text is repeated, and what was typed before is not. -/
theorem sync_is_step_in_insertion :
    let s := (ofText ['a', 'b'] .normal 0 2).run
      (['3', 'i', 'x', 'y'].map fun c => ({}, .press (.char c)))
    let synced := s.syncText ['c', 'd', 'e'] 1
    let escape : KeyPress := ⟨.escape, {}⟩
    let typed : List (RegisterBank × KeyPress) := [({}, .char 'z')]
    let left := (synced.run (typed.map fun entry => (entry.1, .press entry.2))).step {}
      (.press escape)
    let undone := left.step {} (.press (.char 'u'))
    s.Reachable ∧ s.editor.text = ['x', 'y', 'a', 'b'] ∧
      ((synced.step {} (.press escape)).step {} (.press (.char 'u'))).editor.text =
        s.editor.text ∧
      ((synced.step {} (.press escape)).step {} (.press (.char 'u'))).editor.cursor = 2 ∧
      left.editor.text = ['c', 'z', 'z', 'z', 'd', 'e'] ∧
      undone.editor.text = ['c', 'd', 'e'] ∧
      (undone.step {} (.press (.char 'u'))).editor.text = s.editor.text := by
  intro s synced escape typed left undone
  have reached : s.Reachable := (Reachable.opened _ _ _ _).run _
  obtain ⟨atOnce, goneOn⟩ := sync_is_step reached ['c', 'd', 'e'] 1 (k := escape) rfl
  obtain ⟨_, _, text, cursor, _⟩ := atOnce {} {} {}
  obtain ⟨text', text''⟩ := goneOn (by decide) (by decide) typed (by decide) (by decide) {} {} {}
  have two : min s.editor.cursor (s.editor.text.length - 1) = 2 := by decide
  refine ⟨reached, by decide, text, cursor.trans two, by decide, text', ?_⟩
  dsimp only [undone, left, synced]
  exact text''

end Session

end ModalEdit
