import ModalEdit.Proofs.Checked.Editing
import ModalEdit.Proofs.Checked.Script

/-! No operation leaves its domain. Whatever keys a session gets, every difference, every range and
every place that is asked for on the way is there. -/
namespace ModalEdit

namespace Checked

variable {w : Workspace}

/-! ### Commands -/

/-- After a command the cursor must be in the text. -/
def asserted (done? : Option (Workspace × Outcome)) : Option (Workspace × Outcome) :=
  done?.filter fun done => done.1.editor.cursor ≤ done.1.editor.text.length

def doEdit (w : Workspace) (count : Nat) : Edit → Option (Workspace × Outcome)
  | .operate op target register => operate w op target count register
  | .insert entry => enterInsert w entry count
  | .replace c => replaceChar w c count
  | .paste before register => paste w before count register
  | .joinLines => joinLines w count

def retype (done : Workspace × Outcome) (c : Change) : Option (Workspace × Outcome) :=
  if c.edit.entersInsert && done.1.editor.mode = .insert then do
    let typed ← insertText done.1 (c.typed?.getD [])
    let left ← leaveInsert typed.1
    return (left.1, (done.2.merge typed.2).merge left.2)
  else some done

/-- The edit is a command of its own within the repetition. -/
def repeatLast (w : Workspace) (count? : Option Nat) : Option (Workspace × Outcome) :=
  inMode w .normal <|
    match w.recorder.last? with
    | none => some w.skip
    | some c => do
      let done ← asserted (doEdit w (count?.getD c.count) c.edit)
      retype done c

/-- A step through the history has no domain: it takes a checkpoint only if there is one. -/
def act (w : Workspace) : Command → Option (Workspace × Outcome)
  | .move m count => move w m count
  | .edit e count => doEdit w count e
  | .operateSelection op register => operateSelection w op register
  | .selectObject o count => selectObject w o count
  | .swapAnchor => swapAnchor w
  | .startVisual => startVisual w .visual
  | .startVisualLine => startVisual w .visualLine
  | .leaveVisual => leaveVisual w
  | .leaveInsert => leaveInsert w
  | .insertText t => insertText w t
  | .insertBreak => insertText w ['\n']
  | .backspace => backspace w
  | .undo count => some (w.travel Editor.undo? count)
  | .redo count => some (w.travel Editor.redo? count)
  | .repeatLast count? => repeatLast w count?

def perform (w : Workspace) (c : Command) : Option (Workspace × Outcome) := asserted (act w c)

theorem asserted_eq {done : Workspace × Outcome} (placed : done.1.editor.Placed) :
    asserted (some done) = some done :=
  Option.filter_some_pos (decide_eq_true placed.cursor_le_length)

theorem doEdit_eq (fits : w.editor.history.Fits) (count : Nat) (edit : Edit) :
    doEdit w count edit = some (w.doEdit count edit) := by
  cases edit with
  | operate op target register => exact operate_eq fits op target count register
  | insert entry => exact enterInsert_eq fits entry count
  | replace c => exact replaceChar_eq fits c count
  | paste before register => exact paste_eq fits before count register
  | joinLines => exact joinLines_eq fits count

theorem retype_eq {done : Workspace × Outcome} (placed : done.1.editor.Placed)
    (fits : done.1.editor.history.Fits) (c : Change) :
    retype done c = some (Workspace.retype done c) := by
  have typed := Workspace.insertText_placed placed (c.typed?.getD [])
  rw [retype, Workspace.retype]
  split
  · rw [insertText_eq fits, Option.bind_eq_bind, Option.bind_some,
      leaveInsert_eq typed.cursor_le_length]
    rfl
  · rfl

/-- The repeated edit leaves the cursor and the history fit for what is typed after it. -/
theorem repeatLast_eq (placed : w.editor.Placed) (tidy : Tidy w.editor w.recorder)
    (fits : w.editor.history.Fits) (count? : Option Nat) :
    repeatLast w count? = some (w.repeatLast count?) := by
  apply inMode_eq
  intro normal
  cases w.recorder.last? with
  | none => rfl
  | some c =>
    have idle := tidy.idle (by simp [normal])
    have edited := Workspace.doEdit_edited idle normal (count?.getD c.count) c.edit
    have after := Workspace.doEdit_placed placed (count?.getD c.count) c.edit
    simp only [doEdit_eq fits, asserted_eq after, Option.bind_eq_bind, Option.bind_some]
    exact retype_eq after (edited.fits fits) c

theorem act_eq (placed : w.editor.Placed) (tidy : Tidy w.editor w.recorder)
    (fits : w.editor.history.Fits) (c : Command) : act w c = some (w.perform c) := by
  cases c with
  | move m count => exact move_eq w m count
  | edit e count => exact doEdit_eq fits count e
  | operateSelection op register => exact operateSelection_eq fits op register
  | selectObject o count => exact selectObject_eq w o count
  | swapAnchor => exact swapAnchor_eq w
  | startVisual | startVisualLine => exact startVisual_eq w _
  | leaveVisual => exact leaveVisual_eq w
  | leaveInsert => exact leaveInsert_eq placed.cursor_le_length
  | insertText t => exact insertText_eq fits t
  | insertBreak => exact insertText_eq fits _
  | backspace => exact backspace_eq fits
  | undo count | redo count => rfl
  | repeatLast count? => exact repeatLast_eq placed tidy fits count?

theorem perform_eq (placed : w.editor.Placed) (tidy : Tidy w.editor w.recorder)
    (fits : w.editor.history.Fits) (c : Command) : perform w c = some (w.perform c) := by
  rw [perform, act_eq placed tidy fits, asserted_eq (Workspace.perform_placed placed c)]

/-! ### Keys -/

def press (s : Session) (b : RegisterBank) (k : KeyPress) :
    Option ((Session × RegisterBank) × Response) :=
  let reading := s.pending.press s.editor.mode k
  let s := { s with pending := reading.pending }
  match reading with
  | .complete c => do
    let (w, outcome) ← perform (s.workspace b) c
    return (({ s with editor := w.editor, recorder := w.recorder }, w.registers),
      .performed c outcome)
  | .incomplete _ => some ((s, b), .awaitingMore)
  | .meaningless => some ((s, b), .unhandled)

/-- A key for a session that is not there has no effect. -/
def submit (e : Engine) (id : SessionId) (k : KeyPress) : Option (Engine × Bool) :=
  match e.find? id with
  | none => some (e, false)
  | some s => do
    let ((s, registers), response) ← press s e.registers k
    return ({ e.update id s with registers }, response.isHandled)

theorem press_eq {s : Session} (reached : s.Reachable) (b : RegisterBank) (k : KeyPress) :
    press s b k = some (s.press b k) := by
  obtain ⟨placed, tidy⟩ := reached.placed_and_tidy
  rw [press, Session.press]
  cases s.pending.press s.editor.mode k with
  | complete c =>
    dsimp only
    rw [perform_eq placed tidy reached.fits]
    rfl
  | incomplete p => rfl
  | meaningless => rfl

/-- With a cursor that no session can have, a key would leave a domain. -/
example : press { editor := { text := [], cursor := 1, history := .empty 1 } } {} (.char 'v') = none := by
  decide

end Checked

namespace Engine

/-- In every state of an engine, every key is worked off with all operations within their domains,
and so is every script that keys are read from. -/
theorem keys_stay_within_domains {e : Engine} (reached : e.Reachable) :
    (∀ id k, Checked.submit e id k = some (e.press id k)) ∧
      ∀ script, Checked.readScript script = some (KeyPress.readScript script) := by
  constructor
  · intro id k
    rw [Checked.submit, Engine.press]
    cases found : e.find? id with
    | none => rfl
    | some s =>
      have own : s.Reachable := reached.sessions _ (mem_of_find? found)
      dsimp only
      rw [Checked.press_eq own]
      rfl
  · exact Checked.readScript_eq

/-- The quotes around a cursor that stands on the second of them, and a group without an end. -/
theorem keys_stay_within_domains_quotes :
    ∃ e : Engine, e.Reachable ∧
      Checked.submit e 1 (.char '\x22') = some (e.press 1 (.char '\x22')) ∧
      ((e.press 1 (.char '\x22')).1.snapshot? 1).map (·.cursor) = some 3 ∧
      Checked.readScript ['x', '<', 'C', '-'] = some (.error (.unterminated 1)) := by
  have reached : Reachable (Engine.press (Engine.openSession { registers := {}, undoLevels := 1 }
      ['a', '\x22', 'b', 'c', '\x22'] .visual 4).1 1 (.char 'i')).1 :=
    .press 1 _ (.openSession _ .visual 4 (.fresh {} 1))
  have within := keys_stay_within_domains reached
  exact ⟨_, reached, within.1 1 _, by decide, within.2 _⟩

end Engine

end ModalEdit
