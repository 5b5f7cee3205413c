import ModalEdit.Command.Pending
import ModalEdit.Snapshot
import ModalEdit.Workspace.Perform

/-! One text that is edited by keys. -/
namespace ModalEdit

structure Session where
  editor : Editor
  pending : Pending := {}
  recorder : Recorder := {}
deriving DecidableEq, Repr

inductive Response where
  | performed (c : Command) (outcome : Outcome)
  | awaitingMore
  | unhandled
deriving DecidableEq, Repr

def Response.isHandled : Response → Bool
  | unhandled => false
  | _ => true

namespace Session

def ofText (t : Text) (m : Mode) (cursor undoLevels : Nat) : Session where
  editor := .ofText t m cursor undoLevels

/-- Performs a command, whatever has been typed. -/
def perform (s : Session) (b : RegisterBank) (c : Command) : (Session × RegisterBank) × Outcome :=
  let (w, outcome) := Workspace.perform ⟨s.editor, b, s.recorder⟩ c
  (({ s with editor := w.editor, recorder := w.recorder }, w.registers), outcome)

def press (s : Session) (b : RegisterBank) (k : KeyPress) : (Session × RegisterBank) × Response :=
  let reading := s.pending.press s.editor.mode k
  let s := { s with pending := reading.pending }
  match reading with
  | .complete c =>
    let (after, outcome) := s.perform b c
    (after, .performed c outcome)
  | .incomplete _ => ((s, b), .awaitingMore)
  | .meaningless => ((s, b), .unhandled)

def pressAll (s : Session) (b : RegisterBank) :
    List KeyPress → (Session × RegisterBank) × List Response
  | [] => ((s, b), [])
  | k :: rest =>
    let ((s, b), response) := s.press b k
    let (after, responses) := s.pressAll b rest
    (after, response :: responses)

def dropPending (s : Session) : Session := { s with pending := {} }

/-- Takes over a text that was edited elsewhere. What has been typed of a command or in an
insertion is dropped, and the history goes on. -/
def syncText (s : Session) (t : Text) (cursor : Nat) : Session :=
  { s.dropPending with
    editor := s.editor.replaceText t cursor
    recorder := s.recorder.reset }

end Session

end ModalEdit
