import ModalEdit.Command.Translator
import ModalEdit.Session

/-! A text that is edited by keys, with a translator for what has been typed of a command. -/
namespace ModalEdit

structure TranslatedSession where
  editor : Editor
  translator : Translator := {}
  recorder : Recorder := {}
deriving DecidableEq, Repr

namespace TranslatedSession

def ofText (t : Text) (m : Mode) (cursor undoLevels : Nat) : TranslatedSession where
  editor := .ofText t m cursor undoLevels

/-- Performs a command, whatever has been typed. -/
def perform (s : TranslatedSession) (b : RegisterBank) (c : Command) :
    (TranslatedSession × RegisterBank) × Outcome :=
  let (w, outcome) := Workspace.perform ⟨s.editor, b, s.recorder⟩ c
  (({ s with editor := w.editor, recorder := w.recorder }, w.registers), outcome)

def press (s : TranslatedSession) (b : RegisterBank) (k : KeyPress) :
    (TranslatedSession × RegisterBank) × Response :=
  let (out, translator) := s.translator.translate s.editor.mode k
  let s := { s with translator }
  match out with
  | .command c =>
    let (after, outcome) := s.perform b c
    (after, .performed c outcome)
  | .consumed => ((s, b), .awaitingMore)
  | .unhandled => ((s, b), .unhandled)

/-- Takes over a text that was edited elsewhere. -/
def syncText (s : TranslatedSession) (t : Text) (cursor : Nat) : TranslatedSession where
  editor := s.editor.replaceText t cursor
  recorder := s.recorder.reset

end TranslatedSession

end ModalEdit
