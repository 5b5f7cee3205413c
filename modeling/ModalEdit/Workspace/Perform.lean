import ModalEdit.Workspace.Editing
import ModalEdit.Workspace.Insertion
import ModalEdit.Workspace.Moving

/-! What each command does. -/
namespace ModalEdit.Workspace

def doEdit (w : Workspace) (count : Nat) : Edit → Workspace × Outcome
  | .operate op target register => w.operate op target count register
  | .insert entry => w.enterInsert entry count
  | .replace c => w.replaceChar c count
  | .paste before register => w.paste before count register
  | .joinLines => w.joinLines count

def followedBy (done : Workspace × Outcome) (f : Workspace → Workspace × Outcome) :
    Workspace × Outcome :=
  let (w, outcome) := f done.1
  (w, done.2.merge outcome)

/-- Types again what was typed in the insertion of a change, and ends that insertion. -/
def retype (done : Workspace × Outcome) (c : Change) : Workspace × Outcome :=
  if c.edit.entersInsert && done.1.editor.mode = .insert then
    followedBy (followedBy done (·.insertText (c.typed?.getD []))) (·.leaveInsert)
  else done

/-- Does the last change once more, with its own count unless another one is given. -/
def repeatLast (w : Workspace) (count? : Option Nat) : Workspace × Outcome :=
  w.inMode .normal <|
    match w.recorder.last? with
    | none => w.skip
    | some c => retype (w.doEdit (count?.getD c.count) c.edit) c

/-- Performs a command. A command without meaning in the mode changes nothing. -/
def perform (w : Workspace) : Command → Workspace × Outcome
  | .move m count => w.move m count
  | .edit e count => w.doEdit count e
  | .operateSelection op register => w.operateSelection op register
  | .selectObject o count => w.selectObject o count
  | .swapAnchor => w.swapAnchor
  | .startVisual => w.startVisual .visual
  | .startVisualLine => w.startVisual .visualLine
  | .leaveVisual => w.leaveVisual
  | .leaveInsert => w.leaveInsert
  | .insertText t => w.insertText t
  | .insertBreak => w.insertText ['\n']
  | .backspace => w.backspace
  | .undo count => w.travel Editor.undo? count
  | .redo count => w.travel Editor.redo? count
  | .repeatLast count? => w.repeatLast count?

end ModalEdit.Workspace
