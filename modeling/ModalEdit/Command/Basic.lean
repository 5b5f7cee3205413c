import ModalEdit.Motion.Basic
import ModalEdit.Register.Basic
import ModalEdit.TextObject

/-! Commands: what one key, or a few of them together, ask for. -/
namespace ModalEdit

inductive Operator where
  | delete
  | yank
  | change
deriving DecidableEq, Repr

namespace Operator

def toChar : Operator → Char
  | delete => 'd'
  | yank => 'y'
  | change => 'c'

def ofChar? (c : Char) : Option Operator := [delete, yank, change].find? (·.toChar == c)

end Operator

inductive Target where
  /-- As many lines as the count says, from the cursor on. -/
  | lines
  | motion (m : Motion)
  | object (o : TextObject)
deriving DecidableEq, Repr

inductive InsertEntry where
  | before
  | after
  | lineStart
  | lineEnd
  | openBelow
  | openAbove
deriving DecidableEq, Repr

def InsertEntry.opensLine : InsertEntry → Bool
  | openBelow | openAbove => true
  | _ => false

/-- What is done with a count, and can be done again. -/
inductive Edit where
  | operate (op : Operator) (target : Target) (register : Option RegisterName)
  | insert (entry : InsertEntry)
  | replace (c : Char)
  | paste (before : Bool) (register : Option RegisterName)
  | joinLines
deriving DecidableEq, Repr

def Edit.entersInsert : Edit → Bool
  | operate .change _ _ | insert _ => true
  | _ => false

inductive Command where
  | move (m : Motion) (count : Nat)
  | edit (e : Edit) (count : Nat)
  | operateSelection (op : Operator) (register : Option RegisterName)
  | selectObject (o : TextObject) (count : Nat)
  /-- The cursor goes to the other end of the selection. -/
  | swapAnchor
  | startVisual
  | startVisualLine
  | leaveVisual
  | leaveInsert
  | insertText (t : Text)
  | insertBreak
  | backspace
  | undo (count : Nat)
  | redo (count : Nat)
  /-- The last change once more, with another count if one is given. -/
  | repeatLast (count? : Option Nat)
deriving DecidableEq, Repr

end ModalEdit
