import ModalEdit.Command.Basic

/-! The memory of the last change, for repeating it. A change that goes on with an insertion is
complete only when the insertion ends; until then the characters typed are gathered. -/
namespace ModalEdit

/-- An edit that was done, with its count and what was typed in its insertion. -/
structure Change where
  edit : Edit
  count : Nat
  typed? : Option Text := none
deriving DecidableEq, Repr

structure Recorder where
  last? : Option Change := none
  pending? : Option Change := none
  /-- What a repetition of the insertion would type. -/
  typed : Text := []
deriving DecidableEq, Repr

namespace Recorder

/-- A change that is complete at once. -/
def record (r : Recorder) (e : Edit) (count : Nat) : Recorder :=
  { r with last? := some { edit := e, count }, pending? := none }

/-- A change that goes on with an insertion. -/
def start (r : Recorder) (e : Edit) (count : Nat) : Recorder :=
  { r with pending? := some { edit := e, count }, typed := [] }

def push (r : Recorder) (t : Text) : Recorder := { r with typed := r.typed ++ t }

def pop (r : Recorder) : Recorder := { r with typed := r.typed.dropLast }

/-- Forgets what was typed: the cursor has moved, and only what follows can be repeated. -/
def reset (r : Recorder) : Recorder := { r with typed := [] }

/-- The insertion ends. It belongs to the change that began it, if there is one. -/
def finish (r : Recorder) : Recorder where
  last? := (r.pending?.map fun c => { c with typed? := some r.typed }).or r.last?

end Recorder

end ModalEdit
