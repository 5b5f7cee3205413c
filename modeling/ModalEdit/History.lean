import ModalEdit.Text.Basic

/-! The undo history: the states to go back to, those to go forward to again, and the run of an
insertion, whose edits all belong to one step back. -/
namespace ModalEdit

structure Checkpoint where
  text : Text
  cursor : Nat
deriving DecidableEq, Repr

/-- Whether a checkpoint covers the edits of the insertion that is going on, and how many edits
it has covered so far. -/
inductive InsertRun where
  | inactive
  | active (edits : Nat)
deriving DecidableEq, Repr

/-- Checkpoints on both sides of the present. Each list begins with the nearest one. -/
structure History where
  /-- The most checkpoints that are kept to go back to. -/
  capacity : Nat
  undos : List Checkpoint := []
  redos : List Checkpoint := []
  run : InsertRun := .inactive
  /-- Where the cursor was before the command that opened the insertion moved it. -/
  origin? : Option Nat := none
deriving DecidableEq, Repr

namespace History

def empty (levels : Nat) : History where
  capacity := max levels 1

/-- Records the state before an edit. The oldest checkpoint gives way, and the states that were
undone cannot be reached any more. -/
def push (h : History) (c : Checkpoint) : History :=
  { h with undos := (c :: h.undos).take h.capacity, redos := [] }

/-- Remembers the cursor for the checkpoint of the insertion that is about to open. -/
def markOrigin (h : History) (cursor : Nat) : History :=
  match h.run with
  | .inactive => { h with origin? := some cursor }
  | .active _ => h

/-- Covers the coming edits of an insertion by a checkpoint, unless one covers them already. -/
def beginRun (h : History) (now : Checkpoint) : History :=
  match h.run with
  | .inactive =>
    let cursor := min (h.origin?.getD now.cursor) now.text.length
    { h.push ⟨now.text, cursor⟩ with run := .active 0, origin? := none }
  | .active _ => h

/-- Takes the newest checkpoint as the one that covers the coming edits of an insertion. -/
def adoptRun (h : History) : History :=
  match h.run with
  | .inactive => { h with run := .active 0, origin? := none }
  | .active _ => h

def noteEdits (h : History) (n : Nat) : History :=
  match h.run with
  | .inactive => h
  | .active edits => { h with run := .active (edits + n) }

def endRun (h : History) : History := { h with run := .inactive, origin? := none }

def undo? (h : History) (now : Checkpoint) : Option (Checkpoint × History) :=
  match h.undos with
  | [] => none
  | c :: rest => some (c, { h with undos := rest, redos := now :: h.redos })

def redo? (h : History) (now : Checkpoint) : Option (Checkpoint × History) :=
  match h.redos with
  | [] => none
  | c :: rest => some (c, { h with undos := now :: h.undos, redos := rest })

/-- A step back and a step forward lead to the present again. -/
theorem redo?_of_undo? {h after : History} (back : h.undo? now = some (c, after)) :
    after.redo? c = some (now, h) := by
  obtain ⟨capacity, undos, redos, run, origin?⟩ := h
  cases undos with
  | nil => cases back
  | cons c rest => cases back; rfl

theorem undo?_of_redo? {h after : History} (forth : h.redo? now = some (c, after)) :
    after.undo? c = some (now, h) := by
  obtain ⟨capacity, undos, redos, run, origin?⟩ := h
  cases redos with
  | nil => cases forth
  | cons c rest => cases forth; rfl

end History

end ModalEdit
