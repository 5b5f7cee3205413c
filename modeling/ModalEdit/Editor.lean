import ModalEdit.History
import ModalEdit.Motion.Resolve

/-! One text under edit: cursor, mode, selection, history, and what motions remember. -/
namespace ModalEdit

inductive Mode where
  | normal
  | insert
  | visual
  | visualLine
deriving DecidableEq, Repr

def Mode.isVisual : Mode → Bool
  | visual | visualLine => true
  | _ => false

inductive Selection.Kind where
  | chars
  | lines
deriving DecidableEq, Repr

structure Selection where
  anchor : Nat
  span : Span
  kind : Selection.Kind
deriving DecidableEq, Repr

/-- The selection between an anchor and a cursor. Characters are selected with both ends, lines
without the last break. -/
def Selection.between (t : Text) (anchor cursor : Nat) (kind : Selection.Kind) : Selection :=
  let lo := min anchor cursor
  let hi := max anchor cursor
  let span := match kind with
    | .chars => Span.between lo (min (hi + 1) t.length)
    | .lines => Span.between (t.lineStart (t.lineOf lo)) (t.lineEnd (t.lineOf hi))
  ⟨anchor, span, kind⟩

def Mode.selects? : Mode → Option Selection.Kind
  | visual => some .chars
  | visualLine => some .lines
  | _ => none

structure Editor where
  text : Text
  cursor : Nat
  history : History
  mode : Mode := .normal
  /-- The end of the selection that stays. -/
  anchor? : Option Nat := none
  selection? : Option Selection := none
  /-- The column that vertical motions keep. -/
  wanted? : Option Wanted := none
  lastFind? : Option Find := none
  /-- Goes up by one with every change of the text. -/
  revision : Nat := 0
deriving DecidableEq, Repr

namespace Editor

def refreshSelection (e : Editor) : Editor :=
  let anchor := min (e.anchor?.getD e.cursor) e.text.length
  { e with selection? := e.mode.selects?.map (Selection.between e.text anchor e.cursor) }

def clearSelection (e : Editor) : Editor := { e with anchor? := none, selection? := none }

/-- Switches to a mode. A selection begins at the cursor and lasts while the mode selects. -/
def setMode (e : Editor) (m : Mode) : Editor :=
  if m.isVisual then
    let kept := if e.mode.isVisual then e.anchor? else none
    { e with mode := m, anchor? := some (kept.getD e.cursor) }.refreshSelection
  else { e with mode := m }.clearSelection

/-- The highest offset for the cursor. Only an insertion can stand behind the last character. -/
def maxCursor (e : Editor) : Nat :=
  if e.mode = .insert then e.text.length else e.text.length - 1

def clampCursor (e : Editor) : Editor := { e with cursor := min e.cursor e.maxCursor }

/-- A text that has just been opened. The cursor is placed before the mode is entered, so that a
selection begins there. -/
def ofText (t : Text) (m : Mode) (cursor undoLevels : Nat) : Editor :=
  let e : Editor := { text := t, cursor, history := .empty undoLevels }
  e.clampCursor.setMode m

/-- Brings the cursor back onto a character, and off a break that ends a line with characters. -/
def settle (e : Editor) : Editor :=
  let e := e.clampCursor
  let i := e.cursor
  if 0 < i ∧ e.text[i]? = some '\n' ∧ e.text[i - 1]? ≠ some '\n' then { e with cursor := i - 1 }
  else e

def checkpoint (e : Editor) : Checkpoint := ⟨e.text, e.cursor⟩

def edit (e : Editor) (t : Text) : Editor := { e with text := t, revision := e.revision + 1 }

def pushCheckpoint (e : Editor) : Editor := { e with history := e.history.push e.checkpoint }

def markOrigin (e : Editor) : Editor := { e with history := e.history.markOrigin e.cursor }

def beginRun (e : Editor) : Editor := { e with history := e.history.beginRun e.checkpoint }

def adoptRun (e : Editor) : Editor := { e with history := e.history.adoptRun }

def noteEdits (e : Editor) (n : Nat) : Editor := { e with history := e.history.noteEdits n }

def endRun (e : Editor) : Editor := { e with history := e.history.endRun }

/-- Takes over a text from outside, as a step of its own in the history. -/
def replaceText (e : Editor) (t : Text) (cursor : Nat) : Editor :=
  let anchor? := if e.mode.isVisual then e.anchor?.map (min · (t.length - 1)) else e.anchor?
  let e := e.endRun.pushCheckpoint.edit t
  { e with cursor := cursor, anchor? := anchor? }.clampCursor.refreshSelection

def removeSpan (e : Editor) (s : Span) : Editor := e.pushCheckpoint.edit (e.text.remove s)

def travel (e : Editor) (arrival : Checkpoint × History) : Editor :=
  { e.edit arrival.1.text with cursor := arrival.1.cursor, history := arrival.2 }

def undo? (e : Editor) : Option Editor := (e.history.undo? e.checkpoint).map e.travel

def redo? (e : Editor) : Option Editor := (e.history.redo? e.checkpoint).map e.travel

end Editor

end ModalEdit
