import ModalEdit.Workspace.Operating

/-! Moving the cursor, and choosing what is selected. -/
namespace ModalEdit.Workspace

def cursorContext (e : Editor) : Motion.Context where
  purpose := if e.mode = .insert then .insertion else .cursor
  limit := e.maxCursor
  wanted := e.wanted?
  lastFind := e.lastFind?

/-- Moves the cursor. A motion without a landing leaves it where it is. Once the cursor has moved
within an insertion, only what is typed from there on can be repeated. -/
def move (w : Workspace) (m : Motion) (count : Nat) : Workspace × Outcome :=
  let e := rememberFind w.editor m
  match m.resolve e.text e.cursor count (cursorContext e) with
  | none => ({ w with editor := e }, .unchanged)
  | some landing =>
    let stays := landing.target = e.cursor
    let moved := { e with cursor := landing.target, wanted? := landing.wanted }
    let recorder := if e.mode = .insert ∧ !stays then w.recorder.reset else w.recorder
    ({ w with
        editor := if e.mode.isVisual then moved.refreshSelection else moved
        recorder },
      if stays then .unchanged else .moved)

/-- Selects a text object, unless there is none or it is empty. A selection of lines becomes one
of characters. -/
def selectObject (w : Workspace) (o : TextObject) (count : Nat) : Workspace × Outcome :=
  if w.editor.mode.isVisual then
    match (o.resolve w.editor.text w.editor.cursor count).filter (!·.isEmpty) with
    | none => w.skip
    | some s =>
      let e := { w.editor with anchor? := some s.start, cursor := s.stop - 1, wanted? := none }
      ({ w with editor := e.setMode .visual }, .moved)
  else w.skip

def swapAnchor (w : Workspace) : Workspace × Outcome :=
  match w.editor.anchor? with
  | none => w.skip
  | some anchor =>
    let e := w.editor
    let e := { e with
      anchor? := some e.cursor
      cursor := min anchor e.maxCursor
      wanted? := none }
    ({ w with editor := e.refreshSelection }, .moved)

/-- Begins a selection, or goes on with one of another kind. -/
def startVisual (w : Workspace) (m : Mode) : Workspace × Outcome :=
  if w.editor.mode = m ∨ w.editor.mode = .insert then w.skip
  else ({ w with editor := w.editor.setMode m }, .moved)

def leaveVisual (w : Workspace) : Workspace × Outcome :=
  if w.editor.mode.isVisual then
    ({ w with editor := (w.editor.setMode .normal).clampCursor }, .moved)
  else w.skip

end ModalEdit.Workspace
