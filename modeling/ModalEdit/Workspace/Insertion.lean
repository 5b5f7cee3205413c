import ModalEdit.Workspace.Basic

/-! Insertions: how they begin, what is typed in them, and how they end. All that is typed in one
insertion is one step of the history and one change to repeat. -/
namespace ModalEdit.Workspace

/-- Where the insertion starts, given the cursor. An entry that opens a line starts behind the
break that it puts in, or before it. -/
def entryOffset (t : Text) (i : Nat) : InsertEntry → Nat
  | .before => i
  | .after => if t[i]?.any (· != '\n') then i + 1 else i
  | .lineStart => t.firstNonBlank (t.lineOf i)
  | .lineEnd => t.lineEnd (t.lineOf i)
  | .openBelow => t.lineEnd (t.lineOf i) + 1
  | .openAbove => t.lineStart (t.lineOf i)

/-- Opens a line beside the one of the cursor. The checkpoint covers what will be typed on it. -/
def openLine (e : Editor) (entry : InsertEntry) : Editor :=
  let l := e.text.lineOf e.cursor
  let i := if entry = .openBelow then e.text.lineEnd l else e.text.lineStart l
  (e.pushCheckpoint.edit (e.text.insertAt i ['\n'])).adoptRun

def enterInsert (w : Workspace) (entry : InsertEntry) (count : Nat) : Workspace × Outcome :=
  w.inMode .normal <|
    let target := entryOffset w.editor.text w.editor.cursor entry
    let marked := w.editor.markOrigin
    let opened := if entry.opensLine then openLine marked entry else marked
    let e := { opened.setMode .insert with cursor := target, wanted? := none }.clampCursor
    ({ w with editor := e, recorder := w.recorder.start (.insert entry) count },
      if entry.opensLine then .edited else .moved)

def insertText (w : Workspace) (t : Text) : Workspace × Outcome :=
  if t.isEmpty then w.skip
  else
    w.inMode .insert <|
      let i := w.editor.cursor
      let e := (w.editor.beginRun.noteEdits 1).edit (w.editor.text.insertAt i t)
      ({ w with
          editor := { e with cursor := i + t.length, wanted? := none }
          recorder := w.recorder.push t }, .edited)

def backspace (w : Workspace) : Workspace × Outcome :=
  if w.editor.cursor = 0 then w.skip
  else
    w.inMode .insert <|
      let i := w.editor.cursor
      let shorter := w.editor.text.remove (Span.between (i - 1) i)
      let e := (w.editor.beginRun.noteEdits 1).edit shorter
      ({ w with
          editor := { e with cursor := i - 1, wanted? := none }
          recorder := w.recorder.pop }, .edited)

/-- The copies of the typed text that are still to be made, one piece for each, and where they
go. An insertion on an opened line is repeated on lines of their own. -/
def dueCopies (w : Workspace) : Option (Nat × List Text) :=
  match w.recorder.pending?, w.recorder.typed with
  | some ⟨.insert entry, count, _⟩, t@(_ :: _) =>
    if count ≤ 1 then none
    else if entry.opensLine then
      let e := w.editor
      some (e.text.lineEnd (e.text.lineOf e.cursor), List.replicate (count - 1) ('\n' :: t))
    else some (w.editor.cursor, List.replicate (count - 1) t)
  | _, _ => none

/-- Puts in copies at an offset, each of them an edit of the insertion. -/
def insertCopies (e : Editor) (i : Nat) (copies : List Text) : Editor :=
  let noted := e.noteEdits copies.length
  { noted with
    text := e.text.insertAt i copies.flatten
    cursor := i + copies.flatten.length
    revision := e.revision + copies.length }

/-- Ends an insertion: the cursor steps back onto a character of its line. -/
def leaveInsert (w : Workspace) : Workspace × Outcome :=
  w.inMode .insert <|
    let due := w.dueCopies
    let e := due.elim w.editor fun (i, copies) => insertCopies w.editor i copies
    let i := if e.text[e.cursor - 1]? = some '\n' then e.cursor else e.cursor - 1
    let e := { e with cursor := i }.endRun.setMode .normal
    ({ w with
        editor := { e.clampCursor with wanted? := none }
        recorder := w.recorder.finish },
      if due.isSome then .edited else .moved)

end ModalEdit.Workspace
