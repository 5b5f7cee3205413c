import ModalEdit.Workspace.Basic

/-! Edits that are complete at once: replacing characters, joining lines, pasting a register, and
walking through the history. Each of the first three is one step of the history and one change to
repeat. -/
namespace ModalEdit.Workspace

/-- Replaces `count` characters from the cursor on, if the line has as many. A break takes the
place of all of them together. -/
def replaceChar (w : Workspace) (c : Char) (count : Nat) : Workspace × Outcome :=
  let t := w.editor.text
  let i := w.editor.cursor
  let n := max count 1
  if t.lineEnd (t.lineOf i) < i + n then w.skip
  else
    w.inMode .normal <|
      let written := if c = '\n' then ['\n'] else List.replicate n c
      let replaced := (t.remove (Span.between i (i + n))).insertAt i written
      let e := w.editor.pushCheckpoint.edit replaced
      let target := if c = '\n' then i + 1 else i + n - 1
      ({ w with
          editor := { e with cursor := target }.clampCursor
          recorder := w.recorder.record (.replace c) n }, .edited)

/-- Line `l` with the next one joined to it, and the place where they meet. The indentation of
the next line goes, and a space comes between two parts that are not empty, unless the first ends
in a blank. -/
def joinNext (t : Text) (l : Nat) : Text × Nat :=
  let stop := t.lineEnd l
  let next := t.firstNonBlank (l + 1)
  let joined := t.remove (Span.between stop next)
  let spaced := !t.isEmptyLine l && next < t.lineEnd (l + 1) && !t[stop - 1]?.any isBlank
  if spaced then (joined.insertAt stop [' '], stop)
  else (joined, if t.isEmptyLine l then stop else stop - 1)

/-- Joins up to `n` lines to line `l` and moves the cursor to where the last two meet. -/
def joinMany (l : Nat) : (n : Nat) → Editor → Editor
  | 0, e => e
  | n + 1, e =>
    if e.text.lastLine ≤ l then e
    else
      let (t, meeting) := joinNext e.text l
      joinMany l n { e.edit t with cursor := meeting }

/-- Joins `count` lines into one, but at least two. -/
def joinLines (w : Workspace) (count : Nat) : Workspace × Outcome :=
  let t := w.editor.text
  let l := t.lineOf w.editor.cursor
  if t.lastLine ≤ l then w.skip
  else
    w.inMode .normal <|
      let e := joinMany l (max (count - 1) 1) w.editor.pushCheckpoint
      ({ w with
          editor := { e.clampCursor with wanted? := none }
          recorder := w.recorder.record .joinLines count }, .edited)

def copies (n : Nat) (t : Text) : Text := (List.replicate n t).flatten

structure Placement where
  offset : Nat
  written : Text
  landing : Nat
deriving DecidableEq, Repr

/-- Lines go before or after the line of the cursor, and the cursor to the first of them. After a
last line without a break the break comes first. Characters go before or after the one under the
cursor, but not behind a break, and the cursor to the last of them. -/
def placement (t : Text) (i : Nat) (before : Bool) (count : Nat) (r : Register) : Placement :=
  let all := copies count r.content
  let l := t.lineOf i
  if r.linewise then
    if before then ⟨t.lineStart l, all, t.lineStart l⟩
    else if l < t.lastLine then ⟨t.lineStart (l + 1), all, t.lineStart (l + 1)⟩
    else
      let body := if all.endsInBreak then all.dropLast else all
      ⟨t.length, '\n' :: body, t.length + 1⟩
  else
    let offset := if !before && t[i]?.any (· != '\n') then i + 1 else i
    ⟨offset, all, offset + all.length - 1⟩

/-- Pastes a register `count` times. An empty register is not pasted. -/
def paste (w : Workspace) (before : Bool) (count : Nat) (name? : Option RegisterName) :
    Workspace × Outcome :=
  w.inMode .normal <|
    let (registers, r?) := w.registers.read name?
    let w := { w with registers }
    match r?.filter (!·.content.isEmpty) with
    | none => w.skip
    | some r =>
      let n := max count 1
      let p := placement w.editor.text w.editor.cursor before n r
      let e := w.editor.pushCheckpoint.edit (w.editor.text.insertAt p.offset p.written)
      ({ w with
          editor := { e with cursor := p.landing, wanted? := none }.clampCursor
          recorder := w.recorder.record (.paste before name?) n }, .edited)

def travelMany (step : Editor → Option Editor) : (n : Nat) → Editor → Editor
  | 0, e => e
  | n + 1, e =>
    match step e with
    | some e => travelMany step n e
    | none => e

def travel (w : Workspace) (step : Editor → Option Editor) (count : Nat) : Workspace × Outcome :=
  w.inMode .normal <|
    match step w.editor with
    | none => w.skip
    | some e =>
      let e := travelMany step (count - 1) e
      ({ w with editor := { e.clampCursor with wanted? := none } }, .edited)

end ModalEdit.Workspace
