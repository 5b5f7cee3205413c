import ModalEdit.Extent
import ModalEdit.Workspace.Basic

/-! Operators: what they act on, and what they do to it. A deletion takes the lines themselves, a
change leaves an empty one to type on, and a yank leaves the text alone. -/
namespace ModalEdit.Workspace

/-- A search becomes the one that can be repeated, found or not. -/
def rememberFind (e : Editor) : Motion → Editor
  | .find f => { e with lastFind? := some f }
  | _ => e

def targetExtent? (e : Editor) (target : Target) (count : Nat) : Option Extent :=
  match target with
  | .lines => some (Extent.counted e.text e.cursor count)
  | .motion m =>
    (m.resolve e.text e.cursor count (.operator e.text e.wanted? e.lastFind?)).map
      (Extent.ofLanding e.text e.cursor)
  | .object o => (o.resolve e.text e.cursor count).map Extent.charwise

/-- Yanks an extent. There is nothing to yank from an empty one that is not a line. -/
def yank (w : Workspace) (x : Extent) (register : Option RegisterName) : Workspace × Outcome :=
  if x.span.isEmpty && !x.linewise then w.skip
  else
    ({ w with
        editor := w.editor.clampCursor
        registers := w.registers.write (w.editor.text.slice x.span) x.linewise register },
      .unchanged)

/-- Where the cursor goes after a deletion that began at offset `i`. -/
def deletionLanding (t : Text) (i : Nat) (linewise : Bool) : Nat :=
  if linewise then t.restOnLine (t.lineOf i) else i

def delete (w : Workspace) (x : Extent) (register : Option RegisterName) : Workspace × Outcome :=
  let t := w.editor.text
  let removal := x.removal t
  if removal.isEmpty then w.skip
  else
    let e := w.editor.removeSpan removal
    let e := { e with cursor := deletionLanding e.text x.span.start x.linewise }.settle
    ({ w with
        editor := { e with wanted? := none }
        registers := w.registers.write (t.slice x.span) x.linewise register },
      .edited)

/-- Deletes what an extent covers, if anything, and begins an insertion in its place. -/
def change (w : Workspace) (x : Extent) (register : Option RegisterName) : Workspace × Outcome :=
  let marked := w.editor.markOrigin
  let begin (e : Editor) : Editor :=
    { { e.setMode .insert with cursor := x.span.start }.clampCursor with wanted? := none }
  if x.span.isEmpty then ({ w with editor := begin marked }, .moved)
  else
    ({ w with
        editor := (begin (marked.removeSpan x.span)).adoptRun
        registers := w.registers.write (w.editor.text.slice x.span) x.linewise register },
      .edited)

def operateOn (w : Workspace) (op : Operator) (x : Extent) (register : Option RegisterName) :
    Workspace × Outcome :=
  match op with
  | .yank => w.yank x register
  | .delete => w.delete x register
  | .change => w.change x register

/-- A search that an operator is given becomes the one that can be repeated. -/
def aim (w : Workspace) : Target → Workspace
  | .motion m => { w with editor := rememberFind w.editor m }
  | _ => w

/-- Applies an operator to a target. A target that is not there changes nothing. -/
def operate (w : Workspace) (op : Operator) (target : Target) (count : Nat)
    (register : Option RegisterName) : Workspace × Outcome :=
  w.inMode .normal <|
    let w := w.aim target
    match targetExtent? w.editor target count with
    | none => w.skip
    | some x =>
      let (w, outcome) := w.operateOn op x register
      let edit := Edit.operate op target register
      match op with
      | .delete =>
        if outcome.textChanged then
          ({ w with recorder := w.recorder.record edit count }, outcome)
        else (w, outcome)
      | .change => ({ w with recorder := w.recorder.start edit count }, outcome)
      | .yank => (w, outcome)

/-- Applies an operator to the selection, which it gives up. The cursor goes to the start of the
selection, except for a change or deletion of lines. -/
def operateSelection (w : Workspace) (op : Operator) (register : Option RegisterName) :
    Workspace × Outcome :=
  match w.editor.selection? with
  | none => w.skip
  | some s =>
    if w.editor.mode.isVisual then
      let x : Extent := ⟨s.span, s.kind = .lines⟩
      let e := w.editor.setMode .normal
      let start := if op = .yank ∨ !x.linewise then x.span.start else e.cursor
      let (w, outcome) := { w with editor := { e with cursor := start } }.operateOn op x register
      (w, outcome.merge .moved)
    else w.skip

end ModalEdit.Workspace
