import ModalEdit.Proofs.Checked.Operating

/-! Edits and insertions. What is replaced is on the line, what is pasted is not empty, and a copy
of what was typed ends where the next one begins. -/
namespace ModalEdit.Checked

open Workspace (copies Placement)

variable {w : Workspace}

/-! ### Replacing and joining -/

/-- There must be room for the characters on the line, and a last one of them. -/
def replaceChar (w : Workspace) (c : Char) (count : Nat) : Option (Workspace × Outcome) :=
  inMode w .normal do
    let t := w.editor.text
    let i := w.editor.cursor
    let n := max count 1
    let l ← lineOf t i
    let stop ← lineEnd t l
    if stop ≤ i then some w.skip
    else
      let room ← sub stop i
      if room < n then some w.skip
      else
        let e ← pushCheckpoint w.editor
        let removed ← remove t (Span.between i (i + n))
        let replaced ← insertAt removed i (if c = '\n' then ['\n'] else List.replicate n c)
        let target ← (if c = '\n' then some (i + 1) else sub (i + n) 1)
        let e := { e.edit replaced with cursor := target }.clampCursor
        return ({ w with editor := e, recorder := w.recorder.record (.replace c) n }, .edited)

/-- A line that is not empty has a last character, which tells whether a space comes behind it. -/
def spaced (t : Text) (start stop next nextStop : Nat) : Option Bool :=
  if start < stop ∧ next < nextStop then do
    let last ← sub stop 1
    return !t[last]?.any isBlank
  else some false

def joinNext (t : Text) (l : Nat) : Option (Text × Nat) := do
  let start ← lineStart t l
  let stop ← lineEnd t l
  let nextStop ← lineEnd t (l + 1)
  let indent := (t.slice (Span.between (stop + 1) nextStop)).takeWhile isBlank
  let next := stop + 1 + indent.length
  let spaced ← spaced t start stop next nextStop
  let joined ← remove t (Span.between stop next)
  let written ← (if spaced then insertAt joined stop [' '] else some joined)
  return (written, if spaced ∨ stop = start then stop else stop - 1)

def joinMany (l : Nat) : (n : Nat) → Editor → Option Editor
  | 0, e => some e
  | n + 1, e =>
    if e.text.lastLine ≤ l then some e
    else do
      let (t, meeting) ← joinNext e.text l
      joinMany l n { e.edit t with cursor := meeting }

def joinLines (w : Workspace) (count : Nat) : Option (Workspace × Outcome) :=
  inMode w .normal do
    let l ← lineOf w.editor.text w.editor.cursor
    if w.editor.text.lastLine ≤ l then some w.skip
    else
      let e ← pushCheckpoint w.editor
      let e ← joinMany l (max (count - 1) 1) e
      return ({ w with
        editor := { e.clampCursor with wanted? := none }
        recorder := w.recorder.record .joinLines count }, .edited)

theorem replaceChar_eq (fits : w.editor.history.Fits) (c : Char) (count : Nat) :
    replaceChar w c count = some (w.replaceChar c count) := by
  rw [replaceChar, Workspace.replaceChar]
  by_cases short : w.editor.text.lineEnd (w.editor.text.lineOf w.editor.cursor) <
      w.editor.cursor + max count 1
  · rw [if_pos short]
    apply inMode_skip
    intro _
    simp only [lineOf_eq, lineEnd_eq, Option.bind_eq_bind, Option.bind_some]
    split
    · rfl
    · rename_i inside
      rw [sub_eq (by omega), Option.bind_some, if_pos (by omega)]
  · rw [if_neg short]
    have some_ : 1 ≤ max count 1 := Nat.le_max_right _ _
    apply inMode_eq
    intro _
    simp only [lineOf_eq, lineEnd_eq, Option.bind_eq_bind, Option.bind_some]
    rw [if_neg (by omega), sub_eq (by omega), Option.bind_some, if_neg (by omega)]
    simp only [pushCheckpoint_eq fits, remove_eq, insertAt_eq, Option.bind_some]
    rw [sub_eq (by omega)]
    split <;> rfl

theorem spaced_eq (t : Text) (l next nextStop : Nat) :
    spaced t (t.lineStart l) (t.lineEnd l) next nextStop =
      some (!t.isEmptyLine l && next < nextStop && !t[t.lineEnd l - 1]?.any isBlank) := by
  cases bare : t.isEmptyLine l with
  | true =>
    have ends : ¬t.lineStart l < t.lineEnd l := by
      rw [lineStart_lt_lineEnd_iff, bare]
      exact Bool.false_ne_true
    simp [spaced, ends]
  | false =>
    have ends : t.lineStart l < t.lineEnd l := by
      rw [lineStart_lt_lineEnd_iff, bare]
      rfl
    rw [spaced, sub_eq (by omega)]
    by_cases more : next < nextStop
    · simp [ends, more]
    · simp [more]

/-- The next line begins behind the break of a line that is not the last one. -/
theorem joinNext_eq {t : Text} (h : l < t.lastLine) :
    joinNext t l = some (Workspace.joinNext t l) := by
  have row := t.slice_line (l + 1)
  have next : t.lineStart (l + 1) + ((t.line (l + 1)).takeWhile isBlank).length =
    t.firstNonBlank (l + 1) := rfl
  rw [Text.lineStart_succ h] at row next
  have bare : t.lineEnd l = t.lineStart l ↔ t.isEmptyLine l = true := by
    rw [Text.isEmptyLine_iff, Text.lineEnd, Nat.add_eq_left]
  simp only [joinNext, lineStart_eq, lineEnd_eq, row, next, spaced_eq, bare, remove_eq, insertAt_eq,
    Option.bind_eq_bind, Option.bind_some, Workspace.joinNext]
  generalize (!t.isEmptyLine l && decide (t.firstNonBlank (l + 1) < t.lineEnd (l + 1)) &&
    !t[t.lineEnd l - 1]?.any isBlank) = space
  cases space with
  | true => simp
  | false => simp

theorem joinMany_eq (l n : Nat) (e : Editor) :
    joinMany l n e = some (Workspace.joinMany l n e) := by
  induction n generalizing e with
  | zero => rfl
  | succ n ih =>
    rw [joinMany, Workspace.joinMany]
    split
    · rfl
    · rename_i more
      rw [joinNext_eq (Nat.lt_of_not_le more), Option.bind_eq_bind, Option.bind_some]
      exact ih _

theorem joinLines_eq (fits : w.editor.history.Fits) (count : Nat) :
    joinLines w count = some (w.joinLines count) := by
  rw [joinLines, Workspace.joinLines]
  split
  · rename_i last
    apply inMode_skip
    intro _
    simp only [lineOf_eq, last, Option.bind_eq_bind, Option.bind_some, if_true]
  · rename_i more
    apply inMode_eq
    intro _
    simp only [lineOf_eq, more, pushCheckpoint_eq fits, joinMany_eq, Option.bind_eq_bind,
      Option.bind_some]
    rfl

/-! ### Pasting -/

/-- What is written must have a last character for the cursor. -/
def placement (t : Text) (i : Nat) (before : Bool) (count : Nat) (r : Register) :
    Option Placement := do
  let all := copies count r.content
  if r.linewise then
    let l ← lineOf t i
    if before then
      let start ← lineStart t l
      return ⟨start, all, start⟩
    else if l < t.lastLine then
      let start ← lineStart t (l + 1)
      return ⟨start, all, start⟩
    else
      let body := if all.endsInBreak then all.dropLast else all
      return ⟨t.length, '\n' :: body, t.length + 1⟩
  else
    let offset := if !before && t[i]?.any (· != '\n') then i + 1 else i
    let landing ← sub (offset + all.length) 1
    return ⟨offset, all, landing⟩

def paste (w : Workspace) (before : Bool) (count : Nat) (name? : Option RegisterName) :
    Option (Workspace × Outcome) :=
  inMode w .normal do
    let (registers, r?) ← read w.registers name?
    let w := { w with registers }
    match r?.filter (!·.content.isEmpty) with
    | none => some w.skip
    | some r =>
      let n := max count 1
      let p ← placement w.editor.text w.editor.cursor before n r
      let e ← pushCheckpoint w.editor
      let t ← insertAt w.editor.text p.offset p.written
      return ({ w with
        editor := { e.edit t with cursor := p.landing, wanted? := none }.clampCursor
        recorder := w.recorder.record (.paste before name?) n }, .edited)

theorem placement_eq {r : Register} (t : Text) (i : Nat) (before : Bool) (some_ : 0 < count)
    (filled : r.content ≠ []) :
    placement t i before count r = some (Workspace.placement t i before count r) := by
  have all : 0 < (copies count r.content).length := by
    obtain ⟨n, rfl⟩ := Nat.exists_eq_add_of_lt some_
    have first := List.length_pos_iff.mpr filled
    simp only [copies, Nat.zero_add, List.replicate_succ, List.flatten_cons, List.length_append]
    omega
  simp only [placement, lineOf_eq, lineStart_eq, Option.bind_eq_bind, Option.bind_some,
    Workspace.placement]
  split
  · split
    · rfl
    · split <;> rfl
  · rw [sub_eq (by omega)]
    rfl

theorem paste_eq (fits : w.editor.history.Fits) (before : Bool) (count : Nat)
    (name? : Option RegisterName) :
    paste w before count name? = some (w.paste before count name?) := by
  apply inMode_eq
  intro _
  simp only [read_eq, Option.bind_eq_bind, Option.bind_some]
  cases found : (w.registers.read name?).2.filter (!·.content.isEmpty) with
  | none => rfl
  | some r =>
    have filled : r.content ≠ [] := by simpa using (Option.filter_eq_some_iff.mp found).2
    have some_ : 0 < max count 1 := Nat.lt_of_lt_of_le Nat.one_pos (Nat.le_max_right _ _)
    simp only [placement_eq _ _ _ some_ filled, pushCheckpoint_eq fits, insertAt_eq,
      Option.bind_some]
    rfl

/-! ### Insertions -/

def entryOffset (t : Text) (i : Nat) (entry : InsertEntry) : Option Nat := do
  let l ← lineOf t i
  match entry with
  | .before => return i
  | .after => return if t[i]?.any (· != '\n') then i + 1 else i
  | .lineStart => firstNonBlank t l
  | .lineEnd => lineEnd t l
  | .openBelow => return (← lineEnd t l) + 1
  | .openAbove => lineStart t l

def openLine (e : Editor) (entry : InsertEntry) : Option Editor := do
  let l ← lineOf e.text e.cursor
  let i ← (if entry = .openBelow then lineEnd e.text l else lineStart e.text l)
  let pushed ← pushCheckpoint e
  let t ← insertAt e.text i ['\n']
  return (pushed.edit t).adoptRun

def enterInsert (w : Workspace) (entry : InsertEntry) (count : Nat) :
    Option (Workspace × Outcome) :=
  inMode w .normal do
    let target ← entryOffset w.editor.text w.editor.cursor entry
    let marked := w.editor.markOrigin
    let opened ← (if entry.opensLine then openLine marked entry else some marked)
    let e ← setMode opened .insert
    let e := { e with cursor := target, wanted? := none }.clampCursor
    return ({ w with editor := e, recorder := w.recorder.start (.insert entry) count },
      if entry.opensLine then .edited else .moved)

def insertText (w : Workspace) (t : Text) : Option (Workspace × Outcome) :=
  if t.isEmpty then some w.skip
  else
    inMode w .insert do
      let i := w.editor.cursor
      let history ← beginRun w.editor.history w.editor.checkpoint
      let e := { w.editor with history }.noteEdits 1
      let longer ← insertAt w.editor.text i t
      return ({ w with
        editor := { e.edit longer with cursor := i + t.length, wanted? := none }
        recorder := w.recorder.push t }, .edited)

/-- There must be a character ahead of the cursor. -/
def backspace (w : Workspace) : Option (Workspace × Outcome) :=
  if w.editor.cursor = 0 then some w.skip
  else
    inMode w .insert do
      let i := w.editor.cursor
      let before ← sub i 1
      let history ← beginRun w.editor.history w.editor.checkpoint
      let e := { w.editor with history }.noteEdits 1
      let shorter ← remove w.editor.text (Span.between before i)
      return ({ w with
        editor := { e.edit shorter with cursor := before, wanted? := none }
        recorder := w.recorder.pop }, .edited)

/-- One more copy of what was typed, at the cursor or on a line of its own. -/
def insertCopy (opensLine : Bool) (t : Text) (e : Editor) : Option Editor := do
  let l ← lineOf e.text e.cursor
  let i ← (if opensLine then lineEnd e.text l else some e.cursor)
  let piece := if opensLine then '\n' :: t else t
  let longer ← insertAt e.text i piece
  return { (e.noteEdits 1).edit longer with cursor := i + piece.length }

def insertCopies (opensLine : Bool) (t : Text) : (n : Nat) → Editor → Option Editor
  | 0, e => some e
  | n + 1, e => do
    let e ← insertCopy opensLine t e
    insertCopies opensLine t n e

/-- The copies that the count of the insertion asks for. -/
def copyTyped (w : Workspace) : Option Editor :=
  match w.recorder.pending?, w.recorder.typed with
  | some ⟨.insert entry, count, _⟩, t@(_ :: _) => insertCopies entry.opensLine t (count - 1) w.editor
  | _, _ => some w.editor

def leaveInsert (w : Workspace) : Option (Workspace × Outcome) :=
  inMode w .insert do
    let e ← copyTyped w
    let e ← stepBack e
    let e ← setMode e.endRun .normal
    return ({ w with
      editor := { e.clampCursor with wanted? := none }
      recorder := w.recorder.finish }, if w.dueCopies.isSome then .edited else .moved)
where
  stepBack (e : Editor) : Option Editor :=
    if e.cursor = 0 then some e
    else do
      let before ← sub e.cursor 1
      return { e with cursor := if e.text[before]? = some '\n' then e.cursor else before }

theorem entryOffset_eq (t : Text) (i : Nat) (entry : InsertEntry) :
    entryOffset t i entry = some (Workspace.entryOffset t i entry) := by
  cases entry <;>
    simp only [entryOffset, lineOf_eq, firstNonBlank_eq, lineEnd_eq, lineStart_eq,
      Option.bind_eq_bind, Option.bind_some] <;> rfl

theorem openLine_eq {e : Editor} (fits : e.history.Fits) (entry : InsertEntry) :
    openLine e entry = some (Workspace.openLine e entry) := by
  simp only [openLine, lineOf_eq, lineEnd_eq, lineStart_eq, pushCheckpoint_eq fits, insertAt_eq,
    Option.bind_eq_bind, Option.bind_some, Workspace.openLine]
  split <;> rfl

theorem enterInsert_eq (fits : w.editor.history.Fits) (entry : InsertEntry) (count : Nat) :
    enterInsert w entry count = some (w.enterInsert entry count) := by
  have marked : w.editor.markOrigin.history.Fits := fits.markOrigin _
  apply inMode_eq
  intro _
  simp only [entryOffset_eq, openLine_eq marked, setMode_eq, Option.bind_eq_bind, Option.bind_some]
  split <;> rfl

theorem insertText_eq (fits : w.editor.history.Fits) (t : Text) :
    insertText w t = some (w.insertText t) := by
  rw [insertText, Workspace.insertText]
  split
  · rfl
  · apply inMode_eq
    intro _
    simp only [beginRun_eq fits, insertAt_eq, Option.bind_eq_bind, Option.bind_some]
    rfl

theorem backspace_eq (fits : w.editor.history.Fits) : backspace w = some w.backspace := by
  rw [backspace, Workspace.backspace]
  split
  · rfl
  · rename_i later
    have ahead : 1 ≤ w.editor.cursor := Nat.pos_of_ne_zero later
    apply inMode_eq
    intro _
    simp only [sub_eq ahead, beginRun_eq fits, remove_eq, Option.bind_eq_bind, Option.bind_some]
    rfl

/-! ### Copies -/

/-- Where the next copy goes. -/
def copyOffset (opensLine : Bool) (e : Editor) : Nat :=
  if opensLine then e.text.lineEnd (e.text.lineOf e.cursor) else e.cursor

theorem copyOffset_le {e : Editor} (inside : e.cursor ≤ e.text.length) (opensLine : Bool) :
    copyOffset opensLine e ≤ e.text.length := by
  rw [copyOffset]
  split
  · exact e.text.lineEnd_le_length _
  · exact inside

theorem noteEdits_add (h : History) (m n : Nat) : (h.noteEdits m).noteEdits n = h.noteEdits (m + n) := by
  cases run : h.run with
  | inactive => simp [History.noteEdits, run]
  | active edits => simp [History.noteEdits, run, Nat.add_assoc]

/-- The first copy and the others make all of them. -/
theorem insertCopies_cons {e : Editor} (inside : i ≤ e.text.length) (piece : Text)
    (pieces : List Text) :
    Workspace.insertCopies (Workspace.insertCopies e i [piece]) (i + piece.length) pieces =
      Workspace.insertCopies e i (piece :: pieces) := by
  have one : [piece].length = 1 := rfl
  have text := Text.insertAt_insertAt inside piece pieces.flatten
  have edits := noteEdits_add e.history 1 pieces.length
  rw [Nat.add_comm] at edits
  simp only [Workspace.insertCopies, Editor.noteEdits, List.flatten_singleton, one, text, edits]
  simp only [List.flatten_cons, List.length_append, List.length_cons, Nat.add_assoc,
    Nat.add_comm 1]

theorem insertCopy_eq (opensLine : Bool) (t : Text) (e : Editor) :
    insertCopy opensLine t e = some (Workspace.insertCopies e (copyOffset opensLine e)
      [if opensLine then '\n' :: t else t]) := by
  simp only [insertCopy, lineOf_eq, lineEnd_eq, insertAt_eq, Option.bind_eq_bind, Option.bind_some]
  cases opensLine with
  | true => simp [copyOffset, Workspace.insertCopies, Editor.noteEdits, Editor.edit]
  | false => simp [copyOffset, Workspace.insertCopies, Editor.noteEdits, Editor.edit]

/-- Behind a copy that begins a line of its own is the break, or the end of the text, that was
behind the place of the copy. -/
theorem copyOffset_insertCopies (opensLine : Bool) (e : Editor) (piece : Text) :
    copyOffset opensLine (Workspace.insertCopies e (copyOffset opensLine e) [piece]) =
      copyOffset opensLine e + piece.length := by
  cases opensLine with
  | false => simp [copyOffset, Workspace.insertCopies]
  | true =>
    simp only [copyOffset, if_true, Workspace.insertCopies, List.flatten_singleton]
    have stop := e.text.lineEnd_le_length (e.text.lineOf e.cursor)
    refine Text.lineEnd_lineOf_eq ?_ ?_
    · rw [Text.length_insertAt]
      exact Nat.add_le_add_right stop _
    · rw [Text.drop_insertAt stop]
      exact e.text.drop_lineEnd_boundary _ (e.text.lineOf_le_lastLine _)

theorem insertCopies_eq {e : Editor} (inside : e.cursor ≤ e.text.length) (opensLine : Bool)
    (t : Text) (n : Nat) :
    insertCopies opensLine t (n + 1) e = some (Workspace.insertCopies e (copyOffset opensLine e)
      (List.replicate (n + 1) (if opensLine then '\n' :: t else t))) := by
  induction n generalizing e with
  | zero => rw [insertCopies, insertCopy_eq]; rfl
  | succ n ih =>
    rw [insertCopies, insertCopy_eq, Option.bind_eq_bind, Option.bind_some, ih,
      copyOffset_insertCopies, insertCopies_cons (copyOffset_le inside opensLine),
      ← List.replicate_succ]
    rw [Workspace.insertCopies, Text.length_insertAt]
    have offset := copyOffset_le inside opensLine
    simp only [List.flatten_singleton]
    omega

theorem copyTyped_eq (inside : w.editor.cursor ≤ w.editor.text.length) :
    copyTyped w =
      some (w.dueCopies.elim w.editor fun (i, copies) => Workspace.insertCopies w.editor i copies) := by
  cases pending : w.recorder.pending? with
  | none => simp [copyTyped, Workspace.dueCopies, pending]
  | some change =>
    obtain ⟨edit, count, _⟩ := change
    cases edit with
    | insert entry =>
      cases typed : w.recorder.typed with
      | nil => simp [copyTyped, Workspace.dueCopies, pending, typed]
      | cons c t =>
        simp only [copyTyped, Workspace.dueCopies, pending, typed]
        split
        · rename_i once
          rw [Nat.sub_eq_zero_of_le once]
          rfl
        · rename_i more
          have number : count - 2 + 1 = count - 1 := by omega
          have copied := insertCopies_eq inside entry.opensLine (c :: t) (count - 2)
          rw [number] at copied
          rw [copied]
          cases entry.opensLine <;> rfl
    | _ => simp [copyTyped, Workspace.dueCopies, pending]

theorem leaveInsert_eq (inside : w.editor.cursor ≤ w.editor.text.length) :
    leaveInsert w = some w.leaveInsert := by
  have back (e : Editor) : leaveInsert.stepBack e = some { e with
      cursor := if e.text[e.cursor - 1]? = some '\n' then e.cursor else e.cursor - 1 } := by
    rw [leaveInsert.stepBack]
    split
    · rename_i front
      obtain ⟨_, cursor, _⟩ := e
      obtain rfl : cursor = 0 := front
      simp
    · rename_i later
      rw [sub_eq (Nat.pos_of_ne_zero later)]
      rfl
  apply inMode_eq
  intro _
  simp only [copyTyped_eq inside, back, setMode_eq, Option.bind_eq_bind, Option.bind_some]
  rfl

end ModalEdit.Checked
