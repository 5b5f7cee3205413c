import ModalEdit.Text.Class

/-! Paragraph motions, and the first visible character of a line. A paragraph is a run of lines
that are not empty; the motions pass the empty lines at the cursor, then a paragraph, and stop at
the empty line beyond it. -/
namespace ModalEdit.Text

/-- Drops a run of empty lines, then a run of lines that are not empty. -/
def dropParagraph (ls : List Text) : List Text :=
  (ls.dropWhile (·.isEmpty)).dropWhile (!·.isEmpty)

/-- The start of the empty line after the next paragraph, or the end of the text. -/
def paragraphForward (t : Text) (i : Nat) : Nat :=
  match dropParagraph (t.lines.drop (t.lineOf i)) with
  | [] => t.length
  | ls => t.lineStart (t.lineCount - ls.length)

/-- The start of the empty line before the previous paragraph, or the front of the text. -/
def paragraphBackward (t : Text) (i : Nat) : Nat :=
  match dropParagraph (t.lines.take (t.lineOf i + 1)).reverse with
  | [] => 0
  | ls => t.lineStart (ls.length - 1)

/-- The first character of line `l` that is no blank, or the end of its content. -/
def firstNonBlank (t : Text) (l : Nat) : Nat :=
  t.lineStart l + ((t.line l).takeWhile isBlank).length

/-- Where a cursor that has to stay on a character comes to rest on line `l`: as above, but on
the last character of a line of blanks. -/
def restOnLine (t : Text) (l : Nat) : Nat :=
  let i := t.firstNonBlank l
  if i = t.lineEnd l ∧ !t.isEmptyLine l then i - 1 else i

end ModalEdit.Text
