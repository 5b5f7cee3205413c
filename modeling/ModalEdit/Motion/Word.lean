import ModalEdit.Text.Class

/-! Word motions. A motion forward looks only at what follows the cursor, and one backward only
at what precedes it, read in reverse; each maps that part to a later or earlier one, and the
offset is read off the length that is left.

Forward motions may end one past the last character, so that an operator can reach the end of
the text. -/
namespace ModalEdit.Text

def inClass (style : WordStyle) (k : CharClass) (c : Char) : Bool := CharClass.of style c = k

/-- Drops white space up to the next word. A break that is followed by another one starts an
empty line, which counts as a word. -/
def dropGap : Text → Text
  | [] => []
  | c :: rest =>
    if c = '\n' ∧ rest.head? = some '\n' then rest
    else if isWhiteSpace c then dropGap rest
    else c :: rest

/-- Drops the run of one class at the front, unless it is white space. -/
def dropWord (style : WordStyle) : Text → Text
  | [] => []
  | c :: rest =>
    if isWhiteSpace c then c :: rest
    else rest.dropWhile (inClass style (CharClass.of style c))

/-- The start of the next word or empty line after `i`, or the end of the text. -/
def wordForward (t : Text) (style : WordStyle) (i : Nat) : Nat :=
  t.length - (dropGap (dropWord style (t.drop i))).length

/-- The start of the last word or empty line of a text given in reverse, or its front. -/
def lastWordStart (style : WordStyle) : Text → Nat
  | [] => 0
  | c :: before =>
    if isWhiteSpace c then
      if c = '\n' ∧ (before = [] ∨ before.head? = some '\n') then before.length
      else lastWordStart style before
    else (before.dropWhile (inClass style (CharClass.of style c))).length

/-- The start of the word or empty line before `i`, or the front of the text. -/
def wordBackward (t : Text) (style : WordStyle) (i : Nat) : Nat :=
  lastWordStart style (t.take i).reverse

/-- The same from any offset. A walk back begins on the character before `i`, or on the last one if `i` is
behind the end; away from the front of a text without characters there is none to begin on. -/
def wordBackward? (t : Text) (style : WordStyle) (i : Nat) : Option Nat :=
  if t = [] ∧ 0 < i then none else some (t.wordBackward style i)

/-- The end of the next word after `i`, or the last character. -/
def wordEnd (t : Text) (style : WordStyle) (i : Nat) : Nat :=
  match (t.drop (i + 1)).dropWhile isWhiteSpace with
  | [] => t.length - 1
  | c :: rest => t.length - (rest.dropWhile (inClass style (CharClass.of style c))).length - 1

/-- The end of the word before the one at `i`, or the front of the text. -/
def wordEndBackward (t : Text) (style : WordStyle) (i : Nat) : Nat :=
  match (t.take (i + 1)).reverse with
  | [] => 0
  | c :: before =>
    let gap := if isWhiteSpace c then before
      else before.dropWhile (inClass style (CharClass.of style c))
    (gap.dropWhile isWhiteSpace).length - 1

end ModalEdit.Text
