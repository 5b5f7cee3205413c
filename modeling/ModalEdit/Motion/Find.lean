import ModalEdit.Text.Basic

/-! Search for a character within the line of the cursor. -/
namespace ModalEdit

structure Find where
  char : Char
  forward : Bool
  /-- Stop one character short of the one that is found. -/
  till : Bool
deriving DecidableEq, Repr

def Find.reversed (f : Find) : Find := { f with forward := !f.forward }

namespace Text

/-- The occurrences that a search can reach from `i`, nearest first, leaving out the `skip`
characters next to `i`. -/
def occurrences (t : Text) (f : Find) (i skip : Nat) : List Nat :=
  let l := t.lineOf i
  if f.forward then
    t.offsetsOf (· == f.char) (Span.between (min (i + 1 + skip) (t.lineEnd l)) (t.lineEnd l))
  else
    (t.offsetsOf (· == f.char) (Span.between (min (t.lineStart l) (i - skip)) (i - skip))).reverse

/-- Where the search for the `count`-th occurrence from `i` ends. A repeated search that stops
short skips the character next to the cursor, so that it does not find the same occurrence
again. -/
def find? (t : Text) (f : Find) (i count : Nat) (again : Bool) : Option Nat :=
  let skip := if f.till && again then 1 else 0
  (t.occurrences f i skip)[count - 1]?.map fun hit =>
    if !f.till then hit else if f.forward then hit - 1 else hit + 1

end Text

end ModalEdit
