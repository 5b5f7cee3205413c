import ModalEdit.Motion.Pair
import ModalEdit.Motion.Word

/-! Text objects: a quoted stretch, a bracketed stretch, or a word, found around the cursor.

Quotes pair up from the start of the line, so the number of quotes before the cursor tells
whether it stands inside a pair. Brackets pair over the whole text, and a count picks a pair
further out. A word is a run of one class within its line. -/
namespace ModalEdit

inductive TextObject.Kind where
  | quote (c : Char)
  | bracket (b : Bracket)
  | word (style : WordStyle)
deriving DecidableEq, Repr

structure TextObject where
  kind : TextObject.Kind
  /-- Leave out the delimiters, or the blanks beside a word. -/
  inner : Bool
deriving DecidableEq, Repr

namespace Text

/-- The pair of quotes on the line of `i` that `i` is inside of or upon. -/
def quotePair (t : Text) (q : Char) (i : Nat) : Option (Nat × Nat) :=
  let l := t.lineOf i
  let quotes := t.offsetsOf (· == q) (Span.between (t.lineStart l) (t.lineEnd l))
  let before := quotes.filter (· < i)
  let after := quotes.filter (i ≤ ·)
  if before.length % 2 = 1 then before.getLast?.bind fun o => after.head?.map (o, ·)
  else
    match after with
    | o :: c :: _ => if o = i then some (o, c) else none
    | _ => none

/-- The opener that lies `n` pairs further out than the one at `o`. -/
def outerOpener (t : Text) (b : Bracket) : (n o : Nat) → Option Nat
  | 0, o => some o
  | n + 1, o => (t.findOpener b o).bind (outerOpener t b n)

/-- The `count`-th pair of brackets around `i`, from the inside. -/
def bracketPair (t : Text) (b : Bracket) (i count : Nat) : Option (Nat × Nat) := do
  let innermost ← if t[i]? = some b.opener then some i else t.findOpener b i
  let o ← t.outerOpener b (count - 1) innermost
  let c ← t.findCloser b (o + 1)
  return (o, c)

def runLength (style : WordStyle) (t : Text) : Nat :=
  match t with
  | [] => 0
  | c :: _ => (t.takeWhile (inClass style (CharClass.of style c))).length

/-- The start of the run of one class that holds column `k`. -/
def runStart (row : Text) (style : WordStyle) (k : Nat) : Nat :=
  k + 1 - runLength style (row.take (k + 1)).reverse

def runStop (row : Text) (style : WordStyle) (k : Nat) : Nat := k + runLength style (row.drop k)

/-- The columns of the word object at column `k` of a line that holds it. Around white space
the object takes the word that follows; around a word it takes the white space that follows, or
else that which precedes. -/
def wordColumns (row : Text) (style : WordStyle) (k : Nat) (inner : Bool) : Nat × Nat :=
  let start := row.runStart style k
  let stop := row.runStop style k
  if inner then (start, stop)
  else if row[k]?.any isWhiteSpace || row[stop]?.any isWhiteSpace then
    (start, row.runStop style stop)
  else (start - ((row.take start).reverse.takeWhile isWhiteSpace).length, stop)

/-- The word object at `i`. A cursor on the break stands for the last character of the line. -/
def wordSpan? (t : Text) (style : WordStyle) (i : Nat) (inner : Bool) : Option Span :=
  let l := t.lineOf i
  let row := t.line l
  if row.isEmpty then none
  else
    let columns := row.wordColumns style (min (t.column i) (row.length - 1)) inner
    some (Span.between (t.lineStart l + columns.1) (t.lineStart l + columns.2))

end Text

namespace TextObject

/-- The range of an object between two delimiters. -/
def delimited (inner : Bool) (pair : Nat × Nat) : Span :=
  if inner then Span.between (pair.1 + 1) pair.2 else Span.between pair.1 (pair.2 + 1)

def resolve (o : TextObject) (t : Text) (i count : Nat) : Option Span :=
  if t.length ≤ i then none
  else
    match o.kind with
    | .quote q => (t.quotePair q i).map (delimited o.inner)
    | .bracket b => (t.bracketPair b i count).map (delimited o.inner)
    | .word style => t.wordSpan? style i o.inner

end TextObject

end ModalEdit
