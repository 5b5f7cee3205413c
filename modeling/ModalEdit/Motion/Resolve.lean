import ModalEdit.Motion.Basic
import ModalEdit.Motion.Pair
import ModalEdit.Motion.Paragraph
import ModalEdit.Motion.Word

/-! Resolution of a motion with a count. A motion that finds no place to go (a character that is
not on the line, a bracket without partner, no further line) has no landing. -/
namespace ModalEdit

/-- The offset in column `w` of line `l`, or on the last character of a line that is too short.
With `pastEnd` the place behind the last character counts as a column too. -/
def Text.atColumn (t : Text) (l : Nat) (w : Wanted) (pastEnd : Bool) : Nat :=
  t.lineStart l + w.within (if pastEnd then t.lineLength l else t.lineLength l - 1)

namespace Motion

/-- Where `n` steps lead from `i`. A place that the step does not leave ends the walk early. -/
def walk (step : Nat → Nat) : (n i : Nat) → Nat
  | 0, i => i
  | n + 1, i => if step i = i then i else walk step n (step i)

/-- The last line that a vertical motion can reach. Only an insertion can take place on the empty
line after a final break, since that line holds no character. -/
def lastReachableLine (t : Text) (purpose : Purpose) : Nat :=
  if purpose ≠ .insertion ∧ t.isEmptyLine t.lastLine then t.lastLine - 1 else t.lastLine

namespace Landing

def upTo (target : Nat) : Landing := ⟨target, .upTo, none⟩

def through (target : Nat) : Landing := ⟨target, .through, none⟩

/-- On line `l`, in the wanted column or else in the one of the cursor `i`. -/
def onLine (t : Text) (i l : Nat) (ctx : Context) : Landing :=
  let w := ctx.wanted.getD (.column (t.column i))
  ⟨t.atColumn l w (ctx.purpose = .insertion), .lines, some w⟩

def lineEnd (t : Text) (l : Nat) (purpose : Purpose) : Landing :=
  let landing :=
    if purpose = .insertion then upTo (t.lineEnd l)
    else if t.isEmptyLine l then upTo (t.lineStart l)
    else through (t.lineEnd l - 1)
  { landing with wanted := some .lineEnd }

def firstNonBlank (t : Text) (l : Nat) (purpose : Purpose) : Landing :=
  upTo (if purpose = .cursor then t.restOnLine l else t.firstNonBlank l)

/-- On the hit of a search, which an operator takes with it in the forward direction. -/
def find? (t : Text) (f : Find) (i count : Nat) (again : Bool) : Option Landing :=
  (t.find? f i count again).map fun target => if f.forward then through target else upTo target

end Landing

/-- An operator on words stops at the end of a line when nothing but blanks stands between that
line and the target, so that it keeps the break and the indentation of the next line. -/
def stopAtLineEnd (t : Text) (i target : Nat) : Nat :=
  let l := t.lineOf target
  if t.lineOf i < l ∧ target < t.length
      ∧ (t.slice (Span.between (t.lineStart l) target)).all isBlank
      ∧ i < t.lineEnd (l - 1) then
    t.lineEnd (l - 1)
  else target

/-- The landing of a motion from `i`, before the limit is applied. -/
def landing? (m : Motion) (t : Text) (i count : Nat) (ctx : Context) : Option Landing :=
  let l := t.lineOf i
  let last := lastReachableLine t ctx.purpose
  match m with
  | left => some (.upTo (i - count))
  | right => some (.upTo (i + count))
  | up => if l = 0 then none else some (.onLine t i (l - count) ctx)
  | down => if last ≤ l then none else some (.onLine t i (min (l + count) last) ctx)
  | bufferStart => some (.onLine t i (min (count - 1) last) ctx)
  | bufferEnd => some (.onLine t i (if count = 1 then last else min (count - 1) last) ctx)
  | lineStart => some (.upTo (t.lineStart l))
  | firstNonBlank => some (.firstNonBlank t l ctx.purpose)
  | lineEnd => some (.lineEnd t (min (l + count - 1) (max last l)) ctx.purpose)
  | wordForward style =>
    let target := walk (t.wordForward style) count i
    some (.upTo (if ctx.purpose = .operator then stopAtLineEnd t i target else target))
  | wordBackward style => some (.upTo (walk (t.wordBackward style) count i))
  | wordEnd style => if t.isEmpty then none else some (.through (walk (t.wordEnd style) count i))
  | wordEndBackward style => some (.through (walk (t.wordEndBackward style) count i))
  | paragraphForward => some (.upTo (walk t.paragraphForward count i))
  | paragraphBackward => some (.upTo (walk t.paragraphBackward count i))
  | matchPair => (t.matchPair i).map .through
  | find f => Landing.find? t f i count false
  | repeatFind => ctx.lastFind.bind fun f => Landing.find? t f i count true
  | repeatFindReverse => ctx.lastFind.bind fun f => Landing.find? t f.reversed i count true

/-- The landing of a motion from the cursor `i`. A count of zero acts as one. -/
def resolve (m : Motion) (t : Text) (i count : Nat) (ctx : Context) : Option Landing :=
  (m.landing? t (min i t.length) (max count 1) ctx).map fun x =>
    { x with target := min x.target ctx.limit }

end Motion

end ModalEdit
