import ModalEdit.Motion.Basic

/-! What an operator acts on: a range, and whether it stands for whole lines. The range of whole
lines leaves out the last break; a deletion takes one break more, so that the lines vanish. -/
namespace ModalEdit

/-- The range with one break beside it: the one that follows, or at the end of the text the one
that precedes. -/
def Text.withBreak (t : Text) (s : Span) : Span :=
  if s.stop < t.length then ⟨s.start, s.stop + 1, Nat.le_succ_of_le s.start_le_stop⟩
  else ⟨s.start - 1, s.stop, Nat.le_trans (Nat.sub_le _ _) s.start_le_stop⟩

structure Extent where
  span : Span
  linewise : Bool
deriving DecidableEq, Repr

namespace Extent

def charwise (s : Span) : Extent := ⟨s, false⟩

/-- The lines from `a` to `b`, given in either order. -/
def ofLines (t : Text) (a b : Nat) : Extent :=
  ⟨Span.between (t.lineStart (min a b)) (t.lineEnd (max a b)), true⟩

/-- The line of the cursor `i` and the `count - 1` lines after it. -/
def counted (t : Text) (i count : Nat) : Extent :=
  let l := t.lineOf i
  ofLines t l (l + (count - 1))

def ofLanding (t : Text) (i : Nat) (landing : Motion.Landing) : Extent :=
  let lo := min i landing.target
  let hi := max i landing.target
  match landing.reach with
  | .upTo => charwise (Span.between lo (min hi t.length))
  | .through => charwise (Span.between lo (min (hi + 1) t.length))
  | .lines => ofLines t (t.lineOf i) (t.lineOf landing.target)

/-- The characters that a deletion removes. -/
def removal (t : Text) (e : Extent) : Span := if e.linewise then t.withBreak e.span else e.span

end Extent

end ModalEdit
