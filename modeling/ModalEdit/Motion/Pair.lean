import ModalEdit.Text.Class

/-! The partner of a bracket. A scan away from a bracket keeps the number of inner pairs that are
still open; the partner is the first bracket met while there is none. -/
namespace ModalEdit.Text

/-- The distance to the first `goal` that is not matched by an earlier `nest`, where `depth` pairs
are open already. -/
def unmatched (goal nest : Char) : (depth : Nat) → Text → Option Nat
  | _, [] => none
  | depth, c :: rest =>
    if c = goal then
      match depth with
      | 0 => some 0
      | depth + 1 => (unmatched goal nest depth rest).map (· + 1)
    else if c = nest then (unmatched goal nest (depth + 1) rest).map (· + 1)
    else (unmatched goal nest depth rest).map (· + 1)

/-- The closer, at `i` or later, of a pair that is open before `i`. -/
def findCloser (t : Text) (b : Bracket) (i : Nat) : Option Nat :=
  (unmatched b.closer b.opener 0 (t.drop i)).map (i + ·)

/-- The opener, before `i`, of the innermost pair that is open at `i`. -/
def findOpener (t : Text) (b : Bracket) (i : Nat) : Option Nat :=
  (unmatched b.opener b.closer 0 (t.take i).reverse).map fun d => min i t.length - 1 - d

/-- The other end of the pair whose one end is at `i`. -/
def matchPair (t : Text) (i : Nat) : Option Nat := do
  let c ← t[i]?
  let (b, side) ← Bracket.find? Bracket.jumpPairs c
  match side with
  | .opening => t.findCloser b (i + 1)
  | .closing => t.findOpener b i

end ModalEdit.Text
