import ModalEdit.Motion.Find
import ModalEdit.Text.Class

/-! Motions by name, what a motion is resolved against, and where it lands. -/
namespace ModalEdit

inductive Motion where
  | left
  | right
  | up
  | down
  | lineStart
  | firstNonBlank
  | lineEnd
  | wordForward (style : WordStyle)
  | wordBackward (style : WordStyle)
  | wordEnd (style : WordStyle)
  | wordEndBackward (style : WordStyle)
  | paragraphBackward
  | paragraphForward
  | matchPair
  | bufferStart
  | bufferEnd
  | find (f : Find)
  | repeatFind
  | repeatFindReverse
deriving DecidableEq, Repr

/-- The column that vertical motions try to keep while they cross shorter lines. -/
inductive Wanted where
  | column (n : Nat)
  | lineEnd
deriving DecidableEq, Repr

namespace Wanted

def within : Wanted → (last : Nat) → Nat
  | column n, last => min n last
  | lineEnd, last => last

end Wanted

namespace Motion

/-- Does the motion go from line to line, and cover whole lines under an operator? -/
def isLinewise : Motion → Bool
  | up | down | bufferStart | bufferEnd => true
  | _ => false

inductive Purpose where
  /-- The cursor moves and stays on a character. -/
  | cursor
  /-- The cursor moves and may come to stand behind the last character of a line. -/
  | insertion
  /-- An operator takes the text up to the landing. -/
  | operator
deriving DecidableEq, Repr

structure Context where
  purpose : Purpose
  limit : Nat
  wanted : Option Wanted
  lastFind : Option Find
deriving DecidableEq, Repr

/-- An operator may take the text up to its end. -/
def Context.operator (t : Text) (wanted : Option Wanted) (lastFind : Option Find) : Context :=
  ⟨.operator, t.length, wanted, lastFind⟩

inductive Reach where
  /-- Without the character at the far end. -/
  | upTo
  /-- With the character at the far end. -/
  | through
  /-- All the lines from the cursor to the target. -/
  | lines
deriving DecidableEq, Repr

structure Landing where
  target : Nat
  reach : Reach
  wanted : Option Wanted
deriving DecidableEq, Repr

end Motion

end ModalEdit
