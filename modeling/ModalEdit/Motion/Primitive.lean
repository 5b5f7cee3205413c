import ModalEdit.Motion.Find
import ModalEdit.Motion.Pair
import ModalEdit.Motion.Paragraph
import ModalEdit.Motion.Word

/-! The walks and searches that motions are made of. They can be asked for at any offset, also at one that
no cursor comes to. -/
namespace ModalEdit.Motion

inductive Primitive where
  | wordForward (style : WordStyle)
  | wordBackward (style : WordStyle)
  | wordEnd (style : WordStyle)
  | wordEndBackward (style : WordStyle)
  | paragraphForward
  | paragraphBackward
  | matchPair
  | findOpener (b : Bracket)
  | findCloser (b : Bracket)
  | find (f : Find) (count : Nat) (again : Bool)
deriving DecidableEq, Repr

/-- Where a primitive leads from `i`. A search may find nothing; there is no answer at all where a walk has
no character to begin on. -/
def Primitive.answer? (p : Primitive) (t : Text) (i : Nat) : Option (Option Nat) :=
  match p with
  | wordForward style => some (t.wordForward style i)
  | wordBackward style => (t.wordBackward? style i).map some
  | wordEnd style => some (t.wordEnd style i)
  | wordEndBackward style => some (t.wordEndBackward style i)
  | paragraphForward => some (t.paragraphForward i)
  | paragraphBackward => some (t.paragraphBackward i)
  | matchPair => some (t.matchPair i)
  | findOpener b => some (t.findOpener b i)
  | findCloser b => some (t.findCloser b i)
  | find f count again => some (t.find? f i count again)

end ModalEdit.Motion
