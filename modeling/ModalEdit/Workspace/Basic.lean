import ModalEdit.Change
import ModalEdit.Editor
import ModalEdit.Register.Bank

/-! What a command works on: the text under edit, the registers, and the memory of changes. -/
namespace ModalEdit

structure Workspace where
  editor : Editor
  registers : RegisterBank
  recorder : Recorder
deriving DecidableEq, Repr

structure Outcome where
  /-- The cursor, the mode, the selection or the text. -/
  dirty : Bool
  textChanged : Bool
deriving DecidableEq, Repr

namespace Outcome

def unchanged : Outcome := ⟨false, false⟩

def moved : Outcome := ⟨true, false⟩

def edited : Outcome := ⟨true, true⟩

def merge (a b : Outcome) : Outcome := ⟨a.dirty || b.dirty, a.textChanged || b.textChanged⟩

end Outcome

namespace Workspace

def skip (w : Workspace) : Workspace × Outcome := (w, .unchanged)

/-- Does `act` in mode `m`, and nothing in any other mode. -/
@[macro_inline]
def inMode (w : Workspace) (m : Mode) (act : Workspace × Outcome) : Workspace × Outcome :=
  if w.editor.mode = m then act else w.skip

end Workspace

end ModalEdit
