import ModalEdit.Register.Basic

/-! The clipboard of the system, and the queue of requests to it. Keys never wait for the
clipboard: requests are queued and worked off, first come first served, at other moments. -/
namespace ModalEdit

/-- The clipboard of the system, as other programs see it. -/
structure Clipboard where
  contents : Text := []
  failing : Bool := false
deriving DecidableEq, Repr

namespace Clipboard

inductive Request where
  /-- Put a text on the clipboard. -/
  | store (t : Text)
  /-- Fetch the text of the clipboard into its register. -/
  | refresh
deriving DecidableEq, Repr

/-- Works off one request. A clipboard that refuses leaves all as it is. -/
def handle (c : Clipboard) (rs : Registers) (r : Request) : Clipboard × Registers :=
  if c.failing then (c, rs)
  else
    match r with
    | .store t => ({ c with contents := t }, rs)
    | .refresh => (c, rs.put .clipboard (.of c.contents c.contents.endsInBreak))

structure Bridge where
  /-- Without a clipboard to talk to, requests come to nothing. -/
  available : Bool
  /-- The requests that wait, oldest first. -/
  queue : List Request := []
deriving DecidableEq, Repr

end Clipboard

end ModalEdit
