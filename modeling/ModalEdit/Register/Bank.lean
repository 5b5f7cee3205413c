import ModalEdit.Register.Clipboard

/-! The registers that all sessions share, with their connection to the clipboard. -/
namespace ModalEdit

structure RegisterBank where
  store : Registers := .empty
  bridge? : Option Clipboard.Bridge := none
  /-- Yanks, deletions and pastes without a name use the clipboard too. -/
  clipboardByDefault : Bool := false
deriving DecidableEq, Repr

namespace RegisterBank

def get (b : RegisterBank) (name : RegisterName) : Option Register := b.store.get name.slot

def request (b : RegisterBank) (r : Clipboard.Request) : RegisterBank :=
  { b with bridge? := b.bridge?.map fun bridge => { bridge with queue := bridge.queue ++ [r] } }

/-- Stores from outside. What goes to the clipboard register is sent on. -/
def set (b : RegisterBank) (name : RegisterName) (r : Register) : RegisterBank :=
  let b := { b with store := b.store.set name r }
  if name.slot = .clipboard then b.request (.store r.content) else b

def write (b : RegisterBank) (t : Text) (linewise : Bool) (target : Option RegisterName) :
    RegisterBank :=
  let r := Register.of t linewise
  let (store, sent?) := b.store.record target r
  let b := { b with store }
  if target.isNone && b.clipboardByDefault then b.set .clipboard r
  else
    match sent? with
    | some r => b.request (.store r.content)
    | none => b

def defaultName (b : RegisterBank) : RegisterName :=
  if b.clipboardByDefault && b.bridge?.isSome then .clipboard else .unnamed

/-- What a paste finds. The clipboard register answers with what it holds, and a refresh is
queued for the next time. -/
def read (b : RegisterBank) (target : Option RegisterName) :
    RegisterBank × Option Register :=
  let name := target.getD b.defaultName
  if name = .clipboard then
    let fallback := if b.clipboardByDefault then b.store.unnamed else none
    (b.request .refresh, (b.get .clipboard).or fallback)
  else (b, b.get name)

def work (b : RegisterBank) (c : Clipboard) : RegisterBank × Clipboard :=
  match b.bridge? with
  | some ⟨available, r :: rest⟩ =>
    let b := { b with bridge? := some ⟨available, rest⟩ }
    if available then
      let (c, store) := c.handle b.store r
      ({ b with store }, c)
    else (b, c)
  | _ => (b, c)

def waiting (b : RegisterBank) : Nat := b.bridge?.elim 0 (·.queue.length)

def workMany : Nat → RegisterBank → Clipboard → RegisterBank × Clipboard
  | 0, b, c => (b, c)
  | n + 1, b, c => let (b, c) := b.work c; workMany n b c

def drain (b : RegisterBank) (c : Clipboard) : RegisterBank × Clipboard := workMany b.waiting b c

end RegisterBank

end ModalEdit
