import ModalEdit.Session

/-! Several sessions over one set of registers. Nothing else of one session can be seen in
another. -/
namespace ModalEdit

/-- Stands for a session towards the host. No number is given out twice. -/
abbrev SessionId := Nat

structure Engine where
  registers : RegisterBank
  undoLevels : Nat
  sessions : List (SessionId × Session) := []
  nextId : SessionId := 1
deriving DecidableEq, Repr

namespace Engine

def find? (e : Engine) (id : SessionId) : Option Session := e.sessions.lookup id

def snapshot? (e : Engine) (id : SessionId) : Option Snapshot :=
  (e.find? id).map (·.editor.snapshot)

def update (e : Engine) (id : SessionId) (s : Session) : Engine :=
  { e with sessions := e.sessions.map fun entry => if entry.1 = id then (id, s) else entry }

/-- Opens a session, with the cursor cut to what the mode allows. -/
def openSession (e : Engine) (t : Text) (m : Mode) (cursor : Nat) : Engine × SessionId :=
  ({ e with
      sessions := e.sessions ++ [(e.nextId, .ofText t m cursor e.undoLevels)]
      nextId := e.nextId + 1 }, e.nextId)

def closeSession (e : Engine) (id : SessionId) : Engine × Bool :=
  ({ e with sessions := e.sessions.filter (·.1 ≠ id) }, (e.find? id).isSome)

def press (e : Engine) (id : SessionId) (k : KeyPress) : Engine × Bool :=
  match e.find? id with
  | none => (e, false)
  | some s =>
    let ((s, registers), response) := s.press e.registers k
    ({ e.update id s with registers }, response.isHandled)

def pressAll (e : Engine) (id : SessionId) : List KeyPress → Engine × List Bool
  | [] => (e, [])
  | k :: rest =>
    let (e, handled) := e.press id k
    let (e, others) := e.pressAll id rest
    (e, handled :: others)

def syncText (e : Engine) (id : SessionId) (t : Text) (cursor : Nat) : Engine × Bool :=
  match e.find? id with
  | none => (e, false)
  | some s => (e.update id (s.syncText t cursor), true)

def register? (e : Engine) (name : Char) : Option Register :=
  (RegisterName.ofChar? name).bind e.registers.get

def setRegister (e : Engine) (name : Char) (t : Text) (linewise : Bool) : Engine × Bool :=
  match RegisterName.ofChar? name with
  | none => (e, false)
  | some name => ({ e with registers := e.registers.set name (.of t linewise) }, true)

/-- Works off the requests to the clipboard. Tells whether there is a connection to it. -/
def syncClipboard (e : Engine) (c : Clipboard) : (Engine × Clipboard) × Bool :=
  let (registers, c) := e.registers.drain c
  (({ e with registers }, c), e.registers.bridge?.isSome)

end Engine

end ModalEdit
