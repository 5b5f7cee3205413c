import ModalEdit.Command.Basic
import ModalEdit.Editor
import ModalEdit.Key.Basic

/-! How keys add up to commands. A command may have a count, a register, an operator with a count
of its own, and a key that asks for another one; what has been typed of it so far is kept until
the command is complete, the keys make no sense, or the escape key drops them. -/
namespace ModalEdit

/-- What the next key is needed for. -/
inductive Awaited where
  | registerName
  | afterG
  | findChar (forward till : Bool)
  | replacement
  | objectName (inner : Bool)
deriving DecidableEq, Repr

/-- An operator that waits for its target, with the count typed after it. -/
structure PendingOperator where
  op : Operator
  count? : Option Nat := none
deriving DecidableEq, Repr

structure Pending where
  count? : Option Nat := none
  register? : Option RegisterName := none
  operator? : Option PendingOperator := none
  awaited? : Option Awaited := none
deriving DecidableEq, Repr

inductive Reading where
  | complete (c : Command)
  | incomplete (p : Pending)
  | meaningless
deriving DecidableEq, Repr

def Reading.pending : Reading → Pending
  | incomplete p => p
  | _ => {}

/-- No count goes above this. -/
def maxCount : Nat := 999999

def Motion.ofChar? : Char → Option Motion
  | 'h' => some .left
  | 'l' | ' ' => some .right
  | 'j' => some .down
  | 'k' => some .up
  | '0' => some .lineStart
  | '^' => some .firstNonBlank
  | '$' => some .lineEnd
  | 'w' => some (.wordForward .word)
  | 'W' => some (.wordForward .bigWord)
  | 'b' => some (.wordBackward .word)
  | 'B' => some (.wordBackward .bigWord)
  | 'e' => some (.wordEnd .word)
  | 'E' => some (.wordEnd .bigWord)
  | '\x7b' => some .paragraphBackward
  | '\x7d' => some .paragraphForward
  | '%' => some .matchPair
  | 'G' => some .bufferEnd
  | ';' => some .repeatFind
  | ',' => some .repeatFindReverse
  | _ => none

def Motion.ofKey? : KeyCode → Option Motion
  | .left => some .left
  | .right => some .right
  | .up => some .up
  | .down => some .down
  | .home => some .lineStart
  | .endKey => some .lineEnd
  | _ => none

def TextObject.Kind.ofChar? (c : Char) : Option TextObject.Kind :=
  if c = 'w' then some (.word .word)
  else if c = 'W' then some (.word .bigWord)
  else if c ∈ quoteChars then some (.quote c)
  else
    let shown := if c = 'b' then '(' else if c = 'B' then '\x7b' else c
    (Bracket.find? Bracket.objectPairs shown).map (.bracket ·.1)

def InsertEntry.ofChar? : Char → Option InsertEntry
  | 'i' => some .before
  | 'a' => some .after
  | 'I' => some .lineStart
  | 'A' => some .lineEnd
  | 'o' => some .openBelow
  | 'O' => some .openAbove
  | _ => none

def digitValue? (c : Char) : Option Nat := if c.isDigit then some (c.toNat - 48) else none

/-- A count with one more digit. A zero in front is no count. -/
def extendCount? (count? : Option Nat) (digit : Nat) : Option Nat :=
  if count? = none ∧ digit = 0 then none else some (min (count?.getD 0 * 10 + digit) maxCount)

namespace KeyPress

/-- The character of a press that holds neither control nor alt. -/
def plainChar? (k : KeyPress) : Option Char :=
  match k.code with
  | .char c => if k.mods.ctrl || k.mods.alt then none else some c
  | _ => none

/-- The character that a press gives to a command that awaits one. -/
def givenChar? (k : KeyPress) : Option Char :=
  match k.code with
  | .enter => some '\n'
  | .tab => some '\t'
  | _ => k.plainChar?

end KeyPress

namespace Pending

def isIdle (p : Pending) : Bool := p = {}

/-- The count of the whole command: the counts before and after the operator multiply. -/
def count (p : Pending) : Nat :=
  let after := p.operator?.bind (·.count?)
  max (min (p.count?.getD 1 * after.getD 1) maxCount) 1

def await (p : Pending) (a : Awaited) : Reading := .incomplete { p with awaited? := some a }

def operate (p : Pending) (op : Operator) (target : Target) : Reading :=
  .complete (.edit (.operate op target p.register?) p.count)

def move (p : Pending) (m : Motion) : Reading :=
  match p.operator? with
  | some o => p.operate o.op (.motion m)
  | none => .complete (.move m p.count)

def object (p : Pending) (mode : Mode) (o : TextObject) : Reading :=
  match p.operator? with
  | some pending => p.operate pending.op (.object o)
  | none => if mode.isVisual then .complete (.selectObject o p.count) else .meaningless

def supply (p : Pending) (mode : Mode) (a : Awaited) (k : KeyPress) : Reading :=
  match a with
  | .registerName =>
    match k.plainChar?.bind RegisterName.ofChar? with
    | some name => .incomplete { p with register? := some name }
    | none => .meaningless
  | .afterG =>
    match k.givenChar? with
    | some 'g' => p.move .bufferStart
    | some 'e' => p.move (.wordEndBackward .word)
    | some 'E' => p.move (.wordEndBackward .bigWord)
    | _ => .meaningless
  | .findChar forward till =>
    match k.givenChar? with
    | some c => if c = '\n' then .meaningless else p.move (.find ⟨c, forward, till⟩)
    | none => .meaningless
  | .replacement =>
    match k.givenChar? with
    | some c => .complete (.edit (.replace c) p.count)
    | none => .meaningless
  | .objectName inner =>
    match k.givenChar?.bind TextObject.Kind.ofChar? with
    | some kind => p.object mode ⟨kind, inner⟩
    | none => .meaningless

def digit? (p : Pending) (c : Char) : Option Pending := do
  let d ← digitValue? c
  match p.operator? with
  | some o => do
    let n ← extendCount? o.count? d
    return { p with operator? := some { o with count? := some n } }
  | none => do
    let n ← extendCount? p.count? d
    return { p with count? := some n }

/-- A character while an operator waits. The operator's own character stands for lines. -/
def operatorChar (p : Pending) (op : Operator) (c : Char) : Reading :=
  if c = op.toChar then p.operate op .lines
  else if c = 'i' ∨ c = 'a' then p.await (.objectName (c = 'i'))
  else .meaningless

def normalChar (p : Pending) (c : Char) : Reading :=
  match Operator.ofChar? c, InsertEntry.ofChar? c with
  | some op, _ => .incomplete { p with operator? := some { op := op } }
  | none, some entry => .complete (.edit (.insert entry) p.count)
  | none, none =>
    match c with
    | 'x' => p.operate .delete (.motion .right)
    | 'X' => p.operate .delete (.motion .left)
    | 'D' => p.operate .delete (.motion .lineEnd)
    | 'C' => p.operate .change (.motion .lineEnd)
    | 's' => p.operate .change (.motion .right)
    | 'S' => p.operate .change .lines
    | 'Y' => p.operate .yank .lines
    | 'v' => .complete .startVisual
    | 'V' => .complete .startVisualLine
    | 'p' => .complete (.edit (.paste false p.register?) p.count)
    | 'P' => .complete (.edit (.paste true p.register?) p.count)
    | 'u' => .complete (.undo p.count)
    | '.' => .complete (.repeatLast (p.count?.map fun _ => p.count))
    | 'J' => .complete (.edit .joinLines p.count)
    | 'r' => p.await .replacement
    | '\x22' => p.await .registerName
    | _ => .meaningless

def visualChar (p : Pending) (mode : Mode) (c : Char) : Reading :=
  match c with
  | 'd' | 'x' => .complete (.operateSelection .delete p.register?)
  | 'y' => .complete (.operateSelection .yank p.register?)
  | 'c' | 's' => .complete (.operateSelection .change p.register?)
  | 'o' => .complete .swapAnchor
  | 'v' => .complete (if mode = .visual then .leaveVisual else .startVisual)
  | 'V' => .complete (if mode = .visualLine then .leaveVisual else .startVisualLine)
  | 'i' => p.await (.objectName true)
  | 'a' => p.await (.objectName false)
  | '\x22' => p.await .registerName
  | _ => .meaningless

def commandChar (p : Pending) (mode : Mode) (c : Char) : Reading :=
  match p.digit? c, Motion.ofChar? c with
  | some p, _ => .incomplete p
  | none, some m => p.move m
  | none, none =>
    match c with
    | 'g' => p.await .afterG
    | 'f' => p.await (.findChar true false)
    | 'F' => p.await (.findChar false false)
    | 't' => p.await (.findChar true true)
    | 'T' => p.await (.findChar false true)
    | _ =>
      match p.operator? with
      | some o => p.operatorChar o.op c
      | none => if mode.isVisual then p.visualChar mode c else p.normalChar c

def commandCtrl (p : Pending) (k : KeyPress) : Reading :=
  if k.code = .char 'r' ∧ p.operator? = none then .complete (.redo p.count) else .meaningless

def pressCommand (p : Pending) (mode : Mode) (k : KeyPress) : Reading :=
  if k.isEscape then
    if mode.isVisual then .complete .leaveVisual else .incomplete {}
  else
    match p.awaited? with
    | some a => supply { p with awaited? := none } mode a k
    | none =>
      if k.isCtrl then p.commandCtrl k
      else
        match k.code with
        | .char c => if k.mods.alt then .meaningless else p.commandChar mode c
        | .backspace => p.move .left
        | code =>
          match Motion.ofKey? code with
          | some m => p.move m
          | none => .meaningless

def pressInsert (k : KeyPress) : Reading :=
  if k.isEscape then .complete .leaveInsert
  else if k.mods.ctrl || k.mods.alt then .meaningless
  else
    match k.code with
    | .char c => .complete (.insertText [c])
    | .tab => .complete (.insertText ['\t'])
    | .enter => .complete .insertBreak
    | .backspace => .complete .backspace
    | code =>
      match Motion.ofKey? code with
      | some m => .complete (.move m 1)
      | none => .meaningless

def press (p : Pending) (mode : Mode) (k : KeyPress) : Reading :=
  match mode with
  | .insert => pressInsert k
  | _ => p.pressCommand mode k

end Pending

end ModalEdit
