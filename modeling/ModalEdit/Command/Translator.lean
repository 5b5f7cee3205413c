import ModalEdit.Command.Pending

/-! The same reading of keys with a place of its own for all that can have been typed. Nothing but the
order in which the places are asked keeps those apart that do not belong together. -/
namespace ModalEdit

/-- The first of two keys that make one command. -/
inductive ParkedKey where
  | afterG
  | findChar (forward till : Bool)
  | replacement
  | objectName (inner : Bool)
deriving DecidableEq, Repr

/-- What a key comes to. -/
inductive Translation where
  | command (c : Command)
  | consumed
  | unhandled
deriving DecidableEq, Repr

structure Translator where
  /-- The count ahead of an operator or a motion. -/
  count? : Option Nat := none
  operator? : Option Operator := none
  /-- The count between an operator and its target. -/
  ownCount? : Option Nat := none
  register? : Option RegisterName := none
  /-- The next key names a register. -/
  awaitsRegister : Bool := false
  parked? : Option ParkedKey := none
deriving DecidableEq, Repr

namespace Translator

def isIdle (τ : Translator) : Bool := τ = {}

/-- Takes both counts out. What comes first is their product, cut to the highest count, and whether
there was a count at all. -/
def takeCount (τ : Translator) : (Nat × Bool) × Translator :=
  ((max (min (τ.count?.getD 1 * τ.ownCount?.getD 1) maxCount) 1,
      τ.count?.isSome || τ.ownCount?.isSome),
    { τ with count? := none, ownCount? := none })

def park (τ : Translator) (key : ParkedKey) : Translation × Translator :=
  (.consumed, { τ with parked? := some key })

def apply (τ : Translator) (op : Operator) (target : Target) (count : Nat) :
    Translation × Translator :=
  (.command (.edit (.operate op target τ.register?) count), { τ with register? := none })

/-- A motion by itself, or the target of the operator that waits. -/
def completeMotion (τ : Translator) (m : Motion) : Translation × Translator :=
  let ((n, _), τ) := τ.takeCount
  match τ.operator? with
  | some op => τ.apply op (.motion m) n
  | none => (.command (.move m n), τ)

/-- The second of two keys that make one command. -/
def resolveParked (τ : Translator) (mode : Mode) (parked : ParkedKey) (k : KeyPress) :
    Translation × Translator :=
  match k.givenChar? with
  | none => (.unhandled, τ)
  | some c =>
    match parked with
    | .afterG =>
      match c with
      | 'g' => τ.completeMotion .bufferStart
      | 'e' => τ.completeMotion (.wordEndBackward .word)
      | 'E' => τ.completeMotion (.wordEndBackward .bigWord)
      | _ => (.unhandled, τ)
    | .findChar forward till =>
      if c = '\n' then (.unhandled, τ) else τ.completeMotion (.find ⟨c, forward, till⟩)
    | .replacement =>
      let ((n, _), τ) := τ.takeCount
      (.command (.edit (.replace c) n), τ)
    | .objectName inner =>
      match TextObject.Kind.ofChar? c with
      | none => (.unhandled, τ)
      | some kind =>
        let ((n, _), τ) := τ.takeCount
        match τ.operator? with
        | some op => τ.apply op (.object ⟨kind, inner⟩) n
        | none =>
          if mode.isVisual then (.command (.selectObject ⟨kind, inner⟩ n), τ) else (.unhandled, τ)

/-- The place that a digit goes to is the one behind the operator, if an operator waits. -/
def addDigit? (τ : Translator) (c : Char) : Option Translator := do
  let d ← digitValue? c
  if τ.operator?.isSome then
    let n ← extendCount? τ.ownCount? d
    return { τ with ownCount? := some n }
  else
    let n ← extendCount? τ.count? d
    return { τ with count? := some n }

def normalChar (τ : Translator) (c : Char) : Translation × Translator :=
  match Operator.ofChar? c with
  | some op => (.consumed, { τ with operator? := some op, ownCount? := none })
  | none =>
    let ((n, explicit), τ) := τ.takeCount
    let recounted : Translator := { τ with count? := if explicit then some n else none }
    match InsertEntry.ofChar? c with
    | some entry => (.command (.edit (.insert entry) n), τ)
    | none =>
      match c with
      | 'x' => τ.apply .delete (.motion .right) n
      | 'X' => τ.apply .delete (.motion .left) n
      | 'D' => τ.apply .delete (.motion .lineEnd) n
      | 'C' => τ.apply .change (.motion .lineEnd) n
      | 's' => τ.apply .change (.motion .right) n
      | 'S' => τ.apply .change .lines n
      | 'Y' => τ.apply .yank .lines n
      | 'v' => (.command .startVisual, τ)
      | 'V' => (.command .startVisualLine, τ)
      | 'p' => (.command (.edit (.paste false τ.register?) n), { τ with register? := none })
      | 'P' => (.command (.edit (.paste true τ.register?) n), { τ with register? := none })
      | 'u' => (.command (.undo n), τ)
      | '.' => (.command (.repeatLast (if explicit then some n else none)), τ)
      | 'J' => (.command (.edit .joinLines n), τ)
      | 'r' => recounted.park .replacement
      | '\x22' => (.consumed, { recounted with awaitsRegister := true })
      | _ => (.unhandled, τ)

def visualChar (τ : Translator) (mode : Mode) (c : Char) : Translation × Translator :=
  match c with
  | 'd' | 'x' => (.command (.operateSelection .delete τ.register?), τ)
  | 'y' => (.command (.operateSelection .yank τ.register?), τ)
  | 'c' | 's' => (.command (.operateSelection .change τ.register?), τ)
  | 'o' => (.command .swapAnchor, τ)
  | 'v' => (.command (if mode = .visual then .leaveVisual else .startVisual), τ)
  | 'V' => (.command (if mode = .visualLine then .leaveVisual else .startVisualLine), τ)
  | 'i' => τ.park (.objectName true)
  | 'a' => τ.park (.objectName false)
  | '\x22' => (.consumed, { τ with awaitsRegister := true })
  | _ => (.unhandled, τ)

/-- A character while an operator waits. -/
def operatorChar (τ : Translator) (op : Operator) (c : Char) : Translation × Translator :=
  if c = op.toChar then
    let ((n, _), τ) := τ.takeCount
    τ.apply op .lines n
  else if c = 'i' ∨ c = 'a' then τ.park (.objectName (c = 'i'))
  else (.unhandled, τ)

def commandChar (τ : Translator) (mode : Mode) (c : Char) : Translation × Translator :=
  match τ.addDigit? c, Motion.ofChar? c with
  | some τ, _ => (.consumed, τ)
  | none, some m => τ.completeMotion m
  | none, none =>
    match c with
    | 'g' => τ.park .afterG
    | 'f' => τ.park (.findChar true false)
    | 'F' => τ.park (.findChar false false)
    | 't' => τ.park (.findChar true true)
    | 'T' => τ.park (.findChar false true)
    | _ =>
      match τ.operator? with
      | some op => τ.operatorChar op c
      | none => if mode.isVisual then τ.visualChar mode c else τ.normalChar c

/-- The name of a register is asked for first, then a second key, and then a key of its own. -/
def translateCommand (τ : Translator) (mode : Mode) (k : KeyPress) : Translation × Translator :=
  if k.isEscape then
    if mode.isVisual then (.command .leaveVisual, {}) else (.consumed, {})
  else if τ.awaitsRegister then
    match k.plainChar?.bind RegisterName.ofChar? with
    | some name => (.consumed, { τ with register? := some name, awaitsRegister := false })
    | none => (.unhandled, { τ with awaitsRegister := false })
  else
    match τ.parked? with
    | some parked => resolveParked { τ with parked? := none } mode parked k
    | none =>
      if k.isCtrl then
        if k.code = .char 'r' ∧ τ.operator? = none then
          let ((n, _), τ) := τ.takeCount
          (.command (.redo n), τ)
        else (.unhandled, τ)
      else
        match k.code with
        | .char c => if k.mods.alt then (.unhandled, τ) else τ.commandChar mode c
        | .backspace => τ.completeMotion .left
        | code =>
          match Motion.ofKey? code with
          | some m => τ.completeMotion m
          | none => (.unhandled, τ)

/-- Keys of an insertion are commands by themselves. -/
def translateInsert (k : KeyPress) : Translation :=
  match Pending.pressInsert k with
  | .complete c => .command c
  | .incomplete _ => .consumed
  | .meaningless => .unhandled

/-- A command, and a key that makes no sense, clear all that has been typed. -/
def clearing : Translation × Translator → Translation × Translator
  | (.consumed, τ) => (.consumed, τ)
  | (out, _) => (out, {})

/-- What a key comes to, and what has been typed of a command then. -/
def translate (τ : Translator) (mode : Mode) (k : KeyPress) : Translation × Translator :=
  clearing <|
    match mode with
    | .insert => (translateInsert k, τ)
    | _ => τ.translateCommand mode k

end Translator

end ModalEdit
