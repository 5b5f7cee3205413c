import ModalEdit.Key.Basic

/-! Key scripts. A character stands for its key, and a group in angle brackets names a key and
its modifiers. Names and modifiers are read without regard to ASCII case. -/
namespace ModalEdit

inductive ScriptError where
  /-- The group that opens at offset `start` has no end. -/
  | unterminated (start : Nat)
  /-- A group holds no name of a key. -/
  | unknownKey (name : Text)
deriving DecidableEq, Repr

def ScriptError.message : ScriptError → String
  | unterminated start => "unterminated key name starting at char " ++ toString start
  | unknownKey name => "unknown key name <" ++ String.ofList name ++ ">"

namespace KeyPress

def knownNames : List (Text × KeyCode) :=
  [(['e', 's', 'c'], .escape), (['c', 'r'], .enter), (['e', 'n', 't', 'e', 'r'], .enter),
   (['r', 'e', 't', 'u', 'r', 'n'], .enter), (['b', 's'], .backspace),
   (['b', 'a', 'c', 'k', 's', 'p', 'a', 'c', 'e'], .backspace), (['t', 'a', 'b'], .tab),
   (['u', 'p'], .up), (['d', 'o', 'w', 'n'], .down), (['l', 'e', 'f', 't'], .left),
   (['r', 'i', 'g', 'h', 't'], .right), (['h', 'o', 'm', 'e'], .home), (['e', 'n', 'd'], .endKey),
   (['l', 't'], .char '<'), (['s', 'p', 'a', 'c', 'e'], .char ' ')]

def holding? (letter : Char) (m : Modifiers) : Option Modifiers :=
  match letter.toLower with
  | 'c' => some { m with ctrl := true }
  | 'a' | 'm' => some { m with alt := true }
  | 's' => some { m with shift := true }
  | _ => none

/-- Splits off the modifiers at the front of a name. A modifier needs something to modify, so the
last character of a name never belongs to one. -/
def splitModifiers (held : Modifiers) : Text → Modifiers × Text
  | letter :: '-' :: c :: rest =>
    match holding? letter held with
    | some more => splitModifiers more (c :: rest)
    | none => (held, letter :: '-' :: c :: rest)
  | name => (held, name)

/-- The press that the inside of a group stands for. A character by itself needs a modifier. -/
def ofName (name : Text) : Except ScriptError KeyPress :=
  let (mods, key) := splitModifiers {} name
  match knownNames.lookup (key.map Char.toLower), key with
  | some code, _ => .ok ⟨code, mods⟩
  | none, [c] => if mods.isEmpty then .error (.unknownKey name) else .ok ⟨.char c, mods⟩
  | none, _ => .error (.unknownKey name)

/-- Reads a script from offset `i` on, where `group?` is the inside of an open group so far. -/
def readFrom (i : Nat) (group? : Option Text) : Text → Except ScriptError (List KeyPress)
  | [] =>
    match group? with
    | none => .ok []
    | some name => .error (.unterminated (i - name.length - 1))
  | c :: rest =>
    match group? with
    | none =>
      if c = '<' then readFrom (i + 1) (some []) rest
      else (readFrom (i + 1) none rest).map (char c :: ·)
    | some name =>
      if c = '>' then do
        let key ← ofName name
        (readFrom (i + 1) none rest).map (key :: ·)
      else readFrom (i + 1) (some (name ++ [c])) rest

def readScript (script : Text) : Except ScriptError (List KeyPress) := readFrom 0 none script

end KeyPress

end ModalEdit
