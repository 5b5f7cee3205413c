import ModalEdit.Text.Basic

/-! Keys, as they are pressed one at a time, and their written form. -/
namespace ModalEdit

inductive KeyCode where
  | char (c : Char)
  | enter
  | escape
  | backspace
  | tab
  | up
  | down
  | left
  | right
  | home
  | endKey
deriving DecidableEq, Repr

structure Modifiers where
  ctrl : Bool := false
  alt : Bool := false
  shift : Bool := false
deriving DecidableEq, Repr

structure KeyPress where
  code : KeyCode
  mods : Modifiers := {}
deriving DecidableEq, Repr

namespace Modifiers

def isEmpty (m : Modifiers) : Bool := !(m.ctrl || m.alt || m.shift)

def shown (m : Modifiers) : Text :=
  (if m.ctrl then ['C', '-'] else []) ++ (if m.alt then ['A', '-'] else []) ++
    (if m.shift then ['S', '-'] else [])

end Modifiers

def KeyCode.name : KeyCode → Text
  | char c => [c]
  | enter => ['C', 'R']
  | escape => ['E', 's', 'c']
  | backspace => ['B', 'S']
  | tab => ['T', 'a', 'b']
  | up => ['U', 'p']
  | down => ['D', 'o', 'w', 'n']
  | left => ['L', 'e', 'f', 't']
  | right => ['R', 'i', 'g', 'h', 't']
  | home => ['H', 'o', 'm', 'e']
  | endKey => ['E', 'n', 'd']

namespace KeyPress

def char (c : Char) : KeyPress := ⟨.char c, {}⟩

def ctrl (c : Char) : KeyPress := ⟨.char c, { ctrl := true }⟩

def isCtrl (k : KeyPress) : Bool := k.mods.ctrl

/-- The escape key, or one of the control sequences that stand for it. -/
def isEscape (k : KeyPress) : Bool :=
  match k.code with
  | .escape => true
  | .char c => (c == '[' || c == 'c') && k.isCtrl
  | _ => false

/-- The written form of a press: a plain character stands for itself, anything else is a group
in angle brackets. -/
def shown (k : KeyPress) : Text :=
  match k.code, k.mods.isEmpty with
  | .char c, true => if c = '<' then ['<', 'l', 't', '>'] else [c]
  | code, _ => '<' :: (k.mods.shown ++ code.name) ++ ['>']

end KeyPress

end ModalEdit
