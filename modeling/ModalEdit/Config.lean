import ModalEdit.Toml.Reader

/-! The configuration: a TOML document with a section for the history and one for the clipboard.
All of it is optional, and what is not known is passed over. A document with a fault anywhere
counts as none, even if the fault is in a value that is passed over. -/
namespace ModalEdit

structure Config where
  /-- As it is written; see `Config.undoLevels`. -/
  levels : Nat := 100
  clipboard : Bool := true
  /-- Yanks, deletions and pastes without a name use the clipboard too. -/
  clipboardByDefault : Bool := false
  source? : Option Text := none
deriving DecidableEq, Repr

namespace Config

/-- How many steps back the history keeps: one at least. -/
def undoLevels (c : Config) : Nat := max c.levels 1

def levels? : Toml.Value → Option Nat
  | .integer n => if 0 ≤ n ∧ n < Nat.pow 2 64 then some n.toNat else none
  | _ => none

def flag? : Toml.Value → Option Bool
  | .boolean b => some b
  | _ => none

/-- The known fields of a table, if the other ones are sound. -/
def known? (names : List Text) (t : Toml.Table) : Option Toml.Table :=
  if Toml.Table.isSound (t.filter fun field => !names.contains field.1) then some t else none

/-- The fields of a section by name, given its value. An array gives the fields in order, and what
it holds beyond them is not looked at. A date is a section without any of them. -/
def fields? (names : List Text) : Toml.Value → Option Toml.Table
  | .table _ entries => known? names entries
  | .tables items => some (names.zip (items.map (.table .header)))
  | .array items => some (names.zip items)
  | .date => some []
  | _ => none

/-- A field, or what stands for it when it is missing. -/
def fieldOr? (read : Toml.Value → Option α) (fields : Toml.Table) (name : Text)
    (other : α) : Option α :=
  match fields.lookup name with
  | some v => read v
  | none => some other

def undoName : Text := ['u', 'n', 'd', 'o']

def levelsName : Text := ['l', 'e', 'v', 'e', 'l', 's']

def clipboardName : Text := ['c', 'l', 'i', 'p', 'b', 'o', 'a', 'r', 'd']

def enabledName : Text := ['e', 'n', 'a', 'b', 'l', 'e', 'd']

def byDefaultName : Text := ['u', 'n', 'n', 'a', 'm', 'e', 'd', 'p', 'l', 'u', 's']

def ofTable? (t : Toml.Table) : Option Config := do
  let t ← known? [undoName, clipboardName] t
  let undo ← fieldOr? (fields? [levelsName]) t undoName []
  let clipboard ← fieldOr? (fields? [enabledName, byDefaultName]) t clipboardName []
  return {
    levels := ← fieldOr? levels? undo levelsName 100
    clipboard := ← fieldOr? flag? clipboard enabledName true
    clipboardByDefault := ← fieldOr? flag? clipboard byDefaultName false }

def ofSource (source : Text) : Config :=
  match (Toml.read? source).bind ofTable? with
  | some c => { c with source? := some source }
  | none => {}

end Config

end ModalEdit
