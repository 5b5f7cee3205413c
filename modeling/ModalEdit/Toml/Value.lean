import ModalEdit.Text.Basic

/-! Values of a TOML document, and how its lines build up tables. A table may be written in
several places, but each way of writing it can be used only where it adds something new. -/
namespace ModalEdit.Toml

inductive Origin where
  /-- It has a header. -/
  | header
  /-- It is on the way to a table with a header. -/
  | implied
  /-- It is on the way to a dotted key. -/
  | dotted
  /-- It is written in braces. -/
  | inline
deriving DecidableEq, Repr

/-- A value. Of fractions and of dates only the kind is kept, since nothing reads more. -/
inductive Value where
  | string (s : Text)
  | integer (n : Int)
  | fraction
  /-- A numeral that stands for no number: it is out of range, or its digits do not fit its base.
  A document may hold it, but nobody can read it. -/
  | misfit
  | boolean (b : Bool)
  | date
  | array (items : List Value)
  | table (origin : Origin) (entries : List (Text × Value))
  /-- Tables under one header that is written once for each. -/
  | tables (items : List (List (Text × Value)))
deriving Repr

abbrev Table := List (Text × Value)

mutual

def Value.isSound : Value → Bool
  | .misfit => false
  | .array items => Value.areSound items
  | .table _ entries => Table.isSound entries
  | .tables items => Table.areSound items
  | _ => true

def Value.areSound : List Value → Bool
  | [] => true
  | v :: rest => v.isSound && Value.areSound rest

def Table.isSound : List (Text × Value) → Bool
  | [] => true
  | (_, v) :: rest => v.isSound && Table.isSound rest

def Table.areSound : List (List (Text × Value)) → Bool
  | [] => true
  | t :: rest => Table.isSound t && Table.areSound rest

end

namespace Table

def replace (t : Table) (k : Text) (v : Value) : Table :=
  t.map fun entry => if entry.1 = k then (k, v) else entry

/-- Changes the table at the end of a path, where `origin` is that of the table at its start.
Tables that are missing are made on the way, and of repeated tables the last one counts. A dotted
key cannot reach into a table that has a header, and nothing can reach into a table in braces. -/
def within (dotted : Bool) (change : Origin → Table → Option Table) :
    (path : List Text) → (origin : Origin) → Table → Option Table
  | [], origin, t => change origin t
  | k :: path, _, t =>
    match t.lookup k with
    | none => do
      let origin := if dotted then Origin.dotted else .implied
      let made ← within dotted change path origin []
      return t ++ [(k, .table origin made)]
    | some (.table origin entries) =>
      if origin = .inline ∨ dotted ∧ origin = .header then none
      else do
        let changed ← within dotted change path origin entries
        return t.replace k (.table origin changed)
    | some (.tables items) =>
      match items.getLast? with
      | some last => do
        let changed ← within dotted change path .header last
        return t.replace k (.tables (items.dropLast ++ [changed]))
      | none => none
    | some _ => none

/-- Adds a key with a value. The key must be new, and only dotted keys share the tables on their
way. -/
def add (path : List Text) (k : Text) (v : Value) : (origin : Origin) → Table → Option Table :=
  within true
    (fun origin t =>
      if (origin = .dotted ↔ path ≠ []) ∧ (t.lookup k).isNone then some (t ++ [(k, v)]) else none)
    path

def openTable (path : List Text) (k : Text) : Table → Option Table :=
  within false
    (fun _ t =>
      match t.lookup k with
      | none => some (t ++ [(k, .table .header [])])
      | some (.table .implied entries) => some (t.replace k (.table .header entries))
      | some _ => none)
    path .header

def openItem (path : List Text) (k : Text) : Table → Option Table :=
  within false
    (fun _ t =>
      match t.lookup k with
      | none => some (t ++ [(k, .tables [[]])])
      | some (.tables items) => some (t.replace k (.tables (items ++ [[]])))
      | some _ => none)
    path .header

end Table

end ModalEdit.Toml
