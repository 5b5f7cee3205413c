import ModalEdit.Editor

/-! The arguments of the command line. -/
namespace ModalEdit.CommandLine

structure Arguments where
  path? : Option Text := none
  text? : Option Text := none
  scripts : List Text := []
  cursor? : Option Nat := none
  mode? : Option Mode := none
  config? : Option Text := none
  /-- Print a snapshot instead of the text. -/
  json : Bool := false
  /-- Write the text back to its file. -/
  write : Bool := false
deriving DecidableEq, Repr

inductive Setting where
  | text
  | keys
  | cursor
  | mode
  | config
deriving DecidableEq, Repr

inductive Switch where
  | json
  | write
deriving DecidableEq, Repr

def Setting.ofName? (name : Text) : Option Setting :=
  [(['t', 'e', 'x', 't'], text), (['k', 'e', 'y', 's'], keys),
   (['c', 'u', 'r', 's', 'o', 'r'], cursor), (['m', 'o', 'd', 'e'], mode),
   (['c', 'o', 'n', 'f', 'i', 'g'], config)].lookup name

def Switch.ofName? (name : Text) : Option Switch :=
  [(['j', 's', 'o', 'n'], json), (['w', 'r', 'i', 't', 'e'], write)].lookup name

def modeOf? (name : Text) : Option Mode :=
  [(['n', 'o', 'r', 'm', 'a', 'l'], Mode.normal), (['i', 'n', 's', 'e', 'r', 't'], .insert),
   (['v', 'i', 's', 'u', 'a', 'l'], .visual),
   (['v', 'i', 's', 'u', 'a', 'l', '-', 'l', 'i', 'n', 'e'], .visualLine)].lookup name

/-- A natural number of at most 64 bits, with a plus in front or without. -/
def natural? (t : Text) : Option Nat :=
  let digits := match t with
    | '+' :: rest => rest
    | t => t
  if digits.isEmpty ∨ !digits.all Char.isDigit then none
  else
    let n := digits.foldl (fun n c => n * 10 + (c.toNat - 48)) 0
    if n < Nat.pow 2 64 then some n else none

namespace Arguments

/-- The value of an option that can be given once. -/
def once (old? : Option α) (new? : Option α) : Option (Option α) :=
  match old?, new? with
  | none, some new => some (some new)
  | _, _ => none

/-- With one more option. Only key scripts can be given more than once. -/
def withSetting (a : Arguments) (s : Setting) (value : Text) : Option Arguments :=
  match s with
  | .text => (once a.text? value).map ({ a with text? := · })
  | .keys => some { a with scripts := a.scripts ++ [value] }
  | .cursor => (once a.cursor? (natural? value)).map ({ a with cursor? := · })
  | .mode => (once a.mode? (modeOf? value)).map ({ a with mode? := · })
  | .config =>
    if value.isEmpty then none else (once a.config? value).map ({ a with config? := · })

def withSwitch (a : Arguments) (s : Switch) : Option Arguments :=
  match s with
  | .json => if a.json then none else some { a with json := true }
  | .write => if a.write then none else some { a with write := true }

/-- With the path of a file. There can be only one, and it cannot be empty. -/
def withPath (a : Arguments) (path : Text) : Option Arguments :=
  if path.isEmpty then none else (once a.path? path).map ({ a with path? := · })

/-- A value can begin with a hyphen only if it is nothing else, or joined to its option. -/
def canStandAlone (value : Text) : Bool := value.head? != some '-' || value == ['-']

/-- The name of a long option, and the value that is joined to it by an equals sign. -/
def splitValue (body : Text) : Text × Option Text :=
  (body.takeWhile (· != '='), (body.dropWhile (· != '=')).tail?)

end Arguments

structure Scan where
  arguments : Arguments := {}
  awaited? : Option Setting := none
  /-- After two hyphens by themselves all that follows is a path. -/
  pathsOnly : Bool := false
deriving DecidableEq, Repr

namespace Scan

def withPath (s : Scan) (path : Text) : Option Scan :=
  (s.arguments.withPath path).map ({ s with arguments := · })

def withSetting (s : Scan) (setting : Setting) : (joined? : Option Text) → Option Scan
  | some value => (s.arguments.withSetting setting value).map ({ s with arguments := · })
  | none => some { s with awaited? := some setting }

def withLong (s : Scan) (body : Text) : Option Scan :=
  let (name, joined?) := Arguments.splitValue body
  match Setting.ofName? name, Switch.ofName? name, joined? with
  | some setting, _, _ => s.withSetting setting joined?
  | none, some switch, none =>
    (s.arguments.withSwitch switch).map ({ s with arguments := · })
  | _, _, _ => none

def next (s : Scan) (arg : Text) : Option Scan :=
  match s.awaited?, s.pathsOnly with
  | some setting, _ =>
    if Arguments.canStandAlone arg then { s with awaited? := none }.withSetting setting (some arg)
    else none
  | none, true => s.withPath arg
  | none, false =>
    match arg with
    | ['-', '-'] => some { s with pathsOnly := true }
    | '-' :: '-' :: body => s.withLong body
    | ['-', 'k'] => s.withSetting .keys none
    | '-' :: 'k' :: '=' :: value => s.withSetting .keys (some value)
    | '-' :: 'k' :: value => s.withSetting .keys (some value)
    | ['-'] => s.withPath arg
    | '-' :: _ => none
    | _ => s.withPath arg

end Scan

/-- Do the arguments go together? A text of its own excludes a file. Writing back needs one of the
two: without a file the text of its own is printed all the same. -/
def Arguments.areConsistent (a : Arguments) : Bool :=
  match a.path?, a.text? with
  | some _, some _ => false
  | none, none => !a.write
  | _, _ => true

def Arguments.read? (args : List Text) : Option Arguments := do
  let s ← args.foldlM Scan.next {}
  if s.awaited?.isNone ∧ s.arguments.areConsistent then some s.arguments else none

end ModalEdit.CommandLine
