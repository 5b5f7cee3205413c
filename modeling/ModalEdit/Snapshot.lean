import ModalEdit.Editor

/-! What a host sees of a session, and its JSON form. -/
namespace ModalEdit

/-- What a host needs to show a session. Equal revisions mean equal texts. -/
structure Snapshot where
  text : Text
  cursor : Nat
  mode : Mode
  selection? : Option Selection
  revision : Nat
deriving DecidableEq, Repr

def Editor.snapshot (e : Editor) : Snapshot where
  text := e.text
  cursor := e.cursor
  mode := e.mode
  selection? := e.selection?
  revision := e.revision

def Mode.name : Mode → String
  | normal => "Normal"
  | insert => "Insert"
  | visual => "Visual"
  | visualLine => "VisualLine"

def Selection.Kind.name : Selection.Kind → String
  | chars => "Characterwise"
  | lines => "Linewise"

namespace Snapshot

def hexDigit (n : Nat) : Char := Char.ofNat (if n < 10 then 48 + n else 87 + n)

/-- A character inside a JSON string. Only the quote, the backslash and control characters are
escaped. -/
def jsonChar (c : Char) : Text :=
  if c = '\x22' then ['\\', '\x22']
  else if c = '\\' then ['\\', '\\']
  else if c = '\n' then ['\\', 'n']
  else if c = '\t' then ['\\', 't']
  else if c = '\r' then ['\\', 'r']
  else if c = '\x08' then ['\\', 'b']
  else if c = '\x0c' then ['\\', 'f']
  else if c.toNat < 32 then
    ['\\', 'u', '0', '0', hexDigit (c.toNat / 16), hexDigit (c.toNat % 16)]
  else [c]

def jsonString (t : Text) : String :=
  "\"" ++ String.ofList (t.flatMap jsonChar) ++ "\""

/-- An object with one member a line, inside an object that is indented by `indent`. -/
def jsonObject (indent : String) (members : List (String × String)) : String :=
  let lines := members.map fun (name, value) => indent ++ "  \"" ++ name ++ "\": " ++ value
  "\x7b\n" ++ String.intercalate ",\n" lines ++ "\n" ++ indent ++ "\x7d"

def selectionJson (s : Selection) : String :=
  jsonObject "  "
    [("anchor", toString s.anchor), ("start", toString s.span.start),
     ("end", toString s.span.stop), ("kind", "\"" ++ s.kind.name ++ "\"")]

def json (s : Snapshot) : String :=
  jsonObject ""
    [("text", jsonString s.text), ("cursor", toString s.cursor),
     ("mode", "\"" ++ s.mode.name ++ "\""),
     ("visual_selection", s.selection?.elim "null" selectionJson),
     ("revision", toString s.revision)]

end Snapshot

end ModalEdit
