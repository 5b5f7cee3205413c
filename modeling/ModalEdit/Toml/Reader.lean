import ModalEdit.Toml.Scalar

/-! Reading a TOML document: strings, keys, values and lines. A reader takes characters from the
front of the text and leaves the rest. -/
namespace ModalEdit.Toml

/-- Takes what it reads from the front of a text. -/
abbrev Reader := StateT Text Option

namespace Reader

def peek? : Reader (Option Char) := return (← get).head?

/-- Takes a text if it comes next. -/
def accept (expected : Text) : Reader Bool := do
  let t ← get
  if expected.isPrefixOf t then
    set (t.drop expected.length)
    return true
  else return false

def expect (expected : Text) : Reader Unit := do
  if !(← accept expected) then failure

def takeAll (p : Char → Bool) : Reader Text := do
  let t ← get
  set (t.dropWhile p)
  return t.takeWhile p

def takeSome (n : Nat) : Reader Text := do
  let t ← get
  if t.length < n then failure
  set (t.drop n)
  return t.take n

/-- May the character stand in a comment or a string? Of the control characters only the tab
may. -/
def isPlain (c : Char) : Bool := c == '\t' || (32 ≤ c.toNat && c.toNat ≠ 127)

def isGap (c : Char) : Bool := c == ' ' || c == '\t'

def gap : Reader Unit := do
  let _ ← takeAll isGap

def acceptBreak : Reader Bool := do
  if ← accept ['\n'] then return true else accept ['\r', '\n']

def comment : Reader Unit := do
  if ← accept ['#'] then
    let _ ← takeAll isPlain

/-- Blanks and line ends, and comments if they are allowed. The number bounds the lines. -/
def layout (comments : Bool) : Nat → Reader Unit
  | 0 => gap
  | n + 1 => do
    gap
    if comments then comment
    if ← acceptBreak then layout comments n

def anyLayout : Reader Unit := do layout true (← get).length

/-! ### Strings -/

def codePoint (width : Nat) : Reader Text := do
  let digits ← takeSome width
  if !digits.all (isDigitIn 16) then failure
  let n := ofDigits 16 digits
  if n.isValidChar then return [Char.ofNat n] else failure

def escape : Reader Text := do
  match ← takeSome 1 with
  | ['b'] => return ['\x08']
  | ['t'] => return ['\t']
  | ['n'] => return ['\n']
  | ['f'] => return ['\x0c']
  | ['r'] => return ['\r']
  | ['e'] => return ['\x1b']
  | ['\x22'] => return ['\x22']
  | ['\\'] => return ['\\']
  | ['x'] => codePoint 2
  | ['u'] => codePoint 4
  | ['U'] => codePoint 8
  | _ => failure

/-- The break that a backslash takes away, with all blanks and breaks after it. -/
def foldedBreak : Reader Unit := do
  gap
  if ← acceptBreak then layout false (← get).length else failure

/-- The rest of a string on one line, up to its quote. The number bounds its parts. -/
def lineString (quote : Char) (escapes : Bool) : Nat → Reader Text
  | 0 => failure
  | n + 1 => do
    let plain ← takeAll fun c => isPlain c && c != quote && !(escapes && c == '\\')
    if ← accept [quote] then return plain
    expect ['\\']
    let escaped ← escape
    return plain ++ escaped ++ (← lineString quote escapes n)

/-- The rest of a string over several lines, up to three quotes. Up to two more quotes belong to
the string. -/
def blockString (quote : Char) (escapes : Bool) : Nat → Reader Text
  | 0 => failure
  | n + 1 => do
    let plain ← takeAll fun c => isPlain c && c != quote && !(escapes && c == '\\')
    if ← acceptBreak then return plain ++ '\n' :: (← blockString quote escapes n)
    else if escapes && (← peek?) = some '\\' then
      expect ['\\']
      let next ← peek?
      if next.any fun c => isGap c || c == '\n' || c == '\r' then
        foldedBreak
        return plain ++ (← blockString quote escapes n)
      else
        let escaped ← escape
        return plain ++ escaped ++ (← blockString quote escapes n)
    else
      let quotes ← takeAll (· == quote)
      if quotes.isEmpty ∨ quotes.length > 5 then failure
      else if quotes.length ≥ 3 then return plain ++ quotes.drop 3
      else return plain ++ quotes ++ (← blockString quote escapes n)

def quoted (quote : Char) (blocks : Bool) : Reader Text := do
  let escapes := quote = '\x22'
  let bound := (← get).length
  if blocks && (← accept [quote, quote, quote]) then
    let _ ← acceptBreak
    blockString quote escapes bound
  else
    expect [quote]
    lineString quote escapes bound

/-! ### Keys and values -/

/-- No value is nested deeper, and no key has more parts. -/
def depthLimit : Nat := 80

def isBareKey (c : Char) : Bool := c.isAlphanum || c == '_' || c == '-'

def simpleKey : Reader Text := do
  match ← peek? with
  | some '\x22' => quoted '\x22' false
  | some '\x27' => quoted '\x27' false
  | _ => do
    let k ← takeAll isBareKey
    if k.isEmpty then failure else return k

/-- The rest of a dotted key after its last part so far. The number bounds its parts. -/
def dottedKey (path : List Text) (k : Text) : Nat → Reader (List Text × Text)
  | 0 => failure
  | n + 1 => do
    gap
    if ← accept ['.'] then
      gap
      let next ← simpleKey
      dottedKey (path ++ [k]) next n
    else return (path, k)

/-- A key, as the path to its table and its name there. -/
def key : Reader (List Text × Text) := do
  let k ← simpleKey
  dottedKey [] k depthLimit

/-- The items of an array up to its bracket. A comma may follow the last one. -/
def items (item : Reader Value) : Nat → Reader (List Value)
  | 0 => failure
  | n + 1 => do
    anyLayout
    if ← accept [']'] then return []
    let v ← item
    anyLayout
    if ← accept [','] then return v :: (← items item n)
    expect [']']
    return [v]

/-- The entries of a table in braces up to its brace. A comma may follow the last one. -/
def members (item : Reader Value) (t : Table) : Nat → Reader Table
  | 0 => failure
  | n + 1 => do
    anyLayout
    if ← accept ['\x7d'] then return t
    let (path, k) ← key
    anyLayout
    expect ['=']
    anyLayout
    let v ← item
    anyLayout
    match Table.add path k v .inline t with
    | none => failure
    | some t =>
      if ← accept [','] then members item t n
      else
        expect ['\x7d']
        return t

/-- May the character stand in a value without quotes? What bounds values may not. A quote bounds
only a value that it begins. -/
def isScalarChar (c : Char) : Bool :=
  let bounds := ['=', ',', '[', ']', '\x7b', '\x7d', ' ', '\t', '#', '\r', '\n']
  !bounds.contains c

/-- A value without quotes. A blank may separate a day from a time. -/
def scalar : Reader Value := do
  let first ← takeAll isScalarChar
  let rest ← get
  let second :=
    if isDay first ∧ rest.head? = some ' ' ∧ rest[1]?.any Char.isDigit then
      ' ' :: (rest.drop 1).takeWhile isScalarChar
    else []
  set (rest.drop second.length)
  match Value.ofScalar? (first ++ second) with
  | some v => return v
  | none => failure

def value (depth : Nat) : Reader Value := do
  match ← peek?, depth with
  | some '\x22', _ => .string <$> quoted '\x22' true
  | some '\x27', _ => .string <$> quoted '\x27' true
  | some '[', depth + 1 => do
    expect ['[']
    .array <$> items (value depth) (← get).length
  | some '\x7b', depth + 1 => do
    expect ['\x7b']
    .table .inline <$> members (value depth) [] (← get).length
  | _, _ => scalar

/-! ### Lines -/

/-- A table under construction, and the path of the header that applies. -/
structure Draft where
  table : Table := []
  header : List Text := []

def header : Reader (List Text × Text) := do
  gap
  key

def line (d : Draft) : Reader Draft := do
  let changed : Option Draft ←
    if ← accept ['[', '['] then do
      let (path, k) ← header
      expect [']', ']']
      pure ((Table.openItem path k d.table).map (⟨·, path ++ [k]⟩))
    else if ← accept ['['] then do
      let (path, k) ← header
      expect [']']
      pure ((Table.openTable path k d.table).map (⟨·, path ++ [k]⟩))
    else do
      let (path, k) ← key
      expect ['=']
      gap
      let v ← value depthLimit
      let add := Table.within false (Table.add path k v) d.header .header
      pure ((add d.table).map (⟨·, d.header⟩))
  match changed with
  | some d => return d
  | none => failure

/-- The lines of a document up to its end. The number bounds them. -/
def lines (d : Draft) : Nat → Reader Table
  | 0 => failure
  | n + 1 => do
    anyLayout
    if (← get).isEmpty then return d.table
    let d ← line d
    gap
    comment
    if (← get).isEmpty then return d.table
    if ← acceptBreak then lines d n else failure

end Reader

/-- Reads a document, which may begin with a byte order mark. -/
def read? (t : Text) : Option Table := do
  let t := if t.head? = some '\ufeff' then t.drop 1 else t
  let (table, _) ← (Reader.lines {} (t.length + 1)).run t
  return table

end ModalEdit.Toml
