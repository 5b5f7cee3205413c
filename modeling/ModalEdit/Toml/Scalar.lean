import ModalEdit.Toml.Value

/-! The values that are written without quotes: truth values, numbers and dates. -/
namespace ModalEdit.Toml

/-- Digits in groups that are joined by underscores, without the underscores. -/
def ungroup? (isDigit : Char → Bool) : Text → Option Text
  | [] => none
  | [c] => if isDigit c then some [c] else none
  | c :: '_' :: rest => if isDigit c then (ungroup? isDigit rest).map (c :: ·) else none
  | c :: rest => if isDigit c then (ungroup? isDigit rest).map (c :: ·) else none

def digitValue (c : Char) : Nat :=
  if c.isDigit then c.toNat - 48 else c.toLower.toNat - 87

def isDigitIn (base : Nat) (c : Char) : Bool :=
  (c.isDigit || c.isAlpha) && digitValue c < base

def ofDigits (base : Nat) (digits : Text) : Nat :=
  digits.foldl (fun n c => n * base + digitValue c) 0

def natural? (base : Nat) (t : Text) : Option Nat :=
  (ungroup? (isDigitIn base) t).map (ofDigits base)

/-- Digits without a zero in front of another digit. -/
def noLeadingZero? (digits : Text) : Option Text :=
  if digits.length > 1 ∧ digits.head? = some '0' then none else some digits

def decimal? (t : Text) : Option Text := (ungroup? Char.isDigit t).bind noLeadingZero?

/-- A sign that may stand in front, and whether it is negative. -/
def splitSign : Text → Bool × Text
  | '+' :: rest => (false, rest)
  | '-' :: rest => (true, rest)
  | t => (false, t)

/-- An integer that has at most 128 bits. -/
def Value.ofInt (n : Int) : Value :=
  if -Nat.pow 2 127 ≤ n ∧ n < Nat.pow 2 128 then .integer n else .misfit

/-- A natural number after the mark of its base. The mark alone is a numeral without a number. -/
def basedInteger? (base : Nat) (digits : Text) : Option Value :=
  if digits.isEmpty then some .misfit else (natural? base digits).map (.ofInt ·)

/-- Does every underscore stand between two digits, be they of base sixteen? -/
def joinsDigits : Text → Bool
  | c :: '_' :: rest => isDigitIn 16 c && rest.head?.any (isDigitIn 16) && joinsDigits rest
  | _ :: rest => joinsDigits rest
  | [] => true

/-- Has a text the outline of a decimal number in groups? Only its first group has to be one of
decimal digits. -/
def isOutline (t : Text) : Bool :=
  t.head?.any (fun c => c.isDigit && c != '0') && (t.dropWhile Char.isDigit).head? == some '_'
    && joinsDigits t && t.all fun c => c != '.' && c != 'e' && c != 'E'

/-- A decimal number. Its mere outline is a numeral without a number. -/
def decimalInteger? (t : Text) : Option Value :=
  let (negative, unsigned) := splitSign t
  match decimal? unsigned with
  | some digits =>
    let n : Int := ofDigits 10 digits
    some (.ofInt (if negative then -n else n))
  | none => if isOutline unsigned then some .misfit else none

def integer? : Text → Option Value
  | '0' :: 'x' :: rest => basedInteger? 16 rest
  | '0' :: 'o' :: rest => basedInteger? 8 rest
  | '0' :: 'b' :: rest => basedInteger? 2 rest
  | t => decimalInteger? t

/-- Does `digits · 10 ^ exponent` round to a finite number in double precision? -/
def isFinite (digits : Text) (exponent : Int) : Bool :=
  let significant := digits.dropWhile (· == '0')
  let magnitude := significant.length + exponent
  if significant.isEmpty || magnitude ≤ 308 then true
  else if magnitude > 309 then false
  else
    let limit := Nat.pow 2 1024 - Nat.pow 2 970
    ofDigits 10 significant * Nat.pow 10 exponent.toNat < limit * Nat.pow 10 (-exponent).toNat

def exponent? : Text → Option Int
  | [] => some 0
  | mark :: rest => do
    let (negative, digits) := splitSign rest
    let n ← natural? 10 digits
    if mark = 'e' ∨ mark = 'E' then some (if negative then -n else n) else none

/-- A number with a point, an exponent or both. -/
def fraction? (t : Text) : Option Value := do
  let (_, unsigned) := splitSign t
  if unsigned = ['i', 'n', 'f'] ∨ unsigned = ['n', 'a', 'n'] then return .fraction
  let isMark (c : Char) : Bool := c == 'e' || c == 'E'
  let significand := unsigned.takeWhile (!isMark ·)
  let exponent ← exponent? (unsigned.dropWhile (!isMark ·))
  let whole ← decimal? (significand.takeWhile (· != '.'))
  let digits ← match significand.dropWhile (· != '.') with
    | [] => if significand.length < unsigned.length then some [] else none
    | _ :: digits => ungroup? Char.isDigit digits
  return if isFinite (whole ++ digits) (exponent - digits.length) then .fraction else .misfit

def fixed? (width : Nat) (t : Text) : Option Nat :=
  if t.length = width ∧ t.all Char.isDigit then some (ofDigits 10 t) else none

def daysInMonth (year month : Nat) : Nat :=
  let leap := year % 4 = 0 ∧ (year % 100 ≠ 0 ∨ year % 400 = 0)
  if month = 2 then if leap then 29 else 28
  else if month = 4 ∨ month = 6 ∨ month = 9 ∨ month = 11 then 30
  else 31

/-- A day of the calendar: year, month and day, joined by hyphens. -/
def isDay (t : Text) : Bool :=
  match t[4]?, t[7]?, fixed? 4 (t.take 4), fixed? 2 ((t.drop 5).take 2), fixed? 2 (t.drop 8) with
  | some '-', some '-', some year, some month, some day =>
    1 ≤ month && month ≤ 12 && 1 ≤ day && day ≤ daysInMonth year month
  | _, _, _, _, _ => false

def isHourMinute (t : Text) : Bool :=
  match t[2]?, fixed? 2 (t.take 2), fixed? 2 (t.drop 3) with
  | some ':', some hour, some minute => hour < 24 && minute < 60
  | _, _, _ => false

def isSeconds (t : Text) : Bool :=
  (fixed? 2 (t.take 2)).any (· ≤ 60)
    && match t.drop 2 with
      | [] => true
      | point :: digits => point == '.' && !digits.isEmpty && digits.all Char.isDigit

def isTime (t : Text) : Bool :=
  isHourMinute (t.take 5)
    && match t.drop 5 with
      | [] => true
      | colon :: seconds => colon == ':' && isSeconds seconds

def isZonedTime (t : Text) : Bool :=
  let time := t.takeWhile fun c => c.isDigit || c == ':' || c == '.'
  isTime time
    && match t.drop time.length with
      | [] => true
      | [c] => c == 'Z' || c == 'z'
      | sign :: offset => (sign == '+' || sign == '-') && isHourMinute offset

def isDate (t : Text) : Bool :=
  isTime t
    || isDay (t.take 10)
      && match t.drop 10 with
        | [] => true
        | separator :: time => [' ', 'T', 't'].contains separator && isZonedTime time

def Value.ofScalar? (t : Text) : Option Value :=
  if t = ['t', 'r', 'u', 'e'] then some (.boolean true)
  else if t = ['f', 'a', 'l', 's', 'e'] then some (.boolean false)
  else if isDate t then some .date
  else (integer? t).or (fraction? t)

end ModalEdit.Toml
