import ModalEdit.Text.Basic

/-! Classes of characters: what separates words, what makes them, and which characters come
in pairs. White space is the Unicode property White_Space; digits, letters and blanks are
ASCII alone. -/
namespace ModalEdit

/-- The characters with the property White_Space, as closed ranges of code points. -/
def whiteSpaceRanges : List (Nat × Nat) :=
  [(0x09, 0x0D), (0x20, 0x20), (0x85, 0x85), (0xA0, 0xA0), (0x1680, 0x1680), (0x2000, 0x200A),
   (0x2028, 0x2029), (0x202F, 0x202F), (0x205F, 0x205F), (0x3000, 0x3000)]

def isWhiteSpace (c : Char) : Bool :=
  whiteSpaceRanges.any fun r => r.1 ≤ c.toNat && c.toNat ≤ r.2

/-- A blank separates within a line: a space or a tab. -/
def isBlank (c : Char) : Bool := c == ' ' || c == '\t'

/-- An ASCII letter or digit, or the underscore. -/
def isWordChar (c : Char) : Bool := c.isAlphanum || c == '_'

inductive WordStyle where
  /-- A run of word characters, or a run of other visible characters. -/
  | word
  /-- A run of anything but white space. -/
  | bigWord
deriving DecidableEq, Repr

/-- The class of a character. A maximal run of one class is a word or a gap. -/
inductive CharClass where
  | space
  | word
  | punctuation
deriving DecidableEq, Repr

def CharClass.of (style : WordStyle) (c : Char) : CharClass :=
  if isWhiteSpace c then .space
  else if style = .bigWord || isWordChar c then .word
  else .punctuation

structure Bracket where
  opener : Char
  closer : Char
deriving DecidableEq, Repr

inductive Side where
  | opening
  | closing
deriving DecidableEq, Repr

namespace Bracket

/-- The pairs between which the cursor can jump. -/
def jumpPairs : List Bracket := [⟨'(', ')'⟩, ⟨'[', ']'⟩, ⟨'{', '}'⟩]

/-- The pairs that delimit a text object. -/
def objectPairs : List Bracket := jumpPairs ++ [⟨'<', '>'⟩]

def side? (b : Bracket) (c : Char) : Option Side :=
  if c = b.opener then some .opening else if c = b.closer then some .closing else none

def find? (pairs : List Bracket) (c : Char) : Option (Bracket × Side) :=
  pairs.findSome? fun b => (b.side? c).map (b, ·)

theorem side?_eq_some {b : Bracket} (side : b.side? c = some s) :
    match s with
    | .opening => c = b.opener
    | .closing => c = b.closer := by
  unfold side? at side
  split at side
  · cases side
    assumption
  · split at side
    · cases side
      assumption
    · cases side

theorem find?_eq_some (found : find? pairs c = some (b, s)) : b ∈ pairs ∧ b.side? c = some s := by
  obtain ⟨b', member, side⟩ := List.exists_of_findSome?_eq_some found
  obtain ⟨s', side, same⟩ := Option.map_eq_some_iff.mp side
  cases same
  exact ⟨member, side⟩

end Bracket

/-- The characters that quote a stretch of a line: double, single and back quote. -/
def quoteChars : List Char := ['\x22', '\x27', '\x60']

end ModalEdit
