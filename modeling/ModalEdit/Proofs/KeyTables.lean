import ModalEdit.Command.Pending
import Mathlib.Data.List.FinRange

/-! What single characters and keys stand for in a command, each kind in a list of its own. A character
that is not in a list has no meaning of that kind. -/
namespace ModalEdit

/-! ### Presses -/

namespace KeyPress

variable {k : KeyPress} {c : Char}

theorem plainChar?_eq_some_iff :
    k.plainChar? = some c ↔ k.code = .char c ∧ k.mods.ctrl = false ∧ k.mods.alt = false := by
  obtain ⟨code, ctrl, alt, shift⟩ := k
  cases code with
  | char => cases ctrl <;> cases alt <;> simp [plainChar?]
  | _ => simp [plainChar?]

/-- A press gives a character to a command that awaits one. Enter and tab stand for the characters
that they put into a text, whatever is held with them. -/
def Gives (k : KeyPress) (c : Char) : Prop :=
  k.code = .char c ∧ k.mods.ctrl = false ∧ k.mods.alt = false ∨
    (k.code, c) ∈ [(KeyCode.enter, '\n'), (.tab, '\t')]

theorem givenChar?_eq_some_iff : k.givenChar? = some c ↔ k.Gives c := by
  rw [Gives, ← plainChar?_eq_some_iff]
  obtain ⟨code, mods⟩ := k
  cases code with
  | enter | tab => simp [givenChar?, plainChar?, eq_comm]
  | _ => simp [givenChar?, plainChar?]

end KeyPress

/-! ### Operators and registers -/

def operatorChars : List (Char × Operator) := [('d', .delete), ('y', .yank), ('c', .change)]

theorem Operator.toChar_eq_iff {op : Operator} : op.toChar = c ↔ (c, op) ∈ operatorChars := by
  cases op <;> simp [toChar, operatorChars, eq_comm]

/-- An upper case letter names the register of its lower case letter, to add to it. -/
def registerChars : List (Char × RegisterName) :=
  [('\x22', .unnamed), ('+', .clipboard), ('*', .clipboard)] ++
    (List.finRange 26).flatMap fun l : Fin 26 =>
      [(Char.ofNat ('a'.toNat + l.val), .letter l false),
        (Char.ofNat ('A'.toNat + l.val), .letter l true)]

theorem mem_registerChars_letter {l : Fin 26} {append : Bool} :
    (c, .letter l append) ∈ registerChars ↔ c = (RegisterName.letter l append).toChar := by
  cases append <;> simp [registerChars, RegisterName.toChar, eq_comm]

/-- A letter names its own register. -/
theorem RegisterName.toChar_of_ofChar? {l : Fin 26} {append : Bool}
    (named : ofChar? c = some (.letter l append)) : (letter l append).toChar = c := by
  have own (base : Nat) (above : base ≤ c.toNat) : Char.ofNat (base + (c.toNat - base)) = c := by
    rw [Nat.add_sub_cancel' above, Char.ofNat_toNat]
  unfold ofChar? at named
  split at named
  · cases named
  · split at named
    · cases named
    · split at named
      · rename_i lower
        cases named
        exact own 97 lower.1
      · split at named
        · rename_i upper
          cases named
          exact own 65 upper.1
        · cases named

theorem RegisterName.ofChar?_eq_some_iff {name : RegisterName} :
    ofChar? c = some name ↔ (c, name) ∈ registerChars := by
  cases name with
  | unnamed =>
    have shown : (c, unnamed) ∈ registerChars ↔ c = '\x22' := by simp [registerChars]
    rw [shown]
    grind [ofChar?]
  | clipboard =>
    have shown : (c, clipboard) ∈ registerChars ↔ c = '+' ∨ c = '*' := by simp [registerChars]
    rw [shown]
    grind [ofChar?]
  | letter l append =>
    rw [mem_registerChars_letter]
    constructor
    · intro named
      exact (toChar_of_ofChar? named).symm
    · rintro rfl
      exact ofChar?_toChar _

/-! ### Motions -/

def motionChars : List (Char × Motion) :=
  [('h', .left), ('l', .right), (' ', .right), ('j', .down), ('k', .up), ('0', .lineStart),
    ('^', .firstNonBlank), ('$', .lineEnd), ('w', .wordForward .word), ('W', .wordForward .bigWord),
    ('b', .wordBackward .word), ('B', .wordBackward .bigWord), ('e', .wordEnd .word),
    ('E', .wordEnd .bigWord), ('\x7b', .paragraphBackward), ('\x7d', .paragraphForward),
    ('%', .matchPair), ('G', .bufferEnd), (';', .repeatFind), (',', .repeatFindReverse)]

theorem Motion.ofChar?_eq_some_iff {m : Motion} :
    Motion.ofChar? c = some m ↔ (c, m) ∈ motionChars := by
  constructor
  · intro named
    unfold Motion.ofChar? at named
    split at named
    case h_21 => cases named
    all_goals
      cases named
      decide
  · intro member
    have all : ∀ entry ∈ motionChars, Motion.ofChar? entry.1 = some entry.2 := by decide
    exact all (c, m) member

def motionKeys : List (KeyCode × Motion) :=
  [(.left, .left), (.right, .right), (.up, .up), (.down, .down), (.home, .lineStart),
    (.endKey, .lineEnd)]

theorem Motion.ofKey?_eq_some_iff {code : KeyCode} {m : Motion} :
    Motion.ofKey? code = some m ↔ (code, m) ∈ motionKeys := by
  cases code <;> simp [Motion.ofKey?, motionKeys, eq_comm]

/-- The second keys of the motions that begin with a `g`. -/
def motionCharsAfterG : List (Char × Motion) :=
  [('g', .bufferStart), ('e', .wordEndBackward .word), ('E', .wordEndBackward .bigWord)]

/-- The keys of the searches along the line: in which direction they go, and whether they stop ahead of
what they find. -/
def findChars : List (Char × Bool × Bool) :=
  [('f', true, false), ('F', false, false), ('t', true, true), ('T', false, true)]

/-! ### Text objects -/

/-- Either bracket of a pair names it, and two of the pairs have a letter as well. -/
def objectChars : List (Char × TextObject.Kind) :=
  [('w', .word .word), ('W', .word .bigWord), ('\x22', .quote '\x22'), ('\x27', .quote '\x27'),
    ('\x60', .quote '\x60'), ('(', .bracket ⟨'(', ')'⟩), (')', .bracket ⟨'(', ')'⟩),
    ('b', .bracket ⟨'(', ')'⟩), ('[', .bracket ⟨'[', ']'⟩), (']', .bracket ⟨'[', ']'⟩),
    ('\x7b', .bracket ⟨'\x7b', '\x7d'⟩), ('\x7d', .bracket ⟨'\x7b', '\x7d'⟩),
    ('B', .bracket ⟨'\x7b', '\x7d'⟩), ('<', .bracket ⟨'<', '>'⟩), ('>', .bracket ⟨'<', '>'⟩)]

theorem mem_objectChars_bracket {b : Bracket} {s : Side}
    (found : Bracket.find? Bracket.objectPairs c = some (b, s)) : (c, .bracket b) ∈ objectChars := by
  obtain ⟨member, side⟩ := Bracket.find?_eq_some found
  have shown := Bracket.side?_eq_some side
  simp only [Bracket.objectPairs, Bracket.jumpPairs, List.mem_append, List.mem_cons, List.not_mem_nil,
    or_false] at member
  rcases member with (rfl | rfl | rfl) | rfl
  all_goals cases s <;> (cases shown; decide)

theorem TextObject.Kind.ofChar?_eq_some_iff {kind : TextObject.Kind} :
    TextObject.Kind.ofChar? c = some kind ↔ (c, kind) ∈ objectChars := by
  constructor
  · intro named
    unfold ofChar? at named
    split at named
    · rename_i word
      cases named
      simp [objectChars, word]
    · split at named
      · rename_i word
        cases named
        simp [objectChars, word]
      · split at named
        · rename_i quote
          cases named
          simp only [quoteChars, List.mem_cons, List.not_mem_nil, or_false] at quote
          rcases quote with rfl | rfl | rfl <;> decide
        · obtain ⟨⟨b, s⟩, found, rfl⟩ := Option.map_eq_some_iff.mp named
          dsimp only at found ⊢
          split at found
          · rename_i letter
            cases found
            simp [objectChars, letter]
          · split at found
            · rename_i letter
              cases found
              simp [objectChars, letter]
            · exact mem_objectChars_bracket found
  · intro member
    have all : ∀ entry ∈ objectChars, ofChar? entry.1 = some entry.2 := by decide
    exact all (c, kind) member

end ModalEdit
