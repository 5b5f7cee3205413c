import ModalEdit.Proofs.KeyTables
import ModalEdit.Proofs.Travel

/-! How the command of an operator is typed: a count, a register, the operator, a count of its own,
and what it acts on. Each key but the last asks for more, and the last one completes the command.
Counts stop at the highest one with every digit, and so does the product of the two; that comes to
the same as if it was cut only in the end. -/
namespace ModalEdit

namespace KeyPress

variable {k : KeyPress} {c : Char}

theorem isEscape_of_plainChar? (plain : k.plainChar? = some c) : k.isEscape = false := by
  obtain ⟨code, ctrl, _⟩ := plainChar?_eq_some_iff.mp plain
  simp [isEscape, code, isCtrl, ctrl]

theorem Gives.isEscape (given : k.Gives c) : k.isEscape = false := by
  rcases given with plain | named
  · exact isEscape_of_plainChar? (plainChar?_eq_some_iff.mpr plain)
  · obtain ⟨code, mods⟩ := k
    cases code with
    | enter | tab => rfl
    | _ => simp at named

/-- The keys type a text. -/
def Types (keys : List KeyPress) (t : Text) : Prop := keys.map plainChar? = t.map some

theorem types_nil {keys : List KeyPress} : Types keys [] ↔ keys = [] := by
  simp [Types]

theorem types_cons {keys : List KeyPress} {t : Text} :
    Types keys (c :: t) ↔ ∃ k rest, keys = k :: rest ∧ k.plainChar? = some c ∧ Types rest t := by
  simp only [Types, List.map_cons, List.map_eq_cons_iff]

theorem types_append {keys : List KeyPress} {t u : Text} (types : Types keys (t ++ u)) :
    ∃ first last, keys = first ++ last ∧ Types first t ∧ Types last u := by
  simpa only [Types, List.map_append, List.map_eq_append_iff] using types

end KeyPress

/-! ### Counts -/

namespace Text

/-- Is the text a count as it is written? A zero in front is no count. -/
structure IsNumeral (t : Text) : Prop where
  digits : ∀ c ∈ t, c.isDigit = true
  front : t.head? ≠ some '0'

/-- The number that a written count stands for. No count stands for one. -/
def number (t : Text) : Nat := if t = [] then 1 else Nat.ofDigitChars 10 t 0

theorem le_ofDigitChars (t : Text) (n : Nat) : n ≤ Nat.ofDigitChars 10 t n := by
  induction t generalizing n with
  | nil => exact Nat.le_refl _
  | cons c t ih =>
    rw [Nat.ofDigitChars_cons]
    have := ih (10 * n + (c.toNat - '0'.toNat))
    omega

theorem digit_pos {c : Char} (digit : c.isDigit = true) (nonzero : c ≠ '0') :
    0 < c.toNat - '0'.toNat := by
  have bounds : 48 ≤ c.toNat ∧ c.toNat ≤ 57 := by
    simpa [Char.isDigit, Char.le_def, UInt32.le_iff_toNat_le] using digit
  have other : c.toNat ≠ 48 := fun same => nonzero (Char.toNat_inj.mp same)
  have zero : '0'.toNat = 48 := rfl
  omega

theorem IsNumeral.number_pos {t : Text} (numeral : t.IsNumeral) : 0 < t.number := by
  cases t with
  | nil => exact Nat.one_pos
  | cons c t =>
    have first := digit_pos (numeral.digits c List.mem_cons_self) (by simpa using numeral.front)
    have grown := le_ofDigitChars t (10 * 0 + (c.toNat - '0'.toNat))
    rw [number, if_neg (List.cons_ne_nil c t), Nat.ofDigitChars_cons]
    omega

end Text

/-- One more digit, when the number so far has been cut to the highest count. -/
theorem extendCount?_min (n digit : Nat) :
    extendCount? (some (min n maxCount)) digit = some (min (10 * n + digit) maxCount) := by
  have cut : min (min n maxCount * 10 + digit) maxCount = min (10 * n + digit) maxCount := by
    have : 0 < maxCount := by decide
    omega
  simp [extendCount?, cut]

/-- Cutting the factors changes nothing if the product is cut as well. -/
theorem min_mul_min {a b : Nat} (ha : 0 < a) (hb : 0 < b) (limit : Nat) :
    min (min a limit * min b limit) limit = min (a * b) limit := by
  rcases Nat.le_total a limit with small | large
  · rcases Nat.le_total b limit with small' | large'
    · rw [Nat.min_eq_left small, Nat.min_eq_left small']
    · have := Nat.le_mul_of_pos_left limit ha
      have := Nat.le_mul_of_pos_left b ha
      rw [Nat.min_eq_left small, Nat.min_eq_right large']
      omega
  · have first := Nat.le_mul_of_pos_right a hb
    rw [Nat.min_eq_right large, Nat.min_eq_right (Nat.le_trans large first)]
    rcases Nat.eq_zero_or_pos limit with rfl | some
    · simp
    · exact Nat.min_eq_right (Nat.le_mul_of_pos_right limit (by omega))

/-! ### Spelling -/

/-- What may be typed ahead of an operator: a count, and the name of a register on either side of
it. -/
inductive OperatorFront : Text → Text → Option RegisterName → Prop where
  | unnamed (n : Text) : OperatorFront n n none
  | namedLast (n : Text) : (c, name) ∈ registerChars →
      OperatorFront (n ++ ['\x22', c]) n (some name)
  | namedFirst (n : Text) : (c, name) ∈ registerChars →
      OperatorFront ('\x22' :: c :: n) n (some name)

/-- The keys that tell an operator what to act on, after the count `n` of its own. After a count
a zero is one more digit of it. -/
inductive TargetKeys (op : Operator) (n : Text) : List KeyPress → Target → Prop where
  | lines {k : KeyPress} {c : Char} : k.plainChar? = some c → (c, op) ∈ operatorChars →
      TargetKeys op n [k] .lines
  | motion {k : KeyPress} {c : Char} {m : Motion} : k.plainChar? = some c →
      (c, m) ∈ motionChars → (c = '0' → n = []) → TargetKeys op n [k] (.motion m)
  | motionKey {k : KeyPress} {m : Motion} : k.isCtrl = false → (k.code, m) ∈ motionKeys →
      TargetKeys op n [k] (.motion m)
  | backspace {k : KeyPress} : k.isCtrl = false → k.code = .backspace →
      TargetKeys op n [k] (.motion .left)
  | afterG {k k' : KeyPress} {c : Char} {m : Motion} : k.plainChar? = some 'g' → k'.Gives c →
      (c, m) ∈ motionCharsAfterG → TargetKeys op n [k, k'] (.motion m)
  | find {k k' : KeyPress} {c sought : Char} {forward till : Bool} : k.plainChar? = some c →
      (c, forward, till) ∈ findChars → k'.Gives sought → sought ≠ '\n' →
      TargetKeys op n [k, k'] (.motion (.find ⟨sought, forward, till⟩))
  | object {k k' : KeyPress} {c c' : Char} {inner : Bool} {kind : TextObject.Kind} :
      k.plainChar? = some c → (c, inner) ∈ [('i', true), ('a', false)] → k'.Gives c' →
      (c', kind) ∈ objectChars → TargetKeys op n [k, k'] (.object ⟨kind, inner⟩)

/-- Keys that stand for an operator with what it acts on. -/
def shorthands : List (Char × Text) :=
  [('x', ['d', 'l']), ('X', ['d', 'h']), ('D', ['d', '$']), ('C', ['c', '$']), ('s', ['c', 'l']),
    ('S', ['c', 'c']), ('Y', ['y', 'y'])]

namespace Pending

open KeyPress (Types)

/-- Each of the keys asks for more. -/
inductive Gathers (m : Mode) : Pending → List KeyPress → Pending → Prop where
  | done (p : Pending) : Gathers m p [] p
  | next {p : Pending} : p.press m k = .incomplete q → Gathers m q keys r →
      Gathers m p (k :: keys) r

/-- Each of the keys but the last asks for more, and the last completes the command. -/
inductive Completes (m : Mode) : Pending → List KeyPress → Command → Prop where
  | last {p : Pending} {k : KeyPress} : p.press m k = .complete command →
      Completes m p [k] command
  | next {p q : Pending} {k : KeyPress} : p.press m k = .incomplete q → Completes m q keys command →
      Completes m p (k :: keys) command

variable {p q r : Pending} {m : Mode} {k : KeyPress} {keys : List KeyPress} {c : Char} {t : Text}

theorem Gathers.append (first : Gathers m p keys q) (last : Gathers m q keys' r) :
    Gathers m p (keys ++ keys') r := by
  induction first with
  | done => exact last
  | next asks _ ih => exact .next asks (ih last)

theorem Gathers.one (asks : p.press m k = .incomplete q) : Gathers m p [k] q := .next asks (.done q)

theorem Gathers.completes (first : Gathers m p keys q) (last : Completes m q keys' command) :
    Completes m p (keys ++ keys') command := by
  induction first with
  | done => exact last
  | next asks _ ih => exact .next asks (ih last)

theorem press_char (mode : m ≠ .insert) (free : p.awaited? = none)
    (plain : k.plainChar? = some c) : p.press m k = p.commandChar m c := by
  obtain ⟨code, ctrl, alt⟩ := KeyPress.plainChar?_eq_some_iff.mp plain
  have stays := KeyPress.isEscape_of_plainChar? plain
  cases m with
  | insert => exact absurd rfl mode
  | _ => simp [press, pressCommand, stays, free, KeyPress.isCtrl, ctrl, code, alt]

theorem press_awaited (mode : m ≠ .insert) (awaited : p.awaited? = some a)
    (stays : k.isEscape = false) : p.press m k = supply { p with awaited? := none } m a k := by
  cases m with
  | insert => exact absurd rfl mode
  | _ => simp [press, pressCommand, stays, awaited]

/-! ### Digits -/

/-- The count that a digit would add to. -/
def slot? (p : Pending) : Option Nat :=
  match p.operator? with
  | some o => o.count?
  | none => p.count?

def withSlot (p : Pending) (n : Nat) : Pending :=
  match p.operator? with
  | some o => { p with operator? := some { o with count? := some n } }
  | none => { p with count? := some n }

/-- With a written count in the place where digits go. -/
def withNumeral (p : Pending) (t : Text) : Pending :=
  if t = [] then p else p.withSlot (min t.number maxCount)

theorem digit?_eq (p : Pending) (c : Char) :
    p.digit? c = ((digitValue? c).bind (extendCount? p.slot?)).map p.withSlot := by
  obtain ⟨count?, register?, operator?, awaited?⟩ := p
  simp only [digit?, slot?]
  cases digitValue? c with
  | none => rfl
  | some d =>
    cases operator? with
    | none => cases more : extendCount? count? d <;> simp [more, withSlot]
    | some o => cases more : extendCount? o.count? d <;> simp [more, withSlot]

theorem withSlot_awaited? (p : Pending) (n : Nat) : (p.withSlot n).awaited? = p.awaited? := by
  unfold withSlot
  split <;> rfl

theorem withSlot_slot? (p : Pending) (n : Nat) : (p.withSlot n).slot? = some n := by
  obtain ⟨count?, register?, operator?, awaited?⟩ := p
  cases operator? <;> rfl

theorem withSlot_withSlot (p : Pending) (n n' : Nat) :
    (p.withSlot n).withSlot n' = p.withSlot n' := by
  obtain ⟨count?, register?, operator?, awaited?⟩ := p
  cases operator? <;> rfl

theorem withSlot_of_slot? (slot : p.slot? = some n) : p.withSlot n = p := by
  obtain ⟨count?, register?, operator?, awaited?⟩ := p
  cases operator? with
  | none =>
    cases slot
    rfl
  | some o =>
    obtain ⟨op, count?⟩ := o
    cases slot
    rfl

theorem press_digit (mode : m ≠ .insert) (free : p.awaited? = none)
    (plain : k.plainChar? = some c) (digit : c.isDigit = true)
    (more : extendCount? p.slot? (c.toNat - '0'.toNat) = some n) :
    p.press m k = .incomplete (p.withSlot n) := by
  have value : digitValue? c = some (c.toNat - '0'.toNat) := if_pos digit
  have extended : p.digit? c = some (p.withSlot n) := by
    rw [digit?_eq, value, Option.bind_some, more, Option.map_some]
  rw [press_char mode free plain]
  simp only [commandChar, extended]

theorem gathers_digits (mode : m ≠ .insert) (free : p.awaited? = none)
    (slot : p.slot? = some (min n maxCount)) (digits : ∀ c ∈ t, c.isDigit = true)
    (types : Types keys t) :
    Gathers m p keys (p.withSlot (min (Nat.ofDigitChars 10 t n) maxCount)) := by
  induction t generalizing p keys n with
  | nil =>
    rw [KeyPress.types_nil.mp types, Nat.ofDigitChars_nil, withSlot_of_slot? slot]
    exact .done p
  | cons c t ih =>
    obtain ⟨k, rest, rfl, plain, types⟩ := KeyPress.types_cons.mp types
    obtain ⟨digit, digits⟩ := List.forall_mem_cons.mp digits
    have asks := press_digit mode free plain digit
      (by rw [slot]; exact extendCount?_min n (c.toNat - '0'.toNat))
    have others := ih (n := 10 * n + (c.toNat - '0'.toNat)) ((p.withSlot_awaited? _).trans free)
      (p.withSlot_slot? _) digits types
    rw [withSlot_withSlot] at others
    exact .next asks others

/-- A written count goes where its first digit goes. -/
theorem gathers_numeral (mode : m ≠ .insert) (free : p.awaited? = none) (slot : p.slot? = none)
    (numeral : t.IsNumeral) (types : Types keys t) : Gathers m p keys (p.withNumeral t) := by
  cases t with
  | nil =>
    rw [KeyPress.types_nil.mp types]
    exact .done p
  | cons c t =>
    obtain ⟨k, rest, rfl, plain, types⟩ := KeyPress.types_cons.mp types
    obtain ⟨digit, digits⟩ := List.forall_mem_cons.mp numeral.digits
    have nonzero := Text.digit_pos digit (by simpa using numeral.front)
    have first : extendCount? p.slot? (c.toNat - '0'.toNat) =
        some (min (10 * 0 + (c.toNat - '0'.toNat)) maxCount) := by
      rw [slot, extendCount?, if_neg (fun both => Nat.ne_of_gt nonzero both.2)]
      simp
    have asks := press_digit mode free plain digit first
    have others := gathers_digits (n := 10 * 0 + (c.toNat - '0'.toNat)) mode
      ((p.withSlot_awaited? _).trans free) (p.withSlot_slot? _) digits types
    rw [withSlot_withSlot] at others
    rw [withNumeral, if_neg (List.cons_ne_nil c t), Text.number, if_neg (List.cons_ne_nil c t),
      Nat.ofDigitChars_cons]
    exact .next asks others

/-- What the keys ahead of an operator leave to be remembered. -/
def ahead (t : Text) (name? : Option RegisterName) : Pending :=
  { ({} : Pending).withNumeral t with register? := name? }

theorem ahead_eq (t : Text) (name? : Option RegisterName) :
    ahead t name? = ({ register? := name? } : Pending).withNumeral t := by
  simp only [ahead, withNumeral]
  split <;> rfl

/-- The count of a written count that may be missing. -/
theorem numeral_getD (t : Text) :
    (if t = [] then none else some (min t.number maxCount)).getD 1 = min t.number maxCount := by
  split
  · rename_i empty
    rw [empty]
    rfl
  · rfl

theorem ahead_count? (t : Text) (name? : Option RegisterName) :
    (ahead t name?).count? = if t = [] then none else some (min t.number maxCount) := by
  simp only [ahead, withNumeral]
  split <;> rfl

theorem ahead_free (t : Text) (name? : Option RegisterName) :
    (ahead t name?).awaited? = none ∧ (ahead t name?).operator? = none := by
  simp only [ahead, withNumeral]
  split <;> exact ⟨rfl, rfl⟩

theorem ahead_count (numeral : t.IsNumeral) (name? : Option RegisterName) :
    (ahead t name?).count = min t.number maxCount := by
  have idle := (ahead_free t name?).2
  have first := numeral.number_pos
  have : 0 < maxCount := by decide
  simp only [count, idle, Option.bind_none, Option.getD_none, ahead_count?, numeral_getD]
  omega

theorem gathers_name (free : p.awaited? = none) (idle : p.operator? = none)
    (types : Types keys ['\x22', c]) (named : (c, name) ∈ registerChars) :
    Gathers .normal p keys { p with register? := some name } := by
  obtain ⟨k, rest, rfl, quote, types⟩ := KeyPress.types_cons.mp types
  obtain ⟨k', rest, rfl, plain, types⟩ := KeyPress.types_cons.mp types
  obtain rfl := KeyPress.types_nil.mp types
  have asks : p.press .normal k = .incomplete { p with awaited? := some .registerName } := by
    rw [press_char (m := .normal) nofun free quote]
    obtain ⟨count?, register?, operator?, awaited?⟩ := p
    cases idle
    rfl
  have given : Pending.press { p with awaited? := some .registerName } .normal k' =
      .incomplete { p with register? := some name } := by
    rw [press_awaited (m := .normal) nofun rfl (KeyPress.isEscape_of_plainChar? plain), supply,
      plain, Option.bind_some, RegisterName.ofChar?_eq_some_iff.mpr named]
    simp [free]
  exact .next asks (.one given)

end Pending

open KeyPress (Types)
open Pending (Gathers Completes)

variable {p : Pending} {k : KeyPress} {keys : List KeyPress} {c : Char} {t n : Text}

theorem OperatorFront.gathers (front : OperatorFront t n name?) (numeral : n.IsNumeral)
    (types : Types keys t) : Gathers .normal {} keys (.ahead n name?) := by
  have counted {keys : List KeyPress} (name? : Option RegisterName) (types : Types keys n) :
      Gathers .normal { register? := name? } keys (.ahead n name?) := by
    rw [Pending.ahead_eq]
    exact Pending.gathers_numeral nofun rfl rfl numeral types
  cases front with
  | unnamed => exact counted none types
  | namedLast _ named =>
    obtain ⟨first, last, rfl, count, name⟩ := KeyPress.types_append types
    obtain ⟨free, idle⟩ := Pending.ahead_free n none
    exact (counted none count).append (Pending.gathers_name free idle name named)
  | @namedFirst c _ _ named =>
    obtain ⟨first, last, rfl, name, count⟩ := KeyPress.types_append (t := ['\x22', c]) types
    exact (Pending.gathers_name rfl rfl name named).append (counted _ count)

theorem digitValue?_of_motion (named : (c, motion) ∈ motionChars) (nonzero : c ≠ '0') :
    digitValue? c = none := by
  have all : ∀ entry ∈ motionChars, entry.1 ≠ '0' → digitValue? entry.1 = none := by decide
  exact all (c, motion) named nonzero

theorem Pending.digit?_of_motion (named : (c, motion) ∈ motionChars)
    (zero : c = '0' → p.slot? = none) : p.digit? c = none := by
  rw [Pending.digit?_eq]
  by_cases bare : c = '0'
  · rw [zero bare, bare]
    rfl
  · rw [digitValue?_of_motion named bare]
    rfl

/-- A key that asks for another one, and the answer to it. -/
theorem Pending.completes_of_await {m : Mode} (outside : m ≠ .insert)
    (asks : p.press m k = p.await a) (free : p.awaited? = none) (stays : k'.isEscape = false)
    (answered : p.supply m a k' = .complete command) : Completes m p [k, k'] command := by
  have again : ({ p with awaited? := none } : Pending) = p := by rw [← free]
  refine .next asks (.last ?_)
  rw [Pending.press_awaited outside rfl stays]
  exact again ▸ answered

theorem Pending.press_motionKey {mode : Mode} (outside : mode ≠ .insert) (free : p.awaited? = none)
    (ctrl : k.isCtrl = false) (named : (k.code, m) ∈ motionKeys) : p.press mode k = p.move m := by
  rw [← Motion.ofKey?_eq_some_iff] at named
  obtain ⟨code, mods⟩ := k
  cases mode with
  | insert => exact absurd rfl outside
  | _ =>
    cases code with
    | left | right | up | down | home | endKey =>
      cases named
      simp only [Pending.press, Pending.pressCommand, ctrl, free]
      rfl
    | _ => cases named

/-- The keys of a motion complete the command that the motion makes, with an operator or without. -/
theorem TargetKeys.completes_move {mode : Mode} {m : Motion}
    (aims : TargetKeys op n keys (.motion m)) (outside : mode ≠ .insert) (free : p.awaited? = none)
    (uncounted : n = [] → p.slot? = none) (moves : p.move m = .complete command) :
    Completes mode p keys command := by
  cases aims with
  | @motion k c _ plain named zero =>
    have noDigit := Pending.digit?_of_motion (p := p) named (fun bare => uncounted (zero bare))
    refine .last ?_
    rw [Pending.press_char outside free plain]
    simp only [Pending.commandChar, noDigit, Motion.ofChar?_eq_some_iff.mpr named]
    exact moves
  | motionKey ctrl named => exact .last ((Pending.press_motionKey outside free ctrl named).trans moves)
  | @backspace k ctrl code =>
    refine .last ?_
    cases mode with
    | insert => exact absurd rfl outside
    | _ =>
      simp only [Pending.press, Pending.pressCommand, KeyPress.isEscape, ctrl, code, free]
      exact moves
  | @afterG k k' c _ plain given member =>
    have stays := given.isEscape
    refine Pending.completes_of_await outside (a := .afterG) ?_ free stays ?_
    · rw [Pending.press_char outside free plain]
      rfl
    · simp only [motionCharsAfterG, List.mem_cons, Prod.mk.injEq, List.not_mem_nil,
        or_false] at member
      rcases member with ⟨rfl, rfl⟩ | ⟨rfl, rfl⟩ | ⟨rfl, rfl⟩
      all_goals
        rw [Pending.supply, KeyPress.givenChar?_eq_some_iff.mpr given]
        exact moves
  | @find k k' c sought forward till plain member given visible =>
    have stays := given.isEscape
    refine Pending.completes_of_await outside (a := .findChar forward till) ?_ free stays ?_
    · rw [Pending.press_char outside free plain]
      simp only [findChars, List.mem_cons, Prod.mk.injEq, List.not_mem_nil, or_false] at member
      rcases member with ⟨rfl, rfl, rfl⟩ | ⟨rfl, rfl, rfl⟩ | ⟨rfl, rfl, rfl⟩ | ⟨rfl, rfl, rfl⟩
      all_goals rfl
    · rw [Pending.supply, KeyPress.givenChar?_eq_some_iff.mpr given]
      exact (if_neg visible).trans moves

/-- The last of the keys applies the operator that waits. -/
theorem TargetKeys.completes (aims : TargetKeys op n keys target)
    (operator : p.operator? = some ⟨op, n?⟩) (free : p.awaited? = none)
    (uncounted : n = [] → n? = none) :
    Completes .normal p keys (.edit (.operate op target p.register?) p.count) := by
  obtain ⟨count?, register?, operator?, awaited?⟩ := p
  cases operator
  cases free
  cases target with
  | motion m => exact aims.completes_move nofun rfl uncounted rfl
  | lines =>
    cases aims with
    | lines plain own =>
      refine .last ?_
      rw [Pending.press_char (m := .normal) nofun rfl plain, ← Operator.toChar_eq_iff.mpr own]
      cases op <;> rfl
  | object o =>
    cases aims with
    | @object k k' c c' inner kind plain member given named =>
      have stays := given.isEscape
      refine Pending.completes_of_await (m := .normal) nofun (a := .objectName inner) ?_ rfl
        stays ?_
      · rw [Pending.press_char (m := .normal) nofun rfl plain]
        simp only [List.mem_cons, Prod.mk.injEq, List.not_mem_nil, or_false] at member
        rcases member with ⟨rfl, rfl⟩ | ⟨rfl, rfl⟩
        · cases op <;> rfl
        · cases op <;> rfl
      · rw [Pending.supply, KeyPress.givenChar?_eq_some_iff.mpr given, Option.bind_some,
          TextObject.Kind.ofChar?_eq_some_iff.mpr named]
        rfl

/-- An operator that waits behind a count and a register. -/
theorem Pending.press_operator (free : p.awaited? = none) (idle : p.operator? = none)
    (plain : k.plainChar? = some op.toChar) :
    p.press .normal k = .incomplete { p with operator? := some { op := op } } := by
  rw [Pending.press_char (m := .normal) nofun free plain]
  obtain ⟨count?, register?, operator?, awaited?⟩ := p
  cases idle
  cases op <;> rfl

/-- An operator and a motion that one character stands for, with nothing typed ahead of them. -/
theorem motion_operator_completes (operator : k.plainChar? = some op.toChar) {k' : KeyPress}
    (plain : k'.plainChar? = some c) (named : (c, motion) ∈ motionChars) (other : c ≠ '0') :
    Completes .normal {} [k, k'] (.edit (.operate op (.motion motion) none) 1) := by
  have aims : TargetKeys op [] [k'] (.motion motion) :=
    .motion plain named fun zero => absurd zero other
  exact .next (Pending.press_operator rfl rfl operator) (aims.completes rfl rfl fun _ => rfl)

theorem operator_completes (front : OperatorFront t n name?) (numeral : n.IsNumeral)
    (types : Types keys t) (operator : k.plainChar? = some op.toChar) {n' : Text}
    (numeral' : n'.IsNumeral) (types' : Types own n') (aims : TargetKeys op n' aim target) :
    Completes .normal {} (keys ++ k :: own ++ aim)
      (.edit (.operate op target name?) (min (n.number * n'.number) maxCount)) := by
  let p : Pending := { Pending.ahead n name? with operator? := some { op := op } }
  let after := if n' = [] then none else some (min n'.number maxCount)
  obtain ⟨free, idle⟩ := Pending.ahead_free n name?
  have counted : p.withNumeral n' = { p with operator? := some ⟨op, after⟩ } := by
    simp only [Pending.withNumeral, Pending.withSlot, after, p]
    split <;> rfl
  have gathered : Gathers .normal {} (keys ++ k :: own) (p.withNumeral n') :=
    (front.gathers numeral types).append (.next (Pending.press_operator free idle operator)
      (Pending.gathers_numeral nofun free rfl numeral' types'))
  have count : (p.withNumeral n').count = min (n.number * n'.number) maxCount := by
    have product := min_mul_min numeral.number_pos numeral'.number_pos maxCount
    have first : p.count?.getD 1 = min n.number maxCount :=
      (congrArg (·.getD 1) (Pending.ahead_count? n name?)).trans (Pending.numeral_getD n)
    have some := Nat.mul_pos numeral.number_pos numeral'.number_pos
    have : 0 < maxCount := by decide
    simp only [counted, Pending.count, Option.bind_some, after, Pending.numeral_getD]
    rw [first, product]
    omega
  rw [counted] at gathered count
  have applied := aims.completes (p := { p with operator? := some ⟨op, after⟩ }) rfl free
    (fun empty => if_pos empty)
  rw [count] at applied
  exact gathered.completes applied

theorem shorthand_completes (member : (short, long) ∈ shorthands)
    (plain : k.plainChar? = some short) (types : Types keys long) (free : p.awaited? = none)
    (idle : p.operator? = none) :
    ∃ c, Completes .normal p [k] c ∧ Completes .normal p keys c := by
  obtain ⟨op, target, last, rfl, applies, aims⟩ : ∃ op target last, long = [op.toChar, last] ∧
      p.commandChar .normal short = p.operate op target ∧
      ∀ {k : KeyPress}, k.plainChar? = some last → TargetKeys op [] [k] target := by
    obtain ⟨count?, register?, operator?, awaited?⟩ := p
    cases idle
    simp only [shorthands, List.mem_cons, Prod.mk.injEq, List.not_mem_nil, or_false] at member
    rcases member with ⟨rfl, rfl⟩ | ⟨rfl, rfl⟩ | ⟨rfl, rfl⟩ | ⟨rfl, rfl⟩ | ⟨rfl, rfl⟩ | ⟨rfl, rfl⟩ |
      ⟨rfl, rfl⟩
    · exact ⟨.delete, _, 'l', rfl, rfl, fun plain => .motion plain (by decide) nofun⟩
    · exact ⟨.delete, _, 'h', rfl, rfl, fun plain => .motion plain (by decide) nofun⟩
    · exact ⟨.delete, _, '$', rfl, rfl, fun plain => .motion plain (by decide) nofun⟩
    · exact ⟨.change, _, '$', rfl, rfl, fun plain => .motion plain (by decide) nofun⟩
    · exact ⟨.change, _, 'l', rfl, rfl, fun plain => .motion plain (by decide) nofun⟩
    · exact ⟨.change, _, 'c', rfl, rfl, fun plain => .lines plain (by decide)⟩
    · exact ⟨.yank, _, 'y', rfl, rfl, fun plain => .lines plain (by decide)⟩
  obtain ⟨k₁, rest, rfl, operator, types⟩ := KeyPress.types_cons.mp types
  obtain ⟨k₂, rest, rfl, aim, types⟩ := KeyPress.types_cons.mp types
  obtain rfl := KeyPress.types_nil.mp types
  have typedOut := (aims aim).completes (p := { p with operator? := some { op := op } }) rfl free
    (fun _ => rfl)
  have count : Pending.count { p with operator? := some { op := op } } = p.count := by
    simp [Pending.count, idle]
  rw [count] at typedOut
  refine ⟨_, .last ?_, .next (Pending.press_operator free idle operator) typedOut⟩
  rw [Pending.press_char (m := .normal) nofun free plain, applies]
  rfl

namespace Session

variable {s : Session}

theorem pressAll_of_completes (b : RegisterBank) (completes : Completes m p keys command)
    (mode : s.editor.mode = m) (typed : s.pending = p) :
    s.pressAll b keys = ((s.dropPending.perform b command).1,
      List.replicate (keys.length - 1) .awaitingMore ++
        [.performed command (s.dropPending.perform b command).2]) := by
  induction completes generalizing s with
  | @last c p k reading =>
    rw [← mode, ← typed] at reading
    simp only [pressAll, press, reading]
    rfl
  | @next keys c p q k asks rest ih =>
    have others := ih (s := { s with pending := q }) mode rfl
    obtain ⟨k', keys, rfl⟩ : ∃ k' keys', keys = k' :: keys' := by
      cases rest <;> exact ⟨_, _, rfl⟩
    rw [← mode, ← typed] at asks
    have pressed : s.press b k = (({ s with pending := q }, b), .awaitingMore) := by
      simp only [press, asks]
      rfl
    rw [pressAll, pressed]
    dsimp only
    rw [others]
    rfl

/-- The keys together perform a command. Each but the last asks for more, and in the end nothing
of a command is typed. -/
def Performs (s : Session) (b : RegisterBank) (keys : List KeyPress) (c : Command) : Prop :=
  s.pressAll b keys = ((s.perform b c).1,
    List.replicate (keys.length - 1) .awaitingMore ++ [.performed c (s.perform b c).2]) ∧
  (s.pressAll b keys).1.1.pending = {}

theorem performs_of_completes (ready : s.Ready) (b : RegisterBank)
    (completes : Completes .normal {} keys command) : s.Performs b keys command := by
  have all := pressAll_of_completes b completes ready.1 ready.2
  have nothing : s.dropPending = s := by rw [dropPending, ← ready.2]
  rw [nothing] at all
  refine ⟨all, ?_⟩
  rw [all]
  exact ready.2

/-- A count, a register, an operator, another count and a target, typed one after the other,
apply the operator with the product of the counts, cut to the highest count. Keys that stand for
an operator with its target do what the keys do that they stand for. -/
theorem operator_keys_apply (ready : s.Ready) (b : RegisterBank) (front : OperatorFront t n name?)
    (numeral : n.IsNumeral) (types : Types keys t) :
    (∀ {op k c n' own aim target}, k.plainChar? = some c → (c, op) ∈ operatorChars →
      Text.IsNumeral n' → Types own n' → TargetKeys op n' aim target →
      s.Performs b (keys ++ k :: own ++ aim)
        (.edit (.operate op target name?) (min (n.number * n'.number) 999999))) ∧
    ∀ {short long k full}, (short, long) ∈ shorthands → k.plainChar? = some short →
      Types full long → ∃ c, s.Performs b (keys ++ [k]) c ∧ s.Performs b (keys ++ full) c := by
  constructor
  · intro op k c n' own aim target plain named numeral' types' aims
    have operator := plain.trans (congrArg some (Operator.toChar_eq_iff.mpr named).symm)
    exact performs_of_completes ready b
      (operator_completes front numeral types operator numeral' types' aims)
  · intro short long k full member plain types'
    obtain ⟨free, idle⟩ := Pending.ahead_free n name?
    obtain ⟨c, brief, spelled⟩ := shorthand_completes member plain types' free idle
    have gathered := front.gathers numeral types
    exact ⟨c, performs_of_completes ready b (gathered.completes brief),
      performs_of_completes ready b (gathered.completes spelled)⟩

/-- A count above the highest one, a register that is added to, and the search of a tab. -/
theorem operator_keys_apply_highest_count :
    let s := ofText ['a', '\t', 'b'] .normal 0 100
    let t := ['1', '0', '0', '0', '0', '0', '0', '\x22', 'A']
    let keys := t.map KeyPress.char
    let aim : List KeyPress := [.char 'f', ⟨.tab, {}⟩]
    s.Ready ∧ OperatorFront t ['1', '0', '0', '0', '0', '0', '0'] (some (.letter 0 true)) ∧
      Types keys t ∧ Types [.char '2', .char '0'] ['2', '0'] ∧
      TargetKeys .change ['2', '0'] aim (.motion (.find ⟨'\t', true, false⟩)) ∧
      s.Performs {} (keys ++ .char 'c' :: [.char '2', .char '0'] ++ aim)
        (.edit (.operate .change (.motion (.find ⟨'\t', true, false⟩)) (some (.letter 0 true)))
          999999) ∧
      ∃ c, s.Performs {} (keys ++ [.char 'S']) c ∧
        s.Performs {} (keys ++ [.char 'c', .char 'c']) c := by
  intro s t keys aim
  have ready : s.Ready := ⟨rfl, rfl⟩
  have named : ('A', RegisterName.letter 0 true) ∈ registerChars := by decide
  have front : OperatorFront t ['1', '0', '0', '0', '0', '0', '0'] (some (.letter 0 true)) :=
    .namedLast ['1', '0', '0', '0', '0', '0', '0'] named
  have types : Types keys t := rfl
  have own : Types [.char '2', .char '0'] ['2', '0'] := rfl
  have aims : TargetKeys .change ['2', '0'] aim (.motion (.find ⟨'\t', true, false⟩)) :=
    .find rfl List.mem_cons_self (.inr (by decide)) (by decide)
  have product : min (Text.number ['1', '0', '0', '0', '0', '0', '0'] * Text.number ['2', '0'])
      999999 = 999999 := by decide
  have numeral : Text.IsNumeral ['1', '0', '0', '0', '0', '0', '0'] := ⟨by simp, by decide⟩
  have numeral' : Text.IsNumeral ['2', '0'] := ⟨by simp, by decide⟩
  obtain ⟨applies, stands⟩ := operator_keys_apply ready {} front numeral types
  have applied := applies (k := .char 'c') rfl (by decide) numeral' own aims
  rw [product] at applied
  refine ⟨ready, front, types, own, aims, applied, ?_⟩
  have member : ('S', ['c', 'c']) ∈ shorthands := by decide
  exact stands (k := .char 'S') member rfl rfl

end Session

end ModalEdit
