import ModalEdit.Proofs.Checked.Loops
import ModalEdit.Proofs.Partner

/-! The walks and searches that motions are made of, asked for at any offset. Each leads to a place of the
text, and each but one has somewhere to begin. -/
namespace ModalEdit

namespace Text

variable {t : Text}

theorem wordBackward_le_length (t : Text) (style : WordStyle) (i : Nat) :
    t.wordBackward style i ≤ t.length := by
  have inside := Checked.lastWordStart_le style (t.take i).reverse
  rw [List.length_reverse] at inside
  exact Nat.le_trans inside (List.length_take_le' i t)

theorem paragraphBackward_le_length (t : Text) (i : Nat) : t.paragraphBackward i ≤ t.length := by
  rw [paragraphBackward]
  split
  · exact Nat.zero_le _
  · exact Nat.sub_le _ _

/-- A search along the line finds a character, and stops next to it at the most. -/
theorem find?_le_length (found : t.find? f i count again = some j) : j ≤ t.length := by
  obtain ⟨hit, there, rfl⟩ := Option.map_eq_some_iff.mp found
  have inside : hit < t.length := by
    have member := List.mem_of_getElem? there
    rw [occurrences] at member
    split at member
    · exact offsetsOf_lt member
    · exact offsetsOf_lt (List.mem_reverse.mp member)
  split
  · exact Nat.le_of_lt inside
  · split <;> omega

end Text

/-- Away from the front a walk back begins on the character before it, or on the last one. -/
theorem Checked.wordBackward_eq_wordBackward? (t : Text) (style : WordStyle) (i : Nat) :
    wordBackward t style i = t.wordBackward? style i := by
  rw [Text.wordBackward?]
  rcases Nat.le_total i t.length with inside | past
  · have some_ : ¬(t = [] ∧ 0 < i) := by
      rintro ⟨rfl, later⟩
      exact Nat.not_lt_of_le inside later
    rw [if_neg some_, wordBackward_eq inside]
  · cases t with
    | nil =>
      cases i with
      | zero => rfl
      | succ i => simp [wordBackward, sub]
    | cons c t =>
      have later : i ≠ 0 := by
        rintro rfl
        exact absurd past (Nat.not_succ_le_zero _)
      have last : (c :: t).length ≠ 0 := Nat.succ_ne_zero _
      have ahead : Text.wordBackward (c :: t) style i =
          Text.wordBackward (c :: t) style (c :: t).length := by
        rw [Text.wordBackward, Text.wordBackward, List.take_of_length_le past, List.take_length]
      rw [if_neg (by simp), ahead, ← wordBackward_eq (Nat.le_refl _), wordBackward, wordBackward,
        if_neg later, if_neg last, Nat.min_eq_right past, Nat.min_self]

/-- A primitive that goes from one place to the next. A search back along the line must keep below a
bound, and every other loop within the text. -/
def Stepwise.answer? (bound : Nat) (p : Motion.Primitive) (t : Text) (i : Nat) :
    Option (Option Nat) :=
  match p with
  | .wordForward style => (wordForward t style i).map some
  | .wordBackward style => (Checked.wordBackward t style i).map some
  | .wordEnd style => (wordEnd t style i).map some
  | .wordEndBackward style => (Checked.wordEndBackward t style i).map some
  | .paragraphForward => (Checked.paragraphForward t i).map some
  | .paragraphBackward => (Checked.paragraphBackward t i).map some
  | .matchPair => matchPair t i
  | .findOpener b => findOpener t b i
  | .findCloser b => findCloser t b i
  | .find f count again => find? t bound f i count again

namespace Motion.Primitive

/-- A search back along the line begins before its offset, wherever the text ends. -/
def BeginsBeyond (bound i : Nat) : Primitive → Prop
  | find f _ again => f.forward = false ∧ bound < i - (if f.till && again then 1 else 0)
  | _ => False

theorem answer?_eq_none_iff (p : Primitive) (t : Text) (i : Nat) :
    p.answer? t i = none ↔ (∃ style, p = wordBackward style) ∧ t = [] ∧ 0 < i := by
  cases p with
  | wordBackward style => simp [answer?, Text.wordBackward?]
  | _ => simp [answer?]

theorem answer?_le_length {p : Primitive} (found : p.answer? t i = some (some j)) :
    j ≤ t.length := by
  cases p with
  | wordForward style =>
    cases found
    exact Nat.sub_le _ _
  | wordBackward style =>
    simp only [answer?, Text.wordBackward?] at found
    split at found
    · cases found
    · cases found
      exact t.wordBackward_le_length style i
  | wordEnd style =>
    cases found
    exact Nat.le_trans (Checked.wordEnd_le t style i) (Nat.sub_le _ _)
  | wordEndBackward style =>
    cases found
    exact Nat.le_trans (Checked.wordEndBackward_le t style i) (Nat.sub_le _ _)
  | paragraphForward =>
    cases found
    exact Checked.paragraphForward_le t i
  | paragraphBackward =>
    cases found
    exact t.paragraphBackward_le_length i
  | matchPair => exact Nat.le_of_lt (Text.matchPair_lt (Option.some.inj found)).2
  | findOpener b => exact Nat.le_of_lt (Text.findOpener_lt (Option.some.inj found))
  | findCloser b => exact Nat.le_of_lt (Text.findCloser_lt (Option.some.inj found))
  | find f count again => exact Text.find?_le_length (Option.some.inj found)

/-- The loops lead where the primitives do, unless a search begins beyond its bound. -/
theorem stepwise_eq (inside : t.length ≤ bound) (room : i + 2 ≤ Stepwise.largest) (p : Primitive) :
    (p.BeginsBeyond bound i → Stepwise.answer? bound p t i = none) ∧
      (¬p.BeginsBeyond bound i → Stepwise.answer? bound p t i = p.answer? t i) := by
  have room' : i + 1 ≤ Stepwise.largest := Nat.le_of_succ_le room
  cases p with
  | find f count again =>
    rw [Stepwise.answer?, Stepwise.find?_eq inside room]
    exact ⟨fun beyond => if_pos beyond, fun within => if_neg within⟩
  | wordBackward style =>
    refine ⟨False.elim, fun _ => ?_⟩
    rw [Stepwise.answer?, Checked.wordBackward_eq_wordBackward?]
    rfl
  | _ =>
    refine ⟨False.elim, fun _ => ?_⟩
    simp only [Stepwise.answer?, answer?, Stepwise.wordForward_eq, Stepwise.wordEnd_eq t _ room',
      Checked.wordEndBackward_eq, Checked.paragraphForward_eq, Checked.paragraphBackward_eq,
      Stepwise.matchPair_eq t room', Stepwise.findOpener_eq, Stepwise.findCloser_eq,
      Option.map_some]

/-- Every primitive comes to an end at every offset, without a step out of the text, and leads to a place
of the text or finds nothing; there are two exceptions. A walk back over words from an offset other than
the front has nowhere to begin in a text without characters. A search back along the line from an offset
behind the end begins there, and passes every place on the way to the text. -/
theorem primitives_stay_within_text (t : Text) (room : i + 2 ≤ Stepwise.largest) (p : Primitive) :
    (p.answer? t i = none ↔ (∃ style, p = wordBackward style) ∧ t = [] ∧ 0 < i) ∧
    (∀ j, p.answer? t i = some (some j) → j ≤ t.length) ∧
    ∀ bound, t.length ≤ bound →
      (p.BeginsBeyond bound i → Stepwise.answer? bound p t i = none) ∧
      (¬p.BeginsBeyond bound i → Stepwise.answer? bound p t i = p.answer? t i) := by
  refine ⟨p.answer?_eq_none_iff t i, ?_, ?_⟩
  · intro j found
    exact answer?_le_length found
  · intro bound inside
    exact stepwise_eq inside room p

/-- A search back from the last offset that there is room behind. -/
theorem primitives_stay_within_text_far_behind :
    let t : Text := ['a', 'b']
    let p : Primitive := find ⟨'a', false, true⟩ 1 true
    let i := Stepwise.largest - 2
    i + 2 ≤ Stepwise.largest ∧ t.length ≤ i ∧ p.answer? t i = some (some 1) ∧ 1 ≤ t.length ∧
      Stepwise.answer? t.length p t i = none ∧ Stepwise.answer? i p t i = some (some 1) := by
  intro t p i
  have room : i + 2 ≤ Stepwise.largest := by decide
  have found : p.answer? t i = some (some 1) := by decide
  obtain ⟨_, places, loops⟩ := primitives_stay_within_text t room p
  have strict := (loops t.length (Nat.le_refl _)).1 ⟨rfl, by decide⟩
  have wide := (loops i (by decide)).2 (fun beyond => absurd beyond.2 (by decide))
  exact ⟨room, by decide, found, places 1 found, strict, wide.trans found⟩

/-- In a text without characters a walk back over words would begin before the front. -/
theorem walk_back_without_characters :
    let p : Primitive := wordBackward .word
    1 + 2 ≤ Stepwise.largest ∧ Stepwise.answer? 0 p [] 1 = none ∧ p.answer? [] 1 = none := by
  decide

end Motion.Primitive

end ModalEdit
