import Mathlib.Order.Bounds.Defs
import ModalEdit.Proofs.Checked.Scan

/-! Where word motions lead. The place next to the cursor is a boundary of the words, and then the motion
ends there, or the motion leads from that place to where it leads from the cursor. So every motion leads
to the nearest boundary. -/
namespace ModalEdit

/-! ### The nearest place -/

/-- The first place after `i` with a property, or another one if there is none. -/
def IsNext (p : Nat → Prop) (i otherwise place : Nat) : Prop :=
  IsLeast {q | i < q ∧ p q} place ∨ (¬∃ q, i < q ∧ p q) ∧ place = otherwise

/-- The last place before `i` with a property, or another one if there is none. -/
def IsPrevious (p : Nat → Prop) (i otherwise place : Nat) : Prop :=
  IsGreatest {q | q < i ∧ p q} place ∨ (¬∃ q, q < i ∧ p q) ∧ place = otherwise

theorem isNext_of_steps {p : Nat → Prop} {f : Nat → Nat} (last : Nat) (beyond : ∀ q, last < q → ¬p q)
    (stops : f last = otherwise) (hits : ∀ i < last, p (i + 1) → f i = i + 1)
    (passes : ∀ i < last, ¬p (i + 1) → f i = f (i + 1)) (inside : i ≤ last) :
    IsNext p i otherwise (f i) := by
  induction inside using Nat.decreasingInduction with
  | self =>
    refine .inr ⟨?_, stops⟩
    rintro ⟨q, later, holds⟩
    exact beyond q later holds
  | of_succ i before ih =>
    by_cases there : p (i + 1)
    · rw [hits i before there]
      exact .inl ⟨⟨Nat.lt_succ_self i, there⟩, fun q next => next.1⟩
    · have same (q : Nat) : i < q ∧ p q ↔ i + 1 < q ∧ p q := by
        refine and_congr_left fun holds => ⟨fun later => ?_, Nat.lt_of_succ_lt⟩
        refine Nat.lt_of_le_of_ne later ?_
        rintro rfl
        exact there holds
      rw [passes i before there]
      simpa only [IsNext, same] using ih

theorem isPrevious_of_steps {p : Nat → Prop} {f : Nat → Nat} (last : Nat) (stops : f 0 = otherwise)
    (hits : ∀ i < last, p i → f (i + 1) = i) (passes : ∀ i < last, ¬p i → f (i + 1) = f i)
    (inside : i ≤ last) : IsPrevious p i otherwise (f i) := by
  induction i with
  | zero =>
    refine .inr ⟨?_, stops⟩
    rintro ⟨q, before, _⟩
    exact Nat.not_lt_zero q before
  | succ i ih =>
    by_cases there : p i
    · rw [hits i inside there]
      exact .inl ⟨⟨Nat.lt_succ_self i, there⟩, fun q before => Nat.le_of_lt_succ before.1⟩
    · have same (q : Nat) : q < i + 1 ∧ p q ↔ q < i ∧ p q := by
        refine and_congr_left fun holds => ⟨fun before => ?_, Nat.lt_succ_of_lt⟩
        refine Nat.lt_of_le_of_ne (Nat.le_of_lt_succ before) ?_
        rintro rfl
        exact there holds
      rw [passes i inside there]
      simpa only [IsPrevious, same] using ih (Nat.le_of_succ_le inside)

namespace Text

/-! ### Boundaries -/

/-- A word begins with a visible character of another class than the one ahead of it. -/
def IsWordStart (t : Text) (style : WordStyle) (q : Nat) : Prop :=
  ∃ c ∈ t[q]?, ¬isWhiteSpace c ∧
    (q = 0 ∨ ∃ c' ∈ t[q - 1]?, CharClass.of style c' ≠ CharClass.of style c)

/-- An empty line is a break that begins the text or follows another break. -/
def IsEmptyLineStart (t : Text) (q : Nat) : Prop :=
  t[q]? = some '\n' ∧ (q = 0 ∨ t[q - 1]? = some '\n')

/-- A word ends with a visible character of another class than the one behind it. -/
def IsWordEnd (t : Text) (style : WordStyle) (q : Nat) : Prop :=
  ∃ c ∈ t[q]?, ¬isWhiteSpace c ∧
    (q + 1 = t.length ∨ ∃ c' ∈ t[q + 1]?, CharClass.of style c' ≠ CharClass.of style c)

/-- Motions to the start of a word stop at empty lines too. -/
def IsStart (t : Text) (style : WordStyle) (q : Nat) : Prop :=
  t.IsWordStart style q ∨ t.IsEmptyLineStart q

variable {t : Text} {style : WordStyle} {c c' : Char}

theorem isStart_succ (first : t[i]? = some c) (second : t[i + 1]? = some c') :
    t.IsStart style (i + 1) ↔
      ¬isWhiteSpace c' ∧ CharClass.of style c ≠ CharClass.of style c' ∨ c = '\n' ∧ c' = '\n' := by
  simp [IsStart, IsWordStart, IsEmptyLineStart, first, second, and_comm]

theorem isStart_zero (first : t[0]? = some c) :
    t.IsStart style 0 ↔ ¬isWhiteSpace c ∨ c = '\n' := by
  simp [IsStart, IsWordStart, IsEmptyLineStart, first]

theorem isWordEnd_iff (first : t[i]? = some c) (second : t[i + 1]? = some c') :
    t.IsWordEnd style i ↔
      ¬isWhiteSpace c ∧ CharClass.of style c' ≠ CharClass.of style c := by
  have more : i + 1 ≠ t.length := Nat.ne_of_lt (List.getElem?_eq_some_iff.mp second).1
  simp [IsWordEnd, first, second, more]

theorem isWordEnd_last (last : t[i]? = some c) (length : i + 1 = t.length) :
    t.IsWordEnd style i ↔ ¬isWhiteSpace c := by
  simp [IsWordEnd, last, length]

theorem IsStart.lt_length (start : t.IsStart style q) : q < t.length := by
  rcases start with ⟨c, there, _⟩ | ⟨there, _⟩
  · exact (List.getElem?_eq_some_iff.mp there).1
  · exact (List.getElem?_eq_some_iff.mp there).1

theorem IsWordEnd.lt_length (stop : t.IsWordEnd style q) : q < t.length := by
  obtain ⟨c, there, _⟩ := stop
  exact (List.getElem?_eq_some_iff.mp there).1

/-- What is of the class of a visible character is visible. -/
theorem not_isWhiteSpace_of_same (same : CharClass.of style c' = CharClass.of style c)
    (visible : ¬isWhiteSpace c) : ¬isWhiteSpace c' := by
  rwa [← Checked.of_eq_space_iff style, same, Checked.of_eq_space_iff]

theorem of_ne_of_space (space : isWhiteSpace c) (visible : ¬isWhiteSpace c') :
    CharClass.of style c ≠ CharClass.of style c' :=
  fun same => not_isWhiteSpace_of_same same visible space

theorem ne_break_of_visible (visible : ¬isWhiteSpace c) : c ≠ '\n' := by
  rintro rfl
  exact visible (by decide)

/-! ### To the start of a word -/

/-- Over the rest of a word and the gap behind it. -/
theorem dropGap_dropWord_cons (c c' : Char) (rest : Text) :
    dropGap (dropWord style (c :: c' :: rest)) =
      if ¬isWhiteSpace c' ∧ CharClass.of style c ≠ CharClass.of style c' ∨ c = '\n' ∧ c' = '\n'
      then c' :: rest else dropGap (dropWord style (c' :: rest)) := by
  by_cases space' : isWhiteSpace c' = true
  · -- the gap goes on or begins, and only a second break ends it
    by_cases space : isWhiteSpace c = true
    · simp [dropWord, dropGap, space, space']
    · have other : CharClass.of style c' ≠ CharClass.of style c := of_ne_of_space space' space
      have visible := ne_break_of_visible space
      simp [dropWord, inClass, space, space', other, visible]
  · -- the gap ends here, or the word goes on or ends
    have visible' := ne_break_of_visible space'
    have stays : dropGap (c' :: rest) = c' :: rest := by simp [dropGap, space', visible']
    by_cases space : isWhiteSpace c = true
    · have other : CharClass.of style c ≠ CharClass.of style c' := of_ne_of_space space space'
      simp [dropWord, dropGap, space, space', other, visible']
    · by_cases same : CharClass.of style c' = CharClass.of style c
      · simp [dropWord, inClass, space, space', same, visible']
      · have other : CharClass.of style c ≠ CharClass.of style c' := Ne.symm same
        simp [dropWord, inClass, space, space', same, other, stays]

theorem wordForward_step (h : i + 1 < t.length) :
    (t.IsStart style (i + 1) → t.wordForward style i = i + 1) ∧
      (¬t.IsStart style (i + 1) → t.wordForward style i = t.wordForward style (i + 1)) := by
  have inside := Nat.lt_of_succ_lt h
  have start : t.IsStart style (i + 1) ↔ _ :=
    isStart_succ (List.getElem?_eq_getElem inside) (List.getElem?_eq_getElem h)
  have parts : t.drop i = t[i] :: t[i + 1] :: t.drop (i + 1 + 1) := by
    rw [List.drop_eq_getElem_cons inside, List.drop_eq_getElem_cons h]
  rw [start, wordForward, wordForward, parts, dropGap_dropWord_cons, List.drop_eq_getElem_cons h]
  constructor
  · intro there
    rw [if_pos there, List.length_cons, List.length_drop]
    omega
  · intro none
    rw [if_neg none]

theorem wordForward_last (some : 0 < t.length) : t.wordForward style (t.length - 1) = t.length := by
  have inside : t.length - 1 < t.length := Nat.sub_lt some Nat.one_pos
  have next : t.length - 1 + 1 = t.length := Nat.sub_add_cancel some
  rw [wordForward, List.drop_eq_getElem_cons inside, next, List.drop_length]
  by_cases space : isWhiteSpace t[t.length - 1] = true <;> simp [dropWord, dropGap, space]

/-- Back over a gap to the start of a word. -/
theorem lastWordStart_cons (c c' : Char) (before : Text) :
    lastWordStart style (c' :: c :: before) =
      if ¬isWhiteSpace c' ∧ CharClass.of style c ≠ CharClass.of style c' ∨ c = '\n' ∧ c' = '\n'
      then before.length + 1 else lastWordStart style (c :: before) := by
  by_cases space' : isWhiteSpace c' = true
  · by_cases breaks : c = '\n' ∧ c' = '\n'
    · obtain ⟨rfl, rfl⟩ := breaks
      simp [lastWordStart, space']
    · have other : ¬(c' = '\n' ∧ c = '\n') := fun both => breaks both.symm
      simp [lastWordStart, space', breaks, other]
  · have visible' := ne_break_of_visible space'
    by_cases same : CharClass.of style c = CharClass.of style c'
    · have space := not_isWhiteSpace_of_same same space'
      simp [lastWordStart, inClass, space, space', same, visible']
    · simp [lastWordStart, inClass, space', same]

theorem wordBackward_step (h : i < t.length) :
    (t.IsStart style i → t.wordBackward style (i + 1) = i) ∧
      (¬t.IsStart style i → t.wordBackward style (i + 1) = t.wordBackward style i) := by
  have there := List.getElem?_eq_getElem h
  cases i with
  | zero =>
    rw [isStart_zero there, wordBackward, wordBackward, Checked.take_succ_reverse there]
    by_cases space : isWhiteSpace t[0] = true
    · by_cases line : t[0] = '\n' <;> simp [lastWordStart, space, line]
    · simp [lastWordStart, space]
  | succ j =>
    have inside := Nat.lt_of_succ_lt h
    have before := List.getElem?_eq_getElem inside
    have length : (t.take j).reverse.length + 1 = j + 1 := by
      rw [List.length_reverse, List.length_take_of_le (Nat.le_of_lt inside)]
    rw [isStart_succ before there, wordBackward, wordBackward, Checked.take_succ_reverse there,
      Checked.take_succ_reverse before, lastWordStart_cons, length]
    constructor
    · intro start
      rw [if_pos start]
    · intro none
      rw [if_neg none]

/-! ### To the end of a word -/

theorem wordEnd_step (h : i + 1 < t.length) :
    (t.IsWordEnd style (i + 1) → t.wordEnd style i = i + 1) ∧
      (¬t.IsWordEnd style (i + 1) → t.wordEnd style i = t.wordEnd style (i + 1)) := by
  have there := List.getElem?_eq_getElem h
  have parts := List.drop_eq_getElem_cons h
  by_cases space : isWhiteSpace t[i + 1] = true
  · constructor
    · rintro ⟨c, same, visible, _⟩
      rw [Option.mem_def, there] at same
      cases same
      exact absurd space visible
    · intro _
      rw [wordEnd, wordEnd, parts, List.dropWhile_cons_of_pos space]
  · have end_ : t.wordEnd style i = t.length -
        ((t.drop (i + 1 + 1)).dropWhile (inClass style (CharClass.of style t[i + 1]))).length - 1 := by
      rw [wordEnd, parts, List.dropWhile_cons_of_neg space]
    by_cases reached : t.length ≤ i + 1 + 1
    · have last : i + 1 + 1 = t.length := Nat.le_antisymm h reached
      have nothing : t.drop (i + 1 + 1) = [] := List.drop_of_length_le reached
      rw [isWordEnd_last there last, end_, nothing]
      refine ⟨fun _ => ?_, fun blank => absurd space blank⟩
      simp only [List.dropWhile_nil, List.length_nil]
      omega
    · have more := Nat.lt_of_not_le reached
      have next := List.getElem?_eq_getElem more
      have after := List.drop_eq_getElem_cons more
      rw [isWordEnd_iff there next, end_, after]
      constructor
      · rintro ⟨_, other⟩
        rw [List.dropWhile_cons_of_neg (by simpa [inClass] using other), ← after, List.length_drop]
        omega
      · intro within
        have same : CharClass.of style t[i + 1 + 1] = CharClass.of style t[i + 1] := by
          by_contra other
          exact within ⟨space, other⟩
        have space' := not_isWhiteSpace_of_same same space
        rw [List.dropWhile_cons_of_pos (by simpa [inClass] using same), wordEnd, after,
          List.dropWhile_cons_of_neg space']
        simp only [same]

theorem wordEnd_last (some : 0 < t.length) : t.wordEnd style (t.length - 1) = t.length - 1 := by
  have next : t.length - 1 + 1 = t.length := Nat.sub_add_cancel some
  rw [wordEnd, next, List.drop_length, List.dropWhile_nil]

theorem wordEndBackward_step (h : i + 1 < t.length) :
    (t.IsWordEnd style i → t.wordEndBackward style (i + 1) = i) ∧
      (¬t.IsWordEnd style i → t.wordEndBackward style (i + 1) = t.wordEndBackward style i) := by
  have inside := Nat.lt_of_succ_lt h
  have there := List.getElem?_eq_getElem inside
  have next := List.getElem?_eq_getElem h
  have length : (t.take i).reverse.length = i := by
    rw [List.length_reverse, List.length_take_of_le (Nat.le_of_lt inside)]
  rw [isWordEnd_iff there next, wordEndBackward, wordEndBackward, Checked.take_succ_reverse next,
    Checked.take_succ_reverse there]
  by_cases space : isWhiteSpace t[i] = true
  · refine ⟨fun stop => absurd space stop.1, fun _ => ?_⟩
    by_cases space' : isWhiteSpace t[i + 1] = true
    · simp [space, space']
    · have other : CharClass.of style t[i] ≠ CharClass.of style t[i + 1] :=
        of_ne_of_space space space'
      simp [inClass, space, space', other]
  · by_cases same : CharClass.of style t[i + 1] = CharClass.of style t[i]
    · refine ⟨fun stop => absurd same stop.2, fun _ => ?_⟩
      have space' := not_isWhiteSpace_of_same same space
      simp [inClass, space, space', same]
    · refine ⟨fun _ => ?_, fun within => absurd ⟨space, same⟩ within⟩
      have other : CharClass.of style t[i] ≠ CharClass.of style t[i + 1] := Ne.symm same
      by_cases space' : isWhiteSpace t[i + 1] = true
      · simp [space, space', length]
      · simp [inClass, space, space', other, length]

theorem wordEndBackward_zero : t.wordEndBackward style 0 = 0 := by
  cases t <;> simp [wordEndBackward]

/-- The word motions lead to the nearest boundary: forward or backward to the start of a word or of an
empty line, and forward or backward to the end of a word. Where there is none they lead to the end of
the text, to its front, to its last character, and to its front. -/
theorem word_motions_reach_boundaries (t : Text) (style : WordStyle) :
    (∀ i < t.length, IsNext (t.IsStart style) i t.length (t.wordForward style i)) ∧
    (∀ i ≤ t.length, IsPrevious (t.IsStart style) i 0 (t.wordBackward style i)) ∧
    (∀ i < t.length, IsNext (t.IsWordEnd style) i (t.length - 1) (t.wordEnd style i)) ∧
    (∀ i < t.length, IsPrevious (t.IsWordEnd style) i 0 (t.wordEndBackward style i)) := by
  refine ⟨fun i inside => ?_, fun i inside => ?_, fun i inside => ?_, fun i inside => ?_⟩
  · refine isNext_of_steps (t.length - 1) (fun q beyond start => ?_) ?_
      (fun i before => (wordForward_step (by omega)).1)
      (fun i before => (wordForward_step (by omega)).2) (by omega)
    · have := start.lt_length
      omega
    · exact wordForward_last (by omega)
  · exact isPrevious_of_steps t.length rfl (fun i before => (wordBackward_step before).1)
      (fun i before => (wordBackward_step before).2) inside
  · refine isNext_of_steps (t.length - 1) (fun q beyond stop => ?_) ?_
      (fun i before => (wordEnd_step (by omega)).1)
      (fun i before => (wordEnd_step (by omega)).2) (by omega)
    · have := stop.lt_length
      omega
    · exact wordEnd_last (by omega)
  · exact isPrevious_of_steps (t.length - 1) wordEndBackward_zero
      (fun i before => (wordEndBackward_step (by omega)).1)
      (fun i before => (wordEndBackward_step (by omega)).2) (by omega)

/-- Between a mark and the word below it there is an empty line. -/
theorem word_motions_reach_empty_line :
    let t : Text := "a.\n\n b".toList
    IsNext (t.IsStart .word) 1 6 3 ∧ IsPrevious (t.IsStart .word) 5 0 3 ∧
      IsNext (t.IsWordEnd .word) 1 5 5 ∧ IsPrevious (t.IsWordEnd .word) 5 0 1 := by
  intro t
  have ⟨forward, backward, forwardEnd, backwardEnd⟩ := word_motions_reach_boundaries t .word
  exact ⟨forward 1 (by decide), backward 5 (by decide), forwardEnd 1 (by decide),
    backwardEnd 5 (by decide)⟩

end Text

end ModalEdit
