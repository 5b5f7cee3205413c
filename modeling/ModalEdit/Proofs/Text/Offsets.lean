import Mathlib.Data.List.Sort
import ModalEdit.Text.Basic

/-! The places of a kind of character in a range of a text. They stand in ascending order, so a list of
places is told by its members, and what follows a member is what lies beyond it. -/
namespace ModalEdit.Text

/-! ### Ordered lists -/

/-- Behind a member of an ordered list there are the members beyond it. -/
theorem mem_drop_succ_iff {r : Nat → Nat → Prop} [Std.Asymm r] {xs : List Nat}
    (ordered : xs.Pairwise r) (there : xs[k]? = some x) : y ∈ xs.drop (k + 1) ↔ y ∈ xs ∧ r x y := by
  obtain ⟨inside, rfl⟩ := List.getElem?_eq_some_iff.mp there
  have parts : xs.take k ++ xs[k] :: xs.drop (k + 1) = xs := by
    rw [← List.drop_eq_getElem_cons inside, List.take_append_drop]
  rw [← parts] at ordered
  obtain ⟨_, later, across⟩ := List.pairwise_append.mp ordered
  constructor
  · intro behind
    exact ⟨List.mem_of_mem_drop behind, (List.pairwise_cons.mp later).1 y behind⟩
  · rintro ⟨member, beyond⟩
    rw [← parts] at member
    rcases List.mem_append.mp member with ahead | rest
    · exact absurd beyond (Std.Asymm.asymm _ _ (across y ahead _ List.mem_cons_self))
    · rcases List.mem_cons.mp rest with rfl | behind
      · exact absurd beyond (Std.Asymm.asymm _ _ beyond)
      · exact behind

/-- An ascending list is what lies below a bound, followed by the rest. -/
theorem filter_append_filter {xs : List Nat} (ascending : xs.Pairwise (· < ·)) (i : Nat) :
    xs.filter (· < i) ++ xs.filter (i ≤ ·) = xs := by
  induction xs with
  | nil => rfl
  | cons x xs ih =>
    obtain ⟨least, ascending⟩ := List.pairwise_cons.mp ascending
    by_cases below : x < i
    · simp [below, Nat.not_le_of_lt below, ih ascending]
    · have above : ∀ y ∈ xs, i ≤ y := by
        intro y member
        have := least y member
        omega
      have none : xs.filter (· < i) = [] := by
        rw [List.filter_eq_nil_iff]
        intro y member
        simp [above y member]
      have all : xs.filter (i ≤ ·) = xs := by
        rw [List.filter_eq_self]
        intro y member
        exact decide_eq_true (above y member)
      simp [below, Nat.le_of_not_lt below, none, all]

/-! ### Places in a range -/

theorem zipIdx_ascending (t : Text) (k : Nat) : (t.zipIdx k).Pairwise (·.2 < ·.2) := by
  induction t generalizing k with
  | nil => exact .nil
  | cons c t ih =>
    rw [List.zipIdx_cons]
    refine List.pairwise_cons.mpr ⟨?_, ih (k + 1)⟩
    intro later member
    exact List.le_snd_of_mem_zipIdx member

theorem offsetsOf_ascending (t : Text) (p : Char → Bool) (s : Span) :
    (t.offsetsOf p s).Pairwise (· < ·) := by
  refine (zipIdx_ascending (t.slice s) s.start).filterMap _ ?_
  rintro ⟨c, i⟩ ⟨c', i'⟩ ordered j first j' second
  dsimp only at first second ordered
  split at first
  · split at second
    · obtain rfl := Option.some.inj first
      obtain rfl := Option.some.inj second
      exact ordered
    · cases second
  · cases first

theorem getElem?_slice {t : Text} {s : Span} (start : s.start ≤ i) (stop : i < s.stop) :
    (t.slice s)[i - s.start]? = t[i]? := by
  have within : i - s.start < s.length := by
    unfold Span.length
    omega
  rw [slice, List.getElem?_take_of_lt within, List.getElem?_drop, Nat.add_sub_cancel' start]

theorem mem_offsetsOf {t : Text} {s : Span} :
    i ∈ t.offsetsOf p s ↔ s.start ≤ i ∧ i < s.stop ∧ ∃ c, t[i]? = some c ∧ p c = true := by
  constructor
  · intro member
    obtain ⟨⟨c, j⟩, pair, kept⟩ := List.mem_filterMap.mp member
    obtain ⟨start, there⟩ := List.mk_mem_zipIdx_iff_le_and_getElem?_sub.mp pair
    obtain ⟨holds, rfl⟩ : p c = true ∧ j = i := by simpa using kept
    have stop : j < s.stop := by
      have short := (List.getElem?_eq_some_iff.mp there).1
      have cut : (t.slice s).length ≤ s.length := List.length_take_le _ _
      have ends := s.start_add_length
      omega
    rw [getElem?_slice start stop] at there
    exact ⟨start, stop, c, there, holds⟩
  · rintro ⟨start, stop, c, there, holds⟩
    refine List.mem_filterMap.mpr ⟨(c, i), ?_, if_pos holds⟩
    apply List.mk_mem_zipIdx_iff_le_and_getElem?_sub.mpr
    rw [getElem?_slice start stop]
    exact ⟨start, there⟩

theorem offsetsOf_lt {t : Text} (h : i ∈ t.offsetsOf p s) : i < t.length := by
  obtain ⟨_, _, c, there, _⟩ := mem_offsetsOf.mp h
  exact (List.getElem?_eq_some_iff.mp there).1

end ModalEdit.Text
