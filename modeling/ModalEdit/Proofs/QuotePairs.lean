import ModalEdit.Proofs.TextObject

/-! The quotes of a line pair up from its start: the first with the second, the third with the fourth, and
so on. Whether the number of quotes ahead of a place is odd tells whether the place is in the inside of a
pair; a place that is upon an opening quote has an even number of quotes ahead of it. -/
namespace ModalEdit

namespace Text

variable {t : Text}

/-- The quotes on line `l`, from left to right. -/
def quotesOn (t : Text) (q : Char) (l : Nat) : List Nat :=
  (List.range (t.lineEnd l)).filter fun p => t.lineStart l ≤ p ∧ t[p]? = some q

theorem mem_quotesOn : p ∈ t.quotesOn q l ↔ t.lineStart l ≤ p ∧ p < t.lineEnd l ∧ t[p]? = some q := by
  rw [quotesOn, List.mem_filter, List.mem_range, decide_eq_true_iff]
  exact and_left_comm

theorem quotesOn_ascending (t : Text) (q : Char) (l : Nat) : (t.quotesOn q l).Pairwise (· < ·) :=
  List.pairwise_lt_range.filter _

theorem offsetsOf_line (t : Text) (q : Char) (l : Nat) :
    t.offsetsOf (· == q) (Span.between (t.lineStart l) (t.lineEnd l)) = t.quotesOn q l := by
  apply (t.offsetsOf_ascending _ _).eq_of_mem_iff (t.quotesOn_ascending q l)
  intro p
  rw [mem_offsetsOf, mem_quotesOn, Span.between_of_le (t.lineStart_le_lineEnd l)]
  simp

section

variable {xs : List Nat} (ascending : xs.Pairwise (· < ·))

include ascending

/-- The members of an ascending list that lie below a bound are the first ones. -/
theorem index_lt_iff (i : Nat) (there : xs[k]? = some x) : k < (xs.filter (· < i)).length ↔ x < i := by
  have parts := filter_append_filter ascending i
  rw [← parts] at there
  constructor
  · intro ahead
    rw [List.getElem?_append_left ahead] at there
    simpa using (List.mem_filter.mp (List.mem_of_getElem? there)).2
  · intro below
    by_contra behind
    rw [List.getElem?_append_right (Nat.le_of_not_lt behind)] at there
    have above : i ≤ x := by simpa using (List.mem_filter.mp (List.mem_of_getElem? there)).2
    omega

/-- Around `i` there is the pair whose first quote is the last one ahead of `i`, if an odd number of quotes is
ahead, or else the one whose first quote is upon `i`. -/
theorem ahead_of_pair (first : xs[2 * n]? = some o) (second : xs[2 * n + 1]? = some c) (before : o ≤ i)
    (behind : i ≤ c) :
    (xs.filter (· < i)).length = 2 * n + 1 ∨ (xs.filter (· < i)).length = 2 * n ∧ o = i := by
  have closer : ¬2 * n + 1 < (xs.filter (· < i)).length := by
    rw [index_lt_iff ascending i second]
    omega
  rcases Nat.lt_or_eq_of_le before with less | rfl
  · left
    have opener := (index_lt_iff ascending i first).mpr less
    omega
  · right
    have opener : ¬2 * n < (xs.filter (· < o)).length := by
      rw [index_lt_iff ascending o first]
      exact Nat.lt_irrefl o
    refine ⟨?_, rfl⟩
    by_contra fewer
    have less : (xs.filter (· < o)).length < 2 * n := by omega
    obtain ⟨inside, same⟩ := List.getElem?_eq_some_iff.mp first
    have there := List.getElem?_eq_getElem (Nat.lt_trans less inside)
    have above := mt (index_lt_iff ascending o there).mpr (Nat.lt_irrefl _)
    have ordered := List.pairwise_iff_getElem.mp ascending _ _ (Nat.lt_trans less inside) inside less
    omega

theorem getElem?_below (i : Nat) (ahead : k < (xs.filter (· < i)).length) :
    (xs.filter (· < i))[k]? = xs[k]? := by
  have parts := congrArg (·[k]?) (filter_append_filter ascending i)
  rwa [List.getElem?_append_left ahead] at parts

theorem getElem?_above (i k : Nat) :
    (xs.filter (i ≤ ·))[k]? = xs[(xs.filter (· < i)).length + k]? := by
  have parts := congrArg (·[(xs.filter (· < i)).length + k]?) (filter_append_filter ascending i)
  rwa [List.getElem?_append_right (Nat.le_add_right _ _), Nat.add_sub_cancel_left] at parts

/-- With an odd number of quotes ahead, the last of them and the first of the others are the pair. -/
theorem pair_of_odd (odd : (xs.filter (· < i)).length % 2 = 1) :
    ((xs.filter (· < i)).getLast?.bind fun o => (xs.filter (i ≤ ·)).head?.map (o, ·)) = some (o, c) ↔
      ∃ n, xs[2 * n]? = some o ∧ xs[2 * n + 1]? = some c ∧ o ≤ i ∧ i ≤ c := by
  have last : (xs.filter (· < i)).length - 1 < (xs.filter (· < i)).length := by omega
  have opener : (xs.filter (· < i)).getLast? = xs[(xs.filter (· < i)).length - 1]? := by
    rw [List.getLast?_eq_getElem?, getElem?_below ascending i last]
  have closer : (xs.filter (i ≤ ·)).head? = xs[(xs.filter (· < i)).length]? := by
    rw [List.head?_eq_getElem?, getElem?_above ascending, Nat.add_zero]
  rw [opener, closer]
  constructor
  · intro found
    obtain ⟨o', first, rest⟩ := Option.bind_eq_some_iff.mp found
    obtain ⟨c', second, same⟩ := Option.map_eq_some_iff.mp rest
    obtain ⟨rfl, rfl⟩ := Prod.mk.inj same
    have before := (index_lt_iff ascending i first).mp last
    have behind := mt (index_lt_iff ascending i second).mpr (Nat.lt_irrefl _)
    have number : (xs.filter (· < i)).length = 2 * ((xs.filter (· < i)).length / 2) + 1 := by omega
    refine ⟨(xs.filter (· < i)).length / 2, ?_, ?_, Nat.le_of_lt before, Nat.le_of_not_lt behind⟩
    · rw [← first]
      congr 1
      omega
    · rw [← number, second]
  · rintro ⟨n, first, second, before, behind⟩
    rcases ahead_of_pair ascending first second before behind with number | ⟨number, _⟩
    · rw [number, Nat.add_sub_cancel, first, second]
      rfl
    · omega

/-- With an even number of quotes ahead, a place is in a pair if it is upon the first quote of it. -/
theorem pair_of_even (even : (xs.filter (· < i)).length % 2 ≠ 1) :
    (match xs.filter (i ≤ ·) with
      | o :: c :: _ => if o = i then some (o, c) else none
      | _ => none) = some (o, c) ↔
      ∃ n, xs[2 * n]? = some o ∧ xs[2 * n + 1]? = some c ∧ o ≤ i ∧ i ≤ c := by
  have opener := getElem?_above ascending i 0
  have closer := getElem?_above ascending i 1
  rw [Nat.add_zero] at opener
  constructor
  · intro found
    split at found
    · rename_i o' c' rest after
      split at found
      · rename_i upon
        obtain ⟨rfl, rfl⟩ := Prod.mk.inj (Option.some.inj found)
        rw [after] at opener closer
        have number : (xs.filter (· < i)).length = 2 * ((xs.filter (· < i)).length / 2) := by omega
        have behind : i ≤ c' := by
          have member : c' ∈ xs.filter (i ≤ ·) := by simp [after]
          simpa using (List.mem_filter.mp member).2
        exact ⟨_, number ▸ opener.symm, number ▸ closer.symm, Nat.le_of_eq upon, behind⟩
      · cases found
    · cases found
  · rintro ⟨n, first, second, before, behind⟩
    rcases ahead_of_pair ascending first second before behind with number | ⟨number, rfl⟩
    · omega
    · rw [number, first] at opener
      rw [number, second] at closer
      cases after : xs.filter (o ≤ ·) with
      | nil => simp [after] at opener
      | cons o' rest =>
        cases rest with
        | nil => simp [after] at closer
        | cons c' rest => simp_all

end

theorem quotePair_eq_some_iff : t.quotePair q i = some (o, c) ↔
    ∃ n, (t.quotesOn q (t.lineOf i))[2 * n]? = some o ∧
      (t.quotesOn q (t.lineOf i))[2 * n + 1]? = some c ∧ o ≤ i ∧ i ≤ c := by
  have ascending := t.quotesOn_ascending q (t.lineOf i)
  rw [quotePair, offsetsOf_line]
  split
  · rename_i odd
    exact pair_of_odd ascending odd
  · rename_i even
    exact pair_of_even ascending even

theorem quotePair_bounds (found : t.quotePair q i = some (o, c)) :
    t.lineStart (t.lineOf i) ≤ o ∧ o < c ∧ c < t.lineEnd (t.lineOf i) := by
  obtain ⟨n, first, second, _⟩ := quotePair_eq_some_iff.mp found
  obtain ⟨start, _⟩ := mem_quotesOn.mp (List.mem_of_getElem? first)
  obtain ⟨_, stop, _⟩ := mem_quotesOn.mp (List.mem_of_getElem? second)
  obtain ⟨inside, rfl⟩ := List.getElem?_eq_some_iff.mp first
  obtain ⟨inside', rfl⟩ := List.getElem?_eq_some_iff.mp second
  have ascending := t.quotesOn_ascending q (t.lineOf i)
  exact ⟨start, List.pairwise_iff_getElem.mp ascending _ _ inside inside' (Nat.lt_succ_self _), stop⟩

end Text

namespace TextObject

/-- Behind the end of the text there is no quote to close a pair. -/
theorem resolve_quote (t : Text) (q : Char) (inner : Bool) (i count : Nat) :
    resolve ⟨.quote q, inner⟩ t i count = (t.quotePair q i).map (delimited inner) := by
  rw [resolve]
  split
  · rename_i beyond
    cases found : t.quotePair q i with
    | none => rfl
    | some pair =>
      obtain ⟨n, _, _, _, behind⟩ := Text.quotePair_eq_some_iff.mp found
      have inside := (Text.quotePair_lt found).2
      omega
  · rfl

/-- The quote object at a place is the pair of quotes on its line that the place is in or upon, without its
quotes or with them; there is none where there is no such pair. -/
theorem quote_object_is_pair_around (t : Text) (q : Char) (inner : Bool) (i count : Nat) :
    let l := t.lineOf i
    let quotes := t.quotesOn q l
    (∀ s, resolve ⟨.quote q, inner⟩ t i count = some s ↔
      ∃ n o c, quotes[2 * n]? = some o ∧ quotes[2 * n + 1]? = some c ∧ o ≤ i ∧ i ≤ c ∧
        (s.start, s.stop) = if inner then (o + 1, c) else (o, c + 1)) ∧
    ∀ s, resolve ⟨.quote q, inner⟩ t i count = some s →
      t.lineStart l ≤ s.start ∧ s.stop ≤ t.lineEnd l := by
  intro l quotes
  rw [resolve_quote]
  constructor
  · intro s
    constructor
    · intro found
      obtain ⟨⟨o, c⟩, pair, rfl⟩ := Option.map_eq_some_iff.mp found
      obtain ⟨n, first, second, before, behind⟩ := Text.quotePair_eq_some_iff.mp pair
      exact ⟨n, o, c, first, second, before, behind,
        delimited_ends inner (Text.quotePair_bounds pair).2.1⟩
    · rintro ⟨n, o, c, first, second, before, behind, ends⟩
      have pair : t.quotePair q i = some (o, c) :=
        Text.quotePair_eq_some_iff.mpr ⟨n, first, second, before, behind⟩
      rw [pair, Option.map_some]
      rw [← delimited_ends inner (Text.quotePair_bounds pair).2.1] at ends
      exact congrArg some (Span.eq_of_ends ends).symm
  · intro s found
    obtain ⟨⟨o, c⟩, pair, rfl⟩ := Option.map_eq_some_iff.mp found
    obtain ⟨start, ordered, stop⟩ := Text.quotePair_bounds pair
    have ends := delimited_ends inner ordered
    cases inner with
    | true =>
      obtain ⟨first, last⟩ := Prod.mk.inj ends
      rw [first, last]
      exact ⟨Nat.le_succ_of_le start, Nat.le_of_lt stop⟩
    | false =>
      obtain ⟨first, last⟩ := Prod.mk.inj ends
      rw [first, last]
      exact ⟨start, stop⟩

end TextObject

end ModalEdit
