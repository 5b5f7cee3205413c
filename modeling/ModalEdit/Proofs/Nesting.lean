import ModalEdit.Proofs.TextObject

/-! How brackets nest. The depth of a place is the number of openers ahead of it less the number of
closers. Between the two brackets of a pair the depth does not fall below that of the inside, and the
scans for an opener and for a closer stop at the first place where it would. So the pairs around a
place are the ones that the scans find, from the inside out. -/
namespace ModalEdit

namespace Text

/-- No closer comes ahead of its opener, and there are as many of both. -/
def Balanced (b : Bracket) (u : Text) : Prop :=
  (∀ k ≤ u.length, (u.take k).count b.closer ≤ (u.take k).count b.opener) ∧
    u.count b.opener = u.count b.closer

instance (b : Bracket) (u : Text) : Decidable (Balanced b u) :=
  inferInstanceAs (Decidable ((∀ k ≤ u.length, _) ∧ _))

/-- The brackets at `o` and `c` are a pair: what is between them is balanced. -/
def IsPair (t : Text) (b : Bracket) (o c : Nat) : Prop :=
  o < c ∧ t[o]? = some b.opener ∧ t[c]? = some b.closer ∧
    Balanced b (t.slice (Span.between (o + 1) c))

instance (t : Text) (b : Bracket) (o c : Nat) : Decidable (t.IsPair b o c) :=
  inferInstanceAs (Decidable (_ ∧ _ ∧ _ ∧ _))

/-- The number of brackets that are open at a place, negative where there were more closers. -/
def depth (t : Text) (b : Bracket) (i : Nat) : Int :=
  (t.take i).count b.opener - (t.take i).count b.closer

variable {t : Text} {b : Bracket}

/-! ### Depths -/

theorem depth_succ_of_opener (differ : b.opener ≠ b.closer) (opens : t[i]? = some b.opener) :
    t.depth b (i + 1) = t.depth b i + 1 := by
  simp only [depth, List.take_add_one, opens, Option.toList_some, List.count_append,
    List.count_singleton_self, List.count_singleton, beq_iff_eq, differ, if_false]
  omega

theorem depth_succ_of_closer (differ : b.opener ≠ b.closer) (closes : t[i]? = some b.closer) :
    t.depth b (i + 1) = t.depth b i - 1 := by
  simp only [depth, List.take_add_one, closes, Option.toList_some, List.count_append,
    List.count_singleton_self, List.count_singleton, beq_iff_eq, differ.symm, if_false]
  omega

theorem count_take_drop (t : Text) (c : Char) (i k : Nat) :
    ((t.drop i).take k).count c + (t.take i).count c = (t.take (i + k)).count c := by
  rw [List.take_add, List.count_append, Nat.add_comm]

theorem count_take_reverse {i : Nat} (h : i ≤ t.length) (c : Char) (k : Nat) :
    ((t.take i).reverse.take k).count c + (t.take (i - k)).count c = (t.take i).count c := by
  have length : (t.take i).length = i := List.length_take_of_le h
  have parts := congrArg (List.count c) (List.take_append_drop (i - k) (t.take i))
  rw [List.count_append, List.take_take, Nat.min_eq_left (Nat.sub_le i k)] at parts
  rw [List.take_reverse, List.count_reverse, length]
  omega

/-- What is between two places is balanced if the depth does not fall below that of the first one,
and is the same at the last one. -/
theorem balanced_slice_iff (ordered : i ≤ j) (inside : j ≤ t.length) :
    Balanced b (t.slice (Span.between i j)) ↔
      t.depth b j = t.depth b i ∧ ∀ k, i ≤ k → k ≤ j → t.depth b i ≤ t.depth b k := by
  have length : ((t.drop i).take (j - i)).length = j - i := by
    rw [List.length_take, List.length_drop]
    omega
  have part (k : Nat) (h : k ≤ j - i) : ((t.drop i).take (j - i)).take k = (t.drop i).take k := by
    rw [List.take_take, Nat.min_eq_left h]
  have whole : i + (j - i) = j := by omega
  have opens := t.count_take_drop b.opener i
  have closes := t.count_take_drop b.closer i
  rw [Span.between_of_le ordered, slice, Span.length, Balanced, length]
  simp only [depth]
  constructor
  · rintro ⟨above, same⟩
    have last := opens (j - i)
    have last' := closes (j - i)
    rw [whole] at last last'
    refine ⟨by omega, fun k first last => ?_⟩
    obtain ⟨k, rfl⟩ := Nat.exists_eq_add_of_le first
    have counts := above k (by omega)
    rw [part k (by omega)] at counts
    have := opens k
    have := closes k
    omega
  · rintro ⟨same, above⟩
    have last := opens (j - i)
    have last' := closes (j - i)
    rw [whole] at last last'
    refine ⟨fun k bound => ?_, by omega⟩
    have depths := above (i + k) (by omega) (by omega)
    rw [part k bound]
    have := opens k
    have := closes k
    omega

/-! ### Scans -/

/-- The scan stops at the first goal that would be one more than there are brackets to match it. -/
theorem unmatched_spec (differ : goal ≠ nest) (depth : Nat) (t : Text) :
    match unmatched goal nest depth t with
    | none => ∀ k, (t.take k).count goal ≤ depth + (t.take k).count nest
    | some d => t[d]? = some goal ∧ (t.take d).count goal = depth + (t.take d).count nest ∧
        ∀ k ≤ d, (t.take k).count goal ≤ depth + (t.take k).count nest := by
  induction t generalizing depth with
  | nil => simp [unmatched]
  | cons c t ih =>
    -- the bracket `c` changes the depth of what follows from `depth` to `after`
    have shift (after : Nat) (gone : [c].count goal + after = depth + [c].count nest) :
        match (unmatched goal nest after t).map (· + 1) with
        | none => ∀ k, ((c :: t).take k).count goal ≤ depth + ((c :: t).take k).count nest
        | some d => (c :: t)[d]? = some goal ∧
            ((c :: t).take d).count goal = depth + ((c :: t).take d).count nest ∧
            ∀ k ≤ d, ((c :: t).take k).count goal ≤ depth + ((c :: t).take k).count nest := by
      have next (x : Char) (k : Nat) :
          ((c :: t).take (k + 1)).count x = [c].count x + (t.take k).count x := by
        rw [List.take_succ_cons, ← List.singleton_append, List.count_append]
      have rest := ih after
      cases found : unmatched goal nest after t with
      | none =>
        rw [found] at rest
        intro k
        cases k with
        | zero => simp
        | succ k =>
          have := rest k
          rw [next, next]
          omega
      | some d =>
        rw [found] at rest
        obtain ⟨there, same, below⟩ := rest
        dsimp only [Option.map_some]
        refine ⟨there, ?_, fun k bound => ?_⟩
        · rw [next, next]
          omega
        · cases k with
          | zero => simp
          | succ k =>
            have := below k (by omega)
            rw [next, next]
            omega
    unfold unmatched
    by_cases isGoal : c = goal
    · rw [if_pos isGoal]
      cases depth with
      | zero => simp [isGoal]
      | succ depth =>
        refine shift depth ?_
        simp [isGoal, differ]
        omega
    · rw [if_neg isGoal]
      by_cases isNest : c = nest
      · rw [if_pos isNest]
        refine shift (depth + 1) ?_
        simp [isNest, differ.symm]
      · rw [if_neg isNest]
        refine shift depth ?_
        simp [isGoal, isNest]

/-- A closer is found where the depth is about to fall below the one of the start. -/
theorem findCloser_spec (differ : b.opener ≠ b.closer) (i : Nat) :
    match t.findCloser b i with
    | none => ∀ j, i ≤ j → t.depth b i ≤ t.depth b j
    | some c => i ≤ c ∧ t[c]? = some b.closer ∧ t.depth b c = t.depth b i ∧
        ∀ j, i ≤ j → j ≤ c → t.depth b i ≤ t.depth b j := by
  have scan := unmatched_spec differ.symm 0 (t.drop i)
  have opens := t.count_take_drop b.opener i
  have closes := t.count_take_drop b.closer i
  have depths (k : Nat) (counts : ((t.drop i).take k).count b.closer ≤
      0 + ((t.drop i).take k).count b.opener) : t.depth b i ≤ t.depth b (i + k) := by
    have := opens k
    have := closes k
    simp only [depth]
    omega
  rw [findCloser]
  cases found : unmatched b.closer b.opener 0 (t.drop i) with
  | none =>
    rw [found] at scan
    intro j from_
    obtain ⟨k, rfl⟩ := Nat.exists_eq_add_of_le from_
    exact depths k (scan k)
  | some d =>
    rw [found] at scan
    obtain ⟨there, same, below⟩ := scan
    dsimp only [Option.map_some]
    refine ⟨Nat.le_add_right i d, List.getElem?_drop.symm.trans there, ?_, fun j from_ upTo => ?_⟩
    · have := opens d
      have := closes d
      simp only [depth]
      omega
    · obtain ⟨k, rfl⟩ := Nat.exists_eq_add_of_le from_
      exact depths k (below k (by omega))

/-- An opener is found behind the last place from which the depth has risen to that of the end. -/
theorem findOpener_spec (differ : b.opener ≠ b.closer) (inside : i ≤ t.length) :
    match t.findOpener b i with
    | none => ∀ j ≤ i, t.depth b i ≤ t.depth b j
    | some o => o < i ∧ t[o]? = some b.opener ∧ t.depth b (o + 1) = t.depth b i ∧
        ∀ j, o < j → j ≤ i → t.depth b i ≤ t.depth b j := by
  have scan := unmatched_spec differ 0 (t.take i).reverse
  have opens := count_take_reverse inside b.opener
  have closes := count_take_reverse inside b.closer
  have depths (k : Nat) (counts : ((t.take i).reverse.take k).count b.opener ≤
      0 + ((t.take i).reverse.take k).count b.closer) : t.depth b i ≤ t.depth b (i - k) := by
    have := opens k
    have := closes k
    simp only [depth]
    omega
  rw [findOpener, Nat.min_eq_left inside]
  cases found : unmatched b.opener b.closer 0 (t.take i).reverse with
  | none =>
    rw [found] at scan
    intro j bound
    have := depths (i - j) (scan (i - j))
    rwa [Nat.sub_sub_self bound] at this
  | some d =>
    rw [found] at scan
    obtain ⟨there, same, below⟩ := scan
    have before : d < i := by
      have := unmatched_lt found
      rwa [List.length_reverse, List.length_take_of_le inside] at this
    dsimp only [Option.map_some]
    refine ⟨by omega, ?_, ?_, fun j from_ upTo => ?_⟩
    · rw [List.getElem?_reverse (by rwa [List.length_take_of_le inside]),
        List.length_take_of_le inside, List.getElem?_take_of_lt (by omega)] at there
      exact there
    · have place : i - 1 - d + 1 = i - d := by omega
      have := opens d
      have := closes d
      rw [place]
      simp only [depth]
      omega
    · have := depths (i - j) (below (i - j) (by omega))
      rwa [Nat.sub_sub_self upTo] at this

/-! ### Pairs -/

theorem isPair_iff : t.IsPair b o c ↔
    o < c ∧ t[o]? = some b.opener ∧ t[c]? = some b.closer ∧ t.depth b c = t.depth b (o + 1) ∧
      ∀ k, o < k → k ≤ c → t.depth b (o + 1) ≤ t.depth b k := by
  constructor
  · rintro ⟨before, opens, closes, balanced⟩
    have inside : c ≤ t.length := Nat.le_of_lt (List.getElem?_eq_some_iff.mp closes).1
    exact ⟨before, opens, closes, (balanced_slice_iff before inside).mp balanced⟩
  · rintro ⟨before, opens, closes, depths⟩
    have inside : c ≤ t.length := Nat.le_of_lt (List.getElem?_eq_some_iff.mp closes).1
    exact ⟨before, opens, closes, (balanced_slice_iff before inside).mpr depths⟩

/-- The scan for the closer of an opener finds the other bracket of the pair. -/
theorem findCloser_eq_some_iff (differ : b.opener ≠ b.closer) (opens : t[o]? = some b.opener) :
    t.findCloser b (o + 1) = some c ↔ t.IsPair b o c := by
  have scan := findCloser_spec (t := t) differ (o + 1)
  rw [isPair_iff]
  constructor
  · intro found
    rw [found] at scan
    obtain ⟨before, closes, same, above⟩ := scan
    exact ⟨before, opens, closes, same, above⟩
  · rintro ⟨before, _, closes, same, above⟩
    have falls := depth_succ_of_closer differ closes
    cases found : t.findCloser b (o + 1) with
    | none =>
      rw [found] at scan
      have := scan (c + 1) (by omega)
      omega
    | some c' =>
      rw [found] at scan
      obtain ⟨before', closes', same', above'⟩ := scan
      have falls' := depth_succ_of_closer differ closes'
      rcases Nat.lt_trichotomy c c' with less | rfl | more
      · have := above' (c + 1) (by omega) (by omega)
        omega
      · rfl
      · have := above (c' + 1) (by omega) (by omega)
        omega

/-- The scan for the opener of a closer finds the other bracket of the pair. -/
theorem findOpener_eq_some_iff (differ : b.opener ≠ b.closer) (closes : t[c]? = some b.closer) :
    t.findOpener b c = some o ↔ t.IsPair b o c := by
  have inside : c ≤ t.length := Nat.le_of_lt (List.getElem?_eq_some_iff.mp closes).1
  have scan := findOpener_spec (t := t) (b := b) differ inside
  rw [isPair_iff]
  constructor
  · intro found
    rw [found] at scan
    obtain ⟨before, opens, same, above⟩ := scan
    rw [same]
    exact ⟨before, opens, closes, rfl, above⟩
  · rintro ⟨before, opens, _, same, above⟩
    have rises := depth_succ_of_opener differ opens
    cases found : t.findOpener b c with
    | none =>
      rw [found] at scan
      have := scan o (Nat.le_of_lt before)
      omega
    | some o' =>
      rw [found] at scan
      obtain ⟨before', opens', same', above'⟩ := scan
      have rises' := depth_succ_of_opener differ opens'
      rcases Nat.lt_trichotomy o o' with less | rfl | more
      · have := above o' less (Nat.le_of_lt before')
        omega
      · rfl
      · have := above' o more (Nat.le_of_lt before)
        omega

theorem IsPair.closer_unique (differ : b.opener ≠ b.closer) (pair : t.IsPair b o c)
    (pair' : t.IsPair b o c') : c = c' := by
  have found := (findCloser_eq_some_iff differ pair.2.1).mpr pair
  have found' := (findCloser_eq_some_iff differ pair'.2.1).mpr pair'
  exact Option.some.inj (found.symm.trans found')

/-- An opener inside of a pair is closed ahead of the pair's closer. -/
theorem IsPair.inner (differ : b.opener ≠ b.closer) (pair : t.IsPair b o' c')
    (opens : t[o]? = some b.opener) (behind : o' < o) (ahead : o < c') :
    ∃ c, t.IsPair b o c ∧ c < c' := by
  obtain ⟨_, _, _, same, above⟩ := isPair_iff.mp pair
  have rises := depth_succ_of_opener differ opens
  have outside := above o behind (Nat.le_of_lt ahead)
  have scan := findCloser_spec (t := t) differ (o + 1)
  cases found : t.findCloser b (o + 1) with
  | none =>
    rw [found] at scan
    have := scan c' ahead
    omega
  | some c =>
    rw [found] at scan
    refine ⟨c, (findCloser_eq_some_iff differ opens).mp found, ?_⟩
    by_contra past
    have := scan.2.2.2 c' ahead (Nat.le_of_not_lt past)
    omega

/-- The pairs around a place are those around the opener that the scan finds, with the pair of that
opener if there is one. -/
theorem IsPair.around_iff (differ : b.opener ≠ b.closer) (inside : i ≤ t.length)
    (found : t.findOpener b i = some o) (pair : t.IsPair b p q) :
    p < i ∧ i ≤ q ↔ p ≤ o ∧ o < q := by
  have scan := findOpener_spec (t := t) (b := b) differ inside
  rw [found] at scan
  obtain ⟨before, opens, same, above⟩ := scan
  obtain ⟨ordered, opens', closes', same', above'⟩ := isPair_iff.mp pair
  have rises := depth_succ_of_opener differ opens
  have rises' := depth_succ_of_opener differ opens'
  have falls' := depth_succ_of_closer differ closes'
  constructor
  · rintro ⟨ahead, behind⟩
    refine ⟨?_, by omega⟩
    by_contra later
    have := above p (by omega) (by omega)
    have := above' i ahead behind
    omega
  · rintro ⟨ahead, behind⟩
    refine ⟨by omega, ?_⟩
    by_contra earlier
    have := above (q + 1) (by omega) (by omega)
    rcases Nat.eq_or_lt_of_le ahead with rfl | outer
    · omega
    · have := above' o outer (Nat.le_of_lt behind)
      omega

/-- Where the scan finds no opener, there is no pair. -/
theorem IsPair.not_around (differ : b.opener ≠ b.closer) (inside : i ≤ t.length)
    (found : t.findOpener b i = none) (pair : t.IsPair b p q) (ahead : p < i) : q < i := by
  have scan := findOpener_spec (t := t) (b := b) differ inside
  rw [found] at scan
  obtain ⟨_, opens, _, _, above⟩ := isPair_iff.mp pair
  have rises := depth_succ_of_opener differ opens
  by_contra behind
  have := scan p (Nat.le_of_lt ahead)
  have := above i ahead (Nat.le_of_not_lt behind)
  omega

/-! ### From the inside out -/

/-- The pair that lies `n` pairs further out than the opener at `o`, if it is closed. -/
def outerPair (t : Text) (b : Bracket) (n o : Nat) : Option (Nat × Nat) :=
  (t.outerOpener b n o).bind fun o => (t.findCloser b (o + 1)).map (o, ·)

theorem outerPair_succ (n o : Nat) :
    t.outerPair b (n + 1) o = (t.findOpener b o).bind (t.outerPair b n) := by
  rw [outerPair, outerOpener, Option.bind_assoc]
  rfl

theorem bracketPair_eq_outerPair (b : Bracket) (i count : Nat) :
    t.bracketPair b i count =
      (if t[i]? = some b.opener then some i else t.findOpener b i).bind
        (t.outerPair b (count - 1)) := by
  have closed (o : Nat) : ((t.findCloser b (o + 1)).bind fun c => some (o, c)) =
      (t.findCloser b (o + 1)).map (o, ·) := by
    cases t.findCloser b (o + 1) <;> rfl
  rw [bracketPair]
  simp only [bind, pure, closed]
  split <;> rfl

/-- An opener that is not closed is in no pair, and no opener further out is closed. -/
theorem outerPair_of_unclosed (differ : b.opener ≠ b.closer) (opens : t[o]? = some b.opener)
    (unclosed : t.findCloser b (o + 1) = none) (n : Nat) : t.outerPair b n o = none := by
  induction n generalizing o with
  | zero =>
    rw [outerPair, outerOpener, Option.bind_some, unclosed]
    rfl
  | succ n ih =>
    have inside : o ≤ t.length := Nat.le_of_lt (List.getElem?_eq_some_iff.mp opens).1
    have scan := findOpener_spec (t := t) (b := b) differ inside
    rw [outerPair_succ]
    cases found : t.findOpener b o with
    | none => rfl
    | some o' =>
      rw [found] at scan
      refine ih scan.2.1 ?_
      by_contra closed
      obtain ⟨c', closed⟩ := Option.ne_none_iff_exists'.mp closed
      have pair := (findCloser_eq_some_iff differ scan.2.1).mp closed
      have around := (pair.around_iff differ inside found).mpr ⟨Nat.le_refl o', pair.1⟩
      have ahead : o < c' := by
        refine Nat.lt_of_le_of_ne around.2 fun same => differ ?_
        rw [same, pair.2.2.1] at opens
        exact (Option.some.inj opens).symm
      obtain ⟨c, inner, _⟩ := pair.inner differ opens scan.1 ahead
      rw [(findCloser_eq_some_iff differ opens).mpr inner] at unclosed
      cases unclosed

/-- All pairs that lie around something, from the inside out. -/
structure Outward (t : Text) (b : Bracket) (around : Nat → Nat → Prop)
    (pairs : List (Nat × Nat)) : Prop where
  nested : pairs.Pairwise fun inner outer => outer.1 < inner.1 ∧ inner.2 < outer.2
  mem_iff : ∀ o c, (o, c) ∈ pairs ↔ t.IsPair b o c ∧ around o c

theorem Outward.congr {around around' : Nat → Nat → Prop} (outward : t.Outward b around pairs)
    (same : ∀ o c, t.IsPair b o c → (around o c ↔ around' o c)) : t.Outward b around' pairs :=
  ⟨outward.nested, fun o c => (outward.mem_iff o c).trans (and_congr_right (same o c))⟩

/-- An opener is in a pair if it is in some pair, and that is the innermost one around it. -/
theorem IsPair.innermost (differ : b.opener ≠ b.closer) (opens : t[o]? = some b.opener)
    (pair : t.IsPair b p q) (ahead : p ≤ o) (behind : o ≤ q) :
    ∃ c, t.IsPair b o c ∧ (p = o ∧ q = c ∨ p < o ∧ c < q) := by
  rcases Nat.eq_or_lt_of_le ahead with rfl | outer
  · exact ⟨q, pair, .inl ⟨rfl, rfl⟩⟩
  · have within : o < q := by
      refine Nat.lt_of_le_of_ne behind ?_
      rintro rfl
      exact differ (Option.some.inj (opens.symm.trans pair.2.2.1))
    obtain ⟨c, inner, before⟩ := pair.inner differ opens outer within
    exact ⟨c, inner, .inr ⟨outer, before⟩⟩

/-- The pair of an opener, if it is closed, comes ahead of the pairs further out. -/
theorem Outward.of_opener (differ : b.opener ≠ b.closer) (opens : t[o]? = some b.opener)
    (outward : t.Outward b (fun p q => p < o ∧ o ≤ q) outer)
    (walk : ∀ n, (t.findOpener b o).bind (t.outerPair b n) = outer[n]?) :
    ∃ pairs, t.Outward b (fun p q => p ≤ o ∧ o ≤ q) pairs ∧
      ∀ n, t.outerPair b n o = pairs[n]? := by
  cases closed : t.findCloser b (o + 1) with
  | none =>
    refine ⟨[], ⟨.nil, fun p q => ⟨nofun, ?_⟩⟩, outerPair_of_unclosed differ opens closed⟩
    rintro ⟨pair, ahead, behind⟩
    obtain ⟨c, inner, _⟩ := pair.innermost differ opens ahead behind
    rw [(findCloser_eq_some_iff differ opens).mpr inner] at closed
    cases closed
  | some c =>
    have pair := (findCloser_eq_some_iff differ opens).mp closed
    refine ⟨(o, c) :: outer, ⟨.cons ?_ outward.nested, fun p q => ?_⟩, fun n => ?_⟩
    · intro entry member
      obtain ⟨pair', ahead, behind⟩ := (outward.mem_iff entry.1 entry.2).mp member
      obtain ⟨c', inner, ⟨same, _⟩ | ⟨_, before⟩⟩ :=
        pair'.innermost differ opens (Nat.le_of_lt ahead) behind
      · omega
      · exact ⟨ahead, pair.closer_unique differ inner ▸ before⟩
    · rw [List.mem_cons, outward.mem_iff, Prod.mk.injEq]
      constructor
      · rintro (⟨rfl, rfl⟩ | ⟨pair', ahead, behind⟩)
        · exact ⟨pair, Nat.le_refl p, Nat.le_of_lt pair.1⟩
        · exact ⟨pair', Nat.le_of_lt ahead, behind⟩
      · rintro ⟨pair', ahead, behind⟩
        obtain ⟨c', inner, ⟨rfl, rfl⟩ | ⟨before, _⟩⟩ := pair'.innermost differ opens ahead behind
        · exact .inl ⟨rfl, inner.closer_unique differ pair⟩
        · exact .inr ⟨pair', before, behind⟩
    · cases n with
      | zero =>
        rw [outerPair, outerOpener, Option.bind_some, closed]
        rfl
      | succ n =>
        rw [outerPair_succ]
        exact walk n

/-- From any place, the scan for an opener leads outwards through all the pairs that begin ahead. -/
theorem exists_outward (differ : b.opener ≠ b.closer) (inside : i ≤ t.length) :
    ∃ pairs, t.Outward b (fun o c => o < i ∧ i ≤ c) pairs ∧
      ∀ n, (t.findOpener b i).bind (t.outerPair b n) = pairs[n]? := by
  induction i using Nat.strong_induction_on with
  | _ i ih =>
    have scan := findOpener_spec (t := t) (b := b) differ inside
    cases found : t.findOpener b i with
    | none =>
      refine ⟨[], ⟨.nil, fun o c => ⟨nofun, ?_⟩⟩, fun n => rfl⟩
      rintro ⟨pair, ahead, behind⟩
      exact absurd behind (Nat.not_le_of_lt (pair.not_around differ inside found ahead))
    | some o =>
      rw [found] at scan
      obtain ⟨before, opens, _⟩ := scan
      obtain ⟨outer, outward, walk⟩ := ih o before (by omega)
      obtain ⟨pairs, around, out⟩ := outward.of_opener differ opens walk
      refine ⟨pairs, around.congr fun p q pair => ?_, out⟩
      rw [pair.around_iff differ inside found]
      refine and_congr_right fun _ => ⟨fun behind => ?_, Nat.le_of_lt⟩
      refine Nat.lt_of_le_of_ne behind ?_
      rintro rfl
      exact differ (Option.some.inj (opens.symm.trans pair.2.2.1))

end Text

namespace TextObject

/-- The bracket object at a place is the `n`-th pair around it from the inside, without its brackets
or with them. There is none exactly if there are fewer than `n` pairs around the place. -/
theorem bracket_object_is_nth_pair {t : Text} {b : Bracket} (differ : b.opener ≠ b.closer)
    (inside : i < t.length) :
    ∃ pairs : List (Nat × Nat),
      (∀ o c, (o, c) ∈ pairs ↔ t.IsPair b o c ∧ o ≤ i ∧ i ≤ c) ∧
      pairs.Pairwise (fun inner outer => outer.1 < inner.1 ∧ inner.2 < outer.2) ∧
      ∀ n ≥ 1, ∀ inner : Bool,
        (resolve ⟨.bracket b, inner⟩ t i n = none ↔ pairs.length < n) ∧
        ∀ s, resolve ⟨.bracket b, inner⟩ t i n = some s →
          ∃ o c, pairs[n - 1]? = some (o, c) ∧
            (s.start, s.stop) = if inner then (o + 1, c) else (o, c + 1) := by
  obtain ⟨pairs, around, walk⟩ : ∃ pairs, t.Outward b (fun o c => o ≤ i ∧ i ≤ c) pairs ∧
      ∀ n, t.bracketPair b i (n + 1) = pairs[n]? := by
    obtain ⟨outer, outward, walk⟩ := Text.exists_outward differ (Nat.le_of_lt inside)
    by_cases opens : t[i]? = some b.opener
    · obtain ⟨pairs, around, out⟩ := outward.of_opener differ opens walk
      refine ⟨pairs, around, fun n => ?_⟩
      rw [Text.bracketPair_eq_outerPair, if_pos opens]
      exact out n
    · refine ⟨outer, outward.congr fun o c pair => and_congr_left fun _ => ?_, fun n => ?_⟩
      · refine ⟨Nat.le_of_lt, fun ahead => Nat.lt_of_le_of_ne ahead ?_⟩
        rintro rfl
        exact opens pair.2.1
      · rw [Text.bracketPair_eq_outerPair, if_neg opens]
        exact walk n
  refine ⟨pairs, around.mem_iff, around.nested, fun n some inner => ?_⟩
  obtain ⟨n, rfl⟩ : ∃ k, n = k + 1 := ⟨n - 1, by omega⟩
  have resolved : resolve ⟨.bracket b, inner⟩ t i (n + 1) = pairs[n]?.map (delimited inner) := by
    rw [← walk n, resolve, if_neg (Nat.not_le_of_lt inside)]
  rw [resolved]
  constructor
  · rw [Option.map_eq_none_iff, List.getElem?_eq_none_iff, Nat.lt_succ_iff]
  · intro s found
    obtain ⟨⟨o, c⟩, there, rfl⟩ := Option.map_eq_some_iff.mp found
    have pair := ((around.mem_iff o c).mp (List.mem_of_getElem? there)).1
    exact ⟨o, c, there, delimited_ends inner pair.1⟩

/-- Two pairs around a place, and no third one: the first opener is not closed. -/
theorem bracket_object_is_second_pair :
    let t : Text := ['(', '(', 'a', '(', 'b', ')', ')']
    let b : Bracket := ⟨'(', ')'⟩
    b.opener ≠ b.closer ∧ 4 < t.length ∧ t.IsPair b 3 5 ∧
      resolve ⟨.bracket b, true⟩ t 4 2 = some ⟨2, 6, by decide⟩ ∧
      resolve ⟨.bracket b, true⟩ t 4 3 = none ∧
      ∃ pairs : List (Nat × Nat), (3, 5) ∈ pairs ∧ pairs[1]? = some (1, 6) ∧ pairs.length < 3 := by
  intro t b
  have differ : b.opener ≠ b.closer := by decide
  have inside : 4 < t.length := by decide
  have inner : t.IsPair b 3 5 := by decide
  have second : resolve ⟨.bracket b, true⟩ t 4 2 = some ⟨2, 6, by decide⟩ := by decide
  have nothing : resolve ⟨.bracket b, true⟩ t 4 3 = none := by decide
  obtain ⟨pairs, mem, _, nth⟩ := bracket_object_is_nth_pair differ inside
  obtain ⟨o, c, there, same⟩ := (nth 2 (by decide) true).2 _ second
  obtain ⟨rfl, rfl⟩ : o = 1 ∧ 6 = c := by simpa using same
  refine ⟨differ, inside, inner, second, nothing, pairs, ?_, there, ?_⟩
  · exact (mem 3 5).mpr ⟨inner, by decide, by decide⟩
  · exact (nth 3 (by decide) true).1.mp nothing

end TextObject

end ModalEdit
