import Mathlib.Data.List.TakeWhile
import ModalEdit.Text.Basic

/-! Where lines begin and end. The list of lines is the view: the rest of a text from line `l` on
has the lines of the text from the `l`-th on, and a line ends where the next one begins. -/
namespace ModalEdit.Text

/-! ### One line after another -/

theorem lines_of_break {t : Text} (h : '\n' ∈ t) :
    t.lines = t.takeWhile (· != '\n') :: lines ((t.dropWhile (· != '\n')).drop 1) := by
  induction t with
  | nil => simp at h
  | cons c t ih =>
    by_cases first : c = '\n'
    · simp [lines, first]
    · have later : '\n' ∈ t := by simpa [Ne.symm first] using h
      simp [lines, first, ih later]

theorem lines_of_no_break {t : Text} (h : '\n' ∉ t) : t.lines = [t] := by
  induction t with
  | nil => rfl
  | cons c t ih =>
    simp only [List.mem_cons, not_or] at h
    simp [lines, Ne.symm h.1, ih h.2]

theorem head_lines (t : Text) : t.lines.head? = some (t.takeWhile (· != '\n')) := by
  by_cases h : '\n' ∈ t
  · simp [lines_of_break h]
  · have all : ∀ c ∈ t, (c != '\n') = true := by
      intro c member
      simpa using fun same : c = '\n' => h (same ▸ member)
    simp [lines_of_no_break h, List.takeWhile_eq_self_iff.mpr all]

theorem lastLine_tail {t : Text} (h : '\n' ∈ t) :
    lastLine ((t.dropWhile (· != '\n')).drop 1) + 1 = t.lastLine := by
  have same := congrArg List.length (lines_of_break h)
  simp only [List.length_cons, length_lines, lineCount] at same
  omega

theorem lines_dropLines {t : Text} (h : n ≤ t.lastLine) :
    (dropLines n t).lines = t.lines.drop n := by
  induction n generalizing t with
  | zero => rfl
  | succ n ih =>
    have some_break : '\n' ∈ t := List.count_pos_iff.mp (Nat.lt_of_lt_of_le (Nat.succ_pos n) h)
    have one_less := lastLine_tail some_break
    rw [dropLines, ih (by omega), lines_of_break some_break, List.drop_succ_cons]

theorem dropLines_succ (n : Nat) (t : Text) :
    dropLines (n + 1) t = ((dropLines n t).dropWhile (· != '\n')).drop 1 := by
  induction n generalizing t with
  | zero => rfl
  | succ n ih => exact ih _

theorem dropLines_suffix (n : Nat) (t : Text) : dropLines n t <:+ t := by
  induction n generalizing t with
  | zero => exact List.suffix_rfl
  | succ n ih =>
    exact (ih _).trans ((List.drop_suffix 1 _).trans (List.dropWhile_suffix _))

/-! ### The rest of a text from a line on -/

theorem fromLine_suffix (t : Text) (l : Nat) : t.fromLine l <:+ t := dropLines_suffix _ t

theorem lines_fromLine {t : Text} (h : l ≤ t.lastLine) : (t.fromLine l).lines = t.lines.drop l := by
  rw [fromLine, Nat.min_eq_left h, lines_dropLines h]

theorem drop_lineStart (t : Text) (l : Nat) : t.drop (t.lineStart l) = t.fromLine l := by
  obtain ⟨ahead, whole⟩ := t.fromLine_suffix l
  have length : t.lineStart l = ahead.length := by
    have := congrArg List.length whole
    simp only [List.length_append] at this
    simp only [lineStart]
    omega
  calc t.drop (t.lineStart l) = (ahead ++ t.fromLine l).drop ahead.length := by rw [length, whole]
    _ = t.fromLine l := List.drop_left

theorem lineStart_add_length (t : Text) (l : Nat) :
    t.lineStart l + (t.fromLine l).length = t.length :=
  Nat.sub_add_cancel (t.fromLine_suffix l).length_le

theorem lines_drop_past {t : Text} (h : t.lastLine < l) : t.lines.drop l = [] := by
  rw [List.drop_eq_nil_iff, length_lines]
  exact h

theorem lines_getElem? {t : Text} (h : l ≤ t.lastLine) : t.lines[l]? = some (t.line l) := by
  rw [← List.head?_drop, ← lines_fromLine h, head_lines, line]

theorem lines_drop {t : Text} (h : l ≤ t.lastLine) :
    t.lines.drop l = t.line l :: t.lines.drop (l + 1) := by
  have inside : l < t.lines.length := by
    rw [length_lines]
    exact Nat.lt_succ_of_le h
  have row := lines_getElem? h
  rw [List.getElem?_eq_getElem inside] at row
  rw [List.drop_eq_getElem_cons inside, Option.some.inj row]

theorem lines_eq_append {t : Text} (h : l ≤ t.lastLine) :
    t.lines = t.lines.take l ++ t.line l :: t.lines.drop (l + 1) := by
  rw [← lines_drop h, List.take_append_drop]

theorem length_take_lines {t : Text} (h : l ≤ t.lastLine) : (t.lines.take l).length = l := by
  rw [List.length_take, length_lines]
  exact Nat.min_eq_left (Nat.le_succ_of_le h)

/-- A line is told by the number of lines ahead of it. -/
theorem line_of_lines {t : Text} (parts : t.lines = ahead ++ row :: rest) :
    ahead.length + rest.length = t.lastLine ∧ t.line ahead.length = row := by
  have count : ahead.length + rest.length = t.lastLine := by
    have count := congrArg List.length parts
    rw [length_lines, lineCount, List.length_append, List.length_cons] at count
    omega
  refine ⟨count, ?_⟩
  have there := lines_getElem? (Nat.le.intro count)
  rw [parts, List.getElem?_append_right (Nat.le_refl _), Nat.sub_self] at there
  exact (Option.some.inj there).symm

/-- The break that ends line `l` stands between it and the next one. -/
theorem fromLine_eq_append {t : Text} (h : l < t.lastLine) :
    t.fromLine l = t.line l ++ '\n' :: t.fromLine (l + 1) := by
  have next : t.fromLine (l + 1) = ((t.fromLine l).dropWhile (· != '\n')).drop 1 := by
    rw [fromLine, fromLine, Nat.min_eq_left h, Nat.min_eq_left (Nat.le_of_lt h), dropLines_succ]
  have some_break : '\n' ∈ t.fromLine l := by
    apply List.count_pos_iff.mp
    have rest := congrArg List.length (lines_fromLine (Nat.le_of_lt h))
    simp only [length_lines, List.length_drop, lineCount, lastLine] at rest h
    omega
  obtain ⟨rest, same⟩ : ∃ rest, (t.fromLine l).dropWhile (· != '\n') = '\n' :: rest := by
    cases same : (t.fromLine l).dropWhile (· != '\n') with
    | nil =>
      have := List.dropWhile_eq_nil_iff.mp same '\n' some_break
      simp at this
    | cons c rest =>
      have := List.head?_dropWhile_not (· != '\n') (t.fromLine l)
      simp only [same, List.head?_cons] at this
      exact ⟨rest, by simp_all⟩
  have parts := List.takeWhile_append_dropWhile (p := (· != '\n')) (l := t.fromLine l)
  rw [same] at parts
  rw [next, same, line]
  exact parts.symm

/-! ### Ends of lines -/

theorem lineEnd_le_length (t : Text) (l : Nat) : t.lineEnd l ≤ t.length := by
  have rest := t.lineStart_add_length l
  have row : (t.line l).length ≤ (t.fromLine l).length := (List.takeWhile_prefix _).length_le
  simp only [lineEnd, lineLength]
  omega

theorem take_lineLength_fromLine (t : Text) (l : Nat) :
    (t.fromLine l).take (t.lineLength l) = t.line l :=
  (List.prefix_iff_eq_take.mp (List.takeWhile_prefix _)).symm

theorem take_lineEnd (t : Text) (l : Nat) :
    t.take (t.lineEnd l) = t.take (t.lineStart l) ++ t.line l := by
  rw [lineEnd, List.take_add, drop_lineStart, take_lineLength_fromLine]

theorem line_append_drop_lineEnd (t : Text) (l : Nat) :
    t.line l ++ t.drop (t.lineEnd l) = t.fromLine l := by
  have row := t.take_lineLength_fromLine l
  rw [lineEnd, ← List.drop_drop, drop_lineStart]
  calc t.line l ++ (t.fromLine l).drop (t.lineLength l)
      = (t.fromLine l).take (t.lineLength l) ++ (t.fromLine l).drop (t.lineLength l) := by rw [row]
    _ = t.fromLine l := List.take_append_drop _ _

theorem lineStart_le_lineEnd (t : Text) (l : Nat) : t.lineStart l ≤ t.lineEnd l :=
  Nat.le_add_right _ _

theorem lineStart_succ {t : Text} (h : l < t.lastLine) :
    t.lineStart (l + 1) = t.lineEnd l + 1 := by
  have rest := t.lineStart_add_length l
  have after := t.lineStart_add_length (l + 1)
  have parts := congrArg List.length (fromLine_eq_append h)
  simp only [List.length_append, List.length_cons] at parts
  simp only [lineEnd, lineLength]
  omega

theorem lineStart_of_lastLine_le {t : Text} (h : t.lastLine ≤ l) :
    t.lineStart l = t.lineStart t.lastLine := by
  simp [lineStart, fromLine, Nat.min_eq_right h]

theorem lineEnd_of_lastLine_le {t : Text} (h : t.lastLine ≤ l) :
    t.lineEnd l = t.lineEnd t.lastLine := by
  simp [lineEnd, lineLength, line, lineStart, fromLine, Nat.min_eq_right h]

theorem lineEnd_min (t : Text) (l : Nat) : t.lineEnd (min l t.lastLine) = t.lineEnd l := by
  rcases Nat.le_total l t.lastLine with inside | past
  · rw [Nat.min_eq_left inside]
  · rw [Nat.min_eq_right past, lineEnd_of_lastLine_le past]

theorem lineStart_mono (t : Text) (h : a ≤ b) : t.lineStart a ≤ t.lineStart b := by
  induction h with
  | refl => exact Nat.le_refl _
  | @step b _ ih =>
    rcases Nat.lt_or_ge b t.lastLine with inside | past
    · rw [lineStart_succ inside]
      exact Nat.le_succ_of_le (Nat.le_trans ih (t.lineStart_le_lineEnd b))
    · rw [Nat.succ_eq_add_one, lineStart_of_lastLine_le (Nat.le_succ_of_le past),
        ← lineStart_of_lastLine_le past]
      exact ih

theorem lineStart_le_lineEnd_of_le (t : Text) (h : a ≤ b) : t.lineStart a ≤ t.lineEnd b :=
  Nat.le_trans (t.lineStart_mono h) (t.lineStart_le_lineEnd b)

theorem lineEnd_mono (t : Text) (h : a ≤ b) : t.lineEnd a ≤ t.lineEnd b := by
  rcases Nat.eq_or_lt_of_le h with rfl | less
  · exact Nat.le_refl _
  · rcases Nat.lt_or_ge a t.lastLine with inside | past
    · have next := lineStart_succ inside
      have ordered := t.lineStart_le_lineEnd_of_le (Nat.succ_le_of_lt less)
      rw [Nat.succ_eq_add_one] at ordered
      omega
    · rw [lineEnd_of_lastLine_le past, lineEnd_of_lastLine_le (Nat.le_trans past h)]

/-- The breaks ahead of a place are left behind on the way to its line. -/
theorem length_le_dropLines (ahead rest : Text) :
    rest.length ≤ (dropLines (ahead.count '\n') (ahead ++ rest)).length := by
  induction ahead with
  | nil => exact Nat.le_refl _
  | cons c ahead ih =>
    by_cases first : c = '\n'
    · simpa [first, dropLines] using ih
    · rw [List.count_cons_of_ne first]
      cases same : ahead.count '\n' with
      | zero => simp [dropLines]; omega
      | succ n => simpa [same, dropLines, first] using ih

theorem lineStart_lineOf_le (t : Text) (i : Nat) : t.lineStart (t.lineOf i) ≤ i := by
  have rest := length_le_dropLines (t.take i) (t.drop i)
  rw [List.take_append_drop, List.length_drop] at rest
  rw [lineStart, fromLine, Nat.min_eq_left (t.lineOf_le_lastLine i), lineOf]
  omega

theorem lineOf_mono (t : Text) (h : i ≤ j) : t.lineOf i ≤ t.lineOf j :=
  (List.take_sublist_take_left h).count_le _

/-- A place from the start of a line to its break is on that line. -/
theorem lineOf_eq {t : Text} (h : l ≤ t.lastLine) (start : t.lineStart l ≤ i)
    (stop : i ≤ t.lineEnd l) : t.lineOf i = l := by
  obtain ⟨k, rfl⟩ := Nat.exists_eq_add_of_le start
  have ahead : (t.take (t.lineStart l)).count '\n' = l := by
    have whole := congrArg (List.count '\n') (List.take_append_drop (t.lineStart l) t)
    have rest := congrArg List.length (lines_fromLine h)
    rw [List.count_append, drop_lineStart] at whole
    simp only [length_lines, List.length_drop, lineCount, lastLine] at rest h
    omega
  have inside : (t.fromLine l).take k <+: t.line l := by
    apply List.prefix_of_prefix_length_le (List.take_prefix _ _) (List.takeWhile_prefix _)
    have : k ≤ t.lineLength l := by
      unfold lineEnd at stop
      omega
    exact Nat.le_trans (List.length_take_le _ _) this
  have none : ((t.fromLine l).take k).count '\n' = 0 := by
    refine List.count_eq_zero.mpr fun member => ?_
    have := List.mem_takeWhile_imp (inside.subset member)
    simp at this
  rw [lineOf, List.take_add, List.count_append, drop_lineStart, ahead, none, Nat.add_zero]

theorem lineOf_lineStart {t : Text} (h : l ≤ t.lastLine) : t.lineOf (t.lineStart l) = l :=
  lineOf_eq h (Nat.le_refl _) (t.lineStart_le_lineEnd l)

theorem fromLine_lastLine (t : Text) : t.fromLine t.lastLine = t.line t.lastLine := by
  have whole : ∀ c ∈ t.fromLine t.lastLine, (c != '\n') = true := by
    intro c member
    refine bne_iff_ne.mpr fun same => ?_
    have two := congrArg List.length (lines_of_break (same ▸ member))
    have one := congrArg List.length (lines_fromLine (Nat.le_refl t.lastLine))
    simp only [List.length_drop, length_lines, lineCount] at one
    simp only [List.length_cons, length_lines, lineCount] at two
    omega
  exact (List.takeWhile_eq_self_iff.mpr whole).symm

theorem lineEnd_lastLine (t : Text) : t.lineEnd t.lastLine = t.length := by
  rw [lineEnd, lineLength, ← fromLine_lastLine]
  exact t.lineStart_add_length t.lastLine

/-- Every place is on its line or at the end of it. -/
theorem le_lineEnd_lineOf {t : Text} (h : i ≤ t.length) : i ≤ t.lineEnd (t.lineOf i) := by
  rcases Nat.eq_or_lt_of_le (t.lineOf_le_lastLine i) with last | inside
  · rw [last, lineEnd_lastLine]
    exact h
  · by_contra past
    have next : t.lineStart (t.lineOf i + 1) ≤ i := by
      rw [lineStart_succ inside]
      omega
    have later := t.lineOf_mono next
    rw [lineOf_lineStart (Nat.succ_le_of_lt inside)] at later
    omega

/-- A place is told by its line and its column. -/
theorem column_lineStart_add {t : Text} (h : l ≤ t.lastLine) (within : k ≤ t.lineLength l) :
    t.lineOf (t.lineStart l + k) = l ∧ t.column (t.lineStart l + k) = k := by
  have stop := t.lineEnd_le_length l
  rw [lineEnd] at stop
  have line : t.lineOf (t.lineStart l + k) = l :=
    lineOf_eq h (Nat.le_add_right _ _) (Nat.add_le_add_left within _)
  refine ⟨line, ?_⟩
  rw [column, line, Nat.min_eq_left (by omega), Nat.add_sub_cancel_left]

/-! ### Breaks -/

theorem break_not_mem_line (t : Text) (l : Nat) : '\n' ∉ t.line l := by
  intro member
  have := List.mem_takeWhile_imp member
  simp at this

/-- What follows a line is its break and the next line. -/
theorem drop_lineEnd {t : Text} (h : l < t.lastLine) :
    t.drop (t.lineEnd l) = '\n' :: t.fromLine (l + 1) := by
  rw [lineEnd, ← List.drop_drop, drop_lineStart, fromLine_eq_append h, lineLength, List.drop_left]

theorem getElem?_lineEnd {t : Text} (h : l < t.lastLine) : t[t.lineEnd l]? = some '\n' := by
  rw [← List.head?_drop, drop_lineEnd h]
  rfl

theorem drop_lineEnd_lastLine (t : Text) : t.drop (t.lineEnd t.lastLine) = [] := by
  rw [lineEnd_lastLine, List.drop_length]

theorem drop_lineEnd_boundary (t : Text) (l : Nat) (h : l ≤ t.lastLine) :
    ∀ c, (t.drop (t.lineEnd l)).head? = some c → c = '\n' := by
  intro c first
  rcases Nat.eq_or_lt_of_le h with rfl | inside
  · rw [drop_lineEnd_lastLine] at first
    cases first
  · rw [drop_lineEnd inside] at first
    exact (Option.some.inj first).symm

theorem getElem?_line {t : Text} (h : k < (t.line l).length) :
    t[t.lineStart l + k]? = (t.line l)[k]? := by
  rw [← List.getElem?_drop, drop_lineStart, ← line_append_drop_lineEnd,
    List.getElem?_append_left h]

/-- What stands on a line is no break. -/
theorem getElem?_line_ne_break {t : Text} (h : k < t.lineLength l) :
    ∃ c, t[t.lineStart l + k]? = some c ∧ c ≠ '\n' := by
  refine ⟨(t.line l).get ⟨k, h⟩, ?_, fun same => t.break_not_mem_line l (same ▸ List.getElem_mem h)⟩
  rw [getElem?_line h, List.getElem?_eq_getElem h]
  rfl

/-- What is no break has the end of its line behind it. -/
theorem lt_lineEnd_of_visible {t : Text} (there : t[i]? = some c) (visible : c ≠ '\n') :
    i < t.lineEnd (t.lineOf i) := by
  have inside := (List.getElem?_eq_some_iff.mp there).1
  refine Nat.lt_of_le_of_ne (le_lineEnd_lineOf (Nat.le_of_lt inside)) fun same => visible ?_
  have first : (t.drop (t.lineEnd (t.lineOf i))).head? = some c := by
    rw [← same, List.head?_drop, there]
  exact t.drop_lineEnd_boundary _ (t.lineOf_le_lastLine i) c first

/-- A line ends at its break, or with the text. -/
theorem lineEnd_lineOf_eq {t : Text} (h : i ≤ t.length)
    (boundary : ∀ c, (t.drop i).head? = some c → c = '\n') : t.lineEnd (t.lineOf i) = i := by
  refine Nat.le_antisymm ?_ (le_lineEnd_lineOf h)
  by_contra inside
  have start := t.lineStart_lineOf_le i
  obtain ⟨k, place⟩ := Nat.exists_eq_add_of_le start
  have within : k < (t.line (t.lineOf i)).length := by
    rw [lineEnd, lineLength] at inside
    omega
  have there := List.getElem?_eq_getElem within
  rw [← getElem?_line within, ← place] at there
  have row := boundary _ (List.head?_drop.trans there)
  exact t.break_not_mem_line (t.lineOf i) (row ▸ List.getElem_mem within)

/-! ### Whole lines -/

/-- The lines from `a` to `b`, each of them with a break. -/
def wholeLines (t : Text) (a b : Nat) : Text :=
  ((t.lines.drop a).take (b + 1 - a)).flatMap (· ++ ['\n'])

theorem wholeLines_self {t : Text} (h : a ≤ t.lastLine) : t.wholeLines a a = t.line a ++ ['\n'] := by
  have first : (t.lines.drop a).head? = some (t.line a) := by
    rw [List.head?_drop, lines_getElem? h]
  obtain ⟨rest, same⟩ := List.head?_eq_some_iff.mp first
  simp [wholeLines, same]

theorem wholeLines_succ {t : Text} (h : a ≤ b) (last : b < t.lastLine) :
    t.wholeLines a (b + 1) = t.wholeLines a b ++ (t.line (b + 1) ++ ['\n']) := by
  have more : b + 1 + 1 - a = b + 1 - a + 1 := by omega
  have next : (t.lines.drop a)[b + 1 - a]? = some (t.line (b + 1)) := by
    rw [List.getElem?_drop, Nat.add_sub_cancel' (Nat.le_succ_of_le h), lines_getElem? last]
  rw [wholeLines, more, List.take_add_one, next, List.flatMap_append, ← wholeLines]
  simp

theorem fromLine_eq_wholeLines {t : Text} (h : a ≤ b) (last : b < t.lastLine) :
    t.fromLine a = t.wholeLines a b ++ t.fromLine (b + 1) := by
  induction h with
  | refl => rw [fromLine_eq_append last, wholeLines_self (Nat.le_of_lt last)]; simp
  | @step b h ih =>
    rw [ih (Nat.lt_of_succ_lt last), fromLine_eq_append last,
      wholeLines_succ h (Nat.lt_of_succ_lt last)]
    simp

theorem slice_line (t : Text) (l : Nat) :
    t.slice (Span.between (t.lineStart l) (t.lineEnd l)) = t.line l := by
  rw [Span.between_of_le (t.lineStart_le_lineEnd l), slice, drop_lineStart]
  simp only [Span.length, lineEnd, Nat.add_sub_cancel_left]
  exact t.take_lineLength_fromLine l

/-- Several lines without the last break are whole lines up to the last of them. -/
theorem slice_lines {t : Text} (h : a ≤ b) (last : b < t.lastLine) :
    t.slice (Span.between (t.lineStart a) (t.lineEnd (b + 1))) =
      t.wholeLines a b ++ t.line (b + 1) := by
  have rest := fromLine_eq_wholeLines h last
  have length : (t.wholeLines a b).length + t.lineStart a = t.lineStart (b + 1) := by
    have := congrArg List.length rest
    have first := t.lineStart_add_length a
    have next := t.lineStart_add_length (b + 1)
    rw [List.length_append] at this
    omega
  have ordered := t.lineStart_le_lineEnd_of_le (Nat.le_succ_of_le h)
  have taken : t.lineEnd (b + 1) - t.lineStart a =
      (t.wholeLines a b).length + (t.line (b + 1)).length := by
    simp only [lineEnd, lineLength]
    omega
  have row : (t.fromLine (b + 1)).take (t.line (b + 1)).length = t.line (b + 1) :=
    t.take_lineLength_fromLine (b + 1)
  rw [Span.between_of_le ordered, slice, drop_lineStart, Span.length, taken, rest,
    List.take_length_add_append, row]

end ModalEdit.Text
