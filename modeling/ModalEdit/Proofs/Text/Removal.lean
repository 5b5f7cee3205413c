import ModalEdit.Extent
import ModalEdit.Proofs.Text.Lines

/-! The lines of a text from which whole lines are taken. A text that is cut at the start of a line
is the lines ahead of the cut, each with its break; so what is put behind the cut begins a line of
its own, and no line ahead of it changes. -/
namespace ModalEdit.Text

variable {t : Text}

/-- Texts are told apart by their lines. -/
theorem eq_of_lines_eq {t' : Text} (same : t.lines = t'.lines) : t = t' := by
  rw [← t.intercalate_lines, ← t'.intercalate_lines, same]

/-- A break ends a line and begins another one. -/
theorem lines_append_break (u v : Text) : lines (u ++ '\n' :: v) = lines u ++ lines v := by
  induction u with
  | nil => rfl
  | cons c u ih =>
    obtain ⟨first, rest, same⟩ := List.exists_cons_of_ne_nil (lines_ne_nil u)
    by_cases h : c = '\n' <;> simp [lines, h, ih, same]

/-! ### Cuts -/

theorem remove_of_isEmpty {s : Span} (nothing : s.isEmpty = true) : t.remove s = t := by
  have ends : s.start = s.stop := beq_iff_eq.mp nothing
  rw [remove, ends, List.take_append_drop]

theorem le_length_remove {s : Span} (inside : s.start ≤ t.length) :
    s.start ≤ (t.remove s).length := by
  rw [remove, List.length_append, List.length_take_of_le inside]
  exact Nat.le_add_right _ _

theorem lineStart_zero (t : Text) : t.lineStart 0 = 0 := by
  rw [lineStart, fromLine, Nat.zero_min]
  exact Nat.sub_self _

theorem drop_lineEnd_succ (h : l < t.lastLine) : t.drop (t.lineEnd l + 1) = t.fromLine (l + 1) := by
  rw [← lineStart_succ h, drop_lineStart]

theorem lineEnd_lt_length_iff (h : l ≤ t.lastLine) : t.lineEnd l < t.length ↔ l < t.lastLine := by
  constructor
  · intro inside
    refine Nat.lt_of_le_of_ne h fun last => ?_
    rw [last, lineEnd_lastLine] at inside
    exact Nat.lt_irrefl _ inside
  · intro before
    have next : t.lineStart (l + 1) ≤ t.length := Nat.sub_le _ _
    rwa [lineStart_succ before] at next

theorem lines_take_lineEnd (h : l ≤ t.lastLine) :
    lines (t.take (t.lineEnd l)) = t.lines.take (l + 1) := by
  rcases Nat.eq_or_lt_of_le h with rfl | inside
  · have all : t.lines.length ≤ t.lastLine + 1 := Nat.le_of_eq t.length_lines
    rw [lineEnd_lastLine, List.take_length, List.take_of_length_le all]
  · have parts := congrArg lines (List.take_append_drop (t.lineEnd l) t)
    rw [drop_lineEnd inside, lines_append_break, lines_fromLine inside] at parts
    exact List.append_cancel_right (parts.trans (List.take_append_drop (l + 1) t.lines).symm)

/-- What is put behind the lines ahead of line `l` follows them. -/
theorem lines_take_lineStart_append (h : l ≤ t.lastLine) (v : Text) :
    lines (t.take (t.lineStart l) ++ v) = t.lines.take l ++ v.lines := by
  cases l with
  | zero => rw [lineStart_zero]; rfl
  | succ l =>
    have break_ : (t.drop (t.lineEnd l)).take 1 = ['\n'] := by rw [drop_lineEnd h]; rfl
    rw [lineStart_succ h, List.take_add, break_, List.append_assoc, List.singleton_append,
      lines_append_break, lines_take_lineEnd (Nat.le_of_lt h)]

theorem lines_drop_lineEnd (h : l ≤ t.lastLine) :
    lines (t.drop (t.lineEnd l)) = [] :: t.lines.drop (l + 1) := by
  rcases Nat.eq_or_lt_of_le h with rfl | inside
  · rw [drop_lineEnd_lastLine, lines_drop_past (Nat.lt_succ_self _)]
    rfl
  · rw [drop_lineEnd inside, ← lines_fromLine inside]
    rfl

/-- What is put behind the lines ahead of line `l` begins on line `l`. -/
theorem fromLine_take_lineStart_append (h : l ≤ t.lastLine) (v : Text) :
    fromLine (t.take (t.lineStart l) ++ v) l = v := by
  have parts := lines_take_lineStart_append h v
  have ahead := length_take_lines h
  have inside : l ≤ lastLine (t.take (t.lineStart l) ++ v) := by
    have count := congrArg List.length parts
    have some := List.length_pos_iff.mpr (lines_ne_nil v)
    rw [length_lines, lineCount, List.length_append, ahead] at count
    omega
  apply eq_of_lines_eq
  rw [lines_fromLine inside, parts, List.drop_left' ahead]

theorem lineStart_take_lineStart_append (h : l ≤ t.lastLine) (v : Text) :
    lineStart (t.take (t.lineStart l) ++ v) l = t.lineStart l := by
  have start : t.lineStart l ≤ t.length := Nat.sub_le _ _
  rw [lineStart, fromLine_take_lineStart_append h, List.length_append, List.length_take_of_le start,
    Nat.add_sub_cancel]

/-! ### Taking out lines -/

/-- The lines of a text without those from `a` to `b`. A text without lines has an empty one. -/
def linesWithout (t : Text) (a b : Nat) : List Text :=
  let rest := t.lines.take a ++ t.lines.drop (b + 1)
  if rest = [] then [[]] else rest

theorem ofLines_eq (h : a ≤ b) :
    Extent.ofLines t a b = ⟨⟨t.lineStart a, t.lineEnd b, t.lineStart_le_lineEnd_of_le h⟩, true⟩ := by
  rw [Extent.ofLines, Nat.min_eq_left h, Nat.max_eq_right h,
    Span.between_of_le (t.lineStart_le_lineEnd_of_le h)]

/-- A deletion of lines above the last one takes the break behind them. -/
theorem remove_removal_above (h : a ≤ b) (inside : b < t.lastLine) :
    t.remove ((Extent.ofLines t a b).removal t) = t.take (t.lineStart a) ++ t.fromLine (b + 1) := by
  have short := (lineEnd_lt_length_iff (Nat.le_of_lt inside)).mpr inside
  rw [ofLines_eq h, Extent.removal, if_pos rfl, withBreak, if_pos short, remove,
    drop_lineEnd_succ inside]

/-- A deletion down to the last line takes the break ahead, if there is one. -/
theorem remove_removal_last (h : a ≤ t.lastLine) :
    t.remove ((Extent.ofLines t a t.lastLine).removal t) = t.take (t.lineStart a - 1) := by
  have whole : ¬t.lineEnd t.lastLine < t.length := by
    rw [lineEnd_lastLine]
    exact Nat.lt_irrefl _
  rw [ofLines_eq h, Extent.removal, if_pos rfl, withBreak, if_neg whole, remove,
    drop_lineEnd_lastLine, List.append_nil]

theorem lines_remove_removal (h : a ≤ b) (last : b ≤ t.lastLine) :
    (t.remove ((Extent.ofLines t a b).removal t)).lines = t.linesWithout a b := by
  rcases Nat.eq_or_lt_of_le last with rfl | inside
  · -- the break ahead goes, so that the line ahead becomes the last one
    rw [remove_removal_last h, linesWithout, lines_drop_past (Nat.lt_succ_self _), List.append_nil]
    cases a with
    | zero => rw [lineStart_zero]; rfl
    | succ a =>
      have some : t.lines.take (a + 1) ≠ [] := by simp [lines_ne_nil]
      rw [lineStart_succ h, Nat.add_sub_cancel, lines_take_lineEnd (Nat.le_of_lt h), if_neg some]
  · have some : t.lines.take a ++ t.lines.drop (b + 1) ≠ [] := by
      have length := congrArg List.length (lines_fromLine inside)
      rw [length_lines, lineCount] at length
      apply List.append_ne_nil_of_right_ne_nil
      rw [← List.length_pos_iff, ← length]
      exact Nat.succ_pos _
    rw [remove_removal_above h inside,
      lines_take_lineStart_append (Nat.le_trans h (Nat.le_of_lt inside)), lines_fromLine inside,
      linesWithout, if_neg some]

theorem lastLine_remove_removal (h : a ≤ b) (last : b ≤ t.lastLine) :
    lastLine (t.remove ((Extent.ofLines t a b).removal t)) = a + (t.lastLine - b) - 1 := by
  have count := congrArg List.length (lines_remove_removal h last)
  rw [length_lines, lineCount, linesWithout] at count
  have rest : (t.lines.take a ++ t.lines.drop (b + 1)).length = a + (t.lastLine - b) := by
    rw [List.length_append, List.length_take, List.length_drop, length_lines, lineCount]
    omega
  split at count
  · rename_i nothing
    rw [nothing, List.length_nil] at rest
    rw [List.length_singleton] at count
    omega
  · omega

/-- Where lines have been deleted, there is now the line behind them, or else the last line. -/
theorem lineOf_remove_removal (h : a ≤ b) (last : b ≤ t.lastLine) :
    lineOf (t.remove ((Extent.ofLines t a b).removal t)) (t.lineStart a) =
      min a (lastLine (t.remove ((Extent.ofLines t a b).removal t))) := by
  have left := lastLine_remove_removal h last
  rcases Nat.eq_or_lt_of_le last with rfl | inside
  · rw [lineOf_of_length_le, left]
    · omega
    · rw [remove_removal_last h]
      exact Nat.le_trans (List.length_take_le _ _) (Nat.sub_le _ _)
  · have start := lineStart_take_lineStart_append (Nat.le_trans h last) (t.fromLine (b + 1))
    rw [remove_removal_above h inside] at left ⊢
    have there : a ≤ lastLine (t.take (t.lineStart a) ++ t.fromLine (b + 1)) := by omega
    have place := lineOf_lineStart there
    rw [start] at place
    rw [place, Nat.min_eq_left there]

/-- Where a deletion of lines leaves something, it takes something. -/
theorem removal_filled (h : a ≤ b) (last : b ≤ t.lastLine)
    (some : t.remove ((Extent.ofLines t a b).removal t) ≠ []) :
    ((Extent.ofLines t a b).removal t).isEmpty = false := by
  refine Bool.eq_false_iff.mpr fun nothing => some ?_
  have left := lastLine_remove_removal h last
  rw [remove_of_isEmpty nothing] at left
  obtain ⟨rfl, rfl⟩ : a = 0 ∧ b = t.lastLine := by omega
  rw [remove_removal_last h, lineStart_zero]
  rfl

/-- A change keeps the break behind the lines, and with it an empty line. -/
theorem lines_remove_span (h : a ≤ b) (last : b ≤ t.lastLine) :
    (t.remove (Extent.ofLines t a b).span).lines =
      t.lines.take a ++ [] :: t.lines.drop (b + 1) := by
  rw [ofLines_eq h, remove, lines_take_lineStart_append (Nat.le_trans h last), lines_drop_lineEnd last]

end ModalEdit.Text
