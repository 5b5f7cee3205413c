import ModalEdit.Motion.Resolve
import ModalEdit.Proofs.Text.Lines

/-! Where the lines of a text are is told by its breaks alone. What is written over the characters
of one line leaves all lines where they are, if there is as much of it and no break in it. -/
namespace ModalEdit.Text

/-- Which characters of a text are breaks. -/
def breaks (t : Text) : List Bool := t.map (· == '\n')

variable {t t' : Text}

theorem length_of_breaks (same : t.breaks = t'.breaks) : t.length = t'.length := by
  simpa [breaks] using congrArg List.length same

theorem count_of_breaks (same : t.breaks = t'.breaks) : t.count '\n' = t'.count '\n' := by
  have counted (t : Text) : t.count '\n' = t.breaks.count true := by
    rw [breaks, List.count, List.count, List.countP_map]
    apply List.countP_congr
    simp
  rw [counted, counted, same]

theorem take_breaks (same : t.breaks = t'.breaks) (i : Nat) :
    breaks (t.take i) = breaks (t'.take i) := by
  simpa [breaks] using congrArg (List.take i) same

theorem drop_breaks (same : t.breaks = t'.breaks) (i : Nat) :
    breaks (t.drop i) = breaks (t'.drop i) := by
  simpa [breaks] using congrArg (List.drop i) same

theorem dropWhile_breaks (same : t.breaks = t'.breaks) :
    breaks (t.dropWhile (· != '\n')) = breaks (t'.dropWhile (· != '\n')) := by
  have shown (t : Text) : breaks (t.dropWhile (· != '\n')) = t.breaks.dropWhile (!·) := by
    rw [breaks, breaks, List.dropWhile_map]
    rfl
  rw [shown, shown, same]

theorem takeWhile_breaks (same : t.breaks = t'.breaks) :
    breaks (t.takeWhile (· != '\n')) = breaks (t'.takeWhile (· != '\n')) := by
  have shown (t : Text) : breaks (t.takeWhile (· != '\n')) = t.breaks.takeWhile (!·) := by
    rw [breaks, breaks, List.takeWhile_map]
    rfl
  rw [shown, shown, same]

theorem dropLines_breaks (same : t.breaks = t'.breaks) (n : Nat) :
    breaks (dropLines n t) = breaks (dropLines n t') := by
  induction n generalizing t t' with
  | zero => exact same
  | succ n ih => exact ih (drop_breaks (dropWhile_breaks same) 1)

theorem lineOf_of_breaks (same : t.breaks = t'.breaks) (i : Nat) : t.lineOf i = t'.lineOf i :=
  count_of_breaks (take_breaks same i)

theorem fromLine_breaks (same : t.breaks = t'.breaks) (l : Nat) :
    breaks (t.fromLine l) = breaks (t'.fromLine l) := by
  rw [fromLine, fromLine, lastLine, lastLine, count_of_breaks same]
  exact dropLines_breaks same _

theorem lineStart_of_breaks (same : t.breaks = t'.breaks) (l : Nat) :
    t.lineStart l = t'.lineStart l := by
  rw [lineStart, lineStart, length_of_breaks same, length_of_breaks (fromLine_breaks same l)]

theorem lineLength_of_breaks (same : t.breaks = t'.breaks) (l : Nat) :
    t.lineLength l = t'.lineLength l :=
  length_of_breaks (takeWhile_breaks (fromLine_breaks same l))

/-- Where a column is on a line depends on the breaks alone. -/
theorem atColumn_of_breaks (same : t.breaks = t'.breaks) (l : Nat) (w : Wanted) (pastEnd : Bool) :
    t.atColumn l w pastEnd = t'.atColumn l w pastEnd := by
  rw [atColumn, atColumn, lineStart_of_breaks same, lineLength_of_breaks same]

/-! ### Writing over the characters of a line -/

/-- A range from a place up to the end of its line lies within the line. -/
theorem slice_infix_line (inside : i + n ≤ t.lineEnd (t.lineOf i)) :
    t.slice (Span.between i (i + n)) <:+: t.line (t.lineOf i) := by
  obtain ⟨k, at_⟩ := Nat.exists_eq_add_of_le (t.lineStart_lineOf_le i)
  have row : (t.fromLine (t.lineOf i)).take (k + n) <+: t.line (t.lineOf i) := by
    apply List.prefix_of_prefix_length_le (List.take_prefix _ _) (List.takeWhile_prefix _)
    have : k + n ≤ t.lineLength (t.lineOf i) := by
      simp only [lineEnd] at inside
      omega
    exact Nat.le_trans (List.length_take_le _ _) this
  have part : t.slice (Span.between i (i + n)) =
      ((t.fromLine (t.lineOf i)).take (k + n)).drop k := by
    rw [Span.between_of_le (Nat.le_add_right i n), slice, Span.length, ← drop_lineStart,
      List.drop_take, List.drop_drop, ← at_]
    simp
  rw [part]
  exact (List.drop_suffix k _).isInfix.trans row.isInfix

theorem breaks_eq_replicate {t : Text} (none : '\n' ∉ t) :
    t.breaks = List.replicate t.length false := by
  refine List.eq_replicate_iff.mpr ⟨List.length_map _, fun b member => ?_⟩
  obtain ⟨c, there, rfl⟩ := List.mem_map.mp member
  exact beq_eq_false_iff_ne.mpr fun same => none (same ▸ there)

/-- As many characters as were there before, and no break among them, keep all breaks in place. -/
theorem breaks_overwrite (inside : i + n ≤ t.lineEnd (t.lineOf i)) {c : Char} (visible : c ≠ '\n') :
    breaks ((t.remove (Span.between i (i + n))).insertAt i (List.replicate n c)) = t.breaks := by
  have range := Span.between_of_le (Nat.le_add_right i n)
  have within : i + n ≤ t.length := Nat.le_trans inside (t.lineEnd_le_length _)
  have taken : (t.slice (Span.between i (i + n))).breaks = List.replicate n false := by
    rw [breaks_eq_replicate fun member =>
      t.break_not_mem_line _ ((slice_infix_line inside).subset member)]
    rw [range, slice, Span.length, List.length_take, List.length_drop]
    congr 1
    simp only
    omega
  have written : breaks (List.replicate n c) = List.replicate n false := by
    rw [breaks, List.map_replicate, beq_eq_false_iff_ne.mpr visible]
  have ahead : (t.take i).length = i := List.length_take_of_le (by omega)
  have replaced : (t.remove (Span.between i (i + n))).insertAt i (List.replicate n c) =
      t.take i ++ List.replicate n c ++ t.drop (i + n) := by
    rw [insertAt, remove, range]
    simp only
    rw [List.take_left' ahead, List.drop_left' ahead]
  have whole := congrArg breaks (t.take_slice_drop (Span.between i (i + n)))
  calc breaks ((t.remove (Span.between i (i + n))).insertAt i (List.replicate n c))
      = breaks (t.take i) ++ breaks (List.replicate n c) ++ breaks (t.drop (i + n)) := by
        rw [replaced, breaks, List.map_append, List.map_append]
        rfl
    _ = breaks (t.take i) ++ breaks (t.slice (Span.between i (i + n))) ++
          breaks (t.drop (i + n)) := by rw [written, taken]
    _ = t.breaks := by
        rw [range] at whole ⊢
        simp only [breaks, List.map_append] at whole ⊢
        exact whole

/-- After characters have been written over, a column is where it was, also as seen from the last
of them. -/
theorem atColumn_overwrite (inside : i + n ≤ t.lineEnd (t.lineOf i)) (some : 0 < n) {c : Char}
    (visible : c ≠ '\n') (w : Wanted) (pastEnd : Bool) :
    let t' := (t.remove (Span.between i (i + n))).insertAt i (List.replicate n c)
    t'.atColumn (t'.lineOf (i + n - 1)) w pastEnd = t.atColumn (t.lineOf i) w pastEnd := by
  intro t'
  have same : breaks t' = t.breaks := breaks_overwrite inside visible
  have line : t.lineOf (i + n - 1) = t.lineOf i := by
    have start := t.lineStart_lineOf_le i
    exact lineOf_eq (t.lineOf_le_lastLine i) (by omega) (by omega)
  rw [lineOf_of_breaks same, atColumn_of_breaks same, line]

end ModalEdit.Text
