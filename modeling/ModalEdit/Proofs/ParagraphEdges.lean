import ModalEdit.Proofs.Text.Removal
import ModalEdit.Proofs.WordMotion

/-! Where paragraph motions lead. A paragraph has an empty line at each end of it, or the end of the
text. A look at two lines side by side tells whether a motion stops at the second of them, and so every
motion leads to the nearest such line. -/
namespace ModalEdit.Text

variable {t : Text}

/-- An empty line behind one that is not empty. -/
def FollowsParagraph (t : Text) (l : Nat) : Prop :=
  l ≤ t.lastLine ∧ t.isEmptyLine l = true ∧ t.isEmptyLine (l - 1) = false

/-- An empty line ahead of one that is not empty. -/
def PrecedesParagraph (t : Text) (l : Nat) : Prop :=
  l + 1 ≤ t.lastLine ∧ t.isEmptyLine l = true ∧ t.isEmptyLine (l + 1) = false

/-! ### Two lines side by side -/

/-- A motion from a line stops at the next one, or goes on from there. -/
theorem dropParagraph_cons (row next : Text) (ls : List Text) :
    dropParagraph (row :: next :: ls) =
      if next.isEmpty && !row.isEmpty then next :: ls else dropParagraph (next :: ls) := by
  cases row with
  | nil => simp [dropParagraph]
  | cons c row => cases next <;> simp [dropParagraph]

theorem dropParagraph_singleton (row : Text) : dropParagraph [row] = [] := by
  cases row <;> rfl

/-! ### Forward -/

/-- The line that a motion forward from line `l` leads to. The number of lines stands for none. -/
def paragraphLineAfter (t : Text) (l : Nat) : Nat :=
  t.lineCount - (dropParagraph (t.lines.drop l)).length

theorem paragraphLineAfter_lastLine (t : Text) : t.paragraphLineAfter t.lastLine = t.lineCount := by
  rw [paragraphLineAfter, lines_drop (Nat.le_refl _), lines_drop_past (Nat.lt_succ_self _),
    dropParagraph_singleton]
  rfl

theorem paragraphLineAfter_step (h : l < t.lastLine) :
    (t.FollowsParagraph (l + 1) → t.paragraphLineAfter l = l + 1) ∧
      (¬t.FollowsParagraph (l + 1) → t.paragraphLineAfter l = t.paragraphLineAfter (l + 1)) := by
  have rest : (t.lines.drop (l + 1)).length = t.lastLine - l := by
    rw [List.length_drop, length_lines, lineCount]
    omega
  have stops : t.FollowsParagraph (l + 1) ↔
      ((t.line (l + 1)).isEmpty && !(t.line l).isEmpty) = true := by
    simp [FollowsParagraph, isEmptyLine, Nat.succ_le_of_lt h]
  rw [stops, paragraphLineAfter, paragraphLineAfter, lines_drop (Nat.le_of_lt h)]
  rw [lines_drop h] at rest ⊢
  rw [dropParagraph_cons]
  constructor
  · intro edge
    rw [if_pos edge, rest, lineCount]
    omega
  · intro within
    rw [if_neg within]

theorem paragraphForward_of_le (inside : t.paragraphLineAfter (t.lineOf i) ≤ t.lastLine) :
    t.paragraphForward i = t.lineStart (t.paragraphLineAfter (t.lineOf i)) := by
  simp only [paragraphForward]
  split
  · rename_i nothing
    rw [paragraphLineAfter, nothing] at inside
    exact absurd inside (Nat.not_succ_le_self _)
  · rfl

theorem paragraphForward_of_eq (past : t.paragraphLineAfter (t.lineOf i) = t.lineCount) :
    t.paragraphForward i = t.length := by
  simp only [paragraphForward]
  split
  · rfl
  · rename_i some
    have some := List.length_pos_iff.mpr some
    rw [paragraphLineAfter, lineCount] at past
    omega

/-! ### Backward -/

/-- The line that a motion backward from line `l` leads to. The first line stands for none too. -/
def paragraphLineBefore (t : Text) (l : Nat) : Nat :=
  (dropParagraph (t.lines.take (l + 1)).reverse).length - 1

theorem paragraphLineBefore_zero (t : Text) : t.paragraphLineBefore 0 = 0 := by
  rw [paragraphLineBefore, Checked.lines_take (Nat.zero_le _), List.take_zero, List.reverse_nil,
    dropParagraph_singleton]
  rfl

theorem paragraphLineBefore_step (h : l < t.lastLine) :
    (t.PrecedesParagraph l → t.paragraphLineBefore (l + 1) = l) ∧
      (¬t.PrecedesParagraph l → t.paragraphLineBefore (l + 1) = t.paragraphLineBefore l) := by
  have ahead : (t.lines.take (l + 1)).reverse.length = l + 1 := by
    rw [List.length_reverse, length_take_lines h]
  have stops : t.PrecedesParagraph l ↔
      ((t.line l).isEmpty && !(t.line (l + 1)).isEmpty) = true := by
    simp [PrecedesParagraph, isEmptyLine, Nat.succ_le_of_lt h]
  rw [stops, paragraphLineBefore, paragraphLineBefore, Checked.lines_take h]
  rw [Checked.lines_take (Nat.le_of_lt h)] at ahead ⊢
  rw [dropParagraph_cons]
  constructor
  · intro edge
    rw [if_pos edge, ahead, Nat.add_sub_cancel]
  · intro within
    rw [if_neg within]

/-- The first line begins at the front, where a motion without a line to stop at ends. -/
theorem paragraphBackward_eq (t : Text) (i : Nat) :
    t.paragraphBackward i = t.lineStart (t.paragraphLineBefore (t.lineOf i)) := by
  simp only [paragraphBackward, paragraphLineBefore]
  split
  · rename_i nothing
    rw [nothing]
    exact t.lineStart_zero.symm
  · rfl

/-! ### The nearest edge -/

/-- A motion forward leads to the start of the next empty line behind a paragraph, or to the end of the
text; a motion backward leads to the start of the last empty line ahead of a paragraph, or to the front. -/
theorem paragraph_motions_reach_edges (t : Text) (i : Nat) :
    ((∃ l, IsLeast {l | t.lineOf i < l ∧ t.FollowsParagraph l} l ∧
        t.paragraphForward i = t.lineStart l) ∨
      (¬∃ l, t.lineOf i < l ∧ t.FollowsParagraph l) ∧ t.paragraphForward i = t.length) ∧
    ((∃ l, IsGreatest {l | l < t.lineOf i ∧ t.PrecedesParagraph l} l ∧
        t.paragraphBackward i = t.lineStart l) ∨
      (¬∃ l, l < t.lineOf i ∧ t.PrecedesParagraph l) ∧ t.paragraphBackward i = 0) := by
  have own := t.lineOf_le_lastLine i
  constructor
  · have next : IsNext t.FollowsParagraph (t.lineOf i) t.lineCount
        (t.paragraphLineAfter (t.lineOf i)) :=
      isNext_of_steps t.lastLine (fun l past edge => Nat.not_le_of_lt past edge.1)
        t.paragraphLineAfter_lastLine (fun l inside => (paragraphLineAfter_step inside).1)
        (fun l inside => (paragraphLineAfter_step inside).2) own
    rcases next with least | ⟨none, past⟩
    · obtain ⟨_, inside, _⟩ := least.1
      exact .inl ⟨_, least, paragraphForward_of_le inside⟩
    · exact .inr ⟨none, paragraphForward_of_eq past⟩
  · have previous : IsPrevious t.PrecedesParagraph (t.lineOf i) 0
        (t.paragraphLineBefore (t.lineOf i)) :=
      isPrevious_of_steps t.lastLine t.paragraphLineBefore_zero
        (fun l inside => (paragraphLineBefore_step inside).1)
        (fun l inside => (paragraphLineBefore_step inside).2) own
    rw [paragraphBackward_eq]
    rcases previous with greatest | ⟨none, front⟩
    · exact .inl ⟨_, greatest, rfl⟩
    · refine .inr ⟨none, ?_⟩
      rw [front, lineStart_zero]

/-- The empty line that a motion begins on is none that it stops at. -/
example :
    let t : Text := "a\nb\n\n\nc\n\nd".toList
    (t.paragraphForward 4, t.paragraphBackward 5, t.paragraphBackward 8) = (8, 0, 5) := by
  decide

end ModalEdit.Text
