import ModalEdit.Proofs.LinewiseEdit

/-! Where the cursor comes to rest after a deletion of lines: on the first visible character of a
line. It is the line behind the deleted ones, or the last one ahead of them. Where the line behind
is the empty one that a last break leaves, the cursor cannot stay on it; then it steps back to the
character ahead of the break, whatever comes first on that line. -/
namespace ModalEdit

namespace Text

variable {t : Text}

/-- The column of the first character of a line that is no blank, or of the last character of a
line of blanks. -/
def restColumn (row : Text) : Nat := min (row.findIdx fun c => !isBlank c) (row.length - 1)

theorem restOnLine_eq (t : Text) (l : Nat) :
    t.restOnLine l = t.lineStart l + restColumn (t.line l) := by
  have blanks : ((t.line l).takeWhile isBlank).length = (t.line l).findIdx fun c => !isBlank c := by
    rw [List.takeWhile_eq_take_findIdx_not, List.length_take_of_le List.findIdx_le_length]
  have inside : ((t.line l).findIdx fun c => !isBlank c) ≤ (t.line l).length :=
    List.findIdx_le_length
  have filled : (!t.isEmptyLine l) = true ↔ 0 < (t.line l).length := by
    simp [isEmptyLine, List.length_pos_iff]
  simp only [restOnLine, firstNonBlank, blanks, filled, lineEnd, lineLength, restColumn]
  split <;> omega

theorem restColumn_lt {row : Text} (some : 0 < row.length) : restColumn row < row.length := by
  simp only [restColumn]
  omega

/-- A text ends in a break just if its last line is empty, as that of an empty text is. -/
theorem endsInBreak_iff (some : t ≠ []) : t.endsInBreak = true ↔ t.isEmptyLine t.lastLine = true := by
  have parts : t.take (t.lineStart t.lastLine) ++ t.line t.lastLine = t := by
    rw [← fromLine_lastLine, ← drop_lineStart, List.take_append_drop]
  rw [isEmptyLine, List.isEmpty_iff]
  constructor
  · intro ends
    by_contra filled
    rw [← parts, endsInBreak_append_of_ne_nil _ filled, endsInBreak_line] at ends
    cases ends
  · intro empty
    rw [empty, List.append_nil] at parts
    cases last : t.lastLine with
    | zero =>
      rw [last, lineStart_zero] at parts
      exact absurd parts.symm some
    | succ l =>
      have above : l < t.lastLine := by omega
      have break_ : (t.drop (t.lineEnd l)).take 1 = ['\n'] := by rw [drop_lineEnd above]; rfl
      rw [← parts, last, lineStart_succ above, List.take_add, break_]
      simp [endsInBreak]

theorem lastLine_pos (some : t ≠ []) (empty : t.isEmptyLine t.lastLine = true) : 0 < t.lastLine := by
  refine Nat.pos_of_ne_zero fun only => some (List.eq_nil_of_length_eq_zero ?_)
  rw [← lineStart_lastLine empty, only, lineStart_zero]

/-- At the front of a line there is either the front of the text or a break behind. -/
theorem lineStart_behind (h : l ≤ t.lastLine) :
    t.lineStart l = 0 ∨ t[t.lineStart l - 1]? = some '\n' := by
  cases l with
  | zero => exact .inl t.lineStart_zero
  | succ k =>
    right
    rw [lineStart_succ h, Nat.add_sub_cancel]
    exact getElem?_lineEnd h

/-- The line that is now in the place of deleted ones cannot be reached if it is the empty one behind
a last break. -/
theorem lastReachableLine_lt_removal_iff (h : a ≤ b) (last : b ≤ t.lastLine)
    (same : t' = t.remove ((Extent.ofLines t a b).removal t)) (some : t' ≠ []) :
    Motion.lastReachableLine t' .cursor < min a t'.lastLine ↔
      t.lastLine ≤ b + 1 ∧ t'.endsInBreak = true := by
  have lower : t'.lastLine = a + (t.lastLine - b) - 1 := by
    rw [same]
    exact lastLine_remove_removal h last
  have stand := Motion.lastReachableLine_of_ne t' .cursor nofun
  rw [endsInBreak_iff some]
  by_cases empty : t'.isEmptyLine t'.lastLine = true
  · have below := lastLine_pos some empty
    rw [if_pos empty] at stand
    simp only [empty, and_true]
    omega
  · rw [if_neg empty] at stand
    have within : min a t'.lastLine ≤ t'.lastLine := Nat.min_le_right _ _
    exact iff_of_false (by omega) fun below => empty below.2

end Text

namespace Editor

variable {e : Editor}

theorem settle_of_stays (clamped : min e.cursor e.maxCursor = i)
    (stays : i = 0 ∨ e.text[i]? ≠ some '\n' ∨ e.text[i - 1]? = some '\n') :
    e.settle.cursor = i := by
  rw [settle_cursor, clamped]
  apply if_neg
  rintro ⟨behind, break_, visible⟩
  rcases stays with front | other | follows
  · exact absurd front (Nat.ne_of_gt behind)
  · exact other break_
  · exact visible follows

theorem settle_of_steps (clamped : min e.cursor e.maxCursor = i) (behind : 0 < i)
    (break_ : e.text[i]? = some '\n') (visible : e.text[i - 1]? ≠ some '\n') :
    e.settle.cursor = i - 1 := by
  rw [settle_cursor, clamped]
  exact if_pos ⟨behind, break_, visible⟩

variable {t : Text}

/-- On a line that has a character, or a break of its own, the cursor settles where it rests. -/
theorem settle_restOnLine (text : e.text = t) (mode : e.mode ≠ .insert) (line : l ≤ t.lastLine)
    (stand : t.isEmptyLine l = true → l < t.lastLine) (cursor : e.cursor = t.restOnLine l) :
    e.settle.cursor = t.lineStart l + Text.restColumn (t.line l) := by
  have length : e.maxCursor = t.length - 1 := by rw [maxCursor, if_neg mode, text]
  rw [Text.restOnLine_eq] at cursor
  by_cases empty : t.isEmptyLine l = true
  · -- the cursor stands on the break of the line, which only follows another break
    have next := Text.lineStart_succ (stand empty)
    have within : t.lineStart (l + 1) ≤ t.length := Nat.sub_le _ _
    have ahead := t.lineStart_le_lineEnd l
    have column : Text.restColumn (t.line l) = 0 := by
      rw [List.isEmpty_iff.mp empty]
      rfl
    rw [column, Nat.add_zero] at cursor ⊢
    refine settle_of_stays (by omega) ?_
    rw [text]
    exact (Text.lineStart_behind line).imp_right .inr
  · have filled : 0 < t.lineLength l := Nat.pos_of_ne_zero (mt Text.isEmptyLine_iff.mpr empty)
    have stop := t.lineEnd_le_length l
    have inside := Text.restColumn_lt filled
    obtain ⟨c, there, visible⟩ := Text.getElem?_line_ne_break inside
    simp only [Text.lineEnd, Text.lineLength] at stop
    refine settle_of_stays (by omega) (.inr (.inl ?_))
    rw [text, there]
    exact fun same => visible (Option.some.inj same)

/-- On the empty line behind a last break the cursor settles on the line ahead, on its last
character if it has one. -/
theorem settle_behind_break (text : e.text = t) (mode : e.mode ≠ .insert)
    (last : t.lastLine = l + 1) (empty : t.isEmptyLine (l + 1) = true)
    (cursor : e.cursor = t.restOnLine (l + 1)) :
    e.settle.cursor = t.lineStart l + (t.lineLength l - 1) := by
  have length : e.maxCursor = t.length - 1 := by rw [maxCursor, if_neg mode, text]
  have above : l < t.lastLine := by omega
  have next := Text.lineStart_succ above
  have stop : t.lineStart (l + 1) = t.length := by
    rw [← last] at empty ⊢
    exact Text.lineStart_lastLine empty
  have column : Text.restColumn (t.line (l + 1)) = 0 := by
    rw [List.isEmpty_iff.mp empty]
    rfl
  rw [Text.restOnLine_eq, column, Nat.add_zero] at cursor
  have clamped : min e.cursor e.maxCursor = t.lineEnd l := by omega
  rcases Nat.eq_zero_or_pos (t.lineLength l) with none | filled
  · have start : t.lineEnd l = t.lineStart l := by rw [Text.lineEnd, none, Nat.add_zero]
    rw [none, Nat.zero_sub, Nat.add_zero, ← start]
    refine settle_of_stays clamped ?_
    rw [text, start]
    exact (Text.lineStart_behind (Nat.le_of_lt above)).imp_right .inr
  · obtain ⟨c, there, visible⟩ := Text.getElem?_line_ne_break (Nat.sub_lt filled Nat.one_pos)
    have before : t.lineEnd l - 1 = t.lineStart l + (t.lineLength l - 1) := by
      simp only [Text.lineEnd]
      omega
    rw [← before] at there ⊢
    refine settle_of_steps clamped (by simp only [Text.lineEnd]; omega) ?_ ?_
    · rw [text]
      exact Text.getElem?_lineEnd above
    · rw [text, there]
      exact fun same => visible (Option.some.inj same)

/-- The cursor settles on the line where it is to rest, or on the last one that it can reach. Then it
is on the last character of that one. -/
theorem settle_reachable (text : e.text = t) (mode : e.mode ≠ .insert) (some : t ≠ [])
    (line : l ≤ t.lastLine) (cursor : e.cursor = t.restOnLine l) :
    let row := min l (Motion.lastReachableLine t .cursor)
    t.lineOf e.settle.cursor = row ∧
      t.column e.settle.cursor =
        if row = l then Text.restColumn (t.line row) else t.lineLength row - 1 := by
  intro row
  have last := Motion.lastReachableLine_of_ne t .cursor nofun
  by_cases stand : t.isEmptyLine l = true → l < t.lastLine
  · have same : row = l := by
      rcases Nat.eq_or_lt_of_le line with rfl | above
      · have filled : ¬t.isEmptyLine t.lastLine = true := fun empty => Nat.lt_irrefl _ (stand empty)
        rw [if_neg filled] at last
        omega
      · split at last <;> omega
    rw [if_pos same, same, settle_restOnLine text mode line stand cursor]
    exact Text.column_lineStart_add line (Nat.le_trans (Nat.min_le_right _ _) (Nat.sub_le _ _))
  · -- what is left is the empty line behind a last break, and the line ahead of it is the row
    obtain ⟨empty, bottom⟩ : t.isEmptyLine l = true ∧ t.lastLine ≤ l := by simpa using stand
    obtain rfl := Nat.le_antisymm line bottom
    obtain ⟨k, next⟩ := Nat.exists_eq_add_of_lt (Text.lastLine_pos some empty)
    rw [Nat.zero_add] at next
    have above : row = k := by
      rw [if_pos empty] at last
      omega
    rw [next] at empty cursor
    rw [if_neg (by omega), above, settle_behind_break text mode next empty cursor]
    exact Text.column_lineStart_add (by omega) (Nat.sub_le _ _)

end Editor

namespace Workspace

variable {w : Workspace}

/-- A deletion has the cursor settle where it lands: at the start of what has been removed, or on the
line that is now in the place of lines. -/
theorem delete_cursor {x : Extent} (removes : (x.removal w.editor.text).isEmpty = false)
    (register : Option RegisterName) :
    ∃ e : Editor, e.text = (w.delete x register).1.editor.text ∧ e.mode = w.editor.mode ∧
      e.cursor = deletionLanding e.text x.span.start x.linewise ∧
      (w.delete x register).1.editor.cursor = e.settle.cursor := by
  let left := w.editor.removeSpan (x.removal w.editor.text)
  refine ⟨{ left with cursor := deletionLanding left.text x.span.start x.linewise }, ?_, rfl, rfl, ?_⟩
  · simp only [delete, removes, Bool.false_eq_true, if_false, Editor.settle_text]
    rfl
  · simp only [delete, removes, Bool.false_eq_true, if_false]
    rfl

end Workspace

namespace Session

/-- After a deletion of lines the cursor is on the line that is now in their place, or on the last
one that it can reach. It rests on the first visible character of that line, exactly if it did not
have to step back there from the empty line behind a last break; in that case it is on the last
character instead. -/
theorem linewise_deletion_rests_on_first_visible {s : Session} (reached : s.Reachable)
    (b : RegisterBank) {c : Command} (applied : c.operation? = some (.delete, register))
    (found : s.editor.extent? c = some x) (lines : x.linewise = true)
    (left : (s.perform b c).1.1.editor.text ≠ []) :
    let after := (s.perform b c).1.1.editor
    let line := after.text.lineOf after.cursor
    let column := after.text.column after.cursor
    let row := after.text.line line
    ∃ first last, s.editor.linesTaken? c = some (first, last) ∧
      line = min first (Motion.lastReachableLine after.text .cursor) ∧
      (column = Text.restColumn row ↔ ¬(s.editor.text.lastLine ≤ last + 1 ∧
        after.text.endsInBreak = true ∧ Text.restColumn row + 1 < row.length)) ∧
      (column = Text.restColumn row ∨ column + 1 = row.length) := by
  intro after line column row
  obtain ⟨first, last, taken, ordered, bound, covers, w, text, mode, editor⟩ :=
    perform_of_linewise reached b applied found lines
  have edited : after.text = _ := perform_of_lines_deleted reached b applied taken
  have removes := Text.removal_filled ordered bound (edited ▸ left)
  rw [← covers, ← text] at removes
  obtain ⟨e, same, kept, landing, settled⟩ := Workspace.delete_cursor removes register
  have same : e.text = after.text := same.trans (congrArg Editor.text editor).symm
  have settled : after.cursor = e.settle.cursor := (congrArg Editor.cursor editor).trans settled
  have next : after.text.lineOf x.span.start = min first after.text.lastLine := by
    have start : x.span.start = s.editor.text.lineStart first := by
      rw [covers, Text.ofLines_eq ordered]
    rw [start, edited]
    exact Text.lineOf_remove_removal ordered bound
  rw [Workspace.deletionLanding, if_pos lines, same, next] at landing
  obtain ⟨place, height⟩ := Editor.settle_reachable same (by rw [kept, mode]; nofun) left
    (Nat.min_le_right _ _) landing
  rw [← settled] at place height
  rw [← place] at height
  have steps := Text.lastReachableLine_lt_removal_iff ordered bound edited left
  have reachable := Motion.lastReachableLine_le after.text .cursor
  refine ⟨first, last, taken, by omega, ?_⟩
  by_cases stays : line = min first after.text.lastLine
  · rw [if_pos stays] at height
    have stands : ¬(s.editor.text.lastLine ≤ last + 1 ∧ after.text.endsInBreak = true) :=
      steps.not.mp (by omega)
    exact ⟨iff_of_true height fun ⟨near, ends, _⟩ => stands ⟨near, ends⟩, .inl height⟩
  · -- back on the last character, which may be the first visible one after all
    rw [if_neg stays] at height
    obtain ⟨near, ends⟩ := steps.mp (by omega)
    have height : column = row.length - 1 := height
    have within : Text.restColumn row ≤ row.length - 1 := Nat.min_le_right _ _
    simp only [near, ends, true_and]
    omega

/-- The last character of the line ahead is the first visible one. -/
theorem linewise_deletion_rests_on_only_visible :
    let s := ofText [' ', ' ', 'x', '\n', 'y', '\n'] .normal 4 100
    let c : Command := .edit (.operate .delete .lines none) 1
    let after := (s.perform {} c).1.1.editor
    s.Reachable ∧ c.operation? = some (.delete, none) ∧
      s.editor.extent? c = some (Extent.ofLines s.editor.text 1 1) ∧
      after.text = [' ', ' ', 'x', '\n'] ∧ after.text.column after.cursor = 2 := by
  intro s c after
  have reached : s.Reachable := Reachable.opened _ _ _ _
  have found : s.editor.extent? c = some (Extent.ofLines s.editor.text 1 1) := by decide
  have text : after.text = [' ', ' ', 'x', '\n'] := by decide
  have left : (s.perform {} c).1.1.editor.text ≠ [] := by decide
  obtain ⟨first, last, taken, _, rests, _⟩ := linewise_deletion_rests_on_first_visible reached {}
    (c := c) rfl found rfl left
  have there : s.editor.linesTaken? c = some (1, 1) := by decide
  obtain ⟨rfl, rfl⟩ := Prod.mk.inj (Option.some.inj (there.symm.trans taken))
  have column : Text.restColumn (after.text.line (after.text.lineOf after.cursor)) = 2 := by decide
  refine ⟨reached, rfl, found, text, ?_⟩
  refine (rests.mpr fun exception => ?_).trans column
  exact absurd exception.2.2 (by decide)

/-- The cursor rests on the second character of a line without blanks. -/
theorem linewise_deletion_rests_on_last_character :
    let s := (ofText ['a', 'b', '\n', 'c', '\n'] .normal 0 100).run [({}, .press (.char 'j'))]
    let c : Command := .edit (.operate .delete .lines none) 1
    let after := (s.perform {} c).1.1.editor
    s.Reachable ∧ s.editor.mode = .normal ∧ c.operation? = some (.delete, none) ∧
      s.editor.extent? c = some (Extent.ofLines s.editor.text 1 1) ∧
      after.text = ['a', 'b', '\n'] ∧ after.text.lineOf after.cursor = 0 ∧
      Text.restColumn (after.text.line 0) = 0 ∧ after.text.column after.cursor = 1 := by
  refine ⟨(Reachable.opened _ _ _ _).run _, ?_⟩
  decide

end Session

end ModalEdit
