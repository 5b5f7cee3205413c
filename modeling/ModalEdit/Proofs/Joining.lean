import ModalEdit.Proofs.Text.Copies
import ModalEdit.Session

/-! A join takes the lines below the cursor up to its own line, one after another. Each one goes behind what
there is by then, without its indentation; so the lines ahead and behind stay as they are, and from the lines
in between nothing is lost but blanks and breaks. -/
namespace ModalEdit

namespace Text

variable {t : Text}

/-- A row with the next one joined to it. The indentation goes, and a space comes between two parts that are not
empty, unless the first one ends in a blank. -/
def joinRows (row next : Text) : Text :=
  let rest := next.dropWhile isBlank
  if row ≠ [] ∧ rest ≠ [] ∧ ¬row.getLast?.any isBlank then row ++ ' ' :: rest else row ++ rest

/-- What a text has besides blanks and breaks. -/
def ink (t : Text) : Text := t.filter fun c => !isBlank c && c != '\n'

theorem break_not_mem_joinRows (row : '\n' ∉ u) (next : '\n' ∉ v) : '\n' ∉ joinRows u v := by
  have rest : '\n' ∉ v.dropWhile isBlank := fun member => next ((List.dropWhile_suffix _).subset member)
  rw [joinRows]
  split
  · simp [row, rest]
  · simp [row, rest]

/-! ### The ink of lines -/

theorem ink_append (u v : Text) : ink (u ++ v) = u.ink ++ v.ink := List.filter_append ..

theorem ink_joinRows (row next : Text) : (joinRows row next).ink = row.ink ++ next.ink := by
  have indent : ink (next.takeWhile isBlank) = [] := by
    rw [ink, List.filter_eq_nil_iff]
    intro c member
    simp [List.mem_takeWhile_imp member]
  have rest : ink (next.dropWhile isBlank) = next.ink := by
    have parts := congrArg ink (List.takeWhile_append_dropWhile (p := isBlank) (l := next))
    rwa [ink_append, indent, List.nil_append] at parts
  have space : ink (' ' :: next.dropWhile isBlank) = ink (next.dropWhile isBlank) := rfl
  rw [joinRows]
  split
  · rw [ink_append, space, rest]
  · rw [ink_append, rest]

theorem ink_foldl_joinRows (rows : List Text) (row : Text) :
    ink (rows.foldl joinRows row) = row.ink ++ rows.flatMap ink := by
  induction rows generalizing row with
  | nil => exact (List.append_nil _).symm
  | cons next rows ih => rw [List.foldl_cons, ih, ink_joinRows, List.flatMap_cons, List.append_assoc]

/-- The ink of a text is that of its lines. -/
theorem ink_eq_flatMap_lines (t : Text) : t.ink = t.lines.flatMap ink := by
  have last (u : Text) : ink (u ++ ['\n']) = u.ink := by
    rw [ink_append]
    exact List.append_nil _
  calc t.ink = ink (t ++ ['\n']) := (last t).symm
    _ = ink (t.lines.flatMap (· ++ ['\n'])) := by rw [flatMap_lines]
    _ = t.lines.flatMap fun u => ink (u ++ ['\n']) := List.filter_flatMap ..
    _ = t.lines.flatMap ink := by simp only [last]

/-- Lines that are put together keep their ink. -/
theorem ink_of_joined {t' : Text} (parts : t.lines = ahead ++ row :: rest)
    (joined : t'.lines = ahead ++ (rest.take j).foldl joinRows row :: rest.drop j) : t'.ink = t.ink := by
  have middle : (rest.take j).flatMap ink ++ (rest.drop j).flatMap ink = rest.flatMap ink := by
    rw [← List.flatMap_append, List.take_append_drop]
  rw [ink_eq_flatMap_lines, ink_eq_flatMap_lines t, parts, joined]
  simp only [List.flatMap_append, List.flatMap_cons, ink_foldl_joinRows, List.append_assoc, middle]

/-! ### One line -/

theorem drop_firstNonBlank (t : Text) (l : Nat) :
    t.drop (t.firstNonBlank l) = (t.line l).dropWhile isBlank ++ t.drop (t.lineEnd l) := by
  have row : t.fromLine l = (t.line l).takeWhile isBlank ++
      ((t.line l).dropWhile isBlank ++ t.drop (t.lineEnd l)) := by
    rw [← List.append_assoc, List.takeWhile_append_dropWhile, line_append_drop_lineEnd]
  rw [firstNonBlank, ← List.drop_drop, drop_lineStart, row, List.drop_left]

theorem firstNonBlank_lt_lineEnd_iff (t : Text) (l : Nat) :
    t.firstNonBlank l < t.lineEnd l ↔ (t.line l).dropWhile isBlank ≠ [] := by
  have parts := congrArg List.length (List.takeWhile_append_dropWhile (p := isBlank) (l := t.line l))
  rw [List.length_append] at parts
  rw [firstNonBlank, lineEnd, lineLength, Nat.add_lt_add_iff_left, ← List.length_pos_iff]
  omega

theorem getElem?_before_lineEnd (filled : t.line l ≠ []) :
    t[t.lineEnd l - 1]? = (t.line l).getLast? := by
  have some_char := List.length_pos_iff.mpr filled
  have place : t.lineEnd l - 1 = t.lineStart l + ((t.line l).length - 1) := by
    rw [lineEnd, lineLength]
    omega
  rw [place, getElem?_line (Nat.sub_one_lt_of_lt some_char), List.getLast?_eq_getElem?]

end Text

namespace Workspace

open Text (joinRows)

variable {t : Text}

/-- Whether a space comes between two lines is told by the two lines alone. -/
theorem spaced_iff (t : Text) (l : Nat) :
    (!t.isEmptyLine l && decide (t.firstNonBlank (l + 1) < t.lineEnd (l + 1)) &&
        !t[t.lineEnd l - 1]?.any isBlank) = true ↔
      t.line l ≠ [] ∧ (t.line (l + 1)).dropWhile isBlank ≠ [] ∧
        ¬(t.line l).getLast?.any isBlank = true := by
  by_cases bare : t.line l = []
  · simp [Text.isEmptyLine, bare]
  · have filled : t.isEmptyLine l = false := by
      rw [Text.isEmptyLine, List.isEmpty_eq_false_iff]
      exact bare
    rw [filled, Text.getElem?_before_lineEnd bare, ← Text.firstNonBlank_lt_lineEnd_iff]
    simp [bare]

/-- A join touches nothing but the two lines and the break between them. -/
theorem joinNext_text (h : l < t.lastLine) :
    (joinNext t l).1 = t.take (t.lineStart l) ++
      (joinRows (t.line l) (t.line (l + 1)) ++ t.drop (t.lineEnd (l + 1))) := by
  have ordered : t.lineEnd l ≤ t.firstNonBlank (l + 1) := by
    rw [Text.firstNonBlank, Text.lineStart_succ h]
    omega
  have joined : t.remove (Span.between (t.lineEnd l) (t.firstNonBlank (l + 1))) =
      t.take (t.lineEnd l) ++
        ((t.line (l + 1)).dropWhile isBlank ++ t.drop (t.lineEnd (l + 1))) := by
    rw [Span.between_of_le ordered, Text.remove, Text.drop_firstNonBlank]
  have length : (t.take (t.lineEnd l)).length = t.lineEnd l :=
    List.length_take_of_le (t.lineEnd_le_length l)
  rw [joinNext, joinRows, joined]
  by_cases space : t.line l ≠ [] ∧ (t.line (l + 1)).dropWhile isBlank ≠ [] ∧
      ¬(t.line l).getLast?.any isBlank = true
  · rw [if_pos ((spaced_iff t l).mpr space), if_pos space, Text.insertAt, List.take_left' length,
      List.drop_left' length, Text.take_lineEnd]
    simp
  · rw [if_neg (mt (spaced_iff t l).mp space), if_neg space, Text.take_lineEnd]
    simp

/-- One join puts the two lines together and leaves those ahead and behind. -/
theorem lines_joinNext (parts : t.lines = ahead ++ row :: next :: rest) :
    (joinNext t ahead.length).1.lines = ahead ++ joinRows row next :: rest := by
  have split : t.lines = (ahead ++ [row]) ++ next :: rest := by rw [parts, List.append_assoc]; rfl
  obtain ⟨count, own⟩ := Text.line_of_lines parts
  obtain ⟨_, below⟩ := Text.line_of_lines split
  rw [List.length_append, List.length_singleton] at below
  have inside : ahead.length < t.lastLine := by
    rw [List.length_cons] at count
    omega
  have none : '\n' ∉ joinRows row next := by
    have first := own ▸ t.break_not_mem_line ahead.length
    have second := below ▸ t.break_not_mem_line (ahead.length + 1)
    exact Text.break_not_mem_joinRows first second
  have first : t.lines.take ahead.length = ahead := by rw [parts, List.take_left]
  have last : t.lines.drop (ahead.length + 1 + 1) = rest := by
    rw [parts, Nat.add_assoc, ← List.drop_drop, List.drop_left]
    rfl
  rw [joinNext_text inside, Text.lines_take_lineStart_append (Nat.le_of_lt inside),
    Text.lines_append_drop_lineEnd (Nat.succ_le_of_lt inside), own, below,
    Text.lines_of_no_break none, first, last]
  rfl

/-- Up to `n` joins put together as many of the lines behind, from the first to the last. -/
theorem lines_joinMany (n : Nat) {e : Editor} (parts : e.text.lines = ahead ++ row :: rest) :
    (joinMany ahead.length n e).text.lines =
      ahead ++ (rest.take n).foldl joinRows row :: rest.drop n := by
  induction n generalizing e row rest with
  | zero => exact parts
  | succ n ih =>
    obtain ⟨count, _⟩ := Text.line_of_lines parts
    rw [joinMany]
    cases rest with
    | nil =>
      rw [List.length_nil, Nat.add_zero] at count
      rw [if_pos (Nat.le_of_eq count.symm)]
      exact parts
    | cons next rest =>
      rw [List.length_cons] at count
      rw [if_neg (by omega)]
      exact ih (e := { e.edit _ with cursor := _ }) (lines_joinNext parts)

variable {w : Workspace}

theorem joinLines_of_more (normal : w.editor.mode = .normal)
    (more : w.editor.text.lineOf w.editor.cursor < w.editor.text.lastLine) (n : Nat) :
    (w.joinLines n).1.editor.text =
      (joinMany (w.editor.text.lineOf w.editor.cursor) (max (n - 1) 1) w.editor.pushCheckpoint).text := by
  simp only [joinLines, inMode, if_neg (Nat.not_le_of_lt more), if_pos normal]
  rfl

theorem joinLines_of_last (last : w.editor.text.lineOf w.editor.cursor = w.editor.text.lastLine)
    (n : Nat) : w.joinLines n = w.skip := if_pos (Nat.le_of_eq last.symm)

end Workspace

namespace Session

open Text (joinRows)

variable {s : Session}

/-- A join merges the lines below with that of the cursor and does nothing else, and on the last line nothing
at all: no line besides these changes, and of their characters only blanks and breaks come and go. -/
theorem joinLines_merges_lines (normal : s.editor.mode = .normal) (b : RegisterBank) (n : Nat) :
    let t := s.editor.text
    let l := t.lineOf s.editor.cursor
    let j := min (max (n - 1) 1) (t.lastLine - l)
    let done := s.perform b (.edit .joinLines n)
    let t' := done.1.1.editor.text
    (l < t.lastLine →
      t'.lineCount + j = t.lineCount ∧
      t'.lines = t.lines.take l ++
        ((t.lines.drop (l + 1)).take j).foldl joinRows (t.line l) :: t.lines.drop (l + j + 1) ∧
      t'.ink = t.ink) ∧
    (l = t.lastLine → done = ((s, b), .unchanged)) := by
  intro t l j done t'
  constructor
  · intro more
    have ahead := Text.length_take_lines (Nat.le_of_lt more)
    have parts := Text.lines_eq_append (Nat.le_of_lt more)
    have below : (t.lines.drop (l + 1)).length = t.lastLine - l := by
      rw [List.length_drop, Text.length_lines, Text.lineCount, Nat.add_sub_add_right]
    have joined := Workspace.lines_joinMany (max (n - 1) 1) (e := s.editor.pushCheckpoint) parts
    have text : t' = (Workspace.joinMany l (max (n - 1) 1) s.editor.pushCheckpoint).text :=
      Workspace.joinLines_of_more (w := ⟨s.editor, b, s.recorder⟩) normal more n
    have few : (t.lines.drop (l + 1)).take (max (n - 1) 1) = (t.lines.drop (l + 1)).take j := by
      rw [List.take_eq_take_min, below]
    have behind : (t.lines.drop (l + 1)).drop (max (n - 1) 1) = (t.lines.drop (l + 1)).drop j := by
      rw [List.drop_eq_drop_min, below]
    rw [ahead, ← text, few, behind] at joined
    refine ⟨?_, ?_, Text.ink_of_joined parts joined⟩
    · have count := congrArg List.length joined
      rw [Text.length_lines, List.length_append, ahead, List.length_cons, List.length_drop, below] at count
      simp only [Text.lineCount] at count ⊢
      omega
    · rw [List.drop_drop, Nat.add_right_comm l 1 j] at joined
      exact joined
  · intro last
    have skipped := Workspace.joinLines_of_last (w := ⟨s.editor, b, s.recorder⟩) last n
    simp only [done, perform, Workspace.perform, Workspace.doEdit, skipped]
    rfl

/-- A count of three takes an indented line and an empty one up to the first, and leaves the fourth. -/
theorem joinLines_merges_three_lines :
    let s := ofText ['a', '\n', ' ', ' ', 'b', '\n', '\n', 'c'] .normal 0 100
    let t' := (s.perform {} (.edit .joinLines 3)).1.1.editor.text
    s.editor.mode = .normal ∧ s.editor.text.lineOf s.editor.cursor < s.editor.text.lastLine ∧
      t' = ['a', ' ', 'b', '\n', 'c'] ∧ t'.lineCount + 2 = s.editor.text.lineCount ∧
      t'.ink = s.editor.text.ink := by
  intro s t'
  have more : s.editor.text.lineOf s.editor.cursor < s.editor.text.lastLine := by decide
  have text : t' = ['a', ' ', 'b', '\n', 'c'] := by decide
  obtain ⟨count, _, same⟩ := (joinLines_merges_lines (s := s) rfl {} 3).1 more
  exact ⟨rfl, more, text, count, same⟩

end Session

end ModalEdit
