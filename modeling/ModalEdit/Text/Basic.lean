import ModalEdit.Text.Span

/-! A text is the list of its characters; every offset and every column counts characters.
Lines break on `\n` alone, so a text has one line more than it has breaks and the last line
may be empty.

Offsets past the end act as the end and line numbers past the last line as the last line:
every function here is total and none needs a bound on its arguments. -/
namespace ModalEdit

abbrev Text := List Char

namespace Text

/-- The contents of the lines, without their breaks. There is always at least one. -/
def lines : Text → List Text
  | [] => [[]]
  | c :: t => if c = '\n' then [] :: lines t else (lines t).modifyHead (c :: ·)

/-- The number of the last line, counted from zero. -/
def lastLine (t : Text) : Nat := t.count '\n'

def lineCount (t : Text) : Nat := t.lastLine + 1

/-- The line that holds offset `i`. A break belongs to the line that it ends. -/
def lineOf (t : Text) (i : Nat) : Nat := (t.take i).count '\n'

/-- What follows the first `n` breaks. -/
def dropLines : Nat → Text → Text
  | 0, t => t
  | n + 1, t => dropLines n ((t.dropWhile (· != '\n')).drop 1)

/-- The text from the start of line `l` on. -/
def fromLine (t : Text) (l : Nat) : Text := dropLines (min l t.lastLine) t

def lineStart (t : Text) (l : Nat) : Nat := t.length - (t.fromLine l).length

def line (t : Text) (l : Nat) : Text := (t.fromLine l).takeWhile (· != '\n')

def lineLength (t : Text) (l : Nat) : Nat := (t.line l).length

/-- The offset of the break that ends line `l`, or the end of the text on the last line. -/
def lineEnd (t : Text) (l : Nat) : Nat := t.lineStart l + t.lineLength l

def isEmptyLine (t : Text) (l : Nat) : Bool := (t.line l).isEmpty

def column (t : Text) (i : Nat) : Nat := min i t.length - t.lineStart (t.lineOf i)

def slice (t : Text) (s : Span) : Text := (t.drop s.start).take s.length

def insertAt (t : Text) (i : Nat) (s : Text) : Text := t.take i ++ s ++ t.drop i

def remove (t : Text) (s : Span) : Text := t.take s.start ++ t.drop s.stop

/-- The offsets in a range whose character satisfies `p`, in ascending order. -/
def offsetsOf (t : Text) (p : Char → Bool) (s : Span) : List Nat :=
  ((t.slice s).zipIdx s.start).filterMap fun (c, i) => if p c then some i else none

def endsInBreak (t : Text) : Bool := t.getLast? == some '\n'

/-! ### Lines -/

theorem length_lines (t : Text) : t.lines.length = t.lineCount := by
  induction t with
  | nil => rfl
  | cons c t ih =>
    by_cases h : c = '\n' <;> simp_all [lines, lineCount, lastLine]

theorem lines_ne_nil (t : Text) : t.lines ≠ [] := by
  intro none
  have := t.length_lines
  simp [none, lineCount] at this

/-- The lines joined by breaks are the text. -/
theorem intercalate_lines (t : Text) : List.intercalate ['\n'] t.lines = t := by
  induction t with
  | nil => rfl
  | cons c t ih =>
    obtain ⟨first, rest, same⟩ := List.exists_cons_of_ne_nil (lines_ne_nil t)
    rw [same] at ih
    by_cases h : c = '\n' <;> cases rest <;> simp_all [lines, List.intercalate, List.intersperse]

theorem break_not_mem_lines {t : Text} : ∀ l ∈ t.lines, '\n' ∉ l := by
  induction t with
  | nil => simp [lines]
  | cons c t ih =>
    obtain ⟨first, rest, same⟩ := List.exists_cons_of_ne_nil (lines_ne_nil t)
    by_cases h : c = '\n'
    · simp_all [lines]
    · have := Ne.symm h
      simp_all [lines]

theorem lineOf_le_lastLine (t : Text) (i : Nat) : t.lineOf i ≤ t.lastLine :=
  (List.take_sublist i t).count_le _

theorem lineOf_of_length_le {t : Text} (h : t.length ≤ i) : t.lineOf i = t.lastLine := by
  simp [lineOf, lastLine, List.take_of_length_le h]

/-! ### Splices -/

/-- A text is what precedes a range, the range, and what follows it. -/
theorem take_slice_drop (t : Text) (s : Span) :
    t.take s.start ++ t.slice s ++ t.drop s.stop = t := by
  have : t.drop s.stop = (t.drop s.start).drop s.length := by
    rw [List.drop_drop, s.start_add_length]
  rw [this, slice, List.append_assoc, List.take_append_drop, List.take_append_drop]

theorem length_insertAt (t : Text) (i : Nat) (s : Text) :
    (t.insertAt i s).length = t.length + s.length := by
  simp only [insertAt, List.length_append, List.length_take, List.length_drop]
  omega

theorem take_insertAt {t : Text} (h : i ≤ t.length) (s : Text) :
    (t.insertAt i s).take (i + s.length) = t.take i ++ s := by
  have length : (t.take i ++ s).length = i + s.length := by
    rw [List.length_append, List.length_take_of_le h]
  rw [insertAt, ← length, List.take_left]

theorem drop_insertAt {t : Text} (h : i ≤ t.length) (s : Text) :
    (t.insertAt i s).drop (i + s.length) = t.drop i := by
  have length : (t.take i ++ s).length = i + s.length := by
    rw [List.length_append, List.length_take_of_le h]
  rw [insertAt, ← length, List.drop_left]

/-- What is put in behind something that was put in belongs to it. -/
theorem insertAt_insertAt {t : Text} (h : i ≤ t.length) (s u : Text) :
    (t.insertAt i s).insertAt (i + s.length) u = t.insertAt i (s ++ u) := by
  rw [insertAt, take_insertAt h, drop_insertAt h, List.append_assoc (t.take i)]
  rfl

/-- What was put in can be taken out again. -/
theorem remove_insertAt {t : Text} (h : i ≤ t.length) (s : Text) :
    (t.insertAt i s).remove (Span.between i (i + s.length)) = t := by
  have ahead : (t.insertAt i s).take i = t.take i := by
    rw [insertAt, List.append_assoc]
    exact List.take_left' (List.length_take_of_le h)
  rw [Span.between_of_le (Nat.le_add_right _ _), remove, ahead, drop_insertAt h,
    List.take_append_drop]

end Text

end ModalEdit
