import ModalEdit.Proofs.Text.Lines

/-! What can go wrong. The definitions that run give a number for every difference and a text for
every range; here an operation that has a domain has no result outside of it, and what is built
from such operations has none either. Each definition is compared with the one that runs: where the
two agree, every operation on the way was within its domain.

First the operations themselves, and what a buffer is asked for. -/
namespace ModalEdit.Checked

/-- A difference that must not go below zero. -/
def sub (a b : Nat) : Option Nat := if b ≤ a then some (a - b) else none

theorem sub_eq (h : b ≤ a) : sub a b = some (a - b) := if_pos h

@[simp] theorem succ_sub_one (n : Nat) : sub (n + 1) 1 = some n := sub_eq (Nat.le_add_left 1 n)

/-- A range of a list whose ends must be in order and within the list. -/
def sublist (xs : List α) (i j : Nat) : Option (List α) :=
  if i ≤ j ∧ j ≤ xs.length then some ((xs.take j).drop i) else none

theorem sublist_eq {xs : List α} (ordered : i ≤ j) (inside : j ≤ xs.length) :
    sublist xs i j = some ((xs.drop i).take (j - i)) := by
  rw [sublist, if_pos ⟨ordered, inside⟩, List.drop_take]

/-- The line of an offset that must be within the text. -/
def lineAt (t : Text) (i : Nat) : Option Nat := if i ≤ t.length then some (t.lineOf i) else none

/-- The start of a line that must be there. -/
def offsetOf (t : Text) (l : Nat) : Option Nat :=
  if l ≤ t.lastLine then some (t.lineStart l) else none

/-- What stands in a range that must be within the text. -/
def cut (t : Text) (s : Span) : Option Text := sublist t s.start s.stop

/-- The text without a range that must be within it. -/
def splice (t : Text) (s : Span) : Option Text :=
  if s.stop ≤ t.length then some (t.take s.start ++ t.drop s.stop) else none

/-- The text with a piece at an offset that must be within it. -/
def put (t : Text) (i : Nat) (piece : Text) : Option Text :=
  if i ≤ t.length then some (t.take i ++ piece ++ t.drop i) else none

/-! ### Buffers -/

def lineOf (t : Text) (i : Nat) : Option Nat := lineAt t (min i t.length)

def lineStart (t : Text) (l : Nat) : Option Nat := offsetOf t (min l t.lastLine)

/-- The break that ends a line is in front of the next one. -/
def lineEnd (t : Text) (l : Nat) : Option Nat :=
  if min l t.lastLine + 1 < t.lineCount then do
    let next ← offsetOf t (min l t.lastLine + 1)
    sub next 1
  else some t.length

def lineLength (t : Text) (l : Nat) : Option Nat := do
  let stop ← lineEnd t l
  let start ← lineStart t l
  sub stop start

def isEmptyLine (t : Text) (l : Nat) : Option Bool := do
  let length ← lineLength t l
  return length = 0

def column (t : Text) (i : Nat) : Option Nat := do
  let l ← lineOf t (min i t.length)
  let start ← lineStart t l
  sub (min i t.length) start

def slice (t : Text) (s : Span) : Option Text := cut t (s.clamp t.length)

def insertAt (t : Text) (i : Nat) (piece : Text) : Option Text := put t (min i t.length) piece

/-- What is removed is cut out first. -/
def remove (t : Text) (s : Span) : Option Text :=
  let inside := s.clamp t.length
  if inside.isEmpty then some t
  else do
    let _ ← cut t inside
    splice t inside

variable (t : Text)

theorem take_min (i : Nat) : t.take (min i t.length) = t.take i := by
  rw [List.take_eq_take_iff, Nat.min_assoc, Nat.min_self]

theorem drop_min {u : Text} (h : u.length ≤ n) (i : Nat) : u.drop (min i n) = u.drop i := by
  rcases Nat.le_total i n with inside | past
  · rw [Nat.min_eq_left inside]
  · rw [Nat.min_eq_right past, List.drop_of_length_le h, List.drop_of_length_le (Nat.le_trans h past)]

theorem lineOf_min (i : Nat) : t.lineOf (min i t.length) = t.lineOf i := by
  rw [Text.lineOf, take_min, Text.lineOf]

@[simp] theorem lineOf_eq (i : Nat) : lineOf t i = some (t.lineOf i) := by
  rw [lineOf, lineAt, if_pos (Nat.min_le_right _ _), lineOf_min]

@[simp] theorem lineStart_eq (l : Nat) : lineStart t l = some (t.lineStart l) := by
  rw [lineStart, offsetOf, if_pos (Nat.min_le_right _ _)]
  rcases Nat.le_total l t.lastLine with inside | past
  · rw [Nat.min_eq_left inside]
  · rw [Nat.min_eq_right past, Text.lineStart_of_lastLine_le past]

@[simp] theorem lineEnd_eq (l : Nat) : lineEnd t l = some (t.lineEnd l) := by
  unfold lineEnd
  split
  · rename_i before
    have next : min l t.lastLine < t.lastLine := Nat.lt_of_succ_lt_succ before
    have row : min l t.lastLine = l := by omega
    have start := Text.lineStart_succ next
    simp only [offsetOf, Nat.succ_le_of_lt next, if_true, Option.bind_eq_bind, Option.bind_some]
    rw [sub_eq (by omega), start, row, Nat.add_sub_cancel]
  · rename_i last
    have past : t.lastLine ≤ l := by
      rw [Text.lineCount] at last
      omega
    rw [Text.lineEnd_of_lastLine_le past, Text.lineEnd_lastLine]

@[simp] theorem lineLength_eq (l : Nat) : lineLength t l = some (t.lineLength l) := by
  simp only [lineLength, lineEnd_eq, lineStart_eq, Option.bind_eq_bind, Option.bind_some]
  rw [sub_eq (t.lineStart_le_lineEnd l), Text.lineEnd, Nat.add_sub_cancel_left]

@[simp] theorem isEmptyLine_eq (l : Nat) : isEmptyLine t l = some (t.isEmptyLine l) := by
  simp only [isEmptyLine, lineLength_eq, Option.bind_eq_bind, Option.bind_some, Option.pure_def,
    Text.isEmptyLine, Text.lineLength]
  cases t.line l <;> rfl

@[simp] theorem column_eq (i : Nat) : column t i = some (t.column i) := by
  have start := t.lineStart_lineOf_le (min i t.length)
  rw [lineOf_min] at start
  simp only [column, lineOf_eq, lineStart_eq, Option.bind_eq_bind, Option.bind_some, lineOf_min]
  rw [sub_eq start, Text.column]

theorem cut_eq {s : Span} (h : s.stop ≤ t.length) : cut t s = some (t.slice s) :=
  sublist_eq s.start_le_stop h

theorem slice_clamp (s : Span) : t.slice (s.clamp t.length) = t.slice s := by
  have shorter : (t.take s.stop).length ≤ t.length := (List.take_sublist _ _).length_le
  have parts (s : Span) : t.slice s = (t.take s.stop).drop s.start := List.drop_take.symm
  rw [parts, parts, Span.clamp, take_min, drop_min shorter]

@[simp] theorem slice_eq (s : Span) : slice t s = some (t.slice s) := by
  rw [slice, cut_eq t (s := s.clamp t.length) (Nat.min_le_right _ _), slice_clamp]

@[simp] theorem insertAt_eq (i : Nat) (piece : Text) :
    insertAt t i piece = some (t.insertAt i piece) := by
  rw [insertAt, put, if_pos (Nat.min_le_right _ _), take_min, drop_min (Nat.le_refl _),
    Text.insertAt]

theorem remove_clamp (s : Span) : t.remove (s.clamp t.length) = t.remove s := by
  rw [Text.remove, Span.clamp, take_min, drop_min (Nat.le_refl _), Text.remove]

@[simp] theorem remove_eq (s : Span) : remove t s = some (t.remove s) := by
  have bound : (s.clamp t.length).stop ≤ t.length := Nat.min_le_right _ _
  simp only [remove]
  split
  · rename_i nothing
    have ends : (s.clamp t.length).start = (s.clamp t.length).stop := by
      simpa [Span.isEmpty] using nothing
    rw [← remove_clamp, Text.remove, ends, List.take_append_drop]
  · simp only [cut_eq t bound, splice, bound, if_true, Option.bind_eq_bind, Option.bind_some]
    exact congrArg some (remove_clamp t s)

end ModalEdit.Checked
