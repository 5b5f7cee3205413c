import ModalEdit.Proofs.Checked.Text

/-! Places of a text, and edits of it. Every place is told by its line and its column, and the other way
around; every edit, wherever it is asked for, takes out the characters of one range and puts a piece in
their place. -/
namespace ModalEdit

namespace Text

variable {t : Text}

/-! ### Lines and columns -/

/-- The range of a line without its break. -/
def content (t : Text) (l : Nat) : Span := Span.between (t.lineStart l) (t.lineEnd l)

theorem slice_content (t : Text) (l : Nat) : t.slice (t.content l) = t.line l := t.slice_line l

theorem map_line_range (t : Text) : (List.range t.lineCount).map t.line = t.lines := by
  apply List.ext_getElem?
  intro l
  rw [List.getElem?_map]
  rcases Nat.lt_or_ge l t.lineCount with inside | past
  · rw [List.getElem?_range inside, lines_getElem? (Nat.le_of_lt_succ inside)]
    rfl
  · rw [List.getElem?_eq_none, List.getElem?_eq_none]
    · rfl
    · rwa [length_lines]
    · rwa [List.length_range]

theorem lineStart_add_column (h : i ≤ t.length) : t.lineStart (t.lineOf i) + t.column i = i := by
  rw [column, Nat.min_eq_left h]
  exact Nat.add_sub_cancel' (t.lineStart_lineOf_le i)

theorem column_le_lineLength (h : i ≤ t.length) : t.column i ≤ t.lineLength (t.lineOf i) := by
  have place := lineStart_add_column h
  have stop := le_lineEnd_lineOf h
  rw [lineEnd] at stop
  omega

end Text

/-! ### Edits as splices -/

/-- An edit of a text, at offsets that need not be within it, nor in order. -/
inductive TextEdit where
  | insert (i : Nat) (piece : Text)
  | insertChar (i : Nat) (c : Char)
  | remove (a b : Nat)
deriving DecidableEq, Repr

namespace TextEdit

/-- What an edit gives back, and the text that it leaves. -/
def apply : TextEdit → Text → Text × Text
  | insert i piece, t => ([], t.insertAt i piece)
  | insertChar i c, t => ([], t.insertAt i [c])
  | remove a b, t => (t.slice (.between a b), t.remove (.between a b))

/-- What each of several edits gives back, and the text that they leave. -/
def applyAll : List TextEdit → Text → List Text × Text
  | [], t => ([], t)
  | e :: es, t =>
    let rest := applyAll es (e.apply t).2
    ((e.apply t).1 :: rest.1, rest.2)

/-- The range that an edit replaces in a text with `n` characters. -/
def range (n : Nat) : TextEdit → Span
  | insert i _ | insertChar i _ => .emptyAt (min i n)
  | remove a b => (Span.between a b).clamp n

/-- What an edit puts in place of that range. -/
def piece : TextEdit → Text
  | insert _ piece => piece
  | insertChar _ c => [c]
  | remove _ _ => []

end TextEdit

/-- The characters in a range of `t` are `out`, and `t'` has a piece in their place. -/
def Splices (t : Text) (s : Span) (out piece t' : Text) : Prop :=
  ∃ ahead behind : Text, ahead.length = s.start ∧ out.length = s.length ∧
    t = ahead ++ out ++ behind ∧ t' = ahead ++ piece ++ behind

/-- One splice after the other, each in the text that the ones before it have left. -/
inductive SplicesAll : List TextEdit → Text → List Text → Text → Prop where
  | nil : SplicesAll [] t [] t
  | cons : Splices t (e.range t.length) out e.piece u → SplicesAll es u outs t' →
      SplicesAll (e :: es) t (out :: outs) t'

/-- A range within a text and a piece tell what is taken out, and what is left. -/
theorem splices_iff {t : Text} {s : Span} (inside : s.stop ≤ t.length) :
    Splices t s out piece t' ↔ out = t.slice s ∧ t' = t.take s.start ++ piece ++ t.drop s.stop := by
  have ordered := s.start_le_stop
  constructor
  · rintro ⟨ahead, behind, start, length, rfl, rfl⟩
    have stop : s.stop = (ahead ++ out).length := by
      rw [List.length_append, start, length, s.start_add_length]
    rw [Text.slice, stop, ← start, ← length, List.append_assoc, List.drop_left, List.take_left,
      List.take_left, ← List.append_assoc, List.drop_left]
    exact ⟨rfl, rfl⟩
  · rintro ⟨rfl, rfl⟩
    refine ⟨t.take s.start, t.drop s.stop, List.length_take_of_le (by omega), ?_,
      (t.take_slice_drop s).symm, rfl⟩
    rw [Text.slice, List.length_take, List.length_drop, Span.length]
    omega

namespace TextEdit

theorem range_stop_le (e : TextEdit) (n : Nat) : (e.range n).stop ≤ n := by
  cases e <;> exact Nat.min_le_right _ _

/-- A range cut to the text takes out the same characters. -/
theorem apply_eq_iff (e : TextEdit) (t : Text) :
    e.apply t = (out, t') ↔ Splices t (e.range t.length) out e.piece t' := by
  rw [splices_iff (e.range_stop_le t.length), Prod.ext_iff]
  have inserted (i : Nat) (piece : Text) : t.insertAt i piece =
      t.take (min i t.length) ++ piece ++ t.drop (min i t.length) := by
    rw [Checked.take_min, Checked.drop_min (Nat.le_refl _), Text.insertAt]
  cases e with
  | insert i piece =>
    simp [apply, range, TextEdit.piece, Span.emptyAt, Text.slice, Span.length, inserted, eq_comm]
  | insertChar i c =>
    simp [apply, range, piece, Span.emptyAt, Text.slice, Span.length, inserted, eq_comm]
  | remove a b =>
    rw [range, Checked.slice_clamp, piece, List.append_nil, ← Text.remove, Checked.remove_clamp]
    simp only [apply, eq_comm]

theorem applyAll_eq_iff (es : List TextEdit) (t : Text) :
    applyAll es t = (outs, t') ↔ SplicesAll es t outs t' := by
  induction es generalizing t outs with
  | nil =>
    constructor
    · rintro ⟨⟩
      exact .nil
    · rintro ⟨⟩
      rfl
  | cons e es ih =>
    constructor
    · rintro ⟨⟩
      exact .cons ((e.apply_eq_iff t).mp rfl) ((ih _).mp rfl)
    · rintro ⟨⟩
      rename_i first rest
      have first := (e.apply_eq_iff t).mpr first
      rw [applyAll, first, (ih _).mpr rest]

end TextEdit

namespace Checked

/-- An edit whose offsets are cut to the text ahead of each operation on it. -/
def applyEdit : TextEdit → Text → Option (Text × Text)
  | .insert i piece, t => (insertAt t i piece).map ([], ·)
  | .insertChar i c, t => (insertAt t i [c]).map ([], ·)
  | .remove a b, t => do
    let out ← slice t (.between a b)
    let t' ← remove t (.between a b)
    return (out, t')

def applyEdits : List TextEdit → Text → Option (List Text × Text)
  | [], t => some ([], t)
  | e :: es, t => do
    let (out, u) ← applyEdit e t
    let (outs, t') ← applyEdits es u
    return (out :: outs, t')

theorem applyEdit_eq (e : TextEdit) (t : Text) : applyEdit e t = some (e.apply t) := by
  cases e with
  | insert | insertChar => rw [applyEdit, insertAt_eq]; rfl
  | remove => rw [applyEdit, slice_eq, remove_eq]; rfl

theorem applyEdits_eq (es : List TextEdit) (t : Text) :
    applyEdits es t = some (TextEdit.applyAll es t) := by
  induction es generalizing t with
  | nil => rfl
  | cons e es ih =>
    simp only [applyEdits, applyEdit_eq, ih, Option.bind_eq_bind, Option.bind_some]
    rfl

end Checked

namespace Text

/-- The lines of a text have no break in them and make the text when they are joined by breaks. A place is
told by its line and its column, and every column of a line, also the one behind its last character, is
that of a place. A sequence of edits stays within the text and replaces one range after the other by what
it puts in, and each edit gives back exactly what stood in its range. -/
theorem places_and_splices (t : Text) :
    (∀ l, '\n' ∉ t.slice (t.content l)) ∧
    List.intercalate ['\n'] ((List.range t.lineCount).map fun l => t.slice (t.content l)) = t ∧
    (∀ i ≤ t.length, t.lineOf i ≤ t.lastLine ∧ t.column i ≤ t.lineLength (t.lineOf i) ∧
      t.lineStart (t.lineOf i) + t.column i = i) ∧
    (∀ l ≤ t.lastLine, ∀ c ≤ t.lineLength l, t.lineStart l + c ≤ t.length ∧
      t.lineOf (t.lineStart l + c) = l ∧ t.column (t.lineStart l + c) = c) ∧
    (∀ es, Checked.applyEdits es t = some (TextEdit.applyAll es t)) ∧
    ∀ es outs t', TextEdit.applyAll es t = (outs, t') ↔ SplicesAll es t outs t' := by
  refine ⟨?_, ?_, ?_, ?_, ?_, ?_⟩
  · intro l
    rw [slice_content]
    exact t.break_not_mem_line l
  · simp only [slice_content]
    rw [map_line_range, intercalate_lines]
  · intro i inside
    exact ⟨t.lineOf_le_lastLine i, column_le_lineLength inside, lineStart_add_column inside⟩
  · intro l line c within
    have stop := t.lineEnd_le_length l
    rw [lineEnd] at stop
    exact ⟨by omega, column_lineStart_add line within⟩
  · intro es
    exact Checked.applyEdits_eq es t
  · intro es outs t'
    exact TextEdit.applyAll_eq_iff es t

/-- A place on an empty line, the one behind the last character, and edits that reach beyond the end. -/
theorem places_and_splices_beyond_end :
    let t : Text := ['a', 'b', '\n', '\n', 'c']
    3 ≤ t.length ∧ t.lineStart (t.lineOf 3) + t.column 3 = 3 ∧
      2 ≤ t.lastLine ∧ 1 ≤ t.lineLength 2 ∧ t.column (t.lineStart 2 + 1) = 1 ∧
      SplicesAll [.remove 9 1, .insert 7 ['x'], .insertChar 0 '\n'] t
        [['b', '\n', '\n', 'c'], [], []] ['\n', 'a', 'x'] := by
  intro t
  obtain ⟨_, _, places, columns, _, edits⟩ := places_and_splices t
  have place := places 3 (by decide)
  have behind := columns 2 (by decide) 1 (by decide)
  exact ⟨by decide, place.2.2, by decide, by decide, behind.2.2, (edits _ _ _).mp (by decide)⟩

end Text

end ModalEdit
