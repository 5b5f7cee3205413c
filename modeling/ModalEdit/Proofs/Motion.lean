import ModalEdit.Proofs.Text.Lines
import ModalEdit.Workspace.Moving

/-! Where motions from line to line lead. The column that such a motion leaves behind for the next
one is the column that it has gone to itself. -/
namespace ModalEdit

theorem Motion.lastReachableLine_le (t : Text) (purpose : Purpose) :
    lastReachableLine t purpose ≤ t.lastLine := by
  simp only [lastReachableLine]
  split <;> omega

theorem Motion.lastReachableLine_of_ne (t : Text) (purpose : Purpose) (h : purpose ≠ .insertion) :
    lastReachableLine t purpose =
      if t.isEmptyLine t.lastLine then t.lastLine - 1 else t.lastLine := by
  simp only [lastReachableLine, h, ne_eq, not_false_eq_true, true_and]

theorem Wanted.within_le (w : Wanted) (last : Nat) : w.within last ≤ last := by
  cases w with
  | column n => exact Nat.min_le_right _ _
  | lineEnd => exact Nat.le_refl _

theorem Text.lineOf_atColumn {t : Text} (h : l ≤ t.lastLine) (w : Wanted) (pastEnd : Bool) :
    t.lineOf (t.atColumn l w pastEnd) = l ∧ t.atColumn l w pastEnd ≤ t.length := by
  have within : t.atColumn l w pastEnd ≤ t.lineEnd l := by
    simp only [atColumn, lineEnd]
    refine Nat.add_le_add_left (Nat.le_trans (w.within_le _) ?_) _
    split
    · exact Nat.le_refl _
    · exact Nat.sub_le _ _
  exact ⟨t.lineOf_eq h (Nat.le_add_right _ _) within,
    Nat.le_trans within (t.lineEnd_le_length l)⟩

namespace Text

variable {t : Text}

theorem isEmptyLine_iff : t.isEmptyLine l = true ↔ t.lineLength l = 0 := by
  simp [isEmptyLine, lineLength]

/-- An empty last line begins at the end of the text. -/
theorem lineStart_lastLine (empty : t.isEmptyLine t.lastLine = true) :
    t.lineStart t.lastLine = t.length := by
  have bottom := t.lineEnd_lastLine
  rwa [lineEnd, isEmptyLine_iff.mp empty] at bottom

/-- If the line has a character or is followed by one, so has every column of it. -/
theorem atColumn_le (start : t.lineStart l ≤ t.length - 1) (w : Wanted) :
    t.atColumn l w false ≤ t.length - 1 := by
  have within := w.within_le (t.lineLength l - 1)
  have stop := t.lineEnd_le_length l
  simp only [atColumn, Bool.false_eq_true, if_false]
  simp only [lineEnd] at stop
  omega

/-- The lines that the cursor can come to begin ahead of the end of the text. -/
theorem lineStart_lastReachableLine_le (t : Text) :
    t.lineStart (Motion.lastReachableLine t .cursor) ≤ t.length - 1 := by
  have stop := t.lineEnd_le_length t.lastLine
  rw [Motion.lastReachableLine_of_ne t .cursor nofun]
  split
  · cases last : t.lastLine with
    | zero => simp [lineStart, fromLine, last, dropLines]
    | succ l =>
      have inside : t.lineStart (l + 1) ≤ t.length := Nat.sub_le _ _
      have next := lineStart_succ (t := t) (l := l) (by omega)
      have row := t.lineStart_le_lineEnd l
      rw [Nat.add_sub_cancel]
      omega
  · rename_i filled
    rw [isEmptyLine_iff] at filled
    simp only [lineEnd] at stop
    omega

/-- A character is on a line that can be reached. -/
theorem lineOf_le_lastReachableLine (h : i ≤ t.length - 1) :
    t.lineOf i ≤ Motion.lastReachableLine t purpose := by
  have line := t.lineOf_le_lastLine i
  rw [Motion.lastReachableLine]
  split
  · rename_i bare
    -- the last line begins behind the last character
    have stop := lineStart_lastLine bare.2
    cases last : t.lastLine with
    | zero => omega
    | succ l =>
      have above : l < t.lastLine := by omega
      have next := lineStart_succ above
      rw [last] at stop
      have ahead := t.lineOf_mono (show i ≤ t.lineEnd l by omega)
      rwa [lineOf_eq (Nat.le_of_lt above) (t.lineStart_le_lineEnd l) (Nat.le_refl _)] at ahead
  · exact line

/-- A column of a line that can be reached is on that line, and on a character. -/
theorem atColumn_reachable (line : l ≤ Motion.lastReachableLine t .cursor) (w : Wanted) :
    t.lineOf (t.atColumn l w false) = l ∧ t.atColumn l w false ≤ t.length - 1 := by
  have row := Nat.le_trans line (Motion.lastReachableLine_le t .cursor)
  have start := Nat.le_trans (t.lineStart_mono line) t.lineStart_lastReachableLine_le
  exact ⟨(lineOf_atColumn row w false).1, atColumn_le start w⟩

end Text

namespace Motion

/-- The line that a motion leads to from line `l`, if `last` is the last one that can be reached. -/
def lineFrom? (m : Motion) (last l count : Nat) : Option Nat :=
  let n := max count 1
  match m with
  | up => if l = 0 then none else some (l - n)
  | down => if last ≤ l then none else some (min (l + n) last)
  | bufferStart => some (min (n - 1) last)
  | bufferEnd => some (if n = 1 then last else min (n - 1) last)
  | _ => none

/-- A motion from line to line lands on that line. -/
theorem landing?_of_isLinewise {m : Motion} {t : Text} {ctx : Context}
    (linewise : m.isLinewise = true) :
    m.landing? t i (max count 1) ctx =
      (m.lineFrom? (lastReachableLine t ctx.purpose) (t.lineOf i) count).map
        fun l => Landing.onLine t i l ctx := by
  cases m with
  | up | down =>
    simp only [landing?, lineFrom?]
    split <;> rfl
  | bufferStart | bufferEnd => rfl
  | _ => cases linewise

theorem Landing.onLine_wanted {ctx : Context}
    (kept : (onLine t i l ctx).wanted = some w) :
    (onLine t i l ctx).target = t.atColumn l w (ctx.purpose = .insertion) := by
  cases kept
  rfl

theorem Landing.lineEnd_wanted (kept : (lineEnd t l purpose).wanted = some w) :
    (lineEnd t l purpose).target = t.atColumn l w (purpose = .insertion) := by
  cases kept
  simp only [lineEnd, Text.atColumn, Wanted.within, decide_eq_true_eq]
  split
  · rfl
  · split
    · rename_i empty
      simp [upTo, Text.isEmptyLine_iff.mp empty]
    · rename_i filled
      rw [Text.isEmptyLine_iff] at filled
      simp only [through, Text.lineEnd]
      omega

/-- The column that a landing leaves behind is one in which it is itself. -/
theorem landing?_wanted {m : Motion} {t : Text} {ctx : Context} {x : Landing}
    (landed : m.landing? t i count ctx = some x) (kept : x.wanted = some w) :
    ∃ l ≤ max (t.lineOf i) (lastReachableLine t ctx.purpose),
      x.target = t.atColumn l w (ctx.purpose = .insertion) := by
  cases m with
  | up | down =>
    simp only [landing?] at landed
    split at landed
    · cases landed
    · cases landed
      exact ⟨_, by omega, Landing.onLine_wanted kept⟩
  | bufferStart =>
    cases landed
    exact ⟨_, by omega, Landing.onLine_wanted kept⟩
  | bufferEnd =>
    cases landed
    refine ⟨_, ?_, Landing.onLine_wanted kept⟩
    split <;> omega
  | lineEnd =>
    cases landed
    exact ⟨_, by omega, Landing.lineEnd_wanted kept⟩
  | wordEnd =>
    simp only [landing?] at landed
    split at landed
    · cases landed
    · cases landed
      cases kept
  | matchPair =>
    obtain ⟨_, _, rfl⟩ := Option.map_eq_some_iff.mp landed
    cases kept
  | find f =>
    obtain ⟨_, _, rfl⟩ := Option.map_eq_some_iff.mp landed
    split at kept <;> cases kept
  | repeatFind | repeatFindReverse =>
    obtain ⟨f, _, found⟩ := Option.bind_eq_some_iff.mp landed
    obtain ⟨_, _, rfl⟩ := Option.map_eq_some_iff.mp found
    split at kept <;> cases kept
  | _ =>
    cases landed
    cases kept

/-- Where the cursor goes and a column is remembered, the cursor is in that column. -/
theorem resolve_wanted {m : Motion} {e : Editor} {x : Landing} (cursor : e.cursor ≤ e.maxCursor)
    (landed : m.resolve e.text e.cursor count (Workspace.cursorContext e) = some x)
    (kept : x.wanted = some w) :
    x.target = e.text.atColumn (e.text.lineOf x.target) w (e.mode = .insert) := by
  obtain ⟨inner, found, rfl⟩ := Option.map_eq_some_iff.mp landed
  obtain ⟨l, bound, there⟩ := landing?_wanted found kept
  have within : e.cursor ≤ e.text.length := by
    unfold Editor.maxCursor at cursor
    split at cursor <;> omega
  rw [Nat.min_eq_left within] at bound
  have line : l ≤ e.text.lastLine := by
    have last := lastReachableLine_le e.text (Workspace.cursorContext e).purpose
    have first := e.text.lineOf_le_lastLine e.cursor
    omega
  have reached : inner.target ≤ e.maxCursor ∧
      inner.target = e.text.atColumn l w (e.mode = .insert) := by
    by_cases insert : e.mode = .insert
    · simp only [Workspace.cursorContext, insert, if_true, decide_true] at there
      simp only [Editor.maxCursor, insert, if_true, decide_true, there, and_true]
      exact (Text.lineOf_atColumn line w true).2
    · simp only [Workspace.cursorContext, insert, if_false, reduceCtorEq, decide_false]
        at there bound
      simp only [Editor.maxCursor, insert, if_false, decide_false, there, and_true]
      apply Text.atColumn_le
      have first := e.text.lineStart_lineOf_le e.cursor
      have last := e.text.lineStart_lastReachableLine_le
      simp only [Editor.maxCursor, insert, if_false] at cursor
      refine Nat.le_trans (e.text.lineStart_mono bound) ?_
      rcases Nat.le_total (e.text.lineOf e.cursor) (lastReachableLine e.text .cursor) with h | h
      · rwa [Nat.max_eq_right h]
      · rw [Nat.max_eq_left h]
        exact Nat.le_trans first cursor
  have same : min inner.target (Workspace.cursorContext e).limit = inner.target :=
    Nat.min_eq_left reached.1
  simp only [same]
  rw [reached.2, (Text.lineOf_atColumn line w _).1]

end Motion

end ModalEdit
