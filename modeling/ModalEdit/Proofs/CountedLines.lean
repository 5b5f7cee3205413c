import ModalEdit.Proofs.LinewiseEdit

/-! A count of lines and a motion from line to line under a deletion. The motion goes no farther than
to the last line that it can reach, while a count of lines may go on to the empty line behind a last
break. Then the deletion takes that break along, unless it takes all lines. -/
namespace ModalEdit

namespace Text

variable {t : Text}

theorem append_break_iff {t' : Text} {p : Prop} [Decidable p]
    (parts : t = t' ++ if p then ['\n'] else []) : (t = t' ↔ ¬p) ∧ (p → t = t' ++ ['\n']) := by
  rw [parts]
  split <;> simp_all

/-- Down to the empty line behind a last break, a deletion takes this break along. -/
theorem remove_removal_behind_break (empty : t.isEmptyLine t.lastLine = true)
    (behind : 0 < t.lastLine) (h : l ≤ t.lastLine - 1) :
    t.remove ((Extent.ofLines t l (t.lastLine - 1)).removal t) =
      t.remove ((Extent.ofLines t l t.lastLine).removal t) ++ if 0 < l then ['\n'] else [] := by
  have nothing : t.fromLine (t.lastLine - 1 + 1) = [] := by
    rw [Nat.sub_add_cancel behind, fromLine_lastLine, List.isEmpty_iff.mp empty]
  rw [remove_removal_above h (Nat.sub_one_lt_of_lt behind), nothing, List.append_nil,
    remove_removal_last (Nat.le_trans h (Nat.sub_le _ _))]
  cases l with
  | zero =>
    rw [lineStart_zero]
    rfl
  | succ l =>
    have above : l < t.lastLine := by omega
    rw [lineStart_succ above, Nat.add_sub_cancel, List.take_add_one, getElem?_lineEnd above]
    rfl

/-- Down to line `b`, a count of lines takes what a motion does, and the last break if it goes on to
the empty line behind it and there is a line ahead. -/
theorem remove_removal_reachable (line : l ≤ Motion.lastReachableLine t .operator) (b : Nat) :
    t.remove ((Extent.ofLines t l (min b (Motion.lastReachableLine t .operator))).removal t) =
      t.remove ((Extent.ofLines t l (min b t.lastLine)).removal t) ++
        if t.isEmptyLine t.lastLine = true ∧ 0 < l ∧ t.lastLine ≤ b then ['\n'] else [] := by
  rw [Motion.lastReachableLine_of_ne t .operator nofun] at line ⊢
  by_cases empty : t.isEmptyLine t.lastLine = true
  · rw [if_pos empty] at line ⊢
    rcases Nat.lt_or_ge b t.lastLine with inside | past
    · rw [Nat.min_eq_left (Nat.le_sub_one_of_lt inside), Nat.min_eq_left (Nat.le_of_lt inside),
        if_neg fun all => Nat.not_le_of_lt inside all.2.2, List.append_nil]
    · -- the motion stops one line ahead of the count
      rw [Nat.min_eq_right (Nat.le_trans (Nat.sub_le _ _) past), Nat.min_eq_right past]
      simp only [empty, past, true_and, and_true]
      rcases Nat.eq_zero_or_pos t.lastLine with only | behind
      · rw [only, if_neg (by omega), List.append_nil]
      · exact remove_removal_behind_break empty behind line
  · rw [if_neg empty, if_neg fun all => empty all.1, List.append_nil]

end Text

namespace Editor

variable {e : Editor}

/-- Whether `m` lines from the cursor on reach the empty line behind a last break, and there are
lines ahead of the cursor. -/
def Overshoots (e : Editor) (m : Nat) : Prop :=
  e.text.isEmptyLine e.text.lastLine = true ∧ 0 < e.text.lineOf e.cursor ∧
    e.text.lastLine < e.text.lineOf e.cursor + m

instance : Decidable (e.Overshoots m) := inferInstanceAs (Decidable (_ ∧ _ ∧ _))

theorem linesTaken?_lines (normal : e.mode = .normal) (op : Operator)
    (register : Option RegisterName) (count : Nat) :
    e.linesTaken? (.edit (.operate op .lines register) count) =
      some (e.text.lineOf e.cursor,
        min (e.text.lineOf e.cursor + (count - 1)) e.text.lastLine) := by
  rw [linesTaken?, if_pos normal]

/-- A motion to a line that is not above the cursor takes the lines from the cursor down to it. -/
theorem linesTaken?_motion (normal : e.mode = .normal) (op : Operator)
    (register : Option RegisterName)
    (there : m.goalLine? e.text (e.text.lineOf e.cursor) count = some goal)
    (down : e.text.lineOf e.cursor ≤ goal) :
    e.linesTaken? (.edit (.operate op (.motion m) register) count) =
      some (e.text.lineOf e.cursor, goal) := by
  rw [linesTaken?, if_pos normal, there, Option.map_some, Nat.min_eq_left down,
    Nat.max_eq_right down]

/-- The motion down has a landing only if a line below can be reached. -/
theorem goalLine?_down {ctx : Motion.Context} (purpose : ctx.purpose = .operator) (h : 1 ≤ n)
    (cursor : e.cursor ≤ e.text.length)
    (moves : (Motion.down.resolve e.text e.cursor n ctx).isSome = true) :
    Motion.down.goalLine? e.text (e.text.lineOf e.cursor) n =
      some (min (e.text.lineOf e.cursor + n) (Motion.lastReachableLine e.text .operator)) := by
  rw [Motion.resolve, Option.isSome_map, Nat.min_eq_left cursor] at moves
  simp only [Motion.landing?, purpose] at moves
  split at moves
  · cases moves
  · rename_i below
    simp only [Motion.goalLine?, if_neg below, Nat.max_eq_left h]

end Editor

namespace Session

variable {s : Session}

/-- The motion stops where a count of lines does, or at the last line that it can reach. -/
theorem lines_deleted_to_goal (reached : s.Reachable) (normal : s.editor.mode = .normal)
    (b b' : RegisterBank) (register register' : Option RegisterName)
    (there : m.goalLine? s.editor.text (s.editor.text.lineOf s.editor.cursor) n =
      some (min (s.editor.text.lineOf s.editor.cursor + k)
        (Motion.lastReachableLine s.editor.text .operator))) :
    (s.perform b (.edit (.operate .delete (.motion m) register) n)).1.1.editor.text =
      (s.perform b' (.edit (.operate .delete .lines register') (k + 1))).1.1.editor.text ++
        if s.editor.Overshoots (k + 1) then ['\n'] else [] := by
  have line : s.editor.text.lineOf s.editor.cursor ≤
      Motion.lastReachableLine s.editor.text .operator :=
    Text.lineOf_le_lastReachableLine (reached.placed.cursor_le (by rw [normal]; nofun))
  have toGoal := Editor.linesTaken?_motion normal .delete register there (by omega)
  have counted := Editor.linesTaken?_lines normal .delete register' (k + 1)
  rw [perform_of_lines_deleted reached b rfl toGoal, perform_of_lines_deleted reached b' rfl counted,
    Text.remove_removal_reachable line, Nat.add_sub_cancel]
  simp only [Editor.Overshoots, ← Nat.add_assoc, Nat.lt_succ_iff]

/-- A deletion down to the `n`-th line below leaves the same text as a deletion of `n + 1` lines, and
a deletion down to the end the same as one of as many lines as there are or more, exactly if the
count of lines does not reach the empty line behind a last break. If it does so, then it takes that
break along. -/
theorem counted_lines_agree (reached : s.Reachable) (normal : s.editor.mode = .normal)
    (b b' : RegisterBank) (register register' : Option RegisterName) :
    let e := s.editor
    let toLine (m : Motion) (n : Nat) :=
      (s.perform b (.edit (.operate .delete (.motion m) register) n)).1.1.editor.text
    let counted (m : Nat) :=
      (s.perform b' (.edit (.operate .delete .lines register') m)).1.1.editor.text
    (∀ n ≥ 1, (Motion.down.resolve e.text e.cursor n
          (.operator e.text e.wanted? e.lastFind?)).isSome = true →
        (toLine .down n = counted (n + 1) ↔ ¬e.Overshoots (n + 1)) ∧
        (e.Overshoots (n + 1) → toLine .down n = counted (n + 1) ++ ['\n'])) ∧
      ∀ m, Motion.lastReachableLine e.text .operator < e.text.lineOf e.cursor + m →
        (toLine .bufferEnd 1 = counted m ↔ ¬e.Overshoots m) ∧
        (e.Overshoots m → toLine .bufferEnd 1 = counted m ++ ['\n']) := by
  intro e toLine counted
  refine ⟨fun n some moves => ?_, fun m all => ?_⟩
  · have there := Editor.goalLine?_down rfl some reached.placed.cursor_le_length moves
    exact Text.append_break_iff (lines_deleted_to_goal reached normal b b' register register' there)
  · have line : e.text.lineOf e.cursor ≤ Motion.lastReachableLine e.text .operator :=
      Text.lineOf_le_lastReachableLine (reached.placed.cursor_le (by rw [normal]; nofun))
    obtain ⟨k, rfl⟩ : ∃ k, m = k + 1 := ⟨m - 1, by omega⟩
    have there : Motion.bufferEnd.goalLine? e.text (e.text.lineOf e.cursor) 1 =
        some (min (e.text.lineOf e.cursor + k) (Motion.lastReachableLine e.text .operator)) := by
      rw [Nat.min_eq_right (by omega)]
      rfl
    exact Text.append_break_iff (lines_deleted_to_goal reached normal b b' register register' there)

/-- The second and the third of three lines, each with a break. -/
theorem counted_lines_agree_on_last_lines :
    let s := ofText ['a', '\n', 'b', '\n', 'c', '\n'] .normal 2 100
    let left (target : Target) (count : Nat) :=
      (s.perform {} (.edit (.operate .delete target none) count)).1.1.editor.text
    s.Reachable ∧ s.editor.mode = .normal ∧
      (Motion.down.resolve s.editor.text s.editor.cursor 1
        (.operator s.editor.text s.editor.wanted? s.editor.lastFind?)).isSome = true ∧
      Motion.lastReachableLine s.editor.text .operator < s.editor.text.lineOf s.editor.cursor + 2 ∧
      ¬s.editor.Overshoots 2 ∧ left (.motion .down) 1 = left .lines (1 + 1) ∧
      left (.motion .bufferEnd) 1 = left .lines 2 := by
  intro s left
  have reached : s.Reachable := Reachable.opened _ _ _ _
  have moves : (Motion.down.resolve s.editor.text s.editor.cursor 1
      (.operator s.editor.text s.editor.wanted? s.editor.lastFind?)).isSome = true := by decide
  have all : Motion.lastReachableLine s.editor.text .operator <
      s.editor.text.lineOf s.editor.cursor + 2 := by decide
  have within : ¬s.editor.Overshoots 2 := by decide
  obtain ⟨below, bottom⟩ := counted_lines_agree reached rfl {} {} none none
  have agree := (below 1 (Nat.le_refl 1) moves).1
  exact ⟨reached, rfl, moves, all, within, agree.mpr within, (bottom 2 all).1.mpr within⟩

/-- From the second of three lines on, each with a break, a count of three takes the break of the
first one. -/
theorem counted_lines_take_last_break :
    let s := (ofText ['a', '\n', 'b', '\n', 'c', '\n'] .normal 0 100).run
      [({}, .press (.char 'j'))]
    let left (keys : Text) := (s.pressAll {} (keys.map KeyPress.char)).1.1.editor.text
    s.Reachable ∧ s.editor.mode = .normal ∧
      (Motion.down.resolve s.editor.text s.editor.cursor 2
        (.operator s.editor.text s.editor.wanted? s.editor.lastFind?)).isSome = true ∧
      left ['d', '2', 'j'] = ['a', '\n'] ∧ left ['d', 'G'] = ['a', '\n'] ∧
      left ['3', 'd', 'd'] = ['a'] := by
  refine ⟨(Reachable.opened _ _ _ _).run _, ?_⟩
  decide

end Session

end ModalEdit
