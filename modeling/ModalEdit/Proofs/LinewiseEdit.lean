import ModalEdit.Proofs.LinewiseRegister

/-! What operators on whole lines do to the lines of a text. A deletion takes the lines away, a
change puts an empty one in their place, and the lines ahead of them and behind them stay. -/
namespace ModalEdit

/-- Under an operator only motions from line to line take whole lines. -/
theorem Motion.goalLine?_of_lines {m : Motion} {t : Text} {x : Landing}
    (landed : m.landing? t i (max count 1) (.operator t wanted f?) = some x)
    (lines : x.reach = .lines) : ∃ goal, m.goalLine? t (t.lineOf i) count = some goal := by
  cases m with
  | up | down =>
    simp only [landing?] at landed
    split at landed
    · cases landed
    · rename_i moves
      exact ⟨_, if_neg moves⟩
  | bufferStart | bufferEnd => exact ⟨_, rfl⟩
  | lineEnd =>
    cases landed
    simp only [Landing.lineEnd] at lines
    split at lines
    · cases lines
    · split at lines <;> cases lines
  | wordEnd =>
    simp only [landing?] at landed
    split at landed
    · cases landed
    · cases landed
      cases lines
  | matchPair =>
    obtain ⟨_, _, rfl⟩ := Option.map_eq_some_iff.mp landed
    cases lines
  | find f =>
    obtain ⟨_, _, rfl⟩ := Option.map_eq_some_iff.mp landed
    split at lines <;> cases lines
  | repeatFind | repeatFindReverse =>
    obtain ⟨f, _, found⟩ := Option.bind_eq_some_iff.mp landed
    obtain ⟨_, _, rfl⟩ := Option.map_eq_some_iff.mp found
    split at lines <;> cases lines
  | _ =>
    cases landed
    cases lines

/-- Whatever acts on whole lines acts on the lines that its command takes. -/
theorem Editor.linesTaken?_of_linewise {e : Editor} (placed : e.Placed) {c : Command}
    (found : e.extent? c = some x) (lines : x.linewise = true) :
    ∃ first last, e.linesTaken? c = some (first, last) := by
  unfold extent? at found
  split at found
  · rename_i op target register count
    split at found
    · rename_i normal
      cases target with
      | lines => exact ⟨_, _, if_pos normal⟩
      | motion m =>
        obtain ⟨landing, resolved, rfl⟩ := Option.map_eq_some_iff.mp found
        obtain ⟨inner, landed, rfl⟩ := Option.map_eq_some_iff.mp resolved
        rw [Nat.min_eq_left placed.cursor_le_length] at landed
        have reach : inner.reach = .lines := by
          cases reach : inner.reach <;> simp_all [Extent.ofLanding, Extent.charwise]
        obtain ⟨goal, there⟩ := Motion.goalLine?_of_lines landed reach
        refine ⟨min (e.text.lineOf e.cursor) goal, max (e.text.lineOf e.cursor) goal, ?_⟩
        simp only [linesTaken?, normal, if_true, there, Option.map_some]
      | object o =>
        obtain ⟨s, _, rfl⟩ := Option.map_eq_some_iff.mp found
        cases lines
    · cases found
  · rename_i op register
    split at found
    · obtain ⟨s, selected, rfl⟩ := Option.map_eq_some_iff.mp found
      obtain ⟨_, rest⟩ := placed
      cases mode : e.mode with
      | visualLine =>
        rw [mode] at rest
        obtain ⟨anchor, _, there, _⟩ := rest
        exact ⟨_, _, by rw [linesTaken?, if_pos mode, there]; rfl⟩
      | visual =>
        rw [mode] at rest
        obtain ⟨anchor, _, _, same⟩ := rest
        obtain rfl := Option.some.inj (selected.symm.trans same)
        cases lines
      | normal | insert => simp_all [Mode.isVisual]
    · cases found
  · cases found

namespace Session

/-- An operator on whole lines acts on the lines that its command takes, in the normal mode and on
the text that is there. -/
theorem perform_of_linewise {s : Session} (reached : s.Reachable) (b : RegisterBank) {c : Command}
    (applied : c.operation? = some (op, register)) (found : s.editor.extent? c = some x)
    (lines : x.linewise = true) :
    ∃ first last, s.editor.linesTaken? c = some (first, last) ∧ first ≤ last ∧
      last ≤ s.editor.text.lastLine ∧ x = Extent.ofLines s.editor.text first last ∧
      ∃ w : Workspace, w.editor.text = s.editor.text ∧ w.editor.mode = .normal ∧
        (s.perform b c).1.1.editor = (w.operateOn op x register).1.editor := by
  have placed := reached.placed
  obtain ⟨first, last, taken⟩ := Editor.linesTaken?_of_linewise placed found lines
  obtain ⟨ordered, bound⟩ := Editor.linesTaken?_ordered taken
  obtain ⟨_, covers⟩ := Editor.extent?_of_linesTaken placed taken
  obtain ⟨w, text, mode, _, editor, _⟩ :=
    Workspace.perform_of_extent (w := s.workspace b) applied found
  exact ⟨first, last, taken, ordered, bound, Option.some.inj (found.symm.trans covers), w, text,
    mode, editor⟩

/-- A deletion of lines takes out these. -/
theorem perform_of_lines_deleted {s : Session} (reached : s.Reachable) (b : RegisterBank)
    {c : Command} (applied : c.operation? = some (.delete, register))
    (taken : s.editor.linesTaken? c = some (first, last)) :
    (s.perform b c).1.1.editor.text =
      s.editor.text.remove ((Extent.ofLines s.editor.text first last).removal s.editor.text) := by
  obtain ⟨_, found⟩ := Editor.extent?_of_linesTaken reached.placed taken
  exact Workspace.perform_text (w := s.workspace b) applied found

/-- An operator on whole lines acts on the lines that its command takes, and on no others: a yank
leaves all lines as they are, a deletion leaves those ahead and behind, and a change leaves these
with an empty line between them, on which the insertion begins. -/
theorem linewise_operators_edit_lines {s : Session} (reached : s.Reachable) (b : RegisterBank)
    {c : Command} (applied : c.operation? = some (op, register))
    (found : s.editor.extent? c = some x) (lines : x.linewise = true) :
    let t := s.editor.text
    let after := (s.perform b c).1.1.editor
    ∃ first last, s.editor.linesTaken? c = some (first, last) ∧ first ≤ last ∧
      last ≤ t.lastLine ∧ x.span.start = t.lineStart first ∧ x.span.stop = t.lineEnd last ∧
      match op with
      | .yank => after.text = t
      | .delete => after.text.lines = t.linesWithout first last
      | .change =>
        after.text.lines = t.lines.take first ++ [] :: t.lines.drop (last + 1) ∧
          after.mode = .insert ∧ after.cursor = after.text.lineStart first := by
  intro t after
  obtain ⟨first, last, taken, ordered, bound, covers, w, text, _, editor⟩ :=
    perform_of_linewise reached b applied found lines
  have ends : x = ⟨⟨t.lineStart first, t.lineEnd last, t.lineStart_le_lineEnd_of_le ordered⟩, true⟩ :=
    covers.trans (Text.ofLines_eq ordered)
  refine ⟨first, last, taken, ordered, bound, by rw [ends], by rw [ends], ?_⟩
  have edited : after.text = _ := Workspace.perform_text (w := s.workspace b) applied found
  cases op with
  | yank => exact edited
  | delete =>
    rw [covers] at edited
    exact (congrArg Text.lines edited).trans (Text.lines_remove_removal ordered bound)
  | change =>
    have first_line : first ≤ t.lastLine := Nat.le_trans ordered bound
    have start : t.lineStart first ≤ t.length := Nat.sub_le _ _
    have begun := Workspace.change_cursor (w := w) (x := x) (by rw [ends, text]; exact start) register
    have left : after.text = t.take (t.lineStart first) ++ t.drop (t.lineEnd last) := by
      rw [ends] at edited
      exact edited
    refine ⟨?_, (congrArg Editor.mode editor).trans begun.1, ?_⟩
    · rw [covers] at edited
      exact (congrArg Text.lines edited).trans (Text.lines_remove_span ordered bound)
    · rw [left, Text.lineStart_take_lineStart_append first_line]
      refine (congrArg Editor.cursor editor).trans (begun.2.trans ?_)
      rw [ends]

/-- The last two of three lines, the first of them empty. -/
theorem linewise_operators_edit_last_lines :
    let s := (ofText ['a', '\n', '\n', 'b'] .normal 0 100).run [({}, .press (.char 'j'))]
    let c : Command := .edit (.operate .delete (.motion .down) none) 1
    s.Reachable ∧ c.operation? = some (.delete, none) ∧
      s.editor.extent? c = some (Extent.ofLines s.editor.text 1 2) ∧
      (s.perform {} c).1.1.editor.text.lines = [['a']] := by
  intro s c
  have reached : s.Reachable := (Reachable.opened _ _ _ _).run _
  have found : s.editor.extent? c = some (Extent.ofLines s.editor.text 1 2) := by decide
  obtain ⟨first, last, taken, _, _, _, _, left⟩ :=
    linewise_operators_edit_lines reached {} (c := c) rfl found rfl
  have there : s.editor.linesTaken? c = some (1, 2) := by decide
  obtain ⟨rfl, rfl⟩ := Prod.mk.inj (Option.some.inj (there.symm.trans taken))
  exact ⟨reached, rfl, found, left.trans (by decide)⟩

end Session

end ModalEdit
