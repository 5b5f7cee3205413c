import ModalEdit.Proofs.Operating
import ModalEdit.Proofs.Reachable
import ModalEdit.Proofs.TextObject

/-! The cursor stays in the text and the selection follows it. Commands set the cursor, the mode
and the text in many ways; each either clamps the cursor in a mode without a selection, or
rebuilds the selection of a mode that has one. -/
namespace ModalEdit

/-! ### The span of a selection -/

namespace Selection

variable {t : Text} {anchor : Nat} (cursor : Nat)

/-- Characters are selected from the nearer end to the farther one, with both. -/
theorem between_chars_ends (h : anchor ≤ t.length) :
    (between t anchor cursor .chars).span.start = min anchor cursor ∧
      (between t anchor cursor .chars).span.stop = min (max anchor cursor + 1) t.length := by
  simp only [between, Span.between]
  omega

/-- Lines are selected from the start of the upper one to the end of the lower one. -/
theorem between_lines_ends :
    (between t anchor cursor .lines).span.start = t.lineStart (t.lineOf (min anchor cursor)) ∧
      (between t anchor cursor .lines).span.stop = t.lineEnd (t.lineOf (max anchor cursor)) := by
  have ordered : min anchor cursor ≤ max anchor cursor := by omega
  have := t.lineStart_le_lineEnd_of_le (t.lineOf_mono ordered)
  simp only [between, Span.between]
  omega

theorem between_stop_le (kind : Kind) (h : anchor ≤ t.length) :
    (between t anchor cursor kind).span.stop ≤ t.length := by
  cases kind with
  | chars =>
    rw [(between_chars_ends cursor h).2]
    exact Nat.min_le_right _ _
  | lines =>
    rw [(between_lines_ends cursor).2]
    exact t.lineEnd_le_length _

/-- A selection starts at or before the cursor and the anchor. -/
theorem between_start_le (kind : Kind) (h : anchor ≤ t.length) :
    (between t anchor cursor kind).span.start ≤ min anchor cursor := by
  cases kind with
  | chars => exact Nat.le_of_eq (between_chars_ends cursor h).1
  | lines =>
    rw [(between_lines_ends cursor).1]
    exact t.lineStart_lineOf_le _

end Selection

/-! ### The invariant -/

namespace Editor

/-- The cursor is in the range of the mode. A mode that selects has an anchor on a character and
the selection between the anchor and the cursor; any other mode has neither. -/
def Placed (e : Editor) : Prop :=
  e.cursor ≤ e.maxCursor ∧
    match e.mode.selects? with
    | none => e.anchor? = none ∧ e.selection? = none
    | some kind => ∃ anchor ≤ e.text.length - 1,
        e.anchor? = some anchor ∧ e.selection? = some (.between e.text anchor e.cursor kind)

/-- No selection, and no mode that has one. -/
def Plain (e : Editor) : Prop :=
  e.mode.isVisual = false ∧ e.anchor? = none ∧ e.selection? = none

variable {e : Editor} {m : Mode}

theorem Placed.plain (placed : e.Placed) (mode : e.mode.isVisual = false) : e.Plain := by
  have selects := Mode.selects?_eq_none_iff.mpr mode
  obtain ⟨_, rest⟩ := placed
  rw [selects] at rest
  exact ⟨mode, rest⟩

theorem Plain.placed (plain : Plain e) (cursor : e.cursor ≤ e.maxCursor) : e.Placed := by
  refine ⟨cursor, ?_⟩
  rw [Mode.selects?_eq_none_iff.mpr plain.1]
  exact plain.2

theorem Plain.clampCursor_placed (plain : Plain e) : e.clampCursor.Placed :=
  Plain.placed (e := e.clampCursor) plain (Nat.min_le_right _ _)

theorem Plain.settle_placed (plain : Plain e) : e.settle.Placed := by
  obtain ⟨i, bound, same⟩ := e.settle_eq
  rw [same]
  exact Plain.placed (e := { e with cursor := i }) plain bound

theorem Placed.cursor_le (placed : e.Placed) (mode : e.mode ≠ .insert) :
    e.cursor ≤ e.text.length - 1 := by
  simpa [maxCursor, mode] using placed.1

theorem Placed.cursor_le_length (placed : e.Placed) : e.cursor ≤ e.text.length := by
  have := placed.1
  unfold maxCursor at this
  split at this <;> omega

theorem Placed.anchor (placed : e.Placed) (visual : e.mode.isVisual = true) :
    ∃ a ≤ e.text.length - 1, e.anchor? = some a := by
  obtain ⟨_, rest⟩ := placed
  split at rest
  · rename_i kind
    simp [Mode.selects?_eq_none_iff.mp kind] at visual
  · obtain ⟨a, bound, anchor, _⟩ := rest
    exact ⟨a, bound, anchor⟩

theorem Placed.lines (placed : e.Placed) (mode : e.mode = .visualLine) :
    ∃ a ≤ e.text.length - 1,
      e.anchor? = some a ∧ e.selection? = some (.between e.text a e.cursor .lines) := by
  obtain ⟨_, rest⟩ := placed
  rw [mode] at rest
  exact rest

theorem Placed.isVisual_of_anchor (placed : e.Placed) (anchor : e.anchor? = some a) :
    e.mode.isVisual = true := by
  by_contra other
  have := (placed.plain (Bool.eq_false_iff.mpr other)).2.1
  rw [anchor] at this
  cases this

theorem Placed.selection (placed : e.Placed) (selected : e.selection? = some s) :
    ∃ a ≤ e.text.length - 1, ∃ kind, s = .between e.text a e.cursor kind := by
  obtain ⟨_, rest⟩ := placed
  split at rest
  · rw [selected] at rest
    cases rest.2
  · rename_i kind _
    obtain ⟨a, bound, _, same⟩ := rest
    rw [selected] at same
    exact ⟨a, bound, kind, Option.some.inj same⟩

theorem Placed.selection_start_le (placed : e.Placed) (selected : e.selection? = some s) :
    s.span.start ≤ e.cursor := by
  obtain ⟨a, bound, kind, rfl⟩ := placed.selection selected
  have start := Selection.between_start_le e.cursor kind (Nat.le_trans bound (Nat.sub_le _ _))
  exact Nat.le_trans start (Nat.min_le_right _ _)

theorem refreshSelection_placed (visual : e.mode.isVisual = true) (anchor : e.anchor? = some a)
    (bound : a ≤ e.text.length - 1) (cursor : e.cursor ≤ e.text.length - 1) :
    e.refreshSelection.Placed := by
  have within : min a e.text.length = a := by omega
  have mode := Mode.ne_insert_of_isVisual visual
  refine ⟨by simpa [maxCursor, refreshSelection, mode] using cursor, ?_⟩
  cases kind : e.mode.selects? with
  | none => simp [Mode.selects?_eq_none_iff.mp kind] at visual
  | some kind' =>
    simp only [refreshSelection, kind, anchor, Option.getD_some, within]
    exact ⟨a, bound, rfl, rfl⟩

theorem setMode_anchored_placed (visual : e.mode.isVisual = true) (next : m.isVisual = true)
    (anchor : e.anchor? = some a) (bound : a ≤ e.text.length - 1)
    (cursor : e.cursor ≤ e.text.length - 1) : (e.setMode m).Placed := by
  simp only [setMode, visual, next, if_true, anchor, Option.getD_some]
  exact refreshSelection_placed (e := { e with mode := m, anchor? := some a }) next rfl bound cursor

/-- A selection that begins does so at the cursor, and one that goes on keeps its anchor. -/
theorem setMode_placed (placed : e.Placed) (mode : e.mode ≠ .insert)
    (visual : m.isVisual = true) : (e.setMode m).Placed := by
  have cursor := placed.cursor_le mode
  cases begun : e.mode.isVisual with
  | true =>
    obtain ⟨a, bound, anchor⟩ := placed.anchor begun
    exact setMode_anchored_placed begun visual anchor bound cursor
  | false =>
    simp only [setMode, begun, visual, if_true, Bool.false_eq_true, if_false, Option.getD_none]
    exact refreshSelection_placed (e := { e with mode := m, anchor? := some e.cursor })
      visual rfl cursor cursor

theorem ofText_placed (t : Text) (m : Mode) (cursor undoLevels : Nat) :
    (ofText t m cursor undoLevels).Placed := by
  let e : Editor := { text := t, cursor, history := .empty undoLevels }
  have opened : e.clampCursor.Placed := Plain.clampCursor_placed ⟨rfl, rfl, rfl⟩
  cases visual : m.isVisual with
  | true => exact setMode_placed opened (by simp [clampCursor]) visual
  | false =>
    have bound : min cursor (t.length - 1) ≤ t.length - 1 := Nat.min_le_right _ _
    have entered : ofText t m cursor undoLevels =
        { e.clampCursor with mode := m, anchor? := none, selection? := none } := by
      simp only [ofText, setMode, visual, clearSelection, e]
      rfl
    rw [entered]
    refine Plain.placed ⟨visual, rfl, rfl⟩ ?_
    simp only [maxCursor, clampCursor, e, reduceCtorEq, if_false]
    split
    · exact Nat.le_trans bound (Nat.sub_le _ _)
    · exact bound

theorem replaceText_placed (placed : e.Placed) (t : Text) (cursor : Nat) :
    (e.replaceText t cursor).Placed := by
  simp only [replaceText]
  cases visual : e.mode.isVisual with
  | true =>
    have mode := Mode.ne_insert_of_isVisual visual
    obtain ⟨_, rest⟩ := placed
    cases kind : e.mode.selects? with
    | none => simp [Mode.selects?_eq_none_iff.mp kind] at visual
    | some kind' =>
      rw [kind] at rest
      obtain ⟨a, _, anchor, _⟩ := rest
      simp only [anchor, Option.map_some, if_true]
      refine refreshSelection_placed visual rfl (Nat.min_le_right _ _) ?_
      exact Nat.le_trans (Nat.min_le_right _ _) (Nat.le_of_eq (if_neg mode))
  | false =>
    obtain ⟨_, anchor, _⟩ := placed.plain visual
    have kind := Mode.selects?_eq_none_iff.mpr visual
    apply Plain.placed
    · simp [Plain, refreshSelection, clampCursor, edit, pushCheckpoint, endRun, visual, anchor, kind]
    · exact Nat.min_le_right _ _

end Editor

/-! ### Commands -/

namespace Workspace

open Editor

variable {w : Workspace}

theorem move_placed (placed : w.editor.Placed) (m : Motion) (count : Nat) :
    (w.move m count).1.editor.Placed := by
  have remembered : (rememberFind w.editor m).Placed := by
    cases m <;> exact placed
  simp only [move]
  generalize rememberFind w.editor m = e at remembered
  cases landed : m.resolve e.text e.cursor count (cursorContext e) with
  | none => exact remembered
  | some landing =>
    have within : landing.target ≤ e.maxCursor := by
      obtain ⟨inner, _, rfl⟩ := Option.map_eq_some_iff.mp landed
      exact Nat.min_le_right _ _
    dsimp only
    cases visual : e.mode.isVisual with
    | true =>
      have mode := Mode.ne_insert_of_isVisual visual
      obtain ⟨a, bound, anchor⟩ := remembered.anchor visual
      rw [maxCursor, if_neg mode] at within
      exact refreshSelection_placed (e := { e with cursor := landing.target, wanted? := landing.wanted })
        visual anchor bound within
    | false =>
      have plain := remembered.plain visual
      exact Plain.placed (e := { e with cursor := landing.target, wanted? := landing.wanted })
        plain within

theorem selectObject_placed (placed : w.editor.Placed) (o : TextObject) (count : Nat) :
    (w.selectObject o count).1.editor.Placed := by
  simp only [selectObject]
  split
  · rename_i visual
    split
    · exact placed
    · rename_i s found
      obtain ⟨resolved, filled⟩ := Option.filter_eq_some_iff.mp found
      have inside := TextObject.resolve_stop_le resolved
      have ordered := s.start_le_stop
      have nonempty : s.start ≠ s.stop := by simpa [Span.isEmpty] using filled
      refine setMode_anchored_placed (e := { w.editor with
        anchor? := some s.start, cursor := s.stop - 1, wanted? := none }) visual rfl rfl ?_ ?_
      · dsimp only
        omega
      · dsimp only
        omega
  · exact placed

theorem swapAnchor_placed (placed : w.editor.Placed) : w.swapAnchor.1.editor.Placed := by
  simp only [swapAnchor]
  split
  · exact placed
  · rename_i anchor there
    have visual := placed.isVisual_of_anchor there
    have mode := Mode.ne_insert_of_isVisual visual
    have cursor := placed.cursor_le mode
    refine refreshSelection_placed (e := { w.editor with
      anchor? := some w.editor.cursor, cursor := min anchor w.editor.maxCursor, wanted? := none })
      visual rfl cursor ?_
    rw [maxCursor, if_neg mode]
    exact Nat.min_le_right _ _

theorem startVisual_placed (placed : w.editor.Placed) (visual : m.isVisual = true) :
    (w.startVisual m).1.editor.Placed := by
  simp only [startVisual]
  split
  · exact placed
  · rename_i other
    exact setMode_placed placed (fun insert => other (.inr insert)) visual

theorem leaveVisual_placed (placed : w.editor.Placed) : w.leaveVisual.1.editor.Placed := by
  simp only [leaveVisual]
  split
  · exact Plain.clampCursor_placed ⟨rfl, rfl, rfl⟩
  · exact placed

theorem operateOn_placed (placed : w.editor.Placed) (normal : w.editor.mode = .normal)
    (op : Operator) (x : Extent) (register : Option RegisterName) :
    (w.operateOn op x register).1.editor.Placed := by
  have plain : w.editor.Plain := placed.plain (by simp [normal, Mode.isVisual])
  cases op with
  | yank =>
    simp only [operateOn, yank]
    split
    · exact placed
    · exact plain.clampCursor_placed
  | delete =>
    simp only [operateOn, delete]
    split
    · exact placed
    · exact Plain.settle_placed plain
  | change =>
    simp only [operateOn, change]
    split <;> exact Plain.clampCursor_placed ⟨rfl, rfl, rfl⟩

theorem operate_placed (placed : w.editor.Placed) (op : Operator) (target : Target) (count : Nat)
    (register : Option RegisterName) : (w.operate op target count register).1.editor.Placed := by
  obtain ⟨f?, same | ⟨normal, x, r, _, same, _⟩⟩ := w.operate_cases op target count register
  · rw [same]
    exact placed
  · rw [same]
    exact operateOn_placed (w := w.withFind f?) placed normal op x register

theorem operateSelection_placed (placed : w.editor.Placed) (op : Operator)
    (register : Option RegisterName) : (w.operateSelection op register).1.editor.Placed := by
  rcases w.operateSelection_cases op register with same | ⟨visual, s, i, selected, place, same⟩
  · rw [same]
    exact placed
  · have cursor := placed.cursor_le (Mode.ne_insert_of_isVisual visual)
    have start := placed.selection_start_le selected
    have within : i ≤ w.editor.text.length - 1 := by
      rcases place with rfl | rfl <;> omega
    rw [same]
    refine operateOn_placed (w := { w with editor := { w.editor.setMode .normal with cursor := i } })
      ?_ rfl op _ register
    exact Plain.placed ⟨rfl, rfl, rfl⟩ within

/-- Outside of selections every edit ends with the cursor clamped. -/
theorem enterInsert_placed (placed : w.editor.Placed) (entry : InsertEntry) (count : Nat) :
    (w.enterInsert entry count).1.editor.Placed := by
  simp only [enterInsert, inMode]
  split
  · exact Plain.clampCursor_placed ⟨rfl, rfl, rfl⟩
  · exact placed

theorem insertText_placed (placed : w.editor.Placed) (t : Text) :
    (w.insertText t).1.editor.Placed := by
  simp only [insertText, inMode]
  split
  · exact placed
  · split
    · rename_i insert
      have plain := placed.plain (by simp [insert, Mode.isVisual])
      have cursor := placed.cursor_le_length
      refine Plain.placed plain ?_
      simp only [maxCursor, edit, noteEdits, beginRun, insert, if_true, Text.length_insertAt]
      omega
    · exact placed

theorem backspace_placed (placed : w.editor.Placed) : w.backspace.1.editor.Placed := by
  simp only [backspace, inMode]
  split
  · exact placed
  · split
    · rename_i insert
      have plain := placed.plain (by simp [insert, Mode.isVisual])
      have cursor := placed.cursor_le_length
      refine Plain.placed plain ?_
      simp only [maxCursor, edit, noteEdits, beginRun, insert, if_true, Text.remove, Span.between,
        List.length_append, List.length_take, List.length_drop]
      omega
    · exact placed

theorem leaveInsert_placed (placed : w.editor.Placed) : w.leaveInsert.1.editor.Placed := by
  simp only [leaveInsert, inMode]
  split
  · exact Plain.clampCursor_placed ⟨rfl, rfl, rfl⟩
  · exact placed

theorem replaceChar_placed (placed : w.editor.Placed) (c : Char) (count : Nat) :
    (w.replaceChar c count).1.editor.Placed := by
  simp only [replaceChar, inMode]
  split
  · exact placed
  · split
    · rename_i normal
      exact Plain.clampCursor_placed (placed.plain (by simp [normal, Mode.isVisual]))
    · exact placed

theorem joinMany_plain (plain : e.Plain) (l n : Nat) : (joinMany l n e).Plain := by
  induction n generalizing e with
  | zero => exact plain
  | succ n ih =>
    simp only [joinMany]
    split
    · exact plain
    · exact ih plain

theorem joinLines_placed (placed : w.editor.Placed) (count : Nat) :
    (w.joinLines count).1.editor.Placed := by
  simp only [joinLines, inMode]
  split
  · exact placed
  · split
    · rename_i normal
      have plain := placed.plain (by simp [normal, Mode.isVisual])
      exact (joinMany_plain (e := w.editor.pushCheckpoint) plain _ _).clampCursor_placed
    · exact placed

theorem paste_placed (placed : w.editor.Placed) (before : Bool) (count : Nat)
    (name? : Option RegisterName) : (w.paste before count name?).1.editor.Placed := by
  unfold paste inMode
  split
  · rename_i normal
    dsimp only
    split
    · exact placed
    · exact Plain.clampCursor_placed (placed.plain (by simp [normal, Mode.isVisual]))
  · exact placed

theorem travelMany_plain {step : Editor → Option Editor}
    (keeps : ∀ e e', step e = some e' → e.Plain → e'.Plain) (plain : e.Plain) (n : Nat) :
    (travelMany step n e).Plain := by
  induction n generalizing e with
  | zero => exact plain
  | succ n ih =>
    simp only [travelMany]
    split
    · rename_i e' stepped
      exact ih (keeps _ _ stepped plain)
    · exact plain

theorem travel_placed {step : Editor → Option Editor}
    (keeps : ∀ e e', step e = some e' → e.Plain → e'.Plain) (placed : w.editor.Placed)
    (count : Nat) : (w.travel step count).1.editor.Placed := by
  simp only [travel, inMode]
  split
  · rename_i normal
    split
    · exact placed
    · rename_i e stepped
      have plain := keeps _ _ stepped (placed.plain (by simp [normal, Mode.isVisual]))
      exact (travelMany_plain keeps plain _).clampCursor_placed
  · exact placed

theorem undo?_plain (e e' : Editor) (undone : e.undo? = some e') (plain : e.Plain) : e'.Plain := by
  obtain ⟨arrival, _, rfl⟩ := Option.map_eq_some_iff.mp undone
  exact plain

theorem redo?_plain (e e' : Editor) (redone : e.redo? = some e') (plain : e.Plain) : e'.Plain := by
  obtain ⟨arrival, _, rfl⟩ := Option.map_eq_some_iff.mp redone
  exact plain

theorem doEdit_placed (placed : w.editor.Placed) (count : Nat) (edit : Edit) :
    (w.doEdit count edit).1.editor.Placed := by
  cases edit with
  | operate op target register => exact operate_placed placed op target count register
  | insert entry => exact enterInsert_placed placed entry count
  | replace c => exact replaceChar_placed placed c count
  | paste before register => exact paste_placed placed before count register
  | joinLines => exact joinLines_placed placed count

theorem repeatLast_placed (placed : w.editor.Placed) (count? : Option Nat) :
    (w.repeatLast count?).1.editor.Placed := by
  simp only [repeatLast, inMode]
  split
  · split
    · exact placed
    · rename_i c _
      have done := doEdit_placed placed (count?.getD c.count) c.edit
      simp only [retype]
      split
      · exact leaveInsert_placed (insertText_placed done _)
      · exact done
  · exact placed

theorem perform_placed (placed : w.editor.Placed) (c : Command) :
    (w.perform c).1.editor.Placed := by
  cases c with
  | move m count => exact move_placed placed m count
  | edit e count => exact doEdit_placed placed count e
  | operateSelection op register => exact operateSelection_placed placed op register
  | selectObject o count => exact selectObject_placed placed o count
  | swapAnchor => exact swapAnchor_placed placed
  | startVisual | startVisualLine => exact startVisual_placed placed rfl
  | leaveVisual => exact leaveVisual_placed placed
  | leaveInsert => exact leaveInsert_placed placed
  | insertText t => exact insertText_placed placed t
  | insertBreak => exact insertText_placed placed _
  | backspace => exact backspace_placed placed
  | undo count => exact travel_placed undo?_plain placed count
  | redo count => exact travel_placed redo?_plain placed count
  | repeatLast count? => exact repeatLast_placed placed count?

end Workspace

namespace Session

theorem Reachable.placed {s : Session} (reached : s.Reachable) : s.editor.Placed :=
  reached.invariant (P := fun e _ => e.Placed) Editor.ofText_placed
    (fun _ c placed => Workspace.perform_placed placed c)
    (fun _ _ t cursor placed => Editor.replaceText_placed placed t cursor)

/-- In every state the cursor is in the range of its mode, there is a selection and an anchor just
in the modes that select, and the selection is the one between the anchor and the cursor in the
text of that state. -/
theorem selection_follows_cursor {s : Session} (reached : s.Reachable) :
    (s.editor.mode = .insert → s.editor.cursor ≤ s.editor.text.length) ∧
    (s.editor.mode ≠ .insert → s.editor.cursor ≤ s.editor.text.length - 1) ∧
    (s.editor.anchor?.isSome ↔ s.editor.mode = .visual ∨ s.editor.mode = .visualLine) ∧
    (s.editor.selection?.isSome ↔ s.editor.mode = .visual ∨ s.editor.mode = .visualLine) ∧
    ∀ selection, s.editor.selection? = some selection → ∃ anchor kind,
      s.editor.anchor? = some anchor ∧ s.editor.mode.selects? = some kind ∧
      selection = .between s.editor.text anchor s.editor.cursor kind ∧
      anchor ≤ s.editor.text.length - 1 ∧
      selection.span.start ≤ selection.span.stop ∧
      selection.span.stop ≤ s.editor.text.length := by
  obtain ⟨cursor, rest⟩ := reached.placed
  refine ⟨fun insert => ?_, fun other => ?_, ?_⟩
  · simpa [Editor.maxCursor, insert] using cursor
  · simpa [Editor.maxCursor, other] using cursor
  · cases mode : s.editor.mode with
    | normal | insert =>
      simp only [mode, Mode.selects?] at rest
      simp [rest]
    | visual | visualLine =>
      simp only [mode, Mode.selects?] at rest
      obtain ⟨anchor, bound, there, selected⟩ := rest
      refine ⟨by simp [there], by simp [selected], fun selection same => ?_⟩
      obtain rfl := Option.some.inj (selected.symm.trans same)
      exact ⟨anchor, _, there, rfl, rfl, bound, Span.start_le_stop _,
        Selection.between_stop_le _ _ (Nat.le_trans bound (Nat.sub_le _ _))⟩

/-- A selection of two lines whose text is replaced by a single character. -/
theorem selection_follows_shorter_text :
    let s := (ofText ['a', '\n', 'b'] .normal 2 100).run
      [({}, .press (.char 'V')), ({}, .press (.char 'k')), ({}, .sync ['c'] 7)]
    s.Reachable ∧ s.editor.mode = .visualLine ∧ s.editor.cursor ≤ s.editor.text.length - 1 ∧
      s.editor.anchor?.isSome ∧ s.editor.selection?.isSome ∧
      ∀ selection, s.editor.selection? = some selection → selection.span.stop ≤ 1 := by
  intro s
  have reached : s.Reachable := (Reachable.opened _ _ _ _).run _
  have mode : s.editor.mode = .visualLine := by decide
  obtain ⟨_, cursor, anchored, selected, follows⟩ := selection_follows_cursor reached
  refine ⟨reached, mode, cursor (by decide), anchored.mpr (.inr mode), selected.mpr (.inr mode), ?_⟩
  intro selection there
  obtain ⟨_, _, _, _, _, _, _, stop⟩ := follows selection there
  exact stop

end Session

end ModalEdit
