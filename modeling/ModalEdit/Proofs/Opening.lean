import ModalEdit.Proofs.Placement

/-! A text can come to a session in two ways: the session is opened with it, or takes it over later.
Both cut the cursor to what the mode allows and rebuild the selection, but an opening does so
before the mode is entered. -/
namespace ModalEdit

/-! ### The two ways -/

namespace Editor

variable (t : Text) (m : Mode) (cursor : Nat)

/-- A text is opened with the cursor on a character, whatever the mode, and a selection begins
there. -/
theorem snapshot_ofText (undoLevels : Nat) :
    let i := min cursor (t.length - 1)
    (ofText t m cursor undoLevels).snapshot =
      { text := t, cursor := i, mode := m
        selection? := m.selects?.map (Selection.between t i i), revision := 0 } := by
  intro i
  have within : min i t.length = i := by omega
  simp only [ofText, setMode]
  cases visual : m.isVisual with
  | true =>
    simp only [if_true, snapshot, refreshSelection, clampCursor, maxCursor, Mode.isVisual,
      Bool.false_eq_true, if_false, Option.getD_none, Option.getD_some, reduceCtorEq]
    rw [within]
  | false =>
    rw [Mode.selects?_eq_none_iff.mpr visual]
    rfl

/-- A text is taken over with the cursor in the range of the mode, and a selection goes on from its
anchor. -/
theorem snapshot_replaceText {e : Editor} (placed : e.Placed) :
    let i := min cursor (if e.mode = .insert then t.length else t.length - 1)
    (e.replaceText t cursor).snapshot =
      { text := t, cursor := i, mode := e.mode
        selection? := e.mode.selects?.map
          (Selection.between t (min (e.anchor?.getD e.cursor) (t.length - 1)) i)
        revision := e.revision + 1 } := by
  intro i
  cases visual : e.mode.isVisual with
  | true =>
    obtain ⟨a, _, anchor⟩ := placed.anchor visual
    have within : min (min a (t.length - 1)) t.length = min a (t.length - 1) := by omega
    simp only [replaceText, visual, if_true, anchor, Option.map_some, snapshot, refreshSelection,
      clampCursor, Option.getD_some, edit, pushCheckpoint, endRun]
    rw [within]
    rfl
  | false =>
    simp only [replaceText, visual, Bool.false_eq_true, if_false, snapshot, refreshSelection,
      clampCursor, edit, pushCheckpoint, endRun]
    rw [Mode.selects?_eq_none_iff.mpr visual]
    rfl

/-- A selection that began with the opening begins at the same character of the text that is taken
over. -/
theorem snapshot_replaceText_ofText (undoLevels : Nat) :
    let i := min cursor (t.length - 1)
    ((ofText t m cursor undoLevels).replaceText t cursor).snapshot =
      { text := t, cursor := min cursor (if m = .insert then t.length else t.length - 1), mode := m
        selection? := m.selects?.map (Selection.between t i i), revision := 1 } := by
  intro i
  have within : min i (t.length - 1) = i := by omega
  rw [snapshot_replaceText t cursor (ofText_placed t m cursor undoLevels)]
  cases m with
  | normal | insert => rfl
  | visual | visualLine =>
    change Snapshot.mk t i _ (some (.between t (min i (t.length - 1)) i _)) 1 = _
    rw [within]
    rfl

end Editor

/-! ### Finding the session -/

namespace Engine

variable {e : Engine}

theorem ids_update (e : Engine) (id : SessionId) (s : Session) :
    (e.update id s).sessions.map (·.1) = e.sessions.map (·.1) := by
  rw [update, List.map_map]
  apply List.map_congr_left
  intro entry _
  dsimp only [Function.comp]
  split
  · exact Eq.symm ‹_›
  · rfl

/-- The number for the next session is greater than that of any session. -/
theorem Reachable.id_lt (reached : e.Reachable) :
    ∀ id ∈ e.sessions.map (·.1), id < e.nextId := by
  induction reached with
  | fresh => simp
  | @openSession e t m cursor _ ih =>
    intro id member
    rw [Engine.openSession, List.map_append] at member
    rcases List.mem_append.mp member with old | new
    · exact Nat.lt_succ_of_lt (ih id old)
    · rw [List.mem_singleton.mp new]
      exact Nat.lt_succ_self _
  | closeSession closed _ ih =>
    intro id member
    obtain ⟨entry, there, rfl⟩ := List.mem_map.mp member
    exact ih entry.1 (List.mem_map_of_mem (List.mem_filter.mp there).1)
  | press id k _ ih =>
    simp only [Engine.press]
    split
    · exact ih
    · dsimp only
      rw [ids_update]
      exact ih
  | syncText id t cursor _ ih =>
    simp only [Engine.syncText]
    split
    · exact ih
    · rw [ids_update]
      exact ih
  | setRegister name t linewise _ ih =>
    simp only [Engine.setRegister]
    split <;> exact ih
  | syncClipboard c _ ih => exact ih

theorem find?_openSession (reached : e.Reachable) (t : Text) (m : Mode) (cursor : Nat) :
    (e.openSession t m cursor).1.find? (e.openSession t m cursor).2 =
      some (.ofText t m cursor e.undoLevels) := by
  have fresh : e.sessions.lookup e.nextId = none := by
    apply List.lookup_eq_none_iff.mpr
    intro entry member
    have below := reached.id_lt entry.1 (List.mem_map_of_mem member)
    simpa using Nat.ne_of_gt below
  simp only [openSession, find?, List.lookup_append, fresh, Option.none_or]
  exact List.lookup_cons_self

theorem find?_syncText (e : Engine) (id : SessionId) (t : Text) (cursor : Nat) :
    (e.syncText id t cursor).1.find? id = (e.find? id).map (·.syncText t cursor) := by
  unfold syncText
  cases found : e.find? id with
  | none => exact found
  | some s =>
    dsimp only
    rw [find?_update, if_pos rfl, found]
    rfl

/-- A session that has been opened with a text and then takes over the same text shows that text,
the mode and the selection as it did. The cursor moves only in an insertion, from the last character
to behind it, if it was asked to be there or farther on. -/
theorem sync_shows_opening (reached : e.Reachable) (t : Text) (m : Mode) (cursor : Nat) :
    let opened := e.openSession t m cursor
    let synced := opened.1.syncText opened.2 t cursor
    let i := min cursor (t.length - 1)
    synced.2 = true ∧ ∃ before after,
      opened.1.snapshot? opened.2 = some before ∧ synced.1.snapshot? opened.2 = some after ∧
      before.text = t ∧ after.text = t ∧ before.mode = m ∧ after.mode = m ∧
      before.selection? = m.selects?.map (Selection.between t i i) ∧
      after.selection? = before.selection? ∧
      before.cursor = i ∧
      after.cursor = min cursor (if m = .insert then t.length else t.length - 1) ∧
      (after.cursor = before.cursor ↔ ¬ (m = .insert ∧ t ≠ [] ∧ t.length ≤ cursor)) := by
  intro opened synced i
  let s : Session := .ofText t m cursor e.undoLevels
  have found : opened.1.find? opened.2 = some s := find?_openSession reached t m cursor
  have taken : synced = (opened.1.update opened.2 (s.syncText t cursor), true) := by
    simp only [synced, syncText, found]
  have shown : synced.1.find? opened.2 = some (s.syncText t cursor) := by
    rw [find?_syncText, found]
    rfl
  refine ⟨congrArg Prod.snd taken, s.editor.snapshot, (s.syncText t cursor).editor.snapshot,
    congrArg _ found, congrArg _ shown, ?_⟩
  have before : s.editor.snapshot = _ := Editor.snapshot_ofText t m cursor e.undoLevels
  have after : (s.syncText t cursor).editor.snapshot = _ :=
    Editor.snapshot_replaceText_ofText t m cursor e.undoLevels
  rw [before, after]
  refine ⟨rfl, rfl, rfl, rfl, rfl, rfl, rfl, rfl, ?_⟩
  dsimp only
  rw [← List.length_pos_iff]
  split
  · rename_i insert
    simp only [insert, true_and]
    omega
  · rename_i other
    simp only [other, false_and, not_false_eq_true]

/-- Lines are selected from the last one, beside a session that has been closed. -/
theorem sync_shows_opening_of_lines :
    let fresh : Engine := { registers := {}, undoLevels := 100 }
    let e := ((fresh.openSession ['x'] .normal 0).1.closeSession 1).1
    let t : Text := ['a', '\n', 'b', 'c']
    let opened := e.openSession t .visualLine 9
    let synced := opened.1.syncText opened.2 t 9
    e.Reachable ∧ opened.2 = 2 ∧ synced.2 = true ∧ ∃ before after,
      opened.1.snapshot? 2 = some before ∧ synced.1.snapshot? 2 = some after ∧
      before.selection? = some (.between t 3 3 .lines) ∧ after.selection? = before.selection? ∧
      after.cursor = before.cursor := by
  intro fresh e t opened synced
  have reached : e.Reachable := .closeSession 1 (.openSession ['x'] .normal 0 (.fresh {} 100))
  obtain ⟨known, before, after, shown, shown', _, _, _, _, selected, same, _, _, cursor⟩ :=
    sync_shows_opening reached t .visualLine 9
  exact ⟨reached, rfl, known, before, after, shown, shown', selected, same,
    cursor.mpr (by decide)⟩

/-- An insertion that is asked to begin behind the last character begins upon it. -/
theorem opening_cuts_insertion :
    let e : Engine := { registers := {}, undoLevels := 100 }
    let t : Text := ['a', 'b', 'c']
    let opened := e.openSession t .insert 3
    let synced := opened.1.syncText opened.2 t 3
    e.Reachable ∧ opened.1.snapshot? opened.2 = some ⟨t, 2, .insert, none, 0⟩ ∧
      synced.1.snapshot? opened.2 = some ⟨t, 3, .insert, none, 1⟩ := by
  refine ⟨.fresh {} 100, ?_, ?_⟩ <;> decide

end Engine

end ModalEdit
