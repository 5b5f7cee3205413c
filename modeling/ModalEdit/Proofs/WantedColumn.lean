import ModalEdit.Proofs.Motion
import ModalEdit.Proofs.Outcome
import ModalEdit.Proofs.Text.Breaks

/-! The column that vertical motions keep. As long as one is remembered the cursor is to be in it,
so that the next motion goes on from where the cursor is: whatever takes the cursor elsewhere has
to forget the column. Three steps do not: writing over characters, yanking a selection, and taking
over a text from outside. -/
namespace ModalEdit

namespace Editor

/-- The cursor is in the remembered column of its line, if there is one. -/
def AtWanted (e : Editor) : Prop :=
  ∀ w ∈ e.wanted?, e.cursor = e.text.atColumn (e.text.lineOf e.cursor) w (e.mode = .insert)

instance (e : Editor) : Decidable e.AtWanted :=
  inferInstanceAs (Decidable (∀ w ∈ e.wanted?, _))

/-- Is the place `i` of a text outside the column that is remembered? -/
def offWanted (e : Editor) (t : Text) (i : Nat) : Bool :=
  e.wanted?.any fun w => i ≠ t.atColumn (t.lineOf i) w (e.mode = .insert)

variable {e : Editor}

/-- If the column is still the same, what counts is where the cursor is now. -/
theorem atWanted_iff_of_kept {e' : Editor} (kept : e'.wanted? = e.wanted?)
    (mode : e'.mode = .insert ↔ e.mode = .insert) :
    e'.AtWanted ↔ ¬e.offWanted e'.text e'.cursor := by
  simp only [AtWanted, offWanted, kept, mode]
  cases e.wanted? <;> simp

theorem AtWanted.of_forgotten (forgotten : e.wanted? = none) : e.AtWanted := by
  intro w kept
  rw [forgotten] at kept
  cases kept

theorem AtWanted.setMode (aligned : e.AtWanted) (mode : e.mode ≠ .insert) (next : m ≠ .insert) :
    (e.setMode m).AtWanted := by
  intro w kept
  have there := aligned w (by simpa using kept)
  simpa [mode, next] using there

end Editor

/-! ### Steps that leave the column -/

namespace Workspace

/-- Does an edit leave the cursor outside the remembered column? Only writing over characters does
not forget it: over several the cursor goes on to the last of them, and a break puts it on the
line that begins there. -/
def editStrays (w : Workspace) (count : Nat) : Edit → Bool
  | .replace c =>
    let t := w.editor.text
    let i := w.editor.cursor
    let broken := (t.remove (Span.between i (i + max count 1))).insertAt i ['\n']
    (w.replaceChar c count).2.textChanged &&
      if c = '\n' then w.editor.offWanted broken (min (i + 1) (broken.length - 1))
      else w.editor.wanted?.isSome && 1 < count
  | _ => false

/-- Does a command leave the cursor outside the remembered column? Besides writing over characters
only a yank of a selection can, since it takes the cursor to the start of the selection. -/
def strays (w : Workspace) : Command → Bool
  | .edit e count => w.editStrays count e
  | .operateSelection .yank _ =>
    w.editor.selection?.any fun s => w.editor.offWanted w.editor.text s.span.start
  | .repeatLast count? =>
    w.recorder.last?.any fun c => w.editStrays (count?.getD c.count) c.edit
  | _ => false

open Editor

variable {w : Workspace}

theorem move_atWanted (placed : w.editor.Placed) (aligned : w.editor.AtWanted) (m : Motion)
    (count : Nat) : (w.move m count).1.editor.AtWanted := by
  have cursor : (rememberFind w.editor m).cursor ≤ (rememberFind w.editor m).maxCursor := by
    cases m <;> exact placed.1
  have remembered : (rememberFind w.editor m).AtWanted := by
    cases m <;> exact aligned
  simp only [move]
  generalize rememberFind w.editor m = e at cursor remembered
  cases landed : m.resolve e.text e.cursor count (cursorContext e) with
  | none => exact remembered
  | some landing =>
    have there : ∀ wanted ∈ landing.wanted, _ :=
      fun _ kept => Motion.resolve_wanted cursor landed kept
    dsimp only
    split <;> exact there

theorem operateOn_atWanted (cursor : w.editor.cursor ≤ w.editor.maxCursor)
    (aligned : w.editor.AtWanted) (op : Operator) (x : Extent) (register : Option RegisterName) :
    (w.operateOn op x register).1.editor.AtWanted := by
  cases op with
  | yank =>
    rw [operateOn, yank_editor cursor]
    exact aligned
  | delete =>
    simp only [operateOn, delete]
    split
    · exact aligned
    · exact .of_forgotten rfl
  | change =>
    simp only [operateOn, change]
    split <;> exact .of_forgotten rfl

theorem operate_atWanted (placed : w.editor.Placed) (aligned : w.editor.AtWanted) (op : Operator)
    (target : Target) (count : Nat) (register : Option RegisterName) :
    (w.operate op target count register).1.editor.AtWanted := by
  obtain ⟨f?, same | ⟨_, x, r, _, same, _⟩⟩ := operate_cases w op target count register
  · rw [same]
    exact aligned
  · rw [same]
    exact operateOn_atWanted (w := w.withFind f?) placed.1 aligned op x register

theorem selectObject_atWanted (aligned : w.editor.AtWanted) (o : TextObject) (count : Nat) :
    (w.selectObject o count).1.editor.AtWanted := by
  simp only [selectObject]
  split
  · split
    · exact aligned
    · exact .of_forgotten (setMode_wanted? _ _)
  · exact aligned

theorem swapAnchor_atWanted (aligned : w.editor.AtWanted) : w.swapAnchor.1.editor.AtWanted := by
  simp only [swapAnchor]
  split
  · exact aligned
  · exact .of_forgotten rfl

theorem startVisual_atWanted (aligned : w.editor.AtWanted) (next : m ≠ .insert) :
    (w.startVisual m).1.editor.AtWanted := by
  simp only [startVisual]
  split
  · exact aligned
  · rename_i other
    exact aligned.setMode (fun insert => other (.inr insert)) next

/-- A cursor that is already on a character stays where it is when a selection ends. -/
theorem setMode_normal_cursor_le (placed : w.editor.Placed) (visual : w.editor.mode.isVisual = true)
    (within : i ≤ w.editor.cursor) :
    i ≤ ({ w.editor.setMode .normal with cursor := i } : Editor).maxCursor := by
  have cursor := placed.cursor_le (Mode.ne_insert_of_isVisual visual)
  simp only [maxCursor, setMode_mode, setMode_text, reduceCtorEq, if_false]
  exact Nat.le_trans within cursor

theorem leaveVisual_atWanted (placed : w.editor.Placed) (aligned : w.editor.AtWanted) :
    w.leaveVisual.1.editor.AtWanted := by
  simp only [leaveVisual]
  split
  · rename_i visual
    have mode := Mode.ne_insert_of_isVisual visual
    rw [clampCursor_of_le]
    · exact aligned.setMode mode (by decide)
    · simpa [maxCursor] using placed.cursor_le mode
  · exact aligned

theorem enterInsert_atWanted (aligned : w.editor.AtWanted) (entry : InsertEntry) (count : Nat) :
    (w.enterInsert entry count).1.editor.AtWanted := by
  simp only [enterInsert, inMode]
  split
  · exact .of_forgotten rfl
  · exact aligned

theorem insertText_atWanted (aligned : w.editor.AtWanted) (t : Text) :
    (w.insertText t).1.editor.AtWanted := by
  simp only [insertText, inMode]
  split
  · exact aligned
  · split
    · exact .of_forgotten rfl
    · exact aligned

theorem backspace_atWanted (aligned : w.editor.AtWanted) : w.backspace.1.editor.AtWanted := by
  simp only [backspace, inMode]
  split
  · exact aligned
  · split
    · exact .of_forgotten rfl
    · exact aligned

theorem leaveInsert_atWanted (aligned : w.editor.AtWanted) :
    w.leaveInsert.1.editor.AtWanted := by
  simp only [leaveInsert, inMode]
  split
  · exact .of_forgotten rfl
  · exact aligned

theorem joinLines_atWanted (aligned : w.editor.AtWanted) (count : Nat) :
    (w.joinLines count).1.editor.AtWanted := by
  simp only [joinLines, inMode]
  split
  · exact aligned
  · split
    · exact .of_forgotten rfl
    · exact aligned

theorem paste_atWanted (aligned : w.editor.AtWanted) (before : Bool) (count : Nat)
    (name? : Option RegisterName) : (w.paste before count name?).1.editor.AtWanted := by
  unfold paste inMode
  split
  · dsimp only
    split
    · exact aligned
    · exact .of_forgotten rfl
  · exact aligned

theorem travel_atWanted (aligned : w.editor.AtWanted) (step : Editor → Option Editor)
    (count : Nat) : (w.travel step count).1.editor.AtWanted := by
  simp only [travel, inMode]
  split
  · split
    · exact aligned
    · exact .of_forgotten rfl
  · exact aligned

/-- Writing over one character leaves the cursor on it, and over more it takes the cursor out of
every column. -/
theorem overwrite_atWanted_iff {e : Editor} (normal : e.mode = .normal) (aligned : e.AtWanted)
    (inside : e.cursor + n ≤ e.text.lineEnd (e.text.lineOf e.cursor)) (some : 0 < n) {c : Char}
    (visible : c ≠ '\n') :
    let t' := (e.text.remove (Span.between e.cursor (e.cursor + n))).insertAt e.cursor
      (List.replicate n c)
    ({ e.pushCheckpoint.edit t' with cursor := e.cursor + n - 1 } : Editor).clampCursor.AtWanted ↔
      ¬(e.wanted?.isSome ∧ 1 < n) := by
  intro t'
  have within : e.cursor + n - 1 ≤ t'.length - 1 := by
    have stop := e.text.lineEnd_le_length (e.text.lineOf e.cursor)
    rw [Text.length_of_breaks (Text.breaks_overwrite inside visible)]
    omega
  rw [clampCursor_of_le (by simpa [maxCursor, edit, pushCheckpoint, normal] using within)]
  cases wanted : e.wanted? with
  | none => exact iff_of_true (.of_forgotten wanted) (by simp)
  | some w =>
    have there := aligned w wanted
    have column := Text.atColumn_overwrite inside some visible w (e.mode = .insert)
    simp only [AtWanted, edit, pushCheckpoint, wanted, Option.mem_some_iff, forall_eq',
      Option.isSome_some, true_and]
    rw [column, ← there]
    omega

theorem replaceChar_atWanted_iff (aligned : w.editor.AtWanted) (c : Char) (count : Nat) :
    (w.replaceChar c count).1.editor.AtWanted ↔ ¬w.editStrays count (.replace c) := by
  simp only [editStrays, replaceChar, inMode]
  split
  · exact iff_of_true aligned Bool.false_ne_true
  · rename_i room
    split
    · rename_i normal
      by_cases broken : c = '\n'
      · simp only [Outcome.edited, broken, if_true, Bool.true_and]
        refine Iff.trans (atWanted_iff_of_kept (e := w.editor) ?_ ?_) ?_
        · rfl
        · rfl
        · simp only [clampCursor, maxCursor, edit, pushCheckpoint, normal, reduceCtorEq, if_false]
      · have several : 1 < max count 1 ↔ 1 < count := by omega
        simp only [Outcome.edited, broken, if_false, Bool.true_and, Bool.and_eq_true,
          decide_eq_true_eq, ← several]
        exact overwrite_atWanted_iff normal aligned (Nat.le_of_not_lt room) (by omega) broken
    · exact iff_of_true aligned Bool.false_ne_true

/-- Only an edit that is complete at once can leave the column, and only where edits begin. -/
theorem of_editStrays {edit : Edit} (strays : w.editStrays count edit) :
    w.editor.mode = .normal ∧ edit.entersInsert = false := by
  cases edit with
  | replace c =>
    refine ⟨?_, rfl⟩
    by_contra other
    have nothing : w.replaceChar c count = w.skip := by
      simp only [replaceChar, inMode, other, if_false, ite_self]
    simp [editStrays, nothing, skip, Outcome.unchanged] at strays
  | _ => cases strays

/-- A selection covers something unless there is nothing at all. -/
theorem selection_start_of_removal_isEmpty (placed : w.editor.Placed)
    (visual : w.editor.mode.isVisual = true) (selected : w.editor.selection? = some s)
    (nothing : (Extent.removal w.editor.text ⟨s.span, s.kind = .lines⟩).isEmpty) :
    s.span.start = w.editor.cursor := by
  have cursor := placed.cursor_le (Mode.ne_insert_of_isVisual visual)
  have start := placed.selection_start_le selected
  have ordered := s.span.start_le_stop
  -- Lines take a break with them and characters the one under the cursor, if there are any.
  by_cases lines : s.kind = .lines
  · simp only [Extent.removal, lines, decide_true, if_true, Text.withBreak, Span.isEmpty] at nothing
    split at nothing <;> simp only [beq_iff_eq] at nothing <;> omega
  · obtain ⟨a, bound, kind, rfl⟩ := placed.selection selected
    cases kind with
    | lines => exact absurd rfl lines
    | chars =>
      obtain ⟨first, last⟩ := Selection.between_chars_ends w.editor.cursor
        (Nat.le_trans bound (Nat.sub_le _ _))
      simp only [Extent.removal, lines, decide_false, Bool.false_eq_true, if_false, Span.isEmpty,
        beq_iff_eq] at nothing
      omega

theorem operateSelection_atWanted_iff (placed : w.editor.Placed) (aligned : w.editor.AtWanted)
    (op : Operator) (register : Option RegisterName) :
    (w.operateSelection op register).1.editor.AtWanted ↔
      ¬w.strays (.operateSelection op register) := by
  cases selected : w.editor.selection? with
  | none =>
    have skipped : w.operateSelection op register = w.skip := by
      simp only [operateSelection, selected]
    rw [skipped]
    refine iff_of_true aligned ?_
    cases op <;> simp [strays, selected]
  | some s =>
    have visual : w.editor.mode.isVisual = true := by
      by_contra other
      have := (placed.plain (Bool.eq_false_iff.mpr other)).2.2
      rw [selected] at this
      cases this
    cases op with
    | yank =>
      have cursor := setMode_normal_cursor_le placed visual (placed.selection_start_le selected)
      have after : (w.operateSelection .yank register).1.editor =
          { w.editor.setMode .normal with cursor := s.span.start } := by
        simp only [operateSelection, selected, visual, if_true]
        exact yank_editor cursor _ _
      have mode := Mode.ne_insert_of_isVisual visual
      rw [after, atWanted_iff_of_kept (e := w.editor) (by simp) (by simp [mode])]
      simp [strays, selected]
    | delete =>
      refine iff_of_true ?_ Bool.false_ne_true
      simp only [operateSelection, selected, visual, if_true, operateOn, delete]
      split
      · rename_i nothing
        have start := selection_start_of_removal_isEmpty placed visual selected
          (by simpa using nothing)
        have kept := aligned.setMode (Mode.ne_insert_of_isVisual visual) (m := .normal) (by decide)
        simpa only [AtWanted, skip, start, setMode_cursor, ite_self] using kept
      · exact .of_forgotten rfl
    | change =>
      refine iff_of_true ?_ Bool.false_ne_true
      simp only [operateSelection, selected, visual, if_true, operateOn, change]
      split <;> exact .of_forgotten rfl

theorem doEdit_atWanted_iff (placed : w.editor.Placed) (aligned : w.editor.AtWanted)
    (count : Nat) (edit : Edit) :
    (w.doEdit count edit).1.editor.AtWanted ↔ ¬w.editStrays count edit := by
  cases edit with
  | operate op target register =>
    exact iff_of_true (operate_atWanted placed aligned op target count register) nofun
  | insert entry => exact iff_of_true (enterInsert_atWanted aligned entry count) nofun
  | replace c => exact replaceChar_atWanted_iff aligned c count
  | paste before register => exact iff_of_true (paste_atWanted aligned before count register) nofun
  | joinLines => exact iff_of_true (joinLines_atWanted aligned count) nofun

theorem repeatLast_atWanted_iff (placed : w.editor.Placed) (aligned : w.editor.AtWanted)
    (count? : Option Nat) :
    (w.repeatLast count?).1.editor.AtWanted ↔ ¬w.strays (.repeatLast count?) := by
  cases last : w.recorder.last? with
  | none =>
    simp only [repeatLast, inMode, last, strays]
    split <;> exact iff_of_true aligned Bool.false_ne_true
  | some c =>
    have done := doEdit_atWanted_iff placed aligned (count?.getD c.count) c.edit
    simp only [repeatLast, inMode, last, strays, Option.any_some]
    split
    · simp only [retype]
      split
      · rename_i enters
        have stays : ¬w.editStrays (count?.getD c.count) c.edit := by
          intro strays
          simp [(of_editStrays strays).2] at enters
        exact iff_of_true (leaveInsert_atWanted (insertText_atWanted (done.mpr stays) _)) stays
      · exact done
    · rename_i other
      exact iff_of_true aligned fun strays => other (of_editStrays strays).1

/-- After a command the cursor is in the remembered column again, if there still is one, unless the
command strays from it. -/
theorem perform_atWanted_iff (placed : w.editor.Placed) (aligned : w.editor.AtWanted)
    (c : Command) : (w.perform c).1.editor.AtWanted ↔ ¬w.strays c := by
  cases c with
  | move m count => exact iff_of_true (move_atWanted placed aligned m count) nofun
  | edit e count => exact doEdit_atWanted_iff placed aligned count e
  | operateSelection op register => exact operateSelection_atWanted_iff placed aligned op register
  | selectObject o count => exact iff_of_true (selectObject_atWanted aligned o count) nofun
  | swapAnchor => exact iff_of_true (swapAnchor_atWanted aligned) nofun
  | startVisual | startVisualLine => exact iff_of_true (startVisual_atWanted aligned nofun) nofun
  | leaveVisual => exact iff_of_true (leaveVisual_atWanted placed aligned) nofun
  | leaveInsert => exact iff_of_true (leaveInsert_atWanted aligned) nofun
  | insertText t => exact iff_of_true (insertText_atWanted aligned t) nofun
  | insertBreak => exact iff_of_true (insertText_atWanted aligned _) nofun
  | backspace => exact iff_of_true (backspace_atWanted aligned) nofun
  | undo count | redo count => exact iff_of_true (travel_atWanted aligned _ count) nofun
  | repeatLast count? => exact repeatLast_atWanted_iff placed aligned count?

end Workspace

/-! ### Sessions -/

namespace Session

/-- Does a step leave the cursor outside the remembered column? A text from outside comes with a
cursor of its own, which is cut to its range, and the column is not forgotten. -/
def strays (s : Session) (b : RegisterBank) : Input → Bool
  | .press k =>
    match (s.press b k).2 with
    | .performed c _ => (s.workspace b).strays c
    | _ => false
  | .sync t cursor =>
    s.editor.offWanted t (min cursor (if s.editor.mode = .insert then t.length else t.length - 1))

/-- No step of a run leaves the cursor outside the remembered column. -/
def Steady (s : Session) : List (RegisterBank × Input) → Bool
  | [] => true
  | (b, i) :: rest => !s.strays b i && (s.step b i).Steady rest

variable {s : Session}

theorem step_atWanted_iff (reached : s.Reachable) (aligned : s.editor.AtWanted)
    (b : RegisterBank) (i : Input) : (s.step b i).editor.AtWanted ↔ ¬s.strays b i := by
  cases i with
  | press k =>
    rcases s.press_cases b k with ⟨c, outcome, performed, after⟩ | ⟨waiting, p, after⟩
    · rw [step, after, strays, performed]
      exact Workspace.perform_atWanted_iff (w := s.workspace b) reached.placed aligned c
    · rw [step, after, strays]
      rcases waiting with more | nothing
      · rw [more]
        exact iff_of_true aligned Bool.false_ne_true
      · rw [nothing]
        exact iff_of_true aligned Bool.false_ne_true
  | sync t cursor => exact Editor.atWanted_iff_of_kept (e := s.editor) rfl Iff.rfl

theorem run_atWanted (reached : s.Reachable) (aligned : s.editor.AtWanted)
    (inputs : List (RegisterBank × Input)) (steady : s.Steady inputs) :
    (s.run inputs).editor.AtWanted := by
  induction inputs generalizing s with
  | nil => exact aligned
  | cons input rest ih =>
    obtain ⟨first, later⟩ : s.strays input.1 input.2 = false ∧ (s.step input.1 input.2).Steady rest := by
      simpa [Steady] using steady
    have next := (step_atWanted_iff reached aligned input.1 input.2).mpr (by simp [first])
    exact ih (reached.next input.1 input.2) next later

/-- Along a run in which no step strays, whenever a column is remembered the cursor is in it; and
the next step takes the cursor out of it exactly if it is one of those that stray. -/
theorem wanted_column_follows_cursor (reached : s.Reachable) (aligned : s.editor.AtWanted)
    (inputs : List (RegisterBank × Input)) (steady : s.Steady inputs) :
    (s.run inputs).editor.AtWanted ∧
      ∀ b i, ((s.run inputs).step b i).editor.AtWanted ↔ ¬(s.run inputs).strays b i := by
  have along := run_atWanted reached aligned inputs steady
  exact ⟨along, step_atWanted_iff (reached.run inputs) along⟩

/-- Down from the end of a long line over a short one, with a character written over on the way. -/
theorem wanted_column_follows_over_short_line :
    let s := ofText ['a', 'b', '\n', 'c', '\n', 'd', 'e'] .normal 0 100
    let inputs : List (RegisterBank × Input) :=
      [({}, .press (.char '$')), ({}, .press (.char 'j')), ({}, .press (.char 'r')),
        ({}, .press (.char 'x')), ({}, .press (.char 'j'))]
    s.Reachable ∧ s.editor.AtWanted ∧ s.Steady inputs ∧
      (s.run inputs).editor.text = ['a', 'b', '\n', 'x', '\n', 'd', 'e'] ∧
      (s.run inputs).editor.wanted? = some .lineEnd ∧
      (s.run inputs).editor.cursor = (s.run inputs).editor.text.atColumn 2 .lineEnd false := by
  intro s inputs
  have reached : s.Reachable := .opened _ _ _ _
  have aligned : s.editor.AtWanted := .of_forgotten rfl
  have steady : s.Steady inputs := by decide
  have wanted : (s.run inputs).editor.wanted? = some .lineEnd := by decide
  have there := (wanted_column_follows_cursor reached aligned inputs steady).1 .lineEnd wanted
  refine ⟨reached, aligned, steady, by decide, wanted, there.trans ?_⟩
  decide

/-- From the first column of the second line, where that column is remembered, three characters are
written over, and the next motion goes back to the first column. Yanking a selection of lines and
taking over a text from outside take the cursor out of the remembered column as well. -/
theorem wanted_column_left_behind :
    let replaced := (ofText ['a', 'b', 'c', '\n', 'a', 'b', 'c'] .normal 0 100).run
      [({}, .press (.char 'j')), ({}, .press (.char '3')), ({}, .press (.char 'r')),
        ({}, .press (.char 'x'))]
    let yanked := (ofText ['a', 'b', '\n', 'a', 'b'] .normal 4 100).run
      [({}, .press (.char 'V')), ({}, .press (.char 'k')), ({}, .press (.char 'y'))]
    let synced := (ofText ['a', '\n', 'b'] .normal 0 100).run
      [({}, .press (.char 'j')), ({}, .sync ['a', '\n', 'b', 'c'] 3)]
    replaced.Reachable ∧ ¬replaced.editor.AtWanted ∧
      replaced.editor.text.column replaced.editor.cursor = 2 ∧
      (replaced.step {} (.press (.char 'k'))).editor.cursor = 0 ∧
    yanked.Reachable ∧ ¬yanked.editor.AtWanted ∧
    synced.Reachable ∧ ¬synced.editor.AtWanted := by
  intro replaced yanked synced
  refine ⟨(Reachable.opened _ _ _ _).run _, by decide, by decide, by decide,
    (Reachable.opened _ _ _ _).run _, by decide, (Reachable.opened _ _ _ _).run _, by decide⟩

end Session

end ModalEdit
