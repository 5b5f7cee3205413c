import ModalEdit.Proofs.Editor
import ModalEdit.Workspace.Perform

/-! What a command can come to: the cases that its checks leave, each with the state that follows.
Facts about commands are derived from these and do not open the commands again. -/
namespace ModalEdit

/-- Can the command write to the registers or read from them? -/
def Command.usesRegisters : Command → Bool
  | edit _ _ | operateSelection _ _ | repeatLast _ => true
  | _ => false

def Edit.isOperator : Edit → Bool
  | operate _ _ _ => true
  | _ => false

namespace Workspace

/-- A workspace with another search to repeat. -/
def withFind (w : Workspace) (f? : Option Find) : Workspace :=
  { w with editor := { w.editor with lastFind? := f? } }

theorem rememberFind_eq (e : Editor) (m : Motion) :
    ∃ f?, rememberFind e m = { e with lastFind? := f? } := by
  cases m with
  | find f => exact ⟨some f, rfl⟩
  | _ => exact ⟨e.lastFind?, rfl⟩

theorem aim_eq (w : Workspace) (target : Target) : ∃ f?, w.aim target = w.withFind f? := by
  cases target with
  | motion m =>
    obtain ⟨f?, same⟩ := rememberFind_eq w.editor m
    exact ⟨f?, by rw [aim, same, withFind]⟩
  | lines | object => exact ⟨w.editor.lastFind?, rfl⟩

/-- The range of an operator does not depend on the search that the operator replaces. -/
theorem targetExtent?_aim (w : Workspace) (target : Target) (count : Nat) :
    targetExtent? (w.aim target).editor target count = targetExtent? w.editor target count := by
  cases target with
  | motion m => cases m <;> rfl
  | lines | object => rfl

/-- Without its target an operator does nothing but remember the search that it was given. -/
theorem operate_of_miss {w : Workspace} (op : Operator) (register : Option RegisterName)
    (miss : targetExtent? w.editor target count = none) :
    ∃ f?, w.operate op target count register = (w.withFind f?).skip := by
  obtain ⟨f?, aimed⟩ := aim_eq w target
  rw [← targetExtent?_aim] at miss
  simp only [operate, inMode, miss]
  split
  · exact ⟨f?, by rw [aimed]⟩
  · exact ⟨w.editor.lastFind?, rfl⟩

theorem operateOn_recorder (w : Workspace) (op : Operator) (x : Extent)
    (register : Option RegisterName) : (w.operateOn op x register).1.recorder = w.recorder := by
  cases op with
  | yank =>
    simp only [operateOn, yank]
    split <;> rfl
  | delete =>
    simp only [operateOn, delete]
    split <;> rfl
  | change =>
    simp only [operateOn, change]
    split <;> rfl

theorem operateOn_change_mode (w : Workspace) (x : Extent) (register : Option RegisterName) :
    (w.operateOn .change x register).1.editor.mode = .insert := by
  simp only [operateOn, change]
  split <;> simp [Editor.adoptRun, Editor.clampCursor]

/-- An operator without its target does nothing, and one with it acts on the extent; a change
begins to be recorded, a deletion is recorded if there was something to delete. -/
theorem operate_cases (w : Workspace) (op : Operator) (target : Target) (count : Nat)
    (register : Option RegisterName) :
    ∃ f?, w.operate op target count register = (w.withFind f?).skip ∨
      w.editor.mode = .normal ∧ ∃ x r,
        targetExtent? (w.withFind f?).editor target count = some x ∧
        w.operate op target count register =
          ({ ((w.withFind f?).operateOn op x register).1 with recorder := r },
            ((w.withFind f?).operateOn op x register).2) ∧
        (op = .change ∧ r = w.recorder.start (.operate op target register) count ∨
          op ≠ .change ∧
            (r = w.recorder ∨ r = w.recorder.record (.operate op target register) count)) := by
  obtain ⟨f?, aimed⟩ := aim_eq w target
  simp only [operate, inMode]
  split
  · rename_i normal
    simp only [aimed]
    refine ⟨f?, ?_⟩
    cases found : targetExtent? (w.withFind f?).editor target count with
    | none => exact .inl rfl
    | some x =>
      refine .inr ⟨normal, x, ?_⟩
      have kept := operateOn_recorder (w.withFind f?) op x register
      cases op with
      | delete =>
        dsimp only
        split
        · exact ⟨_, rfl, rfl, .inr ⟨nofun, .inr (by rw [kept]; rfl)⟩⟩
        · exact ⟨_, rfl, rfl, .inr ⟨nofun, .inl kept⟩⟩
      | yank => exact ⟨_, rfl, rfl, .inr ⟨nofun, .inl kept⟩⟩
      | change => exact ⟨_, rfl, rfl, .inl ⟨rfl, by rw [kept]; rfl⟩⟩
  · exact ⟨w.editor.lastFind?, .inl rfl⟩

/-- An operator on a selection acts on its span, from a cursor that is at the start of the span or
where it was. -/
theorem operateSelection_cases (w : Workspace) (op : Operator) (register : Option RegisterName) :
    w.operateSelection op register = w.skip ∨
      w.editor.mode.isVisual = true ∧ ∃ s i,
        w.editor.selection? = some s ∧ (i = s.span.start ∨ i = w.editor.cursor) ∧
        w.operateSelection op register =
          (({ w with editor := { w.editor.setMode .normal with cursor := i } } : Workspace).operateOn
            op ⟨s.span, s.kind = .lines⟩ register).map id (·.merge .moved) := by
  simp only [operateSelection]
  split
  · exact .inl rfl
  · rename_i s selected
    split
    · rename_i visual
      refine .inr ⟨visual, s, _, selected, ?_, rfl⟩
      split
      · exact .inl rfl
      · exact .inr rfl
    · exact .inl rfl

/-- A command that only moves, selects, types or walks through the history leaves the registers as
they are, and does not forget the change that can be repeated. -/
theorem perform_bystander (w : Workspace) {c : Command} (bystander : c.usesRegisters = false) :
    (w.perform c).1.registers = w.registers ∧
      (w.recorder.last?.isSome → (w.perform c).1.recorder.last?.isSome) := by
  cases c with
  | edit | operateSelection | repeatLast => cases bystander
  | move m count =>
    simp only [perform, move]
    split
    · exact ⟨rfl, id⟩
    · dsimp only
      split <;> exact ⟨rfl, id⟩
  | selectObject o count =>
    simp only [perform, selectObject]
    split
    · split <;> exact ⟨rfl, id⟩
    · exact ⟨rfl, id⟩
  | swapAnchor =>
    simp only [perform, swapAnchor]
    split <;> exact ⟨rfl, id⟩
  | startVisual | startVisualLine =>
    simp only [perform, startVisual]
    split <;> exact ⟨rfl, id⟩
  | leaveVisual =>
    simp only [perform, leaveVisual]
    split <;> exact ⟨rfl, id⟩
  | leaveInsert =>
    simp only [perform, leaveInsert, inMode]
    split
    · exact ⟨rfl, fun some => by simp [Recorder.finish, some]⟩
    · exact ⟨rfl, id⟩
  | insertText | insertBreak =>
    simp only [perform, insertText, inMode]
    split
    · exact ⟨rfl, id⟩
    · split <;> exact ⟨rfl, id⟩
  | backspace =>
    simp only [perform, backspace, inMode]
    split
    · exact ⟨rfl, id⟩
    · split <;> exact ⟨rfl, id⟩
  | undo | redo =>
    simp only [perform, travel, inMode]
    split
    · split <;> exact ⟨rfl, id⟩
    · exact ⟨rfl, id⟩

/-- An edit that applies no operator writes to no register. A paste reads from them. -/
theorem doEdit_registers_cases (w : Workspace) (count : Nat) {edit : Edit}
    (other : edit.isOperator = false) :
    (w.doEdit count edit).1.registers = w.registers ∨
      ∃ name?, (w.doEdit count edit).1.registers = (w.registers.read name?).1 := by
  cases edit with
  | operate => cases other
  | insert entry =>
    simp only [doEdit, enterInsert, inMode]
    split <;> exact .inl rfl
  | replace c =>
    simp only [doEdit, replaceChar, inMode]
    split
    · exact .inl rfl
    · split <;> exact .inl rfl
  | paste before name? =>
    rw [doEdit]
    unfold paste inMode
    split
    · dsimp only
      split <;> exact .inr ⟨name?, rfl⟩
    · exact .inl rfl
  | joinLines =>
    simp only [doEdit, joinLines, inMode]
    split
    · exact .inl rfl
    · split <;> exact .inl rfl

/-- What an edit leaves to be repeated: nothing new, itself, or itself as soon as the insertion that
it begins is over. -/
theorem doEdit_recorder_cases (w : Workspace) (count : Nat) (edit : Edit) :
    (w.doEdit count edit).1.recorder = w.recorder ∨
      (∃ n, (w.doEdit count edit).1.recorder = w.recorder.record edit n) ∨
      (w.doEdit count edit).1.editor.mode = .insert ∧
        (w.doEdit count edit).1.recorder = w.recorder.start edit count := by
  cases edit with
  | operate op target register =>
    obtain ⟨f?, same | ⟨_, x, r, _, same, recorder⟩⟩ := w.operate_cases op target count register
    · rw [doEdit, same]
      exact .inl rfl
    · rw [doEdit, same]
      rcases recorder with ⟨rfl, rfl⟩ | ⟨_, rfl | rfl⟩
      · exact .inr (.inr ⟨operateOn_change_mode _ x register, rfl⟩)
      · exact .inl rfl
      · exact .inr (.inl ⟨count, rfl⟩)
  | insert entry =>
    simp only [doEdit, enterInsert, inMode]
    split
    · exact .inr (.inr ⟨Editor.setMode_mode _ _, rfl⟩)
    · exact .inl rfl
  | replace c =>
    simp only [doEdit, replaceChar, inMode]
    split
    · exact .inl rfl
    · split
      · exact .inr (.inl ⟨_, rfl⟩)
      · exact .inl rfl
  | paste before name? =>
    simp only [doEdit, paste, inMode]
    split
    · split
      · exact .inl rfl
      · exact .inr (.inl ⟨_, rfl⟩)
    · exact .inl rfl
  | joinLines =>
    simp only [doEdit, joinLines, inMode]
    split
    · exact .inl rfl
    · split
      · exact .inr (.inl ⟨_, rfl⟩)
      · exact .inl rfl

theorem retype_fst (done : Workspace × Outcome) (c : Change) :
    (retype done c).1 = if c.edit.entersInsert ∧ done.1.editor.mode = .insert then
      (done.1.insertText (c.typed?.getD [])).1.leaveInsert.1 else done.1 := by
  simp only [retype, Bool.and_eq_true, decide_eq_true_eq]
  split <;> rfl

/-- Typing again what was typed in an insertion is the doing of bystanders. -/
theorem retype_bystander (done : Workspace × Outcome) (c : Change) :
    (retype done c).1.registers = done.1.registers ∧
      (done.1.recorder.last?.isSome → (retype done c).1.recorder.last?.isSome) := by
  rw [retype_fst]
  split
  · obtain ⟨typed, kept⟩ := done.1.perform_bystander (c := .insertText (c.typed?.getD [])) rfl
    obtain ⟨left, still⟩ :=
      (done.1.insertText (c.typed?.getD [])).1.perform_bystander (c := .leaveInsert) rfl
    exact ⟨left.trans typed, fun some => still (kept some)⟩
  · exact ⟨rfl, id⟩

end Workspace

end ModalEdit
