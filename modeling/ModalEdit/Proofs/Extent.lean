import ModalEdit.Proofs.Operating
import ModalEdit.Proofs.Text.Removal

/-! What the operator of a command acts on, and what becomes of it. The range may come from a target
or from the selection; the operator does the same with it in either case, in the normal mode and on
the text that is there. -/
namespace ModalEdit

theorem Extent.removal_isEmpty {t : Text} {x : Extent} (nothing : (x.removal t).isEmpty = true) :
    x.span.isEmpty = true := by
  have ordered := x.span.start_le_stop
  simp only [removal, Text.withBreak, Span.isEmpty] at nothing ⊢
  split at nothing
  · split at nothing <;> simp only [beq_iff_eq] at nothing ⊢ <;> omega
  · exact nothing

/-- The operator that a command applies, with the register that it names. -/
def Command.operation? : Command → Option (Operator × Option RegisterName)
  | .edit (.operate op _ register) _ | .operateSelection op register => some (op, register)
  | _ => none

/-- What an operator leaves of a text. -/
def Operator.leaves (op : Operator) (t : Text) (x : Extent) : Text :=
  match op with
  | .yank => t
  | .delete => t.remove (x.removal t)
  | .change => t.remove x.span

/-- What the operator of a command acts on, in a mode that the command is meant for. -/
def Editor.extent? (e : Editor) : Command → Option Extent
  | .edit (.operate _ target _) count =>
    if e.mode = .normal then Workspace.targetExtent? e target count else none
  | .operateSelection _ _ =>
    if e.mode.isVisual then e.selection?.map fun s => ⟨s.span, s.kind = .lines⟩ else none
  | _ => none

namespace Workspace

variable {w : Workspace} {c : Command}

/-- An operator with its target acts on the extent. -/
theorem operate_of_found (normal : w.editor.mode = .normal) (op : Operator)
    (register : Option RegisterName) (found : targetExtent? w.editor target count = some x) :
    (w.operate op target count register).1.editor =
        ((w.aim target).operateOn op x register).1.editor ∧
      (w.operate op target count register).1.registers =
        ((w.aim target).operateOn op x register).1.registers := by
  rw [← targetExtent?_aim] at found
  rw [operate, inMode, if_pos normal]
  simp only [found]
  cases op with
  | yank | change => exact ⟨rfl, rfl⟩
  | delete =>
    dsimp only
    split <;> exact ⟨rfl, rfl⟩

theorem perform_of_extent (applied : c.operation? = some (op, register))
    (found : w.editor.extent? c = some x) :
    ∃ w' : Workspace, w'.editor.text = w.editor.text ∧ w'.editor.mode = .normal ∧
      w'.registers = w.registers ∧
      (w.perform c).1.editor = (w'.operateOn op x register).1.editor ∧
      (w.perform c).1.registers = (w'.operateOn op x register).1.registers := by
  unfold Command.operation? at applied
  split at applied
  · rename_i op target register count
    cases applied
    simp only [Editor.extent?] at found
    split at found
    · rename_i normal
      obtain ⟨f?, aimed⟩ := w.aim_eq target
      obtain ⟨editor, registers⟩ := operate_of_found normal op register found
      rw [aimed] at editor registers
      exact ⟨w.withFind f?, rfl, normal, rfl, editor, registers⟩
    · cases found
  · rename_i op register
    cases applied
    simp only [Editor.extent?] at found
    split at found
    · rename_i visual
      obtain ⟨s, selected, rfl⟩ := Option.map_eq_some_iff.mp found
      rw [perform, operateSelection, selected]
      simp only [visual, if_true]
      exact ⟨{ w with editor := { w.editor.setMode .normal with cursor := _ } },
        rfl, rfl, rfl, rfl, rfl⟩
    · cases found
  · cases applied

/-! ### What an operator does -/

theorem operateOn_text (w : Workspace) (op : Operator) (x : Extent)
    (register : Option RegisterName) :
    (w.operateOn op x register).1.editor.text = op.leaves w.editor.text x := by
  cases op with
  | yank =>
    simp only [operateOn, yank]
    split <;> rfl
  | delete =>
    simp only [operateOn, delete]
    split
    · rename_i nothing
      exact (Text.remove_of_isEmpty nothing).symm
    · rw [Editor.settle_text]
      rfl
  | change =>
    simp only [operateOn, change]
    split
    · rename_i nothing
      exact (Editor.setMode_text _ _).trans (Text.remove_of_isEmpty nothing).symm
    · exact Editor.setMode_text _ _

theorem perform_text (applied : c.operation? = some (op, register))
    (found : w.editor.extent? c = some x) :
    (w.perform c).1.editor.text = op.leaves w.editor.text x := by
  obtain ⟨w', text, _, _, editor, _⟩ := perform_of_extent applied found
  rw [editor, operateOn_text, text]

/-- A change goes on at the start of what it has removed. -/
theorem change_cursor {x : Extent} (inside : x.span.start ≤ w.editor.text.length)
    (register : Option RegisterName) :
    (w.change x register).1.editor.mode = .insert ∧
      (w.change x register).1.editor.cursor = x.span.start := by
  have mode : (w.change x register).1.editor.mode = .insert := w.operateOn_change_mode x register
  refine ⟨mode, ?_⟩
  have within : x.span.start ≤ (w.change x register).1.editor.text.length := by
    have text : (w.change x register).1.editor.text = _ := w.operateOn_text .change x register
    rw [text]
    exact Text.le_length_remove inside
  have clamped : (w.change x register).1.editor.cursor =
      min x.span.start (w.change x register).1.editor.maxCursor := by
    simp only [change]
    split <;> rfl
  rw [clamped, Editor.maxCursor, if_pos mode, Nat.min_eq_left within]

/-- There is something in a range: then it goes to the register, whatever the operator is. -/
theorem operateOn_writes {x : Extent} (some : x.span.isEmpty = false) (op : Operator)
    (register : Option RegisterName) :
    (w.operateOn op x register).1.registers =
      w.registers.write (w.editor.text.slice x.span) x.linewise register := by
  cases op with
  | yank =>
    simp [operateOn, yank, some]
  | delete =>
    have removes : (x.removal w.editor.text).isEmpty = false := by
      refine Bool.eq_false_iff.mpr fun nothing => ?_
      cases some.symm.trans (Extent.removal_isEmpty nothing)
    simp [operateOn, delete, removes]
  | change =>
    simp [operateOn, change, some]

end Workspace

end ModalEdit
