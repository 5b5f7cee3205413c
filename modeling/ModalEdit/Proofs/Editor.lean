import ModalEdit.Editor

/-! What the operations on one text leave as it is. -/
namespace ModalEdit

theorem Mode.selects?_eq_none_iff {m : Mode} : m.selects? = none ↔ m.isVisual = false := by
  cases m <;> simp [selects?, isVisual]

theorem Mode.ne_insert_of_isVisual {m : Mode} (visual : m.isVisual = true) : m ≠ .insert := by
  rintro rfl
  cases visual

namespace Editor

variable (e : Editor) (m : Mode)

@[simp] theorem setMode_text : (e.setMode m).text = e.text := by
  simp only [setMode]
  split <;> rfl

@[simp] theorem setMode_mode : (e.setMode m).mode = m := by
  simp only [setMode]
  split <;> rfl

@[simp] theorem setMode_history : (e.setMode m).history = e.history := by
  simp only [setMode]
  split <;> rfl

@[simp] theorem setMode_cursor : (e.setMode m).cursor = e.cursor := by
  simp only [setMode]
  split <;> rfl

@[simp] theorem setMode_wanted? : (e.setMode m).wanted? = e.wanted? := by
  simp only [setMode]
  split <;> rfl

theorem ofText_text (t : Text) (cursor undoLevels : Nat) :
    (ofText t m cursor undoLevels).text = t := by
  simp [ofText, clampCursor]

theorem ofText_history (t : Text) (cursor undoLevels : Nat) :
    (ofText t m cursor undoLevels).history = .empty undoLevels := by
  simp [ofText, clampCursor]

/-- Settling moves the cursor and nothing else. -/
theorem settle_eq : ∃ i ≤ e.maxCursor, e.settle = { e with cursor := i } := by
  simp only [settle]
  split
  · exact ⟨_, Nat.le_trans (Nat.sub_le _ _) (Nat.min_le_right _ _), rfl⟩
  · exact ⟨_, Nat.min_le_right _ _, rfl⟩

@[simp] theorem settle_text : e.settle.text = e.text := by
  obtain ⟨i, _, same⟩ := e.settle_eq
  rw [same]

@[simp] theorem settle_mode : e.settle.mode = e.mode := by
  obtain ⟨i, _, same⟩ := e.settle_eq
  rw [same]

@[simp] theorem settle_revision : e.settle.revision = e.revision := by
  obtain ⟨i, _, same⟩ := e.settle_eq
  rw [same]

@[simp] theorem settle_history : e.settle.history = e.history := by
  obtain ⟨i, _, same⟩ := e.settle_eq
  rw [same]

theorem settle_cursor :
    e.settle.cursor =
      let i := min e.cursor e.maxCursor
      if 0 < i ∧ e.text[i]? = some '\n' ∧ e.text[i - 1]? ≠ some '\n' then i - 1 else i := by
  simp only [settle]
  split
  · rename_i behind
    exact (if_pos behind).symm
  · rename_i other
    exact (if_neg other).symm

end Editor

end ModalEdit
