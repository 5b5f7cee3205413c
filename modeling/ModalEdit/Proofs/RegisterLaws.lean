import ModalEdit.Proofs.LinewiseRegister
import ModalEdit.Proofs.StoredRegisters

/-! What holds of the registers through all writes and refreshes. Lines stay whole: a register of
lines ends in a break, so what is added to it begins a line, and lines that are added to characters
have a break put in ahead of them. -/
namespace ModalEdit

namespace Text

/-- The lines of a text, without the empty one behind a last break. An empty text has none. -/
def rows (t : Text) : List Text :=
  if t.isEmpty || t.endsInBreak then t.lines.dropLast else t.lines

theorem rows_append_break (u : Text) : rows (u ++ ['\n']) = u.lines := by
  simp [rows, endsInBreak, lines_append_break_nil]

/-- A text that ends in a break is its lines, each of them with a break. -/
theorem flatMap_rows {t : Text} (ended : t.endsInBreak = true) :
    t.rows.flatMap (· ++ ['\n']) = t := by
  obtain ⟨u, rfl⟩ := eq_append_break ended
  rw [rows_append_break, flatMap_lines]

end Text

namespace Register

variable {old new : Register}

end Register

namespace RegisterBank

variable {b : RegisterBank}

end RegisterBank

end ModalEdit
