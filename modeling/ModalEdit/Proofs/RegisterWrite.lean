import ModalEdit.Register.Bank

/-! What a write leaves in the registers. The register that is named takes the value, or has it
added; the one without a name then shows the same. -/
namespace ModalEdit

/-- What a refresh makes of a text: lines if it ends in a break, and else characters. -/
theorem Register.of_endsInBreak (t : Text) : of t t.endsInBreak = ⟨t, t.endsInBreak⟩ := by
  simp only [of, Text.ended]
  split <;> rfl

namespace Registers

variable (rs : Registers) (name : RegisterName) (r : Register)

/-- What the register of a name holds after a value has been stored under the name. -/
def stored : Register :=
  match name.appends, rs.get name.slot with
  | true, some old => old.append r
  | _, _ => r

theorem stored_of_plain (plain : name.appends = false) : rs.stored name r = r := by
  simp [stored, plain]

theorem set_eq : rs.set name r = rs.put name.slot (rs.stored name r) := by
  unfold set stored
  cases name.appends with
  | false => rfl
  | true => cases rs.get name.slot <;> rfl

theorem record_eq (target : Option RegisterName) :
    (rs.record target r).1 =
      (rs.put (target.getD .unnamed).slot (rs.stored (target.getD .unnamed) r)).put .unnamed
        (rs.stored (target.getD .unnamed) r) := by
  simp [record, set_eq]

end Registers

namespace RegisterBank

variable (b : RegisterBank) (t : Text) (linewise : Bool) (target : Option RegisterName)

theorem set_store (name : RegisterName) (r : Register) :
    (b.set name r).store = b.store.set name r := by
  unfold RegisterBank.set
  split <;> rfl

theorem write_store :
    (b.write t linewise target).store =
      if target = none ∧ b.clipboardByDefault = true then
        (b.store.record target (.of t linewise)).1.put .clipboard (.of t linewise)
      else (b.store.record target (.of t linewise)).1 := by
  have mirrored : (target.isNone && b.clipboardByDefault) = true ↔
      target = none ∧ b.clipboardByDefault = true := by
    simp
  simp only [write, mirrored]
  split
  · rw [set_store]
    rfl
  · split <;> rfl

theorem get_write_name :
    (b.write t linewise target).get (target.getD .unnamed) =
      some (b.store.stored (target.getD .unnamed) (.of t linewise)) := by
  have recorded : (b.store.record target (.of t linewise)).1.get (target.getD .unnamed).slot =
      some (b.store.stored (target.getD .unnamed) (.of t linewise)) := by
    rw [Registers.record_eq]
    by_cases same : (target.getD .unnamed).slot = .unnamed
    · rw [same, Registers.get_put_self]
    · rw [Registers.get_put_of_ne _ _ (Ne.symm same), Registers.get_put_self]
  rw [get, write_store]
  split
  · rename_i mirrored
    obtain ⟨rfl, _⟩ := mirrored
    have apart : Slot.clipboard ≠ .unnamed := nofun
    exact (Registers.get_put_of_ne _ _ apart).trans recorded
  · exact recorded

theorem get_write_unnamed :
    (b.write t linewise target).get .unnamed =
      some (b.store.stored (target.getD .unnamed) (.of t linewise)) := by
  have recorded : (b.store.record target (.of t linewise)).1.get .unnamed =
      some (b.store.stored (target.getD .unnamed) (.of t linewise)) := by
    rw [Registers.record_eq, Registers.get_put_self]
  rw [get, write_store]
  split
  · have apart : Slot.clipboard ≠ .unnamed := nofun
    exact (Registers.get_put_of_ne _ _ apart).trans recorded
  · exact recorded

theorem write_clipboardByDefault :
    (b.write t linewise target).clipboardByDefault = b.clipboardByDefault := by
  simp only [write, set]
  split
  · rfl
  · split <;> rfl

/-- A write without a name can be read without one. -/
theorem get_write_default :
    (b.write t linewise none).get (b.write t linewise none).defaultName =
      some (.of t linewise) := by
  have unnamed := b.get_write_unnamed t linewise none
  rw [Option.getD_none, Registers.stored_of_plain _ .unnamed _ rfl] at unnamed
  unfold defaultName
  split
  · rename_i mirrored
    have byDefault := (Bool.and_eq_true_iff.mp mirrored).1
    rw [write_clipboardByDefault] at byDefault
    rw [get, write_store, if_pos ⟨rfl, byDefault⟩]
    exact Registers.get_put_self _ .clipboard _
  · exact unnamed

end RegisterBank

end ModalEdit
