import ModalEdit.Proofs.BrokenClipboard
import ModalEdit.Proofs.RegisterWrite
import ModalEdit.Proofs.Text.Copies

/-! What the registers hold. They are filled by yanks and deletions, by the host, and with what the
clipboard holds; whatever the way, a register of whole lines ends in a break. -/
namespace ModalEdit

namespace Register

/-- Whole lines, each of them with a break, if the register is one of lines. -/
def Ended (r : Register) : Prop := r.linewise = true → r.content.endsInBreak = true

/-- The lines of a register of whole lines. -/
def rows (r : Register) : List Text := r.content.lines.dropLast

theorem of_ended (t : Text) (linewise : Bool) : (of t linewise).Ended := by
  intro lines
  obtain rfl : linewise = true := lines
  simp only [of, Text.ended, if_true]
  split
  · assumption
  · simp [Text.endsInBreak]

theorem append_ended (r other : Register) : (r.append other).Ended := of_ended _ _

theorem rows_of_append_break {r : Register} {u : Text} (same : r.content = u ++ ['\n']) :
    r.rows = u.lines := by
  rw [rows, same, Text.lines_append_break_nil, List.dropLast_concat]

/-- The content is the lines, each of them with a break. -/
theorem Ended.flatMap_rows {r : Register} (ended : r.Ended) (lines : r.linewise = true) :
    r.rows.flatMap (· ++ ['\n']) = r.content := by
  obtain ⟨u, same⟩ := Text.eq_append_break (ended lines)
  rw [rows_of_append_break same, same, Text.flatMap_lines]

theorem break_not_mem_rows (r : Register) : ∀ row ∈ r.rows, '\n' ∉ row :=
  fun row member => Text.break_not_mem_lines row (List.dropLast_subset _ member)

end Register

namespace Registers

/-- All registers of whole lines end in a break. -/
def Ended (rs : Registers) : Prop := ∀ slot r, rs.get slot = some r → r.Ended

variable {rs : Registers} {r : Register}

theorem empty_ended : empty.Ended := by
  intro slot r found
  cases slot <;> simp [empty, get] at found

theorem Ended.put (all : rs.Ended) (slot : Slot) (new : r.Ended) : (rs.put slot r).Ended := by
  intro slot' r' found
  by_cases same : slot = slot'
  · rw [same, get_put_self] at found
    exact Option.some.inj found ▸ new
  · rw [get_put_of_ne rs r same] at found
    exact all slot' r' found

theorem Ended.set (all : rs.Ended) (name : RegisterName) (new : r.Ended) :
    (rs.set name r).Ended := by
  unfold Registers.set
  split
  · exact all.put _ (Register.append_ended _ _)
  · exact all.put _ new

theorem Ended.record (all : rs.Ended) (target : Option RegisterName) (new : r.Ended) :
    (rs.record target r).1.Ended := by
  have stored := all.set (target.getD .unnamed) new
  refine stored.put .unnamed ?_
  cases found : (rs.set (target.getD .unnamed) r).get (target.getD .unnamed).slot with
  | none => exact new
  | some whole => exact stored _ _ found

end Registers

namespace RegisterBank

/-- What the registers can be: they begin empty, and are written to by yanks and deletions, filled
by the host, read by pastes, and refreshed from the clipboard. -/
inductive Reachable : RegisterBank → Prop where
  | fresh (bridge? : Option Clipboard.Bridge) (clipboardByDefault : Bool) :
      Reachable { bridge?, clipboardByDefault }
  | write (t : Text) (linewise : Bool) (target : Option RegisterName) :
      Reachable b → Reachable (b.write t linewise target)
  | set (name : RegisterName) (t : Text) (linewise : Bool) :
      Reachable b → Reachable (b.set name (.of t linewise))
  | read (target : Option RegisterName) : Reachable b → Reachable (b.read target).1
  | work (c : Clipboard) : Reachable b → Reachable (b.work c).1

variable {b : RegisterBank}

theorem write_ended (all : b.store.Ended) (t : Text) (linewise : Bool)
    (target : Option RegisterName) : (b.write t linewise target).store.Ended := by
  have new := Register.of_ended t linewise
  rw [write_store]
  split
  · exact (all.record target new).put .clipboard new
  · exact all.record target new

theorem read_store (b : RegisterBank) (target : Option RegisterName) :
    (b.read target).1.store = b.store := by
  unfold RegisterBank.read
  dsimp only
  split <;> rfl

theorem work_ended (all : b.store.Ended) (c : Clipboard) : (b.work c).1.store.Ended := by
  unfold RegisterBank.work
  split
  · split
    · rename_i r _ _ _
      cases r with
      | store t =>
        simp only [Clipboard.handle]
        split <;> exact all
      | refresh =>
        simp only [Clipboard.handle]
        split
        · exact all
        · exact all.put .clipboard (Register.of_ended _ _)
    · exact all
  · exact all

/-- Whatever way the registers were filled, those of whole lines end in a break. -/
theorem Reachable.ended (reached : b.Reachable) : b.store.Ended := by
  induction reached with
  | fresh => exact Registers.empty_ended
  | write t linewise target _ ih => exact write_ended ih t linewise target
  | @set b name t linewise _ ih =>
    rw [set_store]
    exact ih.set name (Register.of_ended t linewise)
  | @read b target _ ih =>
    rw [read_store]
    exact ih
  | work c _ ih => exact work_ended ih c

/-- What a paste finds is in one of the registers. -/
theorem exists_of_read (found : (b.read target).2 = some r) :
    ∃ slot, b.store.get slot = some r := by
  unfold RegisterBank.read at found
  dsimp only at found
  split at found
  · rcases Option.or_eq_some_iff.mp found with held | ⟨_, fallback⟩
    · exact ⟨.clipboard, held⟩
    · split at fallback
      · exact ⟨.unnamed, fallback⟩
      · cases fallback
  · exact ⟨_, found⟩

theorem Reachable.read_ended (reached : b.Reachable) (found : (b.read target).2 = some r) :
    r.Ended := by
  obtain ⟨slot, stored⟩ := exists_of_read found
  exact reached.ended slot r stored

theorem Reachable.handled (reached : b.Reachable) (handled : Handled b b') : b'.Reachable := by
  cases handled with
  | kept => exact reached
  | written t linewise target => exact reached.write t linewise target
  | fetched target => exact reached.read target

end RegisterBank

namespace Engine

variable {e : Engine}

theorem call_registers_reachable (reached : e.registers.Reachable) (c : Call) :
    (e.call c).1.registers.Reachable := by
  cases c with
  | openSession | closeSession | register => exact reached
  | press id k => exact reached.handled (e.press_handled id k)
  | syncText id t cursor =>
    simp only [call, syncText]
    split <;> exact reached
  | setRegister name t linewise =>
    simp only [call, setRegister]
    split
    · exact reached
    · exact reached.set _ t linewise

/-- In an engine that began with empty registers they are reachable, whatever is done to it and
whenever the clipboard takes up its requests. -/
theorem runWith_registers_reachable (reached : e.registers.Reachable) (clipboard : Clipboard)
    (events : List Event) : (e.runWith clipboard events).1.1.registers.Reachable := by
  induction events generalizing e clipboard with
  | nil => exact reached
  | cons event rest ih =>
    cases event with
    | call c => exact ih (call_registers_reachable reached c) clipboard
    | work => exact ih (reached.work clipboard) (e.work clipboard).2

end Engine

end ModalEdit
