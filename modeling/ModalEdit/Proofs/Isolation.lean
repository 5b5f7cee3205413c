import ModalEdit.Proofs.ClipboardQueue

/-! What sessions of one engine can notice of each other. Without a clipboard only operators write to
the registers, and the registers are all that sessions share. So a session that completes no
operator might as well not be there, whatever else it does. -/
namespace ModalEdit

namespace RegisterBank

variable {b : RegisterBank}

theorem request_of_unconnected (unconnected : b.bridge? = none) (r : Clipboard.Request) :
    b.request r = b := by
  rw [request, unconnected, Option.map_none, ← unconnected]

theorem read_of_unconnected (unconnected : b.bridge? = none) (target : Option RegisterName) :
    (b.read target).1 = b := by
  simp only [read]
  split
  · exact request_of_unconnected unconnected .refresh
  · rfl

/-- No use makes a connection to the clipboard. -/
theorem act_unconnected (unconnected : b.bridge? = none) (u : Use) : (b.act u).bridge? = none := by
  cases u with
  | write t linewise target =>
    simp only [act, write, set]
    split
    · simp [RegisterName.slot, request, unconnected]
    · split <;> simp [request, unconnected]
  | set name r =>
    simp only [act, set]
    split <;> simp [request, unconnected]
  | read target =>
    rw [act, read_of_unconnected unconnected]
    exact unconnected

theorem UsedOnce.unconnected {b' : RegisterBank} (used : UsedOnce b b')
    (unconnected : b.bridge? = none) : b'.bridge? = none := by
  rcases used with rfl | ⟨u, rfl⟩
  · exact unconnected
  · exact act_unconnected unconnected u

end RegisterBank

/-- Does the command apply an operator, by itself or by repeating a change that does? -/
def Command.operates (r : Recorder) : Command → Bool
  | edit e _ => e.isOperator
  | operateSelection _ _ => true
  | repeatLast _ => r.last?.any (·.edit.isOperator)
  | _ => false

namespace Workspace

variable {w : Workspace}

theorem doEdit_registers (unconnected : w.registers.bridge? = none) (count : Nat) {edit : Edit}
    (other : edit.isOperator = false) : (w.doEdit count edit).1.registers = w.registers := by
  rcases doEdit_registers_cases w count other with kept | ⟨name?, fetched⟩
  · exact kept
  · exact fetched.trans (RegisterBank.read_of_unconnected unconnected name?)

theorem repeatLast_registers (unconnected : w.registers.bridge? = none)
    (other : w.recorder.last?.any (·.edit.isOperator) = false) (count? : Option Nat) :
    (w.repeatLast count?).1.registers = w.registers := by
  simp only [repeatLast, inMode]
  split
  · split
    · rfl
    · rename_i c last
      rw [last] at other
      rw [(retype_bystander _ c).1]
      exact doEdit_registers unconnected _ other
  · rfl

/-- Without a clipboard, a command that applies no operator leaves the registers as they are. -/
theorem perform_registers (unconnected : w.registers.bridge? = none) {c : Command}
    (other : c.operates w.recorder = false) : (w.perform c).1.registers = w.registers := by
  cases c with
  | edit e count => exact doEdit_registers unconnected count other
  | operateSelection => cases other
  | repeatLast count? => exact repeatLast_registers unconnected other count?
  | _ => exact (w.perform_bystander rfl).1

end Workspace

namespace Session

/-- Does the key complete an operator? -/
def operates (s : Session) (k : KeyPress) : Bool :=
  match s.pending.press s.editor.mode k with
  | .complete c => c.operates s.recorder
  | _ => false

theorem press_registers {s : Session} {b : RegisterBank} {k : KeyPress}
    (unconnected : b.bridge? = none) (other : s.operates k = false) : (s.press b k).1.2 = b := by
  unfold operates at other
  unfold press
  split at other
  · rename_i c reading
    simp only [reading]
    exact Workspace.perform_registers (w := s.workspace b) unconnected other
  · cases reading : s.pending.press s.editor.mode k with
    | complete c => rename_i unread; exact absurd reading (unread c)
    | _ => rfl

end Session

namespace Engine

/-! ### What a key does to an engine -/

/-- A key reaches the session that it is for, with the registers, and no other one. -/
theorem find?_press (e : Engine) (id b : SessionId) (k : KeyPress) :
    (e.press id k).1.find? b =
      if b = id then (e.find? id).map fun s => (s.press e.registers k).1.1 else e.find? b := by
  unfold press
  cases found : e.find? id with
  | none =>
    dsimp only
    split
    · rename_i same
      rw [same, found, Option.map_none]
    · rfl
  | some s =>
    have updated := e.find?_update id b (s.press e.registers k).1.1
    rw [found] at updated
    exact updated

theorem registers_press (e : Engine) (id : SessionId) (k : KeyPress) :
    (e.press id k).1.registers =
      (e.find? id).elim e.registers fun s => (s.press e.registers k).1.2 := by
  unfold press
  cases e.find? id <;> rfl

theorem handled_press (e : Engine) (id : SessionId) (k : KeyPress) :
    (e.press id k).2 = (e.find? id).any fun s => (s.press e.registers k).2.isHandled := by
  unfold press
  cases e.find? id <;> rfl

/-- Does the key complete an operator in the session that it is for? -/
def operates (e : Engine) (id : SessionId) (k : KeyPress) : Bool := (e.find? id).any (·.operates k)

/-- Keys for several sessions, one after the other, each with whether it was handled. -/
def pressEach (e : Engine) : List (SessionId × KeyPress) → Engine × List (SessionId × Bool)
  | [] => (e, [])
  | (id, k) :: rest =>
    let (e, handled) := e.press id k
    let (e, others) := e.pressEach rest
    (e, (id, handled) :: others)

/-- None of the keys for session `a` completes an operator. -/
def spectates (a : SessionId) (e : Engine) : List (SessionId × KeyPress) → Bool
  | [] => true
  | (id, k) :: rest => !(id = a && e.operates a k) && spectates a (e.press id k).1 rest

/-- The same registers, and the same sessions except for session `a`. -/
def SameBut (a : SessionId) (e e' : Engine) : Prop :=
  e.registers = e'.registers ∧ ∀ b ≠ a, e.find? b = e'.find? b

variable {a : SessionId} {e e' : Engine}

theorem press_unconnected (unconnected : e.registers.bridge? = none) (id : SessionId)
    (k : KeyPress) : (e.press id k).1.registers.bridge? = none :=
  (e.press_usedOnce id k).unconnected unconnected

/-- A key that completes no operator cannot be noticed outside of its session. -/
theorem SameBut.press_unnoticed (same : SameBut a e e') (unconnected : e.registers.bridge? = none)
    (other : e.operates a k = false) : SameBut a (e.press a k).1 e' := by
  refine ⟨?_, fun b apart => ?_⟩
  · rw [registers_press, ← same.1]
    unfold operates at other
    cases found : e.find? a with
    | none => rfl
    | some s =>
      rw [found] at other
      exact Session.press_registers unconnected other
  · rw [find?_press, if_neg apart]
    exact same.2 b apart

/-- A key for another session does the same in both engines. -/
theorem SameBut.press (same : SameBut a e e') {id : SessionId} (apart : id ≠ a) (k : KeyPress) :
    SameBut a (e.press id k).1 (e'.press id k).1 ∧ (e.press id k).2 = (e'.press id k).2 := by
  obtain ⟨registers, sessions⟩ := same
  have there := sessions id apart
  refine ⟨⟨?_, fun b other => ?_⟩, ?_⟩
  · rw [registers_press, registers_press, there, registers]
  · rw [find?_press, find?_press, there, registers, sessions b other]
  · rw [handled_press, handled_press, there, registers]

theorem SameBut.pressEach (same : SameBut a e e') (unconnected : e.registers.bridge? = none)
    (keys : List (SessionId × KeyPress)) (spectates : e.spectates a keys = true) :
    SameBut a (e.pressEach keys).1 (e'.pressEach (keys.filter (·.1 ≠ a))).1 ∧
      (e.pressEach keys).2.filter (·.1 ≠ a) = (e'.pressEach (keys.filter (·.1 ≠ a))).2 := by
  induction keys generalizing e e' with
  | nil => exact ⟨same, rfl⟩
  | cons key rest ih =>
    obtain ⟨id, k⟩ := key
    simp only [Engine.spectates, Bool.and_eq_true] at spectates
    obtain ⟨first, later⟩ := spectates
    have still := press_unconnected unconnected id k
    by_cases its : id = a
    · subst its
      have other : e.operates id k = false := by simpa using first
      have next := ih (same.press_unnoticed unconnected other) still later
      simpa [Engine.pressEach] using next
    · obtain ⟨after, handled⟩ := same.press its k
      have next := ih after still later
      simpa [Engine.pressEach, its, handled] using next

theorem spectates_part (spectates : e.spectates a keys = true) (part : done <+: keys) :
    e.spectates a done = true := by
  obtain ⟨rest, rfl⟩ := part
  induction done generalizing e with
  | nil => rfl
  | cons key done ih =>
    obtain ⟨first, later⟩ := Bool.and_eq_true_iff.mp spectates
    exact Bool.and_eq_true_iff.mpr ⟨first, ih later⟩

/-- In an engine without a clipboard, a session that completes no operator cannot be noticed. After
each key of any interleaving the registers, what all keys for other sessions have answered, and what
is seen of other sessions are the same as if the keys for that session had been left out. -/
theorem spectator_unnoticed (unconnected : e.registers.bridge? = none)
    (keys : List (SessionId × KeyPress)) (spectates : e.spectates a keys = true) :
    ∀ done, done <+: keys →
      let mixed := e.pressEach done
      let alone := e.pressEach (done.filter (·.1 ≠ a))
      mixed.1.registers = alone.1.registers ∧ mixed.2.filter (·.1 ≠ a) = alone.2 ∧
        ∀ b ≠ a, mixed.1.snapshot? b = alone.1.snapshot? b := by
  intro done part mixed alone
  have start : SameBut a e e := ⟨rfl, fun _ _ => rfl⟩
  obtain ⟨⟨registers, sessions⟩, handled⟩ :=
    start.pressEach unconnected done (spectates_part spectates part)
  refine ⟨registers, handled, fun b apart => ?_⟩
  rw [snapshot?, snapshot?, sessions b apart]

/-- Session 1 pastes what session 2 has yanked, repeats that, goes back a step and is in the middle
of an insertion when session 2 deletes a character. -/
theorem spectator_unnoticed_pasting :
    let fresh : Engine := { registers := {}, undoLevels := 100 }
    let e := ((fresh.openSession ['a', 'b'] .normal 0).1.openSession ['c', 'd'] .normal 0).1
    let keys : List (SessionId × KeyPress) :=
      [(2, .char 'y'), (1, .char '3'), (2, .char 'l'), (1, .char 'p'), (1, .char '.'),
        (1, .char 'u'), (1, .char 'i'), (1, .char 'x'), (2, .char 'x')]
    let alone : List (SessionId × KeyPress) := [(2, .char 'y'), (2, .char 'l'), (2, .char 'x')]
    e.registers.bridge? = none ∧ e.spectates 1 keys = true ∧
      ((e.pressEach keys).1.snapshot? 1).map (·.text) = some ['a', 'c', 'c', 'x', 'c', 'b'] ∧
      (e.pressEach keys).1.registers = (e.pressEach alone).1.registers ∧
      (e.pressEach keys).1.snapshot? 2 = (e.pressEach alone).1.snapshot? 2 ∧
      ((e.pressEach alone).1.snapshot? 2).map (·.text) = some ['d'] := by
  intro fresh e keys alone
  have spectates : e.spectates 1 keys = true := by decide
  have others : keys.filter (·.1 ≠ 1) = alone := by decide
  have same := spectator_unnoticed (e := e) rfl keys spectates keys (List.prefix_refl keys)
  rw [others] at same
  obtain ⟨registers, _, sessions⟩ := same
  exact ⟨rfl, spectates, by decide, registers, sessions 2 (by decide), by decide⟩

end Engine

end ModalEdit
