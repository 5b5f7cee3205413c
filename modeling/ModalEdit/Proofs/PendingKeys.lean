import ModalEdit.Proofs.Meaning
import ModalEdit.Proofs.OperatorKeys
import ModalEdit.Proofs.UndoEdit

/-! What can have been typed of a command in each mode. The keys and the mode are kept apart, and
a command may change the mode; still no key is ever read in a mode that what is typed of the
command does not belong to, and no command is completed that has no meaning in its mode. -/
namespace ModalEdit

/-- What a key is awaited for belongs to the mode, and to the operator that waits, if one does. -/
def Awaited.Fits (a : Awaited) (m : Mode) (operator? : Option PendingOperator) : Prop :=
  match a with
  | .registerName => operator? = none
  | .replacement => m = .normal ∧ operator? = none
  | .objectName _ => m = .normal → operator? ≠ none
  | .afterG | .findChar _ _ => True

/-- A count that keys can come to. -/
def IsCount (n : Nat) : Prop := 1 ≤ n ∧ n ≤ maxCount

theorem isCount_of_extendCount? (counted : ∀ n, count? = some n → IsCount n)
    (more : extendCount? count? digit = some n) : IsCount n := by
  have limit : 1 ≤ maxCount := by decide
  unfold extendCount? at more
  split at more
  · cases more
  · rename_i counts
    obtain rfl := Option.some.inj more
    cases count? with
    | none =>
      have : digit ≠ 0 := fun zero => counts ⟨rfl, zero⟩
      simp only [IsCount, Option.getD_none]
      omega
    | some n =>
      have := (counted n rfl).1
      simp only [IsCount, Option.getD_some]
      omega

namespace Pending

/-- What has been typed of a command belongs to the mode. The count after an operator is a part of
the operator that waits, and no two keys are awaited at once. -/
structure Consistent (p : Pending) (m : Mode) : Prop where
  insert : m = .insert → p = {}
  operator : p.operator? ≠ none → m = .normal
  awaited : ∀ a, p.awaited? = some a → a.Fits m p.operator?
  count : ∀ n, p.count? = some n → IsCount n
  ownCount : ∀ o n, p.operator? = some o → o.count? = some n → IsCount n

theorem consistent_empty (m : Mode) : Consistent {} m :=
  ⟨fun _ => rfl, fun waits => absurd rfl waits, nofun, nofun, nofun⟩

end Pending

/-- What a reading comes to belongs to the mode. More keys are asked for only when some of a
command has been typed. A redo is the one command that is also read where it has no meaning. -/
def Reading.Fits (m : Mode) : Reading → Prop
  | .complete c => c.kind = .redo ∨ c.kind.meantFor m = true
  | .incomplete p => p.Consistent m ∧ p ≠ {}
  | .meaningless => True

namespace Pending

variable {p : Pending} {m : Mode}

theorem await_fits (consistent : p.Consistent m) (mode : m ≠ .insert)
    (fits : a.Fits m p.operator?) : (p.await a).Fits m := by
  refine ⟨⟨fun insert => absurd insert mode, consistent.operator, ?_, consistent.count,
    consistent.ownCount⟩, fun nothing => ?_⟩
  · rintro _ ⟨⟩
    exact fits
  · cases congrArg awaited? nothing

theorem operate_fits (normal : m = .normal) (op : Operator) (target : Target) :
    (p.operate op target).Fits m := .inr (decide_eq_true normal)

theorem move_fits (consistent : p.Consistent m) (motion : Motion) : (p.move motion).Fits m := by
  unfold move
  split
  · rename_i o waits
    exact operate_fits (consistent.operator (by simp [waits])) _ _
  · exact .inr rfl

theorem object_fits (consistent : p.Consistent m) (o : TextObject) : (p.object m o).Fits m := by
  unfold object
  split
  · rename_i waits
    exact operate_fits (consistent.operator (by simp [waits])) _ _
  · split
    · rename_i visual
      exact .inr visual
    · trivial

/-- The key that was awaited is there. -/
theorem Consistent.answered (consistent : p.Consistent m) :
    Consistent { p with awaited? := none } m :=
  ⟨fun insert => by rw [consistent.insert insert], consistent.operator, nofun, consistent.count,
    consistent.ownCount⟩

theorem supply_fits (consistent : p.Consistent m) (mode : m ≠ .insert)
    (awaited : p.awaited? = some a) (k : KeyPress) :
    (supply { p with awaited? := none } m a k).Fits m := by
  have answered := consistent.answered
  have fits := consistent.awaited a awaited
  cases a with
  | registerName =>
    simp only [supply]
    split
    · refine ⟨⟨fun insert => absurd insert mode, answered.operator, by simp, answered.count,
        answered.ownCount⟩, fun nothing => ?_⟩
      cases congrArg register? nothing
    · trivial
  | afterG =>
    simp only [supply]
    split
    · exact move_fits answered _
    · exact move_fits answered _
    · exact move_fits answered _
    · trivial
  | findChar =>
    simp only [supply]
    split
    · split
      · trivial
      · exact move_fits answered _
    · trivial
  | replacement =>
    simp only [supply]
    split
    · exact .inr (decide_eq_true fits.1)
    · trivial
  | objectName =>
    simp only [supply]
    split
    · exact object_fits answered _
    · trivial

theorem slot?_isCount (consistent : p.Consistent m) : ∀ n, p.slot? = some n → IsCount n := by
  intro n there
  unfold slot? at there
  split at there
  · rename_i o waits
    exact consistent.ownCount o n waits there
  · exact consistent.count n there

theorem withSlot_fits (consistent : p.Consistent m) (mode : m ≠ .insert) (free : p.awaited? = none)
    (counted : IsCount n) : (Reading.incomplete (p.withSlot n)).Fits m := by
  unfold withSlot
  split
  · rename_i o waits
    refine ⟨⟨fun insert => absurd insert mode, fun _ => consistent.operator (by simp [waits]), ?_,
      consistent.count, ?_⟩, fun nothing => ?_⟩
    · intro a awaited
      cases free.symm.trans awaited
    · rintro _ _ ⟨⟩ ⟨⟩
      exact counted
    · cases congrArg operator? nothing
  · refine ⟨⟨fun insert => absurd insert mode, consistent.operator, consistent.awaited, ?_,
      consistent.ownCount⟩, fun nothing => ?_⟩
    · rintro _ ⟨⟩
      exact counted
    · cases congrArg count? nothing

theorem digit?_fits (consistent : p.Consistent m) (mode : m ≠ .insert) (free : p.awaited? = none)
    (digit : p.digit? c = some q) : (Reading.incomplete q).Fits m := by
  rw [digit?_eq] at digit
  obtain ⟨n, more, rfl⟩ := Option.map_eq_some_iff.mp digit
  obtain ⟨d, _, more⟩ := Option.bind_eq_some_iff.mp more
  exact withSlot_fits consistent mode free (isCount_of_extendCount? (slot?_isCount consistent) more)

theorem operatorChar_fits (consistent : p.Consistent m) (waits : p.operator? ≠ none)
    (op : Operator) (c : Char) : (p.operatorChar op c).Fits m := by
  have normal := consistent.operator waits
  unfold operatorChar
  split
  · exact operate_fits normal _ _
  · split
    · exact await_fits consistent (by simp [normal]) fun _ => waits
    · trivial

theorem normalChar_fits (consistent : p.Consistent .normal) (idle : p.operator? = none)
    (free : p.awaited? = none) (c : Char) : (p.normalChar c).Fits .normal := by
  unfold normalChar
  split
  · refine ⟨⟨nofun, fun _ => rfl, ?_, consistent.count, ?_⟩, fun nothing => ?_⟩
    · intro a awaited
      cases free.symm.trans awaited
    · rintro _ _ ⟨⟩ ⟨⟩
    · cases congrArg operator? nothing
  · exact .inr rfl
  · split
    case h_15 => exact await_fits consistent nofun ⟨rfl, idle⟩
    case h_16 => exact await_fits consistent nofun idle
    case h_17 => trivial
    all_goals exact .inr rfl

theorem visualChar_fits (consistent : p.Consistent m) (visual : m.isVisual = true)
    (idle : p.operator? = none) (c : Char) : (p.visualChar m c).Fits m := by
  have mode := Mode.ne_insert_of_isVisual visual
  have object (inner : Bool) : (p.await (.objectName inner)).Fits m :=
    await_fits consistent mode fun normal => by simp [normal, Mode.isVisual] at visual
  unfold visualChar
  split
  case h_7 =>
    split
    · exact .inr visual
    · rename_i other
      exact .inr (decide_eq_true ⟨mode, other⟩)
  case h_8 =>
    split
    · exact .inr visual
    · rename_i other
      exact .inr (decide_eq_true ⟨mode, other⟩)
  case h_9 => exact object true
  case h_10 => exact object false
  case h_11 => exact await_fits consistent mode idle
  case h_12 => trivial
  all_goals exact .inr visual

theorem commandChar_fits (consistent : p.Consistent m) (mode : m ≠ .insert)
    (free : p.awaited? = none) (c : Char) : (p.commandChar m c).Fits m := by
  unfold commandChar
  split
  · rename_i digit
    exact digit?_fits consistent mode free digit
  · exact move_fits consistent _
  · split
    case h_6 =>
      split
      · rename_i waits
        exact operatorChar_fits consistent (by simp [waits]) _ _
      · rename_i idle
        split
        · rename_i visual
          exact visualChar_fits consistent visual idle c
        · rename_i other
          obtain rfl : m = .normal := by
            cases m <;> simp_all [Mode.isVisual]
          exact normalChar_fits consistent idle free c
    all_goals exact await_fits consistent mode trivial

/-- What a key can come to that is not awaited by another one. -/
theorem pressCommand_cases (stays : k.isEscape = false) (free : p.awaited? = none) :
    p.pressCommand m k = .meaningless ∨ p.pressCommand m k = p.commandCtrl k ∨
      (∃ c, p.pressCommand m k = p.commandChar m c) ∨
      ∃ motion, p.pressCommand m k = p.move motion := by
  rw [pressCommand, if_neg (by simp [stays]), free]
  obtain ⟨code, mods⟩ := k
  by_cases ctrl : KeyPress.isCtrl ⟨code, mods⟩ = true
  · exact .inr (.inl (if_pos ctrl))
  · dsimp only
    rw [if_neg ctrl]
    cases code with
    | char c =>
      by_cases alt : mods.alt = true
      · exact .inl (if_pos alt)
      · exact .inr (.inr (.inl ⟨c, if_neg alt⟩))
    | enter | escape | tab => exact .inl rfl
    | backspace | up | down | left | right | home | endKey => exact .inr (.inr (.inr ⟨_, rfl⟩))

theorem pressCommand_fits (consistent : p.Consistent m) (mode : m ≠ .insert)
    (stays : k.isEscape = false) : (p.pressCommand m k).Fits m := by
  cases awaited : p.awaited? with
  | some a =>
    rw [pressCommand, if_neg (by simp [stays]), awaited]
    exact supply_fits consistent mode awaited k
  | none =>
    rcases pressCommand_cases (m := m) stays awaited with same | same | ⟨c, same⟩ | ⟨motion, same⟩
    · rw [same]
      trivial
    · rw [same, commandCtrl]
      split
      · exact .inl rfl
      · trivial
    · rw [same]
      exact commandChar_fits consistent mode awaited c
    · rw [same]
      exact move_fits consistent motion

theorem pressInsert_fits (k : KeyPress) : (pressInsert k).Fits .insert := by
  cases escape : k.isEscape with
  | true =>
    rw [pressInsert, if_pos escape]
    exact .inr rfl
  | false =>
    rcases Session.pressInsert_cases escape with same | ⟨c, same, kind⟩
    · rw [same]
      trivial
    · rw [same]
      rcases kind with ⟨t, rfl⟩ | rfl | rfl | ⟨motion, rfl⟩
      all_goals exact .inr rfl

theorem press_fits (consistent : p.Consistent m) (k : KeyPress) :
    (p.press m k).Fits m ∨ k.isEscape = true ∧ p.press m k = .incomplete {} := by
  cases escape : k.isEscape with
  | true =>
    have leaves (visual : m.isVisual = true) : p.press m k = .complete .leaveVisual := by
      cases m with
      | normal | insert => cases visual
      | visual | visualLine => exact if_pos escape
    cases m with
    | insert => exact .inl (pressInsert_fits k)
    | normal => exact .inr ⟨rfl, if_pos escape⟩
    | visual | visualLine =>
      rw [leaves rfl]
      exact .inl (.inr rfl)
  | false =>
    cases m with
    | insert => exact .inl (pressInsert_fits k)
    | _ => exact .inl (pressCommand_fits consistent nofun escape)

end Pending

namespace Session

variable {s : Session}

theorem press_pending (s : Session) (b : RegisterBank) (k : KeyPress) :
    (s.press b k).1.1.pending = (s.pending.press s.editor.mode k).pending := by
  unfold press
  cases s.pending.press s.editor.mode k <;> rfl

theorem press_reading (s : Session) (b : RegisterBank) (k : KeyPress) :
    match s.pending.press s.editor.mode k with
    | .complete c => ∃ outcome, (s.press b k).2 = .performed c outcome
    | .incomplete _ => (s.press b k).2 = .awaitingMore ∧ (s.press b k).1.1.editor = s.editor
    | .meaningless => (s.press b k).2 = .unhandled := by
  unfold press
  cases s.pending.press s.editor.mode k with
  | complete c => exact ⟨_, rfl⟩
  | incomplete p => exact ⟨rfl, rfl⟩
  | meaningless => rfl

theorem press_consistent (consistent : s.pending.Consistent s.editor.mode) (b : RegisterBank)
    (k : KeyPress) : (s.press b k).1.1.pending.Consistent (s.press b k).1.1.editor.mode := by
  have pressed := s.press_reading b k
  have fits := Pending.press_fits consistent k
  rw [press_pending]
  cases reading : s.pending.press s.editor.mode k with
  | complete | meaningless => exact Pending.consistent_empty _
  | incomplete p =>
    rw [reading] at pressed fits
    rw [pressed.2]
    rcases fits with fits | ⟨_, nothing⟩
    · exact fits.1
    · obtain rfl := Reading.incomplete.inj nothing
      exact Pending.consistent_empty _

/-- What has been typed of a command belongs to the mode, also when the mode was changed by a
command or the text came from outside. -/
theorem Reachable.consistent (reached : s.Reachable) : s.pending.Consistent s.editor.mode := by
  induction reached with
  | opened => exact Pending.consistent_empty _
  | @next s b i _ ih =>
    cases i with
    | press k => exact press_consistent ih b k
    | sync => exact Pending.consistent_empty _

/-- A key that asks for more leaves some of a command typed, unless it is the escape key; any other one
leaves nothing. A command that is performed has a meaning in the mode, except for a redo. -/
theorem Reachable.press_fits (reached : s.Reachable) (b : RegisterBank) (k : KeyPress) :
    ((s.press b k).2 = .awaitingMore → k.isEscape = false → (s.press b k).1.1.pending ≠ {}) ∧
      ((s.press b k).2 = .unhandled → (s.press b k).1.1.pending = {}) ∧
      ∀ c outcome, (s.press b k).2 = .performed c outcome →
        (s.press b k).1.1.pending = {} ∧
          (c.kind ≠ .redo → c.kind.HasMeaning s.editor.mode) := by
  have pressed := s.press_reading b k
  have fits := Pending.press_fits reached.consistent k
  rw [press_pending]
  cases reading : s.pending.press s.editor.mode k with
  | complete command =>
    rw [reading] at pressed fits
    obtain ⟨outcome, performed⟩ := pressed
    have fits := fits.resolve_right nofun
    rw [performed]
    refine ⟨nofun, nofun, ?_⟩
    rintro _ _ ⟨⟩
    exact ⟨rfl, fun other => Command.Kind.hasMeaning_iff.mpr (fits.resolve_left other)⟩
  | incomplete p =>
    rw [reading] at pressed fits
    rw [pressed.1]
    refine ⟨fun _ stays => ?_, nofun, fun _ _ performed => nomatch performed⟩
    have fits := fits.resolve_right fun escape => Bool.eq_false_iff.mp stays escape.1
    exact fits.2
  | meaningless =>
    rw [reading] at pressed
    rw [pressed]
    exact ⟨nofun, fun _ => rfl, fun _ _ performed => nomatch performed⟩

end Session

end ModalEdit
