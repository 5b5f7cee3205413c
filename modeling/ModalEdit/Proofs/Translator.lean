import ModalEdit.Proofs.PendingKeys
import ModalEdit.TranslatedSession

/-! The translator has a place of its own for each of six things, and keys could fill them in any
combination. What is there in a session belongs together, and to the mode; with that the translator
reads keys as they are read without it. -/
namespace ModalEdit

def ParkedKey.awaited : ParkedKey → Awaited
  | afterG => .afterG
  | findChar forward till => .findChar forward till
  | replacement => .replacement
  | objectName inner => .objectName inner

namespace Translator

/-- What has been typed of a command, with the places put together that belong together. -/
def view (τ : Translator) : Pending where
  count? := τ.count?
  register? := τ.register?
  operator? := τ.operator?.map (⟨·, τ.ownCount?⟩)
  awaited? := if τ.awaitsRegister then some .registerName else τ.parked?.map ParkedKey.awaited

/-- Nothing is typed without what it belongs to, and no two keys are awaited at once. -/
structure Legal (τ : Translator) : Prop where
  ownCount : τ.ownCount? ≠ none → τ.operator? ≠ none
  register : τ.awaitsRegister = true → τ.parked? = none
  count : ∀ n, τ.count? = some n → IsCount n

theorem legal_empty : Legal {} := ⟨fun counted => absurd rfl counted, nofun, nofun⟩

/-- Nothing is awaited. -/
def Free (τ : Translator) : Prop := τ.awaitsRegister = false ∧ τ.parked? = none

/-- A key comes to the same. What is left after a command or a key that makes no sense does not
matter. -/
inductive Agrees : Translation × Translator → Reading → Prop where
  | command (c : Command) (τ : Translator) : Agrees (.command c, τ) (.complete c)
  | consumed {τ : Translator} : τ.Legal → Agrees (.consumed, τ) (.incomplete τ.view)
  | unhandled (τ : Translator) : Agrees (.unhandled, τ) .meaningless

variable {τ : Translator} {m : Mode} {k : KeyPress} {c : Char}

theorem view_operator? (waits : τ.operator? = some op) :
    τ.view.operator? = some ⟨op, τ.ownCount?⟩ := by
  simp only [view, waits, Option.map_some]

theorem view_operator?_eq_none_iff : τ.view.operator? = none ↔ τ.operator? = none :=
  Option.map_eq_none_iff

theorem view_awaited?_of_register (awaits : τ.awaitsRegister = true) :
    τ.view.awaited? = some .registerName := if_pos awaits

theorem view_awaited?_of_parked (awaits : τ.awaitsRegister = false) (parked : τ.parked? = some key) :
    τ.view.awaited? = some key.awaited := by
  simp [view, awaits, parked]

theorem view_awaited?_eq_none_iff : τ.view.awaited? = none ↔ τ.Free := by
  cases awaits : τ.awaitsRegister <;> simp [view, Free, awaits]

theorem Legal.ownCount?_of_idle (legal : τ.Legal) (idle : τ.operator? = none) :
    τ.ownCount? = none := by
  by_contra counted
  exact legal.ownCount counted idle

/-- Without an operator there is one count. -/
theorem Legal.eq_of_idle (legal : τ.Legal) (free : τ.Free) (idle : τ.operator? = none) :
    τ = { count? := τ.count?, register? := τ.register? } := by
  obtain ⟨count?, operator?, ownCount?, register?, awaits, parked?⟩ := τ
  obtain rfl : operator? = none := idle
  obtain rfl : ownCount? = none := legal.ownCount?_of_idle rfl
  obtain ⟨rfl, rfl⟩ : awaits = false ∧ parked? = none := free
  rfl

theorem takeCount_fst (legal : τ.Legal) : τ.takeCount.1.1 = τ.view.count := by
  cases waits : τ.operator? with
  | some op => simp [takeCount, Pending.count, view, waits]
  | none => simp [takeCount, Pending.count, view, waits, legal.ownCount?_of_idle waits]

/-- A count that was typed is taken as it is, and can be put back. -/
theorem takeCount_of_idle (legal : τ.Legal) (idle : τ.operator? = none) :
    { τ.takeCount.2 with count? := if τ.takeCount.1.2 then some τ.takeCount.1.1 else none } = τ ∧
      τ.count?.map (fun _ => τ.takeCount.1.1) = τ.count? := by
  have single := legal.ownCount?_of_idle idle
  obtain ⟨count?, operator?, ownCount?, register?, awaits, parked?⟩ := τ
  obtain rfl : ownCount? = none := single
  cases count? with
  | none => exact ⟨rfl, rfl⟩
  | some n =>
    have counted := legal.count n rfl
    have same : max (min n maxCount) 1 = n := by
      simp only [IsCount] at counted
      omega
    constructor <;> simp [takeCount, same]

theorem park_agrees (legal : τ.Legal) (free : τ.Free) (key : ParkedKey) :
    Agrees (τ.park key) (τ.view.await key.awaited) := by
  have parked : { τ with parked? := some key }.view = { τ.view with awaited? := some key.awaited } := by
    simp [view, free.1]
  rw [Pending.await, ← parked]
  exact .consumed ⟨legal.ownCount, fun awaits => by simp [free.1] at awaits, legal.count⟩

theorem Agrees.of_command {x : Translation × Translator} {command : Command}
    (out : x.1 = .command command) : Agrees x (.complete command) := by
  obtain ⟨_, τ⟩ := x
  cases out
  exact .command command τ

/-- An operator is applied with the product of the counts. -/
theorem apply_agrees (legal : τ.Legal) (op : Operator) (target : Target) :
    Agrees (τ.takeCount.2.apply op target τ.takeCount.1.1) (τ.view.operate op target) := by
  rw [Pending.operate, ← takeCount_fst legal]
  exact .command _ _

theorem completeMotion_agrees (legal : τ.Legal) (motion : Motion) :
    Agrees (τ.completeMotion motion) (τ.view.move motion) := by
  rw [completeMotion, Pending.move]
  dsimp only
  cases waits : τ.operator? with
  | some op =>
    have waits' : τ.takeCount.2.operator? = some op := waits
    rw [view_operator? waits, waits']
    exact apply_agrees legal op (.motion motion)
  | none =>
    have idle : τ.takeCount.2.operator? = none := waits
    rw [view_operator?_eq_none_iff.mpr waits, idle, ← takeCount_fst legal]
    exact .command _ _

theorem resolveParked_agrees (legal : τ.Legal) (parked : ParkedKey) (k : KeyPress) :
    Agrees (τ.resolveParked m parked k) (τ.view.supply m parked.awaited k) := by
  have count := takeCount_fst legal
  rw [resolveParked]
  cases given : k.givenChar? with
  | none => cases parked <;> simp [ParkedKey.awaited, Pending.supply, given, Agrees.unhandled]
  | some c =>
    cases parked with
    | afterG =>
      simp only [ParkedKey.awaited, Pending.supply, given]
      split
      · exact completeMotion_agrees legal _
      · exact completeMotion_agrees legal _
      · exact completeMotion_agrees legal _
      · split <;> first | exact .unhandled τ | simp_all
    | findChar forward till =>
      simp only [ParkedKey.awaited, Pending.supply, given]
      split
      · exact .unhandled τ
      · exact completeMotion_agrees legal _
    | replacement =>
      simp only [ParkedKey.awaited, Pending.supply, given, ← count]
      exact .command _ _
    | objectName inner =>
      simp only [ParkedKey.awaited, Pending.supply, given, Option.bind_some]
      cases TextObject.Kind.ofChar? c with
      | none => exact .unhandled τ
      | some kind =>
        dsimp only
        rw [Pending.object]
        cases waits : τ.operator? with
        | some op =>
          have waits' : τ.takeCount.2.operator? = some op := waits
          rw [view_operator? waits, waits']
          exact apply_agrees legal op (.object ⟨kind, inner⟩)
        | none =>
          have idle : τ.takeCount.2.operator? = none := waits
          rw [view_operator?_eq_none_iff.mpr waits, idle, ← count]
          dsimp only
          split
          · exact .command _ _
          · exact .unhandled _

theorem operatorChar_agrees (legal : τ.Legal) (free : τ.Free) (op : Operator) (c : Char) :
    Agrees (τ.operatorChar op c) (τ.view.operatorChar op c) := by
  rw [operatorChar, Pending.operatorChar]
  split
  · exact apply_agrees legal op .lines
  · split
    · exact park_agrees legal free _
    · exact .unhandled τ

theorem await_register (legal : τ.Legal) (free : τ.Free) :
    Agrees (.consumed, { τ with awaitsRegister := true }) (τ.view.await .registerName) := by
  have awaiting : { τ with awaitsRegister := true }.view =
      { τ.view with awaited? := some .registerName } := rfl
  rw [Pending.await, ← awaiting]
  exact .consumed ⟨legal.ownCount, fun _ => free.2, legal.count⟩

theorem visualChar_agrees (legal : τ.Legal) (free : τ.Free) (m : Mode) (c : Char) :
    Agrees (τ.visualChar m c) (τ.view.visualChar m c) := by
  unfold visualChar
  split
  case h_9 => exact park_agrees legal free _
  case h_10 => exact park_agrees legal free _
  case h_11 => exact await_register legal free
  case h_12 =>
    unfold Pending.visualChar
    split <;> first | exact .unhandled τ | contradiction
  all_goals exact .command _ _

theorem normalChar_agrees (legal : τ.Legal) (free : τ.Free) (idle : τ.operator? = none) (c : Char) :
    Agrees (τ.normalChar c) (τ.view.normalChar c) := by
  have count := takeCount_fst legal
  obtain ⟨putBack, same⟩ := takeCount_of_idle legal idle
  unfold normalChar Pending.normalChar
  cases Operator.ofChar? c with
  | some op =>
    have waiting : { τ with operator? := some op, ownCount? := none }.view =
        { τ.view with operator? := some { op := op } } := rfl
    dsimp only
    rw [← waiting]
    exact .consumed ⟨fun counted => absurd rfl counted, legal.register, legal.count⟩
  | none =>
    simp only [Pending.operate, ← count]
    cases InsertEntry.ofChar? c with
    | some entry => exact .command _ _
    | none =>
      dsimp only
      split
      case h_13 =>
        have again := (congrArg count? putBack).trans same.symm
        exact .of_command (congrArg (Translation.command <| .repeatLast ·) again)
      case h_15 =>
        rw [putBack]
        exact park_agrees legal free .replacement
      case h_16 =>
        have awaiting := congrArg ({ · with awaitsRegister := true } : Translator → Translator) putBack
        exact awaiting ▸ await_register legal free
      case h_17 =>
        first
          | exact .unhandled _
          | split <;> first | exact .unhandled _ | contradiction
      all_goals exact .command _ _

theorem addDigit?_agrees (legal : τ.Legal) (c : Char) :
    τ.addDigit? c = none ∧ τ.view.digit? c = none ∨
      ∃ τ', τ.addDigit? c = some τ' ∧ τ.view.digit? c = some τ'.view ∧ τ'.Legal := by
  cases value : digitValue? c with
  | none => exact .inl (by simp [addDigit?, Pending.digit?, value])
  | some d =>
    cases waits : τ.operator? with
    | some op =>
      cases more : extendCount? τ.ownCount? d with
      | none => exact .inl (by simp [addDigit?, Pending.digit?, value, view, waits, more])
      | some n =>
        refine .inr ⟨{ τ with ownCount? := some n }, ?_, ?_, ?_⟩
        · simp [addDigit?, value, waits, more]
        · simp [Pending.digit?, value, view, waits, more]
        · exact ⟨fun _ => by simp [waits], legal.register, legal.count⟩
    | none =>
      cases more : extendCount? τ.count? d with
      | none => exact .inl (by simp [addDigit?, Pending.digit?, value, view, waits, more])
      | some n =>
        refine .inr ⟨{ τ with count? := some n }, ?_, ?_, ?_⟩
        · simp [addDigit?, value, waits, more]
        · simp [Pending.digit?, value, view, waits, more]
        · refine ⟨legal.ownCount, legal.register, ?_⟩
          rintro _ ⟨⟩
          exact isCount_of_extendCount? legal.count more

/-- The first of two keys, or a character that is read in another way. -/
theorem firstKey_agrees (legal : τ.Legal) (free : τ.Free) (c : Char) (other : Agrees out reading) :
    Agrees
      (match c with
        | 'g' => τ.park .afterG
        | 'f' => τ.park (.findChar true false)
        | 'F' => τ.park (.findChar false false)
        | 't' => τ.park (.findChar true true)
        | 'T' => τ.park (.findChar false true)
        | _ => out)
      (match c with
        | 'g' => τ.view.await .afterG
        | 'f' => τ.view.await (.findChar true false)
        | 'F' => τ.view.await (.findChar false false)
        | 't' => τ.view.await (.findChar true true)
        | 'T' => τ.view.await (.findChar false true)
        | _ => reading) := by
  split
  case h_6 => exact other
  all_goals exact park_agrees legal free _

theorem commandChar_agrees (legal : τ.Legal) (free : τ.Free) (m : Mode) (c : Char) :
    Agrees (τ.commandChar m c) (τ.view.commandChar m c) := by
  unfold commandChar Pending.commandChar
  rcases addDigit?_agrees legal c with ⟨stays, stays'⟩ | ⟨τ', digit, digit', legal'⟩
  · rw [stays, stays']
    cases Motion.ofChar? c with
    | some motion => exact completeMotion_agrees legal motion
    | none =>
      refine firstKey_agrees legal free c ?_
      cases waits : τ.operator? with
      | some op =>
        rw [view_operator? waits]
        exact operatorChar_agrees legal free op c
      | none =>
        rw [view_operator?_eq_none_iff.mpr waits]
        dsimp only
        split
        · exact visualChar_agrees legal free m c
        · exact normalChar_agrees legal free waits c
  · rw [digit, digit']
    exact .consumed legal'

theorem translateCommand_agrees (legal : τ.Legal) (m : Mode) (k : KeyPress) :
    Agrees (τ.translateCommand m k) (τ.view.pressCommand m k) := by
  rw [translateCommand, Pending.pressCommand]
  split
  · split
    · exact .command _ _
    · exact .consumed legal_empty
  · cases awaits : τ.awaitsRegister with
    | true =>
      have free := legal.register awaits
      rw [view_awaited?_of_register awaits, if_pos rfl]
      dsimp only [Pending.supply]
      cases k.plainChar?.bind RegisterName.ofChar? with
      | none => exact .unhandled _
      | some name =>
        have named : { τ with register? := some name, awaitsRegister := false }.view =
            { τ.view with register? := some name, awaited? := none } := by simp [view, free]
        dsimp only
        rw [← named]
        exact .consumed ⟨legal.ownCount, fun _ => free, legal.count⟩
    | false =>
      cases parked : τ.parked? with
      | some key =>
        have resolved := resolveParked_agrees (m := m) (τ := { τ with parked? := none })
          ⟨legal.ownCount, fun _ => rfl, legal.count⟩ key k
        have answered : { τ with parked? := none }.view = { τ.view with awaited? := none } := by
          simp [view, awaits]
        simp only [awaits] at resolved
        rw [view_awaited?_of_parked awaits parked]
        exact resolved
      | none =>
        have free : τ.Free := ⟨awaits, parked⟩
        rw [view_awaited?_eq_none_iff.mpr free, if_neg Bool.false_ne_true]
        dsimp only
        split
        · simp only [Pending.commandCtrl, view_operator?_eq_none_iff, ← takeCount_fst legal]
          split
          · exact .command _ _
          · exact .unhandled _
        · cases k.code with
          | char c =>
            dsimp only
            split
            · exact .unhandled _
            · exact commandChar_agrees legal free m c
          | enter | escape | tab => exact .unhandled _
          | backspace | up | down | left | right | home | endKey =>
            exact completeMotion_agrees legal _

theorem translateInsert_agrees (k : KeyPress) (τ : Translator) :
    Agrees (translateInsert k, τ) (Pending.pressInsert k) := by
  have fits := Pending.pressInsert_fits k
  rw [translateInsert]
  cases reading : Pending.pressInsert k with
  | complete c => exact .command c τ
  | meaningless => exact .unhandled τ
  | incomplete p =>
    -- a key of an insertion asks for no other one
    rw [reading] at fits
    exact absurd (fits.1.insert rfl) fits.2

theorem Agrees.clearing (agrees : Agrees x reading) :
    (∃ c, reading = .complete c ∧ clearing x = (.command c, {})) ∨
      (∃ τ, reading = .incomplete τ.view ∧ clearing x = (.consumed, τ) ∧ τ.Legal) ∨
      reading = .meaningless ∧ clearing x = (.unhandled, {}) := by
  cases agrees with
  | command c τ => exact .inl ⟨c, rfl, rfl⟩
  | consumed legal => exact .inr (.inl ⟨_, rfl, rfl, legal⟩)
  | unhandled τ => exact .inr (.inr ⟨rfl, rfl⟩)

/-- A key comes to what it comes to without the translator, and what is typed then belongs together. -/
theorem translate_cases (legal : τ.Legal) (m : Mode) (k : KeyPress) :
    (∃ c, τ.view.press m k = .complete c ∧ τ.translate m k = (.command c, {})) ∨
      (∃ τ', τ.view.press m k = .incomplete τ'.view ∧ τ.translate m k = (.consumed, τ') ∧ τ'.Legal) ∨
      τ.view.press m k = .meaningless ∧ τ.translate m k = (.unhandled, {}) := by
  cases m with
  | insert => exact (translateInsert_agrees k τ).clearing
  | _ => exact (translateCommand_agrees legal _ k).clearing

/-- What has been typed of a command belongs together, and to the mode. -/
structure Consistent (τ : Translator) (m : Mode) : Prop where
  insert : m = .insert → τ.isIdle = true
  operator : τ.operator? ≠ none → m = .normal
  ownCount : τ.ownCount? ≠ none → τ.operator? ≠ none
  object : ∀ inner, τ.parked? = some (.objectName inner) → m = .normal → τ.operator? ≠ none
  replacement : τ.parked? = some .replacement → m = .normal ∧ τ.operator? = none
  register : τ.awaitsRegister = true → τ.operator? = none ∧ τ.parked? = none
  counts : ∀ n, τ.count? = some n ∨ τ.ownCount? = some n → 1 ≤ n ∧ n ≤ 999999

theorem isIdle_iff (legal : τ.Legal) : τ.isIdle = true ↔ τ.view = {} := by
  constructor
  · intro idle
    rw [of_decide_eq_true idle]
    rfl
  · intro nothing
    have idle := view_operator?_eq_none_iff.mp (congrArg Pending.operator? nothing)
    have free := view_awaited?_eq_none_iff.mp (congrArg Pending.awaited? nothing)
    have same := legal.eq_of_idle free idle
    have count : τ.count? = none := congrArg Pending.count? nothing
    have register : τ.register? = none := congrArg Pending.register? nothing
    rw [count, register] at same
    exact decide_eq_true same

/-- The places that are put together fit the mode, and so does each of them. -/
theorem Legal.consistent (legal : τ.Legal) (fits : τ.view.Consistent m) : τ.Consistent m := by
  have parks {key : ParkedKey} (parked : τ.parked? = some key) :
      τ.view.awaited? = some key.awaited := by
    refine view_awaited?_of_parked ?_ parked
    by_contra awaits
    rw [legal.register (Bool.eq_true_of_not_eq_false awaits)] at parked
    cases parked
  refine ⟨?_, ?_, legal.ownCount, ?_, ?_, ?_, ?_⟩
  · intro insert
    exact (isIdle_iff legal).mpr (fits.insert insert)
  · intro operator
    exact fits.operator (mt view_operator?_eq_none_iff.mp operator)
  · intro inner parked normal idle
    have needs : τ.view.operator? ≠ none := fits.awaited _ (parks parked) normal
    exact needs (view_operator?_eq_none_iff.mpr idle)
  · intro parked
    obtain ⟨normal, idle⟩ := fits.awaited _ (parks parked)
    exact ⟨normal, view_operator?_eq_none_iff.mp idle⟩
  · intro awaits
    have idle := fits.awaited .registerName (view_awaited?_of_register awaits)
    exact ⟨view_operator?_eq_none_iff.mp idle, legal.register awaits⟩
  · rintro n (counted | counted)
    · exact fits.count n counted
    · have after : τ.ownCount? ≠ none := by simp [counted]
      obtain ⟨op, waits⟩ := Option.ne_none_iff_exists'.mp (legal.ownCount after)
      exact fits.ownCount ⟨op, τ.ownCount?⟩ n (view_operator? waits) counted

end Translator

namespace TranslatedSession

/-- The session without the places of the translator. -/
def view (s : TranslatedSession) : Session := ⟨s.editor, s.translator.view, s.recorder⟩

def step (s : TranslatedSession) (b : RegisterBank) : Session.Input → TranslatedSession
  | .press k => (s.press b k).1.1
  | .sync t cursor => s.syncText t cursor

/-- Each input comes with the registers that it finds. -/
def run (s : TranslatedSession) : List (RegisterBank × Session.Input) → TranslatedSession
  | [] => s
  | (b, i) :: rest => (s.step b i).run rest

inductive Reachable : TranslatedSession → Prop where
  | opened (t : Text) (m : Mode) (cursor undoLevels : Nat) :
      Reachable (.ofText t m cursor undoLevels)
  | next (b : RegisterBank) (i : Session.Input) : Reachable s → Reachable (s.step b i)

variable {s : TranslatedSession}

theorem Reachable.run (reached : Reachable s) (inputs : List (RegisterBank × Session.Input)) :
    Reachable (s.run inputs) := by
  induction inputs generalizing s with
  | nil => exact reached
  | cons input rest ih => exact ih (reached.next input.1 input.2)

/-- A press does what it does without the translator, and keeps what is typed legal. -/
theorem press_view (legal : s.translator.Legal) (b : RegisterBank) (k : KeyPress) :
    ((s.press b k).1.1.view, (s.press b k).1.2) = (s.view.press b k).1 ∧
      (s.press b k).2 = (s.view.press b k).2 ∧ (s.press b k).1.1.translator.Legal := by
  have read : s.view.pending.press s.view.editor.mode k =
    s.translator.view.press s.editor.mode k := rfl
  rcases Translator.translate_cases legal s.editor.mode k with ⟨c, reading, translated⟩ |
      ⟨τ, reading, translated, legal'⟩ | ⟨reading, translated⟩
  · rw [reading] at read
    simp only [press, translated, Session.press, read]
    exact ⟨rfl, rfl, Translator.legal_empty⟩
  · rw [reading] at read
    simp only [press, translated, Session.press, read]
    exact ⟨rfl, trivial, legal'⟩
  · rw [reading] at read
    simp only [press, translated, Session.press, read]
    exact ⟨rfl, trivial, Translator.legal_empty⟩

theorem step_view (legal : s.translator.Legal) (b : RegisterBank) (i : Session.Input) :
    (s.step b i).view = s.view.step b i ∧ (s.step b i).translator.Legal := by
  cases i with
  | press k =>
    obtain ⟨same, _, legal'⟩ := press_view legal b k
    exact ⟨congrArg Prod.fst same, legal'⟩
  | sync t cursor => exact ⟨rfl, Translator.legal_empty⟩

theorem Reachable.view (reached : Reachable s) : s.translator.Legal ∧ s.view.Reachable := by
  induction reached with
  | opened t m cursor undoLevels => exact ⟨Translator.legal_empty, .opened t m cursor undoLevels⟩
  | next b i _ ih =>
    obtain ⟨legal, before⟩ := ih
    obtain ⟨same, legal'⟩ := step_view legal b i
    exact ⟨legal', same ▸ before.next b i⟩

/-- The states that a session can be in are the ones that it comes to with a translator. -/
theorem reachable_iff_exists_view (t : Session) :
    t.Reachable ↔ ∃ s : TranslatedSession, s.Reachable ∧ s.view = t := by
  constructor
  · intro reached
    induction reached with
    | opened text m cursor undoLevels => exact ⟨_, .opened text m cursor undoLevels, rfl⟩
    | next b i _ ih =>
      obtain ⟨s, before, rfl⟩ := ih
      exact ⟨s.step b i, before.next b i, (step_view before.view.1 b i).1⟩
  · rintro ⟨s, reached, rfl⟩
    exact reached.view.2

/-- A session does what it does with a translator, and in every state what has been typed of a command
belongs together, and to the mode. A key that asks for more leaves some of a command typed, unless it is
the escape key; any other one leaves nothing. A command that is performed has a meaning in the mode,
except for a redo. -/
theorem typed_keys_fit_mode :
    (∀ t : Session, t.Reachable ↔ ∃ s : TranslatedSession, s.Reachable ∧ s.view = t) ∧
    ∀ s : TranslatedSession, s.Reachable →
      s.translator.Consistent s.editor.mode ∧
      ∀ b k,
        ((s.press b k).1.1.view, (s.press b k).1.2) = (s.view.press b k).1 ∧
        (s.press b k).2 = (s.view.press b k).2 ∧
        ((s.press b k).2 = .awaitingMore → k.isEscape = false →
          (s.press b k).1.1.translator.isIdle = false) ∧
        ((s.press b k).2 = .unhandled → (s.press b k).1.1.translator.isIdle = true) ∧
        ∀ c outcome, (s.press b k).2 = .performed c outcome →
          (s.press b k).1.1.translator.isIdle = true ∧
            (c.kind ≠ .redo → c.kind.HasMeaning s.editor.mode) := by
  refine ⟨reachable_iff_exists_view, fun s reached => ?_⟩
  obtain ⟨legal, reached'⟩ := reached.view
  refine ⟨legal.consistent reached'.consistent, fun b k => ?_⟩
  obtain ⟨same, answer, legal'⟩ := press_view legal b k
  have typed : (s.press b k).1.1.translator.view = (s.view.press b k).1.1.pending :=
    congrArg (·.1.pending) same
  obtain ⟨more, senseless, performed⟩ := reached'.press_fits b k
  rw [← answer, ← typed] at more senseless
  simp only [← answer, ← typed] at performed
  refine ⟨same, answer, fun awaits stays => ?_, fun unhandled => ?_, fun c outcome done => ?_⟩
  · exact Bool.eq_false_iff.mpr fun idle =>
      more awaits stays ((Translator.isIdle_iff legal').mp idle)
  · exact (Translator.isIdle_iff legal').mpr (senseless unhandled)
  · obtain ⟨nothing, meant⟩ := performed c outcome done
    exact ⟨(Translator.isIdle_iff legal').mpr nothing, meant⟩

/-- An operator with two counts and a register that awaits the name of a text object, and gets
it. -/
theorem typed_keys_fit_mode_object :
    let s := (ofText ['a', ' ', 'b'] .normal 0 100).run
      (['3', '\x22', 'a', 'd', '2', 'i'].map fun c => ({}, .press (.char c)))
    s.Reachable ∧ s.translator.Consistent s.editor.mode ∧
      s.translator = ⟨some 3, some .delete, some 2, some (.letter 0 false), false,
        some (.objectName true)⟩ ∧
      (s.press {} (.char 'w')).1.1.translator.isIdle = true ∧
      Command.Kind.operate.HasMeaning s.editor.mode := by
  intro s
  have reached : s.Reachable := (Reachable.opened _ _ _ _).run _
  obtain ⟨consistent, pressed⟩ := typed_keys_fit_mode.2 s reached
  obtain ⟨_, _, _, _, performed⟩ := pressed {} (.char 'w')
  have deleted : (s.press {} (.char 'w')).2 = .performed
      (.edit (.operate .delete (.object ⟨.word .word, true⟩) (some (.letter 0 false))) 6)
      .edited := by decide
  obtain ⟨idle, meant⟩ := performed _ _ deleted
  exact ⟨reached, consistent, by decide, idle, meant nofun⟩

end TranslatedSession

end ModalEdit
