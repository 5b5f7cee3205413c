import ModalEdit.Proofs.Operating
import ModalEdit.Proofs.Reachable
import ModalEdit.Proofs.RegisterWrite

/-! The clipboard and the register that stands for it. The register is written at once, the
clipboard only when the request has its turn, and a refresh brings back what the clipboard holds by
then. So a refresh that waits ahead of a write brings back the text of before the write. -/
namespace ModalEdit.RegisterBank

/-- What keys and hosts do with the registers. -/
inductive Use where
  | write (t : Text) (linewise : Bool) (target : Option RegisterName)
  | set (name : RegisterName) (r : Register)
  | read (target : Option RegisterName)
deriving DecidableEq, Repr

inductive Event where
  | use (u : Use)
  /-- The clipboard takes up a request. -/
  | work
deriving DecidableEq, Repr

def act (b : RegisterBank) : Use → RegisterBank
  | .write t linewise target => b.write t linewise target
  | .set name r => b.set name r
  | .read target => (b.read target).1

def step (s : RegisterBank × Clipboard) : Event → RegisterBank × Clipboard
  | .use u => (s.1.act u, s.2)
  | .work => s.1.work s.2

def run (s : RegisterBank × Clipboard) (events : List Event) : RegisterBank × Clipboard :=
  events.foldl step s

/-- What a use asks of the clipboard, if the `usual` name stands in for none: a write to the register
of the clipboard stores its text, and a read from it is followed by a refresh. -/
def Use.request? (usual : RegisterName) : Use → Option Clipboard.Request
  | .write t linewise target =>
    if target.getD usual = .clipboard then some (.store (Register.of t linewise).content) else none
  | .set name r => if name = .clipboard then some (.store r.content) else none
  | .read target => if target.getD usual = .clipboard then some .refresh else none

def Event.request? (usual : RegisterName) : Event → Option Clipboard.Request
  | .use u => u.request? usual
  | .work => none

/-- The requests that wait, oldest first. -/
def queue (b : RegisterBank) : List Clipboard.Request := b.bridge?.elim [] (·.queue)

/-- There is a clipboard, and it does what it is asked. -/
def Answers (s : RegisterBank × Clipboard) : Prop :=
  s.1.bridge? = some ⟨true, s.1.queue⟩ ∧ s.2.failing = false

/-! ### What waits -/

/-- The clipboard and its register once the requests have been worked off. -/
def outlook : List Clipboard.Request → Text → Option Register → Text × Option Register
  | [], t, r => (t, r)
  | .store t :: rest, _, r => outlook rest t r
  | .refresh :: rest, t, _ => outlook rest t (some (.of t t.endsInBreak))

section outlook

variable (queue : List Clipboard.Request) (t : Text) (r : Option Register)

theorem outlook_append_store (t' : Text) :
    outlook (queue ++ [.store t']) t r = (t', (outlook queue t r).2) := by
  induction queue generalizing t r with
  | nil => rfl
  | cons request rest ih => cases request <;> exact ih _ _

theorem outlook_append_refresh :
    outlook (queue ++ [.refresh]) t r =
      ((outlook queue t r).1, some (.of (outlook queue t r).1 (outlook queue t r).1.endsInBreak)) := by
  induction queue generalizing t r with
  | nil => rfl
  | cons request rest ih => cases request <;> exact ih _ _

theorem outlook_of_no_refresh {queue : List Clipboard.Request} (none : .refresh ∉ queue) :
    (outlook queue t r).2 = r := by
  induction queue generalizing t with
  | nil => rfl
  | cons request rest ih =>
    cases request with
    | store t' => exact ih t' (List.not_mem_of_not_mem_cons none)
    | refresh => exact absurd List.mem_cons_self none

/-- A refresh that waits takes the place of whatever the register holds. -/
theorem outlook_of_refresh {queue : List Clipboard.Request} (waits : .refresh ∈ queue)
    (r r' : Option Register) : (outlook queue t r).2 = (outlook queue t r').2 := by
  induction queue generalizing t with
  | nil => cases waits
  | cons request rest ih =>
    cases request with
    | store t' => exact ih t' ((List.mem_cons.mp waits).resolve_left nofun)
    | refresh => rfl

end outlook

variable {s : RegisterBank × Clipboard}

/-- The clipboard and its register once all that waits has been worked off. -/
def prospect (s : RegisterBank × Clipboard) : Text × Option Register :=
  outlook s.1.queue s.2.contents (s.1.get .clipboard)

/-! ### Steps -/

/-- What a use with the given request makes of the registers: the request waits behind the others,
and the register of the clipboard holds at once what the request is to store. -/
inductive Asked (b : RegisterBank) : Option Clipboard.Request → RegisterBank → Prop where
  | nothing (same : rs.get .clipboard = b.store.get .clipboard) :
      Asked b none { b with store := rs }
  | store (stored : rs.get .clipboard = some r) :
      Asked b (some (.store r.content))
        (({ b with store := rs } : RegisterBank).request (.store r.content))
  | refresh : Asked b (some .refresh) (b.request .refresh)

theorem Asked.bridge {b b' : RegisterBank} (asked : Asked b request? b')
    (waits : b.bridge? = some ⟨true, ahead⟩) :
    b'.bridge? = some ⟨true, ahead ++ request?.toList⟩ ∧
      b'.clipboardByDefault = b.clipboardByDefault := by
  cases asked with
  | nothing => exact ⟨by simp [waits], rfl⟩
  | store | refresh => exact ⟨by simp [request, waits], rfl⟩

theorem Asked.get_of_store {b b' : RegisterBank} (asked : Asked b (some (.store t)) b') :
    ∃ r, b'.get .clipboard = some r ∧ r.content = t := by
  cases asked with
  | store stored => exact ⟨_, stored, rfl⟩

theorem Asked.get_of_ne_store {b b' : RegisterBank} (asked : Asked b request? b')
    (other : ∀ t, request? ≠ some (.store t)) : b'.get .clipboard = b.get .clipboard := by
  cases asked with
  | nothing same => exact same
  | store => exact absurd rfl (other _)
  | refresh => rfl

theorem set_clipboard (rs : Registers) (name : RegisterName) (r : Register) :
    (rs.set name r).get .clipboard = if name = .clipboard then some r else rs.get .clipboard := by
  cases name with
  | clipboard => simp [Registers.set, RegisterName.appends, RegisterName.slot]
  | unnamed => rfl
  | letter l append =>
    simp only [Registers.set, RegisterName.slot, reduceCtorEq, if_false]
    split <;> exact Registers.get_put_of_ne _ _ nofun

theorem record_clipboard (rs : Registers) (target : Option RegisterName) (r : Register) :
    (rs.record target r).1.get .clipboard =
      if target = some .clipboard then some r else rs.get .clipboard := by
  have apart : Slot.unnamed ≠ .clipboard := nofun
  simp only [Registers.record]
  rw [Registers.get_put_of_ne _ _ apart, set_clipboard]
  cases target <;> simp

theorem act_asked (answers : Answers s) (u : Use) :
    Asked s.1 (u.request? s.1.defaultName) (s.1.act u) := by
  have usual : s.1.defaultName = if s.1.clipboardByDefault then .clipboard else .unnamed := by
    simp [defaultName, answers.1]
  cases u with
  | write t linewise target =>
    rw [usual]
    have stored := record_clipboard s.1.store target (.of t linewise)
    cases target with
    | none =>
      simp only [act, write, Use.request?, Option.isNone_none, Bool.true_and, Option.getD_none]
      by_cases byDefault : s.1.clipboardByDefault = true
      · rw [if_pos byDefault, if_pos byDefault]
        exact .store (set_clipboard _ .clipboard (.of t linewise))
      · rw [if_neg byDefault, if_neg byDefault]
        exact .nothing stored
    | some name =>
      -- A name that is given goes before the clipboard that yanks without one use too.
      simp only [act, write, Use.request?, Option.isNone_some, Bool.false_and, Option.getD_some]
      cases name with
      | clipboard => exact .store stored
      | unnamed | letter => exact .nothing stored
  | set name r =>
    have stored := set_clipboard s.1.store name r
    cases name with
    | clipboard => exact .store stored
    | unnamed | letter => exact .nothing stored
  | read target =>
    simp only [act, read, Use.request?]
    split
    · exact .refresh
    · exact .nothing rfl

theorem act_kept (answers : Answers s) (u : Use) :
    Answers (s.1.act u, s.2) ∧
      (s.1.act u).queue = s.1.queue ++ (u.request? s.1.defaultName).toList ∧
      (s.1.act u).defaultName = s.1.defaultName := by
  obtain ⟨bridge, byDefault⟩ := (act_asked answers u).bridge answers.1
  have waits : (s.1.act u).queue = s.1.queue ++ (u.request? s.1.defaultName).toList := by
    simp only [queue, bridge, Option.elim_some]
  refine ⟨⟨by rw [waits, bridge], answers.2⟩, waits, ?_⟩
  simp only [defaultName, bridge, byDefault, answers.1, Option.isSome_some]

theorem work_kept (answers : Answers s) :
    Answers (s.1.work s.2) ∧ (s.1.work s.2).1.queue = s.1.queue.tail ∧
      (s.1.work s.2).1.defaultName = s.1.defaultName ∧
      prospect (s.1.work s.2) = prospect s := by
  obtain ⟨bridge, succeeds⟩ := answers
  cases waits : s.1.queue with
  | nil =>
    have idle : s.1.work s.2 = s := by simp only [work, bridge, waits]
    rw [idle]
    exact ⟨⟨bridge, succeeds⟩, waits, rfl, rfl⟩
  | cons oldest rest =>
    rw [waits] at bridge
    simp only [Answers, prospect, waits, defaultName, bridge]
    cases oldest <;>
      simp only [work, bridge, Clipboard.handle, succeeds, if_true, Bool.false_eq_true, if_false] <;>
      exact ⟨⟨rfl, trivial⟩, rfl, rfl, rfl⟩

theorem Answers.waiting (answers : Answers s) : s.1.waiting = s.1.queue.length := by
  simp only [RegisterBank.waiting, answers.1, Option.elim_some]

/-- The prospect is what working off all that waits comes to. -/
theorem prospect_of_drain (answers : Answers s) :
    ((s.1.drain s.2).2.contents, (s.1.drain s.2).1.get .clipboard) = prospect s := by
  rw [drain, answers.waiting]
  generalize length : s.1.queue.length = n
  induction n generalizing s with
  | zero => rw [prospect, List.length_eq_zero_iff.mp length, outlook, workMany]
  | succ n ih =>
    obtain ⟨still, rest, _, same⟩ := work_kept answers
    have first : workMany (n + 1) s.1 s.2 =
        workMany n (s.1.work s.2).1 (s.1.work s.2).2 := rfl
    rw [first, ← same]
    exact ih still (by rw [rest, List.length_tail, length, Nat.add_sub_cancel])

/-! ### Runs -/

theorem Answers.step (answers : Answers s) (e : Event) : Answers (step s e) := by
  cases e with
  | use u => exact (act_kept answers u).1
  | work => exact (work_kept answers).1

theorem step_defaultName (answers : Answers s) (e : Event) :
    (step s e).1.defaultName = s.1.defaultName := by
  cases e with
  | use u => exact (act_kept answers u).2.2
  | work => exact (work_kept answers).2.2.1

theorem prospect_act (answers : Answers s) (u : Use) :
    prospect (s.1.act u, s.2) = outlook (s.1.queue ++ (u.request? s.1.defaultName).toList)
      s.2.contents ((s.1.act u).get .clipboard) := by
  rw [prospect, (act_kept answers u).2.1]

/-- That the clipboard takes up a request does not change what is to be expected. -/
theorem prospect_of_none (answers : Answers s) (nothing : e.request? s.1.defaultName = none) :
    prospect (step s e) = prospect s := by
  cases e with
  | work => exact (work_kept answers).2.2.2
  | use u =>
    simp only [Event.request?] at nothing
    have register := (act_asked answers u).get_of_ne_store (by simp [nothing])
    rw [step, prospect_act answers, nothing, register, Option.toList_none, List.append_nil,
      prospect]

theorem prospect_of_refresh (answers : Answers s)
    (fetches : e.request? s.1.defaultName = some .refresh) :
    prospect (step s e) =
      ((prospect s).1, some (.of (prospect s).1 (prospect s).1.endsInBreak)) := by
  cases e with
  | work => cases fetches
  | use u =>
    simp only [Event.request?] at fetches
    have register := (act_asked answers u).get_of_ne_store (by simp [fetches])
    rw [step, prospect_act answers, fetches, register, Option.toList_some, outlook_append_refresh,
      prospect]

/-- A refresh that waits ahead of a write undoes it in the register. -/
theorem prospect_of_store (answers : Answers s)
    (stores : e.request? s.1.defaultName = some (.store t)) :
    (prospect (step s e)).1 = t ∧
      (.refresh ∈ s.1.queue → (prospect (step s e)).2 = (prospect s).2) ∧
      (.refresh ∉ s.1.queue → ∃ r, (prospect (step s e)).2 = some r ∧ r.content = t) := by
  cases e with
  | work => cases stores
  | use u =>
    simp only [Event.request?] at stores
    obtain ⟨r, there, holds⟩ := (stores ▸ act_asked answers u).get_of_store
    rw [step, prospect_act answers, stores, Option.toList_some, outlook_append_store]
    refine ⟨rfl, fun waits => outlook_of_refresh _ waits _ _, fun none => ?_⟩
    exact ⟨r, (outlook_of_no_refresh _ _ none).trans there, holds⟩

/-- As long as nothing is written, the clipboard is expected to keep its text, and the register what it
holds, unless a refresh makes it agree with the clipboard. -/
theorem prospect_of_unwritten (answers : Answers s) (events : List Event)
    (latest : ∀ e ∈ events, ∀ t, e.request? s.1.defaultName ≠ some (.store t)) :
    prospect (run s events) = ((prospect s).1,
      if ∃ e ∈ events, e.request? s.1.defaultName = some .refresh then
        some (.of (prospect s).1 (prospect s).1.endsInBreak)
      else (prospect s).2) := by
  induction events generalizing s with
  | nil => simp [run]
  | cons e rest ih =>
    have later : ∀ e' ∈ rest, ∀ t, e'.request? (step s e).1.defaultName ≠ some (.store t) := by
      rw [step_defaultName answers]
      exact fun e' member => latest e' (List.mem_cons_of_mem e member)
    have along := ih (answers.step e) later
    rw [step_defaultName answers] at along
    simp only [run, List.foldl_cons] at along ⊢
    cases request : e.request? s.1.defaultName with
    | none =>
      rw [prospect_of_none answers request] at along
      simpa [request] using along
    | some r =>
      cases r with
      | store t => exact absurd request (latest e List.mem_cons_self t)
      | refresh =>
        -- From here on the register agrees with the clipboard, whatever it held before.
        rw [prospect_of_refresh answers request] at along
        simpa [request] using along

theorem prospect_run (answers : Answers s) (events : List Event)
    (latest : ∀ e ∈ events, ∀ t, e.request? s.1.defaultName ≠ some (.store t)) :
    (prospect (run s events)).1 = (prospect s).1 ∧
      ((∀ e ∈ events, e.request? s.1.defaultName ≠ some .refresh) →
        (prospect (run s events)).2 = (prospect s).2) ∧
      ((∃ e ∈ events, e.request? s.1.defaultName = some .refresh) ∨
          (∃ r, (prospect s).2 = some r ∧ r.content = (prospect s).1) →
        ∃ r, (prospect (run s events)).2 = some r ∧ r.content = (prospect s).1) := by
  rw [prospect_of_unwritten answers events latest]
  refine ⟨rfl, fun unasked => if_neg ?_, fun agrees => ?_⟩
  · rintro ⟨e, member, fetch⟩
    exact unasked e member fetch
  · dsimp only
    split
    · exact ⟨_, rfl, congrArg Register.content (Register.of_endsInBreak _)⟩
    · rename_i unasked
      exact agrees.resolve_left unasked

theorem run_kept (answers : Answers s) (events : List Event) :
    Answers (run s events) ∧ (run s events).1.defaultName = s.1.defaultName := by
  induction events generalizing s with
  | nil => exact ⟨answers, rfl⟩
  | cons e rest ih =>
    have along := ih (answers.step e)
    rw [step_defaultName answers] at along
    exact along

theorem run_append (s : RegisterBank × Clipboard) (before after : List Event) :
    run s (before ++ after) = run (run s before) after :=
  List.foldl_append

theorem prospect_of_idle (answers : Answers s) (idle : s.1.waiting = 0) :
    prospect s = (s.2.contents, s.1.get .clipboard) := by
  have none : s.1.queue = [] := List.length_eq_zero_iff.mp (answers.waiting ▸ idle)
  rw [prospect, none, outlook]

/-- Once all requests have been worked off, the clipboard holds the text that was last written to
its register. So does the register, unless a refresh was already waiting when the text was written
and none was asked for after it: then the register is left with what that refresh brought. -/
theorem clipboard_holds_last_write (answers : Answers s) (before after : List Event) (last : Event)
    (written : last.request? s.1.defaultName = some (.store t))
    (latest : ∀ e ∈ after, ∀ t', e.request? s.1.defaultName ≠ some (.store t'))
    (idle : (run s (before ++ last :: after)).1.waiting = 0) :
    let earlier := run s before
    let now := run s (before ++ last :: after)
    let overtaken := .refresh ∈ earlier.1.queue ∧
      ∀ e ∈ after, e.request? s.1.defaultName ≠ some .refresh
    now.2.contents = t ∧
      (¬overtaken → ∃ r, now.1.get .clipboard = some r ∧ r.content = t) ∧
      (overtaken → now.1.get .clipboard = (earlier.1.drain earlier.2).1.get .clipboard) := by
  intro earlier now overtaken
  obtain ⟨answersBefore, usual⟩ := run_kept answers before
  obtain ⟨answersNow, _⟩ := run_kept answers (before ++ last :: after)
  have after_last : now = run (step earlier last) after := run_append s before (last :: after)
  have usualNext : (step earlier last).1.defaultName = s.1.defaultName :=
    (step_defaultName answersBefore last).trans usual
  obtain ⟨text, undone, kept⟩ := prospect_of_store answersBefore (usual ▸ written)
  obtain ⟨textNow, unfetched, agrees⟩ := prospect_run (answersBefore.step last) after
    (by rwa [usualNext])
  rw [usualNext] at unfetched agrees
  rw [← after_last, prospect_of_idle answersNow idle, text] at textNow agrees
  rw [← after_last, prospect_of_idle answersNow idle] at unfetched
  refine ⟨textNow, fun still => agrees ?_, fun ⟨waits, unasked⟩ => ?_⟩
  · by_cases fetched : ∃ e ∈ after, e.request? s.1.defaultName = some .refresh
    · exact .inl fetched
    · refine .inr (kept fun waits => still ⟨waits, fun e member fetch => fetched ⟨e, member, fetch⟩⟩)
  · have drained := congrArg Prod.snd (prospect_of_drain answersBefore)
    exact ((unfetched unasked).trans (undone waits)).trans drained.symm

/-- A paste, a yank and another paste before the clipboard has taken up anything. -/
theorem clipboard_holds_last_write_after_paste :
    let s : RegisterBank × Clipboard :=
      ({ bridge? := some ⟨true, []⟩ }, { contents := ['o', 'l', 'd'] })
    let paste : Event := .use (.read (some .clipboard))
    let yank : Event := .use (.write ['n', 'e', 'w'] false (some .clipboard))
    let now := run s ([paste] ++ yank :: [paste, .work, .work, .work])
    Answers s ∧ yank.request? s.1.defaultName = some (.store ['n', 'e', 'w']) ∧
      now.1.waiting = 0 ∧ now.2.contents = ['n', 'e', 'w'] ∧
      ∃ r, now.1.get .clipboard = some r ∧ r.content = ['n', 'e', 'w'] := by
  intro s paste yank now
  have answers : Answers s := ⟨rfl, rfl⟩
  have idle : now.1.waiting = 0 := by decide
  obtain ⟨text, register, _⟩ := clipboard_holds_last_write answers [paste]
    [paste, .work, .work, .work] yank rfl (by simp [paste, Event.request?, Use.request?]) idle
  refine ⟨answers, rfl, idle, text, register fun ⟨_, unasked⟩ => ?_⟩
  exact unasked paste List.mem_cons_self rfl

/-- A yank while the refresh of an earlier paste waits: the clipboard receives the new text, but the
register ends up with the old one. -/
theorem clipboard_register_loses_last_write :
    let s : RegisterBank × Clipboard :=
      ({ bridge? := some ⟨true, []⟩ }, { contents := ['o', 'l', 'd'] })
    let now := run s [.use (.read (some .clipboard)),
      .use (.write ['n', 'e', 'w'] false (some .clipboard)), .work, .work]
    Answers s ∧ now.1.waiting = 0 ∧ now.2.contents = ['n', 'e', 'w'] ∧
      now.1.get .clipboard = some ⟨['o', 'l', 'd'], false⟩ := by
  refine ⟨⟨rfl, rfl⟩, ?_⟩
  decide

/-! ### Where the requests come from -/

/-- At most one use. -/
def UsedOnce (b b' : RegisterBank) : Prop := b' = b ∨ ∃ u, b' = b.act u

/-- What a command does with the registers: it leaves them alone, or it writes to them or reads from
them once. -/
inductive Handled (b : RegisterBank) : RegisterBank → Prop where
  | kept : Handled b b
  | written (t : Text) (linewise : Bool) (target : Option RegisterName) :
      Handled b (b.write t linewise target)
  | fetched (target : Option RegisterName) : Handled b (b.read target).1

theorem Handled.usedOnce {b b' : RegisterBank} (handled : Handled b b') : UsedOnce b b' := by
  cases handled with
  | kept => exact .inl rfl
  | written t linewise target => exact .inr ⟨.write t linewise target, rfl⟩
  | fetched target => exact .inr ⟨.read target, rfl⟩

end ModalEdit.RegisterBank

namespace ModalEdit

open RegisterBank (Handled UsedOnce)

namespace Workspace

variable {w : Workspace}

theorem operateOn_handled (op : Operator) (x : Extent) (register : Option RegisterName) :
    Handled w.registers (w.operateOn op x register).1.registers := by
  cases op with
  | yank =>
    simp only [operateOn, yank]
    split
    · exact .kept
    · exact .written _ _ _
  | delete =>
    simp only [operateOn, delete]
    split
    · exact .kept
    · exact .written _ _ _
  | change =>
    simp only [operateOn, change]
    split
    · exact .kept
    · exact .written _ _ _

theorem doEdit_handled (count : Nat) (edit : Edit) :
    Handled w.registers (w.doEdit count edit).1.registers := by
  cases operator : edit.isOperator with
  | false =>
    rcases doEdit_registers_cases w count operator with kept | ⟨name?, fetched⟩
    · rw [kept]
      exact .kept
    · rw [fetched]
      exact .fetched name?
  | true =>
    cases edit with
    | operate op target register =>
      obtain ⟨f?, same | ⟨_, x, r, _, same, _⟩⟩ := operate_cases w op target count register
      · rw [doEdit, same]
        exact .kept
      · rw [doEdit, same]
        exact operateOn_handled (w := w.withFind f?) op x register
    | _ => cases operator

/-- Whatever a command does, it writes to the registers or reads from them at most once. -/
theorem perform_handled (c : Command) : Handled w.registers (w.perform c).1.registers := by
  cases c with
  | edit e count => exact doEdit_handled count e
  | operateSelection op register =>
    rcases operateSelection_cases w op register with same | ⟨_, s, i, _, _, same⟩
    · rw [perform, same]
      exact .kept
    · let normal := { w with editor := { w.editor.setMode .normal with cursor := i } }
      rw [perform, same]
      exact operateOn_handled (w := normal) op _ register
  | repeatLast count? =>
    simp only [perform, repeatLast, inMode]
    split
    · split
      · exact .kept
      · rename_i c _
        rw [(retype_bystander _ c).1]
        exact doEdit_handled _ c.edit
    · exact .kept
  | _ =>
    rw [(w.perform_bystander rfl).1]
    exact .kept

end Workspace

theorem Session.press_handled (s : Session) (b : RegisterBank) (k : KeyPress) :
    Handled b (s.press b k).1.2 := by
  rcases s.press_cases b k with ⟨c, _, _, after⟩ | ⟨_, p, after⟩
  · rw [after]
    exact Workspace.perform_handled (w := s.workspace b) c
  · rw [after]
    exact .kept

namespace Engine

theorem press_handled (e : Engine) (id : SessionId) (k : KeyPress) :
    Handled e.registers (e.press id k).1.registers := by
  simp only [press]
  split
  · exact .kept
  · exact Session.press_handled _ _ k

/-- Whatever session a key is for, the registers are used at most once. -/
theorem press_usedOnce (e : Engine) (id : SessionId) (k : KeyPress) :
    UsedOnce e.registers (e.press id k).1.registers := (e.press_handled id k).usedOnce

theorem setRegister_usedOnce (e : Engine) (name : Char) (t : Text) (linewise : Bool) :
    UsedOnce e.registers (e.setRegister name t linewise).1.registers := by
  simp only [setRegister]
  split
  · exact .inl rfl
  · exact .inr ⟨.set _ _, rfl⟩

end Engine

end ModalEdit
