import ModalEdit.Proofs.Isolation

/-! A clipboard that does not work. Requests to it pile up or come to nothing, but as long as yanks
and pastes without a name stay away from it, nothing that a host can see tells the engine from one
that was never connected to a clipboard. -/
namespace ModalEdit

namespace RegisterBank

/-- The same registers without a connection to the clipboard. -/
def disconnect (b : RegisterBank) : RegisterBank := { b with bridge? := none }

/-- There is a connection to the clipboard, but nothing at its other end, or a clipboard that
refuses every request. -/
def Broken (b : RegisterBank) (c : Clipboard) : Prop :=
  ∃ available queue, b.bridge? = some ⟨available, queue⟩ ∧ (available = true → c.failing = true)

variable {b : RegisterBank} {c : Clipboard}

theorem disconnect_request (b : RegisterBank) (r : Clipboard.Request) :
    b.disconnect.request r = (b.request r).disconnect :=
  request_of_unconnected (b := b.disconnect) rfl r

theorem disconnect_set (b : RegisterBank) (name : RegisterName) (r : Register) :
    b.disconnect.set name r = (b.set name r).disconnect := by
  simp only [set]
  split
  · exact disconnect_request { b with store := b.store.set name r } _
  · rfl

/-- What is written does not depend on the connection. -/
theorem disconnect_write (b : RegisterBank) (t : Text) (linewise : Bool)
    (target : Option RegisterName) :
    b.disconnect.write t linewise target = (b.write t linewise target).disconnect := by
  let stored : RegisterBank := { b with store := (b.store.record target (.of t linewise)).1 }
  by_cases mirrored : (target.isNone && b.clipboardByDefault) = true
  · simp only [write, disconnect, mirrored, if_true]
    exact disconnect_set stored .clipboard (.of t linewise)
  · simp only [write, disconnect, mirrored]
    cases (b.store.record target (.of t linewise)).2 with
    | none => rfl
    | some sent => exact disconnect_request stored (.store sent.content)

/-- What a paste finds does not depend on the connection, unless pastes without a name use it. -/
theorem disconnect_read (own : b.clipboardByDefault = false) (target : Option RegisterName) :
    b.disconnect.read target = ((b.read target).1.disconnect, (b.read target).2) := by
  have usual : b.disconnect.defaultName = b.defaultName := by
    simp [defaultName, disconnect, own]
  simp only [read, usual]
  split
  · rw [disconnect_request]
    rfl
  · rfl

theorem act_clipboardByDefault (b : RegisterBank) (u : Use) :
    (b.act u).clipboardByDefault = b.clipboardByDefault := by
  cases u with
  | write t linewise target => exact b.write_clipboardByDefault t linewise target
  | set name r =>
    simp only [act, set]
    split <;> rfl
  | read target =>
    simp only [act, read]
    split <;> rfl

theorem Broken.request (broken : b.Broken c) (r : Clipboard.Request) : (b.request r).Broken c := by
  obtain ⟨available, queue, bridge, refuses⟩ := broken
  refine ⟨available, queue ++ [r], ?_, refuses⟩
  rw [RegisterBank.request, bridge]
  rfl

theorem Broken.set (broken : b.Broken c) (name : RegisterName) (r : Register) :
    (b.set name r).Broken c := by
  have stored : Broken { b with store := b.store.set name r } c := broken
  simp only [RegisterBank.set]
  split
  · exact stored.request _
  · exact stored

theorem Broken.act (broken : b.Broken c) (u : Use) : (b.act u).Broken c := by
  cases u with
  | write t linewise target =>
    have recorded : Broken { b with store := (b.store.record target (.of t linewise)).1 } c := broken
    simp only [RegisterBank.act, write]
    split
    · exact recorded.set _ _
    · split
      · exact recorded.request _
      · exact recorded
  | set name r => exact broken.set name r
  | read target =>
    simp only [RegisterBank.act, read]
    split
    · exact broken.request _
    · exact broken

/-- A request that comes to nothing leaves the queue, and that is all. -/
theorem Broken.work (broken : b.Broken c) :
    (b.work c).1.Broken c ∧ (b.work c).1.disconnect = b.disconnect ∧ (b.work c).2 = c := by
  obtain ⟨available, queue, bridge, refuses⟩ := broken
  cases queue with
  | nil =>
    have idle : b.work c = (b, c) := by simp only [RegisterBank.work, bridge]
    rw [idle]
    exact ⟨⟨available, [], bridge, refuses⟩, rfl, rfl⟩
  | cons r rest =>
    have dropped : b.work c = ({ b with bridge? := some ⟨available, rest⟩ }, c) := by
      simp only [RegisterBank.work, bridge]
      split
      · rename_i there
        simp only [Clipboard.handle, refuses there, if_true]
      · rfl
    rw [dropped]
    exact ⟨⟨available, rest, rfl, refuses⟩, rfl, rfl⟩

end RegisterBank

namespace Workspace

def disconnect (w : Workspace) : Workspace := { w with registers := w.registers.disconnect }

/-- Both states and outcomes are the same, whether the first state was disconnected before or after. -/
def Unaffected (act : Workspace → Workspace × Outcome) (w : Workspace) : Prop :=
  act w.disconnect = ((act w).1.disconnect, (act w).2)

variable {w : Workspace}

section

variable {act act' : Workspace → Workspace × Outcome}

/-- What is asked before an act does not depend on the connection either. -/
theorem ite_unaffected {p : Workspace → Prop} [DecidablePred p] (same : p w.disconnect ↔ p w)
    (yes : Unaffected act w) (no : Unaffected act' w) :
    Unaffected (fun w => if p w then act w else act' w) w := by
  unfold Unaffected at yes no ⊢
  by_cases holds : p w
  · simp only [same, holds, if_true, yes]
  · simp only [same, holds, if_false, no]

theorem inMode_unaffected (each : Unaffected act w) :
    Unaffected (fun w => w.inMode m (act w)) w :=
  ite_unaffected Iff.rfl each rfl

end

theorem insertText_unaffected (t : Text) : Unaffected (·.insertText t) w :=
  ite_unaffected Iff.rfl rfl (inMode_unaffected rfl)

theorem travel_unaffected (step : Editor → Option Editor) (count : Nat) :
    Unaffected (·.travel step count) w := by
  apply inMode_unaffected
  have there : w.disconnect.editor = w.editor := rfl
  simp only [Unaffected, there]
  cases step w.editor <;> rfl

/-- A command that leaves the registers alone does not look at them either. -/
theorem bystander_unaffected {c : Command} (bystander : c.usesRegisters = false) :
    Unaffected (·.perform c) w := by
  cases c with
  | edit | operateSelection | repeatLast => cases bystander
  | move m count =>
    simp only [Unaffected, perform, move, disconnect]
    split <;> rfl
  | selectObject o count =>
    refine ite_unaffected Iff.rfl ?_ rfl
    have there : w.disconnect.editor = w.editor := rfl
    simp only [Unaffected, there]
    cases (o.resolve w.editor.text w.editor.cursor count).filter (!·.isEmpty) <;> rfl
  | swapAnchor =>
    simp only [Unaffected, perform, swapAnchor, disconnect]
    cases w.editor.anchor? <;> rfl
  | startVisual | startVisualLine => exact ite_unaffected Iff.rfl rfl rfl
  | leaveVisual => exact ite_unaffected Iff.rfl rfl rfl
  | leaveInsert => exact inMode_unaffected rfl
  | insertText t => exact insertText_unaffected t
  | insertBreak => exact insertText_unaffected ['\n']
  | backspace => exact ite_unaffected Iff.rfl rfl (inMode_unaffected rfl)
  | undo count => exact travel_unaffected Editor.undo? count
  | redo count => exact travel_unaffected Editor.redo? count

theorem operateOn_unaffected (op : Operator) (x : Extent) (register : Option RegisterName) :
    Unaffected (·.operateOn op x register) w := by
  have written := w.registers.disconnect_write (w.editor.text.slice x.span) x.linewise register
  cases op with
  | yank =>
    refine ite_unaffected Iff.rfl rfl ?_
    simp only [Unaffected, disconnect, written]
  | delete =>
    refine ite_unaffected Iff.rfl rfl ?_
    simp only [Unaffected, disconnect, written]
  | change =>
    refine ite_unaffected Iff.rfl rfl ?_
    simp only [Unaffected, disconnect, written]

theorem operate_unaffected (op : Operator) (target : Target) (count : Nat)
    (register : Option RegisterName) : Unaffected (·.operate op target count register) w := by
  have aimed : w.disconnect.aim target = (w.aim target).disconnect := by
    cases target <;> rfl
  have there : (w.aim target).disconnect.editor = (w.aim target).editor := rfl
  apply inMode_unaffected
  simp only [Unaffected, aimed, there]
  cases targetExtent? (w.aim target).editor target count with
  | none => rfl
  | some x =>
    have done : (w.aim target).disconnect.operateOn op x register = _ :=
      operateOn_unaffected op x register
    dsimp only
    rw [done]
    cases op with
    | delete =>
      dsimp only
      split <;> rfl
    | yank | change => rfl

theorem operateSelection_unaffected (op : Operator) (register : Option RegisterName) :
    Unaffected (·.operateSelection op register) w := by
  have there : w.disconnect.editor = w.editor := rfl
  simp only [Unaffected, operateSelection, there]
  cases w.editor.selection? with
  | none => rfl
  | some s =>
    by_cases visual : w.editor.mode.isVisual = true
    · simp only [visual, if_true]
      let e := w.editor.setMode .normal
      let start := if op = .yank ∨ !decide (s.kind = .lines) then s.span.start else e.cursor
      have done : ({ w with editor := { e with cursor := start } } : Workspace).disconnect.operateOn
          op ⟨s.span, s.kind = .lines⟩ register = _ := operateOn_unaffected op _ register
      have same : ({ w.disconnect with editor := { e with cursor := start } } : Workspace) =
          ({ w with editor := { e with cursor := start } } : Workspace).disconnect := rfl
      rw [same, done]
    · simp only [visual]
      rfl

theorem paste_unaffected (own : w.registers.clipboardByDefault = false) (before : Bool)
    (count : Nat) (name? : Option RegisterName) : Unaffected (·.paste before count name?) w := by
  apply inMode_unaffected
  have there : w.disconnect.registers = w.registers.disconnect := rfl
  simp only [Unaffected, there, RegisterBank.disconnect_read own]
  cases (w.registers.read name?).2.filter (!·.content.isEmpty) <;> rfl

theorem replaceChar_unaffected (c : Char) (count : Nat) : Unaffected (·.replaceChar c count) w :=
  ite_unaffected Iff.rfl rfl (inMode_unaffected rfl)

theorem joinLines_unaffected (count : Nat) : Unaffected (·.joinLines count) w :=
  ite_unaffected Iff.rfl rfl (inMode_unaffected rfl)

theorem enterInsert_unaffected (entry : InsertEntry) (count : Nat) :
    Unaffected (·.enterInsert entry count) w :=
  inMode_unaffected rfl

theorem doEdit_unaffected (own : w.registers.clipboardByDefault = false) (count : Nat)
    (edit : Edit) : Unaffected (·.doEdit count edit) w := by
  cases edit with
  | operate op target register => exact operate_unaffected op target count register
  | insert entry => exact enterInsert_unaffected entry count
  | replace c => exact replaceChar_unaffected c count
  | paste before register => exact paste_unaffected own before count register
  | joinLines => exact joinLines_unaffected count

theorem followedBy_unaffected {act : Workspace → Workspace × Outcome}
    (each : ∀ w, Unaffected act w) (done : Workspace × Outcome) :
    followedBy (done.1.disconnect, done.2) act =
      ((followedBy done act).1.disconnect, (followedBy done act).2) := by
  have next := each done.1
  unfold Unaffected at next
  simp only [followedBy, next]

theorem retype_unaffected (done : Workspace × Outcome) (c : Change) :
    retype (done.1.disconnect, done.2) c =
      ((retype done c).1.disconnect, (retype done c).2) := by
  have there : done.1.disconnect.editor = done.1.editor := rfl
  simp only [retype, there]
  split
  · rw [followedBy_unaffected fun w => insertText_unaffected (c.typed?.getD [])]
    exact followedBy_unaffected (fun w => bystander_unaffected (c := .leaveInsert) rfl) _
  · rfl

theorem repeatLast_unaffected (own : w.registers.clipboardByDefault = false)
    (count? : Option Nat) : Unaffected (·.repeatLast count?) w := by
  have there : w.disconnect.recorder = w.recorder := rfl
  apply inMode_unaffected
  simp only [Unaffected, there]
  cases w.recorder.last? with
  | none => rfl
  | some c =>
    have done : w.disconnect.doEdit (count?.getD c.count) c.edit = _ := doEdit_unaffected own _ _
    dsimp only
    rw [done, retype_unaffected]

/-- No command notices whether the registers are connected to a clipboard. -/
theorem perform_unaffected (own : w.registers.clipboardByDefault = false) (c : Command) :
    Unaffected (·.perform c) w := by
  cases c with
  | edit e count => exact doEdit_unaffected own count e
  | operateSelection op register => exact operateSelection_unaffected op register
  | repeatLast count? => exact repeatLast_unaffected own count?
  | _ => exact bystander_unaffected rfl

end Workspace

theorem Session.press_disconnect {b : RegisterBank} (own : b.clipboardByDefault = false)
    (s : Session) (k : KeyPress) :
    s.press b.disconnect k =
      (((s.press b k).1.1, (s.press b k).1.2.disconnect), (s.press b k).2) := by
  unfold press
  cases s.pending.press s.editor.mode k with
  | complete c =>
    have done : (s.workspace b).disconnect.perform c = _ :=
      Workspace.perform_unaffected (w := s.workspace b) own c
    have same : (s.workspace b).disconnect = s.workspace b.disconnect := rfl
    rw [same] at done
    simp only [perform, workspace] at done ⊢
    rw [done]
    rfl
  | incomplete p => rfl
  | meaningless => rfl

namespace Engine

/-! ### Runs -/

/-- What a host asks of an engine. -/
inductive Call where
  | openSession (t : Text) (m : Mode) (cursor : Nat)
  | closeSession (id : SessionId)
  | press (id : SessionId) (k : KeyPress)
  | syncText (id : SessionId) (t : Text) (cursor : Nat)
  | setRegister (name : Char) (t : Text) (linewise : Bool)
  | register (name : Char)
deriving DecidableEq, Repr

inductive Answer where
  | opened (id : SessionId)
  | flag (done : Bool)
  | register (r? : Option Register)
deriving DecidableEq, Repr

def call (e : Engine) : Call → Engine × Answer
  | .openSession t m cursor => let (e, id) := e.openSession t m cursor; (e, .opened id)
  | .closeSession id => let (e, done) := e.closeSession id; (e, .flag done)
  | .press id k => let (e, done) := e.press id k; (e, .flag done)
  | .syncText id t cursor => let (e, done) := e.syncText id t cursor; (e, .flag done)
  | .setRegister name t linewise => let (e, done) := e.setRegister name t linewise; (e, .flag done)
  | .register name => (e, .register (e.register? name))

/-- The calls one after the other, with the answers. -/
def callAll (e : Engine) : List Call → Engine × List Answer
  | [] => (e, [])
  | c :: rest =>
    let (e, answer) := e.call c
    let (e, others) := e.callAll rest
    (e, answer :: others)

inductive Event where
  | call (c : Call)
  /-- The clipboard takes up a request. -/
  | work
deriving DecidableEq, Repr

def Event.call? : Event → Option Call
  | call c => some c
  | work => none

def work (e : Engine) (c : Clipboard) : Engine × Clipboard :=
  let (registers, c) := e.registers.work c
  ({ e with registers }, c)

/-- Calls and the work of the clipboard between them, in any order. -/
def runWith (e : Engine) (clipboard : Clipboard) : List Event → (Engine × Clipboard) × List Answer
  | [] => ((e, clipboard), [])
  | .call c :: rest =>
    let (e, answer) := e.call c
    let (after, others) := e.runWith clipboard rest
    (after, answer :: others)
  | .work :: rest =>
    let (e, clipboard) := e.work clipboard
    e.runWith clipboard rest

/-- The same engine without a connection to the clipboard. -/
def disconnect (e : Engine) : Engine := { e with registers := e.registers.disconnect }

variable {e : Engine} {clipboard : Clipboard}

theorem disconnect_call (own : e.registers.clipboardByDefault = false) (c : Call) :
    e.disconnect.call c = ((e.call c).1.disconnect, (e.call c).2) := by
  cases c with
  | openSession | closeSession | register => rfl
  | press id k =>
    have there : e.disconnect.find? id = e.find? id := rfl
    simp only [call, press, there]
    cases e.find? id with
    | none => rfl
    | some s =>
      have pressed : s.press e.disconnect.registers k = _ := Session.press_disconnect own s k
      simp only [pressed]
      rfl
  | syncText id t cursor =>
    have there : e.disconnect.find? id = e.find? id := rfl
    simp only [call, syncText, there]
    cases e.find? id <;> rfl
  | setRegister name t linewise =>
    simp only [call, setRegister]
    cases RegisterName.ofChar? name with
    | none => rfl
    | some name =>
      have stored := e.registers.disconnect_set name (.of t linewise)
      simp only [disconnect, stored]

/-- A call uses the registers at most once. -/
theorem call_usedOnce (e : Engine) (c : Call) :
    RegisterBank.UsedOnce e.registers (e.call c).1.registers := by
  cases c with
  | openSession | closeSession | register => exact .inl rfl
  | press id k => exact e.press_usedOnce id k
  | syncText id t cursor =>
    simp only [call, syncText]
    split <;> exact .inl rfl
  | setRegister name t linewise => exact e.setRegister_usedOnce name t linewise

theorem call_broken (own : e.registers.clipboardByDefault = false)
    (broken : e.registers.Broken clipboard) (c : Call) :
    (e.call c).1.registers.clipboardByDefault = false ∧
      (e.call c).1.registers.Broken clipboard := by
  rcases e.call_usedOnce c with same | ⟨u, used⟩
  · rw [same]
    exact ⟨own, broken⟩
  · rw [used, RegisterBank.act_clipboardByDefault]
    exact ⟨own, broken.act u⟩

/-- Work that comes to nothing shows in the queue only, and a call shows in the same way with the
connection and without it. -/
theorem runWith_disconnect (own : e.registers.clipboardByDefault = false)
    (broken : e.registers.Broken clipboard) (events : List Event) :
    (e.runWith clipboard events).1.1.disconnect =
        (e.disconnect.callAll (events.filterMap Event.call?)).1 ∧
      (e.runWith clipboard events).2 =
        (e.disconnect.callAll (events.filterMap Event.call?)).2 ∧
      (e.runWith clipboard events).1.1.registers.Broken (e.runWith clipboard events).1.2 := by
  induction events generalizing e with
  | nil => exact ⟨rfl, rfl, broken⟩
  | cons event rest ih =>
    cases event with
    | call c =>
      obtain ⟨stillOwn, stillBroken⟩ := call_broken own broken c
      obtain ⟨engine, answers, after⟩ := ih stillOwn stillBroken
      have calls : (Event.call c :: rest).filterMap Event.call? =
          c :: rest.filterMap Event.call? := rfl
      rw [calls]
      simp only [runWith, callAll, disconnect_call own]
      refine ⟨engine, ?_, after⟩
      rw [answers]
    | work =>
      obtain ⟨stillBroken, same, refused⟩ := broken.work
      have unmoved : (e.work clipboard).1.disconnect = e.disconnect := by
        simp only [work, disconnect, same]
      have stillOwn : (e.work clipboard).1.registers.clipboardByDefault = false :=
        (congrArg (·.registers.clipboardByDefault) unmoved).trans own
      have nothing : (e.work clipboard).2 = clipboard := refused
      have calls : (Event.work :: rest).filterMap Event.call? = rest.filterMap Event.call? := rfl
      rw [calls]
      simp only [runWith, nothing, ← unmoved]
      exact ih stillOwn stillBroken

/-- An engine whose clipboard cannot be reached or refuses every request cannot be told from one
that has no clipboard, unless yanks and pastes without a name use it. After any calls, with work of
the clipboard anywhere between them, all answers, all registers and what is seen of all sessions are
the same, and further work changes no register. -/
theorem broken_clipboard_unnoticed (own : e.registers.clipboardByDefault = false)
    (broken : e.registers.Broken clipboard) (events : List Event) :
    let mixed := e.runWith clipboard events
    let alone := e.disconnect.callAll (events.filterMap Event.call?)
    mixed.2 = alone.2 ∧ mixed.1.1.registers.store = alone.1.registers.store ∧
      (∀ id, mixed.1.1.snapshot? id = alone.1.snapshot? id) ∧
      (mixed.1.1.work mixed.1.2).1.registers.store = mixed.1.1.registers.store := by
  intro mixed alone
  obtain ⟨engine, answers, stillBroken⟩ := runWith_disconnect own broken events
  refine ⟨answers, ?_, ?_, ?_⟩
  · exact congrArg (·.registers.store) engine
  · intro id
    exact congrArg (·.snapshot? id) engine
  · obtain ⟨_, same, _⟩ := stillBroken.work
    exact congrArg (·.store) same

/-- A session yanks into the clipboard register, then pastes from it after the request to store has
been refused. -/
theorem broken_clipboard_unnoticed_pasting :
    let e : Engine := { registers := { bridge? := some ⟨true, []⟩ }, undoLevels := 100 }
    let clipboard : Clipboard := { contents := ['o', 'l', 'd'], failing := true }
    let events := .call (.openSession ['a', 'b'] .normal 0) ::
      ['\x22', '+', 'y', 'l'].map (fun c => .call (.press 1 (.char c))) ++
        .work :: ['\x22', '+', 'P'].map (fun c => .call (.press 1 (.char c)))
    let mixed := e.runWith clipboard events
    let alone := e.disconnect.callAll (events.filterMap Event.call?)
    e.registers.clipboardByDefault = false ∧ e.registers.Broken clipboard ∧
      mixed.2 = alone.2 ∧ mixed.1.1.registers.store = alone.1.registers.store ∧
      (∀ id, mixed.1.1.snapshot? id = alone.1.snapshot? id) ∧
      (mixed.1.1.work mixed.1.2).1.registers.store = mixed.1.1.registers.store ∧
      (alone.1.snapshot? 1).map (·.text) = some ['a', 'a', 'b'] := by
  have broken : RegisterBank.Broken { bridge? := some ⟨true, []⟩ }
      { contents := ['o', 'l', 'd'], failing := true } := ⟨true, [], rfl, fun _ => rfl⟩
  have same := broken_clipboard_unnoticed (e := { registers := _, undoLevels := 100 }) rfl broken
  exact ⟨rfl, broken, (same _).1, (same _).2.1, (same _).2.2.1, (same _).2.2.2, by decide⟩

end Engine

end ModalEdit
