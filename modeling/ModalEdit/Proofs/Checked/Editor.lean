import ModalEdit.Proofs.Checked.Text
import ModalEdit.Proofs.Effect

/-! The registers, the history and the editor. The letters have their registers in a row of 26, and
the history gives up its oldest checkpoint when it holds more than its capacity. -/
namespace ModalEdit

/-- There is no more to go back and forth to than the capacity allows. -/
def History.Fits (h : History) : Prop := h.undos.length + h.redos.length ≤ h.capacity

namespace Checked

/-! ### Registers -/

/-- The place of a slot in the row, told by its letter. -/
def namedIndex (slot : Char) : Option Nat := sub (slot.toNat % 256) 97

def get (rs : Registers) : Slot → Option (Option Register)
  | .unnamed => some rs.unnamed
  | .clipboard => some rs.clipboard
  | .letter l => do
    let i ← namedIndex (RegisterName.letter l false).toChar
    rs.letters[i]?

def set (rs : Registers) (name : RegisterName) (r : Register) : Option Registers :=
  match name with
  | .unnamed => some { rs with unnamed := some r }
  | .clipboard => some { rs with clipboard := some r }
  | .letter l append => do
    let i ← namedIndex (RegisterName.letter l false).toChar
    let old? ← rs.letters[i]?
    let new := if append then old?.elim r (·.append r) else r
    return { rs with letters := rs.letters.setIfInBounds i (some new) }

def record (rs : Registers) (target : Option RegisterName) (r : Register) :
    Option (Registers × Option Register) := do
  let name := target.getD .unnamed
  let rs ← set rs name r
  let whole? ← get rs name.slot
  return (rs.put .unnamed (whole?.getD r), if name = .clipboard then some r else none)

def write (b : RegisterBank) (t : Text) (linewise : Bool) (target : Option RegisterName) :
    Option RegisterBank := do
  let r := Register.of t linewise
  let (store, sent?) ← record b.store target r
  if target.isNone && b.clipboardByDefault then
    let store ← set store .clipboard r
    return { b with store }.request (.store r.content)
  else
    return sent?.elim { b with store } fun r => { b with store }.request (.store r.content)

def read (b : RegisterBank) (target : Option RegisterName) :
    Option (RegisterBank × Option Register) := do
  let name := target.getD b.defaultName
  let held? ← get b.store name.slot
  if name = .clipboard then
    let fallback? ← if b.clipboardByDefault then get b.store .unnamed else some none
    return (b.request .refresh, held?.or fallback?)
  else return (b, held?)

theorem namedIndex_eq (l : Fin 26) :
    namedIndex (RegisterName.letter l false).toChar = some l.val := by
  revert l
  decide

@[simp] theorem get_eq (rs : Registers) (s : Slot) : get rs s = some (rs.get s) := by
  cases s with
  | unnamed | clipboard => rfl
  | letter l =>
    rw [get, namedIndex_eq, Option.bind_eq_bind, Option.bind_some, Registers.get,
      Vector.getElem?_eq_getElem l.isLt]
    rfl

@[simp] theorem set_eq (rs : Registers) (name : RegisterName) (r : Register) :
    set rs name r = some (rs.set name r) := by
  cases name with
  | unnamed | clipboard => rfl
  | letter l append =>
    rw [set, namedIndex_eq, Option.bind_eq_bind, Option.bind_some,
      Vector.getElem?_eq_getElem l.isLt, Option.bind_eq_bind, Option.bind_some]
    have stored (new : Register) :
        { rs with letters := rs.letters.setIfInBounds l (some new) } = rs.put (.letter l) new := by
      have row : rs.letters.setIfInBounds l (some new) = rs.letters.set l (some new) := by
        ext i
        rw [Vector.getElem_setIfInBounds, Vector.getElem_set]
      rw [row]
      rfl
    rw [Registers.set]
    simp only [stored, Option.pure_def, RegisterName.appends, RegisterName.slot, Registers.get]
    cases append with
    | false => rfl
    | true =>
      cases old : rs.letters[l] with
      | none => simp_all
      | some r' => simp_all

@[simp] theorem record_eq (rs : Registers) (target : Option RegisterName) (r : Register) :
    record rs target r = some (rs.record target r) := by
  simp only [record, set_eq, get_eq, Option.bind_eq_bind, Option.bind_some]
  rfl

@[simp] theorem write_eq (b : RegisterBank) (t : Text) (linewise : Bool)
    (target : Option RegisterName) : write b t linewise target = some (b.write t linewise target) := by
  simp only [write, record_eq, set_eq, Option.bind_eq_bind, Option.bind_some, RegisterBank.write]
  split
  · rfl
  · cases (b.store.record target (Register.of t linewise)).2 <;> rfl

@[simp] theorem read_eq (b : RegisterBank) (target : Option RegisterName) :
    read b target = some (b.read target) := by
  simp only [read, get_eq, Option.bind_eq_bind, Option.bind_some, RegisterBank.read]
  split
  · rename_i name
    rw [name]
    cases b.clipboardByDefault <;> rfl
  · rfl

/-! ### The history -/

/-- There must be a checkpoint to give up. -/
def dropOldest (cs : List Checkpoint) : Option (List Checkpoint) :=
  if cs.isEmpty then none else some cs.dropLast

def push (h : History) (c : Checkpoint) : Option History :=
  let undos := c :: h.undos
  if h.capacity < undos.length then do
    let undos ← dropOldest undos
    return { h with undos, redos := [] }
  else some { h with undos, redos := [] }

def beginRun (h : History) (now : Checkpoint) : Option History :=
  match h.run with
  | .inactive => do
    let origin := min (h.origin?.getD now.cursor) now.text.length
    let h ← push h ⟨now.text, origin⟩
    return { h with run := .active 0, origin? := none }
  | .active _ => some h

theorem push_eq {h : History} (fits : h.Fits) (c : Checkpoint) : push h c = some (h.push c) := by
  have few : h.undos.length ≤ h.capacity := Nat.le_of_add_right_le fits
  rw [push, History.push]
  split
  · rename_i more
    have full : h.capacity = h.undos.length := by
      rw [List.length_cons] at more
      omega
    have kept : (c :: h.undos).take h.capacity = (c :: h.undos).dropLast := by
      rw [full, List.dropLast_eq_take]
      rfl
    rw [kept]
    rfl
  · rename_i room
    rw [List.take_of_length_le (Nat.le_of_not_lt room)]

theorem beginRun_eq {h : History} (fits : h.Fits) (now : Checkpoint) :
    beginRun h now = some (h.beginRun now) := by
  cases run : h.run with
  | inactive => simp [beginRun, History.beginRun, run, push_eq fits]
  | active n => simp [beginRun, History.beginRun, run]

/-! ### The editor -/

def selection (t : Text) (anchor cursor : Nat) (kind : Selection.Kind) : Option Selection :=
  let lo := min anchor cursor
  let hi := max anchor cursor
  match kind with
  | .chars => some ⟨anchor, Span.between lo (min (hi + 1) t.length), kind⟩
  | .lines => do
    let upper ← lineOf t lo
    let start ← lineStart t upper
    let lower ← lineOf t hi
    let stop ← lineEnd t lower
    return ⟨anchor, Span.between start stop, kind⟩

def refreshSelection (e : Editor) : Option Editor :=
  let anchor := min (e.anchor?.getD e.cursor) e.text.length
  match e.mode.selects? with
  | none => some { e with selection? := none }
  | some kind => do
    let s ← selection e.text anchor e.cursor kind
    return { e with selection? := some s }

def setMode (e : Editor) (m : Mode) : Option Editor :=
  if m.isVisual then
    let kept := if e.mode.isVisual then e.anchor? else none
    refreshSelection { e with mode := m, anchor? := some (kept.getD e.cursor) }
  else some { e with mode := m }.clearSelection

/-- There is a character ahead of a cursor that is not at the front. -/
def settle (e : Editor) : Option Editor :=
  let e := e.clampCursor
  if 0 < e.cursor ∧ e.text[e.cursor]? = some '\n' then do
    let before ← sub e.cursor 1
    return if e.text[before]? ≠ some '\n' then { e with cursor := before } else e
  else some e

def pushCheckpoint (e : Editor) : Option Editor := do
  let history ← push e.history e.checkpoint
  return { e with history }

def removeSpan (e : Editor) (s : Span) : Option Editor := do
  let e ← pushCheckpoint e
  let t ← remove e.text s
  return e.edit t

@[simp] theorem selection_eq (t : Text) (anchor cursor : Nat) (kind : Selection.Kind) :
    selection t anchor cursor kind = some (.between t anchor cursor kind) := by
  cases kind with
  | chars => rfl
  | lines =>
    simp only [selection, lineOf_eq, lineStart_eq, lineEnd_eq, Option.bind_eq_bind, Option.bind_some]
    rfl

@[simp] theorem refreshSelection_eq (e : Editor) :
    refreshSelection e = some e.refreshSelection := by
  simp only [refreshSelection, selection_eq, Option.bind_eq_bind, Option.bind_some,
    Editor.refreshSelection]
  cases e.mode.selects? <;> rfl

@[simp] theorem setMode_eq (e : Editor) (m : Mode) : setMode e m = some (e.setMode m) := by
  simp only [setMode, refreshSelection_eq, Editor.setMode]
  split <;> rfl

@[simp] theorem settle_eq (e : Editor) : settle e = some e.settle := by
  simp only [settle, Editor.settle]
  generalize e.clampCursor = e
  by_cases break_ : 0 < e.cursor ∧ e.text[e.cursor]? = some '\n'
  · rw [if_pos break_, sub_eq break_.1, Option.bind_eq_bind, Option.bind_some]
    simp only [break_, true_and]
    rfl
  · rw [if_neg break_, if_neg fun all => break_ ⟨all.1, all.2.1⟩]

theorem pushCheckpoint_eq {e : Editor} (fits : e.history.Fits) :
    pushCheckpoint e = some e.pushCheckpoint := by
  rw [pushCheckpoint, push_eq fits]
  rfl

theorem removeSpan_eq {e : Editor} (fits : e.history.Fits) (s : Span) :
    removeSpan e s = some (e.removeSpan s) := by
  rw [removeSpan, pushCheckpoint_eq fits, Option.bind_eq_bind, Option.bind_some, remove_eq]
  rfl

end Checked

/-! ### The history fits -/

theorem History.Fits.markOrigin {h : History} (fits : h.Fits) (i : Nat) : (h.markOrigin i).Fits := by
  rw [History.markOrigin]
  split <;> exact fits

namespace Workspace

variable {w w' : Workspace} {e : Editor}

theorem Edited.fits (edited : Edited e w) (fits : e.history.Fits) : w.editor.history.Fits := by
  have pushed : (e.history.push e.checkpoint).Fits := List.length_take_le _ _
  cases edited with
  | unchanged mode typed text revision history => rwa [history]
  | changed mode typed revision history => rwa [history]
  | opened mode typed text revision history =>
    rw [history]
    exact fits
  | covered mode edits revision history =>
    rw [history]
    exact pushed

theorem insertionEdit_fits (fits : w.editor.history.Fits) (t : Text) (i : Nat) (r : Recorder) :
    (w.insertionEdit t i r).editor.history.Fits := by
  have begun : (w.insertionEdit t i r).editor.history =
      (w.editor.history.beginRun w.editor.checkpoint).noteEdits 1 := rfl
  rw [begun]
  rcases w.editor.history.beginRun_noteEdits w.editor.checkpoint with ⟨origin, same⟩ | ⟨_, n, same⟩
  · rw [same]
    exact List.length_take_le _ _
  · rw [same]
    exact fits

theorem Effect.fits (effect : Effect w w') (fits : w.editor.history.Fits) :
    w'.editor.history.Fits := by
  cases effect with
  | moved mode text history typed => rwa [history]
  | edited e mode text history edited => exact edited.fits (history ▸ fits)
  | inserted mode t i r same =>
    rw [same]
    exact insertionEdit_fits fits t i r
  | left mode same =>
    rw [same, (leaveInsert_kept mode).2.1]
    exact fits

theorem Travel.fits (travel : Travel w w') (fits : w.editor.history.Fits) :
    w'.editor.history.Fits := by
  cases travel with
  | nowhere same => rwa [same]
  | journey mode e journey same =>
    rw [same]
    apply journey.invariant (P := fun e => e.history.Fits) ?_ ?_ fits
    · intro e e' undone fits
      obtain ⟨c, rest, undos, rfl⟩ := Editor.undo?_cases undone
      simp only [History.Fits, undos, List.length_cons, Editor.travel] at fits ⊢
      omega
    · intro e e' redone fits
      obtain ⟨c, rest, redos, rfl⟩ := Editor.redo?_cases redone
      simp only [History.Fits, redos, List.length_cons, Editor.travel] at fits ⊢
      omega

theorem perform_fits (tidy : Tidy w.editor w.recorder)
    (cursor : w.editor.cursor ≤ w.editor.text.length) (fits : w.editor.history.Fits) (c : Command) :
    (w.perform c).1.editor.history.Fits := by
  cases travels : c.travels with
  | true => exact (perform_travel travels).fits fits
  | false => exact (perform_effect tidy.idle cursor travels).fits fits

end Workspace

theorem Session.Reachable.fits {s : Session} (reached : s.Reachable) : s.editor.history.Fits := by
  have invariant := reached.invariant (P := fun e r => (e.Placed ∧ Tidy e r) ∧ e.history.Fits)
  refine (invariant ?_ ?_ ?_).2
  · intro t m cursor undoLevels
    refine ⟨⟨Editor.ofText_placed t m cursor undoLevels, .ofText t m cursor undoLevels⟩, ?_⟩
    rw [Editor.ofText_history]
    exact Nat.zero_le _
  · rintro w c ⟨⟨placed, tidy⟩, fits⟩
    have cursor := placed.cursor_le_length
    exact ⟨⟨Workspace.perform_placed placed c, tidy.perform cursor c⟩,
      Workspace.perform_fits tidy cursor fits c⟩
  · rintro e r t cursor ⟨⟨placed, tidy⟩, _⟩
    exact ⟨⟨Editor.replaceText_placed placed t cursor, tidy.replaceText t cursor⟩,
      List.length_take_le _ _⟩

end ModalEdit
