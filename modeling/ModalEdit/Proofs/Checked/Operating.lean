import ModalEdit.Proofs.Checked.Editor
import ModalEdit.Proofs.Checked.Motion
import ModalEdit.Proofs.Checked.TextObject

/-! Moving, selecting and operating. A selected object ends one character behind the cursor, and an
operator takes only what lies in the text. -/
namespace ModalEdit.Checked

open Workspace (rememberFind cursorContext)

variable {w : Workspace}

def inMode (w : Workspace) (m : Mode) (act : Option (Workspace × Outcome)) :
    Option (Workspace × Outcome) :=
  if w.editor.mode = m then act else some w.skip

theorem inMode_eq {act : Option (Workspace × Outcome)} {act' : Workspace × Outcome}
    (done : w.editor.mode = m → act = some act') : inMode w m act = some (w.inMode m act') := by
  rw [inMode, Workspace.inMode]
  split
  · rename_i mode
    exact done mode
  · rfl

/-- There is nothing to do in the mode either. -/
theorem inMode_skip {act : Option (Workspace × Outcome)}
    (nothing : w.editor.mode = m → act = some w.skip) : inMode w m act = some w.skip := by
  rw [inMode_eq nothing, Workspace.inMode, ite_self]

/-! ### Moving and selecting -/

def move (w : Workspace) (m : Motion) (count : Nat) : Option (Workspace × Outcome) := do
  let e := rememberFind w.editor m
  let landing? ← resolve m e.text e.cursor count (cursorContext e)
  match landing? with
  | none => some ({ w with editor := e }, .unchanged)
  | some landing =>
    let stays := landing.target = e.cursor
    let moved := { e with cursor := landing.target, wanted? := landing.wanted }
    let recorder := if e.mode = .insert ∧ !stays then w.recorder.reset else w.recorder
    let editor ← (if e.mode.isVisual then refreshSelection moved else some moved)
    return ({ w with editor, recorder }, if stays then .unchanged else .moved)

/-- The last character of the object must be there. -/
def selectObject (w : Workspace) (o : TextObject) (count : Nat) : Option (Workspace × Outcome) :=
  if w.editor.mode.isVisual then do
    let found? ← resolveObject o w.editor.text w.editor.cursor count
    match found?.filter (!·.isEmpty) with
    | none => some w.skip
    | some s =>
      let last ← sub s.stop 1
      let e ← setMode { w.editor with anchor? := some s.start, cursor := last, wanted? := none } .visual
      return ({ w with editor := e }, .moved)
  else some w.skip

def swapAnchor (w : Workspace) : Option (Workspace × Outcome) :=
  match w.editor.anchor? with
  | none => some w.skip
  | some anchor => do
    let e := w.editor
    let e ← refreshSelection { e with
      anchor? := some e.cursor
      cursor := min anchor e.maxCursor
      wanted? := none }
    return ({ w with editor := e }, .moved)

def startVisual (w : Workspace) (m : Mode) : Option (Workspace × Outcome) :=
  if w.editor.mode = m ∨ w.editor.mode = .insert then some w.skip
  else do
    let e ← setMode w.editor m
    return ({ w with editor := e }, .moved)

def leaveVisual (w : Workspace) : Option (Workspace × Outcome) :=
  if w.editor.mode.isVisual then do
    let e ← setMode w.editor .normal
    return ({ w with editor := e.clampCursor }, .moved)
  else some w.skip

@[simp] theorem move_eq (w : Workspace) (m : Motion) (count : Nat) :
    move w m count = some (w.move m count) := by
  simp only [move, resolve_eq, Option.bind_eq_bind, Option.bind_some, Workspace.move]
  generalize rememberFind w.editor m = e
  cases m.resolve e.text e.cursor count (cursorContext e) with
  | none => rfl
  | some landing =>
    simp only [refreshSelection_eq]
    cases e.mode.isVisual <;> rfl

@[simp] theorem selectObject_eq (w : Workspace) (o : TextObject) (count : Nat) :
    selectObject w o count = some (w.selectObject o count) := by
  simp only [selectObject, resolveObject_eq, Option.bind_eq_bind, Option.bind_some,
    Workspace.selectObject]
  split
  · cases found : (o.resolve w.editor.text w.editor.cursor count).filter (!·.isEmpty) with
    | none => rfl
    | some s =>
      obtain ⟨_, filled⟩ := Option.filter_eq_some_iff.mp found
      have ordered := s.start_le_stop
      have ends : s.start ≠ s.stop := by simpa [Span.isEmpty] using filled
      have last : 1 ≤ s.stop := by omega
      simp only [sub_eq last, setMode_eq, Option.bind_some]
      rfl
  · rfl

@[simp] theorem swapAnchor_eq (w : Workspace) : swapAnchor w = some w.swapAnchor := by
  simp only [swapAnchor, refreshSelection_eq, Option.bind_eq_bind, Option.bind_some,
    Workspace.swapAnchor]
  cases w.editor.anchor? <;> rfl

@[simp] theorem startVisual_eq (w : Workspace) (m : Mode) :
    startVisual w m = some (w.startVisual m) := by
  simp only [startVisual, setMode_eq, Option.bind_eq_bind, Option.bind_some, Workspace.startVisual]
  split <;> rfl

@[simp] theorem leaveVisual_eq (w : Workspace) : leaveVisual w = some w.leaveVisual := by
  simp only [leaveVisual, setMode_eq, Option.bind_eq_bind, Option.bind_some, Workspace.leaveVisual]
  split <;> rfl

/-! ### Operators -/

def targetExtent? (e : Editor) (target : Target) (count : Nat) : Option (Option Extent) :=
  match target with
  | .lines => (counted e.text e.cursor count).map some
  | .motion m => do
    let landing? ← resolve m e.text e.cursor count (.operator e.text e.wanted? e.lastFind?)
    match landing? with
    | none => some none
    | some landing => (ofLanding e.text e.cursor landing).map some
  | .object o => do
    let s? ← resolveObject o e.text e.cursor count
    return s?.map Extent.charwise

def removal (t : Text) (x : Extent) : Option Span :=
  if x.linewise then withBreak t x.span else some x.span

/-- The cursor goes to a line of the text that is left. -/
def deletionLanding (t : Text) (i : Nat) (linewise : Bool) : Option Nat :=
  if linewise then do
    let l ← lineOf t (min i t.length)
    restOnLine t l
  else some i

/-- What an operator takes is cut out first. -/
def operateOn (w : Workspace) (op : Operator) (x : Extent) (register : Option RegisterName) :
    Option (Workspace × Outcome) := do
  let taken ← slice w.editor.text x.span
  match op with
  | .yank =>
    if x.span.isEmpty && !x.linewise then some w.skip
    else
      let registers ← write w.registers taken x.linewise register
      return ({ w with editor := w.editor.clampCursor, registers }, .unchanged)
  | .delete =>
    let gone ← removal w.editor.text x
    if gone.isEmpty then some w.skip
    else
      let registers ← write w.registers taken x.linewise register
      let e ← removeSpan w.editor gone
      let landing ← deletionLanding e.text x.span.start x.linewise
      let e ← settle { e with cursor := landing }
      return ({ w with editor := { e with wanted? := none }, registers }, .edited)
  | .change =>
    let marked := w.editor.markOrigin
    if x.span.isEmpty then
      let e ← setMode marked .insert
      let e := { e with cursor := x.span.start }.clampCursor
      return ({ w with editor := { e with wanted? := none } }, .moved)
    else
      let registers ← write w.registers taken x.linewise register
      let e ← removeSpan marked x.span
      let e ← setMode e .insert
      let e := { e with cursor := x.span.start }.clampCursor
      return ({ w with editor := { e with wanted? := none }.adoptRun, registers }, .edited)

def operate (w : Workspace) (op : Operator) (target : Target) (count : Nat)
    (register : Option RegisterName) : Option (Workspace × Outcome) :=
  inMode w .normal do
    let w := w.aim target
    let x? ← targetExtent? w.editor target count
    match x? with
    | none => some w.skip
    | some x =>
      let (w, outcome) ← operateOn w op x register
      let edit := Edit.operate op target register
      return match op with
      | .delete =>
        if outcome.textChanged then
          ({ w with recorder := w.recorder.record edit count }, outcome)
        else (w, outcome)
      | .change => ({ w with recorder := w.recorder.start edit count }, outcome)
      | .yank => (w, outcome)

def operateSelection (w : Workspace) (op : Operator) (register : Option RegisterName) :
    Option (Workspace × Outcome) :=
  match w.editor.selection? with
  | none => some w.skip
  | some s =>
    if w.editor.mode.isVisual then do
      let x : Extent := ⟨s.span, s.kind = .lines⟩
      let e ← setMode w.editor .normal
      let start := if op = .yank ∨ !x.linewise then x.span.start else e.cursor
      let (w, outcome) ← operateOn { w with editor := { e with cursor := start } } op x register
      return (w, outcome.merge .moved)
    else some w.skip

@[simp] theorem targetExtent?_eq (e : Editor) (target : Target) (count : Nat) :
    targetExtent? e target count = some (Workspace.targetExtent? e target count) := by
  cases target with
  | lines => simp [targetExtent?, Workspace.targetExtent?]
  | motion m =>
    simp only [targetExtent?, resolve_eq, ofLanding_eq, Option.bind_eq_bind, Option.bind_some,
      Workspace.targetExtent?]
    cases m.resolve e.text e.cursor count (.operator e.text e.wanted? e.lastFind?) <;> rfl
  | object o =>
    simp only [targetExtent?, resolveObject_eq, Option.bind_eq_bind, Option.bind_some]
    rfl

@[simp] theorem removal_eq (t : Text) (x : Extent) : removal t x = some (x.removal t) := by
  simp only [removal, withBreak_eq, Extent.removal]
  split <;> rfl

@[simp] theorem deletionLanding_eq (t : Text) (i : Nat) (linewise : Bool) :
    deletionLanding t i linewise = some (Workspace.deletionLanding t i linewise) := by
  simp only [deletionLanding, lineOf_eq, restOnLine_eq, Option.bind_eq_bind, Option.bind_some,
    lineOf_min, Workspace.deletionLanding]
  split <;> rfl

theorem operateOn_eq (fits : w.editor.history.Fits) (op : Operator) (x : Extent)
    (register : Option RegisterName) :
    operateOn w op x register = some (w.operateOn op x register) := by
  simp only [operateOn, slice_eq, Option.bind_eq_bind, Option.bind_some]
  cases op with
  | yank =>
    simp only [write_eq, Option.bind_some, Workspace.operateOn, Workspace.yank]
    split <;> rfl
  | delete =>
    simp only [removal_eq, write_eq, removeSpan_eq fits, deletionLanding_eq, settle_eq,
      Option.bind_some, Workspace.operateOn, Workspace.delete]
    split <;> rfl
  | change =>
    have marked : w.editor.markOrigin.history.Fits := fits.markOrigin _
    simp only [write_eq, removeSpan_eq marked, setMode_eq, Option.bind_some, Workspace.operateOn,
      Workspace.change]
    split <;> rfl

theorem aim_fits (fits : w.editor.history.Fits) (target : Target) :
    (w.aim target).editor.history.Fits := by
  obtain ⟨f?, same⟩ := w.aim_eq target
  rw [same]
  exact fits

theorem operate_eq (fits : w.editor.history.Fits) (op : Operator) (target : Target) (count : Nat)
    (register : Option RegisterName) :
    operate w op target count register = some (w.operate op target count register) := by
  apply inMode_eq
  intro _
  simp only [targetExtent?_eq, Option.bind_eq_bind, Option.bind_some]
  cases Workspace.targetExtent? (w.aim target).editor target count with
  | none => rfl
  | some x =>
    simp only [operateOn_eq (aim_fits fits target), Option.bind_some]
    cases op <;> rfl

theorem operateSelection_eq (fits : w.editor.history.Fits) (op : Operator)
    (register : Option RegisterName) :
    operateSelection w op register = some (w.operateSelection op register) := by
  rw [operateSelection, Workspace.operateSelection]
  cases w.editor.selection? with
  | none => rfl
  | some s =>
    dsimp only
    split
    · rw [setMode_eq, Option.bind_eq_bind, Option.bind_some, operateOn_eq]
      · rfl
      · rw [Editor.setMode_history]
        exact fits
    · rfl

end ModalEdit.Checked
