import ModalEdit.Proofs.DotRepeat
import ModalEdit.Proofs.Motion

/-! Runs of motions from line to line. The first of them that has a landing settles the column, and from
then on the cursor is in that column of its line, or on the last character of a line that is too short.
On which line it is can be told from the counts and the number of lines. -/
namespace ModalEdit

/-! ### The line that is reached -/

namespace Motion

/-- The line that a run of motions leads to, where a motion that leads nowhere is left out. -/
def lineAfter (last l : Nat) (steps : List (Motion × Nat)) : Nat :=
  steps.foldl (fun l step => (step.1.lineFrom? last l step.2).getD l) l

theorem lineFrom?_le {m : Motion} (line : l ≤ last) (there : m.lineFrom? last l count = some l') :
    l' ≤ last := by
  cases m with
  | up | down =>
    simp only [lineFrom?] at there
    split at there
    · cases there
    · cases there
      omega
  | bufferStart =>
    cases there
    exact Nat.min_le_right _ _
  | bufferEnd =>
    cases there
    split <;> omega
  | _ => cases there

/-- A motion from line to line keeps the column that is remembered, or else the one of the cursor. -/
theorem resolve_of_isLinewise {m : Motion} {t : Text} (ctx : Context)
    (linewise : m.isLinewise = true) (purpose : ctx.purpose = .cursor)
    (limit : ctx.limit = t.length - 1) (cursor : i ≤ t.length - 1) :
    m.resolve t i count ctx = (m.lineFrom? (lastReachableLine t .cursor) (t.lineOf i) count).map
      fun l =>
        let w := ctx.wanted.getD (.column (t.column i))
        ⟨t.atColumn l w false, .lines, some w⟩ := by
  rw [resolve, Nat.min_eq_left (Nat.le_trans cursor (Nat.sub_le _ _)),
    landing?_of_isLinewise linewise, purpose, Option.map_map]
  refine Option.map_congr fun l there => ?_
  have bound := lineFrom?_le (Text.lineOf_le_lastReachableLine cursor) there
  have inside := (Text.atColumn_reachable bound (ctx.wanted.getD (.column (t.column i)))).2
  simp only [Function.comp_apply, Landing.onLine, purpose, limit, reduceCtorEq, decide_false,
    Nat.min_eq_left inside]

end Motion

/-! ### Moving as an operation on one text -/

namespace Editor

/-- The line that a motion takes the cursor to. -/
def lineTo? (e : Editor) (m : Motion) (count : Nat) : Option Nat :=
  m.lineFrom? (Motion.lastReachableLine e.text .cursor) (e.text.lineOf e.cursor) count

/-- The column that a motion from line to line keeps: the one that is remembered, or else the one of the
cursor. -/
def columnToKeep (e : Editor) : Wanted := e.wanted?.getD (.column (e.text.column e.cursor))

/-- The cursor goes to a landing, and the selection with it. -/
def arrive (e : Editor) (x : Motion.Landing) : Editor :=
  let moved := { e with cursor := x.target, wanted? := x.wanted }
  if e.mode.isVisual then moved.refreshSelection else moved

variable (e : Editor) (x : Motion.Landing)

@[simp] theorem arrive_text : (e.arrive x).text = e.text := by
  simp only [arrive]
  split <;> rfl

@[simp] theorem arrive_mode : (e.arrive x).mode = e.mode := by
  simp only [arrive]
  split <;> rfl

@[simp] theorem arrive_cursor : (e.arrive x).cursor = x.target := by
  simp only [arrive]
  split <;> rfl

@[simp] theorem arrive_wanted? : (e.arrive x).wanted? = x.wanted := by
  simp only [arrive]
  split <;> rfl

end Editor

namespace Workspace

/-- The landing of a motion that moves the cursor. -/
def landing? (w : Workspace) (m : Motion) (count : Nat) : Option Motion.Landing :=
  m.resolve w.editor.text w.editor.cursor count (cursorContext w.editor)

/-- Performs motions, each with its count, one after the other. -/
def moveAll (w : Workspace) (steps : List (Motion × Nat)) : Workspace :=
  w.performAll (steps.map fun step => .move step.1 step.2)

variable {w : Workspace} {m : Motion}

/-- Outside an insertion the cursor stays on a character. -/
theorem cursorContext_of_ne_insert {e : Editor} (mode : e.mode ≠ .insert) :
    (cursorContext e).purpose = .cursor ∧ (cursorContext e).limit = e.text.length - 1 := by
  simp only [cursorContext, Editor.maxCursor, mode, if_false, and_self]

/-- Outside an insertion, a motion that is no search does nothing but take the cursor to its landing. -/
theorem move_of_landing? (mode : w.editor.mode ≠ .insert) (other : ∀ f, m ≠ .find f)
    (count : Nat) :
    (w.move m count).1 =
      { w with editor := (w.landing? m count).elim w.editor w.editor.arrive } := by
  have kept : rememberFind w.editor m = w.editor := by
    cases m with
    | find f => exact absurd rfl (other f)
    | _ => rfl
  simp only [move, kept, landing?]
  cases m.resolve w.editor.text w.editor.cursor count (cursorContext w.editor) with
  | none => rfl
  | some x => simp only [mode, false_and, if_false, Option.elim_some, Editor.arrive]

/-- Outside an insertion, the cursor is in a column of a line that can be reached, and the column is
remembered. -/
structure KeepsColumn (w : Workspace) (t : Text) (l : Nat) (column : Wanted) : Prop where
  text : w.editor.text = t
  mode : w.editor.mode ≠ .insert
  line : l ≤ Motion.lastReachableLine t .cursor
  wanted : w.editor.wanted? = some column
  cursor : w.editor.cursor = t.atColumn l column false

variable {t : Text} {column : Wanted}

theorem KeepsColumn.lineOf_cursor (keeps : w.KeepsColumn t l column) :
    t.lineOf w.editor.cursor = l := by
  rw [keeps.cursor]
  exact (Text.atColumn_reachable keeps.line column).1

theorem KeepsColumn.cursor_le (keeps : w.KeepsColumn t l column) :
    w.editor.cursor ≤ t.length - 1 := by
  rw [keeps.cursor]
  exact (Text.atColumn_reachable keeps.line column).2

section

variable (linewise : m.isLinewise = true) (mode : w.editor.mode ≠ .insert)
  (cursor : w.editor.cursor ≤ w.editor.text.length - 1)

include linewise mode cursor

theorem landing?_of_isLinewise (count : Nat) :
    w.landing? m count = (w.editor.lineTo? m count).map fun l =>
      ⟨w.editor.text.atColumn l w.editor.columnToKeep false, .lines, some w.editor.columnToKeep⟩ := by
  obtain ⟨purpose, limit⟩ := cursorContext_of_ne_insert mode
  exact Motion.resolve_of_isLinewise _ linewise purpose limit cursor

/-- A motion that has a landing settles the column. -/
theorem move_settles (there : w.editor.lineTo? m count = some l) :
    (w.move m count).1.KeepsColumn w.editor.text l w.editor.columnToKeep := by
  have line := Motion.lineFrom?_le (Text.lineOf_le_lastReachableLine cursor) there
  rw [move_of_landing? mode (by rintro f rfl; cases linewise),
    landing?_of_isLinewise linewise mode cursor, there]
  constructor <;> simp [mode, line]

theorem move_of_lineTo?_none (nowhere : w.editor.lineTo? m count = none) :
    (w.move m count).1 = w := by
  rw [move_of_landing? mode (by rintro f rfl; cases linewise),
    landing?_of_isLinewise linewise mode cursor, nowhere]
  rfl

end

theorem KeepsColumn.move (keeps : w.KeepsColumn t l column) (linewise : m.isLinewise = true)
    (count : Nat) :
    (w.move m count).1.KeepsColumn t
      ((m.lineFrom? (Motion.lastReachableLine t .cursor) l count).getD l) column := by
  have cursor := keeps.cursor_le
  have here := keeps.lineOf_cursor
  have kept : w.editor.columnToKeep = column := by
    rw [Editor.columnToKeep, keeps.wanted, Option.getD_some]
  obtain rfl := keeps.text
  have goal : w.editor.lineTo? m count =
      m.lineFrom? (Motion.lastReachableLine w.editor.text .cursor) l count := by
    rw [Editor.lineTo?, here]
  cases there : m.lineFrom? (Motion.lastReachableLine w.editor.text .cursor) l count with
  | none =>
    rw [move_of_lineTo?_none linewise keeps.mode cursor (goal.trans there)]
    exact keeps
  | some l' =>
    rw [← kept]
    exact move_settles linewise keeps.mode cursor (goal.trans there)

theorem KeepsColumn.moveAll (keeps : w.KeepsColumn t l column) {steps : List (Motion × Nat)}
    (linewise : ∀ step ∈ steps, step.1.isLinewise = true) :
    (w.moveAll steps).KeepsColumn t
      (Motion.lineAfter (Motion.lastReachableLine t .cursor) l steps) column := by
  induction steps generalizing w l with
  | nil => exact keeps
  | cons step rest ih =>
    obtain ⟨first, later⟩ := List.forall_mem_cons.mp linewise
    exact ih (keeps.move first step.2) later

end Workspace

/-! ### Sessions -/

namespace Session

variable {s : Session}

end Session

end ModalEdit
