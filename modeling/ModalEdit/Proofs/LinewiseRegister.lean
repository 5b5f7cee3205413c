import ModalEdit.Proofs.Extent
import ModalEdit.Proofs.Motion
import ModalEdit.Proofs.Placement
import ModalEdit.Proofs.RegisterWrite
import ModalEdit.Proofs.Text.Removal

/-! What is left in the registers by commands that take whole lines. The range that they act on
leaves out the last break, and a register adds one to a text that does not end in a break; so an
empty last line, of which the range has nothing but the break before it, is not told apart from
the end of the line before. -/
namespace ModalEdit

/-! ### The content -/

namespace Text

/-- The last of the lines from `a` to `b` that a register shows. -/
def lastKept (t : Text) (a b : Nat) : Nat := if a < b ∧ t.isEmptyLine b then b - 1 else b

theorem endsInBreak_append_of_ne_nil {t : Text} (ahead : Text) (h : t ≠ []) :
    endsInBreak (ahead ++ t) = endsInBreak t := by
  simp only [endsInBreak, List.getLast?_append, List.getLast?_eq_some_getLast h, Option.some_or]

theorem endsInBreak_line (t : Text) (l : Nat) : (t.line l).endsInBreak = false := by
  rw [endsInBreak, beq_eq_false_iff_ne]
  intro last
  exact t.break_not_mem_line l (List.mem_of_getLast? last)

theorem endsInBreak_wholeLines {t : Text} (h : a ≤ b) (last : b ≤ t.lastLine) :
    (t.wholeLines a b).endsInBreak = true := by
  cases h with
  | refl => simp [wholeLines_self last, endsInBreak]
  | step h => simp [wholeLines_succ h last, endsInBreak]

theorem ended_slice {t : Text} (h : a ≤ b) (last : b ≤ t.lastLine) :
    (t.slice (Span.between (t.lineStart a) (t.lineEnd b))).ended =
      t.wholeLines a (t.lastKept a b) := by
  cases h with
  | refl =>
    simp [slice_line, ended, endsInBreak_line, lastKept, wholeLines_self last]
  | @step b h =>
    have several : a < b.succ := Nat.lt_succ_of_le h
    rw [Nat.succ_eq_add_one, slice_lines h last]
    by_cases empty : t.line (b + 1) = []
    · simp [empty, ended, endsInBreak_wholeLines h (Nat.le_of_lt last), lastKept, isEmptyLine,
        several]
    · have kept : t.lastKept a (b + 1) = b + 1 := by simp [lastKept, isEmptyLine, empty]
      rw [ended, endsInBreak_append_of_ne_nil _ empty, endsInBreak_line, kept,
        wholeLines_succ h last]
      simp

/-- A register shows all the lines unless the last of several is empty. -/
theorem wholeLines_lastKept_iff {t : Text} (h : a ≤ b) (last : b ≤ t.lastLine) :
    t.wholeLines a (t.lastKept a b) = t.wholeLines a b ↔ ¬(a < b ∧ t.isEmptyLine b) := by
  by_cases lost : a < b ∧ t.isEmptyLine b
  · obtain ⟨b, rfl⟩ := Nat.exists_eq_add_of_lt lost.1
    have shorter := congrArg List.length (wholeLines_succ (Nat.le_add_right a b) last)
    rw [lastKept, if_pos lost, Nat.add_sub_cancel]
    refine iff_of_false (fun same => ?_) (not_not_intro lost)
    rw [← same] at shorter
    simp at shorter
  · rw [lastKept, if_neg lost]
    exact iff_of_true rfl lost

theorem isEmpty_of_lineStart_eq {t : Text} (h : a ≤ b) (last : b ≤ t.lastLine)
    (same : t.lineStart a = t.lineEnd b) : a = b ∧ t.isEmptyLine a := by
  rcases Nat.eq_or_lt_of_le h with rfl | several
  · refine ⟨rfl, ?_⟩
    unfold lineEnd lineLength at same
    rw [isEmptyLine, List.isEmpty_iff, ← List.length_eq_zero_iff]
    omega
  · have next := lineStart_succ (Nat.lt_of_lt_of_le several last)
    have later := t.lineStart_le_lineEnd_of_le (Nat.succ_le_of_lt several)
    have row := t.lineStart_le_lineEnd a
    rw [Nat.succ_eq_add_one] at later
    omega

theorem span_isEmpty_iff {t : Text} (h : a ≤ b) (last : b ≤ t.lastLine) :
    (Extent.ofLines t a b).span.isEmpty = true ↔ a = b ∧ t.isEmptyLine a := by
  rw [ofLines_eq h, Span.isEmpty, beq_iff_eq]
  constructor
  · exact isEmpty_of_lineStart_eq h last
  · rintro ⟨rfl, empty⟩
    have none : t.lineLength a = 0 := by
      rw [lineLength, List.isEmpty_iff.mp empty, List.length_nil]
    exact (congrArg (t.lineStart a + ·) none).symm

/-- A deletion of lines takes at least a break, unless there is no character at all. -/
theorem removal_isEmpty_iff {t : Text} (h : a ≤ b) (last : b ≤ t.lastLine) :
    ((Extent.ofLines t a b).removal t).isEmpty = true ↔ t = [] := by
  constructor
  · intro nothing
    by_contra some
    have filled := removal_filled h last (by rwa [remove_of_isEmpty nothing])
    cases nothing.symm.trans filled
  · rintro rfl
    obtain rfl : b = 0 := Nat.le_zero.mp last
    obtain rfl : a = 0 := Nat.le_zero.mp h
    rfl

end Text

/-! ### Writing a register -/

theorem RegisterBank.get_write (b : RegisterBank) (t : Text) (linewise : Bool)
    (register : Option RegisterName) (plain : (register.getD .unnamed).appends = false) :
    (b.write t linewise register).get (register.getD .unnamed) = some (.of t linewise) ∧
      (b.write t linewise register).get .unnamed = some (.of t linewise) := by
  have stored := b.store.stored_of_plain _ (.of t linewise) plain
  constructor
  · rw [get_write_name, stored]
  · rw [get_write_unnamed, stored]

/-! ### The lines that a command takes -/

/-- The line that a motion from line to line leads to from line `l`, if it leads anywhere. -/
def Motion.goalLine? (m : Motion) (t : Text) (l count : Nat) : Option Nat :=
  let last := lastReachableLine t .operator
  let n := max count 1
  match m with
  | up => if l = 0 then none else some (l - n)
  | down => if last ≤ l then none else some (min (l + n) last)
  | bufferStart => some (min (n - 1) last)
  | bufferEnd => some (if n = 1 then last else min (n - 1) last)
  | _ => none

theorem Motion.goalLine?_eq_lineFrom? (m : Motion) (t : Text) (l count : Nat) :
    m.goalLine? t l count = m.lineFrom? (lastReachableLine t .operator) l count := by
  cases m <;> rfl

theorem Motion.goalLine?_le {m : Motion} {t : Text} (line : l ≤ t.lastLine)
    (goal : m.goalLine? t l count = some g) : g ≤ t.lastLine := by
  have last := lastReachableLine_le t .operator
  cases m with
  | up | down =>
    simp only [goalLine?] at goal
    split at goal
    · cases goal
    · cases goal
      omega
  | bufferStart =>
    cases goal
    omega
  | bufferEnd =>
    cases goal
    split <;> omega
  | _ => cases goal

/-- A motion from line to line makes an operator take the lines from the cursor to its goal. -/
theorem Motion.resolve_goalLine {m : Motion} {t : Text} {i : Nat} (cursor : i ≤ t.length)
    (goal : m.goalLine? t (t.lineOf i) count = some l) (wanted : Option Wanted)
    (lastFind : Option Find) :
    (m.resolve t i count (.operator t wanted lastFind)).map (Extent.ofLanding t i) =
      some (Extent.ofLines t (t.lineOf i) l) := by
  have bound := goalLine?_le (t.lineOf_le_lastLine i) goal
  obtain ⟨there, inside⟩ := Text.lineOf_atColumn bound (wanted.getD (.column (t.column i))) false
  have linewise : m.isLinewise = true := by cases m <;> first | rfl | cases goal
  have landed : m.landing? t i (max count 1) (.operator t wanted lastFind) =
      some (.onLine t i l (.operator t wanted lastFind)) := by
    rw [goalLine?_eq_lineFrom?] at goal
    exact (landing?_of_isLinewise linewise).trans (congrArg (Option.map _) goal)
  simp only [resolve, Nat.min_eq_left cursor, landed, Option.map_some]
  simp only [Extent.ofLanding, Landing.onLine, Context.operator, reduceCtorEq, decide_false,
    Nat.min_eq_left inside, there]

/-- The lines that a command takes as a whole, the first and the last of them. -/
def Editor.linesTaken? (e : Editor) : Command → Option (Nat × Nat)
  | .edit (.operate _ .lines _) count =>
    let l := e.text.lineOf e.cursor
    if e.mode = .normal then some (l, min (l + (count - 1)) e.text.lastLine) else none
  | .edit (.operate _ (.motion m) _) count =>
    let l := e.text.lineOf e.cursor
    if e.mode = .normal then (m.goalLine? e.text l count).map fun goal => (min l goal, max l goal)
    else none
  | .operateSelection _ _ =>
    if e.mode = .visualLine then
      e.anchor?.map fun anchor =>
        (e.text.lineOf (min anchor e.cursor), e.text.lineOf (max anchor e.cursor))
    else none
  | _ => none

theorem Editor.linesTaken?_ordered {e : Editor} {c : Command}
    (taken : e.linesTaken? c = some (first, last)) : first ≤ last ∧ last ≤ e.text.lastLine := by
  have line := e.text.lineOf_le_lastLine e.cursor
  unfold linesTaken? at taken
  split at taken
  · dsimp only at taken
    split at taken
    · cases taken
      omega
    · cases taken
  · dsimp only at taken
    split at taken
    · obtain ⟨goal, there, ends⟩ := Option.map_eq_some_iff.mp taken
      cases ends
      have bound := Motion.goalLine?_le line there
      omega
    · cases taken
  · split at taken
    · obtain ⟨anchor, _, ends⟩ := Option.map_eq_some_iff.mp taken
      cases ends
      exact ⟨e.text.lineOf_mono (by omega), e.text.lineOf_le_lastLine _⟩
    · cases taken
  · cases taken

/-- The register that a command names for what it takes. -/
def Command.register : Command → RegisterName
  | .edit (.operate _ _ register) _ | .operateSelection _ register => register.getD .unnamed
  | _ => .unnamed

theorem Command.register_eq {c : Command} (applied : c.operation? = some (op, name?)) :
    c.register = name?.getD .unnamed := by
  unfold operation? at applied
  split at applied
  · cases applied
    rfl
  · cases applied
    rfl
  · cases applied

/-- The lines that a command takes are what its operator acts on. -/
theorem Editor.extent?_of_linesTaken {e : Editor} (placed : e.Placed) {c : Command}
    (taken : e.linesTaken? c = some (first, last)) :
    (∃ op register, c.operation? = some (op, register)) ∧
      e.extent? c = some (Extent.ofLines e.text first last) := by
  unfold linesTaken? at taken
  split at taken
  · rename_i op register count
    dsimp only at taken
    split at taken
    · rename_i normal
      cases taken
      refine ⟨⟨op, register, rfl⟩, ?_⟩
      have line := e.text.lineOf_le_lastLine e.cursor
      have ordered : e.text.lineOf e.cursor ≤
          min (e.text.lineOf e.cursor + (count - 1)) e.text.lastLine := by omega
      simp only [extent?, normal, if_true, Workspace.targetExtent?, Extent.counted,
        Extent.ofLines, Nat.min_eq_left ordered, Nat.max_eq_right ordered, e.text.lineEnd_min,
        Nat.min_eq_left (Nat.le_add_right _ _), Nat.max_eq_right (Nat.le_add_right _ _)]
    · cases taken
  · rename_i op m register count
    dsimp only at taken
    split at taken
    · rename_i normal
      obtain ⟨goal, there, ends⟩ := Option.map_eq_some_iff.mp taken
      cases ends
      refine ⟨⟨op, register, rfl⟩, ?_⟩
      have found := Motion.resolve_goalLine placed.cursor_le_length there e.wanted? e.lastFind?
      simp only [extent?, normal, if_true, Workspace.targetExtent?, found]
      rcases Nat.le_total (e.text.lineOf e.cursor) goal with down | up
      · rw [Nat.min_eq_left down, Nat.max_eq_right down]
      · rw [Nat.min_eq_right up, Nat.max_eq_left up, Extent.ofLines, Extent.ofLines, Nat.min_comm,
          Nat.max_comm]
    · cases taken
  · rename_i op register
    split at taken
    · rename_i mode
      obtain ⟨anchor, there, ends⟩ := Option.map_eq_some_iff.mp taken
      cases ends
      refine ⟨⟨op, register, rfl⟩, ?_⟩
      obtain ⟨_, _, same, selected⟩ := placed.lines mode
      obtain rfl := Option.some.inj (there.symm.trans same)
      have ordered : e.text.lineOf (min anchor e.cursor) ≤ e.text.lineOf (max anchor e.cursor) :=
        e.text.lineOf_mono (by omega)
      simp only [extent?, mode, Mode.isVisual, if_true, selected, Option.map_some,
        Selection.between, decide_true, Extent.ofLines, Nat.min_eq_left ordered,
        Nat.max_eq_right ordered]
    · cases taken
  · cases taken

/-- Has an operator nothing to store of the lines from `first` to `last`? A yank always stores them, with
a break. A deletion takes a break at the least, and a change leaves the last one where it is. -/
def Operator.takesNothing (op : Operator) (t : Text) (first last : Nat) : Prop :=
  match op with
  | .yank => False
  | .delete => t = []
  | .change => first = last ∧ t.isEmptyLine first

/-- What becomes of the registers when an operator takes the lines from `first` to `last` under a name:
they are stored as lines, if the operator takes anything of them. -/
def LinesStored (op : Operator) (t : Text) (first last : Nat) (name : RegisterName)
    (before after : RegisterBank) : Prop :=
  (op.takesNothing t first last → after = before) ∧
    (¬op.takesNothing t first last →
      after.get name = some ⟨t.wholeLines first (t.lastKept first last), true⟩ ∧
        after.get .unnamed = some ⟨t.wholeLines first (t.lastKept first last), true⟩)

namespace Workspace

variable {w : Workspace}

/-- An operator stores the lines of its range, unless it takes nothing of them. -/
theorem operateOn_registers (h : first ≤ last) (bound : last ≤ w.editor.text.lastLine) (op : Operator)
    (register : Option RegisterName) :
    let x := Extent.ofLines w.editor.text first last
    (op.takesNothing w.editor.text first last →
      (w.operateOn op x register).1.registers = w.registers) ∧
    (¬op.takesNothing w.editor.text first last →
      (w.operateOn op x register).1.registers =
        w.registers.write (w.editor.text.slice x.span) true register) := by
  intro x
  cases op with
  | yank =>
    refine ⟨False.elim, fun _ => ?_⟩
    have lines : x.linewise = true := rfl
    simp [operateOn, yank, lines]
  | delete =>
    have removes := Text.removal_isEmpty_iff h bound
    constructor
    · intro nothing
      rw [operateOn, delete, if_pos (removes.mpr nothing)]
      rfl
    · intro some
      rw [operateOn, delete, if_neg (mt removes.mp some)]
      rfl
  | change =>
    have covers := Text.span_isEmpty_iff h bound
    constructor
    · intro nothing
      rw [operateOn, change, if_pos (covers.mpr nothing)]
    · intro some
      rw [operateOn, change, if_neg (mt covers.mp some)]
      rfl

theorem operateOn_linesStored (h : first ≤ last) (bound : last ≤ w.editor.text.lastLine)
    (op : Operator) (register : Option RegisterName)
    (plain : (register.getD .unnamed).appends = false) :
    LinesStored op w.editor.text first last (register.getD .unnamed) w.registers
      (w.operateOn op (.ofLines w.editor.text first last) register).1.registers := by
  obtain ⟨kept, written⟩ := operateOn_registers h bound op register
  refine ⟨kept, fun some => ?_⟩
  have span : (Extent.ofLines w.editor.text first last).span =
      Span.between (w.editor.text.lineStart first) (w.editor.text.lineEnd last) := by
    rw [Extent.ofLines, Nat.min_eq_left h, Nat.max_eq_right h]
  have stored := w.registers.get_write
    (w.editor.text.slice (Extent.ofLines w.editor.text first last).span) true register plain
  rw [written some]
  simpa only [Register.of, if_true, span, Text.ended_slice h bound] using stored

theorem perform_linesStored (placed : w.editor.Placed) (c : Command)
    (taken : w.editor.linesTaken? c = some (first, last)) (plain : c.register.appends = false) :
    ∃ op register, c.operation? = some (op, register) ∧
      LinesStored op w.editor.text first last c.register w.registers (w.perform c).1.registers := by
  obtain ⟨ordered, bound⟩ := Editor.linesTaken?_ordered taken
  obtain ⟨⟨op, register, applied⟩, found⟩ := Editor.extent?_of_linesTaken placed taken
  obtain ⟨w', text, _, registers, _, after⟩ := perform_of_extent applied found
  refine ⟨op, register, applied, ?_⟩
  rw [Command.register_eq applied] at plain ⊢
  rw [← text] at bound
  rw [after, ← text, ← registers]
  exact operateOn_linesStored ordered bound op register plain

end Workspace

namespace Session

/-- A command that takes lines as a whole leaves them in its register, each with a break, exactly
if they do not end in an empty line below another one; then that empty line is missing. Only a change of
a single empty line, and a deletion in an empty text, leave the registers as they were. -/
theorem linewise_register_holds_lines {s : Session} (reached : s.Reachable) (b : RegisterBank)
    (k : KeyPress) (performed : (s.press b k).2 = .performed c outcome)
    (taken : s.editor.linesTaken? c = some (first, last))
    (plain : c.register.appends = false) :
    ∃ op register, c.operation? = some (op, register) ∧
      (op.takesNothing s.editor.text first last → (s.press b k).1.2 = b) ∧
      (¬op.takesNothing s.editor.text first last →
        ∃ r, (s.press b k).1.2.get c.register = some r ∧
          (s.press b k).1.2.get .unnamed = some r ∧ r.linewise = true ∧
          (r.content = s.editor.text.wholeLines first last ↔
            ¬(first < last ∧ s.editor.text.isEmptyLine last)) ∧
          (first < last ∧ s.editor.text.isEmptyLine last →
            r.content = s.editor.text.wholeLines first (last - 1))) := by
  obtain ⟨ordered, bound⟩ := Editor.linesTaken?_ordered taken
  obtain ⟨op, register, applied, kept, stored⟩ :=
    Workspace.perform_linesStored (w := ⟨s.editor, b, s.recorder⟩) reached.placed c taken plain
  have after : (s.press b k).1 = (s.dropPending.perform b c).1 := press_performed performed
  rw [after]
  refine ⟨op, register, applied, kept, fun some => ?_⟩
  obtain ⟨named, unnamed⟩ := stored some
  refine ⟨_, named, unnamed, rfl, Text.wholeLines_lastKept_iff ordered bound, fun lost => ?_⟩
  rw [Text.lastKept, if_pos lost]

/-- Deleting two of three lines, the second of them blank. -/
theorem linewise_register_holds_blank_line :
    let s := (ofText ['x', '\n', ' ', '\n', 'y'] .normal 0 100).run [({}, .press (.char 'd'))]
    s.Reachable ∧ (s.press {} (.char 'j')).2 =
        .performed (.edit (.operate .delete (.motion .down) none) 1) .edited ∧
      ∃ r, (s.press {} (.char 'j')).1.2.get .unnamed = some r ∧ r.linewise = true ∧
        r.content = ['x', '\n', ' ', '\n'] := by
  intro s
  have reached : s.Reachable := (Reachable.opened _ _ _ _).run _
  have performed : (s.press {} (.char 'j')).2 =
      .performed (.edit (.operate .delete (.motion .down) none) 1) .edited := by decide
  have taken : s.editor.linesTaken? (.edit (.operate .delete (.motion .down) none) 1) =
      some (0, 1) := by decide
  refine ⟨reached, performed, ?_⟩
  obtain ⟨op, _, applied, _, stored⟩ :=
    linewise_register_holds_lines reached {} (.char 'j') performed taken rfl
  cases applied
  obtain ⟨r, _, unnamed, lines, whole, _⟩ := stored nofun
  exact ⟨r, unnamed, lines, whole.mpr (by decide)⟩

/-- Yanking two of three lines, the second of them empty, leaves only the first. -/
theorem linewise_register_loses_empty_line :
    let s := (ofText ['x', '\n', '\n', 'y'] .normal 0 100).run [({}, .press (.char 'y'))]
    s.Reachable ∧ (s.press {} (.char 'j')).2 =
        .performed (.edit (.operate .yank (.motion .down) none) 1) .unchanged ∧
      s.editor.linesTaken? (.edit (.operate .yank (.motion .down) none) 1) = some (0, 1) ∧
      s.editor.text.wholeLines 0 1 = ['x', '\n', '\n'] ∧
      (s.press {} (.char 'j')).1.2.get .unnamed = some ⟨['x', '\n'], true⟩ := by
  refine ⟨(Reachable.opened _ _ _ _).run _, ?_⟩
  decide

end Session

end ModalEdit
