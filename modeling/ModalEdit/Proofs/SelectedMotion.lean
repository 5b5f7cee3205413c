import ModalEdit.Proofs.Anchor
import ModalEdit.Proofs.Checked.Motion
import ModalEdit.Proofs.Partner
import ModalEdit.Proofs.RepeatedFind

/-! An operator on a motion, and the same operator on what is selected by the motion. The operator may take
the text up to its end, while a selection has its far end on a character; but a motion that takes its target
with it has the target on a character too, and the selection has both ends. So the ranges are the same,
whether the motion leads forward or back. -/
namespace ModalEdit

namespace Motion

/-- Does the motion go to a character that an operator takes with it? -/
def takesTarget : Motion → Bool
  | wordEnd _ | matchPair => true
  | find f => f.forward
  | _ => false

theorem walk_le {step : Nat → Nat} (keeps : ∀ i, step i ≤ last) (n : Nat) (inside : i ≤ last) :
    walk step n i ≤ last := by
  induction n generalizing i with
  | zero => exact inside
  | succ n ih =>
    rw [walk]
    split
    · exact inside
    · exact ih (keeps i)

end Motion

theorem Text.find?_lt {t : Text} (cursor : i ≤ t.length - 1)
    (found : t.find? f i count again = some q) : q < t.length := by
  obtain ⟨p, there, _⟩ := Option.map_eq_some_iff.mp found
  have hit := isHit_of_mem_occurrences (List.mem_of_getElem? there)
  have filled := (List.getElem?_eq_some_iff.mp hit.1).1
  have bound := (lineOf_find? found).2
  omega

namespace Motion

variable {m : Motion} {t : Text}

/-- Where such a motion lands does not depend on what it is for. -/
theorem landing?_of_takesTarget (takes : m.takesTarget = true) (cursor : i ≤ t.length - 1)
    (count : Nat) :
    ∃ q?, (∀ q, q? = some q → q < t.length) ∧
      ∀ ctx, m.landing? t i count ctx = q?.map .through := by
  cases m with
  | wordEnd style =>
    by_cases empty : t.isEmpty = true
    · exact ⟨none, nofun, fun ctx => if_pos empty⟩
    · have bound := walk_le (Checked.wordEnd_le t style) count cursor
      refine ⟨some (walk (t.wordEnd style) count i), ?_, fun ctx => if_neg empty⟩
      rintro _ ⟨⟩
      have filled : 0 < t.length := by
        apply List.length_pos_iff.mpr
        rintro rfl
        exact empty rfl
      omega
  | matchPair => exact ⟨t.matchPair i, fun q found => (Text.matchPair_lt found).2, fun ctx => rfl⟩
  | find f =>
    have forward : f.forward = true := takes
    refine ⟨t.find? f i count false, fun q found => Text.find?_lt cursor found, ?_⟩
    intro ctx
    simp only [landing?, Landing.find?, forward, if_true]
  | _ => cases takes

/-- If such a motion has a landing for one purpose, it has the same for every other. -/
theorem resolve_of_takesTarget (takes : m.takesTarget = true) (cursor : i ≤ t.length - 1)
    (limit : t.length - 1 ≤ ctx.limit) (there : m.resolve t i count ctx ≠ none) :
    ∃ q < t.length, ∀ ctx : Context, t.length - 1 ≤ ctx.limit →
      m.resolve t i count ctx = some (.through q) := by
  obtain ⟨q?, inside, lands⟩ := landing?_of_takesTarget takes cursor (max count 1)
  have resolves (ctx : Context) (limit : t.length - 1 ≤ ctx.limit) :
      m.resolve t i count ctx = q?.map .through := by
    rw [resolve, Nat.min_eq_left (by omega), lands, Option.map_map]
    refine Option.map_congr fun q found => ?_
    have bound := inside q found
    simp only [Function.comp_apply, Landing.through]
    rw [Nat.min_eq_left (by omega)]
  cases q? with
  | none => exact absurd (resolves ctx limit) there
  | some q => exact ⟨q, inside q rfl, resolves⟩

end Motion

/-! ### What an operator leaves behind -/

namespace History

theorem length_push (h : History) (c : Checkpoint) :
    (h.push c).undos.length = min h.capacity (h.undos.length + 1) := by
  rw [push, List.length_take, List.length_cons]

/-- A checkpoint that an insertion takes over is one like any other. -/
theorem length_adoptRun_push (h : History) (i : Nat) (c : Checkpoint) :
    ((h.markOrigin i).push c).adoptRun.undos.length = min h.capacity (h.undos.length + 1) := by
  cases run : h.run <;> simp [markOrigin, push, adoptRun, run]

end History

namespace Editor

variable {e e' : Editor}

theorem settle_cursor_congr (text : e.text = e'.text) (cursor : e.cursor = e'.cursor)
    (mode : e.mode = e'.mode) : e.settle.cursor = e'.settle.cursor := by
  obtain ⟨t, i, _, m⟩ := e
  obtain ⟨t', i', _, m'⟩ := e'
  cases text
  cases cursor
  cases mode
  rw [settle_cursor, settle_cursor]
  rfl

end Editor

namespace Workspace

/-- The same to see in the text, in the registers and in how far one can go back. -/
structure EndsAs (w w' : Workspace) : Prop where
  text : w.editor.text = w'.editor.text
  cursor : w.editor.cursor = w'.editor.cursor
  mode : w.editor.mode = w'.editor.mode
  registers : w.registers = w'.registers
  undos : w.editor.history.undos.length = w'.editor.history.undos.length

variable {w w' : Workspace}

theorem EndsAs.of_same {same : Workspace} (ends : w.EndsAs w') (editor : same.editor = w'.editor)
    (registers : same.registers = w'.registers) : w.EndsAs same := by
  obtain ⟨editor', registers', recorder⟩ := same
  cases editor
  cases registers
  exact ⟨ends.text, ends.cursor, ends.mode, ends.registers, ends.undos⟩

section

variable {x : Extent} (chars : x.linewise = false) (filled : x.span.isEmpty = false) {op : Operator}
  (cuts : op ≠ .yank) (register : Option RegisterName)

include chars filled cuts

/-- To cut something out makes one step back. -/
theorem length_operateOn_undos (w : Workspace) :
    (w.operateOn op x register).1.editor.history.undos.length =
      min w.editor.history.capacity (w.editor.history.undos.length + 1) := by
  cases op with
  | yank => exact absurd rfl cuts
  | delete =>
    simp only [operateOn, delete, Extent.removal, chars, filled, Bool.false_eq_true, if_false,
      Editor.settle_history]
    exact History.length_push _ _
  | change =>
    simp only [operateOn, change, filled, Bool.false_eq_true, if_false]
    exact History.length_adoptRun_push _ _ _

/-- Where an operator has something to cut out, it does not matter where the cursor was. -/
theorem operateOn_endsAs (text : w.editor.text = w'.editor.text)
    (mode : w.editor.mode = w'.editor.mode) (registers : w.registers = w'.registers)
    (undos : w.editor.history.undos = w'.editor.history.undos)
    (capacity : w.editor.history.capacity = w'.editor.history.capacity) :
    (w.operateOn op x register).1.EndsAs (w'.operateOn op x register).1 where
  text := by rw [operateOn_text, operateOn_text, text]
  registers := by rw [operateOn_writes filled, operateOn_writes filled, registers, text]
  undos := by
    rw [length_operateOn_undos chars filled cuts, length_operateOn_undos chars filled cuts, undos,
      capacity]
  cursor := by
    cases op with
    | yank => exact absurd rfl cuts
    | delete =>
      simp only [operateOn, delete, Extent.removal, chars, filled, Bool.false_eq_true, if_false]
      apply Editor.settle_cursor_congr
      · simp only [Editor.removeSpan, Editor.edit, text]
      · rfl
      · exact mode
    | change =>
      have begins (w : Workspace) : (w.operateOn .change x register).1.editor.cursor =
          min x.span.start (w.editor.text.remove x.span).length := by
        simp only [operateOn, change, filled, Bool.false_eq_true, if_false]
        rfl
      rw [begins, begins, text]
  mode := by
    cases op with
    | yank => exact absurd rfl cuts
    | delete =>
      simp only [operateOn, delete, Extent.removal, chars, filled, Bool.false_eq_true, if_false,
        Editor.settle_mode]
      exact mode
    | change => exact (operateOn_change_mode w x _).trans (operateOn_change_mode w' x _).symm

end

/-! ### Both ways -/

theorem move_cursor (w : Workspace)
    (landed : ∀ f?, m.resolve w.editor.text w.editor.cursor count
      (cursorContext { w.editor with lastFind? := f? }) = some x) :
    (w.move m count).1.editor.cursor = x.target := by
  obtain ⟨f?, remembered⟩ := rememberFind_eq w.editor m
  simp only [move]
  rw [remembered]
  dsimp only
  rw [landed]
  dsimp only
  split <;> rfl

theorem perform_startVisual (normal : w.editor.mode = .normal) :
    (w.perform .startVisual).1 = { w with editor := w.editor.setMode .visual } := by
  simp only [perform, startVisual, normal]
  rfl

/-- A selection that begins at the cursor and goes to where a motion lands. -/
theorem perform_selected_motion (placed : w.editor.Placed) (normal : w.editor.mode = .normal)
    (lands : ∀ ctx : Motion.Context, w.editor.text.length - 1 ≤ ctx.limit →
      m.resolve w.editor.text w.editor.cursor count ctx = some (.through q)) :
    let v := w.performAll [.startVisual, .move m count]
    v.editor.text = w.editor.text ∧ v.editor.mode = .visual ∧
      v.editor.history = w.editor.history ∧ v.registers = w.registers ∧
      v.editor.selection? = some (.between w.editor.text w.editor.cursor q .chars) := by
  intro v
  let begun : Workspace := { w with editor := w.editor.setMode .visual }
  have same : v = (begun.move m count).1 := congrArg (fun w => (w.move m count).1)
    (perform_startVisual normal)
  obtain ⟨text, mode, _, history, _⟩ := begun.move_kept m count
  have text' : v.editor.text = w.editor.text := by
    rw [same, text]
    exact w.editor.setMode_text .visual
  have mode' : v.editor.mode = .visual := by
    rw [same, mode]
    exact w.editor.setMode_mode .visual
  have anchor : v.editor.anchor? = some w.editor.cursor := by
    rw [same, move_anchor]
    simp [begun, Editor.setMode, Editor.refreshSelection, normal, Mode.isVisual]
  have cursor : v.editor.cursor = q := by
    have outside : begun.editor.mode ≠ .insert := by
      rw [w.editor.setMode_mode .visual]
      decide
    rw [same]
    refine move_cursor begun (x := .through q) fun f? => ?_
    rw [w.editor.setMode_text .visual, w.editor.setMode_cursor .visual]
    apply lands
    rw [(cursorContext_of_ne_insert (e := { begun.editor with lastFind? := f? }) outside).2]
    exact Nat.le_of_eq (congrArg (·.length - 1) (w.editor.setMode_text .visual).symm)
  have placed' : v.editor.Placed := perform_placed (perform_placed placed _) _
  have selected := (placed'.chars mode' anchor).2
  rw [text', cursor] at selected
  refine ⟨text', mode', ?_, ?_, selected⟩
  · rw [same, history]
    exact w.editor.setMode_history .visual
  · rw [same]
    exact (perform_bystander begun (c := .move m count) rfl).1

/-- An operator on selected characters works from their start. -/
theorem operateSelection_of_chars (visual : w.editor.mode.isVisual = true)
    (selected : w.editor.selection? = some s) (chars : s.kind = .chars) (op : Operator)
    (register : Option RegisterName) :
    (w.operateSelection op register).1 =
      (({ w with editor := { w.editor.setMode .normal with cursor := s.span.start } } :
        Workspace).operateOn op ⟨s.span, false⟩ register).1 := by
  simp only [operateSelection, selected, visual, if_true, chars]
  rw [if_pos (.inr rfl)]
  rfl

/-- An operator on what a motion has selected ends as the operator on the motion. -/
theorem performAll_endsAs_operate (placed : w.editor.Placed) (normal : w.editor.mode = .normal)
    (takes : m.takesTarget = true) (there : w.landing? m count ≠ none) {op : Operator}
    (cuts : op ≠ .yank) (register : Option RegisterName) :
    (w.performAll [.startVisual, .move m count, .operateSelection op register]).EndsAs
      (w.perform (.edit (.operate op (.motion m) register) count)).1 := by
  have outside : w.editor.mode ≠ .insert := by rw [normal]; nofun
  have limit := cursorContext_of_ne_insert outside
  have cursor := placed.cursor_le outside
  obtain ⟨q, inside, lands⟩ :=
    Motion.resolve_of_takesTarget takes cursor (Nat.le_of_eq limit.2.symm) there
  let x : Extent := .ofLanding w.editor.text w.editor.cursor (.through q)
  have filled : x.span.isEmpty = false := by
    simp only [x, Extent.ofLanding, Motion.Landing.through, Extent.charwise, Span.between,
      Span.isEmpty, beq_eq_false_iff_ne]
    omega
  -- with the motion as its target
  have aims : targetExtent? w.editor (.motion m) count = some x := by
    rw [targetExtent?, lands _ (Nat.sub_le _ _)]
    rfl
  obtain ⟨f?, aimed⟩ := w.aim_eq (.motion m)
  obtain ⟨editor, bank⟩ := operate_of_found normal op register aims
  rw [aimed] at editor bank
  -- with what the motion has selected
  obtain ⟨text, mode, history, registers, selected⟩ := perform_selected_motion placed normal lands
  let v := w.performAll [.startVisual, .move m count]
  let start : Workspace :=
    { v with editor := { v.editor.setMode .normal with cursor := x.span.start } }
  have visual : v.editor.mode.isVisual = true := by rw [mode]; rfl
  have operated : w.performAll [.startVisual, .move m count, .operateSelection op register] =
      (start.operateOn op x register).1 := operateSelection_of_chars visual selected rfl op register
  rw [operated]
  have ends : (start.operateOn op x register).1.EndsAs ((w.withFind f?).operateOn op x register).1 :=
    operateOn_endsAs rfl filled cuts register text normal.symm registers
      (congrArg (·.undos) history) (congrArg (·.capacity) history)
  exact ends.of_same editor bank

end Workspace

/-! ### Keys -/

open KeyPress (Types)
open Pending (Completes)

/-- A count and a motion, without an operator. -/
theorem TargetKeys.completes_counted {mode : Mode} (aims : TargetKeys op n aim (.motion m))
    (outside : mode ≠ .insert) (numeral : n.IsNumeral) (types : Types own n) :
    Completes mode {} (own ++ aim) (.move m (min n.number maxCount)) := by
  have counted := Pending.gathers_numeral (p := {}) outside rfl rfl numeral types
  rw [show Pending.withNumeral {} n = .ahead n none from (Pending.ahead_eq n none).symm] at counted
  obtain ⟨free, idle⟩ := Pending.ahead_free n none
  refine counted.completes (aims.completes_move outside free ?_ ?_)
  · intro empty
    rw [empty]
    rfl
  · rw [← Pending.ahead_count numeral none, Pending.move, idle]

namespace Session

variable {s : Session} {n : Text} {own aim : List KeyPress} {v k : KeyPress}

/-- What keys leave behind, but for what is typed of a command. -/
def after (s : Session) (b : RegisterBank) (keys : List KeyPress) : Workspace :=
  (s.pressAll b keys).1.1.workspace (s.pressAll b keys).1.2

/-- What keys come to that complete a command. -/
theorem after_of_completes (b : RegisterBank) (completes : Completes mode p keys command)
    (now : s.editor.mode = mode) (typed : s.pending = p) :
    s.after b keys = ((s.workspace b).perform command).1 ∧
      (s.pressAll b keys).1.1.pending = {} := by
  rw [after, pressAll_of_completes b completes now typed]
  exact ⟨rfl, rfl⟩

/-- The keys of a selection, of a motion with its count and of an operator. -/
theorem after_selected_motion (ready : s.Ready) (b : RegisterBank) (numeral : Text.IsNumeral n)
    (types : Types own n) (aims : TargetKeys op n aim (.motion m))
    (begins : v.plainChar? = some 'v') (operator : k.plainChar? = some op.toChar) :
    s.after b (v :: own ++ aim ++ [k]) = (s.workspace b).performAll
      [.startVisual, .move m (min n.number maxCount), .operateSelection op none] := by
  let first := (s.pressAll b [v]).1
  let second := (first.1.pressAll first.2 (own ++ aim)).1
  have pressed : s.after b (v :: own ++ aim ++ [k]) = second.1.after second.2 [k] := by
    have split : v :: own ++ aim ++ [k] = [v] ++ ((own ++ aim) ++ [k]) := by simp
    rw [after, split, pressAll_append_fst, pressAll_append_fst]
    rfl
  have reading : Completes .normal {} [v] .startVisual := by
    refine .last ?_
    rw [Pending.press_char (m := .normal) nofun rfl begins]
    rfl
  obtain ⟨begun, nothing⟩ := after_of_completes b reading ready.1 ready.2
  have mode : first.1.editor.mode = .visual := by
    have editor : first.1.editor = _ := congrArg (·.editor) begun
    rw [editor, Workspace.perform_startVisual (w := s.workspace b) ready.1]
    exact s.editor.setMode_mode .visual
  have outside : Mode.visual ≠ .insert := nofun
  obtain ⟨moved, nothing'⟩ := after_of_completes (s := first.1) first.2
    (aims.completes_counted outside numeral types) mode nothing
  have mode' : second.1.editor.mode = .visual := by
    have editor : second.1.editor = _ := congrArg (·.editor) moved
    rw [editor]
    exact ((first.1.workspace first.2).move_kept m _).2.1.trans mode
  have applied : Completes .visual {} [k] (.operateSelection op none) :=
    .last ((Pending.press_visual rfl rfl rfl).1 op operator)
  obtain ⟨operated, _⟩ := after_of_completes (s := second.1) second.2 applied mode' nothing'
  rw [pressed, operated, show second.1.workspace second.2 = _ from moved,
    show first.1.workspace first.2 = _ from begun]
  rfl

/-- A deletion or a change of what a motion has selected ends in the same text, cursor, mode, registers and
number of steps back as the deletion or the change on the motion, if the motion takes its target with it and
has one from the cursor. So do the keys for the one and for the other, with a count for the motion in
either. -/
theorem selected_motion_operates_alike (reached : s.Reachable) (normal : s.editor.mode = .normal)
    (b : RegisterBank) {m : Motion} (takes : m.takesTarget = true) {op : Operator}
    (cuts : op ≠ .yank) :
    (∀ count register, (s.workspace b).landing? m count ≠ none →
      ((s.workspace b).performAll
          [.startVisual, .move m count, .operateSelection op register]).EndsAs
        ((s.workspace b).perform (.edit (.operate op (.motion m) register) count)).1) ∧
    (s.pending = {} → ∀ {n own aim v k}, Text.IsNumeral n → Types own n →
      TargetKeys op n aim (.motion m) → v.plainChar? = some 'v' → k.plainChar? = some op.toChar →
      (s.workspace b).landing? m (min n.number maxCount) ≠ none →
      (s.after b (v :: own ++ aim ++ [k])).EndsAs (s.after b (k :: own ++ aim))) := by
  have alike (count register) (there : (s.workspace b).landing? m count ≠ none) :=
    Workspace.performAll_endsAs_operate (w := s.workspace b) reached.placed normal takes there cuts
      register
  refine ⟨alike, ?_⟩
  intro idle n own aim v k numeral types aims begins operator there
  have ready : s.Ready := ⟨normal, idle⟩
  have bare : Text.IsNumeral [] := ⟨nofun, nofun⟩
  have completes := operator_completes (.unnamed []) bare (KeyPress.types_nil.mpr rfl) operator
    numeral types aims
  obtain ⟨aimed, _⟩ := after_of_completes b completes normal idle
  have count : min (Text.number [] * n.number) maxCount = min n.number maxCount := by
    rw [Text.number, if_pos rfl, Nat.one_mul]
  rw [count] at aimed
  rw [after_selected_motion ready b numeral types aims begins operator,
    show s.after b (k :: own ++ aim) = _ from aimed]
  exact alike _ none there

/-- Back to a bracket on another line, and on to the end of the second word. -/
theorem selected_motion_operates_alike_both_ways :
    let t := ['a', 'b', ' ', '(', 'c', '\n', 'd', ')']
    let s := ofText t .normal 7 100
    let s' := ofText t .normal 0 100
    s.Reachable ∧
      (s.after {} [.char 'v', .char '%', .char 'd']).EndsAs (s.after {} [.char 'd', .char '%']) ∧
      (s.after {} [.char 'd', .char '%']).editor.text = ['a', 'b', ' '] ∧
      s'.Reachable ∧
      (s'.after {} [.char 'v', .char '2', .char 'E', .char 'c']).EndsAs
        (s'.after {} [.char 'c', .char '2', .char 'E']) ∧
      (s'.after {} [.char 'c', .char '2', .char 'E']).editor.text = ['\n', 'd', ')'] := by
  intro t s s'
  have reached : s.Reachable := .opened _ _ _ _
  have reached' : s'.Reachable := .opened _ _ _ _
  have bare : Text.IsNumeral [] := ⟨nofun, nofun⟩
  have two : Text.IsNumeral ['2'] := ⟨by simp, by decide⟩
  have begins : (KeyPress.char 'v').plainChar? = some 'v' := rfl
  have deletes : (KeyPress.char 'd').plainChar? = some (Operator.toChar .delete) := rfl
  have changes : (KeyPress.char 'c').plainChar? = some (Operator.toChar .change) := rfl
  have jumps : TargetKeys .delete [] [.char '%'] (.motion .matchPair) :=
    .motion rfl (by decide) nofun
  have goes : TargetKeys .change ['2'] [.char 'E'] (.motion (.wordEnd .bigWord)) :=
    .motion rfl (by decide) nofun
  have two' : Types [.char '2'] ['2'] := rfl
  have cuts : Operator.delete ≠ .yank := nofun
  have cuts' : Operator.change ≠ .yank := nofun
  obtain ⟨_, keys⟩ := selected_motion_operates_alike (m := .matchPair) reached rfl {} rfl cuts
  have ends := keys rfl bare (KeyPress.types_nil.mpr rfl) jumps begins deletes (by decide)
  obtain ⟨_, keys'⟩ :=
    selected_motion_operates_alike (m := .wordEnd .bigWord) reached' rfl {} rfl cuts'
  have ends' := keys' rfl two two' goes begins changes (by decide)
  exact ⟨reached, ends, by decide, reached', ends', by decide⟩

end Session

end ModalEdit
