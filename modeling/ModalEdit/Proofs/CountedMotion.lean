import Mathlib.Data.Nat.SuccPred
import ModalEdit.Proofs.Checked.Motion
import ModalEdit.Proofs.VerticalMotion
import ModalEdit.Proofs.WordMotion

/-! A count is a repetition. A motion with a count takes its steps one after the other and is cut to the
range of the cursor at the end, while a repeated one is cut after each step. This is the same, since a
step either leads nowhere out of the range, or does not come back into it. -/
namespace ModalEdit

/-! ### Steps -/

namespace Text

variable {t : Text}

/-- From the last character on there is no further word. -/
theorem wordForward_of_last (h : t.length - 1 ≤ i) : t.wordForward style i = t.length := by
  rcases Nat.lt_or_ge i t.length with inside | past
  · obtain rfl : i = t.length - 1 := by omega
    exact wordForward_last (Nat.zero_lt_of_lt inside)
  · rw [wordForward, List.drop_of_length_le past]
    rfl

/-- A paragraph has at least one line. -/
theorem length_dropParagraph_cons (row : Text) (rest : List Text) :
    (dropParagraph (row :: rest)).length ≤ rest.length := by
  rw [dropParagraph]
  by_cases empty : row.isEmpty = true
  · rw [List.dropWhile_cons_of_pos empty]
    exact (Checked.dropParagraph_suffix rest).length_le
  · rw [List.dropWhile_cons_of_neg empty, List.dropWhile_cons_of_pos (by simp [empty])]
    exact (List.dropWhile_suffix _).length_le

theorem le_paragraphForward (t : Text) (i : Nat) : min i t.length ≤ t.paragraphForward i := by
  have line := t.lineOf_le_lastLine i
  have inside : t.lineOf i < t.lines.length := by
    rw [length_lines]
    exact Nat.lt_succ_of_le line
  rw [paragraphForward]
  split
  · exact Nat.min_le_right _ _
  · rename_i some
    -- the empty line that stops the motion is below the line of `i`
    have fewer := length_dropParagraph_cons t.lines[t.lineOf i] (t.lines.drop (t.lineOf i + 1))
    rw [← List.drop_eq_getElem_cons inside, List.length_drop, length_lines] at fewer
    have rows := List.length_pos_iff.mpr some
    simp only [lineCount] at fewer ⊢
    have next := lineStart_succ (show t.lineOf i < t.lastLine by omega)
    have stop := le_lineEnd_lineOf (Nat.min_le_right i t.length)
    have later := t.lineStart_mono (show t.lineOf i + 1 ≤ t.lastLine + 1 -
      (dropParagraph (t.lines.drop (t.lineOf i))).length by omega)
    rw [Checked.lineOf_min] at stop
    omega

end Text

namespace Motion

/-- Motions for which a count is a number of steps. -/
def countsSteps : Motion → Bool
  | left | right | up | down | wordForward _ | wordBackward _ | wordEnd _ | wordEndBackward _
  | paragraphForward | paragraphBackward => true
  | _ => false

/-- The step of a motion that is not from line to line. -/
def step? (m : Motion) (t : Text) : Option (Nat → Nat) :=
  match m with
  | left => some Nat.pred
  | right => some Nat.succ
  | wordForward style => some (t.wordForward style)
  | wordBackward style => some (t.wordBackward style)
  | wordEnd style => if t.isEmpty then none else some (t.wordEnd style)
  | wordEndBackward style => some (t.wordEndBackward style)
  | paragraphForward => some t.paragraphForward
  | paragraphBackward => some t.paragraphBackward
  | _ => none

theorem walk_eq_iterate (step : Nat → Nat) (n i : Nat) : walk step n i = step^[n] i := by
  induction n generalizing i with
  | zero => rfl
  | succ n ih =>
    rw [walk, Function.iterate_succ_apply, ih]
    split
    · rename_i stays
      rw [stays, Function.iterate_fixed stays]
    · rfl

/-- A step keeps to a range, or it does not come back once it is at the end of the range. -/
def Clamps (step : Nat → Nat) (limit : Nat) : Prop :=
  (∀ i ≤ limit, step i ≤ limit) ∨ ∀ i ≥ limit, limit ≤ step i

theorem Clamps.iterate_succ {step : Nat → Nat} (clamps : Clamps step limit) (inside : i ≤ limit)
    (n : Nat) :
    min (step^[n + 1] i) limit = min (step (min (step^[n] i) limit)) limit := by
  rw [Function.iterate_succ_apply']
  rcases clamps with keeps | leaves
  · have within : step^[n] i ≤ limit := by
      induction n with
      | zero => exact inside
      | succ n ih =>
        rw [Function.iterate_succ_apply']
        exact keeps _ ih
    rw [Nat.min_eq_left within]
  · rcases Nat.le_total (step^[n] i) limit with within | past
    · rw [Nat.min_eq_left within]
    · -- whether the step goes on from beyond the limit or from the limit, it ends beyond
      rw [Nat.min_eq_right past, Nat.min_eq_right (leaves _ past),
        Nat.min_eq_right (leaves _ (Nat.le_refl _))]

variable {m : Motion} {t : Text} {step : Nat → Nat}

theorem step?_clamps (steps : m.step? t = some step) : Clamps step (t.length - 1) := by
  cases m with
  | left =>
    cases steps
    exact .inl fun i inside => Nat.le_trans (Nat.pred_le i) inside
  | right =>
    cases steps
    exact .inr fun i past => Nat.le_succ_of_le past
  | wordForward style =>
    cases steps
    refine .inr fun i past => ?_
    rw [Text.wordForward_of_last past]
    exact Nat.sub_le _ _
  | wordBackward style =>
    cases steps
    exact .inl fun i inside => Nat.le_trans (Checked.wordBackward_le t style i) inside
  | wordEnd style =>
    simp only [step?] at steps
    split at steps
    · cases steps
    · cases steps
      exact .inl fun i _ => Checked.wordEnd_le t style i
  | wordEndBackward style =>
    cases steps
    exact .inl fun i _ => Checked.wordEndBackward_le t style i
  | paragraphForward =>
    cases steps
    refine .inr fun i past => Nat.le_trans ?_ (t.le_paragraphForward i)
    omega
  | paragraphBackward =>
    cases steps
    exact .inl fun i inside => Nat.le_trans (Checked.paragraphBackward_le t i) inside
  | _ => cases steps

/-- Such a motion lands where its steps lead, from wherever the cursor is. -/
theorem resolve_of_step? (steps : m.step? t = some step) :
    ∃ reach, ∀ i count ctx, ctx.purpose = .cursor →
      m.resolve t i count ctx =
        some ⟨min (step^[max count 1] (min i t.length)) ctx.limit, reach, none⟩ := by
  cases m with
  | left =>
    cases steps
    refine ⟨.upTo, fun i count ctx _ => ?_⟩
    rw [Nat.pred_iterate]
    rfl
  | right =>
    cases steps
    refine ⟨.upTo, fun i count ctx _ => ?_⟩
    rw [Nat.succ_iterate]
    rfl
  | wordForward style =>
    cases steps
    refine ⟨.upTo, fun i count ctx purpose => ?_⟩
    have moves : ctx.purpose ≠ .operator := by simp [purpose]
    rw [← walk_eq_iterate, resolve, landing?, if_neg moves]
    rfl
  | wordEnd style =>
    simp only [step?] at steps
    split at steps
    · cases steps
    · rename_i filled
      cases steps
      refine ⟨.through, fun i count ctx _ => ?_⟩
      rw [← walk_eq_iterate, resolve, landing?, if_neg filled]
      rfl
  | wordEndBackward style =>
    cases steps
    refine ⟨.through, fun i count ctx _ => ?_⟩
    rw [← walk_eq_iterate]
    rfl
  | wordBackward style | paragraphForward | paragraphBackward =>
    cases steps
    refine ⟨.upTo, fun i count ctx _ => ?_⟩
    rw [← walk_eq_iterate]
    rfl
  | _ => cases steps

/-- A motion without a step goes from line to line, or there is nothing to move over. -/
theorem step?_none (counts : m.countsSteps = true) (nothing : m.step? t = none) :
    (m = .up ∨ m = .down) ∨ ∀ i count ctx, m.resolve t i count ctx = none := by
  cases m with
  | up => exact .inl (.inl rfl)
  | down => exact .inl (.inr rfl)
  | wordEnd style =>
    refine .inr fun i count ctx => ?_
    simp only [step?] at nothing
    split at nothing
    · rename_i empty
      rw [resolve, landing?, if_pos empty]
      rfl
    · cases nothing
  | left | right | wordForward | wordBackward | wordEndBackward | paragraphForward
  | paragraphBackward => cases nothing
  | _ => cases counts

theorem lineFrom?_succ (vertical : m = .up ∨ m = .down) (some : 1 ≤ n) :
    m.lineFrom? last l (n + 1) =
      (m.lineFrom? last l n).map fun l' => (m.lineFrom? last l' 1).getD l' := by
  rcases vertical with rfl | rfl
  · simp only [lineFrom?, Nat.max_eq_left some, Nat.max_eq_left (Nat.le_add_left 1 n)]
    by_cases top : l = 0
    · rw [if_pos top, if_pos top]
      rfl
    · rw [if_neg top, if_neg top, Option.map_some]
      congr 1
      split
      · rw [Option.getD_none]
        omega
      · rw [Option.getD_some]
        omega
  · simp only [lineFrom?, Nat.max_eq_left some, Nat.max_eq_left (Nat.le_add_left 1 n)]
    by_cases bottom : last ≤ l
    · rw [if_pos bottom, if_pos bottom]
      rfl
    · rw [if_neg bottom, if_neg bottom, Option.map_some]
      congr 1
      split
      · rw [Option.getD_none]
        omega
      · rw [Option.getD_some]
        omega

section

variable (ctx : Context) (purpose : ctx.purpose = .cursor) (limit : ctx.limit = t.length - 1)
  (cursor : i ≤ t.length - 1) (some_ : 1 ≤ n)

include purpose limit cursor some_

theorem resolve_succ_of_step? (steps : m.step? t = some step) :
    m.resolve t i (n + 1) ctx = (m.resolve t i n ctx).map fun x =>
      (m.resolve t x.target 1 { ctx with wanted := x.wanted }).getD x := by
  obtain ⟨reach, lands⟩ := resolve_of_step? steps
  have inside : min i t.length = i := Nat.min_eq_left (Nat.le_trans cursor (Nat.sub_le _ _))
  have within (j : Nat) : min (min j (t.length - 1)) t.length = min j (t.length - 1) :=
    Nat.min_eq_left (Nat.le_trans (Nat.min_le_right _ _) (Nat.sub_le _ _))
  have single (i : Nat) := lands i 1 { ctx with wanted := none } purpose
  rw [lands i (n + 1) ctx purpose, lands i n ctx purpose, Option.map_some, single,
    Option.getD_some]
  simp only [inside, limit, within, Nat.max_eq_left some_, Nat.max_eq_left (Nat.le_add_left 1 n),
    Nat.max_self, Function.iterate_one, (step?_clamps steps).iterate_succ cursor n]

/-- The line after the first steps is the one of the landing, which keeps the column as well. -/
theorem resolve_succ_of_vertical (vertical : m = .up ∨ m = .down) :
    m.resolve t i (n + 1) ctx = (m.resolve t i n ctx).map fun x =>
      (m.resolve t x.target 1 { ctx with wanted := x.wanted }).getD x := by
  have linewise : m.isLinewise = true := by rcases vertical with rfl | rfl <;> rfl
  rw [resolve_of_isLinewise ctx linewise purpose limit cursor,
    resolve_of_isLinewise ctx linewise purpose limit cursor, lineFrom?_succ vertical some_,
    Option.map_map, Option.map_map]
  refine Option.map_congr fun l there => ?_
  have bound := lineFrom?_le (Text.lineOf_le_lastReachableLine cursor) there
  obtain ⟨here, inside⟩ := Text.atColumn_reachable bound (ctx.wanted.getD (.column (t.column i)))
  simp only [Function.comp_apply]
  rw [resolve_of_isLinewise { ctx with wanted := some _ } linewise purpose limit inside, here]
  cases m.lineFrom? (lastReachableLine t .cursor) l 1 <;> rfl

/-- One more step goes on from the landing of the ones before, if it finds a landing there. -/
theorem resolve_succ (counts : m.countsSteps = true) :
    m.resolve t i (n + 1) ctx = (m.resolve t i n ctx).map fun x =>
      (m.resolve t x.target 1 { ctx with wanted := x.wanted }).getD x := by
  cases steps : m.step? t with
  | some step => exact resolve_succ_of_step? ctx purpose limit cursor some_ steps
  | none =>
    rcases step?_none counts steps with vertical | nowhere
    · exact resolve_succ_of_vertical ctx purpose limit cursor some_ vertical
    · rw [nowhere, nowhere]
      rfl

end

end Motion

/-! ### Runs -/

namespace Editor

theorem arrive_arrive (e : Editor) (x y : Motion.Landing) : (e.arrive x).arrive y = e.arrive y := by
  by_cases visual : e.mode.isVisual = true
  · simp only [arrive, refreshSelection, visual, if_true]
  · simp only [arrive, visual, Bool.false_eq_true, if_false]

end Editor

namespace Workspace

variable {w : Workspace} {m : Motion}

theorem moveAll_append (w : Workspace) (steps rest : List (Motion × Nat)) :
    w.moveAll (steps ++ rest) = (w.moveAll steps).moveAll rest := by
  rw [moveAll, List.map_append, performAll_append]
  rfl

theorem cursorContext_arrive (e : Editor) (x : Motion.Landing) :
    cursorContext (e.arrive x) = { cursorContext e with wanted := x.wanted } := by
  have lastFind : (e.arrive x).lastFind? = e.lastFind? := by
    simp only [Editor.arrive]
    split <;> rfl
  simp [cursorContext, Editor.maxCursor, lastFind]

section

variable (counts : m.countsSteps = true) (mode : w.editor.mode ≠ .insert)
  (cursor : w.editor.cursor ≤ w.editor.text.length - 1)

include counts mode cursor

theorem landing?_succ (some_ : 1 ≤ n) :
    w.landing? m (n + 1) = (w.landing? m n).map fun x =>
      (({ w with editor := w.editor.arrive x } : Workspace).landing? m 1).getD x := by
  simp only [landing?, Editor.arrive_text, Editor.arrive_cursor, cursorContext_arrive]
  obtain ⟨purpose, limit⟩ := cursorContext_of_ne_insert mode
  exact Motion.resolve_succ _ purpose limit cursor some_ counts

/-- Whether there is a landing does not depend on the count. -/
theorem isSome_landing? (some_ : 1 ≤ n) : (w.landing? m n).isSome = (w.landing? m 1).isSome := by
  induction n, some_ using Nat.le_induction with
  | base => rfl
  | succ n some_ ih => rw [landing?_succ counts mode cursor some_, Option.isSome_map, ih]

/-- The last of the steps that a count stands for can be taken by a motion of its own. -/
theorem move_succ (some_ : 1 ≤ n) : (w.move m (n + 1)).1 = ((w.move m n).1.move m 1).1 := by
  have moves {w : Workspace} (mode : w.editor.mode ≠ .insert) (count : Nat) :=
    move_of_landing? mode (show ∀ f, m ≠ .find f by rintro f rfl; cases counts) count
  rw [moves mode, landing?_succ counts mode cursor some_, moves mode]
  cases landed : w.landing? m n with
  | none =>
    have missed : w.landing? m 1 = none := by
      rw [← Option.not_isSome_iff_eq_none, ← isSome_landing? counts mode cursor some_, landed]
      exact Bool.false_ne_true
    rw [Option.elim_none, moves mode, missed]
    rfl
  | some x =>
    simp only [Option.map_some, Option.elim_some]
    have mode' : (w.editor.arrive x).mode ≠ .insert := by rwa [Editor.arrive_mode]
    rw [moves (w := { w with editor := w.editor.arrive x }) mode']
    cases ({ w with editor := w.editor.arrive x } : Workspace).landing? m 1 with
    | none => rfl
    | some y => simp only [Option.getD_some, Option.elim_some, Editor.arrive_arrive]

end

end Workspace

namespace Session

variable {s : Session} {m : Motion}

/-- A motion with a count does what the motion without one does that many times. -/
theorem count_repeats_motion (reached : s.Reachable) (mode : s.editor.mode ≠ .insert)
    (counts : m.countsSteps = true) (some_ : 1 ≤ n) (b : RegisterBank) :
    ((s.workspace b).perform (.move m n)).1 =
      (s.workspace b).moveAll (List.replicate n (m, 1)) := by
  induction n, some_ using Nat.le_induction with
  | base => rfl
  | succ n some_ ih =>
    rw [List.replicate_succ', Workspace.moveAll_append, ← ih]
    exact Workspace.move_succ counts mode (reached.placed.cursor_le mode) some_

/-- Three lines down over an empty one, where only two can be reached, with a selection. -/
theorem count_repeats_motion_over_empty_line :
    let t : Text := ['a', 'b', '\n', '\n', 'a', 'b', '\n']
    let s := ofText t .visual 1 100
    let repeated := (s.workspace {}).moveAll (List.replicate 3 (.down, 1))
    s.Reachable ∧ s.editor.mode ≠ .insert ∧ Motion.down.countsSteps = true ∧ 1 ≤ 3 ∧
      ((s.workspace {}).perform (.move .down 3)).1 = repeated ∧ repeated.editor.cursor = 5 ∧
      repeated.editor.wanted? = some (.column 1) ∧
      repeated.editor.selection? = some (.between t 1 5 .chars) := by
  intro t s repeated
  have reached : s.Reachable := .opened _ _ _ _
  have mode : s.editor.mode ≠ .insert := by decide
  exact ⟨reached, mode, rfl, by decide, count_repeats_motion reached mode rfl (by decide) {},
    by decide, by decide, by decide⟩

end Session

end ModalEdit
