import ModalEdit.Proofs.Charwise
import ModalEdit.Proofs.Nesting
import ModalEdit.Proofs.OperatorKeys
import ModalEdit.Proofs.Replay

/-! Jumps from a bracket to its partner. The partner is the other bracket of the pair, and no bracket is
in two pairs of its kind; so a second jump leads back, and an operator takes the same characters from
either end. -/
namespace ModalEdit

namespace Bracket

/-- No two pairs for jumps have a bracket in common, and no bracket is its own partner. -/
theorem find?_jumpPairs {b : Bracket} (member : b ∈ jumpPairs) :
    b.opener ≠ b.closer ∧ find? jumpPairs b.opener = some (b, .opening) ∧
      find? jumpPairs b.closer = some (b, .closing) := by
  simp only [jumpPairs, List.mem_cons, List.not_mem_nil, or_false] at member
  rcases member with rfl | rfl | rfl <;> decide

end Bracket

namespace Text

variable {t : Text}

/-- The partner of a bracket is the other one of a pair. -/
theorem matchPair_eq_some_iff : t.matchPair p = some q ↔
    ∃ b ∈ Bracket.jumpPairs, t.IsPair b p q ∨ t.IsPair b q p := by
  constructor
  · intro found
    obtain ⟨c, there, found⟩ := Option.bind_eq_some_iff.mp found
    obtain ⟨⟨b, s⟩, known, found⟩ := Option.bind_eq_some_iff.mp found
    obtain ⟨member, side⟩ := Bracket.find?_eq_some known
    obtain ⟨differ, _, _⟩ := Bracket.find?_jumpPairs member
    refine ⟨b, member, ?_⟩
    cases s with
    | opening =>
      rw [Bracket.side?_eq_some side] at there
      exact .inl ((findCloser_eq_some_iff differ there).mp found)
    | closing =>
      rw [Bracket.side?_eq_some side] at there
      exact .inr ((findOpener_eq_some_iff differ there).mp found)
  · rintro ⟨b, member, pair⟩
    obtain ⟨differ, opening, closing⟩ := Bracket.find?_jumpPairs member
    rcases pair with pair | pair
    · have opens := pair.2.1
      simp only [matchPair, opens, opening, bind, Option.bind_some]
      exact (findCloser_eq_some_iff differ opens).mpr pair
    · have closes := pair.2.2.1
      simp only [matchPair, closes, closing, bind, Option.bind_some]
      exact (findOpener_eq_some_iff differ closes).mpr pair

theorem matchPair_comm : t.matchPair p = some q ↔ t.matchPair q = some p := by
  simp only [matchPair_eq_some_iff, or_comm]

theorem matchPair_lt (found : t.matchPair p = some q) : p < t.length ∧ q < t.length := by
  obtain ⟨b, _, pair | pair⟩ := matchPair_eq_some_iff.mp found
  · have opens := (List.getElem?_eq_some_iff.mp pair.2.1).1
    exact ⟨opens, (List.getElem?_eq_some_iff.mp pair.2.2.1).1⟩
  · have opens := (List.getElem?_eq_some_iff.mp pair.2.1).1
    exact ⟨(List.getElem?_eq_some_iff.mp pair.2.2.1).1, opens⟩

theorem matchPair_of_length_le (past : t.length ≤ i) : t.matchPair i = none := by
  rw [matchPair, List.getElem?_eq_none past]
  rfl

/-- An offset beyond the end has no partner, as the end has none. -/
theorem matchPair_min (t : Text) (i : Nat) : t.matchPair (min i t.length) = t.matchPair i := by
  rcases Nat.le_total i t.length with inside | past
  · rw [Nat.min_eq_left inside]
  · rw [Nat.min_eq_right past, matchPair_of_length_le past, matchPair_of_length_le (Nat.le_refl _)]

end Text

/-! ### Jumps and operators -/

/-- With the cursor on the partner of the bracket that it was on. -/
def Editor.jump (e : Editor) : Editor :=
  (e.text.matchPair e.cursor).elim e fun q => { e with cursor := q, wanted? := none }

theorem Editor.jump_jump_cursor (e : Editor) : e.jump.jump.cursor = e.cursor := by
  cases found : e.text.matchPair e.cursor with
  | none => simp [jump, found]
  | some q => simp [jump, found, Text.matchPair_comm.mp found]

namespace Workspace

theorem move_matchPair {w : Workspace} (normal : w.editor.mode = .normal) (count : Nat) :
    (w.move .matchPair count).1 = { w with editor := w.editor.jump } := by
  have resolved : Motion.resolve .matchPair w.editor.text w.editor.cursor count
      (cursorContext w.editor) =
        (w.editor.text.matchPair w.editor.cursor).map Motion.Landing.through := by
    rw [Motion.resolve, Motion.landing?, Text.matchPair_min]
    cases found : w.editor.text.matchPair w.editor.cursor with
    | none => rfl
    | some q =>
      have inside := (Text.matchPair_lt found).2
      have limit : min q (cursorContext w.editor).limit = q := by
        simp only [cursorContext, Editor.maxCursor, normal, reduceCtorEq, if_false]
        omega
      simp only [Option.map_some, Motion.Landing.through, limit]
  simp only [move, rememberFind, resolved, Editor.jump]
  cases w.editor.text.matchPair w.editor.cursor with
  | none => rfl
  | some q => simp [normal, Mode.isVisual, Motion.Landing.through]

/-- An operator takes both brackets and what is between them. -/
theorem targetExtent?_matchPair {e : Editor} (found : e.text.matchPair e.cursor = some q)
    (count : Nat) : targetExtent? e (.motion .matchPair) count =
      some (.charwise ⟨min e.cursor q, max e.cursor q + 1, by omega⟩) := by
  have inside := Text.matchPair_lt found
  have ordered : min e.cursor q ≤ max e.cursor q + 1 := by omega
  have last : max e.cursor q + 1 ≤ e.text.length := by omega
  simp only [targetExtent?, Motion.resolve, Motion.landing?, Text.matchPair_min, found,
    Option.map_some, Motion.Context.operator, Motion.Landing.through, Extent.ofLanding,
    Nat.min_eq_left (Nat.le_of_lt inside.2), Nat.min_eq_left last, Span.between_of_le ordered]

end Workspace

namespace Session

open Pending (Completes)

variable {s : Session}

theorem jump_completes {k : KeyPress} (plain : k.plainChar? = some '%') :
    Completes .normal {} [k] (.move .matchPair 1) := by
  refine .last ?_
  rw [Pending.press_char (m := .normal) nofun rfl plain]
  rfl

theorem pressAll_jump (normal : s.editor.mode = .normal) (b : RegisterBank)
    (typed : Completes .normal s.pending keys (.move .matchPair count)) :
    (s.pressAll b keys).1 = ({ s.dropPending with editor := s.editor.jump }, b) := by
  have moved := Workspace.move_matchPair (w := s.workspace b) normal count
  have done : (s.dropPending.perform b (.move .matchPair count)).1 =
      ({ s.dropPending with
          editor := ((s.workspace b).move .matchPair count).1.editor
          recorder := ((s.workspace b).move .matchPair count).1.recorder },
        ((s.workspace b).move .matchPair count).1.registers) := rfl
  rw [pressAll_of_completes b typed normal rfl, done, moved]
  rfl

/-- A deletion up to the partner removes what is between the brackets, and them as well. -/
theorem pressAll_delete_jump (normal : s.editor.mode = .normal) (b : RegisterBank)
    (typed : Completes .normal s.pending keys
      (.edit (.operate .delete (.motion .matchPair) register) count))
    (found : s.editor.text.matchPair s.editor.cursor = some q) :
    let lo := min s.editor.cursor q
    let hi := max s.editor.cursor q
    (s.pressAll b keys).1.1.editor.text = s.editor.text.take lo ++ s.editor.text.drop (hi + 1) ∧
      (s.pressAll b keys).1.2 =
        b.write (s.editor.text.slice (Span.between lo (hi + 1))) false register := by
  intro lo hi
  have ordered : lo ≤ hi + 1 := by omega
  have extent := Workspace.targetExtent?_matchPair found count
  have filled : Span.isEmpty ⟨lo, hi + 1, ordered⟩ = false :=
    beq_eq_false_iff_ne.mpr (show lo ≠ hi + 1 by omega)
  obtain ⟨text, registers⟩ := Workspace.operate_charwise (w := s.workspace b) normal extent rfl
    filled .delete register
  rw [pressAll_of_completes b typed normal rfl, Span.between_of_le ordered]
  exact ⟨text, registers⟩

/-- The partner of a bracket has that bracket as its own partner, and they are a pair with a balanced
text between them; what has no partner is in no pair. So a jump is undone by another one, and a deletion
from one bracket up to its partner leaves the same text as a deletion from the partner, and the same
characters in the registers. -/
theorem bracket_jump_returns (t : Text) :
    (∀ p q, t.matchPair p = some q → t.matchPair q = some p ∧
      ∃ b ∈ Bracket.jumpPairs, t.IsPair b (min p q) (max p q)) ∧
    (∀ p, t.matchPair p = none ↔
      ¬∃ q, ∃ b ∈ Bracket.jumpPairs, t.IsPair b p q ∨ t.IsPair b q p) ∧
    ∀ (s : Session) (b : RegisterBank), s.editor.text = t → s.editor.mode = .normal →
      (∀ keys keys' n n', Completes .normal s.pending keys (.move .matchPair n) →
        Completes .normal {} keys' (.move .matchPair n') →
        (s.pressAll b (keys ++ keys')).1.1.editor.cursor = s.editor.cursor) ∧
      ∀ (s' : Session) keys keys' register n n', s'.editor.text = t → s'.editor.mode = .normal →
        t.matchPair s.editor.cursor = some s'.editor.cursor →
        Completes .normal s.pending keys
          (.edit (.operate .delete (.motion .matchPair) register) n) →
        Completes .normal s'.pending keys'
          (.edit (.operate .delete (.motion .matchPair) register) n') →
        let lo := min s.editor.cursor s'.editor.cursor
        let hi := max s.editor.cursor s'.editor.cursor
        let left := t.take lo ++ t.drop (hi + 1)
        let kept := b.write (t.slice (Span.between lo (hi + 1))) false register
        ((s.pressAll b keys).1.1.editor.text = left ∧ (s.pressAll b keys).1.2 = kept) ∧
          (s'.pressAll b keys').1.1.editor.text = left ∧ (s'.pressAll b keys').1.2 = kept := by
  refine ⟨fun p q found => ⟨Text.matchPair_comm.mp found, ?_⟩, fun p => ?_, ?_⟩
  · obtain ⟨b, member, pair | pair⟩ := Text.matchPair_eq_some_iff.mp found
    · have ordered := Nat.le_of_lt pair.1
      exact ⟨b, member, by rwa [Nat.min_eq_left ordered, Nat.max_eq_right ordered]⟩
    · have ordered := Nat.le_of_lt pair.1
      exact ⟨b, member, by rwa [Nat.min_eq_right ordered, Nat.max_eq_left ordered]⟩
  · simp only [← Text.matchPair_eq_some_iff]
    rw [← Option.isSome_iff_exists, Option.not_isSome_iff_eq_none]
  · rintro s b rfl normal
    refine ⟨fun keys keys' n n' typed typed' => ?_, ?_⟩
    · have first := pressAll_jump normal b typed
      have mode : s.editor.jump.mode = .normal := by
        rw [Editor.jump]
        cases s.editor.text.matchPair s.editor.cursor <;> exact normal
      have second := pressAll_jump (s := { s.dropPending with editor := s.editor.jump }) mode b typed'
      rw [pressAll_append_fst, first, second]
      exact s.editor.jump_jump_cursor
    · intro s' keys keys' register n n' text normal' found typed typed' lo hi left kept
      have back : s'.editor.text.matchPair s'.editor.cursor = some s.editor.cursor := by
        rw [text]
        exact Text.matchPair_comm.mp found
      have there := pressAll_delete_jump normal b typed found
      have from_ := pressAll_delete_jump normal' b typed' back
      rw [text, Nat.min_comm, Nat.max_comm] at from_
      exact ⟨there, from_⟩

/-- A pair around another one of a different kind, with a break between the brackets. -/
theorem bracket_jump_returns_over_break :
    let t : Text := ['a', '(', '[', '\n', ']', ')', 'b']
    let s := ofText t .normal 1 100
    let s' := ofText t .normal 5 100
    let jump : List KeyPress := [.char '%']
    let delete : List KeyPress := [.char 'd', .char '%']
    let command : Command := .edit (.operate .delete (.motion .matchPair) none) 1
    s.editor.text = t ∧ s.editor.mode = .normal ∧ s'.editor.text = t ∧ s'.editor.mode = .normal ∧
      Completes .normal s.pending jump (.move .matchPair 1) ∧
      Completes .normal s.pending delete command ∧ Completes .normal s'.pending delete command ∧
      t.matchPair s.editor.cursor = some s'.editor.cursor ∧ t.matchPair 5 = some 1 ∧
      (s.pressAll {} (jump ++ jump)).1.1.editor.cursor = 1 ∧
      (s.pressAll {} delete).1.1.editor.text = ['a', 'b'] ∧
      (s'.pressAll {} delete).1.1.editor.text = ['a', 'b'] ∧
      (s.pressAll {} delete).1.2 = (s'.pressAll {} delete).1.2 := by
  intro t s s' jump delete command
  have jumps : Completes .normal s.pending jump (.move .matchPair 1) := jump_completes rfl
  have deletes : Completes .normal s.pending delete command :=
    motion_operator_completes rfl rfl (by decide) (by decide)
  have found : t.matchPair s.editor.cursor = some s'.editor.cursor := by decide
  obtain ⟨mutual_, _, sessions⟩ := bracket_jump_returns t
  obtain ⟨twice, ends⟩ := sessions s {} rfl rfl
  obtain ⟨there, from_⟩ := ends s' delete delete none 1 1 rfl rfl found deletes deletes
  exact ⟨rfl, rfl, rfl, rfl, jumps, deletes, deletes, found, (mutual_ 1 5 found).1,
    twice jump jump 1 1 jumps jumps, there.1, from_.1, there.2.trans from_.2.symm⟩

end Session

end ModalEdit
