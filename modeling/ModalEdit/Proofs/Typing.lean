import Mathlib.Data.List.Induction
import ModalEdit.Proofs.DotRepeat
import ModalEdit.Proofs.OperatorKeys
import ModalEdit.Proofs.UndoEdit

/-! What is typed in an insertion. Each key puts a character in at the cursor and at the end of what
the insertion has gathered for a repetition, or takes the last one out of both; so the two agree as
long as nothing is taken back that was there before. -/
namespace ModalEdit

namespace KeyPress

/-- The character that a press types in an insertion. -/
def typedChar? (k : KeyPress) : Option Char :=
  if k.mods.ctrl || k.mods.alt then none else k.givenChar?

/-- Does the press take back a character in an insertion? -/
def takesBack (k : KeyPress) : Bool := k.code == .backspace && !(k.mods.ctrl || k.mods.alt)

/-- What there is of a typed text after one more press. -/
def typeNext (u : Text) (k : KeyPress) : Text :=
  match k.typedChar? with
  | some c => u ++ [c]
  | none => if k.takesBack then u.dropLast else u

/-- What there is in the end of all that the keys type. -/
def netText (keys : List KeyPress) : Text := keys.foldl typeNext []

/-- The keys type characters and take back characters, and up to any of them no more is taken back
than typed. -/
structure Typing (keys : List KeyPress) : Prop where
  each : ∀ k ∈ keys, k.typedChar?.isSome = true ∨ k.takesBack = true
  enough : ∀ n ≤ keys.length,
    (keys.take n).countP (·.takesBack) ≤ (keys.take n).countP (·.typedChar?.isSome)

/-- The keys leave a text: a character that is taken back is one that they have typed. -/
inductive Leaves : List KeyPress → Text → Prop where
  | nothing : Leaves [] []
  | typed : Leaves keys u → k.typedChar? = some c → Leaves (keys ++ [k]) (u ++ [c])
  | takenBack : Leaves keys (u ++ [c]) → k.takesBack = true → Leaves (keys ++ [k]) u

variable {k : KeyPress} {keys : List KeyPress} {c : Char} {u : Text}

theorem typedChar?_of_takesBack (back : k.takesBack = true) : k.typedChar? = none := by
  obtain ⟨code, mods⟩ := k
  simp only [takesBack, Bool.and_eq_true, beq_iff_eq] at back
  obtain ⟨rfl, _⟩ := back
  simp [typedChar?, givenChar?, plainChar?]

theorem not_takesBack_of_typedChar? (types : k.typedChar? = some c) : k.takesBack = false := by
  by_contra back
  rw [typedChar?_of_takesBack (Bool.not_eq_false _ ▸ back)] at types
  cases types

theorem netText_concat (keys : List KeyPress) (k : KeyPress) :
    netText (keys ++ [k]) = typeNext (netText keys) k := List.foldl_append

theorem typeNext_of_typedChar? (types : k.typedChar? = some c) (u : Text) :
    typeNext u k = u ++ [c] := by
  rw [typeNext, types]

theorem typeNext_of_takesBack (back : k.takesBack = true) (u : Text) :
    typeNext u k = u.dropLast := by
  rw [typeNext, typedChar?_of_takesBack back]
  exact if_pos back

theorem Typing.init (typing : Typing (keys ++ [k])) : Typing keys where
  each := by
    intro k' member
    exact typing.each k' (List.mem_append_left _ member)
  enough := by
    intro n inside
    have longer : n ≤ (keys ++ [k]).length := by
      rw [List.length_append]
      omega
    have prefix_ := typing.enough n longer
    rwa [List.take_append_of_le_length inside] at prefix_

/-- What is left and what has been taken back are what has been typed. -/
theorem Leaves.length (leaves : Leaves keys u) :
    u.length + keys.countP (·.takesBack) = keys.countP (·.typedChar?.isSome) := by
  induction leaves with
  | nothing => rfl
  | typed _ types ih =>
    have stays := not_takesBack_of_typedChar? types
    simp only [List.length_append, List.length_singleton, List.countP_append, List.countP_singleton,
      types, stays, Option.isSome_some, if_true, Bool.false_eq_true, if_false]
    omega
  | takenBack _ back ih =>
    have nothing := typedChar?_of_takesBack back
    rw [List.length_append, List.length_singleton] at ih
    simp only [List.countP_append, List.countP_singleton, back, nothing, Option.isSome_none,
      if_true, Bool.false_eq_true, if_false]
    omega

/-- Keys that never take back more than they have typed leave a text. -/
theorem Typing.leaves (typing : Typing keys) : Leaves keys (netText keys) := by
  induction keys using List.reverseRecOn with
  | nil => exact .nothing
  | append_singleton keys k ih =>
    have before := ih typing.init
    rw [netText_concat]
    rcases typing.each k (List.mem_append_right _ List.mem_cons_self) with types | back
    · obtain ⟨c, types⟩ := Option.isSome_iff_exists.mp types
      rw [typeNext_of_typedChar? types]
      exact .typed before types
    · -- the last key takes something back, so that up to it more has been typed than taken back
      have some : netText keys ≠ [] := by
        intro empty
        have length := before.length
        have whole := typing.enough (keys ++ [k]).length (Nat.le_refl _)
        rw [List.take_length] at whole
        rw [empty, List.length_nil] at length
        simp only [List.countP_append, List.countP_singleton, back, typedChar?_of_takesBack back,
          Option.isSome_none, if_true, Bool.false_eq_true, if_false] at whole
        omega
      rw [typeNext_of_takesBack back]
      refine .takenBack (c := (netText keys).getLast some) ?_ back
      rwa [List.dropLast_concat_getLast some]

theorem foldl_typeNext (types : keys.map typedChar? = u.map some) (v : Text) :
    keys.foldl typeNext v = v ++ u := by
  induction keys generalizing u v with
  | nil =>
    obtain rfl := List.map_eq_nil_iff.mp types.symm
    rw [List.append_nil]
    rfl
  | cons k keys ih =>
    obtain ⟨c, u, rfl, first, rest⟩ := List.map_eq_cons_iff.mp types.symm
    rw [List.foldl_cons, typeNext_of_typedChar? first.symm, ih rest.symm, List.append_assoc]
    rfl

/-- Keys that type a text leave it. -/
theorem typing_of_typedChar? (types : keys.map typedChar? = u.map some) :
    Typing keys ∧ netText keys = u := by
  have each : ∀ k ∈ keys, ∃ c, k.typedChar? = some c := by
    intro k member
    have there := List.mem_map_of_mem (f := typedChar?) member
    rw [types] at there
    obtain ⟨c, _, same⟩ := List.mem_map.mp there
    exact ⟨c, same.symm⟩
  refine ⟨⟨?_, ?_⟩, foldl_typeNext types []⟩
  · intro k member
    obtain ⟨c, typed⟩ := each k member
    exact .inl (Option.isSome_of_eq_some typed)
  · intro n _
    have none : (keys.take n).countP (·.takesBack) = 0 := by
      refine List.countP_eq_zero.mpr fun k member => ?_
      obtain ⟨c, typed⟩ := each k (List.mem_of_mem_take member)
      rw [not_takesBack_of_typedChar? typed]
      exact Bool.false_ne_true
    rw [none]
    exact Nat.zero_le _

end KeyPress

namespace Pending

variable {k : KeyPress} {c : Char}

theorem pressInsert_of_typedChar? (types : k.typedChar? = some c) :
    ∃ command, pressInsert k = .complete command ∧
      ∀ w : Workspace, w.perform command = w.insertText [c] := by
  obtain ⟨code, mods⟩ := k
  unfold KeyPress.typedChar? at types
  split at types
  · cases types
  · rename_i free
    have stays := (KeyPress.givenChar?_eq_some_iff.mp types).isEscape
    rw [pressInsert, stays, if_neg Bool.false_ne_true, if_neg free]
    cases code with
    | char c' =>
      have plain : KeyPress.plainChar? ⟨.char c', mods⟩ = some c := types
      obtain ⟨same, _⟩ := KeyPress.plainChar?_eq_some_iff.mp plain
      cases same
      exact ⟨_, rfl, fun _ => rfl⟩
    | enter | tab =>
      cases types
      exact ⟨_, rfl, fun _ => rfl⟩
    | _ => cases types

theorem pressInsert_of_takesBack (back : k.takesBack = true) :
    pressInsert k = .complete .backspace := by
  obtain ⟨code, mods⟩ := k
  simp only [KeyPress.takesBack, Bool.and_eq_true, beq_iff_eq, Bool.not_eq_true'] at back
  obtain ⟨rfl, free⟩ := back
  simp [pressInsert, KeyPress.isEscape, free]

end Pending

namespace Session

/-- An insertion goes on that began at offset `p` of a text and belongs to a change; `u` has been
typed in it. -/
structure Inserting (s : Session) (t : Text) (p : Nat) (change : Change) (u : Text) : Prop where
  mode : s.editor.mode = .insert
  text : s.editor.text = t.insertAt p u
  cursor : s.editor.cursor = p + u.length
  pending : s.recorder.pending? = some change
  typed : s.recorder.typed = u

namespace Inserting

variable {s : Session} {t : Text} {change : Change} {u : Text} {c : Char}

theorem type (inserting : s.Inserting t p change u) (start : p ≤ t.length)
    (types : k.typedChar? = some c) (b : RegisterBank) :
    (s.step b (.press k)).Inserting t p change (u ++ [c]) := by
  obtain ⟨command, reading, performs⟩ := Pending.pressInsert_of_typedChar? types
  have pressed : s.pending.press s.editor.mode k = .complete command := by
    rw [inserting.mode]
    exact reading
  have typed : ((s.workspace b).perform command).1 = (s.workspace b).typing [c] 1 := by
    rw [performs]
    exact Workspace.insertText_eq_typing (w := s.workspace b) inserting.mode (by simp)
  have editor : (s.step b (.press k)).editor = ((s.workspace b).typing [c] 1).editor := by
    rw [step, press, pressed]
    exact congrArg (·.editor) typed
  have recorder : (s.step b (.press k)).recorder = s.recorder.push [c] := by
    rw [step, press, pressed]
    exact congrArg (·.recorder) typed
  constructor
  · rw [editor]
    exact inserting.mode
  · have place : (s.step b (.press k)).editor.text =
        s.editor.text.insertAt s.editor.cursor [c] := by
      rw [editor]
      rfl
    rw [place, inserting.text, inserting.cursor, Text.insertAt_insertAt start]
  · have place : (s.step b (.press k)).editor.cursor = s.editor.cursor + 1 := by
      rw [editor]
      rfl
    rw [place, inserting.cursor, List.length_append, List.length_singleton, Nat.add_assoc]
  · rw [recorder]
    exact inserting.pending
  · rw [recorder, Recorder.push, inserting.typed]

theorem takeBack (inserting : s.Inserting t p change (u ++ [c])) (start : p ≤ t.length)
    (back : k.takesBack = true) (b : RegisterBank) :
    (s.step b (.press k)).Inserting t p change u := by
  have pressed : s.pending.press s.editor.mode k = .complete .backspace := by
    rw [inserting.mode]
    exact Pending.pressInsert_of_takesBack back
  have cursor : s.editor.cursor = p + u.length + 1 := by
    rw [inserting.cursor, List.length_append, List.length_singleton, Nat.add_assoc]
  have text : s.editor.text = (t.insertAt p u).insertAt (p + u.length) [c] := by
    rw [inserting.text, Text.insertAt_insertAt start]
  have shorter : s.editor.text.remove (Span.between (p + u.length) (p + u.length + 1)) =
      t.insertAt p u := by
    rw [text]
    apply Text.remove_insertAt
    rw [Text.length_insertAt]
    omega
  rw [step, press, pressed]
  simp only [perform, Workspace.perform, Workspace.backspace, Workspace.inMode, cursor,
    inserting.mode, Nat.succ_ne_zero, if_false, if_true, Nat.add_sub_cancel, shorter]
  constructor
  · exact inserting.mode
  · rfl
  · rfl
  · exact inserting.pending
  · rw [Recorder.pop, inserting.typed, List.dropLast_concat]

/-- Whatever is typed and taken back, text and memory hold what is left of it. -/
theorem run (inserting : s.Inserting t p change []) (start : p ≤ t.length)
    (typed : List (RegisterBank × KeyPress)) (leaves : KeyPress.Leaves (typed.map (·.2)) u) :
    (s.run (typed.map fun entry => (entry.1, .press entry.2))).Inserting t p change u := by
  generalize keys : typed.map (·.2) = pressed at leaves
  induction leaves generalizing typed with
  | nothing =>
    rw [List.map_eq_nil_iff.mp keys]
    exact inserting
  | typed _ types ih =>
    obtain ⟨before, last, rfl, rfl, single⟩ := List.map_eq_append_iff.mp keys
    obtain ⟨entry, rest, rfl, rfl, nothing⟩ := List.map_eq_cons_iff.mp single
    rw [List.map_eq_nil_iff.mp nothing, List.map_append, run_append]
    exact (ih before rfl).type start types entry.1
  | takenBack _ back ih =>
    obtain ⟨before, last, rfl, rfl, single⟩ := List.map_eq_append_iff.mp keys
    obtain ⟨entry, rest, rfl, rfl, nothing⟩ := List.map_eq_cons_iff.mp single
    rw [List.map_eq_nil_iff.mp nothing, List.map_append, run_append]
    exact (ih before rfl).takeBack start back entry.1

end Inserting

end Session

end ModalEdit
