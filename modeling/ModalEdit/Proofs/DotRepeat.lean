import ModalEdit.Proofs.Outcome

/-! Repeating the last change is typing it again. A repetition puts in at once what was typed in
the insertion of the change, where typing takes one edit for each character; the number of edits
shows in the revision and nowhere else. -/
namespace ModalEdit

namespace History

variable (h : History) (now : Checkpoint)

theorem noteEdits_endRun (n : Nat) : (h.noteEdits n).endRun = h.endRun := by
  simp only [noteEdits]
  split <;> rfl

/-- Once a checkpoint covers the insertion, an edit more is just counted. -/
theorem beginRun_noteEdits_next (later : Checkpoint) (m n : Nat) :
    (((h.beginRun now).noteEdits m).beginRun later).noteEdits n =
      (h.beginRun now).noteEdits (m + n) := by
  cases run : h.run with
  | inactive => simp [beginRun, noteEdits, push, run]
  | active edits => simp [beginRun, noteEdits, run, Nat.add_assoc]

end History

namespace Workspace

variable {w : Workspace}

/-- Equal but for the number of edits that were counted. -/
def SameButRevision (w w' : Workspace) : Prop :=
  w = { w' with editor := { w'.editor with revision := w.editor.revision } }

def performAll (w : Workspace) (cs : List Command) : Workspace :=
  cs.foldl (fun w c => (w.perform c).1) w

theorem performAll_append (w : Workspace) (cs ds : List Command) :
    w.performAll (cs ++ ds) = (w.performAll cs).performAll ds := List.foldl_append

/-- Types a text a character at a time and ends the insertion. -/
def typeOut (w : Workspace) (t : Text) : Workspace :=
  w.performAll (t.map (fun char => .insertText [char]) ++ [.leaveInsert])

/-- Does an edit by its command and, if that begins an insertion, types what was typed in the
insertion of the change. -/
def typeAgain (w : Workspace) (c : Change) (count : Nat) : Workspace :=
  let done := (w.perform (.edit c.edit count)).1
  if done.editor.mode = .insert then done.typeOut (c.typed?.getD []) else done

/-! ### Typing in one edit and in many -/

/-- What typing a text in an insertion comes to, if it takes a number of edits. -/
def typing (w : Workspace) (t : Text) (edits : Nat) : Workspace :=
  { w with
    editor := { w.editor with
      text := w.editor.text.insertAt w.editor.cursor t
      cursor := w.editor.cursor + t.length
      wanted? := none
      history := (w.editor.history.beginRun w.editor.checkpoint).noteEdits edits
      revision := w.editor.revision + edits }
    recorder := w.recorder.push t }

theorem insertText_eq_typing (insert : w.editor.mode = .insert) (some : t ≠ []) :
    (w.insertText t).1 = w.typing t 1 := by
  have filled : t.isEmpty = false := by simpa using some
  simp only [insertText, filled, inMode, insert, Bool.false_eq_true, if_false, if_true]
  rfl

theorem typing_typing (cursor : w.editor.cursor ≤ w.editor.text.length) (t u : Text) (m n : Nat) :
    (w.typing t m).typing u n = w.typing (t ++ u) (m + n) := by
  simp only [typing, Editor.checkpoint, Text.insertAt_insertAt cursor,
    History.beginRun_noteEdits_next, List.length_append, Nat.add_assoc, Recorder.push,
    List.append_assoc]

theorem performAll_typing (insert : w.editor.mode = .insert)
    (cursor : w.editor.cursor ≤ w.editor.text.length) (t u : Text) (edits : Nat) :
    (w.typing t edits).performAll (u.map fun char => .insertText [char]) =
      w.typing (t ++ u) (edits + u.length) := by
  induction u generalizing t edits with
  | nil => simp [performAll]
  | cons char u ih =>
    have first : ((w.typing t edits).insertText [char]).1 = w.typing (t ++ [char]) (edits + 1) := by
      rw [insertText_eq_typing (w := w.typing t edits) insert (by simp), typing_typing cursor]
    calc (w.typing t edits).performAll ((char :: u).map fun char => .insertText [char])
        = (w.typing (t ++ [char]) (edits + 1)).performAll (u.map fun char => .insertText [char]) := by
          rw [← first]
          rfl
      _ = w.typing (t ++ char :: u) (edits + (char :: u).length) := by
          rw [ih]
          simp [Nat.add_assoc, Nat.add_comm 1]

/-- A text typed a character at a time. -/
theorem performAll_insertText (insert : w.editor.mode = .insert)
    (cursor : w.editor.cursor ≤ w.editor.text.length) (some : t ≠ []) :
    w.performAll (t.map fun char => .insertText [char]) = w.typing t t.length := by
  obtain ⟨char, u, rfl⟩ := List.exists_cons_of_ne_nil some
  have rest := performAll_typing insert cursor [char] u 1
  rw [← insertText_eq_typing insert (by simp)] at rest
  rw [List.length_cons, Nat.add_comm]
  exact rest

/-- The end of an insertion does not show in how many edits the insertion was typed. -/
theorem leaveInsert_typing (insert : w.editor.mode = .insert) (t : Text) (m n : Nat) :
    SameButRevision (w.typing t m).leaveInsert.1 (w.typing t n).leaveInsert.1 := by
  have due : (w.typing t m).dueCopies = (w.typing t n).dueCopies := rfl
  have mode (edits : Nat) : (w.typing t edits).editor.mode = .insert := insert
  simp only [SameButRevision, leaveInsert, inMode, mode, if_true, due]
  cases (w.typing t n).dueCopies with
  | none =>
    simp only [typing, Option.elim_none, Editor.endRun, History.noteEdits_endRun]
    rfl
  | some copies =>
    simp only [typing, Option.elim_some, insertCopies, Editor.noteEdits, Editor.endRun,
      History.noteEdits_endRun]
    rfl

/-- Typing a text at once and typing it out come to the same. -/
theorem typeOut_sameButRevision (insert : w.editor.mode = .insert)
    (cursor : w.editor.cursor ≤ w.editor.text.length) (t : Text) :
    SameButRevision (w.insertText t).1.leaveInsert.1 (w.typeOut t) := by
  by_cases empty : t = []
  · rw [empty]
    rfl
  · have all := performAll_insertText insert cursor empty
    rw [insertText_eq_typing insert empty, typeOut, performAll_append, all]
    exact leaveInsert_typing insert t 1 t.length

/-! ### What a repetition finds -/

theorem operateOn_mode {op : Operator} (stays : op ≠ .change) (x : Extent)
    (register : Option RegisterName) :
    (w.operateOn op x register).1.editor.mode = w.editor.mode := by
  cases op with
  | change => exact absurd rfl stays
  | yank =>
    simp only [operateOn, yank]
    split <;> rfl
  | delete =>
    simp only [operateOn, delete]
    split
    · rfl
    · simp [Editor.removeSpan, Editor.edit, Editor.pushCheckpoint]

/-- Only a change and an entry into an insertion lead out of the mode. -/
theorem doEdit_mode {edit : Edit} (stays : edit.entersInsert = false) (count : Nat) :
    (w.doEdit count edit).1.editor.mode = w.editor.mode := by
  cases edit with
  | operate op target register =>
    have other : op ≠ .change := by
      rintro rfl
      cases stays
    obtain ⟨f?, same | ⟨_, x, r, _, same, _⟩⟩ := w.operate_cases op target count register
    · rw [doEdit, same]
      rfl
    · rw [doEdit, same]
      exact operateOn_mode (w := w.withFind f?) other x register
  | insert => cases stays
  | replace c =>
    simp only [doEdit, replaceChar, inMode]
    split
    · rfl
    · split <;> rfl
  | paste before register =>
    simp only [doEdit, paste, inMode]
    split
    · split <;> rfl
    · rfl
  | joinLines =>
    simp only [doEdit, joinLines, inMode]
    split
    · rfl
    · split
      · exact (joinMany_kept _ _ w.editor.pushCheckpoint).1
      · rfl

/-- A repetition and the command of its change with the typing after it come to the same. -/
theorem repeatLast_sameButRevision (placed : w.editor.Placed) (normal : w.editor.mode = .normal)
    (last : w.recorder.last? = some c) (count? : Option Nat) :
    SameButRevision (w.repeatLast count?).1 (w.typeAgain c (count?.getD c.count)) := by
  have cursor := (doEdit_placed placed (count?.getD c.count) c.edit).cursor_le_length
  rw [repeatLast, inMode, if_pos normal, last]
  dsimp only
  rw [retype_fst, typeAgain, perform]
  by_cases insert : (w.doEdit (count?.getD c.count) c.edit).1.editor.mode = .insert
  · have enters : c.edit.entersInsert = true := by
      by_contra stays
      have mode := doEdit_mode (w := w) (Bool.eq_false_iff.mpr stays) (count?.getD c.count)
      rw [insert, normal] at mode
      cases mode
    rw [if_pos ⟨enters, insert⟩, if_pos insert]
    exact typeOut_sameButRevision insert cursor _
  · rw [if_neg (fun both => insert both.2), if_neg insert]
    rfl

/-! ### The last change is never forgotten -/

theorem doEdit_last?_isSome (some : w.recorder.last?.isSome) (count : Nat) (edit : Edit) :
    (w.doEdit count edit).1.recorder.last?.isSome := by
  rcases w.doEdit_recorder_cases count edit with same | ⟨n, recorded⟩ | ⟨_, started⟩
  · rw [same]
    exact some
  · rw [recorded]
    rfl
  · rw [started]
    exact some

theorem perform_last?_isSome (some : w.recorder.last?.isSome) (c : Command) :
    (w.perform c).1.recorder.last?.isSome := by
  cases c with
  | edit e count => exact doEdit_last?_isSome some count e
  | operateSelection op register =>
    rcases w.operateSelection_cases op register with same | ⟨_, s, i, _, _, same⟩
    · rw [perform, same]
      exact some
    · rw [perform, same, Prod.map_fst, id, operateOn_recorder]
      exact some
  | repeatLast count? =>
    simp only [perform, Workspace.repeatLast, inMode]
    split
    · split
      · exact some
      · rename_i c _
        exact (retype_bystander _ c).2 (doEdit_last?_isSome some (count?.getD c.count) c.edit)
    · exact some
  | _ => exact (w.perform_bystander rfl).2 some

end Workspace

namespace Session

variable {s : Session}

theorem step_last?_isSome (some : s.recorder.last?.isSome) (b : RegisterBank) (i : Input) :
    (s.step b i).recorder.last?.isSome := by
  cases i with
  | press k =>
    rcases s.press_cases b k with ⟨c, _, _, after⟩ | ⟨_, p, after⟩
    · rw [step, after]
      exact Workspace.perform_last?_isSome (w := s.workspace b) some c
    · rw [step, after]
      exact some
  | sync t cursor => exact some

theorem run_last?_isSome (some : s.recorder.last?.isSome)
    (inputs : List (RegisterBank × Input)) : (s.run inputs).recorder.last?.isSome := by
  induction inputs generalizing s with
  | nil => exact some
  | cons input rest ih => exact ih (step_last?_isSome some input.1 input.2)

/-- From the first change on there is always one to repeat. Repeating it comes to the same text,
cursor, mode, history, registers and memory of changes as its command with the same count and, if
that begins an insertion, the characters of the change one by one and the end of the insertion.
An operator whose target is not there changes none of these, and nothing is typed. -/
theorem repeat_types_again (reached : s.Reachable) (recorded : s.recorder.last?.isSome)
    (inputs : List (RegisterBank × Input)) (normal : (s.run inputs).editor.mode = .normal)
    (b : RegisterBank) (count? : Option Nat) :
    let w := (s.run inputs).workspace b
    ∃ c, w.recorder.last? = some c ∧
      let count := count?.getD c.count
      (w.perform (.repeatLast count?)).1.SameButRevision (w.typeAgain c count) ∧
      ∀ op target register, c.edit = .operate op target register →
        Workspace.targetExtent? w.editor target count = none →
        ∃ f?, (w.perform (.repeatLast count?)).1 = w.withFind f? := by
  intro w
  obtain ⟨c, last⟩ := Option.isSome_iff_exists.mp (run_last?_isSome recorded inputs)
  have placed : w.editor.Placed := (reached.run inputs).placed
  refine ⟨c, last, Workspace.repeatLast_sameButRevision placed normal last count?, ?_⟩
  intro op target register operator miss
  have misses : w.Misses (.repeatLast count?) := by
    refine ⟨c, last, ?_⟩
    rw [operator]
    exact miss
  obtain ⟨f?, nothing⟩ := Workspace.perform_of_misses misses
  exact ⟨f?, congrArg Prod.fst nothing⟩

/-- A change of two words, repeated on one word further down. -/
theorem repeat_types_change_again :
    let s := (ofText ['a', ' ', 'b', '\n', 'c', '.'] .normal 0 100).run
      [({}, .press (.char 'c')), ({}, .press (.char '2')), ({}, .press (.char 'w')),
        ({}, .press (.char 'x')), ({}, .press ⟨.enter, {}⟩), ({}, .press ⟨.escape, {}⟩)]
    let inputs : List (RegisterBank × Input) := [({}, .press (.char 'j'))]
    let w := (s.run inputs).workspace {}
    s.Reachable ∧ s.recorder.last?.isSome ∧ (s.run inputs).editor.mode = .normal ∧
      w.editor.text = ['x', '\n', '\n', 'c', '.'] ∧
      ∃ c, w.recorder.last? = some c ∧ c.typed? = some ['x', '\n'] ∧
        (w.perform (.repeatLast (some 1))).1.SameButRevision (w.typeAgain c 1) := by
  intro s inputs w
  have reached : s.Reachable := (Reachable.opened _ _ _ _).run _
  have recorded : s.recorder.last?.isSome := by decide
  have normal : (s.run inputs).editor.mode = .normal := by decide
  obtain ⟨c, last, same, _⟩ := repeat_types_again reached recorded inputs normal {} (some 1)
  refine ⟨reached, recorded, normal, by decide, c, last, ?_, same⟩
  have typed : w.recorder.last?.bind (·.typed?) = some ['x', '\n'] := by decide
  rw [last] at typed
  exact typed

end Session

end ModalEdit
