import ModalEdit.Proofs.Effect

/-! Which commands have a meaning in which mode. In any other mode a command changes nothing. In a
mode that it is meant for, there are states of a session in which a command of its kind changes
something. -/
namespace ModalEdit

namespace Command

/-- Commands of one kind are meant for the same modes. -/
inductive Kind where
  | move
  | operate
  | insert
  | replace
  | paste
  | joinLines
  | operateSelection
  | selectObject
  | swapAnchor
  | startVisual
  | startVisualLine
  | leaveVisual
  | leaveInsert
  | insertText
  | insertBreak
  | backspace
  | undo
  | redo
  | repeatLast
deriving DecidableEq, Repr

def kind : Command → Kind
  | move _ _ => .move
  | edit (.operate _ _ _) _ => .operate
  | edit (.insert _) _ => .insert
  | edit (.replace _) _ => .replace
  | edit (.paste _ _) _ => .paste
  | edit .joinLines _ => .joinLines
  | operateSelection _ _ => .operateSelection
  | selectObject _ _ => .selectObject
  | swapAnchor => .swapAnchor
  | startVisual => .startVisual
  | startVisualLine => .startVisualLine
  | leaveVisual => .leaveVisual
  | leaveInsert => .leaveInsert
  | insertText _ => .insertText
  | insertBreak => .insertBreak
  | backspace => .backspace
  | undo _ => .undo
  | redo _ => .redo
  | repeatLast _ => .repeatLast

namespace Kind

def meantFor : Kind → Mode → Bool
  | move, _ => true
  | operate, m | insert, m | replace, m | paste, m | joinLines, m => m = .normal
  | undo, m | redo, m | repeatLast, m => m = .normal
  | operateSelection, m | selectObject, m | swapAnchor, m | leaveVisual, m => m.isVisual
  | startVisual, m => m ≠ .insert ∧ m ≠ .visual
  | startVisualLine, m => m ≠ .insert ∧ m ≠ .visualLine
  | leaveInsert, m | insertText, m | insertBreak, m | backspace, m => m = .insert

/-- A command of the kind changes something in the mode, in a state that a session can reach. -/
def HasMeaning (kind : Kind) (m : Mode) : Prop :=
  ∃ (s : Session) (b : RegisterBank) (c : Command), s.Reachable ∧ s.editor.mode = m ∧
    c.kind = kind ∧ (s.workspace b).perform c ≠ (s.workspace b).skip

end Kind

end Command

namespace Workspace

variable {w : Workspace} {m : Mode}

theorem swapAnchor_of_plain (plain : w.editor.Plain) : w.swapAnchor = w.skip := by
  simp [swapAnchor, plain.2.1]

theorem operateSelection_of_plain (plain : w.editor.Plain) (op : Operator)
    (register : Option RegisterName) : w.operateSelection op register = w.skip := by
  simp [operateSelection, plain.2.2]

theorem startVisual_of_not_meant (other : ¬(w.editor.mode ≠ .insert ∧ w.editor.mode ≠ m)) :
    w.startVisual m = w.skip := by
  refine if_pos ?_
  by_contra neither
  exact other ⟨fun insert => neither (.inr insert), fun same => neither (.inl same)⟩

/-- A command that is not meant for the mode changes nothing. -/
theorem perform_of_not_meantFor (placed : w.editor.Placed) {c : Command}
    (other : c.kind.meantFor w.editor.mode = false) : w.perform c = w.skip := by
  cases c with
  | move => cases other
  | edit e count =>
    refine doEdit_of_ne_normal (fun normal => ?_) count e
    cases e <;> simp [Command.kind, Command.Kind.meantFor, normal] at other
  | operateSelection op register => exact operateSelection_of_plain (placed.plain other) op register
  | selectObject | leaveVisual => exact if_neg (Bool.eq_false_iff.mp other)
  | swapAnchor => exact swapAnchor_of_plain (placed.plain other)
  | startVisual | startVisualLine => exact startVisual_of_not_meant (of_decide_eq_false other)
  | leaveInsert => exact inMode_of_ne (of_decide_eq_false other) _
  | insertText | insertBreak | backspace =>
    simp only [perform, insertText, backspace, inMode_of_ne (of_decide_eq_false other), ite_self]
  | undo | redo | repeatLast => exact inMode_of_ne (of_decide_eq_false other) _

end Workspace

namespace Command.Kind

/-- A session in each mode. In the normal mode there is a change to repeat, and there are steps
to go back and forth. -/
def sampleSession : Mode → Session
  | .normal => (Session.ofText ['a', 'b', 'c', '\n', 'd'] .normal 0 100).run
      [({}, .press (.char 'x')), ({}, .press (.char 'x')), ({}, .press (.char 'u'))]
  | m => .ofText ['a', 'b', 'c', '\n', 'd'] m 1 100

theorem sampleSession_reachable (m : Mode) : (sampleSession m).Reachable := by
  cases m with
  | normal => exact (Session.Reachable.opened _ _ _ _).run _
  | _ => exact .opened _ _ _ _

def sampleRegisters : RegisterBank := RegisterBank.write {} ['a'] false none

def sampleCommand : Kind → Command
  | move => .move .right 1
  | operate => .edit (.operate .delete .lines none) 1
  | insert => .edit (.insert .before) 1
  | replace => .edit (.replace 'z') 1
  | paste => .edit (.paste false none) 1
  | joinLines => .edit .joinLines 1
  | operateSelection => .operateSelection .delete none
  | selectObject => .selectObject ⟨.word .word, true⟩ 1
  | swapAnchor => .swapAnchor
  | startVisual => .startVisual
  | startVisualLine => .startVisualLine
  | leaveVisual => .leaveVisual
  | leaveInsert => .leaveInsert
  | insertText => .insertText ['z']
  | insertBreak => .insertBreak
  | backspace => .backspace
  | undo => .undo 1
  | redo => .redo 1
  | repeatLast => .repeatLast none

/-- The commands with a meaning are the ones that are meant for the mode. -/
theorem hasMeaning_iff {kind : Kind} {m : Mode} :
    kind.HasMeaning m ↔ kind.meantFor m = true := by
  constructor
  · rintro ⟨s, b, c, reached, rfl, rfl, does⟩
    by_contra other
    exact does (Workspace.perform_of_not_meantFor reached.placed (Bool.eq_false_iff.mpr other))
  · intro meant
    have mode : (sampleSession m).editor.mode = m := by cases m <;> decide
    have same : (sampleCommand kind).kind = kind := by cases kind <;> rfl
    refine ⟨sampleSession m, sampleRegisters, sampleCommand kind, sampleSession_reachable m, mode,
      same, fun nothing => ?_⟩
    have dirty : (((sampleSession m).workspace sampleRegisters).perform
        (sampleCommand kind)).2.dirty = true := by
      cases kind <;> cases m <;> first | exact absurd meant (by decide) | decide
    rw [nothing] at dirty
    cases dirty

end Command.Kind

end ModalEdit
