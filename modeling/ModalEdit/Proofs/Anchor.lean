import ModalEdit.Proofs.LinewiseRegister
import ModalEdit.Proofs.PendingKeys

/-! The end of a selection that stays. Motions move the other end, and so it is with a switch between
characters and lines; only a key that exchanges the two ends moves it, and that key takes itself back. An
operator on characters takes what is between the two, with both. -/
namespace ModalEdit

/-- Does the command move the cursor, or begin a selection, go on with one of another kind or leave it? -/
def Command.sweeps : Command → Bool
  | move _ _ | startVisual | startVisualLine | leaveVisual => true
  | _ => false

/-- Has the key performed no other command than one of these? -/
def Response.sweeps : Response → Bool
  | performed c _ => c.sweeps
  | _ => true

/-- Do the keys only move the cursor and switch between characters and lines, and never leave the
selection? -/
def Session.sweeps (s : Session) : List (RegisterBank × KeyPress) → Bool
  | [] => true
  | (b, k) :: rest =>
    (s.press b k).2.sweeps && (s.step b (.press k)).editor.mode.isVisual &&
      (s.step b (.press k)).sweeps rest

namespace Editor

variable {e : Editor}

/-- The selection of characters that an editor has in the mode for it. -/
theorem Placed.chars (placed : e.Placed) (mode : e.mode = .visual) (anchor : e.anchor? = some a) :
    a ≤ e.text.length - 1 ∧ e.selection? = some (.between e.text a e.cursor .chars) := by
  obtain ⟨_, rest⟩ := placed
  rw [mode] at rest
  obtain ⟨a', bound, anchor', selected⟩ := rest
  obtain rfl := Option.some.inj (anchor.symm.trans anchor')
  exact ⟨bound, selected⟩

/-- A selection that goes on keeps its anchor. -/
theorem setMode_anchor (begun : e.mode.isVisual = true) (anchor : e.anchor? = some a)
    (next : m.isVisual = true) : (e.setMode m).anchor? = some a := by
  simp only [setMode, next, begun, if_true, anchor]
  rfl

/-- With the ends of a selection exchanged, of which `a` is the one that stays. -/
def exchanged (e : Editor) (a : Nat) (selected : Selection) : Editor :=
  { e with
    anchor? := some e.cursor
    cursor := a
    selection? := some { selected with anchor := e.cursor }
    wanted? := none }

theorem exchanged_exchanged (anchor : e.anchor? = some selected.anchor)
    (there : e.selection? = some selected) :
    (e.exchanged selected.anchor selected).exchanged e.cursor { selected with anchor := e.cursor } =
      { e with wanted? := none } := by
  obtain ⟨text, cursor, history, mode, anchor?, selection?⟩ := e
  cases anchor
  cases there
  rfl

end Editor

namespace Workspace

variable {w : Workspace}

theorem move_anchor (w : Workspace) (m : Motion) (count : Nat) :
    (w.move m count).1.editor.anchor? = w.editor.anchor? := by
  obtain ⟨f?, remembered⟩ := rememberFind_eq w.editor m
  simp only [move]
  rw [remembered]
  dsimp only
  split
  · rfl
  · split <;> rfl

theorem startVisual_anchor (begun : w.editor.mode.isVisual = true) (anchor : w.editor.anchor? = some a)
    (next : m.isVisual = true) : (w.startVisual m).1.editor.anchor? = some a := by
  simp only [startVisual]
  split
  · exact anchor
  · exact Editor.setMode_anchor begun anchor next

theorem perform_sweep (begun : w.editor.mode.isVisual = true) (anchor : w.editor.anchor? = some a)
    {c : Command} (sweeps : c.sweeps = true)
    (stays : (w.perform c).1.editor.mode.isVisual = true) :
    (w.perform c).1.editor.anchor? = some a ∧ (w.perform c).1.editor.text = w.editor.text := by
  cases c with
  | move m count =>
    obtain ⟨text, _⟩ := w.move_kept m count
    exact ⟨(w.move_anchor m count).trans anchor, text⟩
  | startVisual | startVisualLine =>
    refine ⟨startVisual_anchor begun anchor rfl, ?_⟩
    simp only [perform, startVisual]
    split
    · rfl
    · exact Editor.setMode_text _ _
  | leaveVisual =>
    simp only [perform, leaveVisual, begun, if_true] at stays
    cases stays
  | _ => cases sweeps

/-- The two ends are exchanged, and what is between them is the same as before. -/
theorem swapAnchor_eq (placed : w.editor.Placed) (anchor : w.editor.anchor? = some a) :
    ∃ selected, w.editor.selection? = some selected ∧ selected.anchor = a ∧
      w.swapAnchor = ({ w with editor := w.editor.exchanged a selected }, .moved) := by
  have visual := placed.isVisual_of_anchor anchor
  have outside := Mode.ne_insert_of_isVisual visual
  have cursor := placed.cursor_le outside
  obtain ⟨_, rest⟩ := placed
  cases kind : w.editor.mode.selects? with
  | none => simp [Mode.selects?_eq_none_iff.mp kind] at visual
  | some kind' =>
    rw [kind] at rest
    obtain ⟨a', bound, anchor', selected⟩ := rest
    obtain rfl := Option.some.inj (anchor.symm.trans anchor')
    refine ⟨_, selected, rfl, ?_⟩
    have here : min a w.editor.maxCursor = a := by
      rw [Editor.maxCursor, if_neg outside, Nat.min_eq_left bound]
    have there : min w.editor.cursor w.editor.text.length = w.editor.cursor := by omega
    simp only [swapAnchor, anchor, Editor.exchanged, Editor.refreshSelection, Option.getD_some, here, there, kind,
      Option.map_some, Selection.between, Nat.min_comm a, Nat.max_comm a]

/-- What an operator takes from a selection of characters. -/
theorem operateSelection_chars (placed : w.editor.Placed) (mode : w.editor.mode = .visual)
    (anchor : w.editor.anchor? = some a) (filled : w.editor.text ≠ []) (op : Operator)
    (register : Option RegisterName) :
    let lo := min a w.editor.cursor
    let hi := max a w.editor.cursor
    (w.operateSelection op register).1.registers =
        w.registers.write (w.editor.text.slice (Span.between lo (hi + 1))) false register ∧
      (w.operateSelection op register).1.editor.text =
        if op = .yank then w.editor.text
        else w.editor.text.take lo ++ w.editor.text.drop (hi + 1) := by
  intro lo hi
  obtain ⟨bound, selected⟩ := placed.chars mode anchor
  have cursor := placed.cursor_le (by rw [mode]; nofun)
  have length := List.length_pos_iff.mpr filled
  have inside : hi + 1 ≤ w.editor.text.length := by omega
  have range : (Selection.between w.editor.text a w.editor.cursor .chars).span =
      Span.between lo (hi + 1) := by
    simp only [Selection.between]
    rw [Nat.min_eq_left inside]
  have ordered : Span.between lo (hi + 1) = ⟨lo, hi + 1, by omega⟩ :=
    Span.between_of_le (by omega)
  have found : w.editor.extent? (.operateSelection op register) =
      some ⟨Span.between lo (hi + 1), false⟩ := by
    simp only [Editor.extent?, mode, Mode.isVisual, if_true, selected, Option.map_some, range]
    rfl
  have some_ : (Span.between lo (hi + 1)).isEmpty = false := by
    rw [ordered, Span.isEmpty]
    simp
    omega
  constructor
  · obtain ⟨w', text, _, same, _, registers⟩ := perform_of_extent (w := w) rfl found
    have written := operateOn_writes (w := w') (x := ⟨Span.between lo (hi + 1), false⟩) some_ op
      register
    rw [perform] at registers
    rw [registers, written, text, same]
  · have text := perform_text (w := w) rfl found
    rw [perform] at text
    rw [text]
    cases op with
    | yank => rfl
    | delete | change => simp [Operator.leaves, Extent.removal, Text.remove, ordered]

end Workspace

namespace Pending

variable {p : Pending} {m : Mode} {k : KeyPress}

/-- The keys for which a selection has a meaning of its own. -/
theorem press_visual (visual : m.isVisual = true) (free : p.awaited? = none)
    (idle : p.operator? = none) :
    (∀ op, k.plainChar? = some (Operator.toChar op) →
      p.press m k = .complete (.operateSelection op p.register?)) ∧
    (k.plainChar? = some 'o' → p.press m k = .complete .swapAnchor) := by
  obtain ⟨count?, register?, operator?, awaited?⟩ := p
  cases idle
  cases free
  have outside := Mode.ne_insert_of_isVisual visual
  constructor
  · intro op plain
    rw [press_char outside rfl plain]
    cases op <;> simp [commandChar, visual, visualChar, Operator.toChar, digit?, digitValue?,
      Motion.ofChar?]
  · intro plain
    rw [press_char outside rfl plain]
    simp [commandChar, visual, visualChar, digit?, digitValue?, Motion.ofChar?]

end Pending

namespace Session

variable {s : Session} {k : KeyPress}

/-- One key that moves the cursor or switches between characters and lines. -/
theorem step_sweep (begun : s.editor.mode.isVisual = true) (anchor : s.editor.anchor? = some a)
    (sweeps : (s.press b k).2.sweeps = true)
    (stays : (s.step b (.press k)).editor.mode.isVisual = true) :
    (s.step b (.press k)).editor.anchor? = some a ∧
      (s.step b (.press k)).editor.text = s.editor.text := by
  rw [step] at stays ⊢
  rcases s.press_cases b k with ⟨c, outcome, performed, after⟩ | ⟨_, p, after⟩
  · rw [performed] at sweeps
    rw [after] at stays ⊢
    exact Workspace.perform_sweep (w := s.workspace b) begun anchor sweeps stays
  · rw [after]
    exact ⟨anchor, rfl⟩

theorem run_sweep (begun : s.editor.mode.isVisual = true) (anchor : s.editor.anchor? = some a)
    (sweeps : s.sweeps keys = true) :
    let t := s.run (keys.map fun entry => (entry.1, .press entry.2))
    t.editor.anchor? = some a ∧ t.editor.text = s.editor.text := by
  induction keys generalizing s with
  | nil => exact ⟨anchor, rfl⟩
  | cons entry rest ih =>
    simp only [Session.sweeps, Bool.and_eq_true] at sweeps
    obtain ⟨⟨own, stays⟩, others⟩ := sweeps
    obtain ⟨anchor', text⟩ := step_sweep begun anchor own stays
    obtain ⟨anchor'', text'⟩ := ih stays anchor' others
    exact ⟨anchor'', text'.trans text⟩

theorem Reachable.operator?_of_visual (reached : s.Reachable)
    (visual : s.editor.mode.isVisual = true) : s.pending.operator? = none := by
  by_contra waits
  rw [reached.consistent.operator waits] at visual
  cases visual

/-- The key that exchanges the ends. -/
theorem press_swap (reached : s.Reachable) (free : s.pending.awaited? = none)
    (anchor : s.editor.anchor? = some a) (plain : k.plainChar? = some 'o') (b : RegisterBank) :
    ∃ selected, s.editor.selection? = some selected ∧ selected.anchor = a ∧
      (s.press b k).1 = ({ s.dropPending with editor := s.editor.exchanged a selected }, b) := by
  have visual := reached.placed.isVisual_of_anchor anchor
  have idle := reached.operator?_of_visual visual
  have reading := (Pending.press_visual visual free idle).2 plain
  obtain ⟨selected, there, own, swapped⟩ :=
    Workspace.swapAnchor_eq (w := s.workspace b) reached.placed anchor
  refine ⟨selected, there, own, ?_⟩
  simp only [press, reading, perform, Workspace.perform]
  rw [show Workspace.swapAnchor ⟨s.editor, b, s.recorder⟩ = _ from swapped]
  rfl

/-- The key of an operator, on a selection of characters. -/
theorem press_operator_chars (reached : s.Reachable) (mode : s.editor.mode = .visual)
    (free : s.pending.awaited? = none) (anchor : s.editor.anchor? = some a)
    (filled : s.editor.text ≠ []) {op : Operator} (plain : k.plainChar? = some op.toChar)
    (b : RegisterBank) :
    let lo := min a s.editor.cursor
    let hi := max a s.editor.cursor
    (s.press b k).1.2 =
        b.write (s.editor.text.slice (Span.between lo (hi + 1))) false s.pending.register? ∧
      (s.press b k).1.1.editor.text =
        if op = .yank then s.editor.text else s.editor.text.take lo ++ s.editor.text.drop (hi + 1) := by
  intro lo hi
  have visual : s.editor.mode.isVisual = true := by rw [mode]; rfl
  have idle := reached.operator?_of_visual visual
  have reading := (Pending.press_visual visual free idle).1 op plain
  have taken := Workspace.operateSelection_chars (w := s.workspace b) reached.placed mode anchor
    filled op s.pending.register?
  simp only [press, reading]
  exact taken

/-- As long as motions and switches between characters and lines do not leave a selection, its anchor stays
where it is, and then an operator on characters takes those between the anchor and the cursor, with both,
and a deletion removes these and no others. The key that exchanges the ends of a selection keeps what is
between them, and a second press of it brings the ends back to where they were. -/
theorem anchor_stays_and_swaps (reached : s.Reachable) (visual : s.editor.mode.isVisual = true) :
    ∃ a selected, s.editor.anchor? = some a ∧ s.editor.selection? = some selected ∧
      (∀ keys t, s.sweeps keys = true →
        s.run (keys.map fun entry => (entry.1, .press entry.2)) = t →
        t.editor.anchor? = some a ∧ ∀ b k op, t.editor.mode = .visual →
          t.pending.awaited? = none → s.editor.text ≠ [] →
          k.plainChar? = some (Operator.toChar op) →
          let lo := min a t.editor.cursor
          let hi := max a t.editor.cursor
          let taken := (s.editor.text.drop lo).take (hi + 1 - lo)
          (t.press b k).1.2 = b.write taken false t.pending.register? ∧
            ((t.pending.register?.getD .unnamed).appends = false →
              (t.press b k).1.2.get (t.pending.register?.getD .unnamed) = some ⟨taken, false⟩) ∧
            (t.press b k).1.1.editor.text =
              if op = .yank then s.editor.text
              else s.editor.text.take lo ++ s.editor.text.drop (hi + 1)) ∧
      (s.pending.awaited? = none → ∀ b b' k k', k.plainChar? = some 'o' → k'.plainChar? = some 'o' →
        let once := (s.press b k).1.1
        let twice := (once.press b' k').1.1
        once.editor.anchor? = some s.editor.cursor ∧ once.editor.cursor = a ∧
          once.editor.selection? = some ⟨s.editor.cursor, selected.span, selected.kind⟩ ∧
          once.editor.mode = s.editor.mode ∧ once.editor.text = s.editor.text ∧
          twice.editor = { s.editor with wanted? := none }) := by
  have placed := reached.placed
  obtain ⟨a, bound, anchor⟩ := placed.anchor visual
  obtain ⟨selected, there, own, _⟩ := Workspace.swapAnchor_eq (w := s.workspace {}) placed anchor
  refine ⟨a, selected, anchor, there, ?_, ?_⟩
  · intro keys t sweeps ran
    have again : t.Reachable := ran ▸ reached.run _
    obtain ⟨stays, text⟩ := run_sweep visual anchor sweeps
    rw [ran] at stays text
    refine ⟨stays, ?_⟩
    intro b k op mode free filled plain lo hi taken
    have sliced : t.editor.text.slice (Span.between lo (hi + 1)) = taken := by
      rw [text, Span.between_of_le (by omega)]
      rfl
    have filled' : t.editor.text ≠ [] := by rwa [text]
    obtain ⟨registers, left⟩ := press_operator_chars again mode free stays filled' plain b
    rw [sliced] at registers
    rw [text] at left
    refine ⟨registers, ?_, left⟩
    intro named
    rw [registers]
    exact (b.get_write taken false _ named).1
  · intro free b b' k k' plain plain' once twice
    obtain ⟨selected', there', _, pressed⟩ := press_swap reached free anchor plain b
    obtain rfl := Option.some.inj (there.symm.trans there')
    have first : once = { s.dropPending with editor := s.editor.exchanged a selected } :=
      congrArg Prod.fst pressed
    have again : once.Reachable := reached.next b (.press k)
    obtain ⟨_, there'', _, pressed'⟩ := press_swap (a := s.editor.cursor) again (by rw [first]; rfl)
      (by rw [first]; rfl) plain' b'
    rw [first] at there''
    obtain rfl := Option.some.inj there''
    have second : twice.editor = once.editor.exchanged s.editor.cursor
        { selected with anchor := s.editor.cursor } := congrArg (·.1.editor) pressed'
    rw [second, first]
    subst own
    exact ⟨rfl, rfl, rfl, rfl, rfl, Editor.exchanged_exchanged anchor there⟩

/-- From characters to lines, down, and back to characters. -/
theorem anchor_stays_and_swaps_over_lines :
    let s := (ofText ['a', 'b', '\n', 'c', 'd'] .normal 1 100).step {} (.press (.char 'v'))
    let keys := [.char 'V', .char 'j', .char 'v'].map fun k : KeyPress => (({} : RegisterBank), k)
    let t := s.run (keys.map fun entry => (entry.1, .press entry.2))
    s.Reachable ∧ s.editor.mode.isVisual = true ∧ s.sweeps keys = true ∧ t.editor.anchor? = some 1 ∧
      t.editor.cursor = 4 ∧ (t.press {} (.char 'd')).1.1.editor.text = ['a'] ∧
      (t.press {} (.char 'd')).1.2.get .unnamed = some ⟨['b', '\n', 'c', 'd'], false⟩ ∧
      (t.press {} (.char 'o')).1.1.editor.anchor? = some 4 ∧
      (t.press {} (.char 'o')).1.1.editor.cursor = 1 ∧
      ((t.press {} (.char 'o')).1.1.press {} (.char 'o')).1.1.editor =
        { t.editor with wanted? := none } := by
  intro s keys t
  have reached : s.Reachable := (Reachable.opened _ _ _ _).next _ _
  have sweeps : s.sweeps keys = true := by decide
  have again : t.Reachable := reached.run _
  have visual : s.editor.mode.isVisual = true := by decide
  have begins : s.editor.anchor? = some 1 := by decide
  have cursor : t.editor.cursor = 4 := by decide
  obtain ⟨a, _, anchor, _, stays, _⟩ := anchor_stays_and_swaps reached visual
  obtain rfl := Option.some.inj (begins.symm.trans anchor)
  obtain ⟨anchor', takes⟩ := stays keys t sweeps rfl
  obtain ⟨_, stored, text⟩ :=
    takes {} (.char 'd') .delete (by decide) (by decide) (by decide) rfl
  obtain ⟨a', _, there, _, _, exchanges⟩ :=
    anchor_stays_and_swaps again (by decide)
  obtain rfl := Option.some.inj (anchor'.symm.trans there)
  obtain ⟨once, first, _, _, _, twice⟩ :=
    exchanges (by decide) {} {} (.char 'o') (.char 'o') rfl rfl
  rw [cursor] at once text
  have register := stored (by decide)
  have unnamed : t.pending.register? = none := by decide
  rw [unnamed, cursor] at register
  exact ⟨reached, visual, sweeps, anchor', cursor, text, register, once, first, twice⟩

end Session

end ModalEdit
