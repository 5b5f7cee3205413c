import ModalEdit.Proofs.Text.Copies
import ModalEdit.Proofs.Typing

/-! Insertions with a count. What is typed is put in once by the keys, and as many times as are
still due by the end of the insertion: at the cursor, or on lines of their own if the insertion
opened a line. Nothing is due if nothing was typed, so that a count opens a single line then. -/
namespace ModalEdit

/-- The command has been performed, at once or with the last of the keys that spell it. -/
inductive Session.LeadsTo (s : Session) (c : Command) : Session → Prop where
  | performed (b : RegisterBank) : LeadsTo s c (s.perform b c).1.1
  | spelled : s.Spells keys c s' → LeadsTo s c s'

/-! ### Keys that begin an insertion -/

section spelling

open Pending (Completes)

theorem Pending.press_entry {p : Pending} {k : KeyPress} (free : p.awaited? = none)
    (idle : p.operator? = none) (plain : k.plainChar? = some c)
    (named : InsertEntry.ofChar? c = some entry) :
    p.press .normal k = .complete (.edit (.insert entry) p.count) := by
  rw [Pending.press_char (m := .normal) nofun free plain]
  obtain ⟨count?, register?, operator?, awaited?⟩ := p
  cases idle
  unfold InsertEntry.ofChar? at named
  split at named
  case h_7 => cases named
  all_goals
    cases named
    rfl

theorem Session.spells_of_completes {s : Session} (completes : Completes m p keys command)
    (mode : s.editor.mode = m) (pending : s.pending = p) (b : RegisterBank) :
    ∃ s', s.Spells (keys.map fun k => (b, k)) command s' := by
  induction completes generalizing s with
  | @last c p k reading =>
    rw [← mode, ← pending] at reading
    have performed : (s.press b k).2 = .performed c (s.dropPending.perform b c).2 := by
      simp only [press, reading]
      rfl
    exact ⟨_, .last performed⟩
  | @next keys c p q k reading _ ih =>
    rw [← mode, ← pending] at reading
    have more : (s.press b k).2 = .awaitingMore := by simp only [press, reading]
    have after : (s.press b k).1.1 = { s with pending := q } := by
      simp only [press, reading]
      rfl
    obtain ⟨s', spelled⟩ := ih (s := { s with pending := q }) mode rfl
    exact ⟨s', .next more (after ▸ spelled)⟩

/-- A count and the key of an entry begin an insertion with that count, or with the highest one. -/
theorem Session.counted_entry_spelled {s : Session} (ready : s.Ready) (numeral : Text.IsNumeral t)
    (types : KeyPress.Types keys t) (plain : k.plainChar? = some c)
    (named : InsertEntry.ofChar? c = some entry) (b : RegisterBank) :
    ∃ s', s.Spells ((keys ++ [k]).map fun k => (b, k))
      (.edit (.insert entry) (min t.number maxCount)) s' := by
  obtain ⟨free, idle⟩ := Pending.ahead_free t none
  have gathered := (OperatorFront.unnamed t).gathers numeral types
  have completes := gathered.completes (.last (Pending.press_entry free idle plain named))
  rw [Pending.ahead_count numeral] at completes
  exact spells_of_completes completes ready.1 ready.2 b

end spelling

namespace Text

/-- The text in which the insertion begins. -/
def openedFor (t : Text) (i : Nat) : InsertEntry → Text
  | .openBelow => t.insertAt (t.lineEnd (t.lineOf i)) ['\n']
  | .openAbove => t.insertAt (t.lineStart (t.lineOf i)) ['\n']
  | _ => t

variable {t : Text}

theorem firstNonBlank_le_lineEnd (t : Text) (l : Nat) : t.firstNonBlank l ≤ t.lineEnd l := by
  have blanks : ((t.line l).takeWhile isBlank).length ≤ (t.line l).length :=
    (List.takeWhile_prefix _).length_le
  unfold firstNonBlank lineEnd lineLength
  omega

theorem openedFor_of_inline (inline : entry.opensLine = false) (i : Nat) :
    t.openedFor i entry = t := by
  cases entry with
  | openBelow | openAbove => cases inline
  | _ => rfl

theorem entryOffset_le (cursor : i ≤ t.length) (entry : InsertEntry) :
    Workspace.entryOffset t i entry ≤ (t.openedFor i entry).length := by
  have stop := t.lineEnd_le_length (t.lineOf i)
  have start := t.lineStart_le_lineEnd (t.lineOf i)
  cases entry with
  | before => exact cursor
  | after =>
    simp only [Workspace.entryOffset, openedFor]
    split
    · rename_i there
      obtain ⟨c, there, _⟩ := (Option.any_eq_true _ _).mp there
      obtain ⟨inside, _⟩ := List.getElem?_eq_some_iff.mp there
      exact inside
    · exact cursor
  | lineStart => exact Nat.le_trans (t.firstNonBlank_le_lineEnd _) stop
  | lineEnd => exact stop
  | openBelow =>
    rw [openedFor, length_insertAt]
    exact Nat.succ_le_succ stop
  | openAbove =>
    rw [openedFor, length_insertAt]
    exact Nat.le_succ_of_le (Nat.le_trans start stop)

theorem insertAt_nil (t : Text) (i : Nat) : t.insertAt i [] = t := by
  rw [insertAt, List.append_nil, List.take_append_drop]

theorem take_insertAt_self (inside : i ≤ t.length) (s : Text) :
    (t.insertAt i s).take i = t.take i := by
  rw [insertAt, List.append_assoc, List.take_left' (List.length_take_of_le inside)]

theorem drop_insertAt_self (inside : i ≤ t.length) (s : Text) :
    (t.insertAt i s).drop i = s ++ t.drop i := by
  rw [insertAt, List.append_assoc, List.drop_left' (List.length_take_of_le inside)]

/-- An opened line is empty: its break or the end of the text follows. -/
theorem drop_entryOffset_boundary (opens : entry.opensLine = true) (i : Nat) :
    ∀ c, ((t.openedFor i entry).drop (Workspace.entryOffset t i entry)).head? = some c →
      c = '\n' := by
  have stop := t.lineEnd_le_length (t.lineOf i)
  have start : t.lineStart (t.lineOf i) ≤ t.length := Nat.sub_le _ _
  cases entry with
  | openBelow =>
    have rest : (t.openedFor i .openBelow).drop (t.lineEnd (t.lineOf i) + 1) =
        t.drop (t.lineEnd (t.lineOf i)) := drop_insertAt stop ['\n']
    simp only [Workspace.entryOffset]
    rw [rest]
    exact t.drop_lineEnd_boundary _ (t.lineOf_le_lastLine i)
  | openAbove =>
    intro c first
    simp only [Workspace.entryOffset, openedFor] at first
    rw [drop_insertAt_self start] at first
    exact (Option.some.inj first).symm
  | before | after | lineStart | lineEnd => cases opens

/-- What is put in at the front of an opened line is between the lines around it. -/
theorem lines_openedFor (opens : entry.opensLine = true) (i : Nat) (u : Text) :
    let first := if entry = .openBelow then t.lineOf i + 1 else t.lineOf i
    ((t.openedFor i entry).insertAt (Workspace.entryOffset t i entry) u).lines =
      t.lines.take first ++ u.lines ++ t.lines.drop first := by
  have line := t.lineOf_le_lastLine i
  have stop := t.lineEnd_le_length (t.lineOf i)
  have start : t.lineStart (t.lineOf i) ≤ t.length := Nat.sub_le _ _
  cases entry with
  | openBelow =>
    have whole : (t.openedFor i .openBelow).insertAt (t.lineEnd (t.lineOf i) + 1) u =
        t.insertAt (t.lineEnd (t.lineOf i)) ('\n' :: u) := insertAt_insertAt stop ['\n'] u
    simp only [Workspace.entryOffset, if_true]
    rw [whole, insertAt, List.append_assoc, List.cons_append, lines_append_break,
      lines_take_lineEnd line, lines_append_drop_lineEnd line, List.append_assoc]
  | openAbove =>
    simp only [Workspace.entryOffset, openedFor, reduceCtorEq, if_false]
    rw [insertAt, take_insertAt_self start, drop_insertAt_self start, drop_lineStart,
      List.append_assoc, List.singleton_append, lines_take_lineStart_append line,
      lines_append_break, lines_fromLine line, List.append_assoc]
  | before | after | lineStart | lineEnd => cases opens

end Text

namespace Workspace

variable {w : Workspace} {t u : Text}

theorem enterInsert_eq (normal : w.editor.mode = .normal)
    (cursor : w.editor.cursor ≤ w.editor.text.length) (entry : InsertEntry) (n : Nat) :
    let after := (w.enterInsert entry n).1
    after.editor.mode = .insert ∧
      after.editor.text = w.editor.text.openedFor w.editor.cursor entry ∧
      after.editor.cursor = entryOffset w.editor.text w.editor.cursor entry ∧
      after.recorder.pending? = some ⟨.insert entry, n, none⟩ ∧ after.recorder.typed = [] := by
  have place := Text.entryOffset_le cursor entry
  have text : (if entry.opensLine then openLine w.editor.markOrigin entry
      else w.editor.markOrigin).text = w.editor.text.openedFor w.editor.cursor entry := by
    cases entry <;> rfl
  rw [enterInsert, inMode, if_pos normal]
  refine ⟨rfl, text, ?_, rfl, rfl⟩
  rw [← text] at place
  exact Nat.min_eq_left place

/-! ### What is due in the end -/

/-- What the end of an insertion puts in, if `u` was typed in it. -/
def due (entry : InsertEntry) (n : Nat) (u : Text) : Text :=
  if u = [] then [] else copies (n - 1) (if entry.opensLine then '\n' :: u else u)

theorem append_due (inline : entry.opensLine = false) (times : 1 ≤ n) (u : Text) :
    u ++ due entry n u = copies n u := by
  obtain ⟨m, rfl⟩ := Nat.exists_eq_add_of_le' times
  unfold due
  split
  · rename_i empty
    rw [empty, copies_empty]
    rfl
  · rw [inline, Nat.add_sub_cancel, copies_succ]
    rfl

theorem lines_append_due (opens : entry.opensLine = true) (times : 1 ≤ n) (u : Text) :
    (u ++ due entry n u).lines =
      (List.replicate (if u = [] then 1 else n) u.lines).flatten := by
  obtain ⟨m, rfl⟩ := Nat.exists_eq_add_of_le' times
  unfold due
  split
  · rename_i empty
    rw [empty]
    rfl
  · rw [Nat.add_sub_cancel, Text.lines_append_copies_break]

/-- The editor after the copies that are due. -/
def withDue (w : Workspace) : Editor :=
  w.dueCopies.elim w.editor fun (i, copies) => insertCopies w.editor i copies

theorem withDue_eq (pending : w.recorder.pending? = some ⟨.insert entry, n, typed?⟩)
    (line : entry.opensLine = true →
      w.editor.text.lineEnd (w.editor.text.lineOf w.editor.cursor) = w.editor.cursor) :
    w.withDue.text = w.editor.text.insertAt w.editor.cursor (due entry n w.recorder.typed) ∧
      w.withDue.cursor = w.editor.cursor + (due entry n w.recorder.typed).length := by
  have unchanged : w.editor.text = w.editor.text.insertAt w.editor.cursor [] :=
    (Text.insertAt_nil _ _).symm
  unfold withDue dueCopies
  rw [pending]
  cases typed : w.recorder.typed with
  | nil => exact ⟨unchanged, rfl⟩
  | cons c u =>
    dsimp only
    split
    · rename_i once
      have none : due entry n (c :: u) = [] := by
        rw [due, if_neg (List.cons_ne_nil c u), Nat.sub_eq_zero_of_le once]
        rfl
      rw [none]
      exact ⟨unchanged, rfl⟩
    · rw [due, if_neg (List.cons_ne_nil c u)]
      split
      · rename_i opens
        rw [line opens]
        exact ⟨rfl, rfl⟩
      · exact ⟨rfl, rfl⟩

/-- Where the cursor comes to rest when an insertion ends. -/
def restingPlace (t : Text) (i : Nat) : Nat :=
  min (if i = 0 ∨ t[i - 1]? = some '\n' then i else i - 1) (t.length - 1)

theorem leaveInsert_eq (insert : w.editor.mode = .insert) :
    let after := w.leaveInsert.1
    after.editor.text = w.withDue.text ∧
      after.editor.cursor = restingPlace w.withDue.text w.withDue.cursor ∧
      after.recorder = w.recorder.finish := by
  have stepped (e : Editor) :
      (if e.text[e.cursor - 1]? = some '\n' then e.cursor else e.cursor - 1) =
      if e.cursor = 0 ∨ e.text[e.cursor - 1]? = some '\n' then e.cursor else e.cursor - 1 := by
    by_cases front : e.cursor = 0 <;> simp [front]
  rw [leaveInsert, inMode, if_pos insert]
  refine ⟨rfl, ?_, rfl⟩
  rw [restingPlace, ← stepped]
  rfl

end Workspace

namespace Session

variable {s s' : Session} {t u : Text}

theorem LeadsTo.workspace (leads : s.LeadsTo c s') :
    ∃ b, s'.editor = ((s.workspace b).perform c).1.editor ∧
      s'.recorder = ((s.workspace b).perform c).1.recorder := by
  cases leads with
  | performed b => exact ⟨b, rfl, rfl⟩
  | spelled spelled =>
    obtain ⟨b, editor, recorder, _⟩ := spelled.performed
    exact ⟨b, editor, recorder⟩

/-- An insertion begins with nothing typed in it. -/
theorem LeadsTo.inserting (leads : s.LeadsTo (.edit (.insert entry) n) s')
    (normal : s.editor.mode = .normal) (cursor : s.editor.cursor ≤ s.editor.text.length) :
    s'.Inserting (s.editor.text.openedFor s.editor.cursor entry)
      (Workspace.entryOffset s.editor.text s.editor.cursor entry) ⟨.insert entry, n, none⟩ [] := by
  obtain ⟨b, editor, recorder⟩ := leads.workspace
  obtain ⟨mode, text, place, pending, typed⟩ :=
    Workspace.enterInsert_eq (w := s.workspace b) normal cursor entry n
  constructor
  · exact (congrArg (·.mode) editor).trans mode
  · rw [Text.insertAt_nil]
    exact (congrArg (·.text) editor).trans text
  · exact (congrArg (·.cursor) editor).trans place
  · exact (congrArg (·.pending?) recorder).trans pending
  · exact (congrArg (·.typed) recorder).trans typed

/-- The escape key puts in what is due behind what has been typed. -/
theorem Inserting.escape (inserting : s.Inserting t p ⟨.insert entry, n, none⟩ u)
    (start : p ≤ t.length)
    (boundary : entry.opensLine = true → ∀ c, (t.drop p).head? = some c → c = '\n')
    (b : RegisterBank) (escape : k.isEscape = true) :
    let after := s.step b (.press k)
    let whole := u ++ Workspace.due entry n u
    after.editor.mode = .normal ∧ after.editor.text = t.insertAt p whole ∧
      after.editor.cursor = Workspace.restingPlace after.editor.text (p + whole.length) ∧
      after.recorder.last? = some ⟨.insert entry, n, some u⟩ := by
  intro after whole
  let w := s.workspace b
  have typed : w.recorder.typed = u := inserting.typed
  have text : w.editor.text = t.insertAt p u := inserting.text
  have cursor : w.editor.cursor = p + u.length := inserting.cursor
  have pending : w.recorder.pending? = some ⟨.insert entry, n, none⟩ := inserting.pending
  obtain ⟨ready, ⟨_, editor, recorder⟩ | ⟨outside, _⟩⟩ := step_escape (s := s) b escape
  · -- on an opened line only a break can follow the cursor, whatever breaks have been typed
    have line (opens : entry.opensLine = true) :
        w.editor.text.lineEnd (w.editor.text.lineOf w.editor.cursor) = w.editor.cursor := by
      rw [text, cursor]
      apply Text.lineEnd_lineOf_eq
      · rw [Text.length_insertAt]
        omega
      · rw [Text.drop_insertAt start]
        exact boundary opens
    obtain ⟨text', cursor'⟩ := Workspace.withDue_eq pending line
    rw [typed, text, cursor, Text.insertAt_insertAt start] at text'
    rw [typed, cursor, Nat.add_assoc, ← List.length_append] at cursor'
    obtain ⟨final, rests, finished⟩ := Workspace.leaveInsert_eq (w := w) inserting.mode
    have whole_text : after.editor.text = t.insertAt p whole :=
      (congrArg (·.text) editor).trans (final.trans text')
    have kept : after.recorder = w.recorder.finish := recorder.trans finished
    refine ⟨ready.1, whole_text, ?_, ?_⟩
    · rw [whole_text, ← text', ← cursor']
      exact (congrArg (·.cursor) editor).trans rests
    · rw [kept, Recorder.finish, pending, typed]
      rfl
  · exact absurd inserting.mode outside

/-- An insertion from its command to the escape key. -/
theorem LeadsTo.inserted (reached : s.Reachable) (normal : s.editor.mode = .normal)
    (leads : s.LeadsTo (.edit (.insert entry) n) s') (typed : List (RegisterBank × KeyPress))
    (leaves : KeyPress.Leaves (typed.map (·.2)) u) (b : RegisterBank) (escape : k.isEscape = true) :
    let p := Workspace.entryOffset s.editor.text s.editor.cursor entry
    let after := (s'.run (typed.map fun key => (key.1, .press key.2))).step b (.press k)
    let whole := u ++ Workspace.due entry n u
    after.editor.mode = .normal ∧
      after.editor.text = (s.editor.text.openedFor s.editor.cursor entry).insertAt p whole ∧
      after.editor.cursor = Workspace.restingPlace after.editor.text (p + whole.length) ∧
      after.recorder.last? = some ⟨.insert entry, n, some u⟩ := by
  have cursor := reached.placed.cursor_le_length
  have start := Text.entryOffset_le cursor entry
  have begun := leads.inserting normal cursor
  exact (begun.run start typed leaves).escape start
    (fun opens => Text.drop_entryOffset_boundary opens _) b escape

/-- What is typed in an insertion on the line of the cursor is there as many times as the count
says, and the memory of changes holds it once. -/
theorem counted_insertion_repeats (reached : s.Reachable) (normal : s.editor.mode = .normal)
    (inline : entry.opensLine = false) (times : 1 ≤ n)
    (leads : s.LeadsTo (.edit (.insert entry) n) s') (typed : List (RegisterBank × KeyPress))
    (typing : KeyPress.Typing (typed.map (·.2))) (b : RegisterBank)
    (escape : k.isEscape = true) :
    let t := s.editor.text
    let p := Workspace.entryOffset t s.editor.cursor entry
    let u := KeyPress.netText (typed.map (·.2))
    let q := p + n * u.length
    let after := (s'.run (typed.map fun key => (key.1, .press key.2))).step b (.press k)
    p ≤ t.length ∧ after.editor.text = t.take p ++ Workspace.copies n u ++ t.drop p ∧
      after.editor.mode = .normal ∧ after.recorder.last? = some ⟨.insert entry, n, some u⟩ ∧
      after.editor.cursor =
        min (if q = 0 ∨ after.editor.text[q - 1]? = some '\n' then q else q - 1)
          (after.editor.text.length - 1) := by
  intro t p u q after
  have place := Text.entryOffset_le reached.placed.cursor_le_length entry
  obtain ⟨mode, text, cursor, last⟩ :=
    leads.inserted reached normal typed typing.leaves b escape
  rw [Text.openedFor_of_inline inline] at place text
  rw [Workspace.append_due inline times] at text cursor
  rw [Workspace.length_copies] at cursor
  exact ⟨place, text, mode, last, cursor⟩

/-- Two keys and a break typed, one of the keys taken back, at the end of a line. -/
theorem counted_insertion_repeats_across_lines :
    let s := ofText ['a', 'b'] .normal 0 100
    let s' := s.run [({}, .press (.char '3')), ({}, .press (.char 'A'))]
    let typed : List (RegisterBank × KeyPress) :=
      [({}, .char 'x'), ({}, ⟨.backspace, {}⟩), ({}, .char 'y'), ({}, ⟨.enter, {}⟩)]
    let after := (s'.run (typed.map fun key => (key.1, .press key.2))).step {}
      (.press ⟨.escape, {}⟩)
    s.Reachable ∧ s.editor.mode = .normal ∧ InsertEntry.opensLine .lineEnd = false ∧ 1 ≤ 3 ∧
      s.LeadsTo (.edit (.insert .lineEnd) 3) s' ∧ KeyPress.Typing (typed.map (·.2)) ∧
      after.editor.text = ['a', 'b', 'y', '\n', 'y', '\n', 'y', '\n'] ∧
      after.editor.cursor = 7 ∧
      after.recorder.last? = some ⟨.insert .lineEnd, 3, some ['y', '\n']⟩ := by
  intro s s' typed after
  have reached : s.Reachable := .opened _ _ _ _
  have spelled : s.Spells [({}, .char '3'), ({}, .char 'A')] (.edit (.insert .lineEnd) 3) s' :=
    .next rfl (.last rfl)
  have leads : s.LeadsTo (.edit (.insert .lineEnd) 3) s' := .spelled spelled
  have typing : KeyPress.Typing (typed.map (·.2)) := ⟨by decide, by decide⟩
  have net : KeyPress.netText (typed.map (·.2)) = ['y', '\n'] := by decide
  obtain ⟨_, text, _, last, cursor⟩ := counted_insertion_repeats
    (k := ⟨.escape, {}⟩) reached rfl rfl (by decide) leads typed typing {} rfl
  rw [net] at text last cursor
  have whole : after.editor.text = ['a', 'b', 'y', '\n', 'y', '\n', 'y', '\n'] := by
    rw [text]
    decide
  have landing : after.editor.cursor = 7 := by
    rw [cursor, whole]
    decide
  refine ⟨reached, rfl, rfl, by decide, leads, typing, whole, landing, ?_⟩
  rw [last]

/-! ### Opened lines -/

/-- A count opens lines behind the line of the cursor, or ahead of it, each with what is typed; but
if nothing is typed then it opens one line, whatever the count. -/
theorem counted_opening_opens_lines (reached : s.Reachable) (normal : s.editor.mode = .normal)
    (opens : entry.opensLine = true) (times : 1 ≤ n)
    (leads : s.LeadsTo (.edit (.insert entry) n) s') (typed : List (RegisterBank × KeyPress))
    (types : (typed.map (·.2)).map KeyPress.typedChar? = u.map some) (b : RegisterBank)
    (escape : k.isEscape = true) :
    let t := s.editor.text
    let l := t.lineOf s.editor.cursor
    let first := if entry = .openBelow then l + 1 else l
    let opened (m : Nat) :=
      t.lines.take first ++ (List.replicate m u.lines).flatten ++ t.lines.drop first
    let after := (s'.run (typed.map fun key => (key.1, .press key.2))).step b (.press k)
    (after.editor.text.lines = opened n ↔ u ≠ [] ∨ n = 1) ∧
      (u = [] → after.editor.text.lines = opened 1) := by
  intro t l first opened after
  obtain ⟨typing, rfl⟩ := KeyPress.typing_of_typedChar? types
  obtain ⟨_, text, _, _⟩ := leads.inserted reached normal typed typing.leaves b escape
  have lines := congrArg Text.lines text
  rw [Text.lines_openedFor opens, Workspace.lines_append_due opens times] at lines
  by_cases empty : KeyPress.netText (typed.map (·.2)) = []
  · -- the number of lines tells one opened line from `n` of them
    rw [if_pos empty] at lines
    refine ⟨?_, fun _ => lines⟩
    constructor
    · intro all
      right
      have same : opened n = opened 1 := all.symm.trans lines
      have rows := congrArg List.length (List.append_cancel_left (List.append_cancel_right same))
      simpa [empty, Text.lines] using rows
    · rintro (some | once)
      · exact absurd empty some
      · rw [once]
        exact lines
  · rw [if_neg empty] at lines
    exact ⟨iff_of_true lines (.inl empty), fun nothing => absurd nothing empty⟩

/-- Two lines above the first one, with a break in what is typed. -/
theorem counted_opening_opens_lines_above :
    let s := ofText ['x', '\n', 'y'] .normal 0 100
    let s' := s.run [({}, .press (.char '2')), ({}, .press (.char 'O'))]
    let typed : List (RegisterBank × KeyPress) :=
      [({}, .char 'f'), ({}, ⟨.enter, {}⟩), ({}, ⟨.tab, {}⟩)]
    let after := (s'.run (typed.map fun key => (key.1, .press key.2))).step {}
      (.press ⟨.escape, {}⟩)
    s.Reachable ∧ s.editor.mode = .normal ∧ InsertEntry.opensLine .openAbove = true ∧ 1 ≤ 2 ∧
      s.LeadsTo (.edit (.insert .openAbove) 2) s' ∧
      (typed.map (·.2)).map KeyPress.typedChar? = ['f', '\n', '\t'].map some ∧
      after.editor.text.lines = [['f'], ['\t'], ['f'], ['\t'], ['x'], ['y']] := by
  intro s s' typed after
  have reached : s.Reachable := .opened _ _ _ _
  have spelled : s.Spells [({}, .char '2'), ({}, .char 'O')] (.edit (.insert .openAbove) 2) s' :=
    .next rfl (.last rfl)
  have leads : s.LeadsTo (.edit (.insert .openAbove) 2) s' := .spelled spelled
  have types : (typed.map (·.2)).map KeyPress.typedChar? = ['f', '\n', '\t'].map some := rfl
  obtain ⟨all, _⟩ := counted_opening_opens_lines
    (k := ⟨.escape, {}⟩) reached rfl rfl (by decide) leads typed types {} rfl
  refine ⟨reached, rfl, rfl, by decide, leads, types, ?_⟩
  rw [all.mpr (.inl nofun)]
  decide

/-- Three lines are asked for and nothing is typed: there is one. -/
theorem counted_opening_of_nothing_opens_one_line :
    let s := ofText ['x'] .normal 0 100
    let s' := s.run [({}, .press (.char '3')), ({}, .press (.char 'o'))]
    let after := s'.step {} (.press ⟨.escape, {}⟩)
    s.Reachable ∧ s.editor.mode = .normal ∧ s.LeadsTo (.edit (.insert .openBelow) 3) s' ∧
      after.editor.text.lines = [['x'], []] ∧
      after.editor.text.lines ≠ s.editor.text.lines.take 1 ++
        (List.replicate 3 (Text.lines [])).flatten ++ s.editor.text.lines.drop 1 := by
  intro s s' after
  have spelled : s.Spells [({}, .char '3'), ({}, .char 'o')] (.edit (.insert .openBelow) 3) s' :=
    .next rfl (.last rfl)
  exact ⟨.opened _ _ _ _, rfl, .spelled spelled, by decide, by decide⟩

end Session

end ModalEdit
