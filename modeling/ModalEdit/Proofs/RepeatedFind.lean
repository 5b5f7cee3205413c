import ModalEdit.Proofs.OperatorKeys
import ModalEdit.Proofs.Replay
import ModalEdit.Proofs.Text.Offsets
import ModalEdit.Proofs.VerticalMotion

/-! Searches within a line, one after the other. A repetition from where the search has stopped at an
occurrence finds what lies beyond that occurrence and nothing else: the character that it skips, where the
search stops short, is the occurrence itself. So the repetitions go through all the occurrences in order. -/
namespace ModalEdit

/-! ### Occurrences on a line -/

namespace Find

variable {f : Find}

/-- Does `p` lie beyond `i`, seen in the direction of the search? -/
def Beyond (f : Find) (i p : Nat) : Prop := if f.forward then i < p else p < i

instance (f : Find) (i p : Nat) : Decidable (f.Beyond i p) :=
  inferInstanceAs (Decidable (if f.forward then i < p else p < i))

theorem beyond_of_forward (forward : f.forward = true) : f.Beyond = (· < ·) := by
  funext i p
  rw [Beyond, if_pos forward]

theorem beyond_of_backward (backward : f.forward = false) : f.Beyond = (· > ·) := by
  funext i p
  rw [Beyond, backward, if_neg Bool.false_ne_true]

instance (f : Find) : Std.Asymm f.Beyond where
  asymm i p first second := by
    cases direction : f.forward with
    | true =>
      rw [beyond_of_forward direction] at first second
      exact Nat.lt_asymm first second
    | false =>
      rw [beyond_of_backward direction] at first second
      exact Nat.lt_asymm first second

/-- How many characters a search leaves out. -/
def skip (f : Find) (again : Bool) : Nat := if f.till && again then 1 else 0

/-- Where a search that finds `p` stops: upon it, or one short of it. -/
def stop (f : Find) (p : Nat) : Nat := if !f.till then p else if f.forward then p - 1 else p + 1

theorem skip_false (f : Find) : f.skip false = 0 := by simp [skip]

theorem stop_between (beyond : f.Beyond i p) : min i p ≤ f.stop p ∧ f.stop p ≤ max i p := by
  unfold stop
  cases direction : f.forward with
  | true =>
    rw [beyond_of_forward direction] at beyond
    have ordered : i < p := beyond
    cases f.till with
    | true => exact ⟨show min i p ≤ p - 1 by omega, show p - 1 ≤ max i p by omega⟩
    | false => exact ⟨Nat.min_le_right i p, Nat.le_max_right i p⟩
  | false =>
    rw [beyond_of_backward direction] at beyond
    have ordered : p < i := beyond
    cases f.till with
    | true => exact ⟨show min i p ≤ p + 1 by omega, show p + 1 ≤ max i p by omega⟩
    | false => exact ⟨Nat.min_le_right i p, Nat.le_max_right i p⟩

theorem Beyond.trans (first : f.Beyond i p) (second : f.Beyond p q) : f.Beyond i q := by
  cases direction : f.forward with
  | true =>
    rw [beyond_of_forward direction] at first second ⊢
    exact Nat.lt_trans first second
  | false =>
    rw [beyond_of_backward direction] at first second ⊢
    exact Nat.lt_trans second first

/-- What a repetition skips from where a search stopped is what the search has found. -/
theorem beyond_stop (beyond : f.Beyond i p) :
    (if f.forward then f.stop p + f.skip true < q else q < f.stop p - f.skip true) ↔
      f.Beyond p q := by
  unfold stop skip
  cases direction : f.forward with
  | true =>
    -- a hit ahead of `i` has a character in front of it, upon which the search can stop
    rw [beyond_of_forward direction] at beyond ⊢
    cases f.till with
    | true => simp; omega
    | false => simp
  | false =>
    rw [beyond_of_backward direction]
    cases f.till with
    | true => simp
    | false => simp

end Find

namespace Text

variable {t : Text} {f : Find}

/-- A search from `i` can find `p`: the character stands there, on the line of `i` and beyond `i`. -/
def IsHit (t : Text) (f : Find) (i p : Nat) : Prop :=
  t[p]? = some f.char ∧ t.lineOf p = t.lineOf i ∧ f.Beyond i p

instance (t : Text) (f : Find) (i p : Nat) : Decidable (t.IsHit f i p) :=
  inferInstanceAs (Decidable (_ ∧ _ ∧ _))

/-- What a search from `i` can find, nearest first. -/
def hits (t : Text) (f : Find) (i : Nat) : List Nat :=
  let places := (List.range t.length).filter (t.IsHit f i ·)
  if f.forward then places else places.reverse

theorem mem_hits : p ∈ t.hits f i ↔ t.IsHit f i p := by
  have all : p ∈ (List.range t.length).filter (t.IsHit f i ·) ↔ t.IsHit f i p := by
    rw [List.mem_filter, List.mem_range, decide_eq_true_iff]
    exact and_iff_right_of_imp fun hit => (List.getElem?_eq_some_iff.mp hit.1).1
  unfold hits
  dsimp only
  split
  · exact all
  · exact List.mem_reverse.trans all

theorem hits_ordered (t : Text) (f : Find) (i : Nat) : (t.hits f i).Pairwise f.Beyond := by
  have ascending : ((List.range t.length).filter (t.IsHit f i ·)).Pairwise (· < ·) :=
    List.pairwise_lt_range.filter _
  unfold hits
  cases direction : f.forward with
  | true =>
    rw [Find.beyond_of_forward direction]
    exact ascending
  | false =>
    rw [Find.beyond_of_backward direction]
    exact List.pairwise_reverse.mpr ascending

theorem occurrences_ordered (t : Text) (f : Find) (i skip : Nat) :
    (t.occurrences f i skip).Pairwise f.Beyond := by
  unfold occurrences
  cases direction : f.forward with
  | true =>
    rw [Find.beyond_of_forward direction]
    simp only [if_true]
    exact t.offsetsOf_ascending _ _
  | false =>
    rw [Find.beyond_of_backward direction]
    simp only [Bool.false_eq_true, if_false]
    exact List.pairwise_reverse.mpr (t.offsetsOf_ascending _ _)

theorem mem_occurrences : p ∈ t.occurrences f i skip ↔
    t[p]? = some f.char ∧ t.lineOf p = t.lineOf i ∧ p < t.lineEnd (t.lineOf i) ∧
      if f.forward then i + skip < p else p < i - skip := by
  have start := t.lineStart_lineOf_le i
  have line := t.lineOf_le_lastLine i
  have character : (∃ c, t[p]? = some c ∧ (c == f.char) = true) ↔ t[p]? = some f.char := by simp
  cases direction : f.forward with
  | true =>
    simp only [occurrences, direction, if_true, mem_offsetsOf, character, Span.between]
    constructor
    · rintro ⟨first, last, there⟩
      exact ⟨there, lineOf_eq line (by omega) (by omega), by omega, by omega⟩
    · rintro ⟨there, _, inside, beyond⟩
      exact ⟨by omega, by omega, there⟩
  | false =>
    simp only [occurrences, direction, Bool.false_eq_true, if_false, List.mem_reverse, mem_offsetsOf,
      character, Span.between]
    constructor
    · rintro ⟨first, last, there⟩
      have short := (List.getElem?_eq_some_iff.mp there).1
      have inside : p < t.lineEnd (t.lineOf i) := by
        rcases Nat.le_total i t.length with within | past
        · have := le_lineEnd_lineOf within
          omega
        · rwa [lineOf_of_length_le past, lineEnd_lastLine]
      exact ⟨there, lineOf_eq line (by omega) (Nat.le_of_lt inside), inside, by omega⟩
    · rintro ⟨there, same, _, beyond⟩
      have own := t.lineStart_lineOf_le p
      rw [same] at own
      exact ⟨by omega, by omega, there⟩

theorem lineOf_of_between (same : t.lineOf p = t.lineOf i) (first : min i p ≤ j) (last : j ≤ max i p) :
    t.lineOf j = t.lineOf i := by
  have ahead := t.lineOf_mono first
  have behind := t.lineOf_mono last
  rcases Nat.le_total i p with forward | backward
  · rw [Nat.min_eq_left forward] at ahead
    rw [Nat.max_eq_right forward, same] at behind
    exact Nat.le_antisymm behind ahead
  · rw [Nat.min_eq_right backward, same] at ahead
    rw [Nat.max_eq_left backward] at behind
    exact Nat.le_antisymm behind ahead

theorem IsHit.lineOf_stop (hit : t.IsHit f i p) : t.lineOf (f.stop p) = t.lineOf i := by
  obtain ⟨first, last⟩ := Find.stop_between hit.2.2
  exact lineOf_of_between hit.2.1 first last

theorem isHit_of_mem_occurrences (member : p ∈ t.occurrences f i skip) : t.IsHit f i p := by
  obtain ⟨there, line, _, beyond⟩ := mem_occurrences.mp member
  refine ⟨there, line, ?_⟩
  unfold Find.Beyond
  split
  · rename_i forward
    rw [if_pos forward] at beyond
    omega
  · rename_i backward
    rw [if_neg backward] at beyond
    omega

/-- Beyond the stop at an occurrence, a repeated search finds what lies beyond the occurrence. -/
theorem mem_occurrences_stop (visible : f.char ≠ '\n') (hit : t.IsHit f i p) :
    q ∈ t.occurrences f (f.stop p) (f.skip true) ↔ t.IsHit f i q ∧ f.Beyond p q := by
  rw [mem_occurrences, hit.lineOf_stop, Find.beyond_stop hit.2.2]
  constructor
  · rintro ⟨there, line, _, beyond⟩
    exact ⟨⟨there, line, hit.2.2.trans beyond⟩, beyond⟩
  · rintro ⟨⟨there, line, _⟩, beyond⟩
    have inside := lt_lineEnd_of_visible there visible
    rw [line] at inside
    exact ⟨there, line, inside, beyond⟩

/-- The first search finds all that is there. -/
theorem occurrences_eq_hits (visible : f.char ≠ '\n') : t.occurrences f i 0 = t.hits f i := by
  apply (t.occurrences_ordered f i 0).eq_of_mem_iff (t.hits_ordered f i)
  intro p
  rw [mem_hits]
  refine ⟨isHit_of_mem_occurrences, fun hit => mem_occurrences.mpr ?_⟩
  obtain ⟨there, line, beyond⟩ := hit
  have inside := lt_lineEnd_of_visible there visible
  rw [line] at inside
  exact ⟨there, line, inside, beyond⟩

theorem occurrences_stop (visible : f.char ≠ '\n') (there : (t.hits f i)[k]? = some p) :
    t.occurrences f (f.stop p) (f.skip true) = (t.hits f i).drop (k + 1) := by
  have ordered := t.hits_ordered f i
  apply (t.occurrences_ordered f _ _).eq_of_mem_iff (ordered.drop)
  intro q
  rw [mem_drop_succ_iff ordered there, mem_hits]
  exact mem_occurrences_stop visible (mem_hits.mp (List.mem_of_getElem? there))

end Text

/-! ### Searches as motions -/

namespace Motion

/-- The search that a motion stands for, and whether it is a repetition. -/
def search? (last? : Option Find) : Motion → Option (Find × Bool)
  | find f => some (f, false)
  | repeatFind => last?.map (·, true)
  | repeatFindReverse => last?.map (·.reversed, true)
  | _ => none

def searches : Motion → Bool
  | find _ | repeatFind | repeatFindReverse => true
  | _ => false

theorem landing?_of_searches {m : Motion} {ctx : Context} (searches : m.searches = true) :
    m.landing? t i count ctx =
      (m.search? ctx.lastFind).bind fun search => Landing.find? t search.1 i count search.2 := by
  cases m with
  | find f => rfl
  | repeatFind | repeatFindReverse =>
    simp only [landing?, search?]
    cases ctx.lastFind <;> rfl
  | _ => cases searches

end Motion

/-- A search comes to rest on the line on which it began. -/
theorem Text.lineOf_find? {t : Text} (found : t.find? f i count again = some q) :
    t.lineOf q = t.lineOf i ∧ q ≤ max i (t.length - 1) := by
  obtain ⟨p, there, stops⟩ := Option.map_eq_some_iff.mp found
  have hit := isHit_of_mem_occurrences (List.mem_of_getElem? there)
  obtain rfl : f.stop p = q := stops
  have inside := (List.getElem?_eq_some_iff.mp hit.1).1
  have last := (Find.stop_between hit.2.2).2
  exact ⟨hit.lineOf_stop, by omega⟩

/-- A search counts the occurrences and stops at the last of them. -/
theorem Text.find?_eq_stop (t : Text) (f : Find) (i count : Nat) (again : Bool) :
    t.find? f i (max count 1) again =
      (t.occurrences f i (f.skip again))[count - 1]?.map f.stop := by
  have number : max count 1 - 1 = count - 1 := by omega
  rw [find?, number]
  rfl

theorem Motion.resolve_of_searches {m : Motion} {ctx : Context} (searches : m.searches = true)
    (limit : ctx.limit = t.length - 1) (cursor : i ≤ t.length - 1) :
    m.resolve t i count ctx = (m.search? ctx.lastFind).bind fun search =>
      (t.find? search.1 i (max count 1) search.2).map fun q =>
        if search.1.forward then .through q else .upTo q := by
  rw [resolve, landing?_of_searches searches, Nat.min_eq_left (by omega), limit]
  cases m.search? ctx.lastFind with
  | none => rfl
  | some search =>
    rw [Option.bind_some, Option.bind_some, Landing.find?, Option.map_map]
    refine Option.map_congr fun q found => ?_
    have bound := (Text.lineOf_find? found).2
    rw [Nat.max_eq_right cursor] at bound
    cases search.1.forward <;> simp [Landing.through, Landing.upTo, bound]

namespace Workspace

variable {w : Workspace} {m : Motion}

/-- In normal mode a search takes the cursor to where it stops, or leaves it where it is. -/
theorem move_of_searches (normal : w.editor.mode = .normal)
    (cursor : w.editor.cursor ≤ w.editor.text.length - 1) (searches : m.searches = true)
    (count : Nat) :
    let e := rememberFind w.editor m
    w.move m count =
      match (m.search? e.lastFind?).bind fun search =>
        e.text.find? search.1 e.cursor (max count 1) search.2 with
      | none => ({ w with editor := e }, .unchanged)
      | some q => ({ w with editor := { e with cursor := q, wanted? := none } },
          if q = e.cursor then .unchanged else .moved) := by
  intro e
  obtain ⟨f?, remembered⟩ := rememberFind_eq w.editor m
  have mode : e.mode = .normal := by rw [show e = _ from remembered, ← normal]
  have limit : (cursorContext e).limit = e.text.length - 1 :=
    (cursorContext_of_ne_insert (by rw [mode]; nofun)).2
  have there : e.cursor ≤ e.text.length - 1 := by rwa [show e = _ from remembered]
  have resolved : m.resolve e.text e.cursor count (cursorContext e) = _ :=
    Motion.resolve_of_searches searches limit there
  rw [show (cursorContext e).lastFind = e.lastFind? from rfl] at resolved
  simp only [move, show rememberFind w.editor m = e from rfl, resolved]
  cases m.search? e.lastFind? with
  | none => rfl
  | some search =>
    simp only [Option.bind_some]
    cases e.text.find? search.1 e.cursor (max count 1) search.2 with
    | none => rfl
    | some q =>
      cases search.1.forward with
      | true => simp [mode, Mode.isVisual, Motion.Landing.through]
      | false => simp [mode, Mode.isVisual, Motion.Landing.upTo]

end Workspace

/-! ### Keys -/

namespace Find

/-- The letter that begins a search. -/
def letter (f : Find) : Char :=
  match f.forward, f.till with
  | true, false => 'f'
  | false, false => 'F'
  | true, true => 't'
  | false, true => 'T'

/-- The keys of a search. -/
def keys (f : Find) : List KeyPress := [.char f.letter, .char f.char]

theorem keys_complete {f : Find} (visible : f.char ≠ '\n') :
    Pending.Completes .normal {} f.keys (.move (.find f) 1) := by
  have aims : TargetKeys .delete [] f.keys (.motion (.find f)) := by
    obtain ⟨c, forward, till⟩ := f
    refine .find rfl ?_ (.inl ⟨rfl, rfl, rfl⟩) visible
    cases forward <;> cases till <;> simp [letter, findChars]
  exact aims.completes_move (by decide) rfl (fun _ => rfl) rfl

end Find

/-- The cursor goes to the stop of a search that has found `p`. -/
def Editor.found (e : Editor) (f : Find) (p : Nat) : Editor :=
  { e with cursor := f.stop p, wanted? := none, lastFind? := some f }

namespace Session

variable {s : Session} {f : Find} {m : Motion}

/-- What a search does, and a repetition of it. -/
theorem perform_search (normal : s.editor.mode = .normal)
    (cursor : s.editor.cursor ≤ s.editor.text.length - 1)
    (seeks : m = .find f ∧ again = false ∨
      m = .repeatFind ∧ s.editor.lastFind? = some f ∧ again = true)
    (b : RegisterBank) (count : Nat) :
    s.perform b (.move m count) =
      match (s.editor.text.occurrences f s.editor.cursor (f.skip again))[count - 1]? with
      | none => (({ s with editor := { s.editor with lastFind? := some f } }, b), .unchanged)
      | some p => (({ s with editor := s.editor.found f p }, b),
          if f.stop p = s.editor.cursor then .unchanged else .moved) := by
  have searches : m.searches = true := by
    rcases seeks with ⟨rfl, _⟩ | ⟨rfl, _⟩ <;> rfl
  have remembered : Workspace.rememberFind s.editor m = { s.editor with lastFind? := some f } := by
    rcases seeks with ⟨rfl, _⟩ | ⟨rfl, last, _⟩
    · rfl
    · rw [← last]
      rfl
  have search : m.search? (some f) = some (f, again) := by
    rcases seeks with ⟨rfl, rfl⟩ | ⟨rfl, _, rfl⟩ <;> rfl
  have moved := Workspace.move_of_searches (w := s.workspace b) normal cursor searches count
  simp only [workspace, remembered, search, Option.bind_some, Text.find?_eq_stop] at moved
  have done : s.perform b (.move m count) =
      (({ s with
          editor := ((s.workspace b).move m count).1.editor
          recorder := ((s.workspace b).move m count).1.recorder },
        ((s.workspace b).move m count).1.registers), ((s.workspace b).move m count).2) := rfl
  rw [done, workspace, moved]
  cases (s.editor.text.occurrences f s.editor.cursor (f.skip again))[count - 1]? with
  | none => rfl
  | some p => rfl

section

variable (ready : s.Ready) (cursor : s.editor.cursor ≤ s.editor.text.length - 1)
  (visible : f.char ≠ '\n') (b : RegisterBank)

include ready cursor visible

/-- From one occurrence a repetition with a count goes on to one of those behind it. -/
theorem perform_repeatFind_found (there : (s.editor.text.hits f s.editor.cursor)[k]? = some p)
    (count : Nat) :
    let found : Session := { s with editor := s.editor.found f p }
    found.perform b (.move .repeatFind count) =
      match (s.editor.text.hits f s.editor.cursor)[k + 1 + (count - 1)]? with
      | none => ((found, b), .unchanged)
      | some q => (({ s with editor := s.editor.found f q }, b),
          if f.stop q = f.stop p then .unchanged else .moved) := by
  intro found
  have hit := Text.mem_hits.mp (List.mem_of_getElem? there)
  have last := (Find.stop_between hit.2.2).2
  have inside := (List.getElem?_eq_some_iff.mp hit.1).1
  have performed := perform_search (s := found) (f := f) ready.1
    (show f.stop p ≤ s.editor.text.length - 1 by omega) (.inr ⟨rfl, rfl, rfl⟩) b count
  have behind : s.editor.text.occurrences f (f.stop p) (f.skip true) = _ :=
    Text.occurrences_stop visible there
  rw [performed, show found.editor.text.occurrences f found.editor.cursor _ = _ from behind,
    List.getElem?_drop]
  rfl

/-- The first search finds the nearest occurrence, if there is one. -/
theorem perform_find :
    s.perform b (.move (.find f) 1) =
      match (s.editor.text.hits f s.editor.cursor)[0]? with
      | none => (({ s with editor := { s.editor with lastFind? := some f } }, b), .unchanged)
      | some p => (({ s with editor := s.editor.found f p }, b),
          if f.stop p = s.editor.cursor then .unchanged else .moved) := by
  have first : s.editor.text.occurrences f s.editor.cursor (f.skip false) = _ :=
    f.skip_false ▸ Text.occurrences_eq_hits visible
  rw [perform_search ready.1 cursor (.inl ⟨rfl, rfl⟩), first]

end

/-- Types a search and then the key that repeats it a number of times. -/
def pressFind (s : Session) (b : RegisterBank) (f : Find) (k : Nat) : Session × RegisterBank :=
  (s.pressAll b (f.keys ++ List.replicate k (.char ';'))).1

theorem press_again (ready : s.Ready) (b : RegisterBank) :
    s.press b (.char ';') = ((s.perform b (.move .repeatFind 1)).1,
      .performed (.move .repeatFind 1) (s.perform b (.move .repeatFind 1)).2) := by
  have reading : s.pending.press s.editor.mode (.char ';') = .complete (.move .repeatFind 1) := by
    rw [ready.1, ready.2]
    rfl
  have nothing : { s with pending := {} } = s := by rw [← ready.2]
  simp only [press, reading, Reading.pending, nothing]

theorem pressFind_zero (ready : s.Ready) (visible : f.char ≠ '\n') (b : RegisterBank) :
    s.pressFind b f 0 = (s.perform b (.move (.find f) 1)).1 := by
  rw [pressFind, List.replicate_zero, List.append_nil,
    (performs_of_completes ready b (Find.keys_complete visible)).1]

theorem pressFind_succ (s : Session) (b : RegisterBank) (f : Find) (k : Nat) :
    s.pressFind b f (k + 1) =
      ((s.pressFind b f k).1.press (s.pressFind b f k).2 (.char ';')).1 := by
  rw [pressFind, List.replicate_succ', ← List.append_assoc, pressAll_append_fst]
  rfl

section

variable (ready : s.Ready) (cursor : s.editor.cursor ≤ s.editor.text.length - 1)
  (visible : f.char ≠ '\n') (b : RegisterBank)

include ready cursor visible

/-- The `k`-th repetition is at the `k`-th occurrence behind the first. -/
theorem pressFind_found (there : (s.editor.text.hits f s.editor.cursor)[k]? = some p) :
    s.pressFind b f k = ({ s with editor := s.editor.found f p }, b) := by
  induction k generalizing p with
  | zero => rw [pressFind_zero ready visible, perform_find ready cursor visible, there]
  | succ k ih =>
    obtain ⟨inside, _⟩ := List.getElem?_eq_some_iff.mp there
    obtain ⟨p', before⟩ : ∃ p', (s.editor.text.hits f s.editor.cursor)[k]? = some p' :=
      ⟨_, List.getElem?_eq_getElem (Nat.lt_of_succ_lt inside)⟩
    have ready' : Ready { s with editor := s.editor.found f p' } := ready
    rw [pressFind_succ, ih before, press_again ready',
      perform_repeatFind_found ready cursor visible b before 1, Nat.sub_self, Nat.add_zero, there]

/-- Once all that is there has been found, a repetition changes nothing. -/
theorem press_again_at_end :
    let found := s.pressFind b f ((s.editor.text.hits f s.editor.cursor).length - 1)
    found.1.press found.2 (.char ';') = (found, .performed (.move .repeatFind 1) .unchanged) := by
  intro found
  rcases Nat.eq_zero_or_pos (s.editor.text.hits f s.editor.cursor).length with none | some
  · have none := List.eq_nil_of_length_eq_zero none
    let missed : Session := { s with editor := { s.editor with lastFind? := some f } }
    have first : found = (missed, b) := by
      rw [show found = s.pressFind b f _ from rfl, none, List.length_nil,
        pressFind_zero ready visible, perform_find ready cursor visible, none]
      rfl
    have nothing : s.editor.text.occurrences f s.editor.cursor (f.skip true) = [] := by
      refine List.eq_nil_iff_forall_not_mem.mpr fun p member => ?_
      have hit := Text.mem_hits.mpr (Text.isHit_of_mem_occurrences member)
      rw [none] at hit
      cases hit
    have again := perform_search (s := missed) ready.1 cursor (.inr ⟨rfl, rfl, rfl⟩) b 1
    rw [show missed.editor.text.occurrences f _ _ = [] from nothing] at again
    rw [first, press_again (s := missed) ready, again]
    rfl
  · obtain ⟨q, last⟩ : ∃ q, (s.editor.text.hits f s.editor.cursor)[
        (s.editor.text.hits f s.editor.cursor).length - 1]? = Option.some q :=
      ⟨_, List.getElem?_eq_getElem (Nat.sub_one_lt_of_lt some)⟩
    let ended : Session := { s with editor := s.editor.found f q }
    have there : found = (ended, b) := pressFind_found ready cursor visible b last
    have again := perform_repeatFind_found ready cursor visible b last 1
    rw [List.getElem?_eq_none (by omega)] at again
    rw [there, press_again (s := ended) ready, again]

theorem pressFind_past (short : (s.editor.text.hits f s.editor.cursor).length ≤ k + 1) :
    s.pressFind b f k = s.pressFind b f ((s.editor.text.hits f s.editor.cursor).length - 1) := by
  have last : (s.editor.text.hits f s.editor.cursor).length - 1 ≤ k := by omega
  induction k, last using Nat.le_induction with
  | base => rfl
  | succ k last ih =>
    rw [pressFind_succ, ih (by omega), press_again_at_end ready cursor visible]

end

/-- A search and its repetitions stop at one occurrence after the other, and a repetition with a count where
that many without one stop. With no occurrence left a repetition changes nothing. The cursor stays on its
line. -/
theorem repeated_finds_enumerate (ready : s.Ready) (cursor : s.editor.cursor ≤ s.editor.maxCursor)
    (visible : f.char ≠ '\n') (b : RegisterBank) :
    let t := s.editor.text
    let hits := t.hits f s.editor.cursor
    let after := s.pressFind b f
    (∀ k p, hits[k]? = some p → (after k).1.editor.cursor = f.stop p ∧
      (1 ≤ k → ((after 0).1.perform (after 0).2 (.move .repeatFind k)).1 = after k)) ∧
    (hits = [] → (after 0).1.editor.cursor = s.editor.cursor) ∧
    (∀ k, hits.length ≤ k + 1 → (after k).1.press (after k).2 (.char ';') =
      (after k, .performed (.move .repeatFind 1) .unchanged)) ∧
    ∀ m count, m.searches = true →
      t.lineOf (s.perform b (.move m count)).1.1.editor.cursor = t.lineOf s.editor.cursor := by
  intro t hits after
  have outside : Mode.normal ≠ .insert := by decide
  have within : s.editor.cursor ≤ t.length - 1 := by
    rwa [Editor.maxCursor, ready.1, if_neg outside] at cursor
  refine ⟨?_, ?_, ?_, ?_⟩
  · intro k p there
    have reached : after k = _ := pressFind_found ready within visible b there
    constructor
    · rw [reached]
      rfl
    · intro some
      obtain ⟨first, nearest⟩ : ∃ first, hits[0]? = Option.some first :=
        ⟨_, List.getElem?_eq_getElem (Nat.zero_lt_of_lt (List.getElem?_eq_some_iff.mp there).1)⟩
      have begun : after 0 = _ := pressFind_found ready within visible b nearest
      have counted := perform_repeatFind_found ready within visible b nearest k
      rw [Nat.zero_add, Nat.add_sub_cancel' some, show (t.hits f s.editor.cursor)[k]? = _ from there]
        at counted
      rw [reached, begun, counted]
  · intro none
    have missed : after 0 = _ := pressFind_zero ready visible b
    rw [missed, perform_find ready within visible, show t.hits f s.editor.cursor = [] from none]
    rfl
  · intro k short
    have ended : after k = _ := pressFind_past ready within visible b short
    rw [ended]
    exact press_again_at_end ready within visible b
  · intro m count searches
    have moved := Workspace.move_of_searches (w := s.workspace b) ready.1 within searches count
    obtain ⟨f?, remembered⟩ := Workspace.rememberFind_eq s.editor m
    have done : (s.perform b (.move m count)).1.1.editor =
        ((s.workspace b).move m count).1.editor := rfl
    rw [done, moved, show Workspace.rememberFind (s.workspace b).editor m = _ from remembered]
    dsimp only
    split
    · rfl
    · rename_i q found
      obtain ⟨search, _, lands⟩ := Option.bind_eq_some_iff.mp found
      exact (Text.lineOf_find? lands).1

/-- Three occurrences, two of them side by side, and one more on the next line: the search stops one short of
each in turn, and then it stays. -/
theorem repeated_finds_enumerate_side_by_side :
    let t : Text := ['b', 'a', 'a', 'b', 'a', '\n', 'a']
    let s := ofText t .normal 0 100
    let f : Find := ⟨'a', true, true⟩
    s.Ready ∧ s.editor.cursor ≤ s.editor.maxCursor ∧ f.char ≠ '\n' ∧
      t.hits f s.editor.cursor = [1, 2, 4] ∧ (s.pressFind {} f 1).1.editor.cursor = 1 ∧
      (s.pressFind {} f 2).1.editor.cursor = 3 ∧
      ((s.pressFind {} f 0).1.perform (s.pressFind {} f 0).2 (.move .repeatFind 2)).1 =
        s.pressFind {} f 2 ∧
      (s.pressFind {} f 5).1.press (s.pressFind {} f 5).2 (.char ';') =
        (s.pressFind {} f 5, .performed (.move .repeatFind 1) .unchanged) := by
  intro t s f
  have ready : s.Ready := ⟨rfl, rfl⟩
  have cursor : s.editor.cursor ≤ s.editor.maxCursor := by decide
  have visible : f.char ≠ '\n' := by decide
  have hits : s.editor.text.hits f s.editor.cursor = [1, 2, 4] := by decide
  obtain ⟨finds, _, misses, _⟩ := repeated_finds_enumerate ready cursor visible {}
  rw [hits] at finds misses
  obtain ⟨second, _⟩ := finds 1 2 rfl
  obtain ⟨third, counted⟩ := finds 2 4 rfl
  have counted := counted (by decide)
  have missed := misses 5 (by decide)
  exact ⟨ready, cursor, visible, hits, second, third, counted, missed⟩

end Session

end ModalEdit
