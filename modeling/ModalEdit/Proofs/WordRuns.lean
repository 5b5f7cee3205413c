import ModalEdit.Proofs.Checked.TextObject

/-! The runs of a line are the greatest ranges of it whose characters are of one class. They are apart from
each other and cover the line, and two runs side by side are of two classes. An inner word object is a run,
and the whole one is that run with the one beside it: with white space for a word, with a word for white
space. -/
namespace ModalEdit

/-- The offset is one of the range. -/
def Span.Holds (s : Span) (i : Nat) : Prop := s.start ≤ i ∧ i < s.stop

namespace Text

variable {t : Text} {style : WordStyle} {s s' : Span}

/-! ### Runs of a line -/

def classAt? (t : Text) (style : WordStyle) (i : Nat) : Option CharClass :=
  t[i]?.map (CharClass.of style)

/-- The range lies on line `l`, ahead of its break, and its characters are of one class. -/
structure Uniform (t : Text) (style : WordStyle) (l : Nat) (s : Span) : Prop where
  ahead : t.lineStart l ≤ s.start
  behind : s.stop ≤ t.lineEnd l
  alike : ∀ x y, s.Holds x → s.Holds y → t.classAt? style x = t.classAt? style y

/-- A range of one class that reaches as far as any other one with a place of it. -/
structure IsRun (t : Text) (style : WordStyle) (l : Nat) (s : Span) : Prop
    extends t.Uniform style l s where
  filled : s.start < s.stop
  greatest : ∀ s' x, t.Uniform style l s' → s.Holds x → s'.Holds x →
    s.start ≤ s'.start ∧ s'.stop ≤ s.stop

/-- A run of white space. -/
def IsGap (t : Text) (style : WordStyle) (l : Nat) (s : Span) : Prop :=
  t.IsRun style l s ∧ t.classAt? style s.start = some .space

/-- A run of another class than white space. -/
def IsWord (t : Text) (style : WordStyle) (l : Nat) (s : Span) : Prop :=
  t.IsRun style l s ∧ t.classAt? style s.start ≠ some .space

namespace IsRun

theorem holds_start (run : t.IsRun style l s) : s.Holds s.start := ⟨Nat.le_refl _, run.filled⟩

theorem eq_of_holds (run : t.IsRun style l s) (run' : t.IsRun style l s') (upon : s.Holds x)
    (upon' : s'.Holds x) : s = s' := by
  have within := run.greatest s' x run'.toUniform upon upon'
  have within' := run'.greatest s x run.toUniform upon' upon
  apply Span.eq_of_ends
  exact Prod.ext (Nat.le_antisymm within.1 within'.1) (Nat.le_antisymm within'.2 within.2)

theorem eq_or_apart (run : t.IsRun style l s) (run' : t.IsRun style l s') :
    s' = s ∨ s'.stop ≤ s.start ∨ s.stop ≤ s'.start := by
  by_cases before : s'.stop ≤ s.start
  · exact .inr (.inl before)
  by_cases after : s.stop ≤ s'.start
  · exact .inr (.inr after)
  left
  have filled := run.filled
  have filled' := run'.filled
  -- The later one of the two starts is a place of both.
  have upon : s.Holds (max s.start s'.start) := ⟨by omega, by omega⟩
  have upon' : s'.Holds (max s.start s'.start) := ⟨by omega, by omega⟩
  exact run'.eq_of_holds run upon' upon

/-- The run of the place behind a run starts there. -/
theorem start_eq_stop (run : t.IsRun style l s) (next : t.IsRun style l w) (upon : w.Holds s.stop) :
    w.start = s.stop := by
  have filled := run.filled
  rcases run.eq_or_apart next with rfl | before | after
  · exact absurd upon.2 (Nat.lt_irrefl _)
  · have := upon.2
    omega
  · exact Nat.le_antisymm upon.1 after

/-- The run of the place ahead of a run stops where that one starts. -/
theorem stop_eq_start (run : t.IsRun style l s) (last : t.IsRun style l w) (upon : w.Holds b)
    (ahead : b + 1 = s.start) : w.stop = s.start := by
  have filled := run.filled
  obtain ⟨start, stop⟩ := upon
  rcases run.eq_or_apart last with rfl | before | after
  · omega
  · omega
  · omega

/-- Runs side by side are of two classes, as they would be one if they were of the same. -/
theorem class_ne (run : t.IsRun style l s) (next : t.IsRun style l w) (beside : w.start = s.stop) :
    t.classAt? style w.start ≠ t.classAt? style s.start := by
  intro same
  have filled := run.filled
  have filled' := next.filled
  have ordered : s.start < w.stop := by omega
  have first : ∀ x, s.start ≤ x → x < w.stop → t.classAt? style x = t.classAt? style s.start := by
    intro x start stop
    by_cases own : x < s.stop
    · exact run.alike x s.start ⟨start, own⟩ run.holds_start
    · exact (next.alike x w.start ⟨by omega, stop⟩ next.holds_start).trans same
  have both : t.Uniform style l ⟨s.start, w.stop, Nat.le_of_lt ordered⟩ := by
    refine ⟨run.ahead, next.behind, ?_⟩
    intro x y upon upon'
    rw [first x upon.1 upon.2, first y upon'.1 upon'.2]
  have further := (run.greatest _ s.start both run.holds_start ⟨Nat.le_refl _, ordered⟩).2
  have : w.stop ≤ s.stop := further
  omega

/-- A range is a run if the line ends, or another class begins, on either side of it. -/
theorem of_edges (ahead : t.lineStart l ≤ s.start) (behind : s.stop ≤ t.lineEnd l)
    (filled : s.start < s.stop) (alike : ∀ x, s.Holds x → t.classAt? style x = some c)
    (first : ∀ b, t.lineStart l ≤ b → b + 1 = s.start → t.classAt? style b ≠ some c)
    (last : s.stop < t.lineEnd l → t.classAt? style s.stop ≠ some c) : t.IsRun style l s := by
  refine ⟨⟨ahead, behind, ?_⟩, filled, ?_⟩
  · intro x y upon upon'
    rw [alike x upon, alike y upon']
  · intro s' x uniform upon upon'
    obtain ⟨start, stop⟩ := upon
    obtain ⟨start', stop'⟩ := upon'
    have same : ∀ y, s'.Holds y → t.classAt? style y = some c := by
      intro y there
      rw [uniform.alike y x there ⟨start', stop'⟩, alike x ⟨start, stop⟩]
    have left := uniform.ahead
    have right := uniform.behind
    constructor
    · by_contra beyond
      exact first (s.start - 1) (by omega) (by omega) (same _ ⟨by omega, by omega⟩)
    · by_contra beyond
      exact last (by omega) (same _ ⟨by omega, by omega⟩)

end IsRun

/-! ### The run with its neighbour -/

/-- What a whole object takes around the run `s`. White space is taken with the word behind it, and a word with
the white space behind it, or else with that ahead of it. -/
inductive Around (t : Text) (style : WordStyle) (l : Nat) (s : Span) : Span → Prop where
  | gap_word (own : t.IsGap style l s) (word : t.IsWord style l w) (beside : w.start = s.stop) :
      Around t style l s (Span.between s.start w.stop)
  | gap_alone (own : t.IsGap style l s) (behind : ∀ w, t.IsWord style l w → w.start ≠ s.stop) :
      Around t style l s s
  | word_gap (own : t.IsWord style l s) (gap : t.IsGap style l w) (beside : w.start = s.stop) :
      Around t style l s (Span.between s.start w.stop)
  | gap_ahead (own : t.IsWord style l s) (behind : ∀ w, t.IsGap style l w → w.start ≠ s.stop)
      (gap : t.IsGap style l w) (beside : w.stop = s.start) :
      Around t style l s (Span.between w.start s.stop)
  | word_alone (own : t.IsWord style l s) (behind : ∀ w, t.IsGap style l w → w.start ≠ s.stop)
      (ahead : ∀ w, t.IsGap style l w → w.stop ≠ s.start) : Around t style l s s

/-- The whole object takes in the run, and stays on its line. -/
theorem Around.within (around : t.Around style l s a) :
    t.lineStart l ≤ a.start ∧ a.start ≤ s.start ∧ s.stop ≤ a.stop ∧ a.stop ≤ t.lineEnd l := by
  have alone (run : t.IsRun style l s) :
      t.lineStart l ≤ s.start ∧ s.start ≤ s.start ∧ s.stop ≤ s.stop ∧ s.stop ≤ t.lineEnd l :=
    ⟨run.ahead, Nat.le_refl _, Nat.le_refl _, run.behind⟩
  have ordered := s.start_le_stop
  cases around with
  | gap_alone own => exact alone own.1
  | word_alone own => exact alone own.1
  | @gap_word w own word beside =>
    have further := w.start_le_stop
    rw [Span.between_of_le (by omega)]
    exact ⟨own.1.ahead, Nat.le_refl _, beside ▸ further, word.1.behind⟩
  | @word_gap w own gap beside =>
    have further := w.start_le_stop
    rw [Span.between_of_le (by omega)]
    exact ⟨own.1.ahead, Nat.le_refl _, beside ▸ further, gap.1.behind⟩
  | @gap_ahead w own behind gap beside =>
    have earlier := w.start_le_stop
    rw [Span.between_of_le (by omega)]
    exact ⟨gap.1.ahead, beside ▸ earlier, Nat.le_refl _, own.1.behind⟩

/-! ### The run at a column -/

/-- What is taken from the front satisfies `p`, and what follows it does not. -/
theorem takeWhile_edges (p : Char → Bool) (row : Text) :
    (∀ x < (row.takeWhile p).length, ∃ c, row[x]? = some c ∧ p c = true) ∧
      ∀ c, row[(row.takeWhile p).length]? = some c → p c = false := by
  have parts := List.takeWhile_append_dropWhile (p := p) (l := row)
  constructor
  · intro x inside
    refine ⟨(row.takeWhile p)[x], ?_, List.mem_takeWhile_imp (List.getElem_mem inside)⟩
    have first : (row.takeWhile p ++ row.dropWhile p)[x]? = (row.takeWhile p)[x]? :=
      List.getElem?_append_left inside
    rw [parts, List.getElem?_eq_getElem inside] at first
    exact first
  · intro c next
    have rest : (row.takeWhile p ++ row.dropWhile p)[(row.takeWhile p).length]? =
        (row.dropWhile p).head? := by
      rw [List.getElem?_append_right (Nat.le_refl _), Nat.sub_self, List.head?_eq_getElem?]
    have stops := List.head?_dropWhile_not p row
    rw [← rest, parts, next] at stops
    exact stops

/-- A run at the front of a text has the class of the first character, and what follows it has not. -/
theorem runLength_edges (style : WordStyle) {row : Text} (there : row[0]? = some c) :
    0 < row.runLength style ∧
      (∀ x < row.runLength style, row.classAt? style x = some (CharClass.of style c)) ∧
      row.classAt? style (row.runLength style) ≠ some (CharClass.of style c) := by
  cases row with
  | nil => cases there
  | cons c' row =>
    obtain rfl : c' = c := Option.some.inj there
    obtain ⟨upon, beyond⟩ := takeWhile_edges (inClass style (CharClass.of style c')) (c' :: row)
    have own : inClass style (CharClass.of style c') c' = true := by simp [inClass]
    refine ⟨?_, ?_, ?_⟩
    · rw [runLength, List.takeWhile_cons_of_pos own]
      exact Nat.succ_pos _
    · intro x inside
      obtain ⟨c, found, same⟩ := upon x inside
      rw [classAt?, found]
      exact congrArg some (of_decide_eq_true same)
    · intro same
      obtain ⟨c, found, equal⟩ := Option.map_eq_some_iff.mp same
      have other := beyond c found
      rw [inClass, equal] at other
      simp at other

/-- From a column on, the run of its class reaches up to `runStop`. -/
theorem runStop_edges (style : WordStyle) {row : Text} (there : row[k]? = some c) :
    k < row.runStop style k ∧
      (∀ x, k ≤ x → x < row.runStop style k → row.classAt? style x = some (CharClass.of style c)) ∧
      row.classAt? style (row.runStop style k) ≠ some (CharClass.of style c) := by
  have front : (row.drop k)[0]? = some c := by rw [List.getElem?_drop, Nat.add_zero, there]
  obtain ⟨filled, upon, beyond⟩ := runLength_edges style front
  have ahead : ∀ x, classAt? (row.drop k) style x = row.classAt? style (k + x) := by
    intro x
    rw [classAt?, classAt?, List.getElem?_drop]
  rw [ahead] at beyond
  refine ⟨Nat.lt_add_of_pos_right filled, ?_, beyond⟩
  intro x from_here inside
  obtain ⟨d, rfl⟩ := Nat.exists_eq_add_of_le from_here
  rw [← ahead]
  exact upon d (Nat.lt_of_add_lt_add_left inside)

/-- Up to a column, the run of its class reaches back to `runStart`. -/
theorem runStart_edges (style : WordStyle) {row : Text} (there : row[k]? = some c) :
    row.runStart style k ≤ k ∧
      (∀ x, row.runStart style k ≤ x → x ≤ k → row.classAt? style x = some (CharClass.of style c)) ∧
      ∀ b, b + 1 = row.runStart style k → row.classAt? style b ≠ some (CharClass.of style c) := by
  have front : (row.take (k + 1)).reverse[0]? = some c := by
    rw [Checked.take_succ_reverse there, List.getElem?_cons_zero]
  obtain ⟨filled, upon, beyond⟩ := runLength_edges style front
  have inside := (List.getElem?_eq_some_iff.mp there).1
  have length : (row.take (k + 1)).length = k + 1 := List.length_take_of_le inside
  have back : ∀ x ≤ k, classAt? (row.take (k + 1)).reverse style x = row.classAt? style (k - x) := by
    intro x within
    have index : (row.take (k + 1)).length - 1 - x = k - x := by omega
    rw [classAt?, classAt?, List.getElem?_reverse (by omega), index,
      List.getElem?_take_of_lt (by omega)]
  unfold runStart
  refine ⟨by omega, ?_, ?_⟩
  · intro x from_start to_here
    have same := upon (k - x) (by omega)
    rwa [back _ (Nat.sub_le _ _), Nat.sub_sub_self to_here] at same
  · intro b ahead
    have place : k - runLength style (row.take (k + 1)).reverse = b := by omega
    rwa [back _ (by omega), place] at beyond

theorem classAt?_line (h : k < (t.line l).length) :
    t.classAt? style (t.lineStart l + k) = (t.line l).classAt? style k := by
  rw [classAt?, classAt?, getElem?_line h]

theorem classAt?_eq_space_iff (row : Text) (style : WordStyle) (k : Nat) :
    row.classAt? style k = some .space ↔ row[k]?.any isWhiteSpace = true := by
  rw [classAt?]
  cases row[k]? with
  | none => simp
  | some c => simp [Checked.of_eq_space_iff]

/-- The run at column `k` of line `l`. -/
def runAt (t : Text) (style : WordStyle) (l k : Nat) : Span :=
  Span.between (t.lineStart l + (t.line l).runStart style k) (t.lineStart l + (t.line l).runStop style k)

section

variable (style) {k l : Nat} (h : k < (t.line l).length)

include h

theorem runAt_ends :
    (t.runAt style l k).start = t.lineStart l + (t.line l).runStart style k ∧
      (t.runAt style l k).stop = t.lineStart l + (t.line l).runStop style k := by
  have there := List.getElem?_eq_getElem h
  have start := (runStart_edges style there).1
  have stop := (runStop_edges style there).1
  rw [runAt, Span.between_of_le (by omega)]
  exact ⟨rfl, rfl⟩

theorem runAt_holds : (t.runAt style l k).Holds (t.lineStart l + k) := by
  have there := List.getElem?_eq_getElem h
  obtain ⟨start, stop⟩ := runAt_ends style h
  rw [Span.Holds, start, stop]
  constructor
  · exact Nat.add_le_add_left (runStart_edges style there).1 _
  · exact Nat.add_lt_add_left (runStop_edges style there).1 _

theorem isRun_runAt : t.IsRun style l (t.runAt style l k) := by
  have there := List.getElem?_eq_getElem h
  obtain ⟨start, stop⟩ := runAt_ends style h
  obtain ⟨before, left, first⟩ := runStart_edges style there
  obtain ⟨after, right, last⟩ := runStop_edges style there
  have bound := (t.line l).runStop_le style (Nat.le_of_lt h)
  have ends : t.lineEnd l = t.lineStart l + (t.line l).length := rfl
  apply IsRun.of_edges (c := CharClass.of style (t.line l)[k])
  · omega
  · omega
  · omega
  · rintro x ⟨from_start, to_stop⟩
    obtain ⟨j, rfl⟩ : ∃ j, x = t.lineStart l + j := Nat.exists_eq_add_of_le (by omega)
    rw [classAt?_line (by omega)]
    rcases Nat.le_total j k with up | on
    · exact left j (by omega) up
    · exact right j on (by omega)
  · intro b on_line ahead
    obtain ⟨j, rfl⟩ := Nat.exists_eq_add_of_le on_line
    rw [classAt?_line (by omega)]
    exact first j (by omega)
  · intro further
    rw [stop, classAt?_line (by omega)]
    exact last

theorem classAt?_runAt :
    t.classAt? style (t.runAt style l k).start = (t.line l).classAt? style k := by
  have run := isRun_runAt style h
  rw [run.alike _ _ run.holds_start (runAt_holds style h), classAt?_line h]

theorem isGap_runAt (space : (t.line l)[k]?.any isWhiteSpace = true) :
    t.IsGap style l (t.runAt style l k) := by
  refine ⟨isRun_runAt style h, ?_⟩
  rw [classAt?_runAt style h, classAt?_eq_space_iff]
  exact space

theorem isWord_runAt (visible : ¬(t.line l)[k]?.any isWhiteSpace = true) :
    t.IsWord style l (t.runAt style l k) := by
  refine ⟨isRun_runAt style h, ?_⟩
  rw [Ne, classAt?_runAt style h, classAt?_eq_space_iff]
  exact visible

/-- The run behind the one at a column, if the line goes on. -/
theorem runAt_beside (further : (t.line l).runStop style k < (t.line l).length) :
    (t.runAt style l ((t.line l).runStop style k)).start = (t.runAt style l k).stop := by
  have upon := runAt_holds style further
  rw [← (runAt_ends style h).2] at upon
  exact (isRun_runAt style h).start_eq_stop (isRun_runAt style further) upon

/-- Where the line ends, or another class than white space begins, behind a run, there is no gap behind it. -/
theorem not_gap_behind
    (other : ¬(t.line l)[(t.line l).runStop style k]?.any isWhiteSpace = true) :
    ∀ w, t.IsGap style l w → w.start ≠ (t.runAt style l k).stop := by
  rintro w ⟨run, space⟩ beside
  have stop := (runAt_ends style h).2
  have filled := run.filled
  have behind := run.behind
  have ends : t.lineEnd l = t.lineStart l + (t.line l).length := rfl
  rw [beside, stop, classAt?_line (by omega), classAt?_eq_space_iff] at space
  exact other space

theorem not_gap_ahead
    (other : ∀ b, b + 1 = (t.line l).runStart style k → ¬(t.line l)[b]?.any isWhiteSpace = true) :
    ∀ w, t.IsGap style l w → w.stop ≠ (t.runAt style l k).start := by
  rintro w ⟨run, space⟩ beside
  have start := (runAt_ends style h).1
  have within := (runStart_edges style (List.getElem?_eq_getElem h)).1
  have filled := run.filled
  have ahead := run.ahead
  obtain ⟨b, before⟩ : ∃ b, b + 1 = (t.line l).runStart style k :=
    ⟨(t.line l).runStart style k - 1, by omega⟩
  have last : w.Holds (t.lineStart l + b) := ⟨by omega, by omega⟩
  rw [run.alike _ _ run.holds_start last, classAt?_line (by omega), classAt?_eq_space_iff] at space
  exact other b before space

theorem around_gap (space : (t.line l)[k]?.any isWhiteSpace = true) :
    t.Around style l (t.runAt style l k)
      (Span.between (t.lineStart l + (t.line l).runStart style k)
        (t.lineStart l + (t.line l).runStop style ((t.line l).runStop style k))) := by
  obtain ⟨start, stop⟩ := runAt_ends style h
  have own := isGap_runAt style h space
  rw [← start]
  by_cases further : (t.line l).runStop style k < (t.line l).length
  · have beside := runAt_beside style h further
    have word : t.IsWord style l (t.runAt style l ((t.line l).runStop style k)) := by
      refine ⟨isRun_runAt style further, fun same => ?_⟩
      exact own.1.class_ne (isRun_runAt style further) beside (same.trans own.2.symm)
    rw [← (runAt_ends style further).2]
    exact .gap_word own word beside
  · have ended : (t.line l).drop ((t.line l).runStop style k) = [] :=
      List.drop_eq_nil_of_le (Nat.le_of_not_lt further)
    have same : (t.line l).runStop style ((t.line l).runStop style k) = (t.line l).runStop style k := by
      rw [runStop, ended]
      rfl
    rw [same, ← stop, Span.between_of_le (t.runAt style l k).start_le_stop]
    refine .gap_alone own fun w word beside => ?_
    have filled := word.1.filled
    have behind := word.1.behind
    have ends : t.lineEnd l = t.lineStart l + (t.line l).length := rfl
    omega

theorem around_word_gap (visible : ¬(t.line l)[k]?.any isWhiteSpace = true)
    (space : (t.line l)[(t.line l).runStop style k]?.any isWhiteSpace = true) :
    t.Around style l (t.runAt style l k)
      (Span.between (t.lineStart l + (t.line l).runStart style k)
        (t.lineStart l + (t.line l).runStop style ((t.line l).runStop style k))) := by
  have further : (t.line l).runStop style k < (t.line l).length := by
    by_contra ended
    rw [List.getElem?_eq_none (Nat.le_of_not_lt ended)] at space
    cases space
  rw [← (runAt_ends style h).1, ← (runAt_ends style further).2]
  apply Around.word_gap
  · exact isWord_runAt style h visible
  · exact isGap_runAt style further space
  · exact runAt_beside style h further

theorem around_word (visible : ¬(t.line l)[k]?.any isWhiteSpace = true)
    (other : ¬(t.line l)[(t.line l).runStop style k]?.any isWhiteSpace = true) :
    t.Around style l (t.runAt style l k)
      (Span.between (t.lineStart l + ((t.line l).runStart style k -
          (((t.line l).take ((t.line l).runStart style k)).reverse.takeWhile isWhiteSpace).length))
        (t.lineStart l + (t.line l).runStop style k)) := by
  obtain ⟨start, stop⟩ := runAt_ends style h
  have own := isWord_runAt style h visible
  have behind := not_gap_behind style h other
  have within := (runStart_edges style (List.getElem?_eq_getElem h)).1
  have ordered := (t.runAt style l k).start_le_stop
  rw [← stop]
  cases first : (t.line l).runStart style k with
  | zero =>
    have ahead := not_gap_ahead style h fun b before => by omega
    rw [first, Nat.add_zero] at start
    rw [Nat.zero_sub, Nat.add_zero, ← start, Span.between_of_le ordered]
    exact .word_alone own behind ahead
  | succ b =>
    have inside : b < (t.line l).length := by omega
    have there := List.getElem?_eq_getElem inside
    by_cases space : isWhiteSpace (t.line l)[b] = true
    · have gap : t.IsGap style l (t.runAt style l b) := by
        apply isGap_runAt style inside
        rw [there]
        exact space
      rw [first] at start
      have beside := own.1.stop_eq_start gap.1 (runAt_holds style inside) start.symm
      rw [← Checked.runStart_space there space style, ← (runAt_ends style inside).1]
      exact .gap_ahead own behind gap beside
    · have ahead := not_gap_ahead style h fun b' before => by
        obtain rfl : b' = b := by omega
        rw [there]
        exact space
      have none : ((t.line l).take (b + 1)).reverse.takeWhile isWhiteSpace = [] := by
        rw [Checked.take_succ_reverse there, List.takeWhile_cons_of_neg space]
      rw [first] at start
      rw [none, List.length_nil, Nat.sub_zero, ← start, Span.between_of_le ordered]
      exact .word_alone own behind ahead

theorem around_wordColumns :
    t.Around style l (t.runAt style l k)
      (Span.between (t.lineStart l + ((t.line l).wordColumns style k false).1)
        (t.lineStart l + ((t.line l).wordColumns style k false).2)) := by
  by_cases own : (t.line l)[k]?.any isWhiteSpace = true
  · simp only [wordColumns, own, Bool.true_or, if_true, Bool.false_eq_true, if_false]
    exact around_gap style h own
  by_cases next : (t.line l)[(t.line l).runStop style k]?.any isWhiteSpace = true
  · simp only [wordColumns, next, Bool.or_true, if_true, Bool.false_eq_true, if_false]
    exact around_word_gap style h own next
  · simp only [wordColumns, own, next, Bool.or_self, Bool.false_eq_true, if_false]
    exact around_word style h own next

end

end Text

namespace TextObject

variable {t : Text} {style : WordStyle}

theorem resolve_word_of_empty (bare : t.lineStart (t.lineOf i) = t.lineEnd (t.lineOf i)) (inner : Bool) :
    resolve ⟨.word style, inner⟩ t i count = none := by
  have row : t.line (t.lineOf i) = [] := by
    rw [Text.lineEnd, Text.lineLength] at bare
    exact List.eq_nil_of_length_eq_zero (by omega)
  rw [resolve]
  split
  · rfl
  · simp [Text.wordSpan?, row]

/-- On a line that is not empty the objects are those at the column of the cursor, or at the last column if the
cursor is upon the break. -/
theorem resolve_word (style : WordStyle) (inside : i < t.length)
    (filled : t.lineStart (t.lineOf i) < t.lineEnd (t.lineOf i)) :
    ∃ k, k < (t.line (t.lineOf i)).length ∧
      t.lineStart (t.lineOf i) + k = min i (t.lineEnd (t.lineOf i) - 1) ∧
      ∀ inner count, resolve ⟨.word style, inner⟩ t i count =
        some (Span.between
          (t.lineStart (t.lineOf i) + ((t.line (t.lineOf i)).wordColumns style k inner).1)
          (t.lineStart (t.lineOf i) + ((t.line (t.lineOf i)).wordColumns style k inner).2)) := by
  have start := t.lineStart_lineOf_le i
  have ends : t.lineEnd (t.lineOf i) = t.lineStart (t.lineOf i) + (t.line (t.lineOf i)).length := rfl
  have column : t.column i = i - t.lineStart (t.lineOf i) := by
    rw [Text.column, Nat.min_eq_left (Nat.le_of_lt inside)]
  have row : ¬(t.line (t.lineOf i)).isEmpty = true := by
    rw [List.isEmpty_iff_length_eq_zero]
    omega
  refine ⟨min (t.column i) ((t.line (t.lineOf i)).length - 1), by omega, by omega, ?_⟩
  intro inner count
  rw [resolve, if_neg (Nat.not_le_of_lt inside)]
  dsimp only
  rw [Text.wordSpan?]
  dsimp only
  rw [if_neg row]

/-- The inner object is the run that holds the character. -/
theorem exists_inner_run (style : WordStyle) (inside : i < t.length)
    (filled : t.lineStart (t.lineOf i) < t.lineEnd (t.lineOf i)) (count : Nat) :
    ∃ s, resolve ⟨.word style, true⟩ t i count = some s ∧ t.IsRun style (t.lineOf i) s ∧
      s.Holds (min i (t.lineEnd (t.lineOf i) - 1)) := by
  obtain ⟨k, within, place, found⟩ := resolve_word style inside filled
  refine ⟨t.runAt style (t.lineOf i) k, found true count, Text.isRun_runAt style within, ?_⟩
  rw [← place]
  exact Text.runAt_holds style within

/-- A word object without its surroundings is the run of one class that its place is in, so the objects of a
line are equal or apart and cover the line. The whole object is that run with a neighbour. There is none on an
empty line. -/
theorem word_object_is_maximal_run (t : Text) (style : WordStyle) (count : Nat) (inside : i < t.length) :
    let l := t.lineOf i
    let inner := fun j => resolve ⟨.word style, true⟩ t j count
    let whole := fun j => resolve ⟨.word style, false⟩ t j count
    (t.lineStart l = t.lineEnd l → inner i = none ∧ whole i = none) ∧
    (t.lineStart l < t.lineEnd l →
      (∃ s a, inner i = some s ∧ whole i = some a ∧
        t.IsRun style l s ∧ s.Holds (min i (t.lineEnd l - 1)) ∧
        t.Around style l s a ∧
        t.lineStart l ≤ a.start ∧ a.start ≤ s.start ∧ s.stop ≤ a.stop ∧ a.stop ≤ t.lineEnd l) ∧
      (∀ j < t.length, t.lineOf j = l → ∃ s s', inner i = some s ∧ inner j = some s' ∧
        (s' = s ∨ s'.stop ≤ s.start ∨ s.stop ≤ s'.start)) ∧
      ∀ x, t.lineStart l ≤ x → x < t.lineEnd l → ∃ s, inner x = some s ∧ s.Holds x) := by
  intro l inner whole
  constructor
  · intro bare
    exact ⟨resolve_word_of_empty bare true, resolve_word_of_empty bare false⟩
  intro filled
  refine ⟨?_, ?_, ?_⟩
  · obtain ⟨k, within, place, found⟩ := resolve_word style inside filled
    have around := Text.around_wordColumns style within
    have upon := Text.runAt_holds style within
    rw [place] at upon
    exact ⟨_, _, found true count, found false count, Text.isRun_runAt style within, upon, around,
      around.within⟩
  · intro j inside' same
    obtain ⟨s, found, run, _⟩ := exists_inner_run style inside filled count
    have filled' : t.lineStart (t.lineOf j) < t.lineEnd (t.lineOf j) := same ▸ filled
    obtain ⟨s', found', run', _⟩ := exists_inner_run style inside' filled' count
    rw [same] at run'
    exact ⟨s, s', found, found', run.eq_or_apart run'⟩
  · intro x start stop
    have same : t.lineOf x = l := Text.lineOf_eq (t.lineOf_le_lastLine i) start (Nat.le_of_lt stop)
    have inside' : x < t.length := Nat.lt_of_lt_of_le stop (t.lineEnd_le_length l)
    obtain ⟨s, found, _, upon⟩ := exists_inner_run style inside' (same ▸ filled) count
    rw [same, Nat.min_eq_left (by omega)] at upon
    exact ⟨s, found, upon⟩

/-- A cursor upon the break stands for the last word, which is taken with the gap ahead of it. -/
theorem word_object_upon_break :
    let t : Text := ['a', 'b', ' ', ' ', 'c', '\n']
    5 < t.length ∧ t.lineStart (t.lineOf 5) < t.lineEnd (t.lineOf 5) ∧
      resolve ⟨.word .word, true⟩ t 5 1 = some ⟨4, 5, by decide⟩ ∧
      resolve ⟨.word .word, false⟩ t 5 1 = some ⟨2, 5, by decide⟩ ∧
      t.IsRun .word 0 ⟨4, 5, by decide⟩ ∧
      t.Around .word 0 ⟨4, 5, by decide⟩ ⟨2, 5, by decide⟩ := by
  intro t
  have inside : 5 < t.length := by decide
  have filled : t.lineStart (t.lineOf 5) < t.lineEnd (t.lineOf 5) := by decide
  have inner : resolve ⟨.word .word, true⟩ t 5 1 = some ⟨4, 5, by decide⟩ := by decide
  have whole : resolve ⟨.word .word, false⟩ t 5 1 = some ⟨2, 5, by decide⟩ := by decide
  obtain ⟨s, a, found, found', run, _, around, _⟩ :=
    ((word_object_is_maximal_run t .word 1 inside).2 filled).1
  obtain rfl := Option.some.inj (inner.symm.trans found)
  obtain rfl := Option.some.inj (whole.symm.trans found')
  exact ⟨inside, filled, inner, whole, run, around⟩

end TextObject

end ModalEdit
