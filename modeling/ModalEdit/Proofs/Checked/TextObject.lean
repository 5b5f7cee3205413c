import ModalEdit.Proofs.Checked.Scan

/-! Text objects. Quotes are looked up by their number on the line, brackets by a scan of the text,
and the runs of a word object by a scan of the line. -/
namespace ModalEdit.Checked

variable {t : Text}

/-! ### Quotes -/

/-- The quotes up to `i` are counted. The last of them opens a pair if the count is odd, and closes
one, with the quote before it, if the count is even. -/
def pairAround (quotes : List Nat) (i : Nat) : Option (Option (Nat × Nat)) :=
  let through := (quotes.takeWhile (· ≤ i)).length
  if through = 0 then some none
  else do
    let last ← sub through 1
    let o ← quotes[last]?
    if through % 2 = 1 then some (quotes[through]?.map (o, ·))
    else if o = i then do
      let opening ← sub through 2
      let o ← quotes[opening]?
      return some (o, i)
    else some none

def quotePair (t : Text) (q : Char) (i : Nat) : Option (Option (Nat × Nat)) := do
  let l ← lineOf t i
  let start ← lineStart t l
  let stop ← lineEnd t l
  if stop ≤ i then some none
  else pairAround (t.offsetsOf (· == q) (Span.between start stop)) i

theorem takeWhile_append_above {before after : List Nat} (upto : ∀ o ∈ before, o ≤ i)
    (above : ∀ o ∈ after.head?, i < o) :
    (before ++ after).takeWhile (· ≤ i) = before := by
  have all : ∀ o ∈ before, decide (o ≤ i) = true := by
    intro o member
    exact decide_eq_true (upto o member)
  have none : after.takeWhile (· ≤ i) = [] := by
    cases after with
    | nil => rfl
    | cons o after =>
      have : ¬o ≤ i := Nat.not_le_of_lt (above o rfl)
      simp [this]
  rw [List.takeWhile_append_of_pos all, none, List.append_nil]

/-- The last quote up to `i` opens a pair if the quotes ahead of it are paired. If they are not, it
closes a pair, but one that `i` is behind unless it is upon the quote. -/
theorem pairAround_last {ahead after : List Nat} (upto : ∀ o' ∈ ahead ++ [o], o' ≤ i)
    (above : ∀ o' ∈ after.head?, i < o') :
    pairAround (ahead ++ o :: after) i = some (if ahead.length % 2 = 0 then
      after.head?.map (o, ·) else if o = i then ahead.getLast?.map (·, i) else none) := by
  have through := takeWhile_append_above upto above
  rw [List.append_assoc, List.singleton_append] at through
  have there : (ahead ++ o :: after)[ahead.length]? = some o := by simp
  have next : (ahead ++ o :: after)[ahead.length + 1]? = after.head? := by
    rw [List.getElem?_append_right (Nat.le_add_right _ 1), Nat.add_sub_cancel_left,
      List.getElem?_cons_succ, List.head?_eq_getElem?]
  rw [pairAround, through]
  simp only [List.length_append, List.length_singleton, Nat.succ_ne_zero, if_false, succ_sub_one,
    Option.bind_eq_bind, Option.bind_some, there, next]
  rcases Nat.mod_two_eq_zero_or_one ahead.length with even | odd
  · have one : (ahead.length + 1) % 2 = 1 := by omega
    rw [if_pos one, if_pos even]
  · have two : (ahead.length + 1) % 2 ≠ 1 := by omega
    have unpaired : ahead.length % 2 ≠ 0 := by omega
    rw [if_neg two, if_neg unpaired]
    rcases List.eq_nil_or_concat ahead with rfl | ⟨front, opener, rfl⟩
    · cases odd
    · have opening : sub ((front.concat opener).length + 1) 2 = some front.length := by
        rw [sub_eq (by simp), List.length_concat]
        rfl
      rw [opening]
      split <;> simp

/-- The last of the quotes up to a place is not there. -/
theorem pairAround_between {before after : List Nat} (below : ∀ o ∈ before, o < i)
    (above : ∀ o ∈ after.head?, i < o) :
    pairAround (before ++ after) i = some (if before.length % 2 = 1 then
      before.getLast?.bind fun o => after.head?.map (o, ·) else none) := by
  rcases List.eq_nil_or_concat before with rfl | ⟨ahead, o, rfl⟩
  · have through : ([] ++ after).takeWhile (· ≤ i) = [] := takeWhile_append_above (by simp) above
    rw [pairAround, through]
    rfl
  · rw [List.concat_eq_append] at below ⊢
    have apart : o ≠ i := Nat.ne_of_lt (below o (by simp))
    have parity : (ahead ++ [o]).length % 2 = 1 ↔ ahead.length % 2 = 0 := by
      rw [List.length_append, List.length_singleton]
      omega
    rw [List.append_assoc, List.singleton_append,
      pairAround_last (fun o' member => Nat.le_of_lt (below o' member)) above, if_neg apart]
    simp only [parity, List.getLast?_concat, Option.bind_some]

/-- The last of the quotes up to a place is there. -/
theorem pairAround_upon {before after : List Nat} (below : ∀ o ∈ before, o < i)
    (above : ∀ o ∈ after.head?, i < o) :
    pairAround (before ++ i :: after) i = some (if before.length % 2 = 1 then
      before.getLast?.map (·, i) else after.head?.map (i, ·)) := by
  have upto : ∀ o ∈ before ++ [i], o ≤ i := by
    intro o member
    rcases List.mem_append.mp member with earlier | last
    · exact Nat.le_of_lt (below o earlier)
    · exact Nat.le_of_eq (List.mem_singleton.mp last)
  rw [pairAround_last upto above, if_pos rfl]
  rcases Nat.mod_two_eq_zero_or_one before.length with even | odd
  · simp [even]
  · simp [odd]

/-- Counting the quotes up to a place comes to looking at those below it and at the others. -/
theorem pairAround_eq {quotes : List Nat} (ascending : quotes.Pairwise (· < ·)) (i : Nat) :
    pairAround quotes i = some (if (quotes.filter (· < i)).length % 2 = 1 then
        (quotes.filter (· < i)).getLast?.bind fun o => (quotes.filter (i ≤ ·)).head?.map (o, ·)
      else
        match quotes.filter (i ≤ ·) with
        | o :: c :: _ => if o = i then some (o, c) else none
        | _ => none) := by
  have below : ∀ o ∈ quotes.filter (· < i), o < i := by
    intro o member
    simpa using (List.mem_filter.mp member).2
  have least : ∀ o ∈ quotes.filter (i ≤ ·), i ≤ o := by
    intro o member
    simpa using (List.mem_filter.mp member).2
  have after := ascending.filter (i ≤ ·)
  have parts := Text.filter_append_filter ascending i
  generalize quotes.filter (· < i) = before at below parts ⊢
  generalize quotes.filter (i ≤ ·) = rest at least after parts ⊢
  subst parts
  cases rest with
  | nil =>
    have none : ∀ o ∈ ([] : List Nat).head?, i < o := by simp
    rw [pairAround_between below none]
  | cons o rest =>
    rcases Nat.eq_or_lt_of_le (least o List.mem_cons_self) with rfl | later
    · have further : ∀ o' ∈ rest.head?, i < o' := by
        intro o' first
        exact (List.pairwise_cons.mp after).1 o' (List.mem_of_head? first)
      have paired : (before.getLast?.bind fun o => (i :: rest).head?.map (o, ·)) =
          before.getLast?.map (·, i) := by
        cases before.getLast? <;> rfl
      rw [pairAround_upon below further, paired]
      cases rest <;> simp
    · rw [pairAround_between below (by simpa using later)]
      have apart : o ≠ i := Nat.ne_of_gt later
      cases rest <;> simp [apart]

/-- Behind the end of the line no quote is left to close a pair. -/
@[simp] theorem quotePair_eq (t : Text) (q : Char) (i : Nat) :
    quotePair t q i = some (t.quotePair q i) := by
  simp only [quotePair, lineOf_eq, lineStart_eq, lineEnd_eq, Option.bind_eq_bind, Option.bind_some,
    Text.quotePair]
  split
  · rename_i beyond
    have none : (t.offsetsOf (· == q) (Span.between (t.lineStart (t.lineOf i))
        (t.lineEnd (t.lineOf i)))).filter (i ≤ ·) = [] := by
      rw [List.filter_eq_nil_iff]
      intro o member
      have bound := (Text.mem_offsetsOf.mp member).2.1
      rw [Span.between_of_le (t.lineStart_le_lineEnd _)] at bound
      simpa using Nat.lt_of_lt_of_le bound beyond
    rw [none]
    split <;> simp
  · exact pairAround_eq (t.offsetsOf_ascending _ _) i

/-! ### Brackets -/

def outerOpener (t : Text) (b : Bracket) : (n o : Nat) → Option (Option Nat)
  | 0, o => some (some o)
  | n + 1, o => do
    let outer? ← findOpener t b o
    match outer? with
    | none => some none
    | some outer => outerOpener t b n outer

/-- The pair whose opener is the `count`-th from the given one on. -/
def pairOutside (t : Text) (b : Bracket) (count innermost : Nat) : Option (Option (Nat × Nat)) := do
  let opener? ← outerOpener t b (count - 1) innermost
  match opener? with
  | none => some none
  | some o =>
    let closer? ← findCloser t b (o + 1)
    return closer?.map (o, ·)

def bracketPair (t : Text) (b : Bracket) (i count : Nat) : Option (Option (Nat × Nat)) :=
  if t[i]? = some b.opener then pairOutside t b count i
  else do
    let innermost? ← findOpener t b i
    match innermost? with
    | none => some none
    | some innermost => pairOutside t b count innermost

theorem outerOpener_eq (t : Text) (b : Bracket) (n o : Nat) :
    outerOpener t b n o = some (t.outerOpener b n o) := by
  induction n generalizing o with
  | zero => rfl
  | succ n ih =>
    rw [outerOpener, findOpener_eq, Option.bind_eq_bind, Option.bind_some, Text.outerOpener]
    cases t.findOpener b o with
    | none => rfl
    | some outer => exact ih outer

theorem pairOutside_eq (t : Text) (b : Bracket) (count innermost : Nat) :
    pairOutside t b count innermost = some ((t.outerOpener b (count - 1) innermost).bind fun o =>
      (t.findCloser b (o + 1)).bind fun c => some (o, c)) := by
  rw [pairOutside, outerOpener_eq, Option.bind_eq_bind, Option.bind_some]
  cases t.outerOpener b (count - 1) innermost with
  | none => rfl
  | some o =>
    simp only [findCloser_eq, Option.bind_some, Option.pure_def]
    cases t.findCloser b (o + 1) <;> rfl

@[simp] theorem bracketPair_eq (t : Text) (b : Bracket) (i count : Nat) :
    bracketPair t b i count = some (t.bracketPair b i count) := by
  rw [bracketPair, Text.bracketPair]
  split
  · exact pairOutside_eq t b count i
  · rw [findOpener_eq, Option.bind_eq_bind, Option.bind_some]
    cases t.findOpener b i with
    | none => rfl
    | some innermost => exact pairOutside_eq t b count innermost

/-! ### Words -/

/-- The run of the class at `i`, within the line from `lo` to `hi`. -/
def run (t : Text) (style : WordStyle) (lo hi i : Nat) : Option (Nat × Nat) := do
  let start ← backWhile (fun k => classAt t style k = classAt t style i) lo (i + 1) i
  let ahead := t.slice (Span.between i hi)
  return (start, i + (ahead.takeWhile (Text.inClass style (classAt t style i))).length)

/-- The object of the run from `start` to `stop` with the white space that follows, or else with
that which precedes. -/
def withBlanks (t : Text) (style : WordStyle) (lo hi start stop : Nat) : Option Span :=
  if stop < hi ∧ spaceAt t stop then do
    let blanks ← run t style lo hi stop
    return Span.between start blanks.2
  else if lo < start then do
    let before ← sub start 1
    if spaceAt t before then do
      let blanks ← run t style lo hi before
      return Span.between blanks.1 stop
    else some (Span.between start stop)
  else some (Span.between start stop)

/-- The object of the white space from `start` to `stop` with the word that follows. -/
def withWord (t : Text) (style : WordStyle) (lo hi start stop : Nat) : Option Span :=
  if stop < hi then do
    let word ← run t style lo hi stop
    return Span.between start word.2
  else some (Span.between start stop)

def wordSpan? (t : Text) (style : WordStyle) (i : Nat) (inner : Bool) : Option (Option Span) := do
  let l ← lineOf t i
  let lo ← lineStart t l
  let hi ← lineEnd t l
  if lo = hi then some none
  else do
    let last ← sub hi 1
    let (start, stop) ← run t style lo hi (min i last)
    if inner then some (some (Span.between start stop))
    else if spaceAt t (min i last) then (withWord t style lo hi start stop).map some
    else (withBlanks t style lo hi start stop).map some

theorem slice_line_from (h : k ≤ (t.line l).length) :
    t.slice (Span.between (t.lineStart l + k) (t.lineEnd l)) = (t.line l).drop k := by
  have inside : t.lineStart l + k ≤ t.lineEnd l := Nat.add_le_add_left h _
  have whole := t.slice_line l
  rw [Span.between_of_le (t.lineStart_le_lineEnd l), Text.slice, Span.length] at whole
  rw [← whole, List.drop_take, List.drop_drop, Span.between_of_le inside, Text.slice, Span.length,
    Nat.sub_add_eq]

theorem runStart_eq {row : Text} (there : row[k]? = some c) (style : WordStyle) :
    row.runStart style k =
      ((row.take k).reverse.dropWhile (Text.inClass style (CharClass.of style c))).length := by
  have inside := (List.getElem?_eq_some_iff.mp there).1
  have own : Text.inClass style (CharClass.of style c) c = true := by simp [Text.inClass]
  have parts := congrArg List.length (List.takeWhile_append_dropWhile
    (p := Text.inClass style (CharClass.of style c)) (l := (row.take k).reverse))
  rw [List.length_append, List.length_reverse, List.length_take_of_le (Nat.le_of_lt inside)] at parts
  rw [Text.runStart, take_succ_reverse there, Text.runLength, List.takeWhile_cons_of_pos own,
    List.length_cons]
  omega

theorem runStop_eq {row : Text} (there : row[k]? = some c) (style : WordStyle) :
    row.runStop style k =
      k + ((row.drop k).takeWhile (Text.inClass style (CharClass.of style c))).length := by
  obtain ⟨inside, rfl⟩ := List.getElem?_eq_some_iff.mp there
  rw [Text.runStop, List.drop_eq_getElem_cons inside, Text.runLength]

/-- A run on a line is a run of the line. -/
theorem run_eq (style : WordStyle) (h : k < (t.line l).length) :
    run t style (t.lineStart l) (t.lineEnd l) (t.lineStart l + k) =
      some (t.lineStart l + (t.line l).runStart style k, t.lineStart l + (t.line l).runStop style k) := by
  obtain ⟨c, there⟩ : ∃ c, (t.line l)[k]? = some c := ⟨_, List.getElem?_eq_getElem h⟩
  have upon : classAt t style (t.lineStart l + k) = CharClass.of style c :=
    classAt_eq ((Text.getElem?_line h).trans there)
  have length : ((t.line l).take k).length = k := List.length_take_of_le (Nat.le_of_lt h)
  have same : ∀ k' c', ((t.line l).take k)[k']? = some c' →
      decide (classAt t style (t.lineStart l + k') = classAt t style (t.lineStart l + k)) =
        Text.inClass style (CharClass.of style c) c' := by
    intro k' c' before
    have inside := (List.getElem?_eq_some_iff.mp before).1
    rw [List.getElem?_take_of_lt (by omega)] at before
    rw [upon, classAt_eq ((Text.getElem?_line (by omega)).trans before)]
    rfl
  have back : backWhile _ (t.lineStart l) (t.lineStart l + k + 1) _ = _ := backWhile_eq
    (p := fun k' => classAt t style k' = classAt t style (t.lineStart l + k)) same (by omega)
  rw [length] at back
  rw [run, back, Option.bind_eq_bind, Option.bind_some, slice_line_from (Nat.le_of_lt h), upon,
    runStart_eq there, runStop_eq there, ← Nat.add_assoc]
  rfl

theorem spaceAt_line (h : k < (t.line l).length) :
    spaceAt t (t.lineStart l + k) = (t.line l)[k]?.any isWhiteSpace := by
  rw [spaceAt, Text.getElem?_line h]

theorem withWord_eq (style : WordStyle) (start stop : Nat) :
    withWord t style (t.lineStart l) (t.lineEnd l) start (t.lineStart l + stop) =
      some (Span.between start (t.lineStart l + (t.line l).runStop style stop)) := by
  rw [withWord]
  split
  · rename_i further
    have inside : stop < (t.line l).length := Nat.lt_of_add_lt_add_left further
    rw [run_eq style inside]
    rfl
  · rename_i all
    have ended : (t.line l).drop stop = [] := by
      rw [List.drop_eq_nil_iff]
      exact Nat.le_of_not_lt fun inside => all (Nat.add_lt_add_left inside _)
    rw [Text.runStop, ended]
    rfl

theorem inClass_space (style : WordStyle) (h : isWhiteSpace c = true) :
    Text.inClass style (CharClass.of style c) = isWhiteSpace := by
  funext c'
  rw [(of_eq_space_iff style c).mpr h, Text.inClass, Bool.eq_iff_iff, decide_eq_true_iff,
    of_eq_space_iff]

/-- Back over the white space that precedes a run. -/
theorem runStart_space {row : Text} (there : row[k]? = some c) (space : isWhiteSpace c = true)
    (style : WordStyle) :
    row.runStart style k =
      k + 1 - ((row.take (k + 1)).reverse.takeWhile isWhiteSpace).length := by
  rw [Text.runStart, take_succ_reverse there, Text.runLength, inClass_space style space]

/-- White space follows a run only if the line goes on. -/
theorem space_follows_iff :
    (t.lineStart l + stop < t.lineEnd l ∧ spaceAt t (t.lineStart l + stop) = true) ↔
      (t.line l)[stop]?.any isWhiteSpace = true := by
  rw [Text.lineEnd, Nat.add_lt_add_iff_left, Text.lineLength]
  constructor
  · rintro ⟨inside, space⟩
    rwa [spaceAt_line inside] at space
  · intro space
    have inside : stop < (t.line l).length := by
      by_contra ended
      rw [List.getElem?_eq_none (Nat.le_of_not_lt ended)] at space
      cases space
    refine ⟨inside, ?_⟩
    rwa [spaceAt_line inside]

theorem withBlanks_eq (style : WordStyle) (h : start ≤ (t.line l).length) (stop : Nat) :
    withBlanks t style (t.lineStart l) (t.lineEnd l) (t.lineStart l + start) (t.lineStart l + stop) =
      some (if (t.line l)[stop]?.any isWhiteSpace then
        Span.between (t.lineStart l + start) (t.lineStart l + (t.line l).runStop style stop)
      else Span.between
        (t.lineStart l + (start - (((t.line l).take start).reverse.takeWhile isWhiteSpace).length))
        (t.lineStart l + stop)) := by
  rw [withBlanks]
  split
  · rename_i space
    have inside : stop < (t.line l).length := Nat.lt_of_add_lt_add_left space.1
    rw [run_eq style inside, if_pos (space_follows_iff.mp space)]
    rfl
  · rename_i other
    rw [if_neg (mt space_follows_iff.mpr other)]
    cases start with
    | zero => simp
    | succ before =>
      have inside : before < (t.line l).length := h
      obtain ⟨c, there⟩ : ∃ c, (t.line l)[before]? = some c := ⟨_, List.getElem?_eq_getElem inside⟩
      have later : t.lineStart l < t.lineStart l + (before + 1) := by omega
      rw [if_pos later, ← Nat.add_assoc, succ_sub_one, Option.bind_eq_bind, Option.bind_some,
        spaceAt_line inside, there, Option.any_some]
      split
      · rename_i space
        rw [run_eq style inside, runStart_space there space]
        rfl
      · rename_i word
        have none : ((t.line l).take (before + 1)).reverse.takeWhile isWhiteSpace = [] := by
          rw [take_succ_reverse there, List.takeWhile_cons_of_neg word]
        rw [none]
        rfl

/-- A place within the text is within its line, and its break stands for the last character. -/
theorem wordSpan?_eq (style : WordStyle) (inner : Bool) (h : i ≤ t.length) :
    wordSpan? t style i inner = some (t.wordSpan? style i inner) := by
  have bound := t.lineStart_lineOf_le i
  have column : t.column i = i - t.lineStart (t.lineOf i) := by
    rw [Text.column, Nat.min_eq_left h]
  rw [wordSpan?, Text.wordSpan?]
  simp only [lineOf_eq, lineStart_eq, lineEnd_eq, Option.bind_eq_bind, Option.bind_some, column]
  generalize t.lineOf i = l at bound ⊢
  have hi : t.lineEnd l = t.lineStart l + (t.line l).length := rfl
  cases row : (t.line l).isEmpty with
  | true =>
    rw [List.isEmpty_iff] at row
    simp [hi, row]
  | false =>
    have filled : 0 < (t.line l).length := by
      rw [List.length_pos_iff]
      exact List.isEmpty_eq_false_iff.mp row
    have ends : t.lineStart l ≠ t.lineEnd l := by omega
    have place : min i (t.lineEnd l - 1) =
        t.lineStart l + min (i - t.lineStart l) ((t.line l).length - 1) := by omega
    have inside : min (i - t.lineStart l) ((t.line l).length - 1) < (t.line l).length := by omega
    rw [if_neg ends, sub_eq (by omega), Option.bind_some, place]
    generalize min (i - t.lineStart l) ((t.line l).length - 1) = k at inside ⊢
    have start : (t.line l).runStart style k ≤ (t.line l).length := by
      rw [Text.runStart]
      omega
    rw [run_eq style inside]
    simp only [Option.bind_some, spaceAt_line inside, withWord_eq,
      withBlanks_eq style start, Option.map_some, Bool.false_eq_true, if_false,
      Text.wordColumns]
    cases inner with
    | true => rfl
    | false =>
      cases (t.line l)[k]?.any isWhiteSpace with
      | true => rfl
      | false =>
        cases (t.line l)[(t.line l).runStop style k]?.any isWhiteSpace with
        | true => rfl
        | false => rfl

open TextObject (delimited) in
def resolveObject (o : TextObject) (t : Text) (i count : Nat) : Option (Option Span) :=
  if t.length ≤ i then some none
  else
    match o.kind with
    | .quote q => do
      let pair? ← quotePair t q i
      return pair?.map (delimited o.inner)
    | .bracket b => do
      let pair? ← bracketPair t b i count
      return pair?.map (delimited o.inner)
    | .word style => wordSpan? t style i o.inner

/-- A text object is resolved without leaving a domain, at any place and with any count. -/
@[simp] theorem resolveObject_eq (o : TextObject) (t : Text) (i count : Nat) :
    resolveObject o t i count = some (o.resolve t i count) := by
  rw [resolveObject, TextObject.resolve]
  split
  · rfl
  · rename_i inside
    cases o.kind with
    | quote q =>
      dsimp only
      rw [quotePair_eq]
      rfl
    | bracket b =>
      dsimp only
      rw [bracketPair_eq]
      rfl
    | word style => exact wordSpan?_eq style o.inner (Nat.le_of_not_le inside)

end ModalEdit.Checked
