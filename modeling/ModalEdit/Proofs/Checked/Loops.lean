import ModalEdit.Motion.Primitive
import ModalEdit.Proofs.Checked.Motion

/-! Walks and searches that go from one place to the next. Each is a loop with a number of steps that it
has no result beyond. A step forward must not begin at the end of the text, a step back not at the front,
and what is added to an offset must not lead beyond the largest one. -/
namespace ModalEdit.Stepwise

open Checked (sub sub_eq classAt spaceAt)

variable {t : Text}

/-- The largest number that an offset can be. -/
def largest : Nat := UInt64.size - 1

/-- A sum that must not go beyond the largest number. -/
def add (a b : Nat) : Option Nat := if a + b ≤ largest then some (a + b) else none

/-- The place behind `i`, for a loop that must not leave the text. -/
def ahead (t : Text) (i : Nat) : Option Nat := if i < t.length then some (i + 1) else none

/-- The place before `i`, for a loop that must keep below a bound. -/
def back (bound i : Nat) : Option Nat := do
  let before ← sub i 1
  if before < bound then some before else none

theorem add_eq (h : a + b ≤ largest) : add a b = some (a + b) := if_pos h

theorem ahead_eq (h : i < t.length) : ahead t i = some (i + 1) := if_pos h

theorem back_succ (bound i : Nat) : back bound (i + 1) = if i < bound then some i else none := by
  rw [back, Checked.succ_sub_one]
  rfl

/-! ### Words -/

/-- Goes forward as long as `goes` says so of the place that it is at. -/
def aheadWhile (t : Text) (goes : Nat → Bool) : (steps i : Nat) → Option Nat
  | 0, _ => none
  | steps + 1, i =>
    if goes i then do
      let next ← ahead t i
      aheadWhile t goes steps next
    else some i

/-- Over white space, but not over an empty line. -/
def aheadOverGap (t : Text) : (steps i : Nat) → Option Nat
  | 0, _ => none
  | steps + 1, i =>
    if t.length ≤ i then some i
    else if t[i]? = some '\n' ∧ t[i + 1]? = some '\n' then some (i + 1)
    else if spaceAt t i then do
      let next ← ahead t i
      aheadOverGap t steps next
    else some i

def inClass (t : Text) (style : WordStyle) (k : CharClass) (i : Nat) : Bool :=
  i < t.length && classAt t style i = k

def inSpace (t : Text) (i : Nat) : Bool := i < t.length && spaceAt t i

def wordForward (t : Text) (style : WordStyle) (i : Nat) : Option Nat :=
  if t.length ≤ i then some t.length
  else do
    let own := classAt t style i
    let stop ← if own = .space then some i else aheadWhile t (inClass t style own) (t.length + 1) i
    aheadOverGap t (t.length + 1) stop

def wordEnd (t : Text) (style : WordStyle) (i : Nat) : Option Nat :=
  if t.length = 0 then some 0
  else do
    let next ← add i 1
    let word ← aheadWhile t (inSpace t) (t.length + 1) next
    if t.length ≤ word then sub t.length 1
    else
      let own := classAt t style word
      aheadWhile t (fun k => inClass t style own (k + 1)) (t.length + 1) word

/-- A walk that looks at the place `d` behind the one that it is at. -/
theorem aheadWhile_eq {goes : Nat → Bool} {q : Char → Bool}
    (same : ∀ k, goes k = t[k + d]?.any q) (inside : i + d ≤ t.length)
    (room : t.length < i + d + steps) :
    aheadWhile t goes steps i = some (t.length - ((t.drop (i + d)).dropWhile q).length - d) := by
  induction steps generalizing i with
  | zero => omega
  | succ steps ih =>
    rw [aheadWhile, same]
    rcases Nat.eq_or_lt_of_le inside with last | before
    · rw [last, List.getElem?_eq_none (Nat.le_refl _), List.drop_length]
      simp [Nat.eq_sub_of_add_eq last]
    · have there := List.getElem?_eq_getElem before
      rw [there, List.drop_eq_getElem_cons before]
      by_cases more : q t[i + d] = true
      · have further := ih (i := i + 1) (by omega) (by omega)
        have place : i + 1 + d = i + d + 1 := by omega
        rw [List.dropWhile_cons_of_pos more, ← place, ← further]
        simp [more, ahead_eq (show i < t.length by omega)]
      · rw [List.dropWhile_cons_of_neg more, List.length_cons, List.length_drop]
        simp [more]
        omega

theorem aheadOverGap_eq (inside : i ≤ t.length) (room : t.length < i + steps) :
    aheadOverGap t steps i = some (t.length - (Text.dropGap (t.drop i)).length) := by
  induction steps generalizing i with
  | zero => omega
  | succ steps ih =>
    rw [aheadOverGap]
    split
    · rename_i past
      rw [Nat.le_antisymm inside past, List.drop_length]
      rfl
    · rename_i before
      have before := Nat.lt_of_not_le before
      have there := List.getElem?_eq_getElem before
      have rest : (t.drop (i + 1)).length = t.length - (i + 1) := List.length_drop
      have next : (t.drop (i + 1)).head? = t[i + 1]? := List.head?_drop
      simp only [List.drop_eq_getElem_cons before, Text.dropGap, next, there, Option.some.injEq,
        Checked.spaceAt_eq there]
      split
      · rw [rest]
        congr 1
        omega
      · split
        · rw [ahead_eq before, Option.bind_eq_bind, Option.bind_some, ih before (by omega)]
        · rw [List.length_cons, rest]
          congr 1
          omega

theorem inClass_eq (t : Text) (style : WordStyle) (k : CharClass) (i : Nat) :
    inClass t style k i = t[i]?.any (Text.inClass style k) := by
  rw [inClass]
  rcases Nat.lt_or_ge i t.length with inside | past
  · have there := List.getElem?_eq_getElem inside
    simp [inside, Checked.classAt_eq there, Text.inClass]
  · simp [Nat.not_lt_of_le past]

theorem inSpace_eq (t : Text) (i : Nat) : inSpace t i = t[i]?.any isWhiteSpace := by
  rw [inSpace]
  rcases Nat.lt_or_ge i t.length with inside | past
  · simp [inside, spaceAt]
  · simp [Nat.not_lt_of_le past]

/-- What a walk leaves of a text is the text from the place on that the walk ends at. -/
theorem drop_walk (t : Text) (q : Char → Bool) (i : Nat) :
    t.drop (t.length - ((t.drop i).dropWhile q).length) = (t.drop i).dropWhile q := by
  have suffix := (List.dropWhile_suffix (l := t.drop i) q).trans (List.drop_suffix i t)
  exact (List.suffix_iff_eq_drop.mp suffix).symm

/-- From a place in a word to the last place of the word. -/
theorem aheadInWord_eq (here : t.drop i = c :: rest) :
    aheadWhile t (fun k => inClass t style (classAt t style i) (k + 1)) (t.length + 1) i =
      some (t.length - (rest.dropWhile (Text.inClass style (CharClass.of style c))).length - 1) := by
  have there : t[i]? = some c := by
    rw [← List.head?_drop, here]
    rfl
  obtain ⟨inside, _⟩ := List.getElem?_eq_some_iff.mp there
  have tail : t.drop (i + 1) = rest := by
    rw [← List.drop_drop, here]
    rfl
  rw [Checked.classAt_eq there, aheadWhile_eq
    (fun k => inClass_eq t style (CharClass.of style c) (k + 1)) inside (by omega), tail]

theorem wordForward_eq (t : Text) (style : WordStyle) (i : Nat) :
    wordForward t style i = some (t.wordForward style i) := by
  rw [wordForward]
  split
  · rename_i past
    rw [Text.wordForward, List.drop_of_length_le past]
    rfl
  · rename_i before
    have before := Nat.lt_of_not_le before
    have there := List.getElem?_eq_getElem before
    have rest := List.drop_eq_getElem_cons before
    simp only [Checked.classAt_eq there, Text.wordForward, rest, Text.dropWord]
    split
    · rename_i space
      rw [if_pos ((Checked.of_eq_space_iff style t[i]).mp space), ← rest, Option.bind_eq_bind,
        Option.bind_some, aheadOverGap_eq (Nat.le_of_lt before) (by omega)]
    · rename_i visible
      have own : Text.inClass style (CharClass.of style t[i]) t[i] = true := decide_eq_true rfl
      have walk := aheadWhile_eq (d := 0) (inClass_eq t style (CharClass.of style t[i]))
        (Nat.le_of_lt before) (show t.length < i + 0 + (t.length + 1) by omega)
      simp only [Nat.add_zero, Nat.sub_zero, rest, List.dropWhile_cons_of_pos own] at walk
      rw [if_neg (mt (Checked.of_eq_space_iff style t[i]).mpr visible), walk, Option.bind_eq_bind,
        Option.bind_some, aheadOverGap_eq (Nat.sub_le _ _) (by omega), drop_walk]

theorem wordEnd_eq (t : Text) (style : WordStyle) (room : i + 1 ≤ largest) :
    wordEnd t style i = some (t.wordEnd style i) := by
  rw [wordEnd]
  split
  · rename_i nothing
    rw [List.length_eq_zero_iff.mp nothing, Text.wordEnd]
    simp
  · rename_i visible
    rw [add_eq room, Option.bind_eq_bind, Option.bind_some, Text.wordEnd]
    rcases Nat.lt_or_ge t.length (i + 1) with past | inside
    · have stays : aheadWhile t (inSpace t) (t.length + 1) (i + 1) = some (i + 1) := by
        rw [aheadWhile, inSpace_eq, List.getElem?_eq_none (Nat.le_of_lt past)]
        rfl
      rw [stays, Option.bind_some, if_pos (Nat.le_of_lt past), sub_eq (Nat.pos_of_ne_zero visible),
        List.drop_of_length_le (Nat.le_of_lt past), List.dropWhile_nil]
    · have gap := aheadWhile_eq (d := 0) (inSpace_eq t) inside
        (show t.length < i + 1 + 0 + (t.length + 1) by omega)
      have place := drop_walk t isWhiteSpace (i + 1)
      rw [Nat.add_zero, Nat.sub_zero] at gap
      rw [gap, Option.bind_some]
      cases word : (t.drop (i + 1)).dropWhile isWhiteSpace with
      | nil => rw [List.length_nil, Nat.sub_zero, if_pos (Nat.le_refl _),
          sub_eq (Nat.pos_of_ne_zero visible)]
      | cons c rest =>
        rw [word] at place
        have before : t.length - (c :: rest).length < t.length :=
          Nat.sub_lt (Nat.pos_of_ne_zero visible) (Nat.succ_pos _)
        rw [if_neg (Nat.not_le_of_lt before), aheadInWord_eq place]

/-! ### Brackets and characters -/

/-- What a character is to a search that has `n` more of its goals to pass: the end of it, or a number of
goals to pass from there on. What nests has to be matched by a goal of its own. -/
def tally (goal nest : Char) (n : Nat) (c? : Option Char) : Option (Option Nat) :=
  if c? = some goal then if n = 0 then some none else (sub n 1).map some
  else some (some (if c? = some nest then n + 1 else n))

/-- A search through the places from `i` on that are ahead of `stop`. -/
def seekAhead (t : Text) (goal nest : Char) (stop : Nat) : (steps i n : Nat) → Option (Option Nat)
  | 0, _, _ => none
  | steps + 1, i, n =>
    if i < stop then do
      match ← tally goal nest n t[i]? with
      | none => some (some i)
      | some n =>
        let next ← ahead t i
        seekAhead t goal nest stop steps next n
    else some none

/-- A search back through the places before `i` that are not ahead of `start`. -/
def seekBack (t : Text) (goal nest : Char) (bound start : Nat) :
    (steps i n : Nat) → Option (Option Nat)
  | 0, _, _ => none
  | steps + 1, i, n =>
    if start < i then do
      let before ← back bound i
      match ← tally goal nest n t[before]? with
      | none => some (some before)
      | some n => seekBack t goal nest bound start steps before n
    else some none

def findCloser (t : Text) (b : Bracket) (i : Nat) : Option (Option Nat) :=
  seekAhead t b.closer b.opener t.length (t.length + 1) i 0

def findOpener (t : Text) (b : Bracket) (i : Nat) : Option (Option Nat) :=
  seekBack t b.opener b.closer t.length 0 (t.length + 1) (min i t.length) 0

def matchPair (t : Text) (i : Nat) : Option (Option Nat) :=
  match t[i]?.bind (Bracket.find? Bracket.jumpPairs) with
  | none => some none
  | some (b, .opening) => do
    let next ← add i 1
    findCloser t b next
  | some (b, .closing) => findOpener t b i

/-- Where a search along the line stops: upon what it has found, or one short of it. -/
def stopAt (f : Find) : Option Nat → Option (Option Nat)
  | none => some none
  | some hit =>
    if !f.till then some (some hit)
    else if f.forward then (sub hit 1).map some
    else (add hit 1).map some

/-- Nothing nests in a search for a character on its line. -/
def find? (t : Text) (bound : Nat) (f : Find) (i count : Nat) (again : Bool) :
    Option (Option Nat) := do
  let l ← Checked.lineOf t i
  let start ← Checked.lineStart t l
  let stop ← Checked.lineEnd t l
  let n ← sub (max count 1) 1
  let skip := if f.till && again then 1 else 0
  let hit? ←
    if f.forward then do
      let next ← add i 1
      let first ← add next skip
      seekAhead t f.char f.char stop (t.length + 1) first n
    else seekBack t f.char f.char bound start (i + 1) (i - skip) n
  stopAt f hit?

/-- A place told by its distance ahead, from the next place and from this one. -/
theorem map_succ_ahead (i : Nat) (d? : Option Nat) :
    (d?.map (· + 1)).map (i + ·) = d?.map (i + 1 + ·) := by
  rw [Option.map_map]
  exact congrArg d?.map (funext fun d => (Nat.add_right_comm i 1 d).symm)

/-- The same for a distance back, where the place itself is the end of what is read. -/
theorem map_succ_back (i : Nat) (d? : Option Nat) :
    (d?.map (· + 1)).map (fun d => i + 1 - 1 - d) = d?.map fun d => i - 1 - d := by
  rw [Option.map_map]
  refine congrArg d?.map (funext fun d => ?_)
  simp only [Function.comp_apply]
  omega

theorem tally_cases (goal nest : Char) (n : Nat) (c : Char) :
    (tally goal nest n (some c) = some none ∧
        ∀ rest, Text.unmatched goal nest n (c :: rest) = some 0) ∨
      ∃ n', tally goal nest n (some c) = some (some n') ∧
        ∀ rest, Text.unmatched goal nest n (c :: rest) =
          (Text.unmatched goal nest n' rest).map (· + 1) := by
  by_cases reached : c = goal
  · cases n with
    | zero => exact .inl ⟨by simp [tally, reached], fun rest => by simp [Text.unmatched, reached]⟩
    | succ n =>
      exact .inr ⟨n, by simp [tally, reached], fun rest => by simp [Text.unmatched, reached]⟩
  · by_cases opens : c = nest
    · refine .inr ⟨n + 1, ?_, fun rest => ?_⟩
      · rw [tally, if_neg (by simpa using reached), if_pos (congrArg some opens)]
      · simp only [Text.unmatched, if_neg reached, if_pos opens]
    · refine .inr ⟨n, ?_, fun rest => ?_⟩
      · rw [tally, if_neg (by simpa using reached), if_neg (by simpa using opens)]
      · simp only [Text.unmatched, if_neg reached, if_neg opens]

theorem seekAhead_eq (inside : stop ≤ t.length) (room : stop - i < steps) :
    seekAhead t goal nest stop steps i n =
      some ((Text.unmatched goal nest n ((t.take stop).drop i)).map (i + ·)) := by
  have length : (t.take stop).length = stop := List.length_take_of_le inside
  induction steps generalizing i n with
  | zero => cases room
  | succ steps ih =>
    rw [seekAhead]
    split
    · rename_i before
      have there := List.getElem?_eq_getElem (Nat.lt_of_lt_of_le before inside)
      have first : (t.take stop).drop i = t[i] :: (t.take stop).drop (i + 1) := by
        rw [List.drop_eq_getElem_cons (by omega), List.getElem_take]
      rw [first, there]
      rcases tally_cases goal nest n t[i] with ⟨stops, found⟩ | ⟨n', goes, rest⟩
      · simp [stops, found]
      · have further := ih (i := i + 1) (n := n') (by omega)
        simp only [rest, goes, ahead_eq (Nat.lt_of_lt_of_le before inside), further,
          Option.bind_eq_bind, Option.bind_some, map_succ_ahead]
    · rename_i past
      rw [List.drop_of_length_le (by omega)]
      rfl

theorem seekBack_eq (inside : i ≤ bound) (room : i < steps) :
    seekBack t goal nest bound start steps i n =
      some ((Text.unmatched goal nest n ((t.take i).drop start).reverse).map
        fun d => min i t.length - 1 - d) := by
  induction steps generalizing i n with
  | zero => cases room
  | succ steps ih =>
    rw [seekBack]
    split
    · rename_i later
      obtain ⟨before, rfl⟩ := Nat.exists_eq_add_one_of_ne_zero (Nat.ne_zero_of_lt later)
      have further (n : Nat) := ih (i := before) (n := n) (Nat.le_of_succ_le inside)
        (Nat.lt_of_succ_lt_succ room)
      have step : back bound (before + 1) = some before := by
        rw [back_succ, if_pos (Nat.lt_of_succ_le inside)]
      rw [step, Option.bind_eq_bind, Option.bind_some]
      rcases Nat.lt_or_ge before t.length with there | past
      · have place : min (before + 1) t.length = before + 1 := Nat.min_eq_left there
        have place' : min before t.length = before := Nat.min_eq_left (Nat.le_of_lt there)
        have last : ((t.take (before + 1)).drop start).reverse =
            t[before] :: ((t.take before).drop start).reverse := by
          have length : (t.take before).length = before := List.length_take_of_le (Nat.le_of_lt there)
          rw [List.take_add_one, List.getElem?_eq_getElem there, Option.toList_some,
            List.drop_append_of_le_length (by omega), List.reverse_append]
          rfl
        rw [last, List.getElem?_eq_getElem there]
        rcases tally_cases goal nest n t[before] with ⟨stops, found⟩ | ⟨n', goes, rest⟩
        · simp [stops, found, place]
        · simp only [rest, goes, further, place, place', Option.bind_eq_bind, Option.bind_some,
            map_succ_back]
      · -- a place behind the end leaves the search as it is
        have same : t.take (before + 1) = t.take before := by
          rw [List.take_of_length_le past, List.take_of_length_le (Nat.le_succ_of_le past)]
        have place : min (before + 1) t.length = min before t.length := by omega
        have none : tally goal nest n none = some (some n) := rfl
        simp only [List.getElem?_eq_none past, none, further, same, place, Option.bind_eq_bind,
          Option.bind_some]
    · rename_i front
      have nothing : ((t.take i).drop start) = [] := by
        rw [List.drop_eq_nil_iff]
        exact Nat.le_trans (List.length_take_le _ _) (Nat.le_of_not_lt front)
      rw [nothing]
      rfl

/-- A search that begins beyond its bound leaves it at the first step. -/
theorem seekBack_of_lt (past : bound < i) (within : start ≤ bound) :
    seekBack t goal nest bound start (steps + 1) i n = none := by
  obtain ⟨before, rfl⟩ := Nat.exists_eq_add_one_of_ne_zero (Nat.ne_zero_of_lt past)
  rw [seekBack, if_pos (by omega), back_succ, if_neg (by omega)]
  rfl

theorem findCloser_eq (t : Text) (b : Bracket) (i : Nat) :
    findCloser t b i = some (t.findCloser b i) := by
  rw [findCloser, seekAhead_eq (Nat.le_refl _) (by omega), List.take_length]
  rfl

theorem findOpener_eq (t : Text) (b : Bracket) (i : Nat) :
    findOpener t b i = some (t.findOpener b i) := by
  have place : min (min i t.length) t.length = min i t.length := by omega
  rw [findOpener, seekBack_eq (Nat.min_le_right _ _) (by omega), Checked.take_min, place]
  rfl

theorem matchPair_eq (t : Text) (room : i + 1 ≤ largest) :
    matchPair t i = some (t.matchPair i) := by
  rw [matchPair, Text.matchPair]
  cases t[i]? with
  | none => rfl
  | some c =>
    simp only [Option.bind_some, Option.bind_eq_bind]
    cases Bracket.find? Bracket.jumpPairs c with
    | none => rfl
    | some found =>
      obtain ⟨b, side⟩ := found
      cases side with
      | opening =>
        simp only [add_eq room, Option.bind_some]
        exact findCloser_eq t b (i + 1)
      | closing => exact findOpener_eq t b i

/-! ### Characters of a line -/

/-- The places of a character in a text whose first place is `start`. -/
def placesFrom (c : Char) (t : Text) (start : Nat) : List Nat :=
  (t.zipIdx start).filterMap fun (x, i) => if x == c then some i else none

theorem placesFrom_cons (c x : Char) (t : Text) (start : Nat) :
    placesFrom c (x :: t) start =
      if x = c then start :: placesFrom c t (start + 1) else placesFrom c t (start + 1) := by
  by_cases hit : x = c <;> simp [placesFrom, List.zipIdx_cons, hit]

theorem placesFrom_concat (c x : Char) (t : Text) (start : Nat) :
    placesFrom c (t ++ [x]) start =
      placesFrom c t start ++ if x = c then [start + t.length] else [] := by
  by_cases hit : x = c <;> simp [placesFrom, List.zipIdx_append, hit]

/-- Where nothing nests, the goals to pass are the ones that come first. -/
theorem getElem?_placesFrom (c : Char) (t : Text) (start n : Nat) :
    (placesFrom c t start)[n]? = (Text.unmatched c c n t).map (start + ·) := by
  induction t generalizing start n with
  | nil => rfl
  | cons x t ih =>
    rw [placesFrom_cons]
    by_cases hit : x = c
    · cases n with
      | zero => simp [hit, Text.unmatched]
      | succ n =>
        rw [if_pos hit, List.getElem?_cons_succ, ih]
        simp only [Text.unmatched, hit, if_true, map_succ_ahead]
    · rw [if_neg hit, ih]
      simp only [Text.unmatched, hit, if_false, map_succ_ahead]

/-- The same for a text that is read from its end. -/
theorem getElem?_reverse_placesFrom (c : Char) (u : Text) (start n : Nat) :
    (placesFrom c u.reverse start).reverse[n]? =
      (Text.unmatched c c n u).map fun d => start + u.length - 1 - d := by
  induction u generalizing n with
  | nil => rfl
  | cons x u ih =>
    rw [List.reverse_cons, placesFrom_concat, List.length_cons, ← Nat.add_assoc]
    by_cases hit : x = c
    · rw [if_pos hit, List.reverse_append, List.reverse_singleton, List.singleton_append]
      cases n with
      | zero => simp [hit, Text.unmatched]
      | succ n =>
        rw [List.getElem?_cons_succ, ih]
        simp only [Text.unmatched, hit, if_true, map_succ_back]
    · rw [if_neg hit, List.append_nil, ih]
      simp only [Text.unmatched, hit, if_false, map_succ_back]

theorem slice_eq (t : Text) (s : Span) : t.slice s = (t.take s.stop).drop s.start :=
  List.drop_take.symm

/-- The occurrences ahead of a place, behind those that are left out. -/
theorem seekAhead_line (inside : stop ≤ t.length) :
    seekAhead t c c stop (t.length + 1) i n =
      some (t.offsetsOf (· == c) (Span.between (min i stop) stop))[n]? := by
  have places : t.offsetsOf (· == c) (Span.between (min i stop) stop) =
      placesFrom c ((t.take stop).drop (min i stop)) (min i stop) := by
    rw [Span.between_of_le (Nat.min_le_right _ _), Text.offsetsOf, slice_eq]
    rfl
  have length : (t.take stop).length ≤ stop := List.length_take_le _ _
  rw [seekAhead_eq inside (by omega), places, getElem?_placesFrom, Checked.drop_min length]
  rcases Nat.le_total i stop with before | past
  · rw [Nat.min_eq_left before]
  · rw [List.drop_of_length_le (Nat.le_trans length past)]
    rfl

/-- The occurrences before a place, of which there are none behind the end of the text. -/
theorem seekBack_line (inside : i ≤ bound) (within : start ≤ t.length) (room : i < steps) :
    seekBack t c c bound start steps i n =
      some (t.offsetsOf (· == c) (Span.between (min start i) i)).reverse[n]? := by
  have length : (t.take i).length = min i t.length := List.length_take
  have places : t.offsetsOf (· == c) (Span.between (min start i) i) =
      placesFrom c ((t.take i).drop start).reverse.reverse (min start i) := by
    rw [Span.between_of_le (Nat.min_le_right _ _), Text.offsetsOf, slice_eq, List.reverse_reverse]
    simp only
    rw [Checked.drop_min (by omega)]
    rfl
  rw [seekBack_eq inside room, places, getElem?_reverse_placesFrom, List.length_reverse,
    List.length_drop, length]
  rcases Nat.lt_or_ge i start with front | later
  · rw [List.drop_of_length_le (by omega)]
    rfl
  · have place : min start i + (min i t.length - start) = min i t.length := by omega
    rw [place]

theorem stopAt_eq (room : i + 1 ≤ largest) (t : Text) (f : Find) (skip n : Nat) :
    stopAt f (t.occurrences f i skip)[n]? = some ((t.occurrences f i skip)[n]?.map fun hit =>
      if !f.till then hit else if f.forward then hit - 1 else hit + 1) := by
  cases found : (t.occurrences f i skip)[n]? with
  | none => rfl
  | some hit =>
    have there := List.mem_of_getElem? found
    rw [stopAt, Option.map_some]
    split
    · rfl
    · by_cases forward : f.forward = true
      · rw [if_pos forward, if_pos forward, sub_eq (Checked.occurrences_pos forward there)]
        rfl
      · rw [Text.occurrences, if_neg forward, List.mem_reverse] at there
        obtain ⟨_, below, _⟩ := Text.mem_offsetsOf.mp there
        rw [Span.between_of_le (Nat.min_le_right _ _)] at below
        have below : hit < i - skip := below
        rw [if_neg forward, if_neg forward, add_eq (by omega)]
        rfl

/-- A search back along the line keeps below a bound if it begins below it. -/
theorem find?_eq (inside : t.length ≤ bound) (room : i + 2 ≤ largest) (f : Find) (count : Nat)
    (again : Bool) :
    find? t bound f i count again =
      if f.forward = false ∧ bound < i - (if f.till && again then 1 else 0) then none
      else some (t.find? f i count again) := by
  have skips : (if f.till && again then 1 else 0) ≤ 1 := by split <;> omega
  have number : sub (max count 1) 1 = some (count - 1) := by
    rw [sub_eq (Nat.le_max_right _ _)]
    congr 1
    omega
  have start : t.lineStart (t.lineOf i) ≤ t.length := Nat.sub_le _ _
  have stop := t.lineEnd_le_length (t.lineOf i)
  simp only [find?, Checked.lineOf_eq, Checked.lineStart_eq, Checked.lineEnd_eq, number,
    Option.bind_eq_bind, Option.bind_some, Text.find?]
  generalize (if f.till && again then 1 else 0) = skip at skips ⊢
  have stops := stopAt_eq (show i + 1 ≤ largest by omega) t f skip (count - 1)
  by_cases forward : f.forward = true
  · have hits : t.occurrences f i skip = t.offsetsOf (· == f.char)
        (Span.between (min (i + 1 + skip) (t.lineEnd (t.lineOf i))) (t.lineEnd (t.lineOf i))) := by
      rw [Text.occurrences, if_pos forward]
    have other : ¬(f.forward = false ∧ bound < i - skip) := by simp [forward]
    rw [if_pos forward, if_neg other, add_eq (show i + 1 ≤ largest by omega), Option.bind_some,
      add_eq (show i + 1 + skip ≤ largest by omega), Option.bind_some, seekAhead_line stop, ← hits,
      Option.bind_some, stops]
  · have hits : t.occurrences f i skip = (t.offsetsOf (· == f.char)
        (Span.between (min (t.lineStart (t.lineOf i)) (i - skip)) (i - skip))).reverse := by
      rw [Text.occurrences, if_neg forward]
    rw [if_neg forward]
    rcases Nat.lt_or_ge bound (i - skip) with past | within
    · rw [if_pos ⟨Bool.eq_false_of_not_eq_true forward, past⟩,
        seekBack_of_lt past (Nat.le_trans start inside)]
      rfl
    · rw [if_neg (fun beyond => Nat.not_lt_of_le within beyond.2), seekBack_line within start (by omega),
        ← hits, Option.bind_some, stops]

end ModalEdit.Stepwise
