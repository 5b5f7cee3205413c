import ModalEdit.Extent
import ModalEdit.Motion.Resolve
import ModalEdit.Proofs.Checked.Scan
import ModalEdit.Proofs.Motion

/-! Motions, and what an operator takes with them. -/
namespace ModalEdit.Checked

open Motion (Context Landing Purpose)

/-! ### Searches -/

def occurrences (t : Text) (f : Find) (i skip : Nat) : Option (List Nat) := do
  let l ← lineOf t i
  let start ← lineStart t l
  let stop ← lineEnd t l
  return if f.forward then
      t.offsetsOf (· == f.char) (Span.between (min (i + 1 + skip) stop) stop)
    else (t.offsetsOf (· == f.char) (Span.between (min start (i - skip)) (i - skip))).reverse

/-- A search that stops short of a hit stops one character ahead of it, so there has to be one. -/
def find? (t : Text) (f : Find) (i count : Nat) (again : Bool) : Option (Option Nat) := do
  let hits ← occurrences t f i (if f.till && again then 1 else 0)
  let n ← sub (max count 1) 1
  match hits[n]? with
  | none => some none
  | some hit =>
    if !f.till then some (some hit)
    else if f.forward then (sub hit 1).map some
    else some (some (hit + 1))

/-! ### Places on a line -/

def firstNonBlank (t : Text) (l : Nat) : Option Nat := do
  let start ← lineStart t l
  let stop ← lineEnd t l
  return start + ((t.slice (Span.between start stop)).takeWhile isBlank).length

def restOnLine (t : Text) (l : Nat) : Option Nat := do
  let start ← lineStart t l
  let stop ← lineEnd t l
  let i ← firstNonBlank t l
  if i = stop ∧ start < stop then sub stop 1 else some i

def atColumn (t : Text) (l : Nat) (w : Wanted) (pastEnd : Bool) : Option Nat := do
  let start ← lineStart t l
  let length ← lineLength t l
  let last ← if pastEnd ∨ length = 0 then some length else sub length 1
  return start + w.within last

def lastReachableLine (t : Text) (purpose : Purpose) : Option Nat :=
  if purpose ≠ .insertion ∧ 0 < t.lastLine then do
    let bare ← isEmptyLine t t.lastLine
    if bare then sub t.lastLine 1 else some t.lastLine
  else some t.lastLine

def onLine (t : Text) (i l : Nat) (ctx : Context) : Option Landing := do
  let w ← ctx.wanted.elim ((column t i).map .column) some
  let target ← atColumn t l w (ctx.purpose = .insertion)
  return ⟨target, .lines, some w⟩

def landOnLineEnd (t : Text) (l : Nat) (purpose : Purpose) : Option Landing := do
  let start ← lineStart t l
  let stop ← lineEnd t l
  let landing ←
    if purpose = .insertion then some (Landing.upTo stop)
    else if start < stop then (sub stop 1).map Landing.through
    else some (Landing.upTo start)
  return { landing with wanted := some .lineEnd }

def stopAtLineEnd (t : Text) (i target : Nat) : Option Nat := do
  let l ← lineOf t target
  let own ← lineOf t i
  if l = 0 ∨ l ≤ own ∨ t.length ≤ target then some target
  else do
    let start ← lineStart t l
    if (t.slice (Span.between start target)).all isBlank then do
      let above ← sub l 1
      let stop ← lineEnd t above
      return if i < stop then stop else target
    else some target

/-! ### Resolution -/

/-- The step is taken as many times as the count says. -/
def iterate (step : Nat → Option Nat) : (n i : Nat) → Option Nat
  | 0, i => some i
  | n + 1, i => do
    let next ← step i
    iterate step n next

def landing? (m : Motion) (t : Text) (i count : Nat) (ctx : Context) : Option (Option Landing) := do
  let l ← lineOf t i
  match m with
  | .left => return some (.upTo (i - count))
  | .right => return some (.upTo (i + count))
  | .up =>
    let _ ← lastReachableLine t ctx.purpose
    if l = 0 then return none else return some (← onLine t i (l - count) ctx)
  | .down =>
    let last ← lastReachableLine t ctx.purpose
    if last ≤ l then return none else return some (← onLine t i (min (l + count) last) ctx)
  | .bufferStart =>
    let last ← lastReachableLine t ctx.purpose
    if 1 < count then
      let above ← sub count 1
      return some (← onLine t i (min above last) ctx)
    else return some (← onLine t i 0 ctx)
  | .bufferEnd =>
    let last ← lastReachableLine t ctx.purpose
    if 1 < count then
      let above ← sub count 1
      return some (← onLine t i (min above last) ctx)
    else return some (← onLine t i last ctx)
  | .lineStart => return some (.upTo (← lineStart t l))
  | .firstNonBlank =>
    return some (.upTo (← if ctx.purpose = .cursor then restOnLine t l else firstNonBlank t l))
  | .lineEnd =>
    let last ← lastReachableLine t ctx.purpose
    let below ← sub (l + count) 1
    return some (← landOnLineEnd t (min below (max last l)) ctx.purpose)
  | .wordForward style =>
    let target ← iterate (fun i => some (t.wordForward style i)) count i
    if ctx.purpose = .operator then return some (.upTo (← stopAtLineEnd t i target))
    else return some (.upTo target)
  | .wordBackward style => return some (.upTo (← iterate (wordBackward t style) count i))
  | .wordEnd style =>
    if t.isEmpty then return none
    else return some (.through (← iterate (wordEnd t style) count i))
  | .wordEndBackward style => return some (.through (← iterate (wordEndBackward t style) count i))
  | .paragraphForward => return some (.upTo (← iterate (paragraphForward t) count i))
  | .paragraphBackward => return some (.upTo (← iterate (paragraphBackward t) count i))
  | .matchPair => return (← matchPair t i).map .through
  | .find f =>
    return (← find? t f i count false).map (if f.forward then .through else .upTo)
  | .repeatFind =>
    match ctx.lastFind with
    | none => return none
    | some f => return (← find? t f i count true).map (if f.forward then .through else .upTo)
  | .repeatFindReverse =>
    match ctx.lastFind with
    | none => return none
    | some f =>
      return (← find? t f.reversed i count true).map
        (if f.reversed.forward then .through else .upTo)

def resolve (m : Motion) (t : Text) (i count : Nat) (ctx : Context) : Option (Option Landing) := do
  let landing? ← landing? m t (min i t.length) (max count 1) ctx
  return landing?.map fun x => { x with target := min x.target ctx.limit }

variable {t : Text}

theorem occurrences_eq (t : Text) (f : Find) (i skip : Nat) :
    occurrences t f i skip = some (t.occurrences f i skip) := by
  simp only [occurrences, lineOf_eq, lineStart_eq, lineEnd_eq, Option.bind_eq_bind, Option.bind_some,
    Option.pure_def, Text.occurrences]

/-- There is a character ahead of what a search forward finds. -/
theorem occurrences_pos (forward : f.forward = true) (h : hit ∈ t.occurrences f i skip) : 0 < hit := by
  rw [Text.occurrences, if_pos forward] at h
  obtain ⟨least, bound, _⟩ := Text.mem_offsetsOf.mp h
  simp only [Span.between] at least bound
  omega

@[simp] theorem find?_eq (t : Text) (f : Find) (i count : Nat) (again : Bool) :
    find? t f i count again = some (t.find? f i count again) := by
  have number : sub (max count 1) 1 = some (count - 1) := by
    rw [sub_eq (Nat.le_max_right _ _)]
    congr 1
    omega
  simp only [find?, occurrences_eq, number, Option.bind_eq_bind, Option.bind_some, Text.find?]
  cases found : (t.occurrences f i (if f.till && again then 1 else 0))[count - 1]? with
  | none => rfl
  | some hit =>
    have member := List.mem_of_getElem? found
    cases till : f.till with
    | false => simp
    | true =>
      cases forward : f.forward with
      | false => simp
      | true =>
        have ahead : 1 ≤ hit := occurrences_pos forward member
        simp [sub_eq ahead]

@[simp] theorem firstNonBlank_eq (t : Text) (l : Nat) :
    firstNonBlank t l = some (t.firstNonBlank l) := by
  simp only [firstNonBlank, lineStart_eq, lineEnd_eq, Option.bind_eq_bind, Option.bind_some,
    Option.pure_def, Text.slice_line, Text.firstNonBlank]

theorem lineStart_lt_lineEnd_iff : t.lineStart l < t.lineEnd l ↔ (!t.isEmptyLine l) = true := by
  have empty := Text.isEmptyLine_iff (t := t) (l := l)
  cases bare : t.isEmptyLine l with
  | true =>
    rw [bare] at empty
    simp [Text.lineEnd, empty.mp rfl]
  | false =>
    rw [bare] at empty
    have := Nat.pos_of_ne_zero (mt empty.mpr Bool.false_ne_true)
    simp only [Text.lineEnd, Bool.not_false, iff_true]
    omega

@[simp] theorem restOnLine_eq (t : Text) (l : Nat) : restOnLine t l = some (t.restOnLine l) := by
  simp only [restOnLine, lineStart_eq, lineEnd_eq, firstNonBlank_eq, Option.bind_eq_bind,
    Option.bind_some, Text.restOnLine, lineStart_lt_lineEnd_iff]
  split
  · rename_i blank
    have filled := lineStart_lt_lineEnd_iff.mpr blank.2
    rw [sub_eq (by omega), blank.1]
  · rfl

@[simp] theorem atColumn_eq (t : Text) (l : Nat) (w : Wanted) (pastEnd : Bool) :
    atColumn t l w pastEnd = some (t.atColumn l w pastEnd) := by
  simp only [atColumn, lineStart_eq, lineLength_eq, Option.bind_eq_bind, Option.bind_some,
    Option.pure_def, Text.atColumn]
  cases pastEnd with
  | true => simp
  | false =>
    by_cases bare : t.lineLength l = 0
    · simp [bare]
    · simp [bare, sub_eq (Nat.pos_of_ne_zero bare)]

@[simp] theorem lastReachableLine_eq (t : Text) (purpose : Purpose) :
    lastReachableLine t purpose = some (Motion.lastReachableLine t purpose) := by
  simp only [lastReachableLine, isEmptyLine_eq, Option.bind_eq_bind, Option.bind_some,
    Motion.lastReachableLine]
  by_cases insert : purpose = .insertion
  · simp [insert]
  · cases last : t.lastLine with
    | zero => simp [insert]
    | succ above => cases t.isEmptyLine (above + 1) <;> simp [insert]

@[simp] theorem onLine_eq (t : Text) (i l : Nat) (ctx : Context) :
    onLine t i l ctx = some (.onLine t i l ctx) := by
  simp only [onLine, column_eq, atColumn_eq]
  cases wanted : ctx.wanted with
  | none => simp [Landing.onLine, wanted]
  | some w => simp [Landing.onLine, wanted]

@[simp] theorem landOnLineEnd_eq (t : Text) (l : Nat) (purpose : Purpose) :
    landOnLineEnd t l purpose = some (.lineEnd t l purpose) := by
  simp only [landOnLineEnd, lineStart_eq, lineEnd_eq, Option.bind_eq_bind, Option.bind_some,
    Option.pure_def, Landing.lineEnd, lineStart_lt_lineEnd_iff]
  by_cases insert : purpose = .insertion
  · simp [insert]
  · cases bare : t.isEmptyLine l with
    | true => simp [insert]
    | false =>
      have filled := lineStart_lt_lineEnd_iff.mpr (congrArg (!·) bare)
      have some_ : 1 ≤ t.lineEnd l := by omega
      simp [insert, sub_eq some_]

@[simp] theorem stopAtLineEnd_eq (t : Text) (i target : Nat) :
    stopAtLineEnd t i target = some (Motion.stopAtLineEnd t i target) := by
  simp only [stopAtLineEnd, lineOf_eq, lineStart_eq, lineEnd_eq, Option.bind_eq_bind,
    Option.bind_some, Option.pure_def, Motion.stopAtLineEnd]
  by_cases later : t.lineOf i < t.lineOf target ∧ target < t.length
  · have above : 1 ≤ t.lineOf target := by omega
    have on : ¬(t.lineOf target = 0 ∨ t.lineOf target ≤ t.lineOf i ∨ t.length ≤ target) := by omega
    rw [if_neg on, sub_eq above, Option.bind_some]
    simp only [later.1, later.2, true_and]
    by_cases blank :
        (t.slice (Span.between (t.lineStart (t.lineOf target)) target)).all isBlank = true
    · by_cases before : i < t.lineEnd (t.lineOf target - 1)
      · simp only [blank, before, if_true, and_self]
      · simp only [blank, before, if_true, if_false, and_false]
    · simp only [blank, Bool.false_eq_true, if_false, false_and]
  · have on : t.lineOf target = 0 ∨ t.lineOf target ≤ t.lineOf i ∨ t.length ≤ target := by omega
    rw [if_pos on, if_neg fun all => later ⟨all.1, all.2.1⟩]

/-- A walk that ends where the step leads nowhere is as good as one that goes on. -/
theorem iterate_eq {step : Nat → Option Nat} {step' : Nat → Nat} {limit : Nat}
    (each : ∀ i ≤ limit, step i = some (step' i)) (inside : ∀ i ≤ limit, step' i ≤ limit)
    (n : Nat) (h : i ≤ limit) : iterate step n i = some (Motion.walk step' n i) := by
  have still {i : Nat} (stays : step' i = i) (n : Nat) : Motion.walk step' n i = i := by
    cases n with
    | zero => rfl
    | succ n => exact if_pos stays
  induction n generalizing i with
  | zero => rfl
  | succ n ih =>
    rw [iterate, each i h, Option.bind_eq_bind, Option.bind_some, ih (inside i h), Motion.walk]
    split
    · rename_i stays
      rw [stays, still stays]
    · rfl

/-! ### Words and paragraphs do not lead out of the text -/

theorem lastWordStart_le (style : WordStyle) (t : Text) : Text.lastWordStart style t ≤ t.length := by
  induction t with
  | nil => exact Nat.le_refl _
  | cons c before ih =>
    rw [Text.lastWordStart]
    split
    · split
      · exact Nat.le_succ _
      · exact Nat.le_succ_of_le ih
    · exact Nat.le_succ_of_le (List.dropWhile_suffix _).length_le

theorem wordBackward_le (t : Text) (style : WordStyle) (i : Nat) : t.wordBackward style i ≤ i := by
  have inside := lastWordStart_le style (t.take i).reverse
  rw [List.length_reverse] at inside
  exact Nat.le_trans inside (List.length_take_le i t)

theorem wordEnd_le (t : Text) (style : WordStyle) (i : Nat) :
    t.wordEnd style i ≤ t.length - 1 := by
  rw [Text.wordEnd]
  split <;> omega

theorem wordEndBackward_le (t : Text) (style : WordStyle) (i : Nat) :
    t.wordEndBackward style i ≤ t.length - 1 := by
  have inside := (List.take_sublist (i + 1) t).length_le
  rw [Text.wordEndBackward]
  split
  · exact Nat.zero_le _
  · rename_i c before ahead
    rw [← List.length_reverse, ahead, List.length_cons] at inside
    have word : (if isWhiteSpace c then before
        else before.dropWhile (Text.inClass style (CharClass.of style c))) <:+ before := by
      split
      · exact List.suffix_rfl
      · exact List.dropWhile_suffix _
    have gap := ((List.dropWhile_suffix isWhiteSpace).trans word).length_le
    dsimp only
    omega

theorem paragraphForward_le (t : Text) (i : Nat) : t.paragraphForward i ≤ t.length := by
  rw [Text.paragraphForward]
  split
  · exact Nat.le_refl _
  · exact Nat.sub_le _ _

theorem dropParagraph_suffix (ls : List Text) : Text.dropParagraph ls <:+ ls :=
  (List.dropWhile_suffix _).trans (List.dropWhile_suffix _)

theorem paragraphBackward_le (t : Text) (i : Nat) : t.paragraphBackward i ≤ i := by
  rw [Text.paragraphBackward]
  split
  · exact Nat.zero_le _
  · have above := (dropParagraph_suffix (t.lines.take (t.lineOf i + 1)).reverse).length_le
    have rows := List.length_take_le (t.lineOf i + 1) t.lines
    rw [List.length_reverse] at above
    exact Nat.le_trans (t.lineStart_mono (by omega)) (t.lineStart_lineOf_le i)

theorem landing?_eq (m : Motion) (h : i ≤ t.length) (some_ : 0 < count) (ctx : Context) :
    landing? m t i count ctx = some (m.landing? t i count ctx) := by
  have found (f : Find) (again : Bool) :
      (t.find? f i count again).map (if f.forward then .through else .upTo) =
        Landing.find? t f i count again := by
    rw [Landing.find?]
    cases f.forward <;> rfl
  rw [landing?, lineOf_eq, Option.bind_eq_bind, Option.bind_some]
  cases m with
  | left | right | lineStart => simp [Motion.landing?]
  | up | down =>
    simp only [lastReachableLine_eq, onLine_eq, Option.bind_eq_bind, Option.bind_some,
      Option.pure_def, Motion.landing?]
    split <;> rfl
  | bufferStart =>
    simp only [lastReachableLine_eq, onLine_eq, sub_eq some_, Option.bind_eq_bind, Option.bind_some,
      Option.pure_def, Motion.landing?]
    split
    · rfl
    · obtain rfl : count = 1 := by omega
      rw [Nat.sub_self, Nat.zero_min]
  | bufferEnd =>
    simp only [lastReachableLine_eq, onLine_eq, sub_eq some_, Option.bind_eq_bind, Option.bind_some,
      Option.pure_def, Motion.landing?]
    split
    · rw [if_neg (by omega)]
    · rw [if_pos (by omega)]
  | firstNonBlank =>
    simp only [restOnLine_eq, firstNonBlank_eq, Option.bind_some, Option.pure_def, Motion.landing?,
      Landing.firstNonBlank]
    split <;> rfl
  | lineEnd =>
    have below : 1 ≤ t.lineOf i + count := by omega
    simp only [lastReachableLine_eq, sub_eq below, landOnLineEnd_eq, Option.bind_eq_bind,
      Option.bind_some, Option.pure_def, Motion.landing?]
  | wordForward style =>
    have each : ∀ i ≤ t.length, some (t.wordForward style i) = some (t.wordForward style i) :=
      fun _ _ => rfl
    have walked := iterate_eq each (fun _ _ => Nat.sub_le _ _) count h
    simp only [walked, stopAtLineEnd_eq, Option.bind_some, Option.pure_def, Motion.landing?]
    split <;> rfl
  | wordBackward style =>
    have walked := iterate_eq (fun _ => wordBackward_eq)
      (fun i inside => Nat.le_trans (wordBackward_le t style i) inside) count h
    simp only [walked, Option.bind_some, Option.pure_def, Motion.landing?]
  | wordEnd style =>
    have walked := iterate_eq (fun i _ => wordEnd_eq i)
      (fun i _ => Nat.le_trans (wordEnd_le t style i) (Nat.sub_le _ _)) count h
    simp only [walked, Option.bind_some, Option.pure_def, Motion.landing?]
    split <;> rfl
  | wordEndBackward style =>
    have walked := iterate_eq (fun i _ => wordEndBackward_eq i)
      (fun i _ => Nat.le_trans (wordEndBackward_le t style i) (Nat.sub_le _ _)) count h
    simp only [walked, Option.bind_some, Option.pure_def, Motion.landing?]
  | paragraphForward =>
    have walked := iterate_eq (fun i _ => paragraphForward_eq i)
      (fun i _ => paragraphForward_le t i) count h
    simp only [walked, Option.bind_some, Option.pure_def, Motion.landing?]
  | paragraphBackward =>
    have walked := iterate_eq (fun i _ => paragraphBackward_eq i)
      (fun i inside => Nat.le_trans (paragraphBackward_le t i) inside) count h
    simp only [walked, Option.bind_some, Option.pure_def, Motion.landing?]
  | matchPair =>
    simp only [matchPair_eq, Option.bind_eq_bind, Option.bind_some, Option.pure_def, Motion.landing?]
  | find f =>
    simp only [find?_eq, Option.bind_eq_bind, Option.bind_some, Option.pure_def, found,
      Motion.landing?]
  | repeatFind | repeatFindReverse =>
    cases last : ctx.lastFind with
    | none => simp [Motion.landing?, last]
    | some f =>
      simp only [find?_eq, Option.bind_eq_bind, Option.bind_some, Option.pure_def, found,
        Motion.landing?, last]

/-- A motion is resolved without leaving a domain, from any place and with any count. -/
@[simp] theorem resolve_eq (m : Motion) (t : Text) (i count : Nat) (ctx : Context) :
    resolve m t i count ctx = some (m.resolve t i count ctx) := by
  rw [resolve, landing?_eq m (Nat.min_le_right _ _) (Nat.le_max_right count 1), Option.bind_eq_bind,
    Option.bind_some]
  rfl

/-! ### Extents -/

def ofLines (t : Text) (a b : Nat) : Option Extent := do
  let start ← lineStart t (min a b)
  let stop ← lineEnd t (min (max a b) t.lastLine)
  return ⟨Span.between start stop, true⟩

def counted (t : Text) (i count : Nat) : Option Extent := do
  let l ← lineOf t i
  let more ← sub (max count 1) 1
  ofLines t l (l + more)

def ofLanding (t : Text) (i : Nat) (landing : Landing) : Option Extent :=
  match landing.reach with
  | .upTo | .through => some (.ofLanding t i landing)
  | .lines => do
    let own ← lineOf t i
    let other ← lineOf t landing.target
    ofLines t own other

theorem start_le_succ_stop (s : Span) : s.start ≤ s.stop + 1 := Nat.le_succ_of_le s.start_le_stop

/-- At the front of the text there is no break to take along. -/
def withBreak (t : Text) (s : Span) : Option Span :=
  if s.stop < t.length then some ⟨s.start, s.stop + 1, start_le_succ_stop s⟩
  else if 0 < s.start then (sub s.start 1).map fun start => Span.between start s.stop
  else some s

@[simp] theorem ofLines_eq (t : Text) (a b : Nat) : ofLines t a b = some (.ofLines t a b) := by
  simp only [ofLines, lineStart_eq, lineEnd_eq, Option.bind_eq_bind, Option.bind_some,
    Option.pure_def, Text.lineEnd_min, Extent.ofLines]

@[simp] theorem counted_eq (t : Text) (i count : Nat) :
    counted t i count = some (.counted t i count) := by
  have more : max count 1 - 1 = count - 1 := by omega
  simp only [counted, lineOf_eq, sub_eq (Nat.le_max_right count 1), more, ofLines_eq,
    Option.bind_eq_bind, Option.bind_some, Extent.counted]

@[simp] theorem ofLanding_eq (t : Text) (i : Nat) (landing : Landing) :
    ofLanding t i landing = some (.ofLanding t i landing) := by
  rw [ofLanding]
  split
  · rfl
  · rfl
  · rename_i lines
    simp only [lineOf_eq, ofLines_eq, Option.bind_eq_bind, Option.bind_some, Extent.ofLanding, lines]

@[simp] theorem withBreak_eq (t : Text) (s : Span) : withBreak t s = some (t.withBreak s) := by
  have ordered := s.start_le_stop
  rw [withBreak, Text.withBreak]
  split
  · rfl
  · split
    · rename_i later
      rw [sub_eq later, Option.map_some, Span.between_of_le (by omega)]
    · rename_i front
      obtain ⟨start, stop, _⟩ := s
      obtain rfl : start = 0 := Nat.eq_zero_of_not_pos front
      rfl

end ModalEdit.Checked
