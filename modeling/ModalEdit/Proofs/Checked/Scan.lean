import ModalEdit.Motion.Pair
import ModalEdit.Motion.Paragraph
import ModalEdit.Motion.Word
import ModalEdit.Proofs.Checked.Text
import ModalEdit.Proofs.TextObject

/-! Scans of a text that step back: over words, over lines, and out of nested brackets. A scan is
given more steps than it may need, and has no result when it runs out of them. -/
namespace ModalEdit.Checked

variable {t : Text}

/-! ### Words -/

def classAt (t : Text) (style : WordStyle) (i : Nat) : CharClass :=
  t[i]?.elim .space (CharClass.of style)

def spaceAt (t : Text) (i : Nat) : Bool := t[i]?.any isWhiteSpace

/-- Steps back from `i` as long as the place before is beyond `lo` and satisfies `p`. -/
def backWhile (p : Nat → Bool) (lo : Nat) : (steps i : Nat) → Option Nat
  | 0, _ => none
  | steps + 1, i =>
    if i ≤ lo then some i
    else do
      let before ← sub i 1
      if p before then backWhile p lo steps before else some i

/-- Over white space to the last word or empty line, and then to its start. -/
def backToWord (t : Text) (style : WordStyle) : (steps i : Nat) → Option Nat
  | 0, _ => none
  | steps + 1, i =>
    if spaceAt t i then do
      let bare ←
        if t[i]? ≠ some '\n' then some false
        else if i = 0 then some true
        else (sub i 1).map fun before => t[before]? = some '\n'
      if bare then some i
      else if i = 0 then some 0
      else do
        let before ← sub i 1
        backToWord t style steps before
    else backWhile (fun k => classAt t style k = classAt t style i) 0 (i + 1) i

def wordBackward (t : Text) (style : WordStyle) (i : Nat) : Option Nat :=
  if i = 0 then some 0
  else do
    let last ← sub (min i t.length) 1
    backToWord t style (last + 1) last

/-- A step forward has no domain; only the last character has to be there. -/
def wordEnd (t : Text) (style : WordStyle) (i : Nat) : Option Nat :=
  if t.length = 0 then some 0
  else if (t.drop (i + 1)).all isWhiteSpace then sub t.length 1
  else some (t.wordEnd style i)

/-- Out of the word at `i`, if there is one. -/
def backOverWord (t : Text) (style : WordStyle) (i : Nat) : Option Nat :=
  if classAt t style i = .space then some i
  else backWhile (fun k => classAt t style k = classAt t style i) 0 (i + 1) i

def wordEndBackward (t : Text) (style : WordStyle) (i : Nat) : Option Nat :=
  if i = 0 ∨ t.length = 0 then some 0
  else do
    let last ← sub t.length 1
    let start ← backOverWord t style (min i last)
    if start = 0 then some 0
    else do
      let before ← sub start 1
      backWhile (fun k => spaceAt t (k + 1)) 0 (before + 1) before

theorem backWhile_eq {p : Nat → Bool} {q : Char → Bool} {row : Text} {lo : Nat}
    (same : ∀ k c, row[k]? = some c → p (lo + k) = q c) (room : row.length < steps) :
    backWhile p lo steps (lo + row.length) = some (lo + (row.reverse.dropWhile q).length) := by
  induction steps generalizing row with
  | zero => cases room
  | succ steps ih =>
    rcases List.eq_nil_or_concat row with rfl | ⟨ahead, c, rfl⟩
    · simp [backWhile]
    · have last : p (lo + ahead.length) = q c := same ahead.length c (by simp)
      have inner : ∀ k c, ahead[k]? = some c → p (lo + k) = q c := by
        intro k c' there
        have inside := (List.getElem?_eq_some_iff.mp there).1
        exact same k c' (by rw [List.concat_eq_append, List.getElem?_append_left inside, there])
      have further := ih inner (by simpa using room)
      have start : ¬lo + (ahead.length + 1) ≤ lo := by omega
      simp only [backWhile, List.concat_eq_append, List.length_append, List.length_singleton, start,
        if_false, List.reverse_append, List.reverse_singleton, List.singleton_append]
      rw [← Nat.add_assoc, succ_sub_one, Option.bind_eq_bind, Option.bind_some, last]
      by_cases more : q c = true
      · simp only [more, if_true, further, List.dropWhile_cons_of_pos]
      · simp [more, Nat.add_assoc]

theorem take_succ_reverse {xs : List α} (h : xs[i]? = some x) :
    (xs.take (i + 1)).reverse = x :: (xs.take i).reverse := by
  rw [List.take_add_one, h]
  simp

theorem classAt_eq (h : t[i]? = some c) : classAt t style i = CharClass.of style c := by
  rw [classAt, h]
  rfl

theorem spaceAt_eq (h : t[i]? = some c) : spaceAt t i = isWhiteSpace c := by
  rw [spaceAt, h]
  rfl

/-- Back to the start of a run of one class. -/
theorem backWhile_class (style : WordStyle) (h : t[i]? = some c) :
    backWhile (fun k => classAt t style k = classAt t style i) 0 (i + 1) i =
      some ((t.take i).reverse.dropWhile (Text.inClass style (CharClass.of style c))).length := by
  have inside := (List.getElem?_eq_some_iff.mp h).1
  have length : (t.take i).length = i := List.length_take_of_le (Nat.le_of_lt inside)
  have same : ∀ k c', (t.take i)[k]? = some c' →
      decide (classAt t style (0 + k) = classAt t style i) =
        Text.inClass style (CharClass.of style c) c' := by
    intro k c' there
    have before := (List.getElem?_eq_some_iff.mp there).1
    rw [List.getElem?_take_of_lt (by omega)] at there
    rw [Nat.zero_add, classAt_eq there, classAt_eq h]
    rfl
  have back : backWhile _ 0 (i + 1) _ = _ :=
    backWhile_eq (p := fun k => classAt t style k = classAt t style i) same (by omega)
  rwa [length, Nat.zero_add, Nat.zero_add] at back

theorem backToWord_eq (inside : i < t.length) (room : i < steps) :
    backToWord t style steps i = some (Text.lastWordStart style (t.take (i + 1)).reverse) := by
  induction steps generalizing i with
  | zero => cases room
  | succ steps ih =>
    have there := List.getElem?_eq_getElem inside
    rw [take_succ_reverse there, Text.lastWordStart, backToWord, spaceAt_eq there]
    by_cases space : isWhiteSpace t[i] = true
    · rw [if_pos space, if_pos space]
      cases i with
      | zero =>
        have start : Text.lastWordStart style [] = 0 := rfl
        by_cases bare : t[0] = '\n'
        · simp [there, bare]
        · simp [there, bare, start]
      | succ j =>
        have below : j < t.length := Nat.lt_of_succ_lt inside
        have before := List.getElem?_eq_getElem below
        have further := ih below (Nat.lt_of_succ_lt_succ room)
        rw [take_succ_reverse before] at further ⊢
        simp only [there, succ_sub_one, before, Nat.succ_ne_zero, if_false, Option.map_some,
          Option.bind_eq_bind, Option.bind_some, further, ne_eq, Option.some.injEq]
        by_cases line : t[j + 1] = '\n'
        · by_cases empty : t[j] = '\n'
          · simp [line, empty, Nat.le_of_lt below]
          · simp [line, empty]
        · simp [line]
    · rw [if_neg space, if_neg space]
      exact backWhile_class style there

/-- From within the text there is always a place to step back from. -/
theorem wordBackward_eq (h : i ≤ t.length) :
    wordBackward t style i = some (t.wordBackward style i) := by
  rw [wordBackward]
  split
  · rename_i front
    rw [front]
    rfl
  · rename_i later
    obtain ⟨last, rfl⟩ := Nat.exists_eq_succ_of_ne_zero later
    rw [Nat.min_eq_left h, succ_sub_one, Option.bind_eq_bind, Option.bind_some,
      backToWord_eq h (Nat.lt_succ_self last)]
    rfl

theorem wordEnd_eq (i : Nat) : wordEnd t style i = some (t.wordEnd style i) := by
  rw [wordEnd]
  split
  · rename_i nothing
    rw [List.length_eq_zero_iff.mp nothing, Text.wordEnd]
    simp
  · rename_i visible
    split
    · rename_i gap
      rw [sub_eq (Nat.pos_of_ne_zero visible), Text.wordEnd,
        List.dropWhile_eq_nil_iff.mpr (List.all_eq_true.mp gap)]
    · rfl

theorem of_eq_space_iff (style : WordStyle) (c : Char) :
    CharClass.of style c = .space ↔ isWhiteSpace c = true := by
  simp only [CharClass.of]
  split
  · simp_all
  · split <;> simp_all

/-- Back over white space to the last character of what is ahead of it. -/
theorem backWhile_space (inside : i < t.length) :
    backWhile (fun k => spaceAt t (k + 1)) 0 (i + 1) i =
      some (((t.take (i + 1)).reverse.dropWhile isWhiteSpace).length - 1) := by
  cases t with
  | nil => cases inside
  | cons c t =>
    have inside : i ≤ t.length := Nat.le_of_lt_succ inside
    have length : (t.take i).length = i := List.length_take_of_le inside
    have same : ∀ k c', (t.take i)[k]? = some c' → spaceAt (c :: t) (0 + k + 1) = isWhiteSpace c' := by
      intro k c' there
      have before := (List.getElem?_eq_some_iff.mp there).1
      rw [List.getElem?_take_of_lt (by omega)] at there
      rw [Nat.zero_add]
      exact spaceAt_eq there
    have back : backWhile _ 0 (i + 1) _ = _ :=
      backWhile_eq (p := fun k => spaceAt (c :: t) (k + 1)) same (by omega)
    rw [length, Nat.zero_add, Nat.zero_add] at back
    rw [back, List.take_succ_cons, List.reverse_cons, List.dropWhile_append]
    split
    · rename_i all
      rw [List.isEmpty_iff.mp all]
      by_cases space : isWhiteSpace c = true <;> simp [space]
    · simp

/-- A suffix of a prefix in reverse is a prefix in reverse. -/
theorem eq_take_of_suffix {u : Text} (suffix : u <:+ (t.take i).reverse) :
    u = (t.take u.length).reverse := by
  have ahead : u.reverse <+: t.take i := by
    have reversed := List.reverse_prefix.mpr suffix
    rwa [List.reverse_reverse] at reversed
  have same := List.prefix_iff_eq_take.mp (ahead.trans (List.take_prefix i t))
  rw [List.length_reverse] at same
  rw [← same, List.reverse_reverse]

theorem backOverWord_eq (style : WordStyle) (h : t[i]? = some c) :
    ∃ start ≤ i, backOverWord t style i = some start ∧
      (if isWhiteSpace c then (t.take i).reverse
        else (t.take i).reverse.dropWhile (Text.inClass style (CharClass.of style c))) =
          (t.take start).reverse := by
  have inside := (List.getElem?_eq_some_iff.mp h).1
  have length : (t.take i).reverse.length = i := by simp [Nat.le_of_lt inside]
  by_cases space : isWhiteSpace c = true
  · refine ⟨i, Nat.le_refl i, ?_, if_pos space⟩
    rw [backOverWord, if_pos ((classAt_eq h).trans ((of_eq_space_iff style c).mpr space))]
  · have suffix := List.dropWhile_suffix (l := (t.take i).reverse)
      (Text.inClass style (CharClass.of style c))
    refine ⟨_, length ▸ suffix.length_le, ?_, ?_⟩
    · have visible : classAt t style i ≠ .space := by
        rw [classAt_eq h]
        exact mt (of_eq_space_iff style c).mp space
      rw [backOverWord, if_neg visible]
      exact backWhile_class style h
    · rw [if_neg space]
      exact eq_take_of_suffix suffix

theorem wordEndBackward_eq (i : Nat) :
    wordEndBackward t style i = some (t.wordEndBackward style i) := by
  rw [wordEndBackward]
  split
  · rename_i nothing
    cases t with
    | nil => simp [Text.wordEndBackward]
    | cons c t =>
      obtain rfl : i = 0 := by simpa using nothing
      simp [Text.wordEndBackward]
  · rename_i later
    obtain ⟨later, visible⟩ := not_or.mp later
    have ahead : t.take (i + 1) = t.take (min i (t.length - 1) + 1) := by
      rw [List.take_eq_take_iff]
      omega
    have inside : min i (t.length - 1) < t.length := by omega
    have there := List.getElem?_eq_getElem inside
    obtain ⟨start, bound, word, gap⟩ := backOverWord_eq style there
    rw [sub_eq (Nat.pos_of_ne_zero visible), Option.bind_eq_bind, Option.bind_some, word,
      Option.bind_some, Text.wordEndBackward, ahead, take_succ_reverse there]
    simp only [gap]
    cases start with
    | zero => simp
    | succ before =>
      rw [if_neg (Nat.succ_ne_zero before), succ_sub_one, Option.bind_some,
        backWhile_space (by omega)]

/-! ### Paragraphs -/

/-- Over the lines from `l` on that are empty, or over those that are not. -/
def overLines (t : Text) (empty : Bool) : (steps l : Nat) → Option Nat
  | 0, _ => none
  | steps + 1, l =>
    if t.lastLine < l then some l
    else do
      let bare ← isEmptyLine t l
      if bare = empty then overLines t empty steps (l + 1) else some l

def paragraphForward (t : Text) (i : Nat) : Option Nat := do
  let own ← lineOf t i
  let first ← overLines t true (t.lineCount + 1) own
  let l ← overLines t false (t.lineCount + 1) first
  if t.lastLine < l then some t.length else lineStart t l

/-- Back over the lines up to `l` that are empty, or over those that are not, unless this leads to
the front of the text. -/
def backOverLines (t : Text) (empty : Bool) : (steps l : Nat) → Option (Option Nat)
  | 0, _ => none
  | steps + 1, l => do
    let bare ← isEmptyLine t l
    if bare = empty then
      if l = 0 then some none
      else do
        let above ← sub l 1
        backOverLines t empty steps above
    else some (some l)

def paragraphBackward (t : Text) (i : Nat) : Option Nat := do
  let own ← lineOf t i
  match ← backOverLines t true (own + 1) own with
  | none => some 0
  | some last =>
    match ← backOverLines t false (last + 1) last with
    | none => some 0
    | some l => lineStart t l

theorem lines_take (h : l ≤ t.lastLine) :
    (t.lines.take (l + 1)).reverse = t.line l :: (t.lines.take l).reverse :=
  take_succ_reverse (Text.lines_getElem? h)

theorem overLines_eq (empty : Bool) (h : l ≤ t.lineCount) (room : t.lineCount < l + steps) :
    ∃ l' ≤ t.lineCount, overLines t empty steps l = some l' ∧
      (t.lines.drop l).dropWhile (·.isEmpty == empty) = t.lines.drop l' := by
  induction steps generalizing l with
  | zero => omega
  | succ steps ih =>
    rw [overLines]
    split
    · rename_i past
      exact ⟨l, h, rfl, by rw [Text.lines_drop_past past]; rfl⟩
    · rename_i inside
      have inside := Nat.le_of_not_lt inside
      rw [Text.lines_drop inside, isEmptyLine_eq, Option.bind_eq_bind, Option.bind_some]
      by_cases same : t.isEmptyLine l = empty
      · obtain ⟨l', bound, there, rest⟩ := ih (l := l + 1) (Nat.succ_le_succ inside) (by omega)
        have passed : ((t.line l).isEmpty == empty) = true := beq_iff_eq.mpr same
        refine ⟨l', bound, by rw [if_pos same, there], ?_⟩
        simp only [List.dropWhile_cons, passed, if_true, rest]
      · have stays : ¬((t.line l).isEmpty == empty) = true := mt beq_iff_eq.mp same
        refine ⟨l, h, if_neg same, ?_⟩
        simp only [List.dropWhile_cons, stays, Bool.false_eq_true, if_false, Text.lines_drop inside]

theorem paragraphForward_eq (i : Nat) : paragraphForward t i = some (t.paragraphForward i) := by
  have own : t.lineOf i ≤ t.lineCount := Nat.le_succ_of_le (t.lineOf_le_lastLine i)
  have room (l : Nat) : t.lineCount < l + (t.lineCount + 1) := by omega
  obtain ⟨first, inside, there, rest⟩ := overLines_eq true own (room _)
  obtain ⟨l, inside', there', rest'⟩ := overLines_eq false inside (room _)
  simp only [beq_true, beq_false] at rest rest'
  simp only [paragraphForward, lineOf_eq, there, there', Option.bind_eq_bind, Option.bind_some,
    lineStart_eq, Text.paragraphForward, Text.dropParagraph, rest, rest']
  split
  · rename_i past
    rw [Text.lines_drop_past past]
  · rename_i before
    have before := Nat.le_of_not_lt before
    have length : (t.lines.drop l).length = t.lineCount - l := by
      rw [List.length_drop, Text.length_lines]
    rw [Text.lines_drop before] at length ⊢
    simp only [length]
    rw [Nat.sub_sub_self inside']

theorem backOverLines_eq (empty : Bool) (h : l ≤ t.lastLine) (room : l < steps) :
    (backOverLines t empty steps l = some none ∧
        (t.lines.take (l + 1)).reverse.dropWhile (·.isEmpty == empty) = []) ∨
      ∃ l' ≤ l, backOverLines t empty steps l = some (some l') ∧
        (t.lines.take (l + 1)).reverse.dropWhile (·.isEmpty == empty) =
          (t.lines.take (l' + 1)).reverse := by
  induction steps generalizing l with
  | zero => cases room
  | succ steps ih =>
    rw [backOverLines, isEmptyLine_eq, Option.bind_eq_bind, Option.bind_some, lines_take h]
    by_cases same : t.isEmptyLine l = empty
    · have passed : ((t.line l).isEmpty == empty) = true := beq_iff_eq.mpr same
      simp only [List.dropWhile_cons, passed, if_true, same]
      cases l with
      | zero => exact .inl ⟨rfl, rfl⟩
      | succ above =>
        simp only [Nat.succ_ne_zero, if_false, succ_sub_one, Option.bind_eq_bind, Option.bind_some]
        rcases ih (Nat.le_of_succ_le h) (Nat.lt_of_succ_lt_succ room) with
          ⟨front, nothing⟩ | ⟨l', bound, there, rest⟩
        · exact .inl ⟨front, nothing⟩
        · exact .inr ⟨l', Nat.le_succ_of_le bound, there, rest⟩
    · have stays : ¬((t.line l).isEmpty == empty) = true := mt beq_iff_eq.mp same
      refine .inr ⟨l, Nat.le_refl l, if_neg same, ?_⟩
      simp only [List.dropWhile_cons, stays, Bool.false_eq_true, if_false, lines_take h]

theorem paragraphBackward_eq (i : Nat) : paragraphBackward t i = some (t.paragraphBackward i) := by
  have own := t.lineOf_le_lastLine i
  rcases backOverLines_eq true own (Nat.lt_succ_self _) with ⟨front, nothing⟩ | ⟨last, inside, back, rest⟩
  · simp only [beq_true] at nothing
    simp only [paragraphBackward, lineOf_eq, front, Option.bind_eq_bind, Option.bind_some,
      Text.paragraphBackward, Text.dropParagraph, nothing, List.dropWhile_nil]
  · have inside := Nat.le_trans inside own
    rcases backOverLines_eq false inside (Nat.lt_succ_self _) with
      ⟨front, nothing⟩ | ⟨l, inside', back', rest'⟩
    · simp only [beq_true, beq_false] at rest nothing
      simp only [paragraphBackward, lineOf_eq, back, front, Option.bind_eq_bind, Option.bind_some,
        Text.paragraphBackward, Text.dropParagraph, rest, nothing]
    · simp only [beq_true, beq_false] at rest rest'
      have length : (t.lines.take (l + 1)).reverse.length = l + 1 := by
        have := t.length_lines
        rw [Text.lineCount] at this
        rw [List.length_reverse, List.length_take]
        omega
      simp only [paragraphBackward, lineOf_eq, back, back', Option.bind_eq_bind, Option.bind_some,
        lineStart_eq, Text.paragraphBackward, Text.dropParagraph, rest, rest']
      rw [lines_take (Nat.le_trans inside' inside)] at length ⊢
      simp only [length, Nat.add_sub_cancel]

/-! ### Brackets -/

/-- The distance to the first `goal` outside of inner pairs. Each `goal` inside takes one off the
number of pairs that are open. -/
def unmatched (goal nest : Char) : (depth : Nat) → Text → Option (Option Nat)
  | _, [] => some none
  | depth, c :: rest =>
    if c = goal then
      if depth = 0 then some (some 0)
      else do
        let depth ← sub depth 1
        let found? ← unmatched goal nest depth rest
        return found?.map (· + 1)
    else do
      let found? ← unmatched goal nest (if c = nest then depth + 1 else depth) rest
      return found?.map (· + 1)

def findCloser (t : Text) (b : Bracket) (i : Nat) : Option (Option Nat) := do
  let found? ← unmatched b.closer b.opener 0 (t.drop i)
  return found?.map (i + ·)

/-- The text up to `i` is read from its end, and a distance from there must lie in that text. -/
def findOpener (t : Text) (b : Bracket) (i : Nat) : Option (Option Nat) := do
  let found? ← unmatched b.opener b.closer 0 (t.take i).reverse
  match found? with
  | none => some none
  | some d => (sub (min i t.length) (d + 1)).map some

def matchPair (t : Text) (i : Nat) : Option (Option Nat) :=
  match t[i]?.bind (Bracket.find? Bracket.jumpPairs) with
  | none => some none
  | some (b, .opening) => findCloser t b (i + 1)
  | some (b, .closing) => findOpener t b i

theorem unmatched_eq (goal nest : Char) (depth : Nat) (t : Text) :
    unmatched goal nest depth t = some (Text.unmatched goal nest depth t) := by
  induction t generalizing depth with
  | nil => rfl
  | cons c t ih =>
    by_cases closes : c = goal
    · cases depth with
      | zero => simp [unmatched, Text.unmatched, closes]
      | succ depth => simp [unmatched, Text.unmatched, closes, ih]
    · by_cases opens : c = nest
      · simp only [unmatched, Text.unmatched, if_neg closes, if_pos opens, ih,
          Option.bind_eq_bind, Option.bind_some, Option.pure_def]
      · simp only [unmatched, Text.unmatched, if_neg closes, if_neg opens, ih,
          Option.bind_eq_bind, Option.bind_some, Option.pure_def]

@[simp] theorem findCloser_eq (t : Text) (b : Bracket) (i : Nat) :
    findCloser t b i = some (t.findCloser b i) := by
  simp only [findCloser, unmatched_eq, Option.bind_eq_bind, Option.bind_some, Option.pure_def,
    Text.findCloser]

@[simp] theorem findOpener_eq (t : Text) (b : Bracket) (i : Nat) :
    findOpener t b i = some (t.findOpener b i) := by
  rw [findOpener, unmatched_eq, Option.bind_eq_bind, Option.bind_some, Text.findOpener]
  cases found : Text.unmatched b.opener b.closer 0 (t.take i).reverse with
  | none => rfl
  | some d =>
    have inside : d + 1 ≤ min i t.length := by
      have bound := Text.unmatched_lt found
      rwa [List.length_reverse, List.length_take] at bound
    have place : min i t.length - (d + 1) = min i t.length - 1 - d := by omega
    simp only [sub_eq inside, Option.map_some, place]

@[simp] theorem matchPair_eq (t : Text) (i : Nat) : matchPair t i = some (t.matchPair i) := by
  rw [matchPair, Text.matchPair]
  cases t[i]? with
  | none => rfl
  | some c =>
    simp only [Option.bind_some, Option.bind_eq_bind]
    cases Bracket.find? Bracket.jumpPairs c with
    | none => rfl
    | some found =>
      obtain ⟨b, side⟩ := found
      cases side with
      | opening => exact findCloser_eq t b (i + 1)
      | closing => exact findOpener_eq t b i

end ModalEdit.Checked
