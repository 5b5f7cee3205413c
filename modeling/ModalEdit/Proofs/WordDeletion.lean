import ModalEdit.Proofs.Charwise
import ModalEdit.Proofs.OperatorKeys
import ModalEdit.Proofs.Text.Breaks

/-! What an operator takes from the cursor to the next word. It keeps to the line of the cursor
unless the word, or the white space, there is the last of the line and what follows the line is not
a word behind blanks or an empty line with a break of its own. -/
namespace ModalEdit

namespace Text

/-! ### The next word, line by line -/

/-- Does only white space follow the word at `i`, or the white space there, on its line? -/
def endsLine (t : Text) (style : WordStyle) (i : Nat) : Bool :=
  (dropWord style (t.slice (Span.between i (t.lineEnd (t.lineOf i))))).all isWhiteSpace

/-- Is there a word behind blanks alone at the start of line `l`, or nothing but a break? -/
def holdsBack (t : Text) (l : Nat) : Bool :=
  (t.isEmptyLine l && decide (l < t.lastLine)) ||
    ((t.line l).dropWhile isBlank).head?.any (!isWhiteSpace ·)

variable {t : Text} {style : WordStyle}

/-- White space that no word stops. -/
def gapLength (row : Text) : Nat := (row.takeWhile isWhiteSpace).length

theorem isWhiteSpace_of_isBlank (blank : isBlank c = true) : isWhiteSpace c = true := by
  simp only [isBlank, Bool.or_eq_true, beq_iff_eq] at blank
  rcases blank with rfl | rfl
  · decide
  · decide

theorem break_not_inClass (visible : ¬isWhiteSpace c = true) :
    ¬inClass style (CharClass.of style c) '\n' = true := by
  have space : CharClass.of style '\n' = .space := if_pos (by decide)
  intro same
  have same := space.symm.trans (of_decide_eq_true same)
  rw [CharClass.of, if_neg visible] at same
  split at same <;> cases same

/-- No word goes on over the end of a line. -/
theorem dropWord_append {row rest : Text} (visible : row ≠ [])
    (boundary : ∀ c, rest.head? = some c → c = '\n') :
    dropWord style (row ++ rest) = dropWord style row ++ rest := by
  cases row with
  | nil => exact absurd rfl visible
  | cons c row =>
    by_cases space : isWhiteSpace c = true
    · simp only [List.cons_append, dropWord, space, if_true]
    · have stop : rest.dropWhile (inClass style (CharClass.of style c)) = rest := by
        cases rest with
        | nil => rfl
        | cons c' rest =>
          obtain rfl := boundary c' rfl
          exact List.dropWhile_cons_of_neg (break_not_inClass space)
      simp only [List.cons_append, dropWord, space, Bool.false_eq_true, if_false]
      rw [List.dropWhile_append, stop]
      split
      · rename_i nothing
        rw [List.isEmpty_iff.mp nothing, List.nil_append]
      · rfl

theorem dropGap_append {row : Text} (free : '\n' ∉ row) (rest : Text) :
    dropGap (row ++ rest) =
      if row.all isWhiteSpace then dropGap rest else row.dropWhile isWhiteSpace ++ rest := by
  induction row with
  | nil => rfl
  | cons c row ih =>
    obtain ⟨other, free⟩ := not_or.mp (fun member => free (List.mem_cons.mpr member))
    have visible : c ≠ '\n' := Ne.symm other
    by_cases space : isWhiteSpace c = true
    · simp only [List.cons_append, dropGap, visible, false_and, if_false, space, if_true, ih free,
        List.all_cons, Bool.true_and, List.dropWhile_cons_of_pos]
    · simp [dropGap, visible, space]

theorem dropWord_suffix (style : WordStyle) (t : Text) : dropWord style t <:+ t := by
  cases t with
  | nil => exact List.suffix_rfl
  | cons c rest =>
    simp only [dropWord]
    split
    · exact List.suffix_rfl
    · exact (List.dropWhile_suffix _).trans (List.suffix_cons c rest)

theorem dropGap_suffix (t : Text) : dropGap t <:+ t := by
  induction t with
  | nil => exact List.suffix_rfl
  | cons c rest ih =>
    simp only [dropGap]
    split
    · exact List.suffix_cons c rest
    · split
      · exact ih.trans (List.suffix_cons c rest)
      · exact List.suffix_rfl

/-- A word and the gap behind it are not both empty. -/
theorem length_dropGap_dropWord_lt (style : WordStyle) {row : Text} (some : row ≠ []) :
    ((dropWord style row).dropWhile isWhiteSpace).length < row.length := by
  cases row with
  | nil => exact absurd rfl some
  | cons c row =>
    by_cases space : isWhiteSpace c = true
    · simp only [dropWord, space, if_true, List.dropWhile_cons_of_pos, List.length_cons]
      exact Nat.lt_succ_of_le (List.dropWhile_suffix _).length_le
    · simp only [dropWord, space, List.length_cons]
      exact Nat.lt_succ_of_le (Nat.le_trans (List.dropWhile_suffix _).length_le
        (List.dropWhile_suffix _).length_le)

/-- Blanks are all that there is ahead of the first word of a line exactly if the first character
that is no blank begins a word. -/
theorem blank_gap_iff {row : Text} (word : row.all isWhiteSpace = false) :
    (row.takeWhile isWhiteSpace).all isBlank = (row.dropWhile isBlank).head?.any (!isWhiteSpace ·) := by
  induction row with
  | nil => cases word
  | cons c row ih =>
    by_cases space : isWhiteSpace c = true
    · have later : row.all isWhiteSpace = false := by simpa [space] using word
      by_cases blank : isBlank c = true
      · simpa [space, blank] using ih later
      · simp [space, blank]
    · have visible : isBlank c ≠ true := fun blank => space (isWhiteSpace_of_isBlank blank)
      simp [space, visible]

/-! ### Where the word motion leads -/

/-- A text from `i` on is the rest of a line and what follows the line. -/
theorem drop_eq_append (inside : i ≤ t.lineEnd l) :
    t.drop i = t.slice (Span.between i (t.lineEnd l)) ++ t.drop (t.lineEnd l) := by
  have parts := List.take_append_drop (t.lineEnd l - i) (t.drop i)
  rw [List.drop_drop, Nat.add_sub_cancel' inside] at parts
  rw [Span.between_of_le inside, slice, Span.length]
  exact parts.symm

theorem length_slice (h : i ≤ stop) (inside : stop ≤ t.length) :
    (t.slice (Span.between i stop)).length = stop - i := by
  rw [Span.between_of_le h, slice, Span.length, List.length_take, List.length_drop]
  exact Nat.min_eq_left (Nat.sub_le_sub_right inside i)

/-- The gap that begins line `m` and has no word on that line reaches over its end. -/
theorem dropGap_fromLine_blank (h : m ≤ t.lastLine) (blank : (t.line m).all isWhiteSpace = true) :
    dropGap (t.fromLine m) = [] ∨ t.lineEnd m < t.length - (dropGap (t.fromLine m)).length := by
  rcases Nat.eq_or_lt_of_le h with rfl | inside
  · left
    have gap := dropGap_append (t.break_not_mem_line t.lastLine) []
    rw [List.append_nil, if_pos blank] at gap
    rw [fromLine_lastLine, gap]
    rfl
  · right
    have next := t.lineStart_add_length (m + 1)
    have start := lineStart_succ inside
    have shorter : (dropGap ('\n' :: t.fromLine (m + 1))).length ≤ (t.fromLine (m + 1)).length := by
      simp only [dropGap]
      split
      · exact Nat.le_refl _
      · rw [if_pos (by decide)]
        exact (dropGap_suffix _).length_le
    rw [fromLine_eq_append inside, dropGap_append (t.break_not_mem_line m), if_pos blank]
    omega

/-- A word on line `m` ends the gap that begins the line. -/
theorem dropGap_fromLine_word (word : (t.line m).all isWhiteSpace = false) :
    t.length - (dropGap (t.fromLine m)).length = t.lineStart m + gapLength (t.line m) ∧
      gapLength (t.line m) < t.lineLength m := by
  obtain ⟨rest, whole⟩ : t.line m <+: t.fromLine m := List.takeWhile_prefix _
  have some : (t.line m).dropWhile isWhiteSpace ≠ [] := by
    intro nothing
    rw [List.all_eq_true.mpr (List.dropWhile_eq_nil_iff.mp nothing)] at word
    cases word
  have parts := congrArg List.length
    (List.takeWhile_append_dropWhile (p := isWhiteSpace) (l := t.line m))
  have length := t.lineStart_add_length m
  have visible := List.length_pos_iff.mpr some
  rw [List.length_append] at parts
  rw [← whole, List.length_append] at length
  rw [← whole, dropGap_append (t.break_not_mem_line m), word]
  simp only [Bool.false_eq_true, if_false, List.length_append, gapLength, lineLength]
  omega

section

variable {i : Nat} {c : Char} (there : t[i]? = some c) (visible : c ≠ '\n')

include there visible

theorem wordForward_eq (style : WordStyle) :
    t.wordForward style i = t.length -
      (if t.endsLine style i then dropGap (t.drop (t.lineEnd (t.lineOf i)))
        else (dropWord style (t.slice (Span.between i (t.lineEnd (t.lineOf i))))).dropWhile
          isWhiteSpace ++ t.drop (t.lineEnd (t.lineOf i))).length := by
  have inside := lt_lineEnd_of_visible there visible
  have length := length_slice (Nat.le_of_lt inside) (t.lineEnd_le_length _)
  have some : t.slice (Span.between i (t.lineEnd (t.lineOf i))) ≠ [] :=
    List.length_pos_iff.mp (by omega)
  have free : '\n' ∉ dropWord style (t.slice (Span.between i (t.lineEnd (t.lineOf i)))) := by
    have row : t.slice (Span.between i (t.lineEnd (t.lineOf i))) <:+: t.line (t.lineOf i) := by
      have part := slice_infix_line (t := t) (i := i) (n := t.lineEnd (t.lineOf i) - i) (by omega)
      rwa [Nat.add_sub_cancel' (Nat.le_of_lt inside)] at part
    intro member
    exact t.break_not_mem_line _ (row.subset ((dropWord_suffix style _).subset member))
  rw [wordForward, drop_eq_append (Nat.le_of_lt inside),
    dropWord_append some (t.drop_lineEnd_boundary _ (t.lineOf_le_lastLine i)),
    dropGap_append free, endsLine]

/-- A word that follows on the line is where the motion leads. -/
theorem wordForward_on_line (more : t.endsLine style i = false) :
    i < t.wordForward style i ∧ t.wordForward style i < t.lineEnd (t.lineOf i) := by
  have inside := lt_lineEnd_of_visible there visible
  have length := length_slice (Nat.le_of_lt inside) (t.lineEnd_le_length _)
  have stop := t.lineEnd_le_length (t.lineOf i)
  have less := length_dropGap_dropWord_lt style
    (List.length_pos_iff.mp (length ▸ Nat.sub_pos_of_lt inside))
  have some := List.length_pos_iff.mpr fun nothing =>
    absurd (List.all_eq_true.mpr (List.dropWhile_eq_nil_iff.mp nothing)) (ne_true_of_eq_false more)
  rw [wordForward_eq there visible, more]
  simp only [Bool.false_eq_true, if_false, List.length_append, List.length_drop]
  omega

end

theorem stopAtLineEnd_le_length (h : target ≤ t.length) :
    Motion.stopAtLineEnd t i target ≤ t.length := by
  rw [Motion.stopAtLineEnd]
  split
  · exact t.lineEnd_le_length _
  · exact h

/-- A target beyond the end of a line is not brought back to an earlier line. -/
theorem lineEnd_le_stopAtLineEnd (h : t.lineEnd m < target) (inside : target ≤ t.length) :
    t.lineEnd m ≤ Motion.stopAtLineEnd t i target := by
  have before : m < t.lastLine := by
    by_contra past
    rw [lineEnd_of_lastLine_le (Nat.le_of_not_lt past), lineEnd_lastLine] at h
    omega
  have later : m + 1 ≤ t.lineOf target := by
    have mono := t.lineOf_mono (i := t.lineStart (m + 1)) (j := target)
      (by rw [lineStart_succ before]; exact h)
    rwa [lineOf_lineStart before] at mono
  rw [Motion.stopAtLineEnd]
  split
  · exact t.lineEnd_mono (by omega)
  · exact Nat.le_of_lt h

/-- A target on the next line is brought back if there are only blanks ahead of it. -/
theorem stopAtLineEnd_next (inside : i < t.lineEnd (t.lineOf i)) (next : t.lineOf i < t.lastLine)
    (column : k ≤ t.lineLength (t.lineOf i + 1))
    (before : t.lineStart (t.lineOf i + 1) + k < t.length) :
    Motion.stopAtLineEnd t i (t.lineStart (t.lineOf i + 1) + k) =
      if ((t.line (t.lineOf i + 1)).take k).all isBlank then t.lineEnd (t.lineOf i)
      else t.lineStart (t.lineOf i + 1) + k := by
  have line : t.lineOf (t.lineStart (t.lineOf i + 1) + k) = t.lineOf i + 1 :=
    lineOf_eq next (Nat.le_add_right _ _) (Nat.add_le_add_left column _)
  have gap : t.slice (Span.between (t.lineStart (t.lineOf i + 1))
      (t.lineStart (t.lineOf i + 1) + k)) = (t.line (t.lineOf i + 1)).take k := by
    obtain ⟨rest, whole⟩ : t.line (t.lineOf i + 1) <+: t.fromLine (t.lineOf i + 1) :=
      List.takeWhile_prefix _
    rw [Span.between_of_le (Nat.le_add_right _ _), slice, drop_lineStart, Span.length, ← whole,
      Nat.add_sub_cancel_left, List.take_append_of_le_length column]
  simp only [Motion.stopAtLineEnd, line, gap, Nat.lt_succ_self, before, true_and, inside, and_true,
    Nat.add_sub_cancel]

/-- Only an empty line that is not the last begins with a break. -/
theorem head?_fromLine_ne (h : m ≤ t.lastLine) (other : ¬(t.isEmptyLine m = true ∧ m < t.lastLine)) :
    (t.fromLine m).head? ≠ some '\n' := by
  intro first
  obtain ⟨rest, whole⟩ := List.head?_eq_some_iff.mp first
  have empty : t.line m = [] := by rw [line, whole]; rfl
  rcases Nat.eq_or_lt_of_le h with rfl | inside
  · rw [fromLine_lastLine, empty] at first
    cases first
  · exact other ⟨List.isEmpty_iff.mpr empty, inside⟩

theorem holdsBack_of_blank (other : ¬(t.isEmptyLine m = true ∧ m < t.lastLine))
    (blank : (t.line m).all isWhiteSpace = true) : t.holdsBack m = false := by
  have none : ((t.line m).dropWhile isBlank).head?.any (!isWhiteSpace ·) = false := by
    cases first : ((t.line m).dropWhile isBlank).head? with
    | none => rfl
    | some c =>
      have member := (List.dropWhile_suffix _).subset (List.mem_of_head? first)
      simp [List.all_eq_true.mp blank c member]
  have break_ : (t.isEmptyLine m && decide (m < t.lastLine)) = false :=
    Bool.eq_false_iff.mpr fun both => other (by simpa using both)
  rw [holdsBack, none, break_]
  rfl

theorem holdsBack_of_word (word : (t.line m).all isWhiteSpace = false) :
    t.holdsBack m = ((t.line m).takeWhile isWhiteSpace).all isBlank := by
  have filled : t.isEmptyLine m = false := by
    rw [isEmptyLine]
    cases row : t.line m with
    | nil => rw [row] at word; cases word
    | cons => rfl
  rw [holdsBack, filled, Bool.false_and, Bool.false_or, blank_gap_iff word]

/-- After the last word of a line, what begins the next line decides. -/
theorem stopAtLineEnd_gap (inside : i < t.lineEnd (t.lineOf i)) (next : t.lineOf i < t.lastLine) :
    let target := t.length - (dropGap (t.drop (t.lineEnd (t.lineOf i)))).length
    if t.holdsBack (t.lineOf i + 1) then
      Motion.stopAtLineEnd t i target = t.lineEnd (t.lineOf i)
    else t.lineEnd (t.lineOf i) < Motion.stopAtLineEnd t i target := by
  intro target
  have line : t.lineOf i + 1 ≤ t.lastLine := next
  have start := lineStart_succ next
  have whole := t.lineStart_add_length (t.lineOf i + 1)
  have row := t.lineStart_le_lineEnd (t.lineOf i + 1)
  by_cases bare : t.isEmptyLine (t.lineOf i + 1) = true ∧ t.lineOf i + 1 < t.lastLine
  · have after := lineStart_succ bare.2
    have stop := Nat.le_trans (t.lineStart_le_lineEnd _) (t.lineEnd_le_length (t.lineOf i + 1 + 1))
    have first : (t.fromLine (t.lineOf i + 1)).head? = some '\n' := by
      rw [fromLine_eq_append bare.2, List.isEmpty_iff.mp bare.1]
      rfl
    have there : target = t.lineStart (t.lineOf i + 1) + 0 := by
      simp only [target, drop_lineEnd next, dropGap, first, and_self, if_true]
      omega
    have held : t.holdsBack (t.lineOf i + 1) = true := by
      simp only [holdsBack, bare.1, bare.2, decide_true, Bool.and_self, Bool.true_or]
    rw [if_pos held, there, stopAtLineEnd_next inside next (Nat.zero_le _) (by omega)]
    rfl
  · have first := head?_fromLine_ne line bare
    have gap : target = t.length - (dropGap (t.fromLine (t.lineOf i + 1))).length := by
      have break_ : isWhiteSpace '\n' = true := by decide
      simp only [target, drop_lineEnd next, dropGap, first, and_false, if_false, break_, if_true]
    cases blank : (t.line (t.lineOf i + 1)).all isWhiteSpace with
    | true =>
      rw [holdsBack_of_blank bare blank, gap]
      rw [if_neg Bool.false_ne_true]
      rcases dropGap_fromLine_blank line blank with nothing | beyond
      · have past : ¬t.length < t.length := Nat.lt_irrefl _
        simp only [nothing, List.length_nil, Nat.sub_zero, Motion.stopAtLineEnd, past, false_and,
          and_false, if_false]
        omega
      · have kept := lineEnd_le_stopAtLineEnd (i := i) beyond (Nat.sub_le _ _)
        omega
    | false =>
      obtain ⟨there, short⟩ := dropGap_fromLine_word blank
      have stop := t.lineEnd_le_length (t.lineOf i + 1)
      rw [holdsBack_of_word blank, gap, there,
        stopAtLineEnd_next inside next (Nat.le_of_lt short)
          (Nat.lt_of_lt_of_le (Nat.add_lt_add_left short _) stop),
        gapLength, ← List.prefix_iff_eq_take.mp (List.takeWhile_prefix _)]
      split
      · rfl
      · omega

/-- Where an operator on a word stops: behind the cursor, on its line or at the end of it exactly if
there is more on the line, or no further line, or one that holds the operator back. -/
theorem stopAtLineEnd_word (there : t[i]? = some c) (visible : c ≠ '\n') (style : WordStyle) :
    let stop := Motion.stopAtLineEnd t i (t.wordForward style i)
    i < stop ∧ stop ≤ t.length ∧
      (stop ≤ t.lineEnd (t.lineOf i) ↔ (t.endsLine style i = true →
        t.lineOf i < t.lastLine → t.holdsBack (t.lineOf i + 1) = true)) ∧
      (t.endsLine style i = true → stop ≤ t.lineEnd (t.lineOf i) →
        stop = t.lineEnd (t.lineOf i)) := by
  intro stop
  have inside := lt_lineEnd_of_visible there visible
  have short : stop ≤ t.length := stopAtLineEnd_le_length (Nat.sub_le _ _)
  cases ends : t.endsLine style i with
  | false =>
    obtain ⟨later, on⟩ := wordForward_on_line there visible ends
    have same : stop = t.wordForward style i := by
      have line : t.lineOf (t.wordForward style i) = t.lineOf i :=
        lineOf_eq (t.lineOf_le_lastLine i)
          (Nat.le_trans (t.lineStart_lineOf_le i) (Nat.le_of_lt later)) (Nat.le_of_lt on)
      simp only [stop, Motion.stopAtLineEnd, line, Nat.lt_irrefl, false_and, if_false]
    rw [same] at short ⊢
    exact ⟨later, short, ⟨fun _ => nofun, fun _ => Nat.le_of_lt on⟩, nofun⟩
  | true =>
    have target := wordForward_eq there visible style
    rw [ends, if_pos rfl] at target
    rcases Nat.eq_or_lt_of_le (t.lineOf_le_lastLine i) with last | next
    · have bottom : t.lineEnd (t.lineOf i) = t.length := by rw [last, lineEnd_lastLine]
      have same : stop = t.length := by
        have nothing : t.drop t.length = [] := List.drop_length
        rw [bottom, nothing] at target
        simp only [stop, target, dropGap, List.length_nil, Nat.sub_zero, Motion.stopAtLineEnd,
          Nat.lt_irrefl, false_and, and_false, if_false]
      rw [bottom] at inside
      rw [same, bottom]
      exact ⟨inside, Nat.le_refl _, ⟨fun _ _ before => by omega, fun _ => Nat.le_refl _⟩,
        fun _ _ => rfl⟩
    · have gap := stopAtLineEnd_gap inside next
      rw [← target] at gap
      cases held : t.holdsBack (t.lineOf i + 1) with
      | true =>
        rw [held, if_pos rfl] at gap
        have same : stop = t.lineEnd (t.lineOf i) := gap
        rw [same]
        exact ⟨inside, t.lineEnd_le_length _, ⟨fun _ _ _ => rfl, fun _ => Nat.le_refl _⟩,
          fun _ _ => rfl⟩
      | false =>
        rw [held, if_neg Bool.false_ne_true] at gap
        have beyond : t.lineEnd (t.lineOf i) < stop := gap
        refine ⟨by omega, short, ⟨fun on => absurd on (by omega), fun all => ?_⟩,
          fun _ on => absurd on (by omega)⟩
        cases all rfl next

/-- There is a break in what stands from `i` to a place exactly if the place is beyond the line. -/
theorem break_mem_slice_iff (h : i ≤ stop) (inside : stop ≤ t.length) :
    '\n' ∈ t.slice (Span.between i stop) ↔ t.lineEnd (t.lineOf i) < stop := by
  have start : i ≤ t.lineEnd (t.lineOf i) := le_lineEnd_lineOf (Nat.le_trans h inside)
  constructor
  · intro member
    by_contra short
    have part := slice_infix_line (t := t) (i := i) (n := stop - i) (by omega)
    rw [Nat.add_sub_cancel' h] at part
    exact t.break_not_mem_line _ (part.subset member)
  · intro beyond
    have next : t.lineOf i < t.lastLine := by
      refine Nat.lt_of_le_of_ne (t.lineOf_le_lastLine i) fun last => ?_
      rw [last, lineEnd_lastLine] at beyond
      omega
    have there := getElem?_lineEnd next
    apply List.mem_of_getElem? (i := t.lineEnd (t.lineOf i) - i)
    rw [Span.between_of_le h, slice, List.getElem?_take_of_lt (by simp only [Span.length]; omega),
      List.getElem?_drop, Nat.add_sub_cancel' start]
    exact there

end Text

namespace Workspace

/-- What a deletion or a change takes from a text goes to its register. -/
theorem operate_removes {w : Workspace} (normal : w.editor.mode = .normal) (removes : op ≠ .yank)
    (target : Target) (count : Nat) (register : Option RegisterName)
    (found : targetExtent? w.editor target count = some (.charwise s))
    (some : s.isEmpty = false) :
    (w.operate op target count register).1.editor.text = w.editor.text.remove s ∧
      (w.operate op target count register).1.registers =
        w.registers.write (w.editor.text.slice s) false register := by
  obtain ⟨text, registers⟩ := operate_charwise normal found rfl some op register
  exact ⟨text.trans (if_neg removes), registers⟩

/-- An operator on a word takes what there is up to where it stops. -/
theorem targetExtent?_word {e : Editor} (style : WordStyle) (inside : e.cursor < e.text.length)
    (later : e.cursor < Motion.stopAtLineEnd e.text e.cursor (e.text.wordForward style e.cursor))
    (short : Motion.stopAtLineEnd e.text e.cursor (e.text.wordForward style e.cursor) ≤
      e.text.length) :
    targetExtent? e (.motion (.wordForward style)) 1 = some (.charwise (Span.between e.cursor
      (Motion.stopAtLineEnd e.text e.cursor (e.text.wordForward style e.cursor)))) := by
  have cursor : min e.cursor e.text.length = e.cursor := Nat.min_eq_left (Nat.le_of_lt inside)
  have walked : Motion.walk (e.text.wordForward style) 1 e.cursor =
      e.text.wordForward style e.cursor := by
    simp only [Motion.walk]
    split
    · rename_i same
      exact same.symm
    · rfl
  simp only [targetExtent?, Motion.resolve, Motion.landing?, Motion.Context.operator, cursor,
    Nat.max_self, walked, if_true, Option.map_some, Motion.Landing.upTo, Nat.min_eq_left short,
    Extent.ofLanding, Nat.min_eq_left (Nat.le_of_lt later), Nat.max_eq_right (Nat.le_of_lt later)]

end Workspace

namespace Session

open Pending (Completes)

/-- Keys for an operator and for the next word apply the one to the other. -/
theorem word_operator_completes (style : WordStyle)
    (operator : k.plainChar? = some (Operator.toChar op))
    (word : k'.plainChar? = some (if style = .word then 'w' else 'W')) :
    Completes .normal {} [k, k'] (.edit (.operate op (.motion (.wordForward style)) none) 1) := by
  have named : (if style = .word then 'w' else 'W', Motion.wordForward style) ∈ motionChars := by
    cases style <;> decide
  exact motion_operator_completes operator word named (by cases style <;> decide)

/-- A deletion or a change of one word, begun on a character that is no break, removes what stands
from the cursor on, and puts it into the register. There is a break in it only if nothing but white
space follows on the line, the line is not the last, and the next line neither begins with a word
behind blanks nor is empty with a break of its own. If nothing follows and no break is removed, the
rest of the line is. -/
theorem word_deletion_keeps_break {s : Session} (normal : s.editor.mode = .normal)
    (b : RegisterBank) (removes : op ≠ .yank)
    (typed : Completes .normal s.pending keys
      (.edit (.operate op (.motion (.wordForward style)) register) 1))
    (there : s.editor.text[s.editor.cursor]? = some c) (visible : c ≠ '\n') :
    let t := s.editor.text
    let i := s.editor.cursor
    let l := t.lineOf i
    let after := (s.pressAll b keys).1
    ∃ removed rest, t = t.take i ++ removed ++ rest ∧ after.1.editor.text = t.take i ++ rest ∧
      removed ≠ [] ∧ after.2 = b.write removed false register ∧
      ('\n' ∉ removed ↔ (t.endsLine style i = true → l < t.lastLine →
        t.holdsBack (l + 1) = true)) ∧
      (t.endsLine style i = true → '\n' ∉ removed →
        removed = t.slice (Span.between i (t.lineEnd l))) := by
  intro t i l after
  have inside := (List.getElem?_eq_some_iff.mp there).1
  have stops := Text.stopAtLineEnd_word there visible style
  have found := Workspace.targetExtent?_word (e := s.editor) style inside stops.1 stops.2.1
  dsimp only at stops
  generalize Motion.stopAtLineEnd s.editor.text s.editor.cursor
    (s.editor.text.wordForward style s.editor.cursor) = stop at stops found
  obtain ⟨later, short, kept, whole⟩ : i < stop ∧ stop ≤ t.length ∧ _ ∧ _ := stops
  have range : Span.between i stop = ⟨i, stop, Nat.le_of_lt later⟩ :=
    Span.between_of_le (Nat.le_of_lt later)
  have some : (Span.between i stop).isEmpty = false := by
    rw [range]
    exact beq_eq_false_iff_ne.mpr (Nat.ne_of_lt later)
  have done : after =
      (s.dropPending.perform b (.edit (.operate op (.motion (.wordForward style)) register) 1)).1 :=
    congrArg Prod.fst (pressAll_of_completes b typed normal rfl)
  obtain ⟨text, registers⟩ := Workspace.operate_removes (w := s.workspace b) normal removes
    (.motion (.wordForward style)) 1 register found some
  have broken := Text.break_mem_slice_iff (t := t) (Nat.le_of_lt later) short
  refine ⟨t.slice (Span.between i stop), t.drop stop, ?_, ?_, ?_, ?_, ?_, ?_⟩
  · have parts := t.take_slice_drop (Span.between i stop)
    rw [range] at parts ⊢
    exact parts.symm
  · have left : t.remove (Span.between i stop) = t.take i ++ t.drop stop := by rw [range]; rfl
    rw [done, ← left]
    exact text
  · apply List.length_pos_iff.mp
    rw [Text.length_slice (Nat.le_of_lt later) short]
    exact Nat.sub_pos_of_lt later
  · rw [done]
    exact registers
  · rw [broken, Nat.not_lt]
    exact kept
  · intro ends free
    rw [whole ends (Nat.le_of_not_lt fun beyond => free (broken.mpr beyond))]

/-- The last word of a line, with an indented word below. -/
theorem word_deletion_keeps_break_and_indent :
    let s := ofText ['a', '\n', ' ', 'b'] .normal 0 100
    let command : Command := .edit (.operate .delete (.motion (.wordForward .word)) none) 1
    s.editor.mode = .normal ∧ Completes .normal s.pending [.char 'd', .char 'w'] command ∧
      s.editor.text[s.editor.cursor]? = some 'a' ∧
      s.editor.text.endsLine .word s.editor.cursor = true ∧ s.editor.text.holdsBack 1 = true ∧
      ∃ removed rest, s.editor.text = removed ++ rest ∧
        (s.pressAll {} [.char 'd', .char 'w']).1.1.editor.text = rest ∧ removed = ['a'] := by
  intro s command
  have typed : Completes .normal s.pending [.char 'd', .char 'w'] command :=
    word_operator_completes .word rfl rfl
  have ends : s.editor.text.endsLine .word s.editor.cursor = true := by decide
  have held : s.editor.text.holdsBack 1 = true := by decide
  have removes : Operator.delete ≠ .yank := nofun
  obtain ⟨removed, rest, parts, after, _, _, kept, whole⟩ :=
    word_deletion_keeps_break rfl {} removes typed (c := 'a') rfl (by decide)
  exact ⟨rfl, typed, rfl, ends, held, removed, rest, parts, after,
    whole ends (kept.mpr fun _ _ => held)⟩

/-- The last word of a text that ends in a break goes together with the break. -/
theorem word_deletion_takes_last_break :
    let s := ofText ['f', 'o', 'o', '\n'] .normal 0 100
    let after := (s.pressAll {} [.char 'd', .char 'w']).1
    s.Reachable ∧ s.editor.mode = .normal ∧ s.editor.text[s.editor.cursor]? = some 'f' ∧
      Completes .normal s.pending [.char 'd', .char 'w']
        (.edit (.operate .delete (.motion (.wordForward .word)) none) 1) ∧
      after.1.editor.text = [] ∧
      after.2.get .unnamed = some ⟨['f', 'o', 'o', '\n'], false⟩ := by
  intro s after
  have typed : Completes .normal s.pending [.char 'd', .char 'w']
      (.edit (.operate .delete (.motion (.wordForward .word)) none) 1) :=
    word_operator_completes .word rfl rfl
  exact ⟨.opened _ _ _ _, rfl, rfl, typed, by decide, by decide⟩

end Session

end ModalEdit
