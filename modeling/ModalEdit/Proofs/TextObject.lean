import ModalEdit.Proofs.Text.Lines
import ModalEdit.Proofs.Text.Offsets
import ModalEdit.TextObject

/-! Text objects lie within the text. -/
namespace ModalEdit

namespace Text

theorem unmatched_lt {t : Text} (h : unmatched goal nest depth t = some d) : d < t.length := by
  induction t generalizing depth d with
  | nil => simp [unmatched] at h
  | cons c t ih =>
    have shift : ∀ depth, (unmatched goal nest depth t).map (· + 1) = some d →
        d < (c :: t).length := by
      intro depth h
      obtain ⟨inner, found, rfl⟩ := Option.map_eq_some_iff.mp h
      exact Nat.succ_lt_succ (ih found)
    unfold unmatched at h
    split at h
    · split at h
      · obtain rfl := Option.some.inj h
        exact Nat.succ_pos _
      · exact shift _ h
    · split at h <;> exact shift _ h

theorem findCloser_lt {t : Text} (h : t.findCloser b i = some j) : j < t.length := by
  obtain ⟨d, found, rfl⟩ := Option.map_eq_some_iff.mp h
  have := unmatched_lt found
  rw [List.length_drop] at this
  omega

theorem findOpener_lt {t : Text} (h : t.findOpener b i = some j) : j < t.length := by
  obtain ⟨d, found, rfl⟩ := Option.map_eq_some_iff.mp h
  have := unmatched_lt found
  rw [List.length_reverse, List.length_take] at this
  omega

theorem outerOpener_lt {t : Text} (inside : o < t.length) (h : t.outerOpener b n o = some j) :
    j < t.length := by
  induction n generalizing o with
  | zero => exact Option.some.inj h ▸ inside
  | succ n ih =>
    obtain ⟨outer, found, rest⟩ := Option.bind_eq_some_iff.mp h
    exact ih (findOpener_lt found) rest

theorem bracketPair_lt {t : Text} (inside : i < t.length)
    (h : t.bracketPair b i count = some (o, c)) : o < t.length ∧ c < t.length := by
  have outward : ∀ innermost < t.length,
      ((t.outerOpener b (count - 1) innermost).bind fun o =>
        (t.findCloser b (o + 1)).bind fun c => some (o, c)) = some (o, c) →
      o < t.length ∧ c < t.length := by
    intro innermost within h
    obtain ⟨opener, found, rest⟩ := Option.bind_eq_some_iff.mp h
    obtain ⟨closer, last, same⟩ := Option.bind_eq_some_iff.mp rest
    cases same
    exact ⟨outerOpener_lt within found, findCloser_lt last⟩
  unfold bracketPair at h
  split at h
  · exact outward i inside h
  · obtain ⟨innermost, found, rest⟩ := Option.bind_eq_some_iff.mp h
    exact outward innermost (findOpener_lt found) rest

theorem quotePair_lt {t : Text} (h : t.quotePair q i = some (o, c)) :
    o < t.length ∧ c < t.length := by
  unfold quotePair at h
  dsimp only at h
  split at h
  · obtain ⟨opener, last, rest⟩ := Option.bind_eq_some_iff.mp h
    obtain ⟨closer, first, same⟩ := Option.map_eq_some_iff.mp rest
    cases same
    exact ⟨offsetsOf_lt (List.mem_filter.mp (List.mem_of_getLast? last)).1,
      offsetsOf_lt (List.mem_filter.mp (List.mem_of_head? first)).1⟩
  · split at h
    · rename_i after opener closer rest same
      have all : ∀ j ∈ opener :: closer :: rest, j < t.length := by
        intro j member
        rw [← same] at member
        exact offsetsOf_lt (List.mem_filter.mp member).1
      split at h
      · cases h
        exact ⟨all _ (by simp), all _ (by simp)⟩
      · cases h
    · cases h

theorem runLength_le (style : WordStyle) (t : Text) : t.runLength style ≤ t.length := by
  cases t with
  | nil => exact Nat.le_refl _
  | cons c t => exact (List.takeWhile_prefix _).length_le

theorem runStop_le (row : Text) (style : WordStyle) (h : k ≤ row.length) :
    row.runStop style k ≤ row.length := by
  have := runLength_le style (row.drop k)
  rw [List.length_drop] at this
  simp only [runStop]
  omega

theorem wordColumns_le (row : Text) (style : WordStyle) (inner : Bool) (h : k < row.length) :
    (row.wordColumns style k inner).1 ≤ row.length ∧
      (row.wordColumns style k inner).2 ≤ row.length := by
  have start : row.runStart style k ≤ row.length := Nat.le_trans (Nat.sub_le _ _) h
  have stop := row.runStop_le style (Nat.le_of_lt h)
  simp only [wordColumns]
  split
  · exact ⟨start, stop⟩
  · split
    · exact ⟨start, row.runStop_le style stop⟩
    · exact ⟨Nat.le_trans (Nat.sub_le _ _) start, stop⟩

theorem wordSpan?_stop_le {t : Text} {inner : Bool} (h : t.wordSpan? style i inner = some s) :
    s.stop ≤ t.length := by
  unfold wordSpan? at h
  dsimp only at h
  split at h
  · cases h
  · rename_i row
    have some_char : 0 < (t.line (t.lineOf i)).length := by
      simpa [List.length_pos_iff] using row
    have column : min (t.column i) ((t.line (t.lineOf i)).length - 1) <
        (t.line (t.lineOf i)).length := by omega
    obtain ⟨first, last⟩ := (t.line (t.lineOf i)).wordColumns_le style inner column
    obtain rfl := Option.some.inj h
    have whole := t.lineEnd_le_length (t.lineOf i)
    unfold lineEnd lineLength at whole
    dsimp only [Span.between]
    omega

end Text

theorem TextObject.delimited_stop_le (inner : Bool) (opener : o < n) (closer : c < n) :
    (delimited inner (o, c)).stop ≤ n := by
  cases inner <;> simp [delimited, Span.between] <;> omega

theorem Span.eq_of_ends {s s' : Span} (ends : (s.start, s.stop) = (s'.start, s'.stop)) : s = s' := by
  cases s
  cases s'
  cases ends
  rfl

theorem TextObject.delimited_ends (inner : Bool) (before : o < c) :
    ((delimited inner (o, c)).start, (delimited inner (o, c)).stop) =
      if inner then (o + 1, c) else (o, c + 1) := by
  cases inner <;> simp [delimited, Span.between] <;> omega

theorem TextObject.resolve_stop_le {o : TextObject} {t : Text}
    (h : o.resolve t i count = some s) : s.stop ≤ t.length := by
  unfold resolve at h
  split at h
  · cases h
  · rename_i inside
    split at h
    · obtain ⟨⟨opener, closer⟩, found, rfl⟩ := Option.map_eq_some_iff.mp h
      obtain ⟨first, last⟩ := Text.quotePair_lt found
      exact delimited_stop_le _ first last
    · obtain ⟨⟨opener, closer⟩, found, rfl⟩ := Option.map_eq_some_iff.mp h
      obtain ⟨first, last⟩ := Text.bracketPair_lt (by omega) found
      exact delimited_stop_le _ first last
    · exact Text.wordSpan?_stop_le h

end ModalEdit
