import ModalEdit.Proofs.Text.Removal
import ModalEdit.Workspace.Editing

/-! The lines of a text into which another one is put a number of times. Copies that end in a break
go ahead of a line, and copies that begin with a break go behind one; in both cases no line of the
text around them changes. -/
namespace ModalEdit

namespace Workspace

theorem copies_succ (n : Nat) (t : Text) : copies (n + 1) t = t ++ copies n t := by
  rw [copies, List.replicate_succ, List.flatten_cons, ← copies]

theorem copies_succ' (n : Nat) (t : Text) : copies (n + 1) t = copies n t ++ t := by
  rw [copies, List.replicate_succ', List.flatten_append, ← copies, List.flatten_singleton]

theorem length_copies (n : Nat) (t : Text) : (copies n t).length = n * t.length := by
  rw [copies, List.length_flatten, List.map_replicate, List.sum_replicate_nat]

theorem copies_empty (n : Nat) : copies n [] = [] := by
  induction n with
  | zero => rfl
  | succ n ih => rw [copies_succ, ih, List.append_nil]

end Workspace

namespace Text

open Workspace (copies copies_succ copies_succ')

variable {t : Text}

/-- The lines of a text, each with a break, are the text with a break. -/
theorem flatMap_lines (t : Text) : t.lines.flatMap (· ++ ['\n']) = t ++ ['\n'] := by
  induction t with
  | nil => rfl
  | cons c t ih =>
    obtain ⟨first, rest, same⟩ := List.exists_cons_of_ne_nil (lines_ne_nil t)
    rw [same] at ih
    by_cases h : c = '\n' <;> simp_all [lines]

theorem lines_append_break_nil (u : Text) : lines (u ++ ['\n']) = u.lines ++ [[]] :=
  lines_append_break u []

theorem eq_append_break (ended : t.endsInBreak = true) : ∃ u, t = u ++ ['\n'] :=
  List.getLast?_eq_some_iff.mp (beq_iff_eq.mp ended)

/-! ### Copies that end in a break -/

theorem lines_copies_append (n : Nat) (u v : Text) :
    lines (copies n (u ++ ['\n']) ++ v) = (List.replicate n u.lines).flatten ++ v.lines := by
  induction n with
  | zero => rfl
  | succ n ih =>
    rw [copies_succ, List.append_assoc, List.append_assoc, List.singleton_append,
      lines_append_break, ih, List.replicate_succ, List.flatten_cons, List.append_assoc]

theorem copies_eq_append_break (some : 1 ≤ n) (u : Text) :
    ∃ v, copies n (u ++ ['\n']) = v ++ ['\n'] ∧ v.lines = (List.replicate n u.lines).flatten := by
  obtain ⟨n, rfl⟩ := Nat.exists_eq_add_of_le' some
  have last : copies (n + 1) (u ++ ['\n']) = (copies n (u ++ ['\n']) ++ u) ++ ['\n'] := by
    rw [copies_succ', List.append_assoc]
  refine ⟨_, last, ?_⟩
  rw [lines_copies_append, List.replicate_succ', List.flatten_append, List.flatten_singleton]

/-- Copies at the start of a line go ahead of it. -/
theorem lines_insert_copies (h : l ≤ t.lastLine) (n : Nat) (u : Text) :
    (t.insertAt (t.lineStart l) (copies n (u ++ ['\n']))).lines =
        t.lines.take l ++ (List.replicate n u.lines).flatten ++ t.lines.drop l ∧
      (t.insertAt (t.lineStart l) (copies n (u ++ ['\n']))).lineStart l = t.lineStart l := by
  rw [insertAt, List.append_assoc]
  constructor
  · rw [lines_take_lineStart_append h, lines_copies_append, drop_lineStart, lines_fromLine h,
      List.append_assoc]
  · exact lineStart_take_lineStart_append h _

/-- Behind the last line the break that ends the copies goes ahead of them. -/
theorem lines_append_copies (some : 1 ≤ n) (u : Text) :
    lines (t ++ '\n' :: (copies n (u ++ ['\n'])).dropLast) =
        t.lines ++ (List.replicate n u.lines).flatten ∧
      lineStart (t ++ '\n' :: (copies n (u ++ ['\n'])).dropLast) (t.lastLine + 1) =
        t.length + 1 := by
  obtain ⟨v, same, rows⟩ := copies_eq_append_break some u
  have lines_ : lines (t ++ '\n' :: v) = t.lines ++ v.lines := lines_append_break t v
  have inside : t.lastLine + 1 ≤ lastLine (t ++ '\n' :: v) := by
    have count : lastLine (t ++ '\n' :: v) = t.lastLine + (v.lastLine + 1) := by
      rw [lastLine, List.count_append, List.count_cons_self]
      rfl
    omega
  have rest : fromLine (t ++ '\n' :: v) (t.lastLine + 1) = v := by
    apply eq_of_lines_eq
    have ahead : t.lines.length = t.lastLine + 1 := t.length_lines
    rw [lines_fromLine inside, lines_, List.drop_left' ahead]
  rw [same, List.dropLast_concat]
  constructor
  · rw [lines_, rows]
  · rw [lineStart, rest, List.length_append, List.length_cons]
    omega

/-! ### Copies that begin with a break -/

theorem lines_append_copies_break (u : Text) (n : Nat) :
    lines (u ++ copies n ('\n' :: u)) = (List.replicate (n + 1) u.lines).flatten := by
  induction n with
  | zero => simp [copies]
  | succ n ih =>
    rw [copies_succ, List.cons_append, lines_append_break, ih]
    rfl

/-- What is put in at the end of a line does not run into the next one. -/
theorem lines_append_drop_lineEnd (h : l ≤ t.lastLine) (u : Text) :
    lines (u ++ t.drop (t.lineEnd l)) = u.lines ++ t.lines.drop (l + 1) := by
  rcases Nat.eq_or_lt_of_le h with rfl | inside
  · rw [drop_lineEnd_lastLine, lines_drop_past (Nat.lt_succ_self _), List.append_nil,
      List.append_nil]
  · rw [drop_lineEnd inside, lines_append_break, lines_fromLine inside]

end Text

end ModalEdit
