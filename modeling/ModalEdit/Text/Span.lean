/-! Half-open ranges of offsets. The ends are in order by construction, so a range has a
length and can be cut out of a text without a check. -/
namespace ModalEdit

/-- The offsets from `start` up to, and without, `stop`. -/
structure Span where
  start : Nat
  stop : Nat
  start_le_stop : start ≤ stop := by omega
deriving DecidableEq, Repr

namespace Span

/-- The range between two offsets given in either order. -/
def between (a b : Nat) : Span where
  start := min a b
  stop := max a b

def emptyAt (i : Nat) : Span where
  start := i
  stop := i

def length (s : Span) : Nat := s.stop - s.start

def isEmpty (s : Span) : Bool := s.start == s.stop

def clamp (s : Span) (limit : Nat) : Span where
  start := min s.start limit
  stop := min s.stop limit
  start_le_stop := by have := s.start_le_stop; omega

theorem between_of_le (h : a ≤ b) : between a b = ⟨a, b, h⟩ := by
  simp [between, Nat.min_eq_left h, Nat.max_eq_right h]

theorem start_add_length (s : Span) : s.start + s.length = s.stop :=
  Nat.add_sub_cancel' s.start_le_stop

end Span

end ModalEdit
