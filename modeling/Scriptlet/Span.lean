/-! # Spans

A span is a pair of byte offsets into a source text. Nothing forces the offsets to be ordered or
to lie inside the text: a span may come from another program.
-/

namespace Scriptlet

structure Span where
  start : Nat
  stop : Nat
  deriving DecidableEq, Repr, Inhabited

namespace Span

/-- The number of bytes covered; none if the offsets are inverted. -/
def length (s : Span) : Nat := s.stop - s.start

def isEmpty (s : Span) : Bool := decide (s.stop ≤ s.start)

def text (s : Span) : String := toString s.start ++ ".." ++ toString s.stop

def shift (s : Span) (bytes : Nat) : Span := ⟨s.start + bytes, s.stop + bytes⟩

theorem length_eq_zero_iff (s : Span) : s.length = 0 ↔ s.isEmpty = true := by
  simp only [length, isEmpty, decide_eq_true_eq]; omega

end Span

end Scriptlet
