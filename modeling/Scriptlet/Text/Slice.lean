import Scriptlet.Span

/-! # Slices of a text

The slice of a text at a span exists when the span is ordered, lies inside the text, and cuts no
character in two.
-/

namespace Scriptlet

/-- The part of `source` that `span` covers, if both of its ends are character boundaries. -/
def Span.slice? (span : Span) (source : String) : Option String :=
  if h : span.start ≤ span.stop ∧ String.Pos.Raw.isValid source ⟨span.start⟩ = true ∧
      String.Pos.Raw.isValid source ⟨span.stop⟩ = true then
    some (source.extract ⟨⟨span.start⟩, String.Pos.Raw.isValid_eq_true_iff.1 h.2.1⟩
      ⟨⟨span.stop⟩, String.Pos.Raw.isValid_eq_true_iff.1 h.2.2⟩)
  else none

end Scriptlet
