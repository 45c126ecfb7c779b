import Scriptlet.Lowering.Walk
import Scriptlet.Proofs.Text.Slice

/-! # Character boundaries

A boundary of a text is an offset at which a character begins, or the end of the text. A span cuts
a slice out of a text just if its ends are boundaries, in this order; then the slice is what stands
between them, byte for byte. Slices that meet at a boundary make up one slice.
-/

namespace Scriptlet

namespace Text

/-- The offsets at which the characters begin, the first of them at `i`, and the end. -/
def boundariesFrom (i : Nat) : List Char → List Nat
  | [] => [i]
  | c :: cs => i :: boundariesFrom (i + c.utf8Size) cs

def IsBoundary (source : String) (i : Nat) : Prop := i ∈ boundariesFrom 0 source.toList

instance (source : String) : DecidablePred (IsBoundary source) :=
  fun i => inferInstanceAs (Decidable (i ∈ boundariesFrom 0 source.toList))

theorem mem_boundariesFrom {i j : Nat} {cs : List Char} :
    j ∈ boundariesFrom i cs ↔
      ∃ before after, cs = before ++ after ∧ j = i + (String.ofList before).utf8ByteSize := by
  induction cs generalizing i with
  | nil => simp [boundariesFrom, eq_comm]
  | cons c cs ih =>
    rw [boundariesFrom, List.mem_cons, ih]
    constructor
    · rintro (rfl | ⟨before, after, rfl, rfl⟩)
      · exact ⟨[], c :: cs, rfl, by simp⟩
      · exact ⟨c :: before, after, rfl, by simp [String.ofList_cons, Nat.add_assoc]⟩
    · rintro ⟨before, after, h, rfl⟩
      cases before with
      | nil => simp
      | cons b before =>
        obtain ⟨rfl, rfl⟩ := List.cons.inj h
        exact .inr ⟨before, after, rfl, by simp [String.ofList_cons, Nat.add_assoc]⟩

theorem isBoundary_iff {source : String} {i : Nat} :
    IsBoundary source i ↔
      ∃ before after, source = before ++ after ∧ i = before.utf8ByteSize := by
  rw [IsBoundary, mem_boundariesFrom]
  constructor
  · rintro ⟨before, after, hsource, hi⟩
    refine ⟨String.ofList before, String.ofList after, ?_, by simpa using hi⟩
    rw [← String.ofList_append, ← hsource, String.ofList_toList]
  · rintro ⟨before, after, rfl, rfl⟩
    exact ⟨before.toList, after.toList, String.toList_append, by simp⟩

theorem isValid_iff_isBoundary {source : String} {i : Nat} :
    String.Pos.Raw.isValid source ⟨i⟩ = true ↔ IsBoundary source i := by
  rw [isValid_iff_exists_append, isBoundary_iff]

theorem IsBoundary.le {source : String} {i : Nat} (h : IsBoundary source i) :
    i ≤ source.utf8ByteSize := by
  obtain ⟨before, after, rfl, rfl⟩ := isBoundary_iff.mp h
  rw [String.utf8ByteSize_append]
  exact Nat.le_add_right _ _

theorem append_inj_of_size {a b c d : String} (h : a ++ b = c ++ d)
    (hsize : a.utf8ByteSize = c.utf8ByteSize) : a = c ∧ b = d := by
  obtain ⟨middle, rfl, rfl⟩ := exists_append_of_append_eq h (Nat.le_of_eq hsize)
  have hmiddle : middle = "" := by
    rw [String.utf8ByteSize_append] at hsize
    exact String.utf8ByteSize_eq_zero_iff.mp (by omega)
  subst hmiddle
  simp

end Text

namespace Span

open Text (IsBoundary)

variable {span : Span} {source text x y : String} {a b c : Nat}

/-- The span is ordered and lies inside the text, with both ends between characters. -/
def Cuts (span : Span) (source : String) : Prop :=
  span.start ≤ span.stop ∧ span.stop ≤ source.utf8ByteSize ∧
    IsBoundary source span.start ∧ IsBoundary source span.stop

instance (span : Span) (source : String) : Decidable (span.Cuts source) :=
  inferInstanceAs (Decidable (_ ∧ _ ∧ IsBoundary source span.start ∧ IsBoundary source span.stop))

theorem exists_slice?_iff : (∃ text, span.slice? source = some text) ↔ span.Cuts source := by
  simp only [slice?, Cuts, Text.isValid_iff_isBoundary]
  split
  next h => simpa using ⟨h.1, h.2.2.le, h.2⟩
  next h =>
    simp only [reduceCtorEq, exists_false, false_iff]
    rintro ⟨hle, -, hboundaries⟩
    exact h ⟨hle, hboundaries⟩

example : Cuts ⟨2, 2⟩ "é;" ∧ ¬ Cuts ⟨1, 3⟩ "é;" ∧ ¬ Cuts ⟨3, 2⟩ "é;" ∧ ¬ Cuts ⟨2, 4⟩ "é;" := by
  decide +kernel

/-- The text is what the span covers in the source, byte for byte. -/
structure Covers (span : Span) (source text : String) : Prop where
  slice : span.slice? source = some text
  bytes : text.toByteArray = source.toByteArray.extract span.start span.stop
  valid : (source.toByteArray.extract span.start span.stop).IsValidUTF8
  size : text.utf8ByteSize = span.length
  empty_iff : text = "" ↔ span.isEmpty = true
  /-- The text before, this text, and the text after make up the source. -/
  parts : ∃ before after, slice? ⟨0, span.start⟩ source = some before ∧
    slice? ⟨span.stop, source.utf8ByteSize⟩ source = some after ∧ source = before ++ text ++ after

theorem toByteArray_of_slice? (h : span.slice? source = some text) :
    text.toByteArray = source.toByteArray.extract span.start span.stop := by
  rw [slice?] at h
  split at h
  next =>
    cases h
    exact String.toByteArray_extract
  next => cases h

theorem covers_of_slice? (h : span.slice? source = some text) : span.Covers source text := by
  have hbytes := toByteArray_of_slice? h
  obtain ⟨before, after, rfl, rfl⟩ := slice?_eq_some_iff.mp h
  have hsize : text.utf8ByteSize =
      length ⟨before.utf8ByteSize, (before ++ text).utf8ByteSize⟩ := by
    simp [length, String.utf8ByteSize_append]
  constructor
  · exact h
  · exact hbytes
  · exact hbytes ▸ text.isValidUTF8
  · exact hsize
  · rw [← length_eq_zero_iff, ← hsize, String.utf8ByteSize_eq_zero_iff]
  · refine ⟨before, after, ?_, ?_, rfl⟩
    · simpa [String.append_assoc] using slice?_append "" before (text ++ after)
    · simpa using slice?_append (before ++ text) after ""

theorem slice?_join (hx : slice? ⟨a, b⟩ source = some x) (hy : slice? ⟨b, c⟩ source = some y) :
    slice? ⟨a, c⟩ source = some (x ++ y) := by
  obtain ⟨before, rest, hsource, hab⟩ := slice?_eq_some_iff.mp hx
  obtain ⟨front, after, hsource', hbc⟩ := slice?_eq_some_iff.mp hy
  simp only [mk.injEq] at hab hbc
  obtain ⟨rfl, hrest⟩ := Text.append_inj_of_size (a := before ++ x) (c := front)
    (by rw [← hsource, hsource', String.append_assoc]) (hab.2.symm.trans hbc.1)
  apply slice?_eq_some_iff.mpr
  refine ⟨before, after, ?_, ?_⟩
  · simpa [String.append_assoc] using hsource'
  · simpa [String.append_assoc] using And.intro hab.1 hbc.2

theorem exists_slice?_left_iff_right (h : Cuts ⟨a, c⟩ source) (hab : a ≤ b) (hbc : b ≤ c) :
    Cuts ⟨a, b⟩ source ↔ Cuts ⟨b, c⟩ source := by
  obtain ⟨-, hsize, ha, hc⟩ := h
  constructor
  · rintro ⟨-, -, -, hb⟩
    exact ⟨hbc, hsize, hb, hc⟩
  · rintro ⟨-, -, hb, -⟩
    exact ⟨hab, hb.le, ha, hb⟩

end Span

namespace Walk

/-- The text of a node is the slice at its span if the span cuts one out of the source; otherwise
the walk refuses the span. Neighbouring slices make up one slice, and a slice falls into two at any
offset at which one of the two can be cut. -/
theorem text_exact (κ : Type) [SyntaxCursor κ] (source : String) :
    (∀ w : Walker κ,
      let span := SyntaxCursor.span w.cursor
      (span.Cuts source → ∃ t, run (text source) w = (.ok t, w) ∧ span.Covers source t) ∧
      (¬ span.Cuts source → run (text source) w = (.error (.outOfBounds span), w))) ∧
    ∀ a b c : Nat, a ≤ b → b ≤ c →
      (∀ x y, Span.slice? ⟨a, b⟩ source = some x → Span.slice? ⟨b, c⟩ source = some y →
        Span.slice? ⟨a, c⟩ source = some (x ++ y)) ∧
      ((∃ z, Span.slice? ⟨a, c⟩ source = some z) →
        ((∃ x, Span.slice? ⟨a, b⟩ source = some x) ↔ ∃ y, Span.slice? ⟨b, c⟩ source = some y)) := by
  constructor
  · intro w span
    rw [run_text]
    constructor
    · intro h
      obtain ⟨t, ht⟩ := Span.exists_slice?_iff.mpr h
      exact ⟨t, by rw [ht], Span.covers_of_slice? ht⟩
    · intro h
      cases ht : span.slice? source with
      | some t => exact absurd (Span.exists_slice?_iff.mp ⟨t, ht⟩) h
      | none => rfl
  · intro a b c hab hbc
    constructor
    · intro x y hx hy
      exact Span.slice?_join hx hy
    · simp only [Span.exists_slice?_iff]
      intro h
      exact Span.exists_slice?_left_iff_right h hab hbc

end Walk

end Scriptlet
