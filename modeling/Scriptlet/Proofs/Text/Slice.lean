import Scriptlet.Text.Slice

/-! # Where a text is sliced

A span slices a text just where the text falls into three parts of which the span covers the
middle one: what stands before it has as many bytes as the span's start tells, and it has as many
bytes as the span.
-/

namespace Scriptlet

namespace Text

theorem isValid_iff_exists_append {source : String} {i : Nat} :
    String.Pos.Raw.isValid source ⟨i⟩ = true ↔
      ∃ before after, source = before ++ after ∧ i = before.utf8ByteSize := by
  rw [String.Pos.Raw.isValid_eq_true_iff, String.Pos.Raw.isValid_iff_exists_append]
  simp only [String.Pos.Raw.ext_iff, String.byteIdx_rawEndPos]

/-- Of two ways to cut a text, the one that cuts later continues the other. -/
theorem exists_append_of_append_eq {a b c d : String} (h : a ++ b = c ++ d)
    (hle : a.utf8ByteSize ≤ c.utf8ByteSize) : ∃ middle, c = a ++ middle ∧ b = middle ++ d := by
  have hlist : a.toList ++ b.toList = c.toList ++ d.toList := by
    rw [← String.toList_append, h, String.toList_append]
  rcases List.append_eq_append_iff.mp hlist with ⟨m, hc, hb⟩ | ⟨m, ha, hd⟩
  · refine ⟨String.ofList m, ?_, ?_⟩
    · rw [← String.toList_inj, String.toList_append, hc, String.toList_ofList]
    · rw [← String.toList_inj, String.toList_append, hb, String.toList_ofList]
  · have ha : a = c ++ String.ofList m := by
      rw [← String.toList_inj, String.toList_append, ha, String.toList_ofList]
    have hm : String.ofList m = "" := by
      rw [ha, String.utf8ByteSize_append] at hle
      exact String.utf8ByteSize_eq_zero_iff.mp (by omega)
    have hac : a = c := by rw [ha, hm, String.append_empty]
    subst hac
    refine ⟨"", String.append_empty.symm, ?_⟩
    rw [String.empty_append]
    exact String.append_right_inj a |>.mp h

end Text

namespace Span

theorem slice?_append (before text after : String) :
    slice? ⟨before.utf8ByteSize, (before ++ text).utf8ByteSize⟩ (before ++ text ++ after) =
      some text := by
  have hstart : String.Pos.Raw.isValid (before ++ text ++ after) ⟨before.utf8ByteSize⟩ = true :=
    Text.isValid_iff_exists_append.mpr ⟨before, text ++ after, String.append_assoc, rfl⟩
  have hstop :
      String.Pos.Raw.isValid (before ++ text ++ after) ⟨(before ++ text).utf8ByteSize⟩ = true :=
    Text.isValid_iff_exists_append.mpr ⟨before ++ text, after, rfl, rfl⟩
  have hle : before.utf8ByteSize ≤ (before ++ text).utf8ByteSize := by
    rw [String.utf8ByteSize_append]; exact Nat.le_add_right _ _
  rw [slice?, dif_pos ⟨hle, hstart, hstop⟩, Option.some.injEq, ← String.toByteArray_inj,
    String.toByteArray_extract, String.toByteArray_append, ByteArray.extract_append]
  have hrest : after.toByteArray.extract (before.utf8ByteSize - (before ++ text).toByteArray.size)
      ((before ++ text).utf8ByteSize - (before ++ text).toByteArray.size) = ByteArray.empty := by
    rw [String.size_toByteArray, Nat.sub_self, ByteArray.extract_eq_empty_iff]
    exact Nat.le_trans (Nat.min_le_left _ _) (Nat.zero_le _)
  rw [hrest, ByteArray.append_empty, String.toByteArray_append]
  refine ByteArray.extract_append_eq_right (String.size_toByteArray ..).symm ?_
  simp

/-- The slice of a text at a span, if there is one, is what the span covers of it. -/
theorem slice?_eq_some_iff {span : Span} {source text : String} :
    span.slice? source = some text ↔ ∃ before after, source = before ++ text ++ after ∧
      span = ⟨before.utf8ByteSize, (before ++ text).utf8ByteSize⟩ := by
  constructor
  · intro h
    have hs := h
    rw [slice?] at hs
    split at hs
    next hvalid =>
      obtain ⟨hle, hstart, hstop⟩ := hvalid
      obtain ⟨a, b, hab, ha⟩ := Text.isValid_iff_exists_append.mp hstart
      obtain ⟨c, after, hcd, hc⟩ := Text.isValid_iff_exists_append.mp hstop
      rw [ha, hc] at hle
      obtain ⟨middle, rfl, -⟩ := Text.exists_append_of_append_eq (hab.symm.trans hcd) hle
      have hspan : span = ⟨a.utf8ByteSize, (a ++ middle).utf8ByteSize⟩ := by
        cases span; simp_all
      rw [hspan, hcd, slice?_append] at h
      cases h
      exact ⟨a, after, hcd, hspan⟩
    next => cases hs
  · rintro ⟨before, after, rfl, rfl⟩
    exact slice?_append before text after

theorem slice?_append_right {span : Span} {source text : String}
    (h : span.slice? source = some text) (rest : String) :
    span.slice? (source ++ rest) = some text := by
  obtain ⟨before, after, rfl, hspan⟩ := slice?_eq_some_iff.mp h
  exact slice?_eq_some_iff.mpr ⟨before, after ++ rest, String.append_assoc, hspan⟩

theorem shift_inj {span span' : Span} {bytes : Nat} :
    span.shift bytes = span'.shift bytes ↔ span = span' := by
  obtain ⟨start, stop⟩ := span
  obtain ⟨start', stop'⟩ := span'
  simp [shift]

theorem slice?_shift (span : Span) (front source : String) :
    (span.shift front.utf8ByteSize).slice? (front ++ source) = span.slice? source := by
  have hmove (before text : String) :
      (⟨(front ++ before).utf8ByteSize, (front ++ before ++ text).utf8ByteSize⟩ : Span) =
        shift ⟨before.utf8ByteSize, (before ++ text).utf8ByteSize⟩ front.utf8ByteSize := by
    simp [shift, String.utf8ByteSize_append]; omega
  refine Option.ext fun text => ?_
  rw [slice?_eq_some_iff, slice?_eq_some_iff]
  constructor
  · rintro ⟨before, after, hsource, hspan⟩
    have hle : front.utf8ByteSize ≤ before.utf8ByteSize := by
      have := congrArg Span.start hspan
      simp only [shift] at this; omega
    rw [String.append_assoc] at hsource
    obtain ⟨before, rfl, rfl⟩ := Text.exists_append_of_append_eq hsource hle
    exact ⟨before, after, String.append_assoc.symm, shift_inj.mp (hspan.trans (hmove _ _))⟩
  · rintro ⟨before, after, rfl, rfl⟩
    exact ⟨front ++ before, after, by simp only [String.append_assoc], (hmove _ _).symm⟩

end Span

end Scriptlet
