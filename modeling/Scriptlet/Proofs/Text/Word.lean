import Mathlib.Data.List.Chain
import Scriptlet.Text.Word

/-! # Where words end

The tables list their ranges in order, so the search finds every code point of them. What may begin
a word may also continue it, and among the ASCII characters only letters, digits and the underscore
do.
-/

namespace Scriptlet.Text

variable {code : Nat} {ranges : List (Nat × Nat)} {c : Char}

/-- The range is not empty and ends before the other begins. -/
def Precedes (range other : Nat × Nat) : Prop := range.1 ≤ range.2 ∧ range.2 < other.1

instance : DecidableRel Precedes :=
  fun range other => inferInstanceAs (Decidable (range.1 ≤ range.2 ∧ range.2 < other.1))

instance : IsTrans (Nat × Nat) Precedes :=
  ⟨fun _ _ _ hab hbc => ⟨hab.1, by have := hab.2; have := hbc.1; have := hbc.2; omega⟩⟩

theorem inRanges_iff (h : ranges.Pairwise Precedes) :
    inRanges code ranges = true ↔ ∃ range ∈ ranges, range.1 ≤ code ∧ code ≤ range.2 := by
  induction ranges with
  | nil => simp [inRanges]
  | cons range ranges ih =>
    obtain ⟨hfirst, hothers⟩ := List.pairwise_cons.mp h
    rw [inRanges, List.exists_mem_cons_iff]
    split
    next hlow =>
      -- the ranges behind lie even higher
      have hnone : ¬∃ other ∈ ranges, other.1 ≤ code ∧ code ≤ other.2 := by
        rintro ⟨other, hmem, hle, -⟩
        obtain ⟨hrange, hlt⟩ := hfirst other hmem
        omega
      simp only [Bool.false_eq_true, false_iff, not_or]
      exact ⟨by omega, hnone⟩
    next hlow =>
      rw [Bool.or_eq_true, decide_eq_true_eq, ih hothers]
      exact or_congr_left (and_iff_right (Nat.not_lt.mp hlow)).symm

theorem pairwise_startRanges : startRanges.Pairwise Precedes :=
  List.isChain_iff_pairwise.mp (by decide +kernel)

theorem pairwise_joinRanges : joinRanges.Pairwise Precedes :=
  List.isChain_iff_pairwise.mp (by decide +kernel)

theorem isWordStart_iff : isWordStart c = true ↔
    c = '_' ∨ ∃ range ∈ startRanges, range.1 ≤ c.toNat ∧ c.toNat ≤ range.2 := by
  rw [isWordStart, Bool.or_eq_true, beq_iff_eq, inRanges_iff pairwise_startRanges]

theorem isWordContinue_iff : isWordContinue c = true ↔
    ∃ range ∈ startRanges ++ joinRanges, range.1 ≤ c.toNat ∧ c.toNat ≤ range.2 := by
  simp only [isWordContinue, Bool.or_eq_true, inRanges_iff pairwise_startRanges,
    inRanges_iff pairwise_joinRanges, List.mem_append, or_and_right, exists_or]

theorem isWordContinue_of_isWordStart (h : isWordStart c = true) : isWordContinue c = true := by
  rw [isWordStart, Bool.or_eq_true, beq_iff_eq] at h
  rcases h with rfl | h
  · decide +kernel
  · rw [isWordContinue, h, Bool.true_or]

theorem isWordContinue_ascii (h : c.toNat < 0x80) :
    isWordContinue c = (c.isAlphanum || c == '_') := by
  have hall : ∀ n < 0x80,
      isWordContinue (.ofNat n) = ((Char.ofNat n).isAlphanum || Char.ofNat n == '_') := by
    decide +kernel
  simpa using hall c.toNat h

end Scriptlet.Text
