import Scriptlet.Proofs.Number.Spelling

/-! # Finite doubles

The number that a double stands for, and rounding among the finite doubles only. A number below the
overflow bound is nearest to a finite double, any other to infinity: the bound lies half-way
between the largest double and the power of two after it, and this tie goes to infinity, which is
even.
-/

namespace Scriptlet

namespace Binary64

/-- The number that the sign, the exponent and the fraction of a double stand for. -/
def toRat (b : Binary64) : ℚ :=
  let exponent : ℕ := b.magnitude / 2 ^ 52
  let fraction := ((b.magnitude % 2 ^ 52 : ℕ) : ℚ) / 2 ^ 52
  signed b.isNegative
    (if exponent = 0 then fraction * 2 ^ (-1022 : ℤ)
      else (1 + fraction) * 2 ^ ((exponent : ℤ) - 1023))

/-- The double is finite, has the given sign, and of all finite doubles it is nearest to `x`. No
other number is as near, unless the double is even. -/
structure Rounds (b : Binary64) (negative : Bool) (x : ℚ) : Prop where
  isFinite : b.isFinite = true
  sign : b.isNegative = negative
  nearest : ∀ c : Binary64, c.isFinite = true → |b.toRat - x| ≤ |c.toRat - x|
  even : ∀ c : Binary64, c.isFinite = true → c.toRat ≠ b.toRat →
    |c.toRat - x| = |b.toRat - x| → Even b.magnitude

/-- The least size that rounds to infinity. -/
def overflow : ℚ := 2 ^ 1024 - 2 ^ 970

/-! ## The number of a double -/

theorem unitsPerOne_eq : (unitsPerOne : ℚ) = 2 ^ 1074 := by
  rw [unitsPerOne, unitExponent, Nat.cast_pow, Nat.cast_two]

theorem two_zpow_eq (k : ℕ) : (2 : ℚ) ^ ((k : ℤ) - 1022) = 2 ^ 52 * 2 ^ k / unitsPerOne := by
  rw [unitsPerOne_eq, ← zpow_natCast 2 k, ← zpow_natCast 2 52, ← zpow_natCast 2 1074,
    ← zpow_add₀ two_ne_zero, ← zpow_sub₀ two_ne_zero]
  congr 1
  push_cast
  ring

theorem toRat_eq (b : Binary64) : b.toRat = signed b.isNegative (size b.magnitude) := by
  simp only [toRat, size, units]
  generalize b.magnitude = m
  congr 1
  by_cases hm : m < 2 ^ 52
  · have hpow := two_zpow_eq 0
    simp only [Nat.cast_zero, zero_sub, pow_zero, mul_one] at hpow
    rw [if_pos (by omega), if_pos hm, Nat.mod_eq_of_lt hm, hpow, div_mul_div_cancel₀ (by simp)]
  · obtain ⟨k, hk⟩ : ∃ k, m / 2 ^ 52 = k + 1 := ⟨m / 2 ^ 52 - 1, by omega⟩
    have hexponent : ((k + 1 : ℕ) : ℤ) - 1023 = k - 1022 := by push_cast; ring
    rw [hk, if_neg k.succ_ne_zero, if_neg hm, Nat.add_sub_cancel, hexponent, two_zpow_eq k]
    push_cast
    generalize (unitsPerOne : ℚ) = unit
    field_simp
    norm_num

theorem size_nonneg (m : Nat) : 0 ≤ size m :=
  div_nonneg (Nat.cast_nonneg _) unitsPerOne_pos.le

theorem size_zero : size 0 = 0 := by
  rw [size, units, if_pos (by decide), Nat.cast_zero, zero_div]

theorem isFinite_iff {b : Binary64} : b.isFinite = true ↔ b.magnitude < infinityBits :=
  decide_eq_true_iff

theorem exists_of_sign_magnitude (negative : Bool) {m : Nat} (hm : m < infinityBits) :
    ∃ b : Binary64, b.isFinite = true ∧ b.isNegative = negative ∧ b.magnitude = m := by
  obtain ⟨hsign, hmagnitude⟩ := ofBits_sign_magnitude negative (hm.trans (by decide))
  exact ⟨_, isFinite_iff.mpr (by rwa [hmagnitude]), hsign, hmagnitude⟩

/-! ## The overflow bound -/

theorem size_infinity : size infinityBits = 2 ^ 1024 := by
  have hbits : infinityBits = 2046 * 2 ^ 52 + 2 ^ 52 := by decide
  rw [hbits, size_binade (by decide) (.inr le_rfl), unitsPerOne_eq, Nat.cast_mul, Nat.cast_pow,
    Nat.cast_pow, Nat.cast_two, ← pow_add, div_eq_iff (by positivity), ← pow_add]

theorem size_largest : size (infinityBits - 1) = 2 ^ 1024 - 2 ^ 971 := by
  have hbits : infinityBits - 1 = 2045 * 2 ^ 52 + (2 ^ 53 - 1) := by decide
  rw [hbits, size_binade (by decide) (.inr (by decide)), unitsPerOne_eq,
    div_eq_iff (by positivity), Nat.cast_mul, Nat.cast_sub (by decide), Nat.cast_pow, Nat.cast_pow,
    Nat.cast_two, Nat.cast_one, sub_mul, sub_mul, one_mul, ← pow_add, ← pow_add, ← pow_add]

theorem overflow_eq : overflow = 2 ^ 970 * (2 ^ 54 - 1) := by
  rw [overflow, mul_sub, mul_one, ← pow_add]

theorem one_le_overflow : 1 ≤ overflow := by
  rw [overflow_eq]
  exact one_le_mul_of_one_le_of_one_le (one_le_pow₀ (by norm_num)) (by norm_num)

/-- The bound is as far from the largest double as from infinity. -/
theorem overflow_sub_largest :
    overflow - size (infinityBits - 1) = size infinityBits - overflow := by
  rw [size_infinity, size_largest, overflow, sub_sub_sub_cancel_left, sub_sub_cancel,
    sub_eq_iff_eq_add, ← mul_two, ← pow_succ]

variable {m : Nat} {x : ℚ} {b : Binary64} {negative : Bool}

theorem size_largest_lt_overflow : size (infinityBits - 1) < overflow := by
  have hlt : size (infinityBits - 1) < size infinityBits := size_strictMono (by decide)
  have hbound := overflow_sub_largest
  linarith

theorem overflow_lt_size_infinity : overflow < size infinityBits := by
  have hlt := size_largest_lt_overflow
  have hbound := overflow_sub_largest
  linarith

theorem abs_largest_sub_lt (hx : x < overflow) :
    |size (infinityBits - 1) - x| < |size infinityBits - x| := by
  have hbound := overflow_sub_largest
  have hlargest := size_largest_lt_overflow
  have hinfinity := overflow_lt_size_infinity
  rw [abs_of_pos (show 0 < size infinityBits - x by linarith), abs_sub_lt_iff]
  constructor <;> linarith

theorem abs_infinity_sub_le (hx : overflow ≤ x) :
    |size infinityBits - x| ≤ |size (infinityBits - 1) - x| := by
  have hbound := overflow_sub_largest
  have hlargest := size_largest_lt_overflow
  have hinfinity := overflow_lt_size_infinity
  rw [abs_of_neg (show size (infinityBits - 1) - x < 0 by linarith), abs_sub_le_iff]
  constructor <;> linarith

theorem IsNearestMagnitude.lt_infinity_iff (h : IsNearestMagnitude m x) :
    m < infinityBits ↔ x < overflow := by
  constructor
  · intro hm
    by_contra hx
    have hx := not_lt.mp hx
    have hle := abs_infinity_sub_le hx
    have hinfinity := h.nearest infinityBits le_rfl
    rcases Nat.lt_or_eq_of_le (Nat.le_pred_of_lt hm) with hlt | rfl
    · have hnearer := abs_size_sub_lt_of_lt hlt (size_largest_lt_overflow.le.trans hx)
      exact absurd (hinfinity.trans hle) (not_le.mpr hnearer)
    · -- The largest double is odd, so it would lose this tie.
      have heven := h.even infinityBits le_rfl (by decide) (le_antisymm hle hinfinity)
      exact absurd heven (by decide)
  · intro hx
    apply lt_of_le_of_ne h.le_infinity
    rintro rfl
    exact absurd (h.nearest (infinityBits - 1) (by decide)) (not_le.mpr (abs_largest_sub_lt hx))

/-! ## Rounding to a finite double -/

theorem IsNearestMagnitude.size_eq_zero (h : IsNearestMagnitude m x) (hx : 0 ≤ x)
    (heq : size m + x = |size m - x|) : size m = 0 := by
  have hzero := h.nearest 0 (Nat.zero_le _)
  rw [size_zero, zero_sub, abs_neg, abs_of_nonneg hx, ← heq] at hzero
  exact le_antisymm (by linarith) (size_nonneg m)

/-- Below the bound the nearest of all magnitudes makes the nearest of the finite doubles. -/
theorem IsNearest.rounds (h : b.IsNearest negative x) (hx : 0 ≤ x) (hov : x < overflow) :
    b.Rounds negative (signed negative x) := by
  obtain ⟨hsign, hm⟩ := h
  have hb : |b.toRat - signed negative x| = |size b.magnitude - x| := by
    rw [toRat_eq, hsign, abs_signed_sub]
  have hc (c : Binary64) : |size c.magnitude - x| ≤ |c.toRat - signed negative x| := by
    rw [toRat_eq]
    exact abs_sub_le_abs_signed_sub (size_nonneg _) hx _ _
  constructor
  · exact isFinite_iff.mpr (hm.lt_infinity_iff.mpr hov)
  · exact hsign
  · intro c hfinite
    rw [hb]
    exact (hm.nearest _ (isFinite_iff.mp hfinite).le).trans (hc c)
  · intro c hfinite hne heq
    have hle := (isFinite_iff.mp hfinite).le
    rw [hb] at heq
    by_cases hmagnitude : c.magnitude = b.magnitude
    · -- The other double of this magnitude is as near only to zero, where both stand for zero.
      have hopposite : c.isNegative = !negative := by
        refine (Bool.eq_or_eq_not _ _).resolve_left fun h => hne ?_
        rw [toRat_eq, toRat_eq, hmagnitude, h, hsign]
      rw [toRat_eq, hmagnitude, hopposite, abs_signed_not_sub (size_nonneg _) hx] at heq
      have hsize := hm.size_eq_zero hx heq
      exact absurd (by rw [toRat_eq, toRat_eq, hmagnitude, hsize, signed_zero, signed_zero]) hne
    · exact hm.even _ hle hmagnitude (le_antisymm (heq ▸ hc c) (hm.nearest _ hle))

/-- The nearest of the finite doubles is nearest below the bound, where infinity is no nearer. -/
theorem Rounds.isNearest (h : b.Rounds negative (signed negative x)) (hov : x < overflow) :
    b.IsNearest negative x := by
  have hsigned (c : Binary64) (hc : c.isNegative = negative) :
      |c.toRat - signed negative x| = |size c.magnitude - x| := by
    rw [toRat_eq, hc, abs_signed_sub]
  -- A magnitude below infinity has a finite double of this sign to compare with.
  have hfinite : ∀ k < infinityBits, |size b.magnitude - x| ≤ |size k - x| := by
    intro k hk
    obtain ⟨c, hc, hsign, rfl⟩ := exists_of_sign_magnitude negative hk
    rw [← hsigned c hsign, ← hsigned b h.sign]
    exact h.nearest c hc
  have hinfinity := (hfinite (infinityBits - 1) (by decide)).trans_lt (abs_largest_sub_lt hov)
  constructor
  · exact h.sign
  constructor
  · exact (isFinite_iff.mp h.isFinite).le
  · intro k hk
    rcases Nat.lt_or_eq_of_le hk with hlt | rfl
    · exact hfinite k hlt
    · exact hinfinity.le
  · intro k hk hne heq
    have hlt : k < infinityBits := by
      apply Nat.lt_of_le_of_ne hk
      rintro rfl
      exact hinfinity.ne' heq
    obtain ⟨c, hc, hsign, rfl⟩ := exists_of_sign_magnitude negative hlt
    rw [← hsigned c hsign, ← hsigned b h.sign] at heq
    refine h.even c hc (fun hsame => hne (size_strictMono.injective ?_)) heq
    rw [toRat_eq, toRat_eq, hsign, h.sign, ← sub_eq_zero, ← abs_eq_zero, abs_signed_sub] at hsame
    exact sub_eq_zero.mp (abs_eq_zero.mp hsame)

end Binary64

/-! ## Reading a finite double -/

namespace Numeral

open Binary64 (overflow)

section Finite

variable {text : String} {b : Binary64} {negative : Bool} {m : ℚ} {e : ℤ}

theorem size_nonneg (n : Numeral) : 0 ≤ n.size := by
  rw [size]
  exact mul_nonneg n.digits.cast_nonneg (zpow_nonneg (by norm_num) _)

theorem readFinite?_eq_some_iff_of_read? {n : Numeral} (h : read? text.toList = some n) :
    readFinite? text = some b ↔
      |signed n.negative n.size| < overflow ∧ b.Rounds n.negative (signed n.negative n.size) := by
  have hsize := n.size_nonneg
  have hread : readFinite? text = some b ↔ n.nearest = b ∧ b.isFinite = true := by
    rw [readFinite?, h, Option.map_some, Option.filter_eq_some_iff, Option.some_inj]
  rw [hread, nearest_eq_iff, abs_signed, abs_of_nonneg hsize]
  constructor
  · rintro ⟨hnearest, hfinite⟩
    rw [Binary64.isFinite_iff, hnearest.2.lt_infinity_iff] at hfinite
    exact ⟨hfinite, hnearest.rounds hsize hfinite⟩
  · rintro ⟨hov, hrounds⟩
    exact ⟨hrounds.isNearest hov, hrounds.isFinite⟩

theorem readFinite?_eq_some_iff (hlimit : WithinLimit text.toList)
    (h : Spells text.toList negative m e) :
    readFinite? text = some b ↔ |signed negative (m * 10 ^ e)| < overflow ∧
      b.Rounds negative (signed negative (m * 10 ^ e)) := by
  obtain ⟨n, hread, rfl, hsize⟩ := exists_read?_of_spells h (hlimit _ _ _ h)
  rw [← hsize]
  exact readFinite?_eq_some_iff_of_read? hread

theorem exists_rounding (hlimit : WithinLimit text.toList)
    (h : Spells text.toList negative m e) (hov : |signed negative (m * 10 ^ e)| < overflow) :
    ∃ b, readFinite? text = some b := by
  obtain ⟨n, hread, rfl, hsize⟩ := exists_read?_of_spells h (hlimit _ _ _ h)
  rw [← hsize, abs_signed, abs_of_nonneg n.size_nonneg] at hov
  have hnearest : n.nearest.IsNearest n.negative n.size := nearest_eq_iff.mp rfl
  have hrounds := hnearest.rounds n.size_nonneg hov
  refine ⟨n.nearest, (readFinite?_eq_some_iff_of_read? hread).mpr ⟨?_, hrounds⟩⟩
  rwa [abs_signed, abs_of_nonneg n.size_nonneg]

/-- Whatever spells no number below the bound is not read. -/
theorem readFinite?_eq_none (hlimit : WithinLimit text.toList)
    (h : ∀ negative m e, Spells text.toList negative m e →
      overflow ≤ |signed negative (m * 10 ^ e)|) : readFinite? text = none := by
  cases hread : read? text.toList with
  | none => rw [readFinite?, hread]; rfl
  | some n =>
    obtain ⟨negative, m, e, hspells⟩ := exists_spells_of_read? hread
    rw [Option.eq_none_iff_forall_ne_some]
    intro b hb
    exact absurd ((readFinite?_eq_some_iff hlimit hspells).mp hb).1 (not_lt.mpr (h _ _ _ hspells))

end Finite

end Numeral

end Scriptlet
