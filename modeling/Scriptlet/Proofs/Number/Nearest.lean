import Mathlib.Algebra.Order.Field.Rat
import Mathlib.Tactic.FieldSimp
import Mathlib.Tactic.Linarith
import Mathlib.Tactic.Ring
import Scriptlet.Number.Numeral

/-! # The nearest double

The magnitude bits of a double count upwards through the doubles. Rounding finds the count whose
double is nearest to a number, and of two that are equally near the even one. Infinity stands in
this for the power of two after the largest double.
-/

namespace Scriptlet

namespace Binary64

/-- The smallest double above zero is `2 ^ -unitExponent`. -/
def unitExponent : Nat := 1074

def unitsPerOne : Nat := 2 ^ unitExponent

/-- The number of the smallest units that magnitude bits stand for. -/
def units (m : Nat) : Nat :=
  if m < 2 ^ 52 then m else (2 ^ 52 + m % 2 ^ 52) * 2 ^ (m / 2 ^ 52 - 1)

def size (m : Nat) : ℚ := units m / unitsPerOne

/-- Of all magnitudes up to infinity this one is nearest to `x`, and no other is as near unless it
is even. -/
structure IsNearestMagnitude (m : Nat) (x : ℚ) : Prop where
  le_infinity : m ≤ infinityBits
  nearest : ∀ k ≤ infinityBits, |size m - x| ≤ |size k - x|
  even : ∀ k ≤ infinityBits, k ≠ m → |size k - x| = |size m - x| → Even m

/-- The double has the given sign and is nearest to `x` in magnitude. -/
def IsNearest (b : Binary64) (negative : Bool) (x : ℚ) : Prop :=
  b.isNegative = negative ∧ IsNearestMagnitude b.magnitude x

theorem unitsPerOne_pos : (0 : ℚ) < unitsPerOne := by
  rw [unitsPerOne]; positivity

theorem shiftLeft_eq_units (n : Nat) : n <<< 1074 = n * unitsPerOne :=
  Nat.shiftLeft_eq n unitExponent

/-! ## The order of magnitudes -/

/-- Steps of one size lead up to the end of a binade, the first step of the next one included. -/
theorem units_binade {binade m : Nat} (hm : m ≤ 2 ^ 53) (h : binade = 0 ∨ 2 ^ 52 ≤ m) :
    units (binade * 2 ^ 52 + m) = m * 2 ^ binade := by
  rcases Nat.lt_or_ge m (2 ^ 52) with hsmall | hlarge
  · obtain rfl : binade = 0 := h.resolve_right (by omega)
    rw [units, if_pos (by omega), Nat.zero_mul, Nat.zero_add, Nat.pow_zero, Nat.mul_one]
  · rw [units, if_neg (by omega)]
    rcases Nat.lt_or_eq_of_le hm with hm | rfl
    · rw [show (binade * 2 ^ 52 + m) % 2 ^ 52 = m - 2 ^ 52 by omega,
        show (binade * 2 ^ 52 + m) / 2 ^ 52 - 1 = binade by omega, Nat.add_sub_cancel' hlarge]
    · rw [show (binade * 2 ^ 52 + 2 ^ 53) % 2 ^ 52 = 0 by omega,
        show (binade * 2 ^ 52 + 2 ^ 53) / 2 ^ 52 - 1 = binade + 1 by omega]
      ring

theorem size_strictMono : StrictMono size := by
  refine strictMono_nat_of_lt_succ fun m => ?_
  have hunits : units m < units (m + 1) := by
    -- The binade of `m` has the step to `m + 1`.
    have hm : m = (m / 2 ^ 52 - 1) * 2 ^ 52 + (m - (m / 2 ^ 52 - 1) * 2 ^ 52) := by omega
    have hbound : m - (m / 2 ^ 52 - 1) * 2 ^ 52 < 2 ^ 53 := by omega
    have hbinade : m / 2 ^ 52 - 1 = 0 ∨ 2 ^ 52 ≤ m - (m / 2 ^ 52 - 1) * 2 ^ 52 := by omega
    generalize m / 2 ^ 52 - 1 = binade at *
    generalize m - binade * 2 ^ 52 = k at *
    rw [hm, Nat.add_assoc, units_binade hbound.le hbinade,
      units_binade hbound (hbinade.imp_right Nat.le_succ_of_le)]
    exact Nat.mul_lt_mul_of_pos_right k.lt_succ_self (Nat.two_pow_pos _)
  exact div_lt_div_of_pos_right (by exact_mod_cast hunits) unitsPerOne_pos

section Nearest

variable {l m : Nat} {x : ℚ}

theorem abs_size_sub_lt_of_lt (hm : m < l) (hl : size l ≤ x) : |size l - x| < |size m - x| := by
  have hlt := size_strictMono hm
  rw [abs_of_nonpos (by linarith), abs_of_neg (by linarith)]
  linarith

theorem abs_size_sub_lt_of_gt (hm : l < m) (hl : x ≤ size l) : |size l - x| < |size m - x| := by
  have hlt := size_strictMono hm
  rw [abs_of_nonneg (by linarith), abs_of_pos (by linarith)]
  linarith

theorem isNearestMagnitude_infinity (h : size infinityBits ≤ x) :
    IsNearestMagnitude infinityBits x := by
  constructor
  · exact le_rfl
  · intro k hk
    rcases Nat.lt_or_eq_of_le hk with hlt | rfl
    · exact (abs_size_sub_lt_of_lt hlt h).le
    · exact le_rfl
  · intro k hk hne heq
    exact absurd heq (abs_size_sub_lt_of_lt (Nat.lt_of_le_of_ne hk hne) h).ne'

/-- Nothing is nearer than both neighbours of a number, so one of them is nearest. -/
theorem isNearestMagnitude_of_between (hl : size l ≤ x) (hxl : x ≤ size (l + 1))
    (hm : m = l ∨ m = l + 1) (hinf : m ≤ infinityBits) (hbelow : |size m - x| ≤ |size l - x|)
    (habove : |size m - x| ≤ |size (l + 1) - x|)
    (htie : |size l - x| = |size (l + 1) - x| → Even m) : IsNearestMagnitude m x := by
  constructor
  · exact hinf
  · intro k _
    rcases Nat.lt_trichotomy k l with hlt | rfl | hgt
    · exact hbelow.trans (abs_size_sub_lt_of_lt hlt hl).le
    · exact hbelow
    · rcases Nat.lt_or_eq_of_le hgt with hgt | rfl
      · exact habove.trans (abs_size_sub_lt_of_gt hgt hxl).le
      · exact habove
  · intro k _ hne heq
    rcases Nat.lt_trichotomy k l with hlt | rfl | hgt
    · exact absurd heq (hbelow.trans_lt (abs_size_sub_lt_of_lt hlt hl)).ne'
    · obtain rfl := hm.resolve_left hne.symm
      exact htie heq
    · rcases Nat.lt_or_eq_of_le hgt with hgt | rfl
      · exact absurd heq (habove.trans_lt (abs_size_sub_lt_of_gt hgt hxl)).ne'
      · obtain rfl := hm.resolve_right hne.symm
        exact htie heq.symm

theorem isNearestMagnitude_of_distances {a b : Nat} {unit : ℚ} (hunit : 0 < unit)
    (hbelow : x - size l = a / unit) (habove : size (l + 1) - x = b / unit)
    (hm : m = l ∧ a ≤ b ∧ (a = b → Even l) ∨ m = l + 1 ∧ b ≤ a ∧ (a = b → Even (l + 1))) :
    IsNearestMagnitude (min m infinityBits) x := by
  have hlx : 0 ≤ x - size l := hbelow ▸ div_nonneg a.cast_nonneg hunit.le
  have hxl : 0 ≤ size (l + 1) - x := habove ▸ div_nonneg b.cast_nonneg hunit.le
  have hl : |size l - x| = a / unit := by rw [abs_sub_comm, abs_of_nonneg hlx, hbelow]
  have hsucc : |size (l + 1) - x| = b / unit := by rw [abs_of_nonneg hxl, habove]
  have hle (a b : Nat) : (a : ℚ) / unit ≤ b / unit ↔ a ≤ b := by
    rw [div_le_div_iff_of_pos_right hunit, Nat.cast_le]
  have heq (a b : Nat) : (a : ℚ) / unit = b / unit ↔ a = b := by
    rw [div_left_inj' hunit.ne', Nat.cast_inj]
  rcases Nat.lt_or_ge l infinityBits with hinf | hinf
  · obtain ⟨rfl, hab, htie⟩ | ⟨rfl, hab, htie⟩ := hm
    · rw [Nat.min_eq_left hinf.le]
      apply isNearestMagnitude_of_between (sub_nonneg.mp hlx) (sub_nonneg.mp hxl) (.inl rfl) hinf.le
      · exact le_rfl
      · rwa [hl, hsucc, hle]
      · rwa [hl, hsucc, heq]
    · rw [Nat.min_eq_left hinf]
      apply isNearestMagnitude_of_between (sub_nonneg.mp hlx) (sub_nonneg.mp hxl) (.inr rfl) hinf
      · rwa [hl, hsucc, hle]
      · exact le_rfl
      · rwa [hl, hsucc, heq]
  · have := size_strictMono.monotone hinf
    rw [Nat.min_eq_right (by omega)]
    exact isNearestMagnitude_infinity (by linarith)

/-- No number has two nearest magnitudes: between two even ones at the same distance lies an odd one
that is nearer. -/
theorem IsNearestMagnitude.unique (hl : IsNearestMagnitude l x) (hm : IsNearestMagnitude m x) :
    l = m := by
  wlog hlt : l < m generalizing l m
  · rcases Nat.lt_or_eq_of_le (Nat.le_of_not_lt hlt) with hgt | heq
    · exact (this hm hl hgt).symm
    · exact heq.symm
  have hdist : |size m - x| = |size l - x| :=
    le_antisymm (hm.nearest l hl.le_infinity) (hl.nearest m hm.le_infinity)
  have hleven := Nat.even_iff.mp (hl.even m hm.le_infinity hlt.ne' hdist)
  have hmeven := Nat.even_iff.mp (hm.even l hl.le_infinity hlt.ne hdist.symm)
  have hbelow := size_strictMono l.lt_succ_self
  have habove := size_strictMono (show l + 1 < m by omega)
  have hnearer := hl.nearest (l + 1) (by have := hm.le_infinity; omega)
  -- At one distance from `x` they lie on either side of it.
  have hsum : size m - x = -(size l - x) :=
    (abs_eq_abs.mp hdist).resolve_left fun h => by linarith
  rw [abs_of_nonpos (show size l - x ≤ 0 by linarith), le_abs] at hnearer
  rcases hnearer with h | h <;> linarith

end Nearest

/-! ## Rounding -/

theorem roundHalfEven_cases (num : Nat) {den : Nat} (hden : 0 < den) :
    roundHalfEven num den = num / den ∧ num % den ≤ den - num % den ∧
      (num % den = den - num % den → Even (num / den)) ∨
    roundHalfEven num den = num / den + 1 ∧ den - num % den ≤ num % den ∧
      (num % den = den - num % den → Even (num / den + 1)) := by
  have := Nat.mod_lt num hden
  simp only [roundHalfEven, Nat.even_iff]
  split_ifs <;> omega

/-- Counted in steps of its binade, a quotient has the digits of a double. -/
theorem quotient_in_binade (num den : Nat) :
    num / (den * 2 ^ ((num / den).log2 - 52)) < 2 ^ 53 ∧
      ((num / den).log2 - 52 = 0 ∨ 2 ^ 52 ≤ num / (den * 2 ^ ((num / den).log2 - 52))) := by
  rw [← Nat.div_div_eq_div_mul]
  generalize num / den = q
  constructor
  · rw [Nat.div_lt_iff_lt_mul (Nat.two_pow_pos _), ← Nat.pow_add]
    exact Nat.lt_log2_self.trans_le (Nat.pow_le_pow_right Nat.two_pos (by omega))
  · refine or_iff_not_imp_left.mpr fun hbinade => ?_
    have hq : q ≠ 0 := by rintro rfl; simp at hbinade
    rw [Nat.le_div_iff_mul_le (Nat.two_pow_pos _), ← Nat.pow_add,
      show 52 + (q.log2 - 52) = q.log2 by omega]
    exact Nat.log2_self_le hq

theorem size_binade {binade m : Nat} (hm : m ≤ 2 ^ 53) (h : binade = 0 ∨ 2 ^ 52 ≤ m) :
    size (binade * 2 ^ 52 + m) = (m * 2 ^ binade : ℕ) / unitsPerOne := by
  rw [size, units_binade hm h]

/-- A quotient, counted in steps of its binade, is rounded to one of the doubles around it. -/
theorem nearestBits_isNearest (num : Nat) {den : Nat} (hden : 0 < den) :
    IsNearestMagnitude (nearestBits num den) (num / den) := by
  obtain ⟨hlt, hge⟩ := quotient_in_binade (num * unitsPerOne) den
  simp only [nearestBits]
  rw [shiftLeft_eq_units, Nat.shiftLeft_eq, Nat.shiftLeft_eq]
  generalize (num * unitsPerOne / den).log2 - 52 = binade at hlt hge ⊢
  have hstep : 0 < den * 2 ^ binade := Nat.mul_pos hden (Nat.two_pow_pos _)
  have hround := roundHalfEven_cases (num * unitsPerOne) hstep
  have hsplit := Nat.div_add_mod (num * unitsPerOne) (den * 2 ^ binade)
  have hmod := Nat.mod_lt (num * unitsPerOne) hstep
  generalize num * unitsPerOne / (den * 2 ^ binade) = q at hlt hge hround hsplit
  generalize num * unitsPerOne % (den * 2 ^ binade) = r at hround hsplit hmod
  have hnum : (num : ℚ) * unitsPerOne = den * 2 ^ binade * q + r := by exact_mod_cast hsplit.symm
  have hden' : (0 : ℚ) < den := Nat.cast_pos.mpr hden
  have hunits := unitsPerOne_pos
  have hbelow : (num : ℚ) / den - size (binade * 2 ^ 52 + q) = r / (den * unitsPerOne) := by
    rw [size_binade hlt.le hge]
    push_cast
    field_simp
    linarith
  have habove : size (binade * 2 ^ 52 + q + 1) - num / den =
      (den * 2 ^ binade - r : ℕ) / (den * unitsPerOne) := by
    rw [Nat.add_assoc, size_binade hlt (hge.imp_right Nat.le_succ_of_le), Nat.cast_sub hmod.le]
    push_cast
    field_simp
    linarith
  have heven (k : Nat) : Even (binade * 2 ^ 52 + k) ↔ Even k := by
    rw [Nat.even_iff, Nat.even_iff]; omega
  refine isNearestMagnitude_of_distances (mul_pos hden' hunits) hbelow habove ?_
  rw [Nat.add_assoc, heven, heven]
  exact hround.imp (.imp_left (congrArg _)) (.imp_left (congrArg _))

/-! ## Doubles -/

theorem ext_magnitude {b c : Binary64} (hsign : b.isNegative = c.isNegative)
    (hmagnitude : b.magnitude = c.magnitude) : b = c := by
  obtain ⟨b⟩ := b
  obtain ⟨c⟩ := c
  have := b.toNat_lt
  have := c.toNat_lt
  have hsign := decide_eq_decide.mp hsign
  simp only [magnitude, signBit] at hsign hmagnitude
  rw [UInt64.toNat_inj.mp (show b.toNat = c.toNat by omega)]

theorem ofBits_sign_magnitude (negative : Bool) {m : Nat} (hm : m < signBit) :
    isNegative ⟨UInt64.ofNat ((if negative then signBit else 0) + m)⟩ = negative ∧
      magnitude ⟨UInt64.ofNat ((if negative then signBit else 0) + m)⟩ = m := by
  have hnat : (UInt64.ofNat ((if negative then signBit else 0) + m)).toNat =
      (if negative then signBit else 0) + m := by
    rw [UInt64.toNat_ofNat', Nat.mod_eq_of_lt]
    split <;> simp only [signBit] at * <;> omega
  rw [isNegative, magnitude, hnat]
  constructor
  · cases negative
    · simpa using hm
    · simp
  · split <;> simp only [signBit] at * <;> omega

theorem nearest_isNearest (negative : Bool) (num : Nat) {den : Nat} (hden : 0 < den) :
    (nearest negative num den).IsNearest negative (num / den) := by
  have hbits := nearestBits_isNearest num hden
  have hlt : nearestBits num den < signBit := hbits.le_infinity.trans_lt (by decide)
  obtain ⟨hsign, hmagnitude⟩ := ofBits_sign_magnitude negative hlt
  constructor
  · exact hsign
  · rwa [nearest, hmagnitude]

theorem nearest_eq_iff {b : Binary64} {negative : Bool} {num den : Nat} (hden : 0 < den) :
    nearest negative num den = b ↔ b.IsNearest negative (num / den) := by
  have hnearest := nearest_isNearest negative num hden
  constructor
  · rintro rfl
    exact hnearest
  · rintro ⟨hsign, hmagnitude⟩
    exact ext_magnitude (hnearest.1.trans hsign.symm) (hnearest.2.unique hmagnitude)

end Binary64

namespace Numeral

def size (n : Numeral) : ℚ := n.digits * 10 ^ (n.exponent - n.places)

theorem nearest_eq_iff {n : Numeral} {b : Binary64} :
    n.nearest = b ↔ b.IsNearest n.negative n.size := by
  have hsize : n.size = (n.digits * Nat.pow 10 (n.exponent - n.places).toNat : ℕ) /
      (Nat.pow 10 (-(n.exponent - n.places)).toNat : ℕ) := by
    rw [size]
    generalize n.exponent - n.places = scale
    obtain ⟨k, rfl | rfl⟩ := scale.eq_nat_or_neg <;> simp [div_eq_mul_inv]
  rw [hsize]
  exact Binary64.nearest_eq_iff (Nat.pow_pos (by decide))

end Numeral

end Scriptlet
