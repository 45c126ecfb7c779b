/-! # Binary floating point

A double is its 64 bits: sign, eleven exponent bits, 52 fraction bits. Read as a number, the lower
63 bits grow with the magnitude, and `2 ^ 52 * k + m` is `m` units of size `2 ^ (k - 1074)`
whenever `m ≤ 2 ^ 53` and either `k = 0` or `2 ^ 52 ≤ m`. Rounding uses this: it finds the unit,
rounds the quotient to a whole number of units, and a carry into the next binade needs no special
case.
-/

namespace Scriptlet

structure Binary64 where
  bits : UInt64
  deriving DecidableEq, Repr, Inhabited

/-- The nearest whole number to `num / den`; a half goes to the even neighbour. -/
def roundHalfEven (num den : Nat) : Nat :=
  let q := num / den
  let r := 2 * (num % den)
  if r < den then q else if den < r then q + 1 else if q % 2 = 0 then q else q + 1

namespace Binary64

def signBit : Nat := 0x8000000000000000

/-- The magnitude bits of infinity; a NaN has larger ones. -/
def infinityBits : Nat := 0x7FF0000000000000

def magnitude (x : Binary64) : Nat := x.bits.toNat % signBit

def isNegative (x : Binary64) : Bool := decide (signBit ≤ x.bits.toNat)

def isFinite (x : Binary64) : Bool := decide (x.magnitude < infinityBits)

def isNaN (x : Binary64) : Bool := decide (infinityBits < x.magnitude)

def isZero (x : Binary64) : Bool := decide (x.magnitude = 0)

/-- Equality of values: the two zeros are equal, and a NaN equals nothing. -/
protected def beq (x y : Binary64) : Bool :=
  !x.isNaN && !y.isNaN && (decide (x = y) || (x.isZero && y.isZero))

instance : BEq Binary64 := ⟨Binary64.beq⟩

/-- The magnitude bits of the double nearest to `num / den`, infinity if that is nearest. -/
def nearestBits (num den : Nat) : Nat :=
  let scaled := num <<< 1074
  let binade := (scaled / den).log2 - 52
  min ((binade <<< 52) + roundHalfEven scaled (den <<< binade)) infinityBits

/-- The double nearest to `num / den` with the given sign, ties to even. -/
def nearest (negative : Bool) (num den : Nat) : Binary64 :=
  ⟨UInt64.ofNat ((if negative then signBit else 0) + nearestBits num den)⟩

example : nearest false 1 1 = ⟨0x3FF0000000000000⟩ := by decide +kernel

example : nearest true 0 1 = ⟨0x8000000000000000⟩ := by decide +kernel

end Binary64

end Scriptlet
