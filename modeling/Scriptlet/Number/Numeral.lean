import Scriptlet.Number.Binary64

/-! # Numerals

A numeral is a decimal number as written: an optional sign, digits with at most one point among or
around them, and an optional exponent. Its value is exact; `Numeral.nearest` rounds it once.
-/

namespace Scriptlet

structure Numeral where
  negative : Bool
  /-- All digits before the exponent read as one number. -/
  digits : Nat
  /-- How many of those digits stand after the point. -/
  places : Nat
  exponent : Int
  deriving DecidableEq, Repr, Inhabited

namespace Numeral

/-- The double nearest to the numeral's value; the sign of zero is kept. -/
def nearest (n : Numeral) : Binary64 :=
  let scale := n.exponent - n.places
  Binary64.nearest n.negative (n.digits * Nat.pow 10 scale.toNat) (Nat.pow 10 (-scale).toNat)

def digitValue (c : Char) : Nat := c.toNat - '0'.toNat

/-- Continue reading digits of a number from its value so far. -/
def foldDigits (value : Nat) (cs : List Char) : Nat :=
  cs.foldl (fun v c => 10 * v + digitValue c) value

/-- An exponent stops growing once it is past every finite double. -/
def exponentLimit : Nat := 65536

def foldExponent (cs : List Char) : Nat :=
  cs.foldl (fun v c => if v < exponentLimit then 10 * v + digitValue c else v) 0

def splitSign : List Char → Bool × List Char
  | '-' :: cs => (true, cs)
  | '+' :: cs => (false, cs)
  | cs => (false, cs)

/-- The exponent part up to the end of the text; no text means zero. -/
def readExponent? : List Char → Option Int
  | [] => some 0
  | c :: cs =>
    if c = 'e' ∨ c = 'E' then
      let (negative, ds) := splitSign cs
      if ds.isEmpty || !ds.all Char.isDigit then none
      else some (if negative then -(foldExponent ds : Int) else foldExponent ds)
    else none

/-- Read a whole text as a numeral. Blanks, separators and other radices are refused. -/
def read? (cs : List Char) : Option Numeral :=
  let (negative, cs) := splitSign cs
  let whole := cs.takeWhile Char.isDigit
  let rest := cs.dropWhile Char.isDigit
  let (places, rest) :=
    match rest with
    | '.' :: rest => (rest.takeWhile Char.isDigit, rest.dropWhile Char.isDigit)
    | rest => ([], rest)
  if whole.isEmpty && places.isEmpty then none
  else (readExponent? rest).map
    (⟨negative, foldDigits (foldDigits 0 whole) places, places.length, ·⟩)

def readFinite? (text : String) : Option Binary64 :=
  ((read? text.toList).map nearest).filter Binary64.isFinite

end Numeral

end Scriptlet
