import Scriptlet.Number.Numeral

/-! # JSON values

A number written as a whole number, other than `-0`, is an integer; every other number is kept as
the numeral that was written. The members of an object keep their order.
-/

namespace Scriptlet

inductive Json
  | null
  | bool (value : Bool)
  | integer (value : Int)
  | decimal (value : Numeral)
  | string (value : String)
  | array (items : List Json)
  | object (members : List (String × Json))
  deriving Inhabited

namespace Json

/-- The value of the first member with this key. -/
def member? {α : Type} (key : String) (members : List (String × α)) : Option α :=
  (members.find? (·.1 == key)).map (·.2)

def field? (key : String) : Json → Option Json
  | object members => member? key members
  | _ => none

def bool? : Json → Option Bool
  | bool value => some value
  | _ => none

def string? : Json → Option String
  | string value => some value
  | _ => none

/-- A whole number that fits in 64 bits without a sign. -/
def index? : Json → Option Nat
  | integer value => if 0 ≤ value ∧ value < 0x10000000000000000 then some value.toNat else none
  | _ => none

/-- The double nearest to a number. -/
def number? : Json → Option Binary64
  | integer value => some (Binary64.nearest (decide (value < 0)) value.natAbs 1)
  | decimal value => some value.nearest
  | _ => none

def items? : Json → Option (List Json)
  | array items => some items
  | _ => none

def ofIndex (n : Nat) : Json := integer n

def ofString? : Option String → Json
  | some text => string text
  | none => null

end Json

end Scriptlet
