import Scriptlet.Json.Value

/-! # Writing JSON

A value is written without blanks. Control characters and line separators are escaped.
-/

namespace Scriptlet.Json

namespace Printer

def hexDigit (n : Nat) : Char := Char.ofNat (if n < 10 then 0x30 + n else 0x57 + n)

/-- The last `width` hexadecimal digits of a number. -/
def hex (width n : Nat) : String :=
  String.ofList ((List.range width).map fun i => hexDigit (n / Nat.pow 16 (width - 1 - i) % 16))

def needsEscape (c : Char) : Bool :=
  decide (c.toNat < 0x20) || (decide (0x7F ≤ c.toNat) && decide (c.toNat ≤ 0x9F)) ||
    decide (c.toNat = 0x2028) || decide (c.toNat = 0x2029)

def pushChar (out : String) : Char → String
  | '"' => out ++ "\\\""
  | '\\' => out ++ "\\\\"
  | c => if needsEscape c then out ++ "\\u" ++ hex 4 c.toNat else out.push c

def pushString (out text : String) : String := (text.toList.foldl pushChar (out.push '"')).push '"'

def numeral (n : Numeral) : String :=
  (if n.negative then "-" else "") ++ toString n.digits ++ "e" ++ toString (n.exponent - n.places)

mutual

def push (out : String) : Json → String
  | .null => out ++ "null"
  | .bool value => out ++ (if value then "true" else "false")
  | .integer value => out ++ toString value
  | .decimal value => out ++ numeral value
  | .string value => pushString out value
  | .array items => (pushItems (out.push '[') true items).push ']'
  | .object members => (pushMembers (out.push '\x7b') true members).push '\x7d'

def pushItems (out : String) (first : Bool) : List Json → String
  | [] => out
  | item :: items => pushItems (push (if first then out else out.push ',') item) false items

def pushMembers (out : String) (first : Bool) : List (String × Json) → String
  | [] => out
  | (key, value) :: members =>
    let out := (pushString (if first then out else out.push ',') key).push ':'
    pushMembers (push out value) false members

end

end Printer

def print (value : Json) : String := Printer.push "" value

end Scriptlet.Json
