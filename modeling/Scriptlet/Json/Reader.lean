import Scriptlet.Json.Value

/-! # Reading JSON

A text is read as one JSON value with nothing but blanks around it. Of members with the same key
the last one counts.
-/

namespace Scriptlet.Json

namespace Reader

def isBlank (c : Char) : Bool := c == ' ' || c == '\t' || c == '\n' || c == '\r'

def skip (cs : List Char) : List Char := cs.dropWhile isBlank

def hexValue? (c : Char) : Option Nat :=
  if c.isDigit then some (c.toNat - '0'.toNat)
  else if 'a' ≤ c ∧ c ≤ 'f' then some (c.toNat - 'a'.toNat + 10)
  else if 'A' ≤ c ∧ c ≤ 'F' then some (c.toNat - 'A'.toNat + 10)
  else none

/-- Four hexadecimal digits: one unit of UTF-16. -/
def unit? (a b c d : Char) : Option Nat := do
  return ((((← hexValue? a) * 16 + (← hexValue? b)) * 16 + (← hexValue? c)) * 16 + (← hexValue? d))

def isHighSurrogate (unit : Nat) : Bool := decide (0xD800 ≤ unit) && decide (unit ≤ 0xDBFF)

def isLowSurrogate (unit : Nat) : Bool := decide (0xDC00 ≤ unit) && decide (unit ≤ 0xDFFF)

def pairChar (high low : Nat) : Char :=
  Char.ofNat (0x10000 + (high - 0xD800) * 1024 + (low - 0xDC00))

def escaped? : Char → Option Char
  | '"' => some '"'
  | '\\' => some '\\'
  | '/' => some '/'
  | 'b' => some '\x08'
  | 'f' => some '\x0c'
  | 'n' => some '\n'
  | 'r' => some '\r'
  | 't' => some '\t'
  | _ => none

/-- The rest of a string after its opening quote; `read` is what came before, newest first. A high
surrogate waits in `high?` for the low one, which must come next. -/
def string? (read : List Char) (high? : Option Nat) : List Char → Option (String × List Char)
  | '\\' :: 'u' :: a :: b :: c :: d :: rest =>
    match unit? a b c d, high? with
    | none, _ => none
    | some low, some high =>
      if isLowSurrogate low then string? (pairChar high low :: read) none rest else none
    | some unit, none =>
      if isHighSurrogate unit then string? read (some unit) rest
      else if isLowSurrogate unit then none
      else string? (Char.ofNat unit :: read) none rest
  | '\\' :: c :: rest =>
    match escaped? c, high? with
    | some c, none => string? (c :: read) none rest
    | _, _ => none
  | c :: rest =>
    if high?.isSome then none
    else if c = '"' then some (String.ofList read.reverse, rest)
    else if c.toNat < 0x20 then none
    else string? (c :: read) none rest
  | [] => none

def digits? (cs : List Char) : Option (List Char × List Char) :=
  let (digits, rest) := cs.span Char.isDigit
  if digits.isEmpty then none else some (digits, rest)

def splitMinus : List Char → Bool × List Char
  | '-' :: cs => (true, cs)
  | cs => (false, cs)

/-- The digits in front of a point. A zero stands alone. -/
def whole? : List Char → Option (List Char × List Char)
  | '0' :: rest => some (['0'], rest)
  | cs => digits? cs

def places? : List Char → Option (List Char × List Char)
  | '.' :: rest => digits? rest
  | cs => some ([], cs)

def exponent? : List Char → Option (Option Int × List Char)
  | [] => some (none, [])
  | c :: cs =>
    if c = 'e' ∨ c = 'E' then
      let (negative, cs) := Numeral.splitSign cs
      (digits? cs).map fun (digits, rest) =>
        let value : Int := Numeral.foldExponent digits
        (some (if negative then -value else value), rest)
    else some (none, c :: cs)

def ofParts (negative : Bool) (whole places : List Char) (exponent : Option Int) : Json :=
  let value := Numeral.foldDigits (Numeral.foldDigits 0 whole) places
  if places.isEmpty && exponent.isNone && !(negative && value == 0) then
    .integer (if negative then -(value : Int) else value)
  else .decimal ⟨negative, value, places.length, exponent.getD 0⟩

/-- A number that is not beyond the largest double. -/
def number? (cs : List Char) : Option (Json × List Char) := do
  let (negative, cs) := splitMinus cs
  let (whole, rest) ← whole? cs
  let (places, rest) ← places? rest
  let (exponent, rest) ← exponent? rest
  let number := ofParts negative whole places exponent
  if number.number?.any Binary64.isFinite then some (number, rest) else none

def key? (cs : List Char) : Option (String × List Char) := do
  match skip cs with
  | '"' :: rest =>
    let (key, rest) ← string? [] none rest
    match skip rest with
    | ':' :: rest => some (key, rest)
    | _ => none
  | _ => none

/-- Drop each member that a later one replaces. -/
def lastOfEach (members : List (String × Json)) : List (String × Json) :=
  members.foldr (fun m kept => if kept.any (·.1 == m.1) then kept else m :: kept) []

mutual

def value? : Nat → List Char → Option (Json × List Char)
  | 0, _ => none
  | fuel + 1, cs =>
    match skip cs with
    | 'n' :: 'u' :: 'l' :: 'l' :: rest => some (.null, rest)
    | 't' :: 'r' :: 'u' :: 'e' :: rest => some (.bool true, rest)
    | 'f' :: 'a' :: 'l' :: 's' :: 'e' :: rest => some (.bool false, rest)
    | '"' :: rest => (string? [] none rest).map fun (text, rest) => (.string text, rest)
    | '[' :: rest =>
      match skip rest with
      | ']' :: rest => some (.array [], rest)
      | _ => items? fuel [] rest
    | '{' :: rest =>
      match skip rest with
      | '}' :: rest => some (.object [], rest)
      | _ => members? fuel [] rest
    | cs => number? cs

/-- The items of an array up to its closing bracket; `read` holds those before, newest first. -/
def items? : Nat → List Json → List Char → Option (Json × List Char)
  | 0, _, _ => none
  | fuel + 1, read, cs =>
    match value? fuel cs with
    | none => none
    | some (value, rest) =>
      match skip rest with
      | ',' :: rest => items? fuel (value :: read) rest
      | ']' :: rest => some (.array (value :: read).reverse, rest)
      | _ => none

/-- The members of an object up to its closing brace; `read` holds those before, newest first. -/
def members? : Nat → List (String × Json) → List Char → Option (Json × List Char)
  | 0, _, _ => none
  | fuel + 1, read, cs =>
    match key? cs with
    | none => none
    | some (key, rest) =>
      match value? fuel rest with
      | none => none
      | some (value, rest) =>
        match skip rest with
        | ',' :: rest => members? fuel ((key, value) :: read) rest
        | '}' :: rest => some (.object (lastOfEach ((key, value) :: read).reverse), rest)
        | _ => none

end

end Reader

/-- Read a text as one JSON value. Of two nested steps of the reader at least one takes a
character. -/
def read? (text : String) : Option Json :=
  let cs := text.toList
  match Reader.value? (2 * cs.length + 2) cs with
  | some (value, rest) => if (Reader.skip rest).isEmpty then some value else none
  | none => none

end Scriptlet.Json
