/-! # Number tokens

How far a number token reaches. Decimal digits may have an underscore behind each group, digits of
another radix one in front of each. Which of these a program may hold is decided later.
-/

namespace Scriptlet.Script

structure NumberToken where
  isFloat : Bool
  taken : List Char
  rest : List Char
  deriving Repr

namespace NumberToken

/-- Groups of digits with single underscores behind them; `taken` is what came before, newest
first. -/
def digits (taken : List Char) (afterDigit : Bool) : List Char → List Char × List Char
  | [] => (taken, [])
  | c :: cs =>
    if c.isDigit then digits (c :: taken) true cs
    else if c = '_' ∧ afterDigit then digits (c :: taken) false cs
    else (taken, c :: cs)

/-- Digits of a radix, each with at most one underscore in front. -/
def radixDigits (isDigit : Char → Bool) (taken : List Char) : List Char → List Char × List Char
  | '_' :: c :: cs =>
    if isDigit c then radixDigits isDigit (c :: '_' :: taken) cs else (taken, '_' :: c :: cs)
  | c :: cs => if isDigit c then radixDigits isDigit (c :: taken) cs else (taken, c :: cs)
  | [] => (taken, [])

def isHexDigit (c : Char) : Bool :=
  c.isDigit || decide ('a' ≤ c ∧ c ≤ 'f') || decide ('A' ≤ c ∧ c ≤ 'F')

def isOctalDigit (c : Char) : Bool := decide ('0' ≤ c ∧ c ≤ '7')

def isBinaryDigit (c : Char) : Bool := c == '0' || c == '1'

/-- The digits that may follow `0` and this letter. -/
def radix? (letter : Char) : Option (Char → Bool) :=
  if letter = 'x' ∨ letter = 'X' then some isHexDigit
  else if letter = 'o' ∨ letter = 'O' then some isOctalDigit
  else if letter = 'b' ∨ letter = 'B' then some isBinaryDigit
  else none

def optional (letters : List Char) (taken : List Char) : List Char → List Char × List Char
  | c :: cs => if letters.contains c then (c :: taken, cs) else (taken, c :: cs)
  | [] => (taken, [])

def exponent? (taken : List Char) : List Char → Option (List Char × List Char)
  | c :: cs =>
    if c = 'e' ∨ c = 'E' then
      let (before, cs) := optional ['+', '-'] (c :: taken) cs
      let (taken, rest) := digits before false cs
      if taken.length = before.length then none else some (taken, rest)
    else none
  | [] => none

def floatEnd (taken cs : List Char) : NumberToken :=
  let (taken, rest) := (exponent? taken cs).getD (taken, cs)
  let (taken, rest) := optional ['j', 'J'] taken rest
  ⟨true, taken.reverse, rest⟩

def decimal (cs : List Char) : NumberToken :=
  match digits [] false cs with
  | (taken, '.' :: rest) =>
    let (taken, rest) := digits ('.' :: taken) false rest
    floatEnd taken rest
  | (taken, rest) =>
    if (exponent? taken rest).isSome then floatEnd taken rest
    else
      let (taken, rest) := optional ['l', 'L', 'j', 'J'] taken rest
      ⟨false, taken.reverse, rest⟩

def ofChars (cs : List Char) : NumberToken :=
  match cs with
  | '0' :: letter :: rest =>
    match radix? letter with
    | none => decimal cs
    | some isDigit =>
      match radixDigits isDigit [] rest with
      | ([], _) => decimal cs
      | (taken, rest) =>
        let (taken, rest) := optional ['l', 'L'] taken rest
        ⟨false, '0' :: letter :: taken.reverse, rest⟩
  | _ => decimal cs

end NumberToken

end Scriptlet.Script
