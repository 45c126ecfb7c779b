import Scriptlet.Script.StringToken
import Scriptlet.Script.Token

/-! # Parts of strings

A part in braces holds tokens like a script. A colon outside its brackets begins its layout: plain
text, which may hold parts itself, up to the closing brace of the part.
-/

namespace Scriptlet.Script

/-- A part of a string that is not closed yet. -/
structure StringPart where
  quotes : Quotes
  /-- Does it stand in the layout of another part? -/
  isInner : Bool
  /-- How many brackets are open in it. -/
  depth : Nat
  deriving DecidableEq, Repr

namespace StringPart

def inLayout (c : Char) : Bool := c != '\x7b' && c != '\x7d' && c != '\x00'

/-- What follows when the newest part is closed: text up to the end of the string or up to the next
part. -/
def close? : List StringPart → List Char → Option (Lexeme × List StringPart × List Char)
  | [], _ => none
  | part :: parts, cs =>
    if part.isInner then
      match cs.dropWhile inLayout with
      | '\x7b' :: rest => some (.middle, ⟨part.quotes, true, 0⟩ :: parts, rest)
      | '\x7d' :: rest => close? parts rest
      | _ => none
    else
      match part.quotes.piece? cs with
      | some (.part, rest) => some (.middle, ⟨part.quotes, false, 0⟩ :: parts, rest)
      | some (.quotes, rest) => some (.closing, parts, rest)
      | none => none

/-- What follows the colon before the layout of the newest part. The layout goes on as it does
behind a part in it. -/
def layout? : List StringPart → List Char → Option (Lexeme × List StringPart × List Char)
  | [], _ => none
  | part :: parts, cs => close? (⟨part.quotes, true, 0⟩ :: part :: parts) cs

/-- The string at the start of a text, or its text up to the first part. -/
def open? (parts : List StringPart) (quotes : Quotes) (cs : List Char) :
    Option (Lexeme × List StringPart × List Char) :=
  (quotes.piece? cs).map fun (edge, rest) =>
    match edge with
    | .quotes => (.string, parts, rest)
    | .part => (.opening, ⟨quotes, false, 0⟩ :: parts, rest)

def count (mark : String) : List StringPart → List StringPart
  | [] => []
  | part :: parts =>
    if ["(", "[", "\x7b"].contains mark then { part with depth := part.depth + 1 } :: parts
    else if [")", "]", "\x7d"].contains mark then { part with depth := part.depth - 1 } :: parts
    else part :: parts

def isOutside : List StringPart → Bool
  | [] => false
  | part :: _ => part.depth == 0

/-- May the last token be the name of a value? The tokens are given newest first. -/
def namesValue : List Token → Bool
  | ⟨.word text, _, _, _⟩ :: before :: _ =>
    !(["True", "False", "None", "not", "lambda", "yield"].contains text) &&
      match before.lexeme with
      | .opening | .middle => true
      | .mark mark => mark == "," || mark == ":="
      | .word text => ["and", "as", "else", "from", "if", "not", "or", "yield"].contains text
      | _ => false
  | _ => false

end StringPart

end Scriptlet.Script
