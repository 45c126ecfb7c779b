import Scriptlet.Script.Parsing

/-! # Operators

How strongly the operators between operands bind, and which lexemes begin an operand.
-/

namespace Scriptlet.Script

/-- How strongly the loosest operators bind: alternatives. -/
def Strength.either : Nat := 10

def Strength.both : Nat := 11

def Strength.negation : Nat := 12

def Strength.comparison : Nat := 13

/-- Above comparison, below every operator on numbers. -/
def Strength.bits : Nat := 14

def Strength.sign : Nat := 20

def Strength.power : Nat := 21

namespace Lexeme

def isComparison : Lexeme → Bool
  | word text => text == "in" || text == "is"
  | mark text => ["<", "<=", "==", "!=", ">=", ">", "<>"].contains text
  | _ => false

def binaryStrength? : Lexeme → Option Nat
  | mark "|" => some Strength.bits
  | mark "&" => some 15
  | mark "^" => some 16
  | mark "<<" | mark ">>" => some 17
  | mark "+" | mark "-" => some 18
  | mark "*" | mark "@" | mark "/" | mark "%" | mark "//" => some 19
  | mark "**" => some Strength.power
  | _ => none

def isSign : Lexeme → Bool
  | mark text => ["+", "-", "~"].contains text
  | _ => false

def isStar : Lexeme → Bool
  | mark text => text == "*" || text == "**"
  | _ => false

/-- May an operand begin here? Where an operand may stand, every word is one or begins one. -/
def beginsOperand : Lexeme → Bool
  | word _ | integer | float | string | opening => true
  | mark text => ["(", "[", "\x7b", "+", "-", "~", "*", "**", "..."].contains text
  | middle | closing | conversion | finish => false

def beginsString (lexeme : Lexeme) : Bool := lexeme == string || lexeme == opening

def isTrailer : Lexeme → Bool
  | mark text => [".", "[", "("].contains text
  | _ => false

def isAugmented : Lexeme → Bool
  | mark text =>
    ["+=", "-=", "*=", "/=", "@=", "//=", "%=", "**=", ">>=", "<<=", "&=", "^=", "|="].contains text
  | _ => false

def isAssignment (lexeme : Lexeme) : Bool :=
  lexeme == mark "=" || lexeme == mark ":" || lexeme.isAugmented

/-- The words that stand for a value, with the kind of their node. -/
def constant? : Lexeme → Option String
  | word "True" => some "true"
  | word "False" => some "false"
  | word "None" => some "none"
  | _ => none

/-- A word that is a name wherever only a part of an operation may stand. -/
def isName : Lexeme → Bool
  | word text => (word text).constant?.isNone
  | _ => false

/-- The words that begin an expression and are no names there. -/
def isReserved : Lexeme → Bool
  | word text => text == "not" || text == "lambda"
  | _ => false

/-- May the word name an argument or a value where an expression may begin? -/
def isFreeName (lexeme : Lexeme) : Bool := lexeme.isName && !lexeme.isReserved

/-- The words that go on with an expression after an operand. -/
def continuesExpression : Lexeme → Bool
  | word text => ["and", "as", "if", "in", "is", "or"].contains text
  | _ => false

def isAwaited (ending : Ending) : Lexeme → Bool
  | mark text => text != "**" && (mark text).beginsOperand
  | word text => !(word text).continuesExpression && text != "not" && !ending.atAwait text
  | lexeme => lexeme.beginsOperand

end Lexeme

end Scriptlet.Script
