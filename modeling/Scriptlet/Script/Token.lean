import Scriptlet.Span

/-! # Tokens

The tokens of a script. Words and marks are told apart by their text, which the grammar looks at;
numbers and strings only by their class.
-/

namespace Scriptlet.Script

inductive Lexeme
  | word (text : String)
  | integer
  | float
  /-- A string without parts in braces. -/
  | string
  /-- The text of a string up to its first part in braces. -/
  | opening
  /-- The text between two parts. -/
  | middle
  /-- The text behind the last part. -/
  | closing
  /-- How the value of a part is converted. -/
  | conversion
  | mark (text : String)
  /-- The end of the script. -/
  | finish
  deriving DecidableEq, Repr, Inhabited

structure Token where
  lexeme : Lexeme
  span : Span
  /-- Does a line end before this token, so that a statement may end there? -/
  newLine : Bool
  /-- Does a comment or a continued line stand between that line end and this token? -/
  isApart : Bool
  deriving Repr, Inhabited

/-- The marks, longer ones before those that they begin with. -/
def marks : List String :=
  ["...", "**=", "//=", ">>=", "<<=", "**", "//", ">>", "<<", "<=", ">=", "==", "!=", "<>", "+=",
   "-=", "*=", "/=", "@=", "%=", "&=", "^=", "|=", ":=", "->", "+", "-", "*", "/", "%", "@", "&",
   "|", "^", "~", "<", ">", "=", "(", ")", "[", "]", "\x7b", "\x7d", ",", ":", ";", "."]

end Scriptlet.Script
