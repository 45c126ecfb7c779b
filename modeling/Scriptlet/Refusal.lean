import Scriptlet.Diagnostic
import Scriptlet.Limits
import Scriptlet.Tree.Kind

/-! # Refusals

Why a tree was not lowered. Every cause but a failure of the grammar has a place in the source.
The wording is in `message`, the advice that goes with it in `hint?`.
-/

namespace Scriptlet

/-- The part that a node of a known kind lacks. -/
inductive Shortage
  | statement
  | target
  | equals
  | value
  | leftOperand
  | operator
  | rightOperand
  | callee
  | arguments
  deriving DecidableEq, Repr, Inhabited

namespace Shortage

def reason : Shortage → String
  | statement => "empty statement"
  | target => "missing assignment target"
  | equals => "missing `=`"
  | value => "missing assigned value"
  | leftOperand => "missing left operand"
  | operator => "missing operator"
  | rightOperand => "missing right operand"
  | callee => "missing callee"
  | arguments => "missing argument list"

def kind : Shortage → NodeKind
  | statement => .expressionStatement
  | target | equals | value => .assignment
  | leftOperand | operator | rightOperand => .binaryOperator
  | callee | arguments => .call

/-- The place of the part among the significant children, counted from zero. -/
def place : Shortage → Nat
  | statement | target | leftOperand | callee => 0
  | equals | operator | arguments => 1
  | value | rightOperand => 2

end Shortage

/-- A failure of the grammar itself, before there is a tree. -/
inductive GrammarFailure
  | notLoaded (cause : String)
  | noTree
  deriving DecidableEq, Repr, Inhabited

def GrammarFailure.message : GrammarFailure → String
  | notLoaded cause => "failed to load minipy grammar: " ++ cause
  | noTree => "parser returned no tree"

inductive Refusal
  | malformedLiteral (text : String) (span : Span)
  | unsupportedOperator (operator : String) (span : Span)
  | arityMismatch (name : String) (found : Nat) (span : Span)
  | unsupportedSyntax (kind : String) (span : Span)
  | syntaxError (message : String) (span : Span)
  | malformedNode (kind reason : String) (span : Span)
  | outOfBounds (span : Span)
  | grammar (message : String)
  deriving DecidableEq, Repr, Inhabited

namespace Refusal

def span? : Refusal → Option Span
  | malformedLiteral _ span | unsupportedOperator _ span | arityMismatch _ _ span
  | unsupportedSyntax _ span | syntaxError _ span | malformedNode _ _ span
  | outOfBounds span => some span
  | grammar _ => none

def message : Refusal → String
  | malformedLiteral text _ => "malformed numeric literal `" ++ text ++ "`"
  | unsupportedOperator operator _ => "unsupported operator `" ++ operator ++ "`"
  | arityMismatch name found _ =>
    "call to `" ++ name ++ "` has " ++ toString found ++ " argument(s), expected " ++
      toString Limits.minArity ++ " or " ++ toString Limits.maxArity
  | unsupportedSyntax kind _ => "unsupported syntax: " ++ kind
  | syntaxError message _ => message
  | malformedNode kind reason _ => "malformed `" ++ kind ++ "` node: " ++ reason
  | outOfBounds span => "node span " ++ span.text ++ " lies outside the source text"
  | grammar message => "grammar error: " ++ message

def hint? : Refusal → Option String
  | malformedLiteral _ _ => some "Numbers must be decimal integers or floats, e.g. `42` or `3.5`"
  | unsupportedOperator _ _ => some "Only `+`, `-` and `*` are supported"
  | arityMismatch _ _ _ =>
    some ("Builtins take between " ++ toString Limits.minArity ++ " and " ++
      toString Limits.maxArity ++ " positional arguments")
  | unsupportedSyntax _ _ =>
    some "Supported: numbers, names, `name = expr`, `+ - *` and builtin calls"
  | syntaxError _ _ => some "Check for unbalanced parentheses or a dangling operator"
  | malformedNode _ _ _ | outOfBounds _ | grammar _ => none

/-- A refusal without a place is reported at the start of the source. -/
def diagnostic (r : Refusal) : Diagnostic :=
  let d := Diagnostic.error r.message (r.span?.getD ⟨0, 0⟩)
  match r.hint? with
  | some hint => d.withHint hint
  | none => d

def ofShortage (s : Shortage) (span : Span) : Refusal := malformedNode s.kind.name s.reason span

end Refusal

end Scriptlet
