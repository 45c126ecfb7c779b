import Scriptlet.Lowering.Walk
import Scriptlet.Number.Numeral

/-! # Lowering expressions

A number or a name is the source text of its node. A binary operator is lowered from its first
three significant children, a call from its first two. The first problem in reading order is the
one reported; the arguments of a call are counted only after each was lowered.
-/

namespace Scriptlet.Walk

variable {κ : Type} [SyntaxCursor κ]

def number (source : String) : Walk κ Expr := do
  let span := SyntaxCursor.span (← cursor)
  let text ← text source
  match Numeral.readFinite? text with
  | some value => return .number value
  | none => throw (.malformedLiteral text span)

def identifier (source : String) : Walk κ Expr := return .identifier (← text source)

/-- Lower an operator, given how to lower its operands. -/
def binary (source : String) (operand : Walk κ Expr) : Walk κ Expr := do
  let span := SyntaxCursor.span (← cursor)
  enter .leftOperand span
  let left ← operand
  advance .operator span
  let token ← text source
  match BinaryOp.ofSymbol? token with
  | none => throw (.unsupportedOperator token (SyntaxCursor.span (← cursor)))
  | some op =>
    note (.operator op)
    advance .rightOperand span
    let right ← operand
    leave
    return .binary op left right

/-- Lower a call, given how to lower its arguments. -/
def call (source : String) (argument : Walk κ Expr) : Walk κ Expr := do
  let span := SyntaxCursor.span (← cursor)
  enter .callee span
  if SyntaxCursor.nodeKind (← cursor) ≠ .identifier then unsupported
  let name ← text source
  advance .arguments span
  if SyntaxCursor.nodeKind (← cursor) ≠ .argumentList then unsupported
  let arguments ← collectChildren argument
  leave
  match arguments with
  | [arg] => return .call1 name arg
  | [first, second] => return .call2 name first second
  | _ => throw (.arityMismatch name arguments.length span)

/-- Lower the current node, if it is lower than `height`. -/
def exprBelow (source : String) : Nat → Walk κ Expr
  | 0 => unsupported
  | height + 1 => do
    let here ← cursor
    note (.expression (SyntaxCursor.kind here) (SyntaxCursor.span here))
    match SyntaxCursor.nodeKind (← cursor) with
    | .integer | .float => number source
    | .identifier => identifier source
    | .binaryOperator => binary source (exprBelow source height)
    | .call => call source (exprBelow source height)
    | _ => unsupported

def expr (source : String) : Walk κ Expr := do
  exprBelow source (SyntaxCursor.height (← cursor))

end Scriptlet.Walk
