import Scriptlet.Lowering.Expr
import Scriptlet.Program

/-! # Lowering statements

A statement is an assignment, bare or inside an expression statement, or an expression statement
that holds one expression. A second expression is refused after the first was lowered.
-/

namespace Scriptlet.Walk

variable {κ : Type} [SyntaxCursor κ]

/-- The kind under which an expression statement with several expressions is refused. -/
def expressionList : String := "expression_list"

def define (source : String) : Walk κ Stmt := do
  let span := SyntaxCursor.span (← cursor)
  enter .target span
  if SyntaxCursor.nodeKind (← cursor) ≠ .identifier then unsupported
  let name ← text source
  advance .equals span
  if SyntaxCursor.kind (← cursor) ≠ "=" then unsupported
  advance .value span
  let value ← expr source
  leave
  return .define name value

def expressionStatement (source : String) : Walk κ Stmt := do
  let span := SyntaxCursor.span (← cursor)
  enter .statement span
  let stmt ←
    match SyntaxCursor.nodeKind (← cursor) with
    | .assignment => define source
    | _ => Stmt.evaluate <$> expr source
  if ← nextSignificant then throw (.unsupportedSyntax expressionList span)
  leave
  return stmt

def stmt (source : String) : Walk κ Stmt := do
  let here ← cursor
  note (.statement (SyntaxCursor.kind here) (SyntaxCursor.span here))
  match SyntaxCursor.nodeKind (← cursor) with
  | .expressionStatement => expressionStatement source
  | .assignment => define source
  | _ => unsupported

end Scriptlet.Walk
