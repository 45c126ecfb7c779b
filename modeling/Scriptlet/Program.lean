import Scriptlet.Expr

/-! # Programs

A program is a list of statements; a statement defines a name or evaluates an expression.
-/

namespace Scriptlet

inductive Stmt
  | define (name : String) (value : Expr)
  | evaluate (value : Expr)
  deriving DecidableEq, Repr, Inhabited

namespace Stmt

def name? : Stmt → Option String
  | define name _ => some name
  | evaluate _ => none

def expr : Stmt → Expr
  | define _ value => value
  | evaluate value => value

protected def beq : Stmt → Stmt → Bool
  | define a x, define b y => a == b && x == y
  | evaluate x, evaluate y => x == y
  | _, _ => false

instance : BEq Stmt := ⟨Stmt.beq⟩

end Stmt

abbrev Program := List Stmt

end Scriptlet
