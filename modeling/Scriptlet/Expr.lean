import Scriptlet.Number.Binary64

/-! # Expressions

Expressions of the small language: numbers, names, sums, differences and products, and calls of
built-ins with one or two arguments. Equality compares numbers by value, so it is not reflexive on
an expression that holds a NaN.
-/

namespace Scriptlet

inductive BinaryOp
  | add
  | subtract
  | multiply
  deriving DecidableEq, Repr, Inhabited

namespace BinaryOp

def symbol : BinaryOp → String
  | add => "+"
  | subtract => "-"
  | multiply => "*"

def ofSymbol? : String → Option BinaryOp
  | "+" => some add
  | "-" => some subtract
  | "*" => some multiply
  | _ => none

theorem ofSymbol?_symbol (op : BinaryOp) : ofSymbol? op.symbol = some op := by cases op <;> rfl

theorem symbol_of_ofSymbol? {token : String} {op : BinaryOp} (h : ofSymbol? token = some op) :
    op.symbol = token := by
  unfold ofSymbol? at h
  split at h <;> simp_all [symbol] <;> subst h <;> rfl

end BinaryOp

inductive Expr
  | number (value : Binary64)
  | identifier (name : String)
  | binary (op : BinaryOp) (left right : Expr)
  | call1 (name : String) (arg : Expr)
  | call2 (name : String) (first second : Expr)
  deriving DecidableEq, Repr, Inhabited

namespace Expr

protected def beq : Expr → Expr → Bool
  | number x, number y => x == y
  | identifier a, identifier b => a == b
  | binary o a b, binary p c d => decide (o = p) && a.beq c && b.beq d
  | call1 f a, call1 g b => f == g && a.beq b
  | call2 f a b, call2 g c d => f == g && a.beq c && b.beq d
  | _, _ => false

instance : BEq Expr := ⟨Expr.beq⟩

/-- What one node of an expression says, without its operands. -/
inductive Label
  | number (value : Binary64)
  | identifier (name : String)
  | operator (op : BinaryOp)
  | call1 (name : String)
  | call2 (name : String)
  deriving DecidableEq, Repr

/-- The labels in post-order, in front of `rest`. -/
def postorderOnto : Expr → List Label → List Label
  | number x, rest => .number x :: rest
  | identifier a, rest => .identifier a :: rest
  | binary op a b, rest => a.postorderOnto (b.postorderOnto (.operator op :: rest))
  | call1 f a, rest => a.postorderOnto (.call1 f :: rest)
  | call2 f a b, rest => a.postorderOnto (b.postorderOnto (.call2 f :: rest))

def postorder (e : Expr) : List Label := e.postorderOnto []

end Expr

end Scriptlet
