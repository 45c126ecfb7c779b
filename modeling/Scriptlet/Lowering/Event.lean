import Scriptlet.Expr
import Scriptlet.Refusal

/-! # Events

What happens while a source is read and its tree is lowered, as a log tells it: for each event a
level, a message, and named fields.
-/

namespace Scriptlet

inductive Origin
  | parsed
  | serialized
  deriving DecidableEq, Repr, Inhabited

inductive Event
  | parsing (bytes : Nat)
  | statement (kind : String) (span : Span)
  | expression (kind : String) (span : Span)
  | operator (op : BinaryOp)
  | rejected (origin : Origin) (refusal : Refusal)
  | lowered (origin : Origin) (statements : Nat)
  deriving DecidableEq, Repr, Inhabited

inductive Event.Level
  | debug
  | trace
  | warn
  deriving DecidableEq, Repr, Inhabited

namespace Event

def level : Event → Level
  | parsing _ | lowered _ _ => .debug
  | statement _ _ | expression _ _ | operator _ => .trace
  | rejected _ _ => .warn

def message : Event → String
  | parsing _ => "parsing minipy source"
  | statement _ _ => "translating statement"
  | expression _ _ => "translating expression"
  | operator _ => "binary operator"
  | rejected .parsed _ => "rejecting source with syntax errors"
  | rejected .serialized _ => "rejecting serialized tree with syntax errors"
  | lowered .parsed _ => "lowered minipy source"
  | lowered .serialized _ => "lowered serialized CST"

def fields : Event → List (String × String)
  | parsing bytes => [("bytes", toString bytes)]
  | statement kind span | expression kind span => [("kind", kind), ("span", span.text)]
  | operator op => [("operator", op.symbol)]
  | rejected _ refusal => [("error", refusal.message)]
  | lowered _ statements => [("statements", toString statements)]

end Event

end Scriptlet
