/-! # Kinds of nodes

The kinds that lowering knows. Every other kind is `other`: its name is told only to say what is
not supported.
-/

namespace Scriptlet

inductive NodeKind
  | module
  | expressionStatement
  | assignment
  | integer
  | float
  | identifier
  | binaryOperator
  | call
  | argumentList
  | other
  deriving DecidableEq, Repr, Inhabited

namespace NodeKind

def name : NodeKind → String
  | module => "module"
  | expressionStatement => "expression_statement"
  | assignment => "assignment"
  | integer => "integer"
  | float => "float"
  | identifier => "identifier"
  | binaryOperator => "binary_operator"
  | call => "call"
  | argumentList => "argument_list"
  | other => "other"

def ofName : String → NodeKind
  | "module" => module
  | "expression_statement" => expressionStatement
  | "assignment" => assignment
  | "integer" => integer
  | "float" => float
  | "identifier" => identifier
  | "binary_operator" => binaryOperator
  | "call" => call
  | "argument_list" => argumentList
  | _ => other

theorem ofName_name (k : NodeKind) : ofName k.name = k := by cases k <;> rfl

theorem name_ofName {s : String} (h : ofName s ≠ other) : (ofName s).name = s := by
  unfold ofName at h ⊢
  split <;> simp_all [name]

end NodeKind

end Scriptlet
