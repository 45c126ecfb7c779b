import Scriptlet.Program
import Scriptlet.Wire.Deserializer

/-! # Programs as JSON

A choice is an object with one member, named for the alternative. The fields of the alternative are
read from what it holds as the deserializer shows it: from an object, in which other members are
ignored, or from an array. An operator is its name, or an object that maps the name to null.

Decoding recurses on the value alone: the values in what an alternative holds are first decoded as
expressions, and those that stand for operands are then picked out.
-/

namespace Scriptlet

namespace BinaryOp

def wireName : BinaryOp → String
  | add => "Add"
  | subtract => "Subtract"
  | multiply => "Multiply"

def ofWireName? : String → Option BinaryOp
  | "Add" => some add
  | "Subtract" => some subtract
  | "Multiply" => some multiply
  | _ => none

def decode? : Json → Option BinaryOp
  | .string name => ofWireName? name
  | .object [(name, .null)] => ofWireName? name
  | _ => none

end BinaryOp

namespace Expr

/-- The fields of an alternative, in their order. -/
def fieldNames : String → List String
  | "BinaryOp" => ["op", "left", "right"]
  | "Call1" => ["name", "arg"]
  | "Call2" => ["name", "arg1", "arg2"]
  | _ => []

/-- Put an alternative together from its fields and what each of them means as an expression. -/
def ofMembers? (tag : String) (members : List (String × Json))
    (operands : List (String × Option Expr)) : Option Expr :=
  let operand? (key : String) : Option Expr := (Json.member? key operands).join
  let name? : Option String := (Json.member? "name" members).bind Json.string?
  match tag with
  | "BinaryOp" => do
    let op ← (Json.member? "op" members).bind BinaryOp.decode?
    return .binary op (← operand? "left") (← operand? "right")
  | "Call1" => do return .call1 (← name?) (← operand? "arg")
  | "Call2" => do return .call2 (← name?) (← operand? "arg1") (← operand? "arg2")
  | _ => none

/-- Put an alternative together from the value that it holds and what the values in that one mean as
expressions. -/
def ofHeld? (d : Json.Deserializer) (tag : String) (held : Json) (operands : List (Option Expr)) :
    Option Expr :=
  match tag with
  | "Number" => (d.number? held).map number
  | "Identifier" => held.string?.map identifier
  | _ => do
    let members ← d.fields? (fieldNames tag) held
    ofMembers? tag members ((members.map Prod.fst).zip operands)

mutual

def ofJson? (d : Json.Deserializer) : Json → Option Expr
  | .object [(tag, held)] => ofHeld? d tag held (operandsOf d held)
  | _ => none

def operandsOf (d : Json.Deserializer) : Json → List (Option Expr)
  | .object members => operandsOfMembers d members
  | .array items => operandsOfItems d items
  | _ => []

def operandsOfMembers (d : Json.Deserializer) : List (String × Json) → List (Option Expr)
  | [] => []
  | (_, value) :: members => ofJson? d value :: operandsOfMembers d members

def operandsOfItems (d : Json.Deserializer) : List Json → List (Option Expr)
  | [] => []
  | item :: items => ofJson? d item :: operandsOfItems d items

end

def decode? (v : Json) : Option Expr := ofJson? .ofValue v

end Expr

namespace Stmt

def ofJson? (d : Json.Deserializer) : Json → Option Stmt
  | .object [("Define", held)] => do
    let members ← d.fields? ["name", "value"] held
    let name ← (Json.member? "name" members).bind Json.string?
    return .define name (← (Json.member? "value" members).bind (Expr.ofJson? d))
  | .object [("ExprStmt", held)] => do
    let members ← d.fields? ["expr"] held
    return .evaluate (← (Json.member? "expr" members).bind (Expr.ofJson? d))
  | _ => none

def decode? (v : Json) : Option Stmt := ofJson? .ofValue v

end Stmt

namespace Program

def ofJson? (d : Json.Deserializer) : Json → Option Program
  | .array items => items.mapM (Stmt.ofJson? d)
  | _ => none

def decode? (v : Json) : Option Program := ofJson? .ofValue v

end Program

end Scriptlet
