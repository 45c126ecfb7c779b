import Scriptlet.Number.Numeral
import Scriptlet.Program
import Scriptlet.Tree.Kind
import Scriptlet.Tree.Node

/-! # Drafts and their layout

A draft is a program with a text for each of its numbers. To lay it out is to write its tokens one
after another, each behind a gap of any text, and to build the tree of the grammar over them: the
node of a token has the offsets at which the token was written, and a node over others reaches
from the first of them to the last.
-/

namespace Scriptlet.Layout

/-- A number with a text that is read as it. -/
structure Literal where
  text : String
  value : Binary64
  isFloat : Bool
  readFinite?_text : Numeral.readFinite? text = some value

def Literal.kind (l : Literal) : NodeKind := if l.isFloat then .float else .integer

inductive Draft
  | number (literal : Literal)
  | identifier (name : String)
  | binary (op : BinaryOp) (left right : Draft)
  | call1 (name : String) (arg : Draft)
  | call2 (name : String) (first second : Draft)

def Draft.expr : Draft → Expr
  | number literal => .number literal.value
  | identifier name => .identifier name
  | binary op left right => .binary op left.expr right.expr
  | call1 name arg => .call1 name arg.expr
  | call2 name first second => .call2 name first.expr second.expr

inductive Line
  | define (name : String) (value : Draft)
  | evaluate (value : Draft)

def Line.stmt : Line → Stmt
  | define name value => .define name value.expr
  | evaluate value => .evaluate value.expr

/-- What is written so far, and how many tokens it has. -/
structure Pen where
  text : String
  count : Nat

abbrev Drawing := StateM Pen

def tokenNode (kind : String) (isNamed : Bool) (span : Span) : Node :=
  ⟨kind, "", span, [], isNamed, false, false⟩

def branch (kind : NodeKind) (children : List Node) : Node :=
  let start := (children.head?.map (·.span.start)).getD 0
  let stop := (children.getLast?.map (·.span.stop)).getD 0
  ⟨kind.name, "", ⟨start, stop⟩, children, true, false, false⟩

def token (gap : Nat → String) (kind : String) (isNamed : Bool) (text : String) : Drawing Node :=
  fun pen =>
    let before := pen.text ++ gap pen.count
    let after := before ++ text
    (tokenNode kind isNamed ⟨before.utf8ByteSize, after.utf8ByteSize⟩, ⟨after, pen.count + 1⟩)

def leaf (gap : Nat → String) (kind : NodeKind) (text : String) : Drawing Node :=
  token gap kind.name true text

/-- Write an operator or a punctuation mark, whose kind is named by its text. -/
def mark (gap : Nat → String) (text : String) : Drawing Node := token gap text false text

def Draft.draw (gap : Nat → String) : Draft → Drawing Node
  | number literal => leaf gap literal.kind literal.text
  | identifier name => leaf gap .identifier name
  | binary op left right => do
    let left ← left.draw gap
    let operator ← mark gap op.symbol
    let right ← right.draw gap
    return branch .binaryOperator [left, operator, right]
  | call1 name arg => do
    let callee ← leaf gap .identifier name
    let opening ← mark gap "("
    let arg ← arg.draw gap
    let closing ← mark gap ")"
    return branch .call [callee, branch .argumentList [opening, arg, closing]]
  | call2 name first second => do
    let callee ← leaf gap .identifier name
    let opening ← mark gap "("
    let first ← first.draw gap
    let comma ← mark gap ","
    let second ← second.draw gap
    let closing ← mark gap ")"
    return branch .call [callee, branch .argumentList [opening, first, comma, second, closing]]

def Line.draw (gap : Nat → String) : Line → Drawing Node
  | define name value => do
    let target ← leaf gap .identifier name
    let equals ← mark gap "="
    let value ← value.draw gap
    return branch .expressionStatement [branch .assignment [target, equals, value]]
  | evaluate value => do
    let value ← value.draw gap
    return branch .expressionStatement [value]

structure Sheet where
  source : String
  tree : Node

/-- Lay out a program in gaps that are counted from the beginning; the last one ends the source. -/
def draw (gap : Nat → String) (lines : List Line) : Sheet :=
  let (statements, pen) := (lines.mapM (Line.draw gap)).run ⟨"", 0⟩ |>.run
  let source := pen.text ++ gap pen.count
  ⟨source, ⟨NodeKind.module.name, "", ⟨0, source.utf8ByteSize⟩, statements, true, false, false⟩⟩

end Scriptlet.Layout
