import Scriptlet.Proofs.Reading.Report
import Scriptlet.Proofs.Tree.Preorder

/-! # Reading a tree without a cursor

What a tree says, by recursion on the tree. A node is read from the significant children at fixed
places, an argument list from its named children that are no comments; nothing here moves. The
reports tell the result and the events of the recursion.
-/

namespace Scriptlet

theorem NodeKind.eq_name_of_ofName {s : String} {k : NodeKind} (h : ofName s = k)
    (hk : k ≠ other := by decide) : s = k.name := by
  subst h
  exact (name_ofName hk).symm

theorem NodeKind.ofName_eq_iff {s : String} {k : NodeKind} (hk : k ≠ other) :
    ofName s = k ↔ s = k.name := by
  constructor
  · exact fun h => eq_name_of_ofName h hk
  · rintro rfl; exact ofName_name k

namespace Node

/-- The children that count as statements of a root or as arguments of a call. -/
def content (n : Node) : List Node := n.children.filter isContent

theorem mem_of_mem_content {n m : Node} (h : m ∈ n.content) : m ∈ n.children :=
  (List.mem_filter.mp h).1

theorem mem_of_significant_getElem? {n m : Node} {i : Nat} (h : n.significant[i]? = some m) :
    m ∈ n.children :=
  mem_of_mem_significant (List.mem_of_getElem? h)

theorem height_lt_of_mem_content {n list m : Node} (hl : list ∈ n.children)
    (hm : m ∈ list.content) : m.height < n.height :=
  Nat.lt_trans (height_lt_of_mem (mem_of_mem_content hm)) (height_lt_of_mem hl)

def unsupported {α : Type} (n : Node) : Report α := .refuse (.unsupportedSyntax n.kind n.span)

def require (n : Node) (p : Prop) [Decidable p] : Report Unit :=
  if p then pure () else n.unsupported

def expect (n : Node) (kind : NodeKind) : Report Unit :=
  n.require (NodeKind.ofName n.kind = kind)

/-- The kinds of nodes whose own text is read. -/
def textKinds : List String :=
  [NodeKind.integer.name, NodeKind.float.name, NodeKind.identifier.name]

def slice (n : Node) (source : String) : Report String :=
  match n.span.slice? source with
  | some text => pure text
  | none => .refuse (.outOfBounds n.span)

/-- The significant child at the place that the shortage would leave empty. -/
def part (n : Node) (s : Shortage) : Report { m // m ∈ n.children } :=
  match h : n.significant[s.place]? with
  | some m => pure ⟨m, mem_of_significant_getElem? h⟩
  | none => .refuse (.ofShortage s n.span)

theorem part_of_some {n m : Node} {s : Shortage} (h : n.significant[s.place]? = some m) :
    n.part s = pure ⟨m, mem_of_significant_getElem? h⟩ := by
  unfold part
  split
  next hm => cases h.symm.trans hm; rfl
  next hm => simp [h] at hm

theorem part_of_none {n : Node} {s : Shortage} (h : n.significant[s.place]? = none) :
    n.part s = .refuse (.ofShortage s n.span) := by
  unfold part
  split
  next hm => simp [h] at hm
  next => rfl

theorem part_eq_ok {n : Node} {s : Shortage} {m : { m // m ∈ n.children }} :
    (n.part s).result = .ok m ↔ n.significant[s.place]? = some m.1 := by
  constructor
  · intro h
    unfold part at h
    split at h
    next hm => rw [hm, ← Except.ok.inj h]
    next => cases h
  · intro h
    rw [part_of_some h]; rfl

theorem slice_of_some {n : Node} {source text : String} (h : n.span.slice? source = some text) :
    n.slice source = pure text := by
  rw [slice, h]

theorem expect_of_kind {n : Node} {k : NodeKind} (h : n.kind = k.name) :
    n.expect k = pure () := by
  rw [expect, h, NodeKind.ofName_name]
  exact if_pos rfl

theorem slice_eq_ok {n : Node} {source text : String} :
    (n.slice source).result = .ok text ↔ n.span.slice? source = some text := by
  unfold slice
  cases n.span.slice? source <;> simp

theorem require_eq_ok {n : Node} {p : Prop} [Decidable p] {u : Unit} :
    (n.require p).result = .ok u ↔ p := by
  unfold require
  split <;> simp_all [unsupported]

theorem expect_eq_ok {n : Node} {k : NodeKind} {u : Unit} (hk : k ≠ .other) :
    (n.expect k).result = .ok u ↔ n.kind = k.name := by
  rw [expect, require_eq_ok, NodeKind.ofName_eq_iff hk]

def toNumber (n : Node) (source : String) : Report Expr := do
  let text ← n.slice source
  match Numeral.readFinite? text with
  | some value => return .number value
  | none => .refuse (.malformedLiteral text n.span)

def toOperator (n : Node) (source : String) : Report BinaryOp := do
  let token ← n.slice source
  match BinaryOp.ofSymbol? token with
  | some op =>
    .note (.operator op)
    return op
  | none => .refuse (.unsupportedOperator token n.span)

/-- A call of `name` at `span`, if it has one or two arguments. -/
def ofArguments (name : String) (span : Span) : List Expr → Report Expr
  | [arg] => return .call1 name arg
  | [first, second] => return .call2 name first second
  | arguments => .refuse (.arityMismatch name arguments.length span)

def toBinary (source : String) (n : Node)
    (operand : (m : Node) → m.height < n.height → Report Expr) : Report Expr := do
  let left ← n.part .leftOperand
  let a ← operand left (height_lt_of_mem left.2)
  let operator ← n.part .operator
  let op ← operator.1.toOperator source
  let right ← n.part .rightOperand
  return .binary op a (← operand right (height_lt_of_mem right.2))

def toCall (source : String) (n : Node)
    (argument : (m : Node) → m.height < n.height → Report Expr) : Report Expr := do
  let callee ← n.part .callee
  callee.1.expect .identifier
  let name ← callee.1.slice source
  let list ← n.part .arguments
  list.1.expect .argumentList
  let arguments ← list.1.content.attach.mapM fun ⟨m, hm⟩ =>
    argument m (height_lt_of_mem_content list.2 hm)
  ofArguments name n.span arguments

theorem mapM_attach {α : Type} (ns : List Node) (f : Node → Report α) :
    (ns.attach.mapM fun ⟨m, _⟩ => f m) = ns.mapM f := by
  rw [List.mapM_subtype (g := f) fun _ _ => rfl, List.unattach_attach]

theorem toCall_eq_mapM {source name : String} {n callee list : Node} (read : Node → Report Expr)
    (hcallee : n.significant[0]? = some callee) (hck : callee.kind = NodeKind.identifier.name)
    (hname : callee.span.slice? source = some name) (hlist : n.significant[1]? = some list)
    (hlk : list.kind = NodeKind.argumentList.name) :
    (n.toCall source fun m _ => read m) = list.content.mapM read >>= ofArguments name n.span := by
  simp only [toCall, mapM_attach _ read, part_of_some (s := .callee) hcallee,
    part_of_some (s := .arguments) hlist, pure_bind, expect_of_kind hck, slice_of_some hname,
    expect_of_kind hlk]

def toExpr (source : String) (n : Node) : Report Expr := do
  .note (.expression n.kind n.span)
  match NodeKind.ofName n.kind with
  | .integer | .float => n.toNumber source
  | .identifier => return .identifier (← n.slice source)
  | .binaryOperator => n.toBinary source fun m _ => m.toExpr source
  | .call => n.toCall source fun m _ => m.toExpr source
  | _ => n.unsupported
termination_by n.height

def toDefinition (source : String) (n : Node) : Report Stmt := do
  let target ← n.part .target
  target.1.expect .identifier
  let name ← target.1.slice source
  let equals ← n.part .equals
  equals.1.require (equals.1.kind = "=")
  let value ← n.part .value
  return .define name (← value.1.toExpr source)

def toBody (source : String) (n : Node) : Report Stmt :=
  match NodeKind.ofName n.kind with
  | .assignment => n.toDefinition source
  | _ => Stmt.evaluate <$> n.toExpr source

/-- Refuse a node with a second significant child. -/
def expectSingle (n : Node) : Report Unit :=
  if 1 < n.significant.length then .refuse (.unsupportedSyntax Walk.expressionList n.span)
  else pure ()

def toEvaluation (source : String) (n : Node) : Report Stmt := do
  let child ← n.part .statement
  let stmt ← child.1.toBody source
  n.expectSingle
  return stmt

def toStmt (source : String) (n : Node) : Report Stmt := do
  .note (.statement n.kind n.span)
  match NodeKind.ofName n.kind with
  | .assignment => n.toDefinition source
  | .expressionStatement => n.toEvaluation source
  | _ => n.unsupported

/-- Read the content of a root as a program. -/
def toProgram (source : String) (root : Node) : Report Program :=
  root.content.mapM (toStmt source)

end Node

end Scriptlet
