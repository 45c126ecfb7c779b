import Scriptlet.Proofs.Reading.Derivation
import Scriptlet.Proofs.Reading.Simulation
import Scriptlet.Proofs.Tree.Selection

/-! # Tokens of a program

The names, numbers and operators of a program, in the order in which it is written. The nodes that
say them are picked from the tree in document order, each for one token.
-/

namespace Scriptlet

/-- What a program takes from its source at one place. -/
inductive Expr.Token
  | name (text : String)
  | number (value : Binary64)
  | operator (op : BinaryOp)

def Expr.tokens : Expr → List Expr.Token
  | number value => [.number value]
  | identifier name => [.name name]
  | binary op left right => left.tokens ++ .operator op :: right.tokens
  | call1 name arg => .name name :: arg.tokens
  | call2 name first second => .name name :: (first.tokens ++ second.tokens)

def Stmt.tokens : Stmt → List Expr.Token
  | define name value => .name name :: value.tokens
  | evaluate value => value.tokens

namespace Node

/-- The token is what the source has at the node. -/
def Says (source : String) (n : Node) : Expr.Token → Prop
  | .name text => n.span.slice? source = some text
  | .number value => ∃ text, n.span.slice? source = some text ∧
      Numeral.readFinite? text = some value
  | .operator op => n.span.slice? source = some op.symbol

/-- The tokens are said, one by one, by nodes picked from the tree in document order. -/
def Yields (source : String) (top : Node) (ts : List Expr.Token) : Prop :=
  ∃ ns, top.Picks ns ∧ List.Forall₂ (Says source) ns ts

variable {source : String} {n : Node} {ms : List Node}

theorem yields_nil (n : Node) : n.Yields source [] := ⟨[], picks_nil n, .nil⟩

theorem Says.yields {t : Expr.Token} (h : n.Says source t) : n.Yields source [t] :=
  ⟨[n], picks_self n, .cons h .nil⟩

theorem Yields.of_children {tss : List (List Expr.Token)} (hms : ms.Sublist n.children)
    (h : List.Forall₂ (Yields source) ms tss) : n.Yields source tss.flatten := by
  have hpicked : ∃ picked, List.Forall₂ Picks ms picked ∧
      List.Forall₂ (Says source) picked.flatten tss.flatten := by
    clear hms
    induction h with
    | nil => exact ⟨[], .nil, .nil⟩
    | cons hm _ ih =>
      obtain ⟨ns, hpicks, hsays⟩ := hm
      obtain ⟨picked, hrest, hsaid⟩ := ih
      exact ⟨ns :: picked, .cons hpicks hrest, List.rel_append hsays hsaid⟩
  obtain ⟨picked, hpicks, hsays⟩ := hpicked
  exact ⟨picked.flatten, .of_children hms hpicks, hsays⟩

theorem cons_prefix_drop {α : Type} {as bs : List α} {a : α} {i : Nat} (ha : as[i]? = some a)
    (h : bs <+: as.drop (i + 1)) : a :: bs <+: as.drop i := by
  obtain ⟨hi, rfl⟩ := List.getElem?_eq_some_iff.mp ha
  rw [List.drop_eq_getElem_cons hi]
  exact List.cons_prefix_cons.mpr ⟨rfl, h⟩

theorem sublist_children (h : ms <+: n.significant.drop 0) : ms.Sublist n.children :=
  h.sublist.trans List.filter_sublist

theorem content_sublist_children (n : Node) : n.content.Sublist n.children := List.filter_sublist

theorem yields_call {callee list : Node} {name : String} {tss : List (List Expr.Token)}
    (hcallee : n.significant[0]? = some callee) (ht : callee.span.slice? source = some name)
    (hlist : n.significant[1]? = some list)
    (h : List.Forall₂ (Yields source) list.content tss) :
    n.Yields source (.name name :: tss.flatten) := by
  have hms : [callee, list].Sublist n.children :=
    sublist_children (cons_prefix_drop hcallee (cons_prefix_drop hlist List.nil_prefix))
  have hname : callee.Yields source [.name name] := Says.yields ht
  have hargs : list.Yields source tss.flatten := .of_children list.content_sublist_children h
  simpa using Yields.of_children hms (.cons hname (.cons hargs .nil))

theorem Reads.yields {e : Expr} (h : n.Reads source e) : n.Yields source e.tokens := by
  induction h with
  | number _ ht hv => exact Says.yields (t := .number _) ⟨_, ht, hv⟩
  | identifier _ ht => exact Says.yields (t := .name _) ht
  | @binary n left operator right op a b _ hleft hoperator hright _ ht _ iha ihb =>
    have hms : [left, operator, right].Sublist n.children :=
      sublist_children (cons_prefix_drop hleft (cons_prefix_drop hoperator
        (cons_prefix_drop hright List.nil_prefix)))
    have hop : operator.Yields source [.operator op] := Says.yields ht
    simpa [Expr.tokens] using Yields.of_children hms (.cons iha (.cons hop (.cons ihb .nil)))
  | @call1 n callee list arg name a _ hcallee _ ht hlist _ hc _ iha =>
    have hargs : List.Forall₂ (Yields source) list.content [a.tokens] := hc ▸ .cons iha .nil
    simpa [Expr.tokens] using yields_call hcallee ht hlist hargs
  | @call2 n callee list first second name a b _ hcallee _ ht hlist _ hc _ _ iha ihb =>
    have hargs : List.Forall₂ (Yields source) list.content [a.tokens, b.tokens] :=
      hc ▸ .cons iha (.cons ihb .nil)
    simpa [Expr.tokens] using yields_call hcallee ht hlist hargs

theorem Defines.yields {name : String} {e : Expr} (h : n.Defines source name e) :
    n.Yields source (.name name :: e.tokens) := by
  cases h with
  | @mk target equals value _ _ _ htarget _ ht hequals _ hvalue he =>
    have hms : [target, equals, value].Sublist n.children :=
      sublist_children (cons_prefix_drop htarget (cons_prefix_drop hequals
        (cons_prefix_drop hvalue List.nil_prefix)))
    have hname : target.Yields source [.name name] := Says.yields ht
    have hequals : equals.Yields source [] := yields_nil equals
    simpa using Yields.of_children hms (.cons hname (.cons hequals (.cons he.yields .nil)))

theorem Yields.of_single {child : Node} {ts : List Expr.Token} (hc : n.significant = [child])
    (h : child.Yields source ts) : n.Yields source ts := by
  have hms : [child].Sublist n.children := sublist_children (hc ▸ List.prefix_rfl)
  simpa using Yields.of_children hms (.cons h .nil)

theorem ReadsStmt.yields {s : Stmt} (h : n.ReadsStmt source s) : n.Yields source s.tokens := by
  cases h with
  | assignment h => exact h.yields
  | define _ hc h => exact h.yields.of_single hc
  | evaluate _ hc h => exact h.yields.of_single hc

theorem yields_program {root : Node} {p : Program}
    (h : List.Forall₂ (ReadsStmt source) root.content p) :
    root.Yields source (p.flatMap Stmt.tokens) := by
  rw [List.flatMap_def]
  refine Yields.of_children root.content_sublist_children ?_
  rw [List.forall₂_map_right_iff]
  exact h.imp fun _ _ h => h.yields

end Node

/-- The tokens of a lowered program are what the source has at nodes picked from the tree in
document order, one for each. If the spans of the tree are nested, these nodes stand in the order
of the source. -/
theorem tokens_in_document_order {root : Node} {source : String} {p : Program}
    (h : (lower root source).result = .ok p) :
    ∃ ns : List Node, ns.Sublist root.preorder ∧
      List.Forall₂ (Node.Says source) ns (p.flatMap Stmt.tokens) ∧
      (root.SpansNested → ns.Pairwise fun a b => a.span.stop ≤ b.span.start) := by
  cases hfault : root.firstFault? with
  | some fault => rw [result_lower_of_fault hfault] at h; cases h
  | none =>
    rw [result_lower_of_sound hfault] at h
    obtain ⟨ns, hpicks, hsays⟩ := Node.yields_program (Node.result_toProgram_eq_ok.mp h)
    exact ⟨ns, hpicks.sublist, hsays, hpicks.ordered⟩

/-- The tree of `é=f(1,b)`, with a comment between the arguments. -/
def assignedCall : Node :=
  let arguments : List Node :=
    [⟨"(", "", ⟨4, 5⟩, [], false, false, false⟩,
      ⟨"integer", "", ⟨5, 6⟩, [], true, false, false⟩,
      ⟨",", "", ⟨6, 7⟩, [], false, false, false⟩,
      ⟨"comment", "", ⟨7, 7⟩, [], true, true, false⟩,
      ⟨"identifier", "", ⟨7, 8⟩, [], true, false, false⟩,
      ⟨")", "", ⟨8, 9⟩, [], false, false, false⟩]
  let call : Node :=
    ⟨"call", "", ⟨3, 9⟩,
      [⟨"identifier", "", ⟨3, 4⟩, [], true, false, false⟩,
        ⟨"argument_list", "", ⟨4, 9⟩, arguments, true, false, false⟩],
      true, false, false⟩
  ⟨"module", "", ⟨0, 9⟩,
    [⟨"assignment", "", ⟨0, 9⟩,
      [⟨"identifier", "", ⟨0, 2⟩, [], true, false, false⟩,
        ⟨"=", "", ⟨2, 3⟩, [], false, false, false⟩, call],
      true, false, false⟩],
    true, false, false⟩

theorem tokens_of_assignedCall :
    let p : Program :=
      [.define "é" (.call2 "f" (.number ⟨0x3ff0000000000000⟩) (.identifier "b"))]
    (lower assignedCall "é=f(1,b)").result = .ok p ∧ assignedCall.SpansNested ∧
    ∃ ns : List Node, ns.Sublist assignedCall.preorder ∧
      List.Forall₂ (Node.Says "é=f(1,b)") ns (p.flatMap Stmt.tokens) ∧
      ns.Pairwise fun a b => a.span.stop ≤ b.span.start := by
  intro p
  have hlower : (lower assignedCall "é=f(1,b)").result = .ok p := by decide +kernel
  have hnested : assignedCall.SpansNested := by decide
  obtain ⟨ns, hns, hsays, hordered⟩ := tokens_in_document_order hlower
  exact ⟨hlower, hnested, ns, hns, hsays, hordered hnested⟩

end Scriptlet
