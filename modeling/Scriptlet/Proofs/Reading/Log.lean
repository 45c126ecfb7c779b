import Mathlib.Algebra.GroupWithZero.Nat
import Scriptlet.Proofs.Reading.Derivation
import Scriptlet.Proofs.Tree.Selection

/-! # The events of a reading

A reading tells traces only, and these visit nodes of the tree in document order, none of them
twice, however the reading ends. The traces of a program that was read tell how many statements and
expressions it has, and its operators between their operands.
-/

namespace Scriptlet

namespace Event

/-- The kind and place of the node that is visited. -/
def visit? : Event → Option (String × Span)
  | statement kind span | expression kind span => some (kind, span)
  | parsing _ | operator _ | rejected _ _ | lowered _ _ => none

def operator? : Event → Option BinaryOp
  | operator op => some op
  | parsing _ | statement _ _ | expression _ _ | rejected _ _ | lowered _ _ => none

def isStatement : Event → Bool
  | statement _ _ => true
  | parsing _ | expression _ _ | operator _ | rejected _ _ | lowered _ _ => false

def isExpression : Event → Bool
  | expression _ _ => true
  | parsing _ | statement _ _ | operator _ | rejected _ _ | lowered _ _ => false

end Event

namespace Expr

def size : Expr → Nat
  | number _ | identifier _ => 1
  | binary _ left right => 1 + left.size + right.size
  | call1 _ arg => 1 + arg.size
  | call2 _ first second => 1 + first.size + second.size

def operators : Expr → List BinaryOp
  | number _ | identifier _ => []
  | binary op left right => left.operators ++ op :: right.operators
  | call1 _ arg => arg.operators
  | call2 _ first second => first.operators ++ second.operators

end Expr

def Node.heading (n : Node) : String × Span := (n.kind, n.span)

namespace Report

variable {α β : Type} {ns ms : List Node}

/-- All events are traces, and they visit some of the nodes in their order. -/
structure Traces (ns : List Node) (r : Report α) : Prop where
  level : ∀ e ∈ r.events, e.level = .trace
  visits : (r.events.filterMap Event.visit?).Sublist (ns.map Node.heading)

theorem traces_silent {r : Report α} (h : r.events = []) : Traces ns r where
  level := by rw [h]; exact List.forall_mem_nil _
  visits := by rw [h]; exact List.nil_sublist _

theorem traces_operator (op : BinaryOp) : Traces ns (note (.operator op)) where
  level := by simp [Event.level]
  visits := List.nil_sublist _

theorem traces_expression (n : Node) : Traces [n] (note (.expression n.kind n.span)) where
  level := by simp [Event.level]
  visits := List.Sublist.refl _

theorem traces_statement (n : Node) : Traces [n] (note (.statement n.kind n.span)) where
  level := by simp [Event.level]
  visits := List.Sublist.refl _

theorem Traces.mono {r : Report α} (h : Traces ns r) (hs : ns.Sublist ms) : Traces ms r where
  level := h.level
  visits := h.visits.trans (hs.map Node.heading)

theorem Traces.skip {r : Report α} (h : Traces ms r) : Traces (ns ++ ms) r :=
  h.mono (List.sublist_append_right ns ms)

theorem Traces.bind {x : Report α} {f : α → Report β} (hx : Traces ns x)
    (hf : ∀ a, x.result = .ok a → Traces ms (f a)) : Traces (ns ++ ms) (x >>= f) := by
  cases h : x.result with
  | error r =>
    rw [bind_of_error h]
    exact ⟨hx.level, (hx.mono (List.sublist_append_left ns ms)).visits⟩
  | ok a =>
    rw [bind_of_ok h]
    refine ⟨?_, ?_⟩
    · exact List.forall_mem_append.mpr ⟨hx.level, (hf a h).level⟩
    · rw [List.filterMap_append, List.map_append]
      exact hx.visits.append (hf a h).visits

theorem Traces.after {x : Report α} {f : α → Report β} (hx : x.events = [])
    (hf : ∀ a, x.result = .ok a → Traces ns (f a)) : Traces ns (x >>= f) :=
  (traces_silent hx : Traces [] x).bind hf

theorem Traces.map {r : Report α} (f : α → β) (h : Traces ns r) : Traces ns (f <$> r) := by
  rw [map_eq_pure_bind, ← ns.append_nil]
  exact h.bind fun _ _ => traces_silent rfl

theorem traces_mapM {f : Node → Report β} (h : ∀ n ∈ ns, Traces n.preorder (f n)) :
    Traces (Node.preorderAll ns) (ns.mapM f) := by
  induction ns with
  | nil => exact traces_silent rfl
  | cons n ns ih =>
    obtain ⟨hn, hns⟩ := List.forall_mem_cons.mp h
    rw [List.mapM_cons]
    refine hn.bind fun _ _ => ?_
    exact Traces.map (_ :: ·) (ih hns)

end Report

namespace Node

open Report

variable {n : Node} {source : String}

theorem preorderAll_children_sublist (n : Node) : (preorderAll n.children).Sublist n.preorder := by
  rw [preorder_eq]; exact List.sublist_cons_self _ _

theorem significant_sublist (n : Node) : n.significant.Sublist n.children := List.filter_sublist

theorem events_require (n : Node) (p : Prop) [Decidable p] : (n.require p).events = [] := by
  unfold require
  split <;> rfl

theorem events_slice (n : Node) (source : String) : (n.slice source).events = [] := by
  unfold slice
  cases n.span.slice? source <;> rfl

theorem events_ofArguments (name : String) (span : Span) (arguments : List Expr) :
    (ofArguments name span arguments).events = [] := by
  match arguments with
  | [_] | [_, _] | [] | _ :: _ :: _ :: _ => rfl

theorem traces_part {β : Type} (s : Shortage) {f : { m // m ∈ n.children } → Report β}
    (h : ∀ m, Traces (m.1.preorder ++ preorderAll (n.significant.drop (s.place + 1))) (f m)) :
    Traces (preorderAll (n.significant.drop s.place)) (n.part s >>= f) := by
  cases hm : n.significant[s.place]? with
  | none =>
    rw [part_of_none hm]
    exact traces_silent rfl
  | some m =>
    obtain ⟨hi, rfl⟩ := List.getElem?_eq_some_iff.mp hm
    rw [part_of_some hm, pure_bind, List.drop_eq_getElem_cons hi]
    exact h ⟨n.significant[s.place], _⟩

theorem traces_toNumber (n : Node) (source : String) : Traces [] (n.toNumber source) := by
  refine .after (events_slice n source) fun text _ => ?_
  cases Numeral.readFinite? text <;> exact traces_silent rfl

theorem traces_toOperator (n : Node) (source : String) : Traces [] (n.toOperator source) := by
  refine .after (events_slice n source) fun token _ => ?_
  cases BinaryOp.ofSymbol? token with
  | some op => exact (traces_operator op : Traces [] _).bind fun _ _ => traces_silent rfl
  | none => exact traces_silent rfl

section Recursion

variable (ih : ∀ m : Node, m.height < n.height → Traces m.preorder (m.toExpr source))
include ih

theorem traces_toBinary :
    Traces (preorderAll n.significant) (n.toBinary source fun m _ => m.toExpr source) := by
  refine traces_part .leftOperand fun left => ?_
  refine (ih left (height_lt_of_mem left.2)).bind fun _ _ => ?_
  refine traces_part .operator fun operator => ?_
  -- The operator is told, but it is no place of its own in the log.
  refine .skip ((traces_toOperator operator source).bind fun _ _ => ?_)
  refine traces_part .rightOperand fun right => ?_
  exact (ih right (height_lt_of_mem right.2)).bind fun _ _ => traces_silent rfl

theorem traces_toCall :
    Traces (preorderAll n.significant) (n.toCall source fun m _ => m.toExpr source) := by
  refine traces_part .callee fun callee => .skip ?_
  refine .after (events_require _ _) fun _ _ => .after (events_slice _ _) fun name _ => ?_
  refine traces_part .arguments fun list => .after (events_require _ _) fun _ _ => ?_
  rw [mapM_attach _ fun m => m.toExpr source]
  have harguments : Traces list.1.preorder (list.1.content.mapM fun m => m.toExpr source) := by
    refine (traces_mapM fun m hm => ih m (height_lt_of_mem_content list.2 hm)).mono ?_
    exact (preorderAll_sublist List.filter_sublist).trans (preorderAll_children_sublist list)
  exact harguments.bind fun arguments _ => traces_silent (events_ofArguments name n.span arguments)

end Recursion

theorem traces_toExpr (n : Node) (source : String) : Traces n.preorder (n.toExpr source) := by
  induction n using inductionOnHeight with
  | step n ih =>
    have hbelow := preorderAll_sublist n.significant_sublist
    rw [toExpr, preorder_eq]
    refine (traces_expression n).bind fun _ _ => ?_
    cases NodeKind.ofName n.kind with
    | integer | float => exact (traces_toNumber n source).mono (List.nil_sublist _)
    | identifier => exact .after (events_slice n source) fun _ _ => traces_silent rfl
    | binaryOperator => exact (traces_toBinary ih).mono hbelow
    | call => exact (traces_toCall ih).mono hbelow
    | module | expressionStatement | assignment | argumentList | other => exact traces_silent rfl

theorem traces_toDefinition (n : Node) (source : String) :
    Traces (preorderAll n.significant) (n.toDefinition source) := by
  refine traces_part .target fun target => .skip ?_
  refine .after (events_require _ _) fun _ _ => .after (events_slice _ _) fun name _ => ?_
  refine traces_part .equals fun equals => .skip (.after (events_require _ _) fun _ _ => ?_)
  refine traces_part .value fun value => ?_
  exact (traces_toExpr value source).bind fun _ _ => traces_silent rfl

theorem traces_toBody (n : Node) (source : String) : Traces n.preorder (n.toBody source) := by
  unfold toBody
  cases NodeKind.ofName n.kind with
  | assignment =>
    refine (traces_toDefinition n source).mono ?_
    exact (preorderAll_sublist n.significant_sublist).trans n.preorderAll_children_sublist
  | module | expressionStatement | integer | float | identifier | binaryOperator | call |
      argumentList | other =>
    exact (traces_toExpr n source).map Stmt.evaluate

theorem traces_toEvaluation (n : Node) (source : String) :
    Traces (preorderAll n.significant) (n.toEvaluation source) := by
  refine traces_part .statement fun child => ?_
  refine (traces_toBody child source).bind fun _ _ => .after ?_ fun _ _ => traces_silent rfl
  unfold expectSingle
  split <;> rfl

theorem traces_toStmt (n : Node) (source : String) : Traces n.preorder (n.toStmt source) := by
  have hbelow := preorderAll_sublist n.significant_sublist
  rw [toStmt, preorder_eq]
  refine (traces_statement n).bind fun _ _ => ?_
  cases NodeKind.ofName n.kind with
  | assignment => exact (traces_toDefinition n source).mono hbelow
  | expressionStatement => exact (traces_toEvaluation n source).mono hbelow
  | module | integer | float | identifier | binaryOperator | call | argumentList | other =>
    exact traces_silent rfl

theorem traces_toProgram (root : Node) (source : String) :
    Traces root.preorder (root.toProgram source) := by
  refine (traces_mapM fun n _ => traces_toStmt n source).mono ?_
  exact (preorderAll_sublist List.filter_sublist).trans root.preorderAll_children_sublist

end Node

/-- The events tell of so many statements and expressions, and of these operators. -/
structure Event.Count (events : List Event) (statements expressions : Nat)
    (operators : List BinaryOp) : Prop where
  statements : events.countP isStatement = statements
  expressions : events.countP isExpression = expressions
  operators : events.filterMap operator? = operators

theorem Event.Count.append {es fs : List Event} {a b c d : Nat} {os ps : List BinaryOp}
    (he : Count es a b os) (hf : Count fs c d ps) :
    Count (es ++ fs) (a + c) (b + d) (os ++ ps) where
  statements := by rw [List.countP_append, he.statements, hf.statements]
  expressions := by rw [List.countP_append, he.expressions, hf.expressions]
  operators := by rw [List.filterMap_append, he.operators, hf.operators]

theorem Event.Count.flatMap {α β : Type} {as : List α} {bs : List β} {events : α → List Event}
    {statements expressions : β → Nat} {operators : β → List BinaryOp}
    (h : List.Forall₂
      (fun a b => Count (events a) (statements b) (expressions b) (operators b)) as bs) :
    Count (as.flatMap events) (bs.map statements).sum (bs.map expressions).sum
      (bs.flatMap operators) := by
  induction h with
  | nil => exact ⟨rfl, rfl, rfl⟩
  | cons hab _ ih => exact hab.append ih

theorem Report.events_mapM {α β : Type} {f : α → Report β} {as : List α} {bs : List β}
    (h : List.Forall₂ (fun a b => (f a).result = .ok b) as bs) :
    (as.mapM f).events = as.flatMap fun a => (f a).events := by
  induction h with
  | nil => rfl
  | cons ha hrest ih =>
    rw [List.mapM_cons, bind_of_ok ha, bind_of_ok (mapM_eq_ok.mpr hrest), List.flatMap_cons, ih]
    simp

namespace Node

open Report Event

variable {n left operator right callee list : Node} {source name : String} {op : BinaryOp}
  {a b : Expr} {arguments : List Expr}

theorem events_toOperator (h : n.span.slice? source = some op.symbol) :
    (n.toOperator source).events = [.operator op] := by
  rw [toOperator, slice_of_some h, pure_bind, BinaryOp.ofSymbol?_symbol]
  rfl

theorem events_toBinary (hleft : n.significant[0]? = some left)
    (hoperator : n.significant[1]? = some operator) (hright : n.significant[2]? = some right)
    (ha : (left.toExpr source).result = .ok a) (ht : operator.span.slice? source = some op.symbol)
    (hb : (right.toExpr source).result = .ok b) :
    (n.toBinary source fun m _ => m.toExpr source).events =
      (left.toExpr source).events ++ .operator op :: (right.toExpr source).events := by
  simp only [toBinary, part_of_some (s := .leftOperand) hleft,
    part_of_some (s := .operator) hoperator, part_of_some (s := .rightOperand) hright, pure_bind,
    bind_of_ok ha, bind_of_ok (toOperator_eq_ok.mpr ht), events_toOperator ht, bind_of_ok hb]
  simp

theorem events_toCall (hcallee : n.significant[0]? = some callee)
    (hck : callee.kind = NodeKind.identifier.name) (ht : callee.span.slice? source = some name)
    (hlist : n.significant[1]? = some list) (hlk : list.kind = NodeKind.argumentList.name)
    (ha : List.Forall₂ (fun m a => (m.toExpr source).result = .ok a) list.content arguments) :
    (n.toCall source fun m _ => m.toExpr source).events =
      list.content.flatMap fun m => (m.toExpr source).events := by
  rw [toCall_eq_mapM (toExpr source) hcallee hck ht hlist hlk, bind_of_ok (mapM_eq_ok.mpr ha),
    events_mapM ha, events_ofArguments, List.append_nil]

/-- The node is read as the expression, and the events tell of it. -/
def Recounts (source : String) (n : Node) (e : Expr) : Prop :=
  (n.toExpr source).result = .ok e ∧ Count (n.toExpr source).events 0 e.size e.operators

theorem count_expression (n : Node) : Count [.expression n.kind n.span] 0 1 [] := ⟨rfl, rfl, rfl⟩

theorem count_call (hk : n.kind = NodeKind.call.name) (hcallee : n.significant[0]? = some callee)
    (hck : callee.kind = NodeKind.identifier.name) (ht : callee.span.slice? source = some name)
    (hlist : n.significant[1]? = some list) (hlk : list.kind = NodeKind.argumentList.name)
    (ha : List.Forall₂ (Recounts source) list.content arguments) :
    Count (n.toExpr source).events 0 (1 + (arguments.map Expr.size).sum)
      (arguments.flatMap Expr.operators) := by
  have hcall := events_toCall hcallee hck ht hlist hlk (ha.imp fun _ _ h => h.1)
  have hcount := Count.flatMap (ha.imp fun _ _ h => h.2)
  rw [toExpr, hk, NodeKind.ofName_name, bind_of_ok (result_note _)]
  rw [← hcall] at hcount
  simpa [hk] using (count_expression n).append hcount

theorem Reads.count (h : n.Reads source a) :
    Count (n.toExpr source).events 0 a.size a.operators := by
  induction h with
  | @number n text value hk ht hv =>
    have hnumber : n.toNumber source = pure (.number value) := by
      rw [toNumber, slice_of_some ht, pure_bind, hv]
    rcases hk with hk | hk
    · rw [toExpr, hk, NodeKind.ofName_name, hnumber]
      exact ⟨rfl, rfl, rfl⟩
    · rw [toExpr, hk, NodeKind.ofName_name, hnumber]
      exact ⟨rfl, rfl, rfl⟩
  | identifier hk ht =>
    rw [toExpr, hk, NodeKind.ofName_name, slice_of_some ht, pure_bind]
    exact ⟨rfl, rfl, rfl⟩
  | @binary n left operator right op a b hk hleft hoperator hright ha ht hb iha ihb =>
    have hop : Count [.operator op] 0 0 [op] := ⟨rfl, rfl, rfl⟩
    have hbinary := events_toBinary hleft hoperator hright ha.result_toExpr ht hb.result_toExpr
    have hcount := (count_expression n).append (iha.append (hop.append ihb))
    rw [toExpr, hk, NodeKind.ofName_name, bind_of_ok (result_note _)]
    simpa [hk, hbinary, Expr.size, Expr.operators, Nat.add_assoc] using hcount
  | @call1 n callee list arg name a hk hcallee hck ht hlist hlk hc ha iha =>
    have harguments : List.Forall₂ (Recounts source) list.content [a] :=
      hc ▸ .cons ⟨ha.result_toExpr, iha⟩ .nil
    have hcount := count_call hk hcallee hck ht hlist hlk harguments
    simpa [Expr.size, Expr.operators] using hcount
  | @call2 n callee list first second name a b hk hcallee hck ht hlist hlk hc ha hb iha ihb =>
    have harguments : List.Forall₂ (Recounts source) list.content [a, b] :=
      hc ▸ .cons ⟨ha.result_toExpr, iha⟩ (.cons ⟨hb.result_toExpr, ihb⟩ .nil)
    have hcount := count_call hk hcallee hck ht hlist hlk harguments
    simpa [Expr.size, Expr.operators, Nat.add_assoc] using hcount

theorem Defines.count (h : n.Defines source name a) :
    Count (n.toDefinition source).events 0 a.size a.operators := by
  obtain ⟨-, htarget, htk, ht, hequals, hek, hvalue, he⟩ := h
  have hequal {m : Node} (h : m.kind = "=") : m.require (m.kind = "=") = pure () := if_pos h
  simp only [toDefinition, part_of_some (s := .target) htarget,
    part_of_some (s := .equals) hequals, part_of_some (s := .value) hvalue, pure_bind,
    expect_of_kind htk, slice_of_some ht, hequal hek, bind_of_ok he.result_toExpr]
  simpa using he.count

theorem Defines.count_toBody (h : n.Defines source name a) :
    Count (n.toBody source).events 0 a.size a.operators := by
  rw [toBody, h.kind_eq, NodeKind.ofName_name]
  exact h.count

theorem Reads.count_toBody (h : n.Reads source a) :
    Count (n.toBody source).events 0 a.size a.operators := by
  have hbody : n.toBody source = Stmt.evaluate <$> n.toExpr source := by
    unfold toBody
    split
    next hk => exact absurd (NodeKind.eq_name_of_ofName hk) h.kind_ne_assignment
    next => rfl
  rw [hbody, map_eq_pure_bind, bind_of_ok h.result_toExpr]
  simpa using h.count

theorem events_toEvaluation {child : Node} {s : Stmt} (hc : n.significant = [child])
    (hs : (child.toBody source).result = .ok s) :
    (n.toEvaluation source).events = (child.toBody source).events := by
  have hzero : n.significant[0]? = some child := by rw [hc]; rfl
  have hsingle : n.expectSingle = pure () := by
    rw [expectSingle, hc]
    exact if_neg (Nat.lt_irrefl 1)
  simp only [toEvaluation, part_of_some (s := .statement) hzero, pure_bind, bind_of_ok hs, hsingle]
  simp

theorem ReadsStmt.count {s : Stmt} (h : n.ReadsStmt source s) :
    Count (n.toStmt source).events 1 s.expr.size s.expr.operators := by
  have hself : Count [.statement n.kind n.span] 1 0 [] := ⟨rfl, rfl, rfl⟩
  cases h with
  | @assignment name e h =>
    have hcount := hself.append h.count
    rw [toStmt, h.kind_eq, NodeKind.ofName_name, bind_of_ok (result_note _)]
    simpa [h.kind_eq, Stmt.expr] using hcount
  | @define child name e hk hc h =>
    have hevents := events_toEvaluation hc (toBody_eq_ok.mpr (.inl ⟨name, e, h, rfl⟩))
    have hcount := hself.append h.count_toBody
    rw [toStmt, hk, NodeKind.ofName_name, bind_of_ok (result_note _)]
    simpa [hk, hevents, Stmt.expr] using hcount
  | @evaluate child e hk hc h =>
    have hevents := events_toEvaluation hc (toBody_eq_ok.mpr (.inr ⟨e, h, rfl⟩))
    have hcount := hself.append h.count_toBody
    rw [toStmt, hk, NodeKind.ofName_name, bind_of_ok (result_note _)]
    simpa [hk, hevents, Stmt.expr] using hcount

theorem count_toProgram {root : Node} {p : Program}
    (h : (root.toProgram source).result = .ok p) :
    Count (root.toProgram source).events p.length (p.map (·.expr.size)).sum
      (p.flatMap (·.expr.operators)) := by
  have hp := result_toProgram_eq_ok.mp h
  have hcount := Count.flatMap (hp.imp fun _ _ h => h.count)
  rw [toProgram, events_mapM (mapM_eq_ok.mp h)]
  simpa using hcount

end Node

end Scriptlet
