import Mathlib.Tactic.Tauto
import Scriptlet.Proofs.Reading.Simulation

/-! # Refusals are faithful

A walk that stops tells the truth about a node of the tree that it walked: the refusal has the
place of that node, and each of its fields is what the tree and the source hold there.
-/

namespace Scriptlet

theorem BinaryOp.ofSymbol?_eq_none_iff {token : String} :
    ofSymbol? token = none ↔ token ∉ [add.symbol, subtract.symbol, multiply.symbol] := by
  unfold ofSymbol?
  split <;> simp_all [symbol]

namespace Node

/-- The node stands between the operands of an operator of the tree. -/
def IsOperator (top n : Node) : Prop :=
  ∃ p ∈ top.preorder, p.kind = NodeKind.binaryOperator.name ∧ p.significant[1]? = some n

/-- The node is one of those whose text is read. -/
def IsRead (top n : Node) : Prop := n.kind ∈ textKinds ∨ top.IsOperator n

end Node

/-- What the refusal tells is so at the node `n` of the tree at `top`. -/
def Refusal.HoldsAt (source : String) (top n : Node) : Refusal → Prop
  | malformedLiteral text _ =>
    n.kind ∈ [NodeKind.integer.name, NodeKind.float.name] ∧
      n.span.slice? source = some text ∧ Numeral.readFinite? text = none
  | unsupportedOperator operator _ =>
    top.IsOperator n ∧ n.span.slice? source = some operator ∧ operator ∉ ["+", "-", "*"]
  | arityMismatch name found _ =>
    n.kind = NodeKind.call.name ∧ ∃ callee list,
      n.significant[0]? = some callee ∧ callee.kind = NodeKind.identifier.name ∧
      callee.span.slice? source = some name ∧
      n.significant[1]? = some list ∧ list.kind = NodeKind.argumentList.name ∧
      list.content.length = found ∧ ¬ (Limits.minArity ≤ found ∧ found ≤ Limits.maxArity)
  | unsupportedSyntax kind _ =>
    kind = n.kind ∨ kind = Walk.expressionList ∧
      n.kind = NodeKind.expressionStatement.name ∧ 2 ≤ n.significant.length
  | malformedNode kind reason _ =>
    n.kind = kind ∧ ∃ s : Shortage,
      kind = s.kind.name ∧ reason = s.reason ∧ n.significant.length = s.place
  | outOfBounds _ => top.IsRead n ∧ n.span.slice? source = none
  | syntaxError _ _ | grammar _ => False

/-- The refusal has the place of a node of the tree at `top`, and what it tells is so there. -/
def Refusal.HoldsIn (source : String) (top : Node) (e : Refusal) : Prop :=
  ∃ n ∈ top.preorder, e.span? = some n.span ∧ e.HoldsAt source top n

/-- The report is refused, if at all, for something that is so in the tree at `top`. -/
def Report.Faithful {α : Type} (source : String) (top : Node) (r : Report α) : Prop :=
  ∀ e, r.result = .error e → e.HoldsIn source top

namespace Report

variable {α β : Type} {source : String} {top : Node}

theorem faithful_pure (a : α) : Faithful source top (pure a) := fun _ h => nomatch h

theorem faithful_note (e : Event) : Faithful source top (note e) := fun _ h => nomatch h

theorem faithful_refuse {n : Node} {r : Refusal} (hn : n ∈ top.preorder)
    (hs : r.span? = some n.span) (h : r.HoldsAt source top n) :
    Faithful source top (refuse r : Report α) := by
  rintro _ ⟨⟩; exact ⟨n, hn, hs, h⟩

theorem Faithful.bind {x : Report α} {f : α → Report β} (hx : Faithful source top x)
    (hf : ∀ a, x.result = .ok a → Faithful source top (f a)) :
    Faithful source top (x >>= f) := by
  intro e he
  rcases result_bind_eq_error.mp he with h | ⟨a, ha, h⟩
  · exact hx e h
  · exact hf a ha e h

theorem Faithful.map {x : Report α} (f : α → β) (hx : Faithful source top x) :
    Faithful source top (f <$> x) := by
  rw [map_eq_pure_bind]
  exact hx.bind fun a _ => faithful_pure (f a)

theorem faithful_mapM {f : α → Report β} {as : List α}
    (h : ∀ a ∈ as, Faithful source top (f a)) : Faithful source top (as.mapM f) := by
  intro e he
  obtain ⟨a, ha, hae⟩ := exists_of_mapM_eq_error he
  exact h a ha e hae

end Report

namespace Node

open Report

variable {source : String} {top n m : Node}

theorem place_lt_of_part_eq_ok {s : Shortage} {m : { m // m ∈ n.children }}
    (h : (n.part s).result = .ok m) : s.place < n.significant.length :=
  (List.getElem?_eq_some_iff.mp (part_eq_ok.mp h)).1

theorem faithful_unsupported {α : Type} (hn : n ∈ top.preorder) :
    Faithful source top (n.unsupported : Report α) :=
  faithful_refuse hn rfl (.inl rfl)

theorem faithful_require {p : Prop} [Decidable p] (hn : n ∈ top.preorder) :
    Faithful source top (n.require p) := by
  unfold require
  split
  · exact faithful_pure ()
  · exact faithful_unsupported hn

theorem faithful_part (s : Shortage) (hn : n ∈ top.preorder) (hk : n.kind = s.kind.name)
    (hs : s.place ≤ n.significant.length) : Faithful source top (n.part s) := by
  unfold part
  split
  · exact faithful_pure _
  next h =>
    have hlen : n.significant.length = s.place :=
      Nat.le_antisymm (List.getElem?_eq_none_iff.mp h) hs
    exact faithful_refuse hn rfl ⟨hk, s, rfl, rfl, hlen⟩

theorem faithful_slice (hn : n ∈ top.preorder) (hr : top.IsRead n) :
    Faithful source top (n.slice source) := by
  unfold slice
  split
  · exact faithful_pure _
  next h => exact faithful_refuse hn rfl ⟨hr, h⟩

theorem faithful_toNumber (hn : n ∈ top.preorder)
    (hk : n.kind ∈ [NodeKind.integer.name, NodeKind.float.name]) :
    Faithful source top (n.toNumber source) := by
  have hr : top.IsRead n := .inl (by simp_all [textKinds]; tauto)
  refine (faithful_slice hn hr).bind fun text ht => ?_
  cases h : Numeral.readFinite? text with
  | some value => exact faithful_pure _
  | none => exact faithful_refuse hn rfl ⟨hk, slice_eq_ok.mp ht, h⟩

theorem faithful_toOperator (hn : n ∈ top.preorder) (ho : top.IsOperator n) :
    Faithful source top (n.toOperator source) := by
  refine (faithful_slice hn (.inr ho)).bind fun token ht => ?_
  cases h : BinaryOp.ofSymbol? token with
  | some op => exact (faithful_note _).bind fun _ _ => faithful_pure _
  | none =>
    exact faithful_refuse hn rfl ⟨ho, slice_eq_ok.mp ht, BinaryOp.ofSymbol?_eq_none_iff.mp h⟩

section Recursion

variable {read : (m : Node) → m.height < n.height → Report Expr}
  (hread : ∀ m h, m ∈ top.preorder → Faithful source top (read m h))
include hread

theorem faithful_toBinary (hn : n ∈ top.preorder) (hk : n.kind = NodeKind.binaryOperator.name) :
    Faithful source top (n.toBinary source read) := by
  refine (faithful_part .leftOperand hn hk (Nat.zero_le _)).bind fun left hl => ?_
  refine (hread _ _ (mem_preorder_child hn left.2)).bind fun a _ => ?_
  refine (faithful_part .operator hn hk (place_lt_of_part_eq_ok hl)).bind fun operator ho => ?_
  have hop : top.IsOperator operator := ⟨n, hn, hk, part_eq_ok.mp ho⟩
  refine (faithful_toOperator (mem_preorder_child hn operator.2) hop).bind fun op _ => ?_
  refine (faithful_part .rightOperand hn hk (place_lt_of_part_eq_ok ho)).bind fun right _ => ?_
  exact (hread _ _ (mem_preorder_child hn right.2)).bind fun b _ => faithful_pure _

omit hread in
theorem faithful_ofArguments {callee list : Node} {name : String} (hn : n ∈ top.preorder)
    (hk : n.kind = NodeKind.call.name) (hc : n.significant[0]? = some callee)
    (hck : callee.kind = NodeKind.identifier.name) (hname : callee.span.slice? source = some name)
    (hl : n.significant[1]? = some list) (hlk : list.kind = NodeKind.argumentList.name)
    {arguments : List Expr} (ha : arguments.length = list.content.length) :
    Faithful source top (ofArguments name n.span arguments) := by
  match arguments with
  | [_] | [_, _] => exact faithful_pure _
  | [] | _ :: _ :: _ :: _ =>
    refine faithful_refuse hn rfl ⟨hk, callee, list, hc, hck, hname, hl, hlk, ha.symm, ?_⟩
    simp [Limits.minArity, Limits.maxArity]

theorem faithful_toCall (hn : n ∈ top.preorder) (hk : n.kind = NodeKind.call.name) :
    Faithful source top (n.toCall source read) := by
  refine (faithful_part .callee hn hk (Nat.zero_le _)).bind fun callee hc => ?_
  have hcn := mem_preorder_child hn callee.2
  refine (faithful_require hcn).bind fun _ hck => ?_
  have hck := (expect_eq_ok (by decide)).mp hck
  refine (faithful_slice hcn (.inl (by simp [textKinds, hck]))).bind fun name hname => ?_
  refine (faithful_part .arguments hn hk (place_lt_of_part_eq_ok hc)).bind fun list hl => ?_
  have hln := mem_preorder_child hn list.2
  refine (faithful_require hln).bind fun _ hlk => ?_
  have hlk := (expect_eq_ok (by decide)).mp hlk
  refine Faithful.bind (faithful_mapM ?_) fun arguments ha => ?_
  · rintro ⟨m, hm⟩ _
    exact hread _ _ (mem_preorder_child hln (mem_of_mem_content hm))
  · have hlen := (mapM_eq_ok.mp ha).length_eq
    rw [List.length_attach] at hlen
    exact faithful_ofArguments hn hk (part_eq_ok.mp hc) hck (slice_eq_ok.mp hname)
      (part_eq_ok.mp hl) hlk hlen.symm

end Recursion

theorem faithful_toExpr (hn : n ∈ top.preorder) : Faithful source top (n.toExpr source) := by
  induction n using inductionOnHeight with
  | step n ih =>
    rw [toExpr]
    refine (faithful_note _).bind fun _ _ => ?_
    cases h : NodeKind.ofName n.kind with
    | integer | float =>
      exact faithful_toNumber hn (by simp [NodeKind.eq_name_of_ofName h])
    | identifier =>
      have hr : top.IsRead n := .inl (by simp [textKinds, NodeKind.eq_name_of_ofName h])
      exact (faithful_slice hn hr).bind fun _ _ => faithful_pure _
    | binaryOperator => exact faithful_toBinary ih hn (NodeKind.eq_name_of_ofName h)
    | call => exact faithful_toCall ih hn (NodeKind.eq_name_of_ofName h)
    | module | expressionStatement | assignment | argumentList | other =>
      exact faithful_unsupported hn

theorem faithful_toDefinition (hn : n ∈ top.preorder) (hk : n.kind = NodeKind.assignment.name) :
    Faithful source top (n.toDefinition source) := by
  refine (faithful_part .target hn hk (Nat.zero_le _)).bind fun target ht => ?_
  have htn := mem_preorder_child hn target.2
  refine (faithful_require htn).bind fun _ htk => ?_
  have htk := (expect_eq_ok (by decide)).mp htk
  refine (faithful_slice htn (.inl (by simp [textKinds, htk]))).bind fun name _ => ?_
  refine (faithful_part .equals hn hk (place_lt_of_part_eq_ok ht)).bind fun equals he => ?_
  refine (faithful_require (mem_preorder_child hn equals.2)).bind fun _ _ => ?_
  refine (faithful_part .value hn hk (place_lt_of_part_eq_ok he)).bind fun value _ => ?_
  exact (faithful_toExpr (mem_preorder_child hn value.2)).bind fun _ _ => faithful_pure _

theorem faithful_toBody (hn : n ∈ top.preorder) : Faithful source top (n.toBody source) := by
  unfold toBody
  cases h : NodeKind.ofName n.kind with
  | assignment => exact faithful_toDefinition hn (NodeKind.eq_name_of_ofName h)
  | module | expressionStatement | integer | float | identifier | binaryOperator | call |
      argumentList | other =>
    exact (faithful_toExpr hn).map Stmt.evaluate

theorem faithful_expectSingle (hn : n ∈ top.preorder)
    (hk : n.kind = NodeKind.expressionStatement.name) :
    Faithful source top n.expectSingle := by
  unfold expectSingle
  split
  next hlen => exact faithful_refuse hn rfl (.inr ⟨rfl, hk, hlen⟩)
  next => exact faithful_pure ()

theorem faithful_toEvaluation (hn : n ∈ top.preorder)
    (hk : n.kind = NodeKind.expressionStatement.name) :
    Faithful source top (n.toEvaluation source) := by
  refine (faithful_part .statement hn hk (Nat.zero_le _)).bind fun child _ => ?_
  refine (faithful_toBody (mem_preorder_child hn child.2)).bind fun stmt _ => ?_
  exact (faithful_expectSingle hn hk).bind fun _ _ => faithful_pure _

theorem faithful_toStmt (hn : n ∈ top.preorder) : Faithful source top (n.toStmt source) := by
  refine (faithful_note _).bind fun _ _ => ?_
  cases h : NodeKind.ofName n.kind with
  | assignment => exact faithful_toDefinition hn (NodeKind.eq_name_of_ofName h)
  | expressionStatement =>
    exact faithful_toEvaluation hn (NodeKind.eq_name_of_ofName h)
  | module | integer | float | identifier | binaryOperator | call | argumentList | other =>
    exact faithful_unsupported hn

theorem faithful_toProgram (root : Node) (source : String) :
    Faithful source root (root.toProgram source) :=
  faithful_mapM fun _ hm =>
    faithful_toStmt (mem_preorder_child (mem_preorder_self root) (mem_of_mem_content hm))

end Node

namespace Walk

/-- A program, a statement or an expression is refused only for something that is so at a node of
the tree that was walked, and the refusal has the place of this node. -/
theorem exists_node_of_refusal (source : String) (w : Walker Cursor) (e : Refusal) :
    (((program source).run w).1 = .error e → e.HoldsIn source w.cursor.root.node) ∧
    (((stmt source).run w).1 = .error e → e.HoldsIn source w.cursor.node) ∧
    (((expr source).run w).1 = .error e → e.HoldsIn source w.cursor.node) := by
  rw [(follows_program source w.cursor).result_eq, (follows_stmt source w.cursor).result_eq,
    (follows_expr source w.cursor).result_eq]
  have hn := w.cursor.node.mem_preorder_self
  exact ⟨w.cursor.root.node.faithful_toProgram source e, Node.faithful_toStmt hn e,
    Node.faithful_toExpr hn e⟩

def emptyCall : Node :=
  ⟨"call", "", ⟨0, 3⟩,
    [⟨"identifier", "", ⟨0, 1⟩, [], true, false, false⟩,
      ⟨"argument_list", "", ⟨1, 3⟩,
        [⟨"(", "", ⟨1, 2⟩, [], false, false, false⟩, ⟨")", "", ⟨2, 3⟩, [], false, false, false⟩],
        true, false, false⟩],
    true, false, false⟩

def emptyCallStatement : Node :=
  ⟨"expression_statement", "", ⟨0, 3⟩, [emptyCall], true, false, false⟩

def emptyCallModule : Node := ⟨"module", "", ⟨0, 3⟩, [emptyCallStatement], true, false, false⟩

/-- A call without arguments is refused for its arity, wherever the walk started above it. -/
theorem holdsIn_emptyCall :
    let e : Refusal := .arityMismatch "f" 0 ⟨0, 3⟩
    let inModule : Walker Cursor := .start (.ofRoot emptyCallModule)
    let inStatement : Walker Cursor := .start ⟨emptyCallStatement, [(emptyCallModule, 0)]⟩
    let inCall : Walker Cursor :=
      .start ⟨emptyCall, [(emptyCallStatement, 0), (emptyCallModule, 0)]⟩
    (((program "f()").run inModule).1 = .error e ∧ e.HoldsIn "f()" emptyCallModule) ∧
    (((stmt "f()").run inStatement).1 = .error e ∧ e.HoldsIn "f()" emptyCallStatement) ∧
    (((expr "f()").run inCall).1 = .error e ∧ e.HoldsIn "f()" emptyCall) := by
  intro e inModule inStatement inCall
  have hmodule : ((program "f()").run inModule).1 = .error e := by decide +kernel
  have hstatement : ((stmt "f()").run inStatement).1 = .error e := by decide +kernel
  have hcall : ((expr "f()").run inCall).1 = .error e := by decide +kernel
  have hroot : inModule.cursor.root.node = emptyCallModule :=
    congrArg Cursor.node (Cursor.root_ofRoot emptyCallModule)
  exact ⟨⟨hmodule, hroot ▸ (exists_node_of_refusal "f()" inModule e).1 hmodule⟩,
    ⟨hstatement, (exists_node_of_refusal "f()" inStatement e).2.1 hstatement⟩,
    ⟨hcall, (exists_node_of_refusal "f()" inCall e).2.2 hcall⟩⟩

end Walk

end Scriptlet
