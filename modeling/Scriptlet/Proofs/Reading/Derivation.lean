import Scriptlet.Proofs.Reading.Basic

/-! # Derivations

What a node stands for, by one rule for each form of expression and statement. A reading succeeds
just with what can be derived.
-/

namespace Scriptlet

namespace Node

/-- The node stands for the expression in the source. -/
inductive Reads (source : String) : Node → Expr → Prop
  | number {n : Node} {text : String} {value : Binary64}
      (hk : n.kind = NodeKind.integer.name ∨ n.kind = NodeKind.float.name)
      (ht : n.span.slice? source = some text) (hv : Numeral.readFinite? text = some value) :
      Reads source n (.number value)
  | identifier {n : Node} {name : String} (hk : n.kind = NodeKind.identifier.name)
      (ht : n.span.slice? source = some name) : Reads source n (.identifier name)
  | binary {n left operator right : Node} {op : BinaryOp} {a b : Expr}
      (hk : n.kind = NodeKind.binaryOperator.name)
      (hleft : n.significant[0]? = some left) (hoperator : n.significant[1]? = some operator)
      (hright : n.significant[2]? = some right) (ha : Reads source left a)
      (ht : operator.span.slice? source = some op.symbol) (hb : Reads source right b) :
      Reads source n (.binary op a b)
  | call1 {n callee list arg : Node} {name : String} {a : Expr}
      (hk : n.kind = NodeKind.call.name) (hcallee : n.significant[0]? = some callee)
      (hck : callee.kind = NodeKind.identifier.name)
      (ht : callee.span.slice? source = some name) (hlist : n.significant[1]? = some list)
      (hlk : list.kind = NodeKind.argumentList.name) (hc : list.content = [arg])
      (ha : Reads source arg a) : Reads source n (.call1 name a)
  | call2 {n callee list first second : Node} {name : String} {a b : Expr}
      (hk : n.kind = NodeKind.call.name) (hcallee : n.significant[0]? = some callee)
      (hck : callee.kind = NodeKind.identifier.name)
      (ht : callee.span.slice? source = some name) (hlist : n.significant[1]? = some list)
      (hlk : list.kind = NodeKind.argumentList.name) (hc : list.content = [first, second])
      (ha : Reads source first a) (hb : Reads source second b) :
      Reads source n (.call2 name a b)

/-- The node is an assignment of the expression to the name in the source. -/
inductive Defines (source : String) : Node → String → Expr → Prop
  | mk {n target equals value : Node} {name : String} {e : Expr}
      (hk : n.kind = NodeKind.assignment.name) (htarget : n.significant[0]? = some target)
      (htk : target.kind = NodeKind.identifier.name)
      (ht : target.span.slice? source = some name) (hequals : n.significant[1]? = some equals)
      (hek : equals.kind = "=") (hvalue : n.significant[2]? = some value)
      (he : value.Reads source e) : Defines source n name e

/-- The node stands for the statement in the source. -/
inductive ReadsStmt (source : String) : Node → Stmt → Prop
  | assignment {n : Node} {name : String} {e : Expr} (h : n.Defines source name e) :
      ReadsStmt source n (.define name e)
  | define {n child : Node} {name : String} {e : Expr}
      (hk : n.kind = NodeKind.expressionStatement.name) (hc : n.significant = [child])
      (h : child.Defines source name e) : ReadsStmt source n (.define name e)
  | evaluate {n child : Node} {e : Expr}
      (hk : n.kind = NodeKind.expressionStatement.name) (hc : n.significant = [child])
      (h : child.Reads source e) : ReadsStmt source n (.evaluate e)

open Report

variable {n : Node} {source : String}

theorem Defines.kind_eq {name : String} {e : Expr} (h : n.Defines source name e) :
    n.kind = NodeKind.assignment.name := by
  cases h; assumption

theorem toNumber_eq_ok {e : Expr} :
    (n.toNumber source).result = .ok e ↔ ∃ text value, n.span.slice? source = some text ∧
      Numeral.readFinite? text = some value ∧ e = .number value := by
  simp only [toNumber, result_bind_eq_ok, slice_eq_ok]
  constructor
  · rintro ⟨text, ht, h⟩
    cases hv : Numeral.readFinite? text with
    | some value =>
      rw [hv] at h
      exact ⟨text, value, ht, hv, (Except.ok.inj h).symm⟩
    | none => rw [hv] at h; cases h
  · rintro ⟨text, value, ht, hv, rfl⟩
    exact ⟨text, ht, by rw [hv]; rfl⟩

theorem toOperator_eq_ok {op : BinaryOp} :
    (n.toOperator source).result = .ok op ↔ n.span.slice? source = some op.symbol := by
  simp only [toOperator, result_bind_eq_ok, slice_eq_ok]
  constructor
  · rintro ⟨token, ht, h⟩
    cases ho : BinaryOp.ofSymbol? token with
    | some op' =>
      rw [ho] at h
      cases h
      rw [ht, BinaryOp.symbol_of_ofSymbol? ho]
    | none => rw [ho] at h; cases h
  · intro ht
    exact ⟨op.symbol, ht, by rw [BinaryOp.ofSymbol?_symbol]; rfl⟩

theorem ofArguments_eq_ok {name : String} {span : Span} {arguments : List Expr} {e : Expr} :
    (ofArguments name span arguments).result = .ok e ↔
      (∃ a, arguments = [a] ∧ e = .call1 name a) ∨
        ∃ a b, arguments = [a, b] ∧ e = .call2 name a b := by
  match arguments with
  | [a] => simp [ofArguments, eq_comm]
  | [a, b] => simp [ofArguments, eq_comm]
  | [] | _ :: _ :: _ :: _ => simp [ofArguments]

theorem toBinary_eq_ok {read : Node → Report Expr} {e : Expr} :
    (n.toBinary source fun m _ => read m).result = .ok e ↔ ∃ left operator right op a b,
      n.significant[0]? = some left ∧ n.significant[1]? = some operator ∧
      n.significant[2]? = some right ∧ (read left).result = .ok a ∧
      operator.span.slice? source = some op.symbol ∧ (read right).result = .ok b ∧
      e = .binary op a b := by
  simp only [toBinary, result_bind_eq_ok, part_eq_ok, toOperator_eq_ok, result_pure]
  constructor
  · rintro ⟨left, hl, a, ha, operator, ho, op, hop, right, hr, b, hb, h⟩
    exact ⟨left, operator, right, op, a, b, hl, ho, hr, ha, hop, hb, (Except.ok.inj h).symm⟩
  · rintro ⟨left, operator, right, op, a, b, hl, ho, hr, ha, hop, hb, rfl⟩
    exact ⟨⟨left, mem_of_significant_getElem? hl⟩, hl, a, ha,
      ⟨operator, mem_of_significant_getElem? ho⟩, ho, op, hop,
      ⟨right, mem_of_significant_getElem? hr⟩, hr, b, hb, rfl⟩

theorem toCall_eq_ok {read : Node → Report Expr} {e : Expr} :
    (n.toCall source fun m _ => read m).result = .ok e ↔ ∃ callee list name arguments,
      n.significant[0]? = some callee ∧ callee.kind = NodeKind.identifier.name ∧
      callee.span.slice? source = some name ∧
      n.significant[1]? = some list ∧ list.kind = NodeKind.argumentList.name ∧
      List.Forall₂ (fun m a => (read m).result = .ok a) list.content arguments ∧
      (ofArguments name n.span arguments).result = .ok e := by
  simp only [toCall, mapM_attach, result_bind_eq_ok, part_eq_ok, slice_eq_ok, mapM_eq_ok,
    expect_eq_ok (k := .identifier) (by decide), expect_eq_ok (k := .argumentList) (by decide)]
  constructor
  · rintro ⟨callee, hc, _, hck, name, ht, list, hl, _, hlk, arguments, ha, h⟩
    exact ⟨callee, list, name, arguments, hc, hck, ht, hl, hlk, ha, h⟩
  · rintro ⟨callee, list, name, arguments, hc, hck, ht, hl, hlk, ha, h⟩
    exact ⟨⟨callee, mem_of_significant_getElem? hc⟩, hc, (), hck, name, ht,
      ⟨list, mem_of_significant_getElem? hl⟩, hl, (), hlk, arguments, ha, h⟩

theorem Reads.result_toExpr {e : Expr} (h : n.Reads source e) :
    (n.toExpr source).result = .ok e := by
  induction h with
  | @number n text value hk ht hv =>
    rcases hk with hk | hk
    · rw [toExpr, bind_of_ok (result_note _), hk, NodeKind.ofName_name]
      exact toNumber_eq_ok.mpr ⟨text, value, ht, hv, rfl⟩
    · rw [toExpr, bind_of_ok (result_note _), hk, NodeKind.ofName_name]
      exact toNumber_eq_ok.mpr ⟨text, value, ht, hv, rfl⟩
  | @identifier n name hk ht =>
    rw [toExpr, bind_of_ok (result_note _), hk, NodeKind.ofName_name]
    exact result_bind_eq_ok.mpr ⟨name, slice_eq_ok.mpr ht, rfl⟩
  | @binary n left operator right op a b hk hleft hoperator hright _ ht _ iha ihb =>
    rw [toExpr, bind_of_ok (result_note _), hk, NodeKind.ofName_name]
    exact toBinary_eq_ok.mpr
      ⟨left, operator, right, op, a, b, hleft, hoperator, hright, iha, ht, ihb, rfl⟩
  | @call1 n callee list arg name a hk hcallee hck ht hlist hlk hc _ iha =>
    have harguments :
        List.Forall₂ (fun m a => (m.toExpr source).result = .ok a) list.content [a] := by
      rw [hc]; exact .cons iha .nil
    rw [toExpr, bind_of_ok (result_note _), hk, NodeKind.ofName_name]
    exact toCall_eq_ok.mpr ⟨callee, list, name, [a], hcallee, hck, ht, hlist, hlk, harguments, rfl⟩
  | @call2 n callee list first second name a b hk hcallee hck ht hlist hlk hc _ _ iha ihb =>
    have harguments :
        List.Forall₂ (fun m a => (m.toExpr source).result = .ok a) list.content [a, b] := by
      rw [hc]; exact .cons iha (.cons ihb .nil)
    rw [toExpr, bind_of_ok (result_note _), hk, NodeKind.ofName_name]
    exact toCall_eq_ok.mpr
      ⟨callee, list, name, [a, b], hcallee, hck, ht, hlist, hlk, harguments, rfl⟩

theorem reads_of_result_toExpr {e : Expr} (h : (n.toExpr source).result = .ok e) :
    n.Reads source e := by
  induction n using inductionOnHeight generalizing e with
  | step n ih =>
    rw [toExpr, bind_of_ok (result_note _)] at h
    cases hk : NodeKind.ofName n.kind with
    | integer | float =>
      rw [hk] at h
      obtain ⟨text, value, ht, hv, rfl⟩ := toNumber_eq_ok.mp h
      exact .number (by simp [NodeKind.eq_name_of_ofName hk]) ht hv
    | identifier =>
      rw [hk] at h
      obtain ⟨name, ht, h⟩ := result_bind_eq_ok.mp h
      cases h
      exact .identifier (NodeKind.eq_name_of_ofName hk) (slice_eq_ok.mp ht)
    | binaryOperator =>
      rw [hk] at h
      obtain ⟨left, operator, right, op, a, b, hl, ho, hr, ha, ht, hb, rfl⟩ := toBinary_eq_ok.mp h
      have ha := ih left (height_lt_of_mem (mem_of_significant_getElem? hl)) ha
      have hb := ih right (height_lt_of_mem (mem_of_significant_getElem? hr)) hb
      exact .binary (NodeKind.eq_name_of_ofName hk) hl ho hr ha ht hb
    | call =>
      rw [hk] at h
      obtain ⟨callee, list, name, arguments, hcallee, hck, ht, hl, hlk, ha, h⟩ :=
        toCall_eq_ok.mp h
      have hk := NodeKind.eq_name_of_ofName hk
      have hread : ∀ m ∈ list.content, ∀ a, (m.toExpr source).result = .ok a → m.Reads source a :=
        fun m hm a => ih m (height_lt_of_mem_content (mem_of_significant_getElem? hl) hm)
      rcases ofArguments_eq_ok.mp h with ⟨a, rfl, rfl⟩ | ⟨a, b, rfl, rfl⟩
      · generalize hc : list.content = content at ha hread
        obtain _ | ⟨ha, _ | _⟩ := ha
        exact .call1 hk hcallee hck ht hl hlk hc (hread _ (by simp) a ha)
      · generalize hc : list.content = content at ha hread
        obtain _ | ⟨ha, _ | ⟨hb, _ | _⟩⟩ := ha
        exact .call2 hk hcallee hck ht hl hlk hc (hread _ (by simp) a ha)
          (hread _ (by simp) b hb)
    | module | expressionStatement | assignment | argumentList | other =>
      rw [hk] at h
      cases h

theorem result_toExpr_eq_ok {e : Expr} :
    (n.toExpr source).result = .ok e ↔ n.Reads source e :=
  ⟨reads_of_result_toExpr, Reads.result_toExpr⟩

theorem toDefinition_eq_ok {stmt : Stmt} (hk : n.kind = NodeKind.assignment.name) :
    (n.toDefinition source).result = .ok stmt ↔
      ∃ name e, n.Defines source name e ∧ stmt = .define name e := by
  simp only [toDefinition, result_bind_eq_ok, part_eq_ok, slice_eq_ok, require_eq_ok,
    expect_eq_ok (k := .identifier) (by decide), result_toExpr_eq_ok, result_pure]
  constructor
  · rintro ⟨target, ht, _, htk, name, hname, equals, he, _, hek, value, hv, e, hread, h⟩
    exact ⟨name, e, .mk hk ht htk hname he hek hv hread, (Except.ok.inj h).symm⟩
  · rintro ⟨name, e, ⟨_, ht, htk, hname, he, hek, hv, hread⟩, rfl⟩
    exact ⟨⟨_, mem_of_significant_getElem? ht⟩, ht, (), htk, name, hname,
      ⟨_, mem_of_significant_getElem? he⟩, he, (), hek,
      ⟨_, mem_of_significant_getElem? hv⟩, hv, e, hread, rfl⟩

theorem Reads.kind_ne_assignment {e : Expr} (h : n.Reads source e) :
    n.kind ≠ NodeKind.assignment.name := by
  cases h with
  | number hk => rcases hk with hk | hk <;> rw [hk] <;> decide
  | identifier hk => rw [hk]; decide
  | binary hk => rw [hk]; decide
  | call1 hk => rw [hk]; decide
  | call2 hk => rw [hk]; decide

theorem toBody_eq_ok {stmt : Stmt} :
    (n.toBody source).result = .ok stmt ↔
      (∃ name e, n.Defines source name e ∧ stmt = .define name e) ∨
        ∃ e, n.Reads source e ∧ stmt = .evaluate e := by
  have hexpr : (Stmt.evaluate <$> n.toExpr source).result = .ok stmt ↔
      ∃ e, n.Reads source e ∧ stmt = .evaluate e := by
    simp only [map_eq_pure_bind, result_bind_eq_ok, result_toExpr_eq_ok, result_pure,
      Except.ok.injEq, eq_comm (b := stmt)]
  unfold toBody
  by_cases hk : n.kind = NodeKind.assignment.name
  · rw [hk, NodeKind.ofName_name, toDefinition_eq_ok hk]
    refine ⟨.inl, ?_⟩
    rintro (h | ⟨e, he, -⟩)
    · exact h
    · exact absurd hk he.kind_ne_assignment
  · have hne : NodeKind.ofName n.kind ≠ .assignment :=
      fun h => hk (NodeKind.eq_name_of_ofName h)
    have hnone : ¬ ∃ name e, n.Defines source name e ∧ stmt = .define name e := by
      rintro ⟨name, e, h, -⟩
      exact hk h.kind_eq
    rw [or_iff_right hnone, ← hexpr]
    split
    next h => exact absurd h hne
    next => exact Iff.rfl

theorem expectSingle_eq_ok {u : Unit} :
    n.expectSingle.result = .ok u ↔ n.significant.length ≤ 1 := by
  unfold expectSingle
  split
  · simp; omega
  · simp; omega

theorem toEvaluation_eq_ok {stmt : Stmt} :
    (n.toEvaluation source).result = .ok stmt ↔
      ∃ child, n.significant = [child] ∧ (child.toBody source).result = .ok stmt := by
  simp only [toEvaluation, result_bind_eq_ok, part_eq_ok, expectSingle_eq_ok, result_pure]
  constructor
  · rintro ⟨child, hc, s, hs, _, hlen, h⟩
    cases h
    refine ⟨child, ?_, hs⟩
    generalize n.significant = ns at hc hlen
    match ns with
    | [m] => exact congrArg (fun m => [m]) (Option.some.inj hc)
  · rintro ⟨child, hc, hs⟩
    have hzero : n.significant[0]? = some child := by rw [hc]; rfl
    exact ⟨⟨child, mem_of_significant_getElem? hzero⟩, hzero, stmt, hs, (), by simp [hc], rfl⟩

theorem result_toStmt_eq_ok {stmt : Stmt} :
    (n.toStmt source).result = .ok stmt ↔ n.ReadsStmt source stmt := by
  rw [toStmt, bind_of_ok (result_note _)]
  constructor
  · intro h
    cases hk : NodeKind.ofName n.kind with
    | assignment =>
      rw [hk] at h
      obtain ⟨name, e, hd, rfl⟩ :=
        (toDefinition_eq_ok (NodeKind.eq_name_of_ofName hk)).mp h
      exact .assignment hd
    | expressionStatement =>
      rw [hk] at h
      have hk := NodeKind.eq_name_of_ofName hk
      obtain ⟨child, hc, h⟩ := toEvaluation_eq_ok.mp h
      rcases toBody_eq_ok.mp h with ⟨name, e, hd, rfl⟩ | ⟨e, he, rfl⟩
      · exact .define hk hc hd
      · exact .evaluate hk hc he
    | module | integer | float | identifier | binaryOperator | call | argumentList | other =>
      rw [hk] at h
      cases h
  · intro h
    cases h with
    | assignment h =>
      rw [h.kind_eq, NodeKind.ofName_name]
      exact (toDefinition_eq_ok h.kind_eq).mpr ⟨_, _, h, rfl⟩
    | define hk hc h =>
      rw [hk, NodeKind.ofName_name]
      exact toEvaluation_eq_ok.mpr ⟨_, hc, toBody_eq_ok.mpr (.inl ⟨_, _, h, rfl⟩)⟩
    | evaluate hk hc h =>
      rw [hk, NodeKind.ofName_name]
      exact toEvaluation_eq_ok.mpr ⟨_, hc, toBody_eq_ok.mpr (.inr ⟨_, h, rfl⟩)⟩

/-- Reading a program gives a statement for each node that counts as one, in order. -/
theorem result_toProgram_eq_ok {root : Node} {program : Program} :
    (root.toProgram source).result = .ok program ↔
      List.Forall₂ (ReadsStmt source) root.content program := by
  rw [toProgram, mapM_eq_ok]
  simp only [result_toStmt_eq_ok]

end Node

end Scriptlet
