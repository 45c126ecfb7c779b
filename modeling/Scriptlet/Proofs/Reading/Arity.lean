import Scriptlet.Proofs.Reading.Program

/-! # The arguments of a call

A call is lowered just if its arguments are as many as a built-in takes, and they are counted only
after each of them was lowered. Whatever stands between them in the list, they stay in order, and
the first that is refused is the one reported.
-/

namespace Scriptlet

namespace Limits

def Admits (arguments : Nat) : Prop := minArity ≤ arguments ∧ arguments ≤ maxArity

/-- The two bounds are all that lies between them, so a refusal can name them one by one. -/
theorem admits_iff {arguments : Nat} :
    Admits arguments ↔ arguments = minArity ∨ arguments = maxArity := by
  simp only [Admits, minArity, maxArity]
  omega

end Limits

namespace Node

variable {name : String} {span : Span} {arguments : List Expr}

theorem exists_ofArguments_eq_ok :
    (∃ e, (ofArguments name span arguments).result = .ok e) ↔ Limits.Admits arguments.length := by
  rw [Limits.admits_iff]
  match arguments with
  | [] | [_] | [_, _] | _ :: _ :: _ :: _ => simp [ofArguments, Limits.minArity, Limits.maxArity]

theorem ofArguments_eq_error_iff :
    (ofArguments name span arguments).result = .error (.arityMismatch name arguments.length span) ↔
      ¬ Limits.Admits arguments.length := by
  rw [Limits.admits_iff]
  match arguments with
  | [] | [_] | [_, _] | _ :: _ :: _ :: _ => simp [ofArguments, Limits.minArity, Limits.maxArity]

end Node

namespace Walk

def exprAt (source : String) (c : Cursor) : Except Refusal Expr := ((expr source).run (.start c)).1

variable {source name : String} {w : Walker Cursor} {callee list : Cursor}

theorem exprAt_eq (source : String) (c : Cursor) :
    exprAt source c = (c.node.toExpr source).result :=
  (follows_expr source c).result_eq (w := .start c)

theorem run_call_eq (source : String) (w : Walker Cursor) :
    ((call source (expr source)).run w).1 =
      (w.cursor.node.toCall source fun m _ => m.toExpr source).result :=
  (follows_call (fun d _ => follows_expr source d) source).result_eq

theorem run_expr_eq_run_call (hk : w.cursor.node.kind = NodeKind.call.name) :
    ((expr source).run w).1 = ((call source (expr source)).run w).1 := by
  rw [run_call_eq, (follows_expr source w.cursor).result_eq, Node.toExpr, hk, NodeKind.ofName_name,
    Report.bind_of_ok (Report.result_note _)]

theorem significant_of_place {c d : Cursor} {i : Nat} (h : c.significantPlaces[i]? = some d) :
    c.node.significant[i]? = some d.node := by
  rw [← c.map_node_significantPlaces, List.getElem?_map, h]
  rfl

section Places

variable (hcallee : w.cursor.significantPlaces[0]? = some callee)
  (hck : callee.node.kind = NodeKind.identifier.name)
  (hname : callee.node.span.slice? source = some name)
  (hlist : w.cursor.significantPlaces[1]? = some list)
  (hlk : list.node.kind = NodeKind.argumentList.name)
include hcallee hck hname hlist hlk

/-- A call with a name and an argument list comes down to its arguments, one walk for each. -/
theorem run_call_eq_mapM :
    ((call source (expr source)).run w).1 =
      (list.contentPlaces.mapM (fun c => c.node.toExpr source) >>=
        Node.ofArguments name w.cursor.node.span).result := by
  rw [run_call_eq, Node.toCall_eq_mapM (Node.toExpr source) (significant_of_place hcallee) hck hname
    (significant_of_place hlist) hlk, ← list.map_node_contentPlaces, List.mapM_map]
  rfl

theorem run_call_of_arguments {arguments : List Expr}
    (ha : List.Forall₂ (fun c a => exprAt source c = .ok a) list.contentPlaces arguments) :
    ((call source (expr source)).run w).1 =
      (Node.ofArguments name w.cursor.node.span arguments).result := by
  simp only [exprAt_eq] at ha
  rw [run_call_eq_mapM hcallee hck hname hlist hlk, Report.bind_of_ok (Report.mapM_eq_ok.mpr ha)]

theorem run_call_of_refused {before after : List Cursor} {c : Cursor} {e : Refusal}
    (hsplit : list.contentPlaces = before ++ c :: after)
    (hbefore : ∀ b ∈ before, ∃ a, exprAt source b = .ok a) (hc : exprAt source c = .error e) :
    ((call source (expr source)).run w).1 = .error e := by
  simp only [exprAt_eq] at hbefore hc
  have hrefused := Report.mapM_eq_error.mpr ⟨before, c, after, hsplit, hbefore, hc⟩
  rw [run_call_eq_mapM hcallee hck hname hlist hlk, Report.bind_of_error hrefused]

end Places

/-- A call whose arguments can all be lowered is lowered itself just if the limits admit their
number, with the arguments in order; otherwise it is refused with the number it has. The refusal and
its hint name these limits. If some argument cannot be lowered, the call is refused as the first of
these is, whatever the number. -/
theorem call_within_limits (source : String)
    (hcallee : w.cursor.significantPlaces[0]? = some callee)
    (hck : callee.node.kind = NodeKind.identifier.name)
    (hname : callee.node.span.slice? source = some name)
    (hlist : w.cursor.significantPlaces[1]? = some list)
    (hlk : list.node.kind = NodeKind.argumentList.name) :
    let result := ((call source (expr source)).run w).1
    let found := list.node.content.length
    let mismatch := Refusal.arityMismatch name found w.cursor.node.span
    (w.cursor.node.kind = NodeKind.call.name → ((expr source).run w).1 = result) ∧
    (∀ arguments, List.Forall₂ (fun c a => exprAt source c = .ok a) list.contentPlaces arguments →
      ((∃ e, result = .ok e) ↔ Limits.minArity ≤ found ∧ found ≤ Limits.maxArity) ∧
      (∀ a, arguments = [a] → result = .ok (.call1 name a)) ∧
      (∀ a b, arguments = [a, b] → result = .ok (.call2 name a b)) ∧
      (result = .error mismatch ↔ ¬ (Limits.minArity ≤ found ∧ found ≤ Limits.maxArity))) ∧
    (∀ before c after e, list.contentPlaces = before ++ c :: after →
      (∀ b ∈ before, ∃ a, exprAt source b = .ok a) → exprAt source c = .error e →
      result = .error e) ∧
    mismatch.message = "call to `" ++ name ++ "` has " ++ toString found ++
      " argument(s), expected " ++ toString Limits.minArity ++ " or " ++ toString Limits.maxArity ∧
    mismatch.hint? = some ("Builtins take between " ++ toString Limits.minArity ++ " and " ++
      toString Limits.maxArity ++ " positional arguments") := by
  intro result found mismatch
  refine ⟨run_expr_eq_run_call, ?_, ?_, rfl, rfl⟩
  · intro arguments ha
    have hlength : found = arguments.length := by
      rw [← ha.length_eq, ← List.length_map Cursor.node, list.map_node_contentPlaces]
    have hresult : result = (Node.ofArguments name w.cursor.node.span arguments).result :=
      run_call_of_arguments hcallee hck hname hlist hlk ha
    rw [hresult]
    refine ⟨?_, ?_, ?_, ?_⟩
    · rw [hlength]
      exact Node.exists_ofArguments_eq_ok
    · rintro a rfl
      rfl
    · rintro a b rfl
      rfl
    · simp only [mismatch, hlength]
      exact Node.ofArguments_eq_error_iff
  · intro before c after e hsplit hbefore hc
    exact run_call_of_refused hcallee hck hname hlist hlk hsplit hbefore hc

/-- A call by what its name and its argument list cover and what stands in the list. -/
def callOf (name list : Span) (items : List Node) : Node :=
  ⟨"call", "", ⟨name.start, list.stop⟩,
    [⟨"identifier", "", name, [], true, false, false⟩,
      ⟨"argument_list", "", list, items, true, false, false⟩],
    true, false, false⟩

/-- The call in `f(a,#\ng(1))`, with a comment between its arguments. -/
def nestedCall : Node :=
  callOf ⟨0, 1⟩ ⟨1, 11⟩
    [⟨"(", "", ⟨1, 2⟩, [], false, false, false⟩,
      ⟨"identifier", "", ⟨2, 3⟩, [], true, false, false⟩,
      ⟨",", "", ⟨3, 4⟩, [], false, false, false⟩,
      ⟨"comment", "", ⟨4, 5⟩, [], true, true, false⟩,
      callOf ⟨6, 7⟩ ⟨7, 10⟩ [⟨"integer", "", ⟨8, 9⟩, [], true, false, false⟩]]

/-- The call in `f(x,g(),0x1)`: one argument too many, and two of them cannot be lowered. -/
def crowdedCall : Node :=
  callOf ⟨0, 1⟩ ⟨1, 12⟩
    [⟨"identifier", "", ⟨2, 3⟩, [], true, false, false⟩,
      ⟨",", "", ⟨3, 4⟩, [], false, false, false⟩,
      callOf ⟨4, 5⟩ ⟨5, 7⟩ [],
      ⟨"integer", "", ⟨8, 11⟩, [], true, false, false⟩]

/-- One call is lowered with its two arguments, the other is refused as the second of three is. -/
theorem call_within_limits_nestedCall :
    let lowered : Expr :=
      .call2 "f" (.identifier "a") (.call1 "g" (.number ⟨0x3FF0000000000000⟩))
    let refusal : Refusal := .arityMismatch "g" 0 ⟨4, 7⟩
    let nested : Walker Cursor := .start (.ofRoot nestedCall)
    let crowded : Walker Cursor := .start (.ofRoot crowdedCall)
    ((call "f(a,#\ng(1))" (expr "f(a,#\ng(1))")).run nested).1 = .ok lowered ∧
    ((call "f(x,g(),0x1)" (expr "f(x,g(),0x1)")).run crowded).1 = .error refusal := by
  intro lowered refusal nested crowded
  constructor
  · have harguments : List.Forall₂ (fun c a => exprAt "f(a,#\ng(1))" c = .ok a)
        (Cursor.contentPlaces ⟨nestedCall.children[1], [(nestedCall, 1)]⟩)
        [.identifier "a", .call1 "g" (.number ⟨0x3FF0000000000000⟩)] :=
      .cons (by decide +kernel) (.cons (by decide +kernel) .nil)
    have hcall := call_within_limits "f(a,#\ng(1))" (w := nested) rfl rfl
      (show _ = some "f" by decide +kernel) rfl rfl
    exact (hcall.2.1 _ harguments).2.2.1 _ _ rfl
  · have hcall := call_within_limits "f(x,g(),0x1)" (w := crowded) rfl rfl
      (show _ = some "f" by decide +kernel) rfl rfl
    refine hcall.2.2.1 [_] _ [_] refusal rfl ?_ (by decide +kernel)
    simp only [List.mem_singleton]
    rintro b rfl
    exact ⟨.identifier "x", by decide +kernel⟩

end Walk

end Scriptlet
