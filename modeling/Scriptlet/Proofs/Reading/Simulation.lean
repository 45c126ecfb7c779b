import Scriptlet.Proofs.Reading.Follows

/-! # Walking is reading

Each walk follows the reading of the node that it starts from, and comes back to it when it
succeeds. So a walk gives the same result and the same events from every place, however the cursor
got there, and whatever extras stand between the children that it visits.
-/

namespace Scriptlet.Walk

open Cursor (Below Amid)

variable {α : Type} {c d : Cursor} {i : Nat}

theorem follows_number (source : String) (c : Cursor) :
    Follows c c (number source) (c.node.toNumber source) (Same c) := by
  apply follows_cursor_bind
  refine follows_bind (follows_text .here source) ?_
  rintro text _ _ ⟨rfl, rfl⟩
  cases Numeral.readFinite? text with
  | some value => exact follows_pure .here ⟨rfl, rfl⟩
  | none => exact follows_throw .here

theorem follows_identifier (source : String) (c : Cursor) :
    Follows c c (identifier source) (return .identifier (← c.node.slice source)) (Same c) := by
  refine follows_bind (follows_text .here source) ?_
  rintro text _ _ ⟨rfl, rfl⟩
  exact follows_pure .here ⟨rfl, rfl⟩

section Collect

variable {visit : Walk Cursor α} {f : Node → Report α}

/-- What is collected from the next sibling on goes behind what was found. -/
theorem follows_collect_rest {siblings : Nat} (hd : c.child? i = some d)
    (ih : ∀ e, c.child? (i + 1) = some e → Follows c e (collect visit siblings)
      (((c.node.children.drop (i + 1)).filter Node.isContent).mapM f)
      fun as bs e => as = bs ∧ ∃ j, c.child? j = some e)
    (found : List α) :
    Follows c d
      (do if ← nextSibling then return found ++ (← collect visit siblings) else return found)
      (((c.node.children.drop (i + 1)).filter Node.isContent).mapM f)
      fun as bs e => as = found ++ bs ∧ ∃ j, c.child? j = some e := by
  apply follows_nextSibling_bind
  · intro e he
    rw [Cursor.nextSibling?_of_child? hd] at he
    rw [← bind_pure (List.mapM _ _)]
    refine follows_bind (ih e he) ?_
    rintro as _ e' ⟨rfl, j, he'⟩
    exact follows_pure (Cursor.below_of_child? he') ⟨rfl, j, he'⟩
  · intro he
    rw [Cursor.nextSibling?_of_child? hd] at he
    rw [Cursor.drop_children_of_child?_none he]
    exact follows_pure (Cursor.below_of_child? hd) ⟨(List.append_nil found).symm, i, hd⟩

variable
  (hv : ∀ d, d.node ∈ c.node.content → Follows d d visit (f d.node) (Same d))
include hv

theorem follows_collect (siblings : Nat) (hd : c.child? i = some d)
    (hi : c.node.children.length - i ≤ siblings) :
    Follows c d (collect visit siblings)
      (((c.node.children.drop i).filter Node.isContent).mapM f)
      fun as bs e => as = bs ∧ ∃ j, c.child? j = some e := by
  induction siblings generalizing i d with
  | zero =>
    have := (List.getElem?_eq_some_iff.mp (Cursor.child?_eq_some_iff.mp hd).1).1
    omega
  | succ siblings ih =>
    have hrest := follows_collect_rest hd (fun e he => ih he (by omega))
    rw [Cursor.drop_children_of_child? hd, List.filter_cons]
    apply follows_cursor_bind
    rw [Cursor.syntax_isContent]
    by_cases hx : d.node.isContent = true
    · have hm : d.node ∈ c.node.content :=
        List.mem_filter.mpr ⟨Cursor.node_mem_of_child? hd, hx⟩
      rw [if_pos hx, if_pos hx, List.mapM_cons]
      have hvisit := ((hv d hm).below (Cursor.below_of_child? hd)).map (f := fun a => [a])
        (S := fun as b e => as = [b] ∧ d = e) fun _ _ _ h => ⟨by rw [h.1], h.2⟩
      refine follows_bind hvisit ?_
      rintro _ b _ ⟨rfl, rfl⟩
      exact (hrest [b]).map_report fun _ _ _ h => h
    · rw [if_neg hx, if_neg hx]
      exact hrest []

theorem follows_collectChildren :
    Follows c c (collectChildren visit) (c.node.content.mapM f) (Same c) := by
  apply follows_cursor_bind
  rw [Cursor.syntax_firstChild?, Cursor.firstChild?_eq]
  cases h : c.child? 0 with
  | none =>
    have hc : c.node.children = [] := by simpa using Cursor.drop_children_of_child?_none h
    simp only [Node.content, hc]
    exact follows_pure .here ⟨rfl, rfl⟩
  | some d =>
    apply follows_goto_bind
    rw [← bind_pure (List.mapM _ _)]
    refine follows_bind (follows_collect hv _ h (Nat.sub_le _ _)) ?_
    rintro as _ e ⟨rfl, j, he⟩
    exact follows_leave_bind (Cursor.parent?_of_child? he) (follows_pure .here ⟨rfl, rfl⟩)

end Collect

section Operands

variable {operand : Walk Cursor Expr} {read : Node → Report Expr}
  (ho : ∀ d, d.node.height < c.node.height → Follows d d operand (read d.node) (Same d))
include ho

theorem follows_binary (source : String) :
    Follows c c (binary source operand) (c.node.toBinary source fun m _ => read m) (Same c) := by
  apply follows_cursor_bind
  refine follows_bind (follows_enter rfl) ?_
  rintro _ ⟨_, hl⟩ d ⟨rfl, hd⟩
  refine follows_bind ((ho d (Node.height_lt_of_mem hl)).below hd.below) ?_
  rintro a _ _ ⟨rfl, rfl⟩
  refine follows_bind (follows_advance hd) ?_
  rintro _ ⟨_, _⟩ e ⟨rfl, he⟩
  rw [Node.toOperator, Report.bind_bind]
  refine follows_bind (follows_text he.below source) ?_
  rintro token _ _ ⟨rfl, rfl⟩
  cases BinaryOp.ofSymbol? token with
  | none =>
    rw [Report.refuse_bind]
    exact follows_cursor_bind (follows_throw he.below)
  | some op =>
    rw [Report.bind_bind]
    refine follows_bind (follows_note he.below _) ?_
    rintro _ _ _ rfl
    rw [pure_bind]
    refine follows_bind (follows_advance he) ?_
    rintro _ ⟨_, hr⟩ g ⟨rfl, hg⟩
    refine follows_bind ((ho g (Node.height_lt_of_mem hr)).below hg.below) ?_
    rintro b _ _ ⟨rfl, rfl⟩
    exact follows_leave_bind hg.parent? (follows_pure .here ⟨rfl, rfl⟩)

theorem follows_call (source : String) :
    Follows c c (call source operand) (c.node.toCall source fun m _ => read m) (Same c) := by
  apply follows_cursor_bind
  refine follows_bind (follows_enter rfl) ?_
  rintro _ ⟨_, _⟩ d ⟨rfl, hd⟩
  apply follows_cursor_bind
  refine follows_require hd.below Iff.rfl fun _ => ?_
  refine follows_bind (follows_text hd.below source) ?_
  rintro name _ _ ⟨rfl, rfl⟩
  refine follows_bind (follows_advance hd) ?_
  rintro _ ⟨_, hl⟩ e ⟨rfl, he⟩
  apply follows_cursor_bind
  refine follows_require he.below Iff.rfl fun _ => ?_
  rw [Node.mapM_attach]
  have hlist : Follows e e (collectChildren operand) (e.node.content.mapM read) (Same e) :=
    follows_collectChildren fun g hg => ho g (Node.height_lt_of_mem_content hl hg)
  refine follows_bind (hlist.below he.below) ?_
  rintro arguments _ _ ⟨rfl, rfl⟩
  apply follows_leave_bind he.parent?
  match arguments with
  | [_] | [_, _] => exact follows_pure .here ⟨rfl, rfl⟩
  | [] | _ :: _ :: _ :: _ => exact follows_throw .here

end Operands

theorem follows_exprBelow (source : String) (height : Nat) (c : Cursor)
    (hc : c.node.height ≤ height) :
    Follows c c (exprBelow source height) (c.node.toExpr source) (Same c) := by
  induction height generalizing c with
  | zero => rw [Node.height_eq] at hc; omega
  | succ height ih =>
    have hread : ∀ d, d.node.height < c.node.height →
        Follows d d (exprBelow source height) (d.node.toExpr source) (Same d) :=
      fun d hd => ih d (by omega)
    apply follows_cursor_bind
    rw [Node.toExpr]
    refine follows_bind (follows_note .here _) ?_
    rintro _ _ _ rfl
    apply follows_cursor_bind
    rw [Cursor.syntax_nodeKind]
    cases NodeKind.ofName c.node.kind with
    | integer | float => exact follows_number source c
    | identifier => exact follows_identifier source c
    | binaryOperator => exact follows_binary hread source
    | call => exact follows_call hread source
    | module | expressionStatement | assignment | argumentList | other =>
      exact follows_unsupported .here

theorem follows_expr (source : String) (c : Cursor) :
    Follows c c (expr source) (c.node.toExpr source) (Same c) :=
  follows_cursor_bind (follows_exprBelow source c.node.height c (Nat.le_refl _))

theorem follows_define (source : String) (c : Cursor) :
    Follows c c (define source) (c.node.toDefinition source) (Same c) := by
  apply follows_cursor_bind
  refine follows_bind (follows_enter rfl) ?_
  rintro _ ⟨_, _⟩ d ⟨rfl, hd⟩
  apply follows_cursor_bind
  refine follows_require hd.below Iff.rfl fun _ => ?_
  refine follows_bind (follows_text hd.below source) ?_
  rintro name _ _ ⟨rfl, rfl⟩
  refine follows_bind (follows_advance hd) ?_
  rintro _ ⟨_, _⟩ e ⟨rfl, he⟩
  apply follows_cursor_bind
  refine follows_require he.below Iff.rfl fun _ => ?_
  refine follows_bind (follows_advance he) ?_
  rintro _ ⟨_, _⟩ g ⟨rfl, hg⟩
  refine follows_bind ((follows_expr source g).below hg.below) ?_
  rintro value _ _ ⟨rfl, rfl⟩
  exact follows_leave_bind hg.parent? (follows_pure .here ⟨rfl, rfl⟩)

/-- After its only expression a statement is left, at a second one it is refused. -/
theorem follows_statement_end (hd : Amid c 1 d) (stmt stmt' : Stmt) (e : Cursor)
    (h : Same d stmt stmt' e) :
    Follows c e
      (do
        if ← nextSignificant then throw (.unsupportedSyntax expressionList c.node.span)
        leave
        return stmt)
      (do c.node.expectSingle; return stmt')
      (Same c) := by
  obtain ⟨rfl, rfl⟩ := h
  unfold Node.expectSingle
  refine follows_nextSignificant_bind hd (fun m e hm he => ?_) fun e hm he => ?_
  · rw [if_pos (List.getElem?_eq_some_iff.mp hm).1, Report.refuse_bind]
    exact follows_throw_bind he.below
  · rw [if_neg (Nat.not_lt.mpr (List.getElem?_eq_none_iff.mp hm))]
    exact follows_leave_bind he.parent? (follows_pure .here ⟨rfl, rfl⟩)

theorem follows_expressionStatement (source : String) (c : Cursor) :
    Follows c c (expressionStatement source) (c.node.toEvaluation source) (Same c) := by
  apply follows_cursor_bind
  refine follows_bind (follows_enter rfl) ?_
  rintro _ ⟨_, _⟩ d ⟨rfl, hd⟩
  have hdefine := (follows_define source d).below hd.below
  have hexpr := ((follows_expr source d).below hd.below).map_same (f := Stmt.evaluate)
  apply follows_cursor_bind
  rw [Cursor.syntax_nodeKind, Node.toBody]
  cases NodeKind.ofName d.node.kind with
  | assignment => exact follows_bind hdefine (follows_statement_end hd)
  | module | expressionStatement | integer | float | identifier | binaryOperator | call |
      argumentList | other =>
    exact follows_bind hexpr (follows_statement_end hd)

theorem follows_stmt (source : String) (c : Cursor) :
    Follows c c (stmt source) (c.node.toStmt source) (Same c) := by
  apply follows_cursor_bind
  refine follows_bind (follows_note .here _) ?_
  rintro _ _ _ rfl
  apply follows_cursor_bind
  rw [Cursor.syntax_nodeKind]
  cases NodeKind.ofName c.node.kind with
  | assignment => exact follows_define source c
  | expressionStatement => exact follows_expressionStatement source c
  | module | integer | float | identifier | binaryOperator | call | argumentList | other =>
    exact follows_unsupported .here

theorem follows_program (source : String) (c : Cursor) :
    Follows c.root c (program source) (c.root.node.toProgram source) (Same c.root) := by
  apply follows_cursor_bind
  apply follows_goto_bind
  rw [Cursor.syntax_root, Cursor.syntax_firstChild?, Cursor.firstChild?_eq]
  cases h : c.root.child? 0 with
  | none =>
    have hc : c.root.node.children = [] := by simpa using Cursor.drop_children_of_child?_none h
    simp only [Node.toProgram, Node.content, hc]
    exact follows_pure .here ⟨rfl, rfl⟩
  | some d =>
    apply follows_goto_bind
    rw [← bind_pure (Node.toProgram _ _)]
    have hstmt := follows_collect (fun d _ => follows_stmt source d) _ h (Nat.sub_le _ _)
    refine follows_bind hstmt ?_
    rintro program _ e ⟨rfl, j, he⟩
    apply follows_cursor_bind
    rw [Cursor.syntax_parent?, Cursor.parent?_of_child? he]
    exact follows_goto_bind (follows_pure .here ⟨rfl, rfl⟩)

theorem Follows.result_eq {top e : Cursor} {x : Walk Cursor α} {r : Report α} {w : Walker Cursor}
    (h : Follows top w.cursor x r (Same e)) : (x.run w).1 = r.result := by
  obtain ⟨_, result, hrun, -, hres⟩ := h w.log w.missteps
  change (x.run w) = _ at hrun
  rw [hrun]
  generalize r.result = s at hres
  cases hres with
  | ok h => exact congrArg _ h.1
  | error => rfl

theorem Follows.log_eq {β : Type} {R : α → β → Cursor → Prop} {top : Cursor} {x : Walk Cursor α}
    {r : Report β} {w : Walker Cursor} (h : Follows top w.cursor x r R) :
    (x.run w).2.log = r.events.reverse ++ w.log := by
  obtain ⟨_, _, hrun, -⟩ := h w.log w.missteps
  change (x.run w) = _ at hrun
  rw [hrun]

theorem result_program (source : String) (root : Node) :
    ((program source).run (.start (.ofRoot root))).1 = (root.toProgram source).result := by
  rw [(follows_program source (.ofRoot root)).result_eq (w := .start (.ofRoot root)),
    Cursor.root_ofRoot]
  rfl

theorem log_program (source : String) (root : Node) :
    ((program source).run (.start (.ofRoot root))).2.log =
      (root.toProgram source).events.reverse := by
  rw [(follows_program source (.ofRoot root)).log_eq (w := .start (.ofRoot root)),
    Cursor.root_ofRoot]
  exact List.append_nil _

/-- From every place a walk has the result of the recursion on the node there. -/
theorem walk_eq_reading (source : String) (w : Walker Cursor) :
    ((expr source).run w).1 = (w.cursor.node.toExpr source).result ∧
    ((stmt source).run w).1 = (w.cursor.node.toStmt source).result :=
  ⟨(follows_expr source w.cursor).result_eq, (follows_stmt source w.cursor).result_eq⟩

end Scriptlet.Walk

namespace Scriptlet

def Event.closing (origin : Origin) : Except Refusal Program → List Event
  | .ok program => [.lowered origin program.length]
  | .error _ => []

/-- A sound tree is lowered as it is read, and its end is told. -/
theorem lowerSound_eq (origin : Origin) (root : Node) (source : String) :
    lowerSound origin (Cursor.ofRoot root) source =
      let reading := root.toProgram source
      ⟨reading.result, reading.events ++ Event.closing origin reading.result⟩ := by
  have hresult := Walk.result_program source root
  have hlog := Walk.log_program source root
  unfold lowerSound
  generalize (Walk.program source).run (.start (.ofRoot root)) = run at hresult hlog ⊢
  obtain ⟨result, walker⟩ := run
  obtain rfl : result = (root.toProgram source).result := hresult
  dsimp only at hlog ⊢
  rw [hlog, List.reverse_reverse]
  cases (root.toProgram source).result <;> rfl

theorem result_lowerSound (origin : Origin) (root : Node) (source : String) :
    (lowerSound origin (Cursor.ofRoot root) source).result = (root.toProgram source).result := by
  rw [lowerSound_eq]

theorem result_lower_of_fault {root fault : Node} (h : root.firstFault? = some fault)
    (source : String) :
    (lower root source).result =
      .error (.ofFault fault.isMissing fault.kind fault.span source) := by
  rw [lower, h]; rfl

theorem lower_of_sound {root : Node} (h : root.firstFault? = none) (source : String) :
    lower root source = lowerSound .serialized (Cursor.ofRoot root) source := by
  rw [lower, h]

theorem result_lower_of_sound {root : Node} (h : root.firstFault? = none) (source : String) :
    (lower root source).result = (root.toProgram source).result := by
  rw [lower_of_sound h, result_lowerSound]

end Scriptlet
