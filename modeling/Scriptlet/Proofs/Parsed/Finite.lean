import Scriptlet.Proofs.Expr.Equality
import Scriptlet.Proofs.Parsed.Agreement
import Scriptlet.Proofs.Reading.Derivation
import Scriptlet.Proofs.Reading.Program

/-! # Finite numbers

All numbers that are read from a tree are finite, whatever text stands at a literal. So a program
that was lowered equals itself, and every other program lowered from its tree and source.
-/

namespace Scriptlet

/-- Neither a NaN nor an infinity. -/
def AllFinite (xs : List Binary64) : Prop := ∀ x ∈ xs, x.isFinite = true

theorem AllFinite.isNaN {xs : List Binary64} (h : AllFinite xs) : ∀ x ∈ xs, x.isNaN = false :=
  fun x hx => Binary64.isNaN_of_isFinite (h x hx)

theorem Numeral.isFinite_of_readFinite? {text : String} {x : Binary64}
    (h : readFinite? text = some x) : x.isFinite = true :=
  (Option.filter_eq_some_iff.mp h).2

namespace Node

variable {n root : Node} {source : String}

theorem Reads.allFinite {e : Expr} (h : n.Reads source e) : AllFinite e.numbers := by
  unfold AllFinite
  induction h with
  | number _ _ hv => simpa [Expr.numbers] using Numeral.isFinite_of_readFinite? hv
  | identifier => simp [Expr.numbers]
  | binary _ _ _ _ _ _ _ iha ihb => exact List.forall_mem_append.mpr ⟨iha, ihb⟩
  | call1 _ _ _ _ _ _ _ _ ih => exact ih
  | call2 _ _ _ _ _ _ _ _ _ iha ihb => exact List.forall_mem_append.mpr ⟨iha, ihb⟩

theorem Defines.allFinite {name : String} {e : Expr} (h : n.Defines source name e) :
    AllFinite e.numbers := by
  obtain ⟨_, _, _, _, _, _, _, he⟩ := h
  exact he.allFinite

theorem ReadsStmt.allFinite {s : Stmt} (h : n.ReadsStmt source s) : AllFinite s.numbers := by
  cases h with
  | assignment h => exact h.allFinite
  | define _ _ h => exact h.allFinite
  | evaluate _ _ h => exact h.allFinite

theorem allFinite_of_toProgram {p : Program} (h : (root.toProgram source).result = .ok p) :
    AllFinite p.numbers := by
  rw [result_toProgram_eq_ok] at h
  generalize root.content = ns at h
  induction h with
  | nil => exact List.forall_mem_nil _
  | cons hs _ ih => exact List.forall_mem_append.mpr ⟨hs.allFinite, ih⟩

end Node

/-- The program is what the tree says in the source: lowered from it, with the marks of a parser or
without, or walked from any place in it. -/
inductive LoweredFrom (root : Node) (source : String) (p : Program) : Prop
  | serialized (h : (lower root source).result = .ok p) : LoweredFrom root source p
  | parsed {tree : ParseTree} (htree : tree.toNode = root)
      (h : (tree.lower source).result = .ok p) : LoweredFrom root source p
  | walked {w : Walker Cursor} (hw : w.cursor.Reachable root)
      (h : ((Walk.program source).run w).1 = .ok p) : LoweredFrom root source p

theorem LoweredFrom.result_toProgram {root : Node} {source : String} {p : Program}
    (h : LoweredFrom root source p) : (root.toProgram source).result = .ok p := by
  cases h with
  | serialized h =>
    cases hfault : root.firstFault? with
    | some fault => rw [result_lower_of_fault hfault] at h; cases h
    | none => rwa [result_lower_of_sound hfault] at h
  | @parsed tree htree h =>
    subst htree
    cases hdamage : tree.isDamaged with
    | true =>
      obtain ⟨_, _, herror⟩ := ParseTree.isSyntaxError_lower hdamage source
      rw [herror] at h; cases h
    | false => rwa [ParseTree.result_lower_of_unmarked hdamage] at h
  | walked hw h => rwa [Walk.run_program_of_reachable source hw, Walk.programOf_eq] at h

/-- The numbers of everything that is read are finite, and so it equals itself. A lowered program
also equals each program that is lowered from its tree and source. -/
theorem lowered_allFinite (source : String) :
    (∀ w e, ((Walk.expr source).run w).1 = .ok e → AllFinite e.numbers ∧ (e == e) = true) ∧
    (∀ w s, ((Walk.stmt source).run w).1 = .ok s → AllFinite s.numbers ∧ (s == s) = true) ∧
    (∀ root p, LoweredFrom root source p → AllFinite p.numbers ∧
      ∀ q, LoweredFrom root source q → (p == q) = true) := by
  refine ⟨fun w e h => ?_, fun w s h => ?_, fun root p hp => ?_⟩
  · rw [(Walk.walk_eq_reading source w).1] at h
    have hfinite := (Node.reads_of_result_toExpr h).allFinite
    exact ⟨hfinite, e.beq_self_iff.mpr hfinite.isNaN⟩
  · rw [(Walk.walk_eq_reading source w).2] at h
    have hfinite := (Node.result_toStmt_eq_ok.mp h).allFinite
    exact ⟨hfinite, s.beq_self_iff.mpr hfinite.isNaN⟩
  · have hfinite := Node.allFinite_of_toProgram hp.result_toProgram
    refine ⟨hfinite, fun q hq => ?_⟩
    obtain rfl : p = q := Except.ok.inj (hp.result_toProgram.symm.trans hq.result_toProgram)
    exact p.beq_self_iff.mpr hfinite.isNaN

/-- The marked tree of `1e308+2`. -/
def hugeSum : ParseTree :=
  let sum : ParseTree :=
    ⟨"binary_operator", ⟨0, 7⟩,
      [⟨"float", ⟨0, 5⟩, [], true, false, false, false⟩,
        ⟨"+", ⟨5, 6⟩, [], false, false, false, false⟩,
        ⟨"integer", ⟨6, 7⟩, [], true, false, false, false⟩],
      true, false, false, false⟩
  ⟨"module", ⟨0, 7⟩, [⟨"expression_statement", ⟨0, 7⟩, [sum], true, false, false, false⟩],
    true, false, false, false⟩

def hugeSumExpr : Expr :=
  .binary .add (.number ⟨0x7fe1ccf385ebc8a0⟩) (.number ⟨0x4000000000000000⟩)

theorem lowered_allFinite_hugeSum :
    let source := "1e308+2"
    let root := hugeSum.toNode
    let statement : Walker Cursor := .start ((Cursor.ofRoot root).firstChild?.getD default)
    let sum : Walker Cursor := .start (statement.cursor.firstChild?.getD default)
    ((Walk.expr source).run sum).1 = .ok hugeSumExpr ∧
    ((Walk.stmt source).run statement).1 = .ok (.evaluate hugeSumExpr) ∧
    LoweredFrom root source [.evaluate hugeSumExpr] ∧
    (hugeSum.lower source).result = .ok [.evaluate hugeSumExpr] ∧
    AllFinite hugeSumExpr.numbers ∧ (hugeSumExpr == hugeSumExpr) = true ∧
    (Stmt.evaluate hugeSumExpr == .evaluate hugeSumExpr) = true ∧
    (([.evaluate hugeSumExpr] : Program) == [.evaluate hugeSumExpr]) = true := by
  intro source root statement sum
  have hexpr : ((Walk.expr source).run sum).1 = .ok hugeSumExpr := by decide +kernel
  have hstmt : ((Walk.stmt source).run statement).1 = .ok (.evaluate hugeSumExpr) := by
    decide +kernel
  have hserialized : LoweredFrom root source [.evaluate hugeSumExpr] :=
    .serialized (by decide +kernel)
  have hresult : (hugeSum.lower source).result = .ok [.evaluate hugeSumExpr] := by decide +kernel
  have hparsed : LoweredFrom root source [.evaluate hugeSumExpr] := .parsed rfl hresult
  obtain ⟨hexprs, hstmts, hprograms⟩ := lowered_allFinite source
  exact ⟨hexpr, hstmt, hserialized, hresult, (hexprs sum _ hexpr).1, (hexprs sum _ hexpr).2,
    (hstmts statement _ hstmt).2, (hprograms root _ hserialized).2 _ hparsed⟩

end Scriptlet
