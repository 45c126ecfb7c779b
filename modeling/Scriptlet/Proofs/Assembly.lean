import Mathlib.Data.List.Infix
import Scriptlet.Assembly

/-! # What can be assembled

An instruction is refused just if the stack holds fewer expressions than it wants. The labels of an
expression in post-order, carried out one by one, put that expression on the stack, so every program
can be assembled.
-/

namespace Scriptlet.Assembly

variable {a a' : Assembly} {outcome : Outcome}

def Instruction.operands : Instruction → Nat
  | .number _ | .identifier _ | .compareStatements => 0
  | .binary token => if (BinaryOp.ofSymbol? token).isSome then 2 else 0
  | .call1 _ | .duplicate | .drop | .define _ | .evaluate => 1
  | .call2 _ | .compare => 2

theorem step?_eq_none_iff {instruction : Instruction} :
    a.step? instruction = none ↔ a.stack.length < instruction.operands := by
  obtain ⟨stack, program⟩ := a
  rcases stack with _ | ⟨first, _ | ⟨second, stack⟩⟩
  all_goals
    cases instruction with
    | binary token =>
      cases hop : BinaryOp.ofSymbol? token <;> simp [step?, Instruction.operands, hop]
    | _ => simp [step?, Instruction.operands]

theorem program_prefix_of_step? {instruction : Instruction}
    (h : a.step? instruction = some (outcome, a')) : a.program <+: a'.program := by
  unfold step? at h
  split at h <;> try split at h
  all_goals cases h
  all_goals first | exact List.prefix_rfl | exact List.prefix_append _ _

def run? (a : Assembly) : List Instruction → Option Assembly
  | [] => some a
  | instruction :: instructions =>
    (a.step? instruction).bind fun (_, a) => a.run? instructions

theorem run?_append (first second : List Instruction) :
    a.run? (first ++ second) = (a.run? first).bind fun a => a.run? second := by
  induction first generalizing a with
  | nil => rfl
  | cons instruction first ih =>
    rw [List.cons_append, run?, run?, Option.bind_assoc]
    exact congrArg _ (funext fun _ => ih)

theorem program_prefix_of_run? {instructions : List Instruction}
    (h : a.run? instructions = some a') : a.program <+: a'.program := by
  induction instructions generalizing a with
  | nil => cases h; exact List.prefix_rfl
  | cons instruction instructions ih =>
    obtain ⟨⟨outcome, mid⟩, hstep, hrun⟩ := Option.bind_eq_some_iff.mp h
    exact (program_prefix_of_step? hstep).trans (ih hrun)

/-- The instruction that builds what a label says. -/
def Instruction.ofLabel : Expr.Label → Instruction
  | .number x => .number x
  | .identifier name => .identifier name
  | .operator op => .binary op.symbol
  | .call1 name => .call1 name
  | .call2 name => .call2 name

theorem run?_postorderOnto (e : Expr) (a : Assembly) (rest : List Expr.Label) :
    a.run? ((e.postorderOnto rest).map .ofLabel) =
      (a.push a.stack e).run? (rest.map .ofLabel) := by
  induction e generalizing a rest with
  | number x => rfl
  | identifier name => rfl
  | binary op left right ihl ihr =>
    rw [Expr.postorderOnto, ihl, ihr, List.map_cons, run?, Instruction.ofLabel, step?]
    simp [push, BinaryOp.ofSymbol?_symbol]
  | call1 name arg ih =>
    rw [Expr.postorderOnto, ih, List.map_cons]
    rfl
  | call2 name first second ihf ihs =>
    rw [Expr.postorderOnto, ihf, ihs, List.map_cons]
    rfl

theorem run?_postorder (e : Expr) (a : Assembly) :
    a.run? (e.postorder.map .ofLabel) = some (a.push a.stack e) := by
  rw [Expr.postorder, run?_postorderOnto]
  rfl

def Instruction.ofStmt : Stmt → List Instruction
  | .define name value => value.postorder.map .ofLabel ++ [.define name]
  | .evaluate value => value.postorder.map .ofLabel ++ [.evaluate]

theorem run?_ofStmt (s : Stmt) (a : Assembly) :
    a.run? (Instruction.ofStmt s) = some (a.append a.stack s) := by
  cases s <;>
    simp only [Instruction.ofStmt, run?_append, run?_postorder, Option.bind_some] <;> rfl

theorem run?_ofProgram (p : Program) (a : Assembly) :
    a.run? (p.flatMap Instruction.ofStmt) = some ⟨a.stack, a.program ++ p⟩ := by
  induction p generalizing a with
  | nil => rw [List.flatMap_nil, run?, List.append_nil]
  | cons s p ih =>
    rw [List.flatMap_cons, run?_append, run?_ofStmt, Option.bind_some, ih]
    simp [append]

/-- Every program can be assembled from nothing, with nothing left over. -/
theorem run?_empty (p : Program) : empty.run? (p.flatMap Instruction.ofStmt) = some ⟨[], p⟩ :=
  run?_ofProgram p empty

end Scriptlet.Assembly
