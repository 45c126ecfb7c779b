import Scriptlet.Proofs.Parsed.Finite
import Scriptlet.Proofs.Reading.Faithful
import Scriptlet.Proofs.Script.Statement
import Scriptlet.Script.Program

/-! # What scripts are read to

The tree of a script has no fault, so a search for one before the lowering would find none. The
program of a script is what its tree says in the source, with nothing left out of the nodes that are
lowered, and every refusal tells what is so at a node of the tree.
-/

namespace Scriptlet.Script

variable {source : String} {program : Program}

theorem grown_treeOf? {tree : Node} (h : treeOf? source = some tree) : Grown tree := by
  obtain ⟨tokens, -, htree⟩ := Option.bind_eq_some_iff.mp h
  exact grown_tree? htree

theorem read_of_treeOf? {tree : Node} (h : treeOf? source = some tree) :
    read source = (tree.toProgram source).result.mapError .refused := by
  rw [read, h]
  exact congrArg (Except.mapError Failure.refused) (result_lowerSound .parsed tree source)

theorem read_eq_damaged_iff : read source = .error .damaged ↔ treeOf? source = none := by
  cases h : treeOf? source with
  | none => simp [read, h]
  | some tree =>
    rw [read_of_treeOf? h]
    cases (tree.toProgram source).result <;> simp [Except.mapError]

/-- A script is read as if its tree were searched for a fault first. -/
theorem read_eq_lower {tree : Node} (h : treeOf? source = some tree) :
    read source = (lower tree source).result.mapError .refused := by
  rw [read_of_treeOf? h, result_lower_of_sound (grown_treeOf? h).firstFault?_eq_none]

theorem read_eq_ok_iff : read source = .ok program ↔ ∃ tree, treeOf? source = some tree ∧
    List.Forall₂ (Node.ReadsStmt source) tree.content program := by
  cases h : treeOf? source with
  | none => simp [read_eq_damaged_iff.mpr h]
  | some tree =>
    rw [read_of_treeOf? h]
    simp only [Option.some.injEq, exists_eq_left', ← Node.result_toProgram_eq_ok]
    cases (tree.toProgram source).result <;> simp [Except.mapError]

/-- No child of a node that is lowered is left out of the program. -/
theorem isWhole_of_read {tree n : Node} (h : read source = .ok program)
    (htree : treeOf? source = some tree) (hn : tree.Lowers n) : n.IsWhole := by
  obtain ⟨tree, htree', hprogram⟩ := read_eq_ok_iff.mp h
  obtain rfl : tree = _ := Option.some.inj (htree'.symm.trans htree)
  by_cases hkind : n.kind = NodeKind.expressionStatement.name
  · intro k hk
    have hone := (Node.arity?_of_kind hkind).symm.trans hk
    cases hone
    exact (hn.stands hprogram).isComplete.single hkind
  · exact ((grown_treeOf? htree).of_mem hn.mem_preorder).isWhole hkind

theorem allFinite_of_read (h : read source = .ok program) : AllFinite program.numbers := by
  obtain ⟨tree, -, hprogram⟩ := read_eq_ok_iff.mp h
  exact Node.allFinite_of_toProgram (Node.result_toProgram_eq_ok.mpr hprogram)

/-- A script that is not damaged is refused only for what is so at a node of its tree. -/
theorem holdsIn_of_read {refusal : Refusal} (h : read source = .error (.refused refusal)) :
    ∃ tree, treeOf? source = some tree ∧ refusal.HoldsIn source tree := by
  cases htree : treeOf? source with
  | none => rw [read_eq_damaged_iff.mpr htree] at h; cases h
  | some tree =>
    rw [read_of_treeOf? htree] at h
    refine ⟨tree, rfl, Node.faithful_toProgram tree source refusal ?_⟩
    cases hresult : (tree.toProgram source).result with
    | ok program => rw [hresult] at h; cases h
    | error e => rw [hresult] at h; cases h; rfl

end Scriptlet.Script
