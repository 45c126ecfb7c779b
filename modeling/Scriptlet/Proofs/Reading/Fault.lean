import Mathlib.Logic.Function.Iterate
import Scriptlet.Proofs.Parsed.Agreement
import Scriptlet.Proofs.Reading.Program

/-! # Faults come first

The search for a fault turn by turn. Each turn takes one node off the stack, and what is left on
the stack is what is left of the document order, so a tree is searched in as many turns as it has
nodes, and one more for the empty stack. A tree with a fault is refused at the first one, whatever
else is wrong with it; any other tree is lowered from its root.
-/

namespace Scriptlet

namespace Node

/-- How far a search has come: it has an answer, or the nodes on the stack are still to visit. -/
inductive Search
  | answered (fault : Option Node)
  | pending (stack : List Node)

namespace Search

/-- Take a node off the stack. Unless it is faulty, its children go on the stack in its place. -/
def turn : Search → Search
  | answered fault => answered fault
  | pending [] => answered none
  | pending (n :: stack) =>
    if n.isFaulty then answered (some n) else pending (n.children ++ stack)

variable {n : Node} {stack : List Node}

theorem turn_of_isFaulty (h : n.isFaulty = true) :
    (pending (n :: stack)).turn = answered (some n) := by
  simp [turn, h]

theorem turn_of_not_isFaulty (h : n.isFaulty = false) :
    (pending (n :: stack)).turn = pending (n.children ++ stack) := by
  simp [turn, h]

theorem iterate_turn_answered (k : ℕ) (fault : Option Node) :
    turn^[k] (answered fault) = answered fault :=
  Function.iterate_fixed rfl k

theorem preorderAll_cons_eq (n : Node) (stack : List Node) :
    preorderAll (n :: stack) = n :: preorderAll (n.children ++ stack) := by
  rw [preorderAll, preorder_eq, List.cons_append, preorderAll_append]

/-- After enough turns for all that is left the search has found what the recursion finds. -/
theorem iterate_turn_pending {k : ℕ} (h : (preorderAll stack).length < k) :
    turn^[k] (pending stack) = answered (firstFaultOf? stack) := by
  -- The stack may grow in a turn, but what is left of the document order gets shorter.
  induction k generalizing stack with
  | zero => omega
  | succ k ih =>
    rw [Function.iterate_succ_apply]
    cases stack with
    | nil =>
      rw [firstFaultOf?]
      exact iterate_turn_answered k none
    | cons n stack =>
      rw [preorderAll_cons_eq, List.length_cons] at h
      rw [firstFaultOf?]
      cases hf : n.isFaulty with
      | true =>
        rw [turn_of_isFaulty hf]
        exact iterate_turn_answered k (some n)
      | false =>
        rw [turn_of_not_isFaulty hf]
        exact ih (by omega)

end Search

/-- The node is missing or marks misplaced text, and no node before it does. -/
def IsFirstFault (root n : Node) : Prop :=
  ∃ before after, root.preorder = before ++ n :: after ∧
    n.isFaulty = true ∧ ∀ m ∈ before, m.isFaulty = false

variable {root n : Node}

theorem firstFault?_eq_some_iff : root.firstFault? = some n ↔ root.IsFirstFault n := by
  rw [firstFault?_eq, List.find?_eq_some_iff_append]
  constructor
  · rintro ⟨hn, before, after, hsplit, hbefore⟩
    exact ⟨before, after, hsplit, hn, fun m hm => by simpa using hbefore m hm⟩
  · rintro ⟨before, after, hsplit, hn, hbefore⟩
    exact ⟨hn, before, after, hsplit, fun m hm => by simp [hbefore m hm]⟩

theorem exists_firstFault?_eq_some (hn : n ∈ root.preorder) (hf : n.isFaulty = true) :
    ∃ m, root.firstFault? = some m := by
  cases h : root.firstFault? with
  | some m => exact ⟨m, rfl⟩
  | none =>
    have := firstFault?_eq_none_iff.mp h n hn
    simp_all

end Node

theorem isSyntaxError_lower_iff (root : Node) (source : String) :
    (lower root source).IsSyntaxError ↔ ∃ n ∈ root.preorder, n.isFaulty = true := by
  constructor
  · rintro ⟨message, span, h⟩
    by_contra hnone
    have hsound : root.firstFault? = none := by
      rw [Node.firstFault?_eq_none_iff]
      intro n hn
      by_contra hf
      exact hnone ⟨n, hn, by simpa using hf⟩
    rw [result_lower_of_sound hsound] at h
    exact not_isSyntaxError_toProgram root source ⟨message, span, h⟩
  · rintro ⟨n, hn, hf⟩
    obtain ⟨m, hm⟩ := Node.exists_firstFault?_eq_some hn hf
    exact ⟨_, m.span, result_lower_of_fault hm source⟩

/-- The search ends after at most a turn for each node and one more. Its answer is the first fault
in document order, or none if there is no fault. A tree is refused for its syntax just if it has a
fault, and then at the span of the first one; otherwise the result is that of the walk from its
root. -/
theorem first_fault_wins (root : Node) :
    Node.Search.turn^[root.preorder.length + 1] (.pending [root]) = .answered root.firstFault? ∧
    (∀ n, root.firstFault? = some n ↔ root.IsFirstFault n) ∧
    (root.firstFault? = none ↔ ∀ n ∈ root.preorder, n.isFaulty = false) ∧
    (∀ source, (lower root source).IsSyntaxError ↔ ∃ n ∈ root.preorder, n.isFaulty = true) ∧
    ∀ source, (lower root source).result =
      match root.firstFault? with
      | some n =>
        .error (.syntaxError (Damage.describe n.isMissing n.kind n.span source).message n.span)
      | none => Walk.programOf source root := by
  refine ⟨?_, ?_, ?_, ?_, ?_⟩
  · apply Node.Search.iterate_turn_pending
    simp [Node.preorderAll]
  · exact fun n => Node.firstFault?_eq_some_iff
  · exact Node.firstFault?_eq_none_iff
  · exact isSyntaxError_lower_iff root
  · intro source
    cases h : root.firstFault? with
    | some n => exact result_lower_of_fault h source
    | none => rw [result_lower_of_sound h, Walk.programOf_eq]

/-- A comment that holds a missing token behind an unsupported operator. -/
example : (lower ⟨"module", "", ⟨0, 7⟩,
    [⟨"pass_statement", "", ⟨0, 4⟩, [], true, false, false⟩,
      ⟨"comment", "", ⟨5, 7⟩, [⟨")", "", ⟨7, 7⟩, [], false, false, true⟩], true, true, false⟩],
    true, false, false⟩ "pass # ").result = .error (.syntaxError "missing `)`" ⟨7, 7⟩) := by
  decide +kernel

end Scriptlet
