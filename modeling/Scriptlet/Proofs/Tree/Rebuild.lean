import Scriptlet.Proofs.Tree.Preorder

/-! # Changes at every node

A tree is rebuilt by a change to each of its nodes, made to the children before their parent.
-/

namespace Scriptlet.Node

mutual

def rebuild (change : Node → Node) : Node → Node
  | ⟨kind, text, span, children, isNamed, isExtra, isMissing⟩ =>
    change ⟨kind, text, span, rebuildAll change children, isNamed, isExtra, isMissing⟩

def rebuildAll (change : Node → Node) : List Node → List Node
  | [] => []
  | n :: ns => n.rebuild change :: rebuildAll change ns

end

variable {change : Node → Node}

theorem rebuildAll_eq (change : Node → Node) (ns : List Node) :
    rebuildAll change ns = ns.map (rebuild change) := by
  induction ns with
  | nil => rfl
  | cons n ns ih => rw [rebuildAll, ih, List.map_cons]

theorem rebuild_eq (change : Node → Node) (n : Node) :
    n.rebuild change = change { n with children := n.children.map (rebuild change) } := by
  rw [← rebuildAll_eq]; cases n; rfl

/-- If the change keeps some of the children and makes no sound node faulty, a sound tree stays
sound. -/
theorem firstFault?_rebuild (hchildren : ∀ n, (change n).children ⊆ n.children)
    (hfaulty : ∀ n, (change n).isFaulty = n.isFaulty) {n : Node} (h : n.firstFault? = none) :
    (n.rebuild change).firstFault? = none := by
  induction n using inductionOnHeight with
  | step n ih =>
    rw [rebuild_eq]
    refine firstFault?_eq_none_of_children ?_ fun m hm => ?_
    · rw [hfaulty]
      exact firstFault?_eq_none_iff.mp h n (mem_preorder_self n)
    · obtain ⟨child, hc, rfl⟩ := List.mem_map.mp (hchildren _ hm)
      refine ih child (height_lt_of_mem hc) (firstFault?_eq_none_iff.mpr fun k hk => ?_)
      exact firstFault?_eq_none_iff.mp h k (mem_preorder_of_mem hc hk)

end Scriptlet.Node
