import Scriptlet.Tree.Node

/-! # The first fault of a tree

The search for the first faulty node keeps the nodes still to visit on a stack, so that the depth
of the tree does not matter to it.
-/

namespace Scriptlet.Node

/-- The first faulty node among the pending ones and what hangs below them, in document order. -/
def firstFaultOf? : List Node → Option Node
  | [] => none
  | n :: pending =>
    if n.isFaulty then some n else firstFaultOf? (n.children ++ pending)
termination_by pending => sizeAll pending
decreasing_by simp [sizeAll_append, sizeAll, size_eq]

/-- The first node in document order that is missing or marks misplaced text. -/
def firstFault? (root : Node) : Option Node := firstFaultOf? [root]

end Scriptlet.Node
