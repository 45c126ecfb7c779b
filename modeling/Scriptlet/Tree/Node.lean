import Scriptlet.Span

/-! # Concrete trees

A node names its kind, the bytes it covers, and its children in source order. An extra node (a
comment) may stand anywhere; a missing node stands for a token that a parser had to invent. A node
is faulty if it is missing or marks text that no parser could place.
-/

namespace Scriptlet

structure Node where
  kind : String
  text : String
  span : Span
  children : List Node
  isNamed : Bool
  isExtra : Bool
  isMissing : Bool
  deriving Repr, Inhabited

namespace Node

def errorKind : String := "ERROR"

def isError (n : Node) : Bool := n.kind == errorKind

def isFaulty (n : Node) : Bool := n.isError || n.isMissing

/-- A named node that is no comment: a statement or an argument where such a list is expected. -/
def isContent (n : Node) : Bool := n.isNamed && !n.isExtra

/-- The children that are no comments. -/
def significant (n : Node) : List Node := n.children.filter (!·.isExtra)

mutual

def size : Node → Nat
  | ⟨_, _, _, children, _, _, _⟩ => 1 + sizeAll children

def sizeAll : List Node → Nat
  | [] => 0
  | n :: ns => n.size + sizeAll ns

end

mutual

def height : Node → Nat
  | ⟨_, _, _, children, _, _, _⟩ => heightAll children + 1

def heightAll : List Node → Nat
  | [] => 0
  | n :: ns => max n.height (heightAll ns)

end

theorem sizeAll_append (ms ns : List Node) : sizeAll (ms ++ ns) = sizeAll ms + sizeAll ns := by
  induction ms with
  | nil => simp [sizeAll]
  | cons m ms ih => simp [sizeAll, ih, Nat.add_assoc]

theorem size_eq (n : Node) : n.size = 1 + sizeAll n.children := by cases n; rfl

theorem height_eq (n : Node) : n.height = heightAll n.children + 1 := by cases n; rfl

theorem height_le_heightAll {n : Node} {ns : List Node} (h : n ∈ ns) : n.height ≤ heightAll ns := by
  induction ns with
  | nil => simp at h
  | cons m ms ih =>
    rcases List.mem_cons.1 h with rfl | h
    · exact Nat.le_max_left _ _
    · exact Nat.le_trans (ih h) (Nat.le_max_right _ _)

theorem height_lt_of_mem {n m : Node} (h : m ∈ n.children) : m.height < n.height := by
  rw [height_eq n]; exact Nat.lt_succ_of_le (height_le_heightAll h)

end Node

end Scriptlet
