import Scriptlet.Tree.Fault
import Scriptlet.Tree.Parsed

/-! # Document order

The nodes of a tree in document order: a node before its children, and each child with all its
descendants before the next. The search with a stack finds the first faulty node of this list.
-/

namespace Scriptlet

namespace Node

mutual

def preorder : Node → List Node
  | ⟨kind, text, span, children, isNamed, isExtra, isMissing⟩ =>
    ⟨kind, text, span, children, isNamed, isExtra, isMissing⟩ :: preorderAll children

def preorderAll : List Node → List Node
  | [] => []
  | n :: ns => n.preorder ++ preorderAll ns

end

theorem preorder_eq (n : Node) : n.preorder = n :: preorderAll n.children := by cases n; rfl

theorem preorderAll_append (ms ns : List Node) :
    preorderAll (ms ++ ns) = preorderAll ms ++ preorderAll ns := by
  induction ms with
  | nil => rfl
  | cons m ms ih => simp [preorderAll, ih]

theorem mem_preorderAll {n : Node} {ns : List Node} :
    n ∈ preorderAll ns ↔ ∃ m ∈ ns, n ∈ m.preorder := by
  induction ns with
  | nil => simp [preorderAll]
  | cons m ns ih => simp [preorderAll, ih]

theorem mem_preorder_self (n : Node) : n ∈ n.preorder := by
  rw [preorder_eq]; exact List.mem_cons_self

theorem mem_preorder {n m : Node} :
    n ∈ m.preorder ↔ n = m ∨ ∃ child ∈ m.children, n ∈ child.preorder := by
  rw [preorder_eq, List.mem_cons, mem_preorderAll]

theorem mem_preorder_of_mem {n m child : Node} (h : child ∈ m.children)
    (hn : n ∈ child.preorder) : n ∈ m.preorder :=
  mem_preorder.mpr (.inr ⟨child, h, hn⟩)

theorem mem_of_mem_significant {n m : Node} (h : m ∈ n.significant) : m ∈ n.children :=
  (List.mem_filter.mp h).1

/-- To prove a property of all trees, prove it of a tree whose lower trees have it. -/
@[elab_as_elim]
theorem inductionOnHeight {motive : Node → Prop} (n : Node)
    (step : ∀ n, (∀ m, m.height < n.height → motive m) → motive n) : motive n :=
  (measure height).wf.induction n step

theorem mem_preorder_trans {top n m : Node} (hn : n ∈ top.preorder) (hm : m ∈ n.preorder) :
    m ∈ top.preorder := by
  induction top using inductionOnHeight with
  | step top ih =>
    rcases mem_preorder.mp hn with rfl | ⟨child, hc, hn⟩
    · exact hm
    · exact mem_preorder_of_mem hc (ih child (height_lt_of_mem hc) hn)

theorem mem_preorder_child {top n m : Node} (hn : n ∈ top.preorder) (hm : m ∈ n.children) :
    m ∈ top.preorder :=
  mem_preorder_trans hn (mem_preorder_of_mem hm (mem_preorder_self m))

theorem firstFaultOf?_eq (pending : List Node) :
    firstFaultOf? pending = (preorderAll pending).find? isFaulty := by
  fun_induction firstFaultOf? pending with
  | case1 => rfl
  | case2 n pending h => simp [preorderAll, preorder_eq, h]
  | case3 n pending h ih => simp [preorderAll, preorder_eq, preorderAll_append, h, ih]

/-- The stack holds what is left of the document order, so the first fault found is the first. -/
theorem firstFault?_eq (root : Node) : root.firstFault? = root.preorder.find? isFaulty := by
  rw [firstFault?, firstFaultOf?_eq]; simp [preorderAll]

theorem firstFault?_eq_none_iff {root : Node} :
    root.firstFault? = none ↔ ∀ n ∈ root.preorder, n.isFaulty = false := by
  simp [firstFault?_eq, List.find?_eq_none]

theorem firstFault?_eq_none_of_children {n : Node} (hn : n.isFaulty = false)
    (h : ∀ m ∈ n.children, m.firstFault? = none) : n.firstFault? = none := by
  rw [firstFault?_eq_none_iff]
  intro m hm
  rcases mem_preorder.mp hm with rfl | ⟨child, hc, hm⟩
  · exact hn
  · exact firstFault?_eq_none_iff.mp (h child hc) m hm

end Node

namespace ParseTree

mutual

def preorder : ParseTree → List ParseTree
  | ⟨kind, span, children, isNamed, isExtra, isMissing, isDamaged⟩ =>
    ⟨kind, span, children, isNamed, isExtra, isMissing, isDamaged⟩ :: preorderAll children

def preorderAll : List ParseTree → List ParseTree
  | [] => []
  | t :: ts => t.preorder ++ preorderAll ts

end

theorem preorder_eq (t : ParseTree) : t.preorder = t :: preorderAll t.children := by
  cases t; rfl

theorem mem_preorderAll {u : ParseTree} {ts : List ParseTree} :
    u ∈ preorderAll ts ↔ ∃ t ∈ ts, u ∈ t.preorder := by
  induction ts with
  | nil => simp [preorderAll]
  | cons t ts ih => simp [preorderAll, ih]

theorem mem_preorder_self (t : ParseTree) : t ∈ t.preorder := by
  rw [preorder_eq]; exact List.mem_cons_self

end ParseTree

end Scriptlet
