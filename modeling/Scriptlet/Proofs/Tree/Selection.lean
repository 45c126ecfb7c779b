import Scriptlet.Proofs.Tree.Preorder
import Mathlib.Data.List.Forall2

/-! # Nodes picked in document order

Nodes that are picked from a tree in document order, none of them below another. What is picked
from some of the children of a node, in their order, is picked from the node. If the spans of the
tree are nested, what is picked is in the order of the source.
-/

namespace Scriptlet.Node

/-- The first node ends before the second one starts. -/
def Precedes (a b : Node) : Prop := a.span.stop ≤ b.span.start

def Encloses (n m : Node) : Prop := n.span.start ≤ m.span.start ∧ m.span.stop ≤ n.span.stop

instance (a b : Node) : Decidable (a.Precedes b) := inferInstanceAs (Decidable (_ ≤ _))

instance (n m : Node) : Decidable (n.Encloses m) := inferInstanceAs (Decidable (_ ∧ _))

/-- The children lie within the span of the node, one after the other. -/
def OrdersChildren (n : Node) : Prop :=
  (∀ m ∈ n.children, n.Encloses m) ∧ n.children.Pairwise Precedes

instance (n : Node) : Decidable n.OrdersChildren := inferInstanceAs (Decidable (_ ∧ _))

/-- All spans of the tree are nested in those above them and ordered among siblings. -/
def SpansNested (root : Node) : Prop := ∀ n ∈ root.preorder, n.OrdersChildren

instance (root : Node) : Decidable root.SpansNested :=
  inferInstanceAs (Decidable (∀ n ∈ root.preorder, n.OrdersChildren))

/-- The nodes are picked from the tree, in document order and none below another. -/
structure Picks (top : Node) (ns : List Node) : Prop where
  sublist : ns.Sublist top.preorder
  enclosed : top.SpansNested → ∀ m ∈ ns, top.Encloses m
  ordered : top.SpansNested → ns.Pairwise Precedes

variable {n m a b c : Node} {ms ns : List Node} {picked : List (List Node)}

theorem Encloses.trans (hab : a.Encloses b) (hbc : b.Encloses c) : a.Encloses c :=
  ⟨Nat.le_trans hab.1 hbc.1, Nat.le_trans hbc.2 hab.2⟩

theorem SpansNested.ordersChildren (h : n.SpansNested) : n.OrdersChildren :=
  h n (mem_preorder_self n)

theorem SpansNested.child (h : n.SpansNested) (hm : m ∈ n.children) : m.SpansNested :=
  fun _ hk => h _ (mem_preorder_of_mem hm hk)

theorem picks_nil (n : Node) : n.Picks [] := ⟨List.nil_sublist _, by simp, fun _ => .nil⟩

theorem picks_self (n : Node) : n.Picks [n] where
  sublist := List.singleton_sublist.mpr (mem_preorder_self n)
  enclosed _ := by simp [Encloses]
  ordered _ := List.pairwise_singleton ..

theorem preorderAll_sublist (h : ms.Sublist ns) :
    (preorderAll ms).Sublist (preorderAll ns) := by
  induction h with
  | slnil => exact List.Sublist.refl _
  | cons n _ ih => exact ih.trans (List.sublist_append_right n.preorder _)
  | cons_cons n _ ih => exact (List.Sublist.refl n.preorder).append ih

theorem exists_picks_of_mem (h : List.Forall₂ Picks ms picked) (hns : ns ∈ picked) :
    ∃ m ∈ ms, m.Picks ns := by
  induction h with
  | nil => simp at hns
  | @cons m _ _ _ hm _ ih =>
    rcases List.mem_cons.mp hns with rfl | hns
    · exact ⟨m, List.mem_cons_self, hm⟩
    · obtain ⟨k, hk, hpicks⟩ := ih hns
      exact ⟨k, List.mem_cons_of_mem _ hk, hpicks⟩

theorem flatten_sublist_preorderAll (h : List.Forall₂ Picks ms picked) :
    picked.flatten.Sublist (preorderAll ms) := by
  induction h with
  | nil => exact List.nil_sublist _
  | cons hm _ ih => exact hm.sublist.append ih

/-- What is picked below siblings that precede each other is in order. -/
theorem pairwise_flatten (hms : ms.Pairwise Precedes) (hnested : ∀ m ∈ ms, m.SpansNested)
    (h : List.Forall₂ Picks ms picked) : picked.flatten.Pairwise Precedes := by
  induction h with
  | nil => exact .nil
  | @cons m ns ms picked hm hrest ih =>
    obtain ⟨hbefore, hms⟩ := List.pairwise_cons.mp hms
    obtain ⟨hnm, hnested⟩ := List.forall_mem_cons.mp hnested
    rw [List.flatten_cons, List.pairwise_append]
    refine ⟨hm.ordered hnm, ih hms hnested, fun x hx y hy => ?_⟩
    obtain ⟨ys, hys, hy⟩ := List.mem_flatten.mp hy
    obtain ⟨k, hk, hpicks⟩ := exists_picks_of_mem hrest hys
    have hxm := (hm.enclosed hnm x hx).2
    have hmk := hbefore k hk
    have hky := (hpicks.enclosed (hnested k hk) y hy).1
    exact Nat.le_trans hxm (Nat.le_trans hmk hky)

theorem Picks.of_children (hms : ms.Sublist n.children) (h : List.Forall₂ Picks ms picked) :
    n.Picks picked.flatten where
  sublist := by
    rw [preorder_eq]
    exact ((flatten_sublist_preorderAll h).trans (preorderAll_sublist hms)).cons n
  enclosed hn x hx := by
    obtain ⟨xs, hxs, hx⟩ := List.mem_flatten.mp hx
    obtain ⟨m, hm, hpicks⟩ := exists_picks_of_mem h hxs
    have hm := hms.subset hm
    exact (hn.ordersChildren.1 m hm).trans (hpicks.enclosed (hn.child hm) x hx)
  ordered hn :=
    pairwise_flatten (hn.ordersChildren.2.sublist hms) (fun _ hm => hn.child (hms.subset hm)) h

end Scriptlet.Node
