import Scriptlet.Proofs.Reading.Alike
import Scriptlet.Tree.Parsed

/-! # The cursor of a marked tree

A cursor in a marked tree keeps the siblings that follow, a cursor in a plain tree the index of each
child taken. They are related when the siblings kept are those behind the index, on every level up
to the root, and this is a simulation. A marked tree is walked just as the tree without the marks.
-/

namespace Scriptlet.ParseTree

open SyntaxCursor (Simulation)

variable {t u : ParseTree}

theorem sizeOf_lt_of_mem_children (h : u ∈ t.children) : sizeOf u < sizeOf t := by
  cases t
  have := List.sizeOf_lt_of_mem h
  simp at this ⊢; omega

/-- To prove a property of all marked trees, prove it of a tree whose children have it. -/
@[elab_as_elim]
theorem inductionOnChildren {motive : ParseTree → Prop} (t : ParseTree)
    (step : ∀ t, (∀ u ∈ t.children, motive u) → motive t) : motive t :=
  step t fun u _ => inductionOnChildren u step
termination_by sizeOf t
decreasing_by exact sizeOf_lt_of_mem_children ‹_›

section Fields

variable (t : ParseTree)

theorem toNodes_eq (ts : List ParseTree) : toNodes ts = ts.map toNode := by
  induction ts with
  | nil => rfl
  | cons t ts ih => rw [toNodes, ih, List.map_cons]

theorem toNode_children : t.toNode.children = t.children.map toNode := by
  rw [← toNodes_eq]; cases t; rfl

@[simp] theorem toNode_kind : t.toNode.kind = t.kind := by cases t; rfl

@[simp] theorem toNode_span : t.toNode.span = t.span := by cases t; rfl

@[simp] theorem toNode_isNamed : t.toNode.isNamed = t.isNamed := by cases t; rfl

@[simp] theorem toNode_isExtra : t.toNode.isExtra = t.isExtra := by cases t; rfl

@[simp] theorem toNode_isMissing : t.toNode.isMissing = t.isMissing := by cases t; rfl

theorem height_eq : t.height = heightAll t.children + 1 := by cases t; rfl

theorem heightAll_toNodes {ts : List ParseTree} (h : ∀ u ∈ ts, u.toNode.height = u.height) :
    Node.heightAll (ts.map toNode) = heightAll ts := by
  induction ts with
  | nil => rfl
  | cons t ts ih =>
    rw [List.map_cons, Node.heightAll, heightAll, h t List.mem_cons_self,
      ih fun u hu => h u (List.mem_cons_of_mem _ hu)]

@[simp] theorem height_toNode : t.toNode.height = t.height := by
  induction t using inductionOnChildren with
  | step t ih => rw [Node.height_eq, height_eq, toNode_children, heightAll_toNodes ih]

end Fields

namespace Cursor

/-- On each level the siblings kept are those behind the index of the child taken. -/
inductive SameWay :
    List ParseTree → List (ParseTree × List ParseTree) → List (Node × Nat) → Prop
  | root : SameWay [] [] []
  | child {parent : ParseTree} {later : List ParseTree}
      {above : List (ParseTree × List ParseTree)} {path : List (Node × Nat)} (i : Nat) :
      SameWay later above path →
        SameWay (parent.children.drop (i + 1)) ((parent, later) :: above)
          ((parent.toNode, i) :: path)

/-- Both cursors are at the same place of the tree. -/
structure SamePlace (c : Cursor) (d : Scriptlet.Cursor) : Prop where
  node : d.node = c.tree.toNode
  way : SameWay c.later c.above d.path

variable {c : Cursor} {d : Scriptlet.Cursor}

theorem samePlace_ofRoot (tree : ParseTree) :
    SamePlace (ofRoot tree) (Scriptlet.Cursor.ofRoot tree.toNode) :=
  ⟨rfl, .root⟩

theorem SamePlace.firstChild? (h : SamePlace c d) :
    Option.Rel SamePlace c.firstChild? d.firstChild? := by
  unfold Cursor.firstChild? Scriptlet.Cursor.firstChild?
  rw [h.node, toNode_children]
  cases hc : c.tree.children with
  | nil => exact .none
  | cons child later =>
    refine .some ⟨rfl, ?_⟩
    have hlater : later = c.tree.children.drop (0 + 1) := by rw [hc]; rfl
    dsimp only
    rw [hlater]
    exact .child 0 h.way

theorem SamePlace.nextSibling? (h : SamePlace c d) :
    Option.Rel SamePlace c.nextSibling? d.nextSibling? := by
  obtain ⟨tree, later, above⟩ := c
  obtain ⟨node, path⟩ := d
  unfold Cursor.nextSibling? Scriptlet.Cursor.nextSibling?
  cases h.way with
  | root => exact .none
  | @child parent later above path i hway =>
    dsimp only
    rw [toNode_children, List.getElem?_map]
    cases hs : parent.children[i + 1]? with
    | none =>
      rw [List.drop_eq_nil_of_le (List.getElem?_eq_none_iff.mp hs)]
      exact .none
    | some sibling =>
      obtain ⟨hi, rfl⟩ := List.getElem?_eq_some_iff.mp hs
      rw [List.drop_eq_getElem_cons hi]
      exact .some ⟨rfl, .child (i + 1) hway⟩

theorem SamePlace.parent? (h : SamePlace c d) :
    Option.Rel SamePlace c.parent? d.parent? := by
  obtain ⟨tree, later, above⟩ := c
  obtain ⟨node, path⟩ := d
  unfold Cursor.parent? Scriptlet.Cursor.parent?
  cases h.way with
  | root => exact .none
  | child _ hway => exact .some ⟨rfl, hway⟩

theorem simulation_samePlace : Simulation SamePlace where
  kind {c _} h := (h.node ▸ toNode_kind c.tree).symm
  span {c _} h := (h.node ▸ toNode_span c.tree).symm
  isNamed {c _} h := (h.node ▸ toNode_isNamed c.tree).symm
  isExtra {c _} h := (h.node ▸ toNode_isExtra c.tree).symm
  childCount {c d} h := by
    change c.tree.children.length = d.node.children.length
    rw [h.node, toNode_children, List.length_map]
  height {c _} h := (h.node ▸ height_toNode c.tree).symm
  firstChild? := SamePlace.firstChild?
  nextSibling? := SamePlace.nextSibling?
  parent? := SamePlace.parent?

end Cursor

/-- A marked tree is lowered by its own cursor as the tree without the marks by that of plain
trees. -/
theorem lowerSound_ofRoot (origin : Origin) (tree : ParseTree) (source : String) :
    lowerSound origin (Cursor.ofRoot tree) source =
      lowerSound origin (Scriptlet.Cursor.ofRoot tree.toNode) source :=
  Cursor.simulation_samePlace.lowerSound_eq (Cursor.samePlace_ofRoot tree) origin source

end Scriptlet.ParseTree
