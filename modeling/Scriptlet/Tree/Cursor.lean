import Scriptlet.Tree.Node
import Scriptlet.Tree.SyntaxCursor

/-! # Cursors

A cursor is a place in a tree: the node there, and the way back to the root as pairs of a parent
and the index of the child taken, innermost first.
-/

namespace Scriptlet

structure Cursor where
  node : Node
  path : List (Node × Nat)
  deriving Inhabited

namespace Cursor

def ofRoot (root : Node) : Cursor := ⟨root, []⟩

def firstChild? (c : Cursor) : Option Cursor :=
  match c.node.children with
  | [] => none
  | child :: _ => some ⟨child, (c.node, 0) :: c.path⟩

def nextSibling? (c : Cursor) : Option Cursor :=
  match c.path with
  | [] => none
  | (parent, i) :: path =>
    parent.children[i + 1]?.map fun sibling => ⟨sibling, (parent, i + 1) :: path⟩

def parent? (c : Cursor) : Option Cursor :=
  match c.path with
  | [] => none
  | (parent, _) :: path => some ⟨parent, path⟩

/-- How many siblings follow. -/
def remaining (c : Cursor) : Nat :=
  match c.path with
  | [] => 0
  | (parent, i) :: _ => parent.children.length - (i + 1)

theorem remaining_lt_of_nextSibling? {c d : Cursor} (h : c.nextSibling? = some d) :
    d.remaining < c.remaining := by
  unfold nextSibling? at h
  unfold remaining
  split at h
  · simp at h
  · next parent i path hp =>
    obtain ⟨sibling, hs, rfl⟩ := Option.map_eq_some_iff.1 h
    have := (List.getElem?_eq_some_iff.1 hs).1
    dsimp only; omega

theorem length_lt_of_parent? {c d : Cursor} (h : c.parent? = some d) :
    d.path.length < c.path.length := by
  unfold parent? at h
  split at h
  next => cases h
  next hp =>
    cases h
    rw [hp]
    exact Nat.lt_succ_self _

@[default_instance]
instance : SyntaxCursor Cursor where
  kind c := c.node.kind
  span c := c.node.span
  isNamed c := c.node.isNamed
  isExtra c := c.node.isExtra
  firstChild? := firstChild?
  nextSibling? := nextSibling?
  parent? := parent?
  childCount c := c.node.children.length
  height c := c.node.height
  remaining := remaining
  depth c := c.path.length
  remaining_lt := remaining_lt_of_nextSibling?
  depth_lt := length_lt_of_parent?

def kind (c : Cursor) : NodeKind := SyntaxCursor.nodeKind c

def nextSignificant (c : Cursor) : Bool × Cursor := SyntaxCursor.nextSignificant c

def firstSignificant (c : Cursor) : Bool × Cursor := SyntaxCursor.firstSignificant c

def root (c : Cursor) : Cursor := SyntaxCursor.root c

section Syntax

variable (c : Cursor)

@[simp] theorem syntax_kind : SyntaxCursor.kind c = c.node.kind := rfl

@[simp] theorem syntax_span : SyntaxCursor.span c = c.node.span := rfl

@[simp] theorem syntax_nodeKind : SyntaxCursor.nodeKind c = NodeKind.ofName c.node.kind := rfl

@[simp] theorem syntax_isExtra : SyntaxCursor.isExtra c = c.node.isExtra := rfl

@[simp] theorem syntax_isContent : SyntaxCursor.isContent c = c.node.isContent := rfl

@[simp] theorem syntax_firstChild? : SyntaxCursor.firstChild? c = c.firstChild? := rfl

@[simp] theorem syntax_nextSibling? : SyntaxCursor.nextSibling? c = c.nextSibling? := rfl

@[simp] theorem syntax_parent? : SyntaxCursor.parent? c = c.parent? := rfl

@[simp] theorem syntax_childCount : SyntaxCursor.childCount c = c.node.children.length := rfl

@[simp] theorem syntax_root : SyntaxCursor.root c = c.root := rfl

@[simp] theorem syntax_nextSignificant : SyntaxCursor.nextSignificant c = c.nextSignificant := rfl

@[simp] theorem syntax_firstSignificant :
    SyntaxCursor.firstSignificant c = c.firstSignificant := rfl

end Syntax

theorem root_of_parent? {c d : Cursor} (h : c.parent? = some d) : c.root = d.root :=
  SyntaxCursor.root_of_some h

theorem root_ofRoot (root : Node) : (ofRoot root).root = ofRoot root :=
  SyntaxCursor.root_of_none rfl

end Cursor

end Scriptlet
