import Scriptlet.Tree.Node
import Scriptlet.Tree.SyntaxCursor

/-! # Trees as a parser hands them over

A parser marks each subtree that holds damage: a fault, or a token that it dropped and that no
node shows. The marks steer the search for the first fault down a single path.

A cursor over such a tree keeps the siblings that follow, on its own level and on those above.
-/

namespace Scriptlet

structure ParseTree where
  kind : String
  span : Span
  children : List ParseTree
  isNamed : Bool
  isExtra : Bool
  isMissing : Bool
  isDamaged : Bool
  deriving Repr, Inhabited

namespace ParseTree

def isFaulty (t : ParseTree) : Bool := t.kind == Node.errorKind || t.isMissing

mutual

/-- The tree without the marks. Its nodes carry no text of their own. -/
def toNode : ParseTree → Node
  | ⟨kind, span, children, isNamed, isExtra, isMissing, _⟩ =>
    ⟨kind, "", span, toNodes children, isNamed, isExtra, isMissing⟩

def toNodes : List ParseTree → List Node
  | [] => []
  | t :: ts => t.toNode :: toNodes ts

end

mutual

def height : ParseTree → Nat
  | ⟨_, _, children, _, _, _, _⟩ => heightAll children + 1

def heightAll : List ParseTree → Nat
  | [] => 0
  | t :: ts => max t.height (heightAll ts)

end

mutual

/-- Follow the marks from the root: stop at a faulty node, otherwise go on in the first damaged
child. -/
def damage? : ParseTree → Option ParseTree
  | ⟨kind, span, children, isNamed, isExtra, isMissing, isDamaged⟩ =>
    let t : ParseTree := ⟨kind, span, children, isNamed, isExtra, isMissing, isDamaged⟩
    if t.isFaulty then some t else damageAmong? children

def damageAmong? : List ParseTree → Option ParseTree
  | [] => none
  | t :: ts => if t.isDamaged then t.damage? else damageAmong? ts

end

structure Cursor where
  tree : ParseTree
  /-- The siblings that follow. -/
  later : List ParseTree
  /-- The parents, innermost first, each with the siblings that follow it. -/
  above : List (ParseTree × List ParseTree)
  deriving Inhabited

namespace Cursor

def ofRoot (tree : ParseTree) : Cursor := ⟨tree, [], []⟩

def firstChild? (c : Cursor) : Option Cursor :=
  match c.tree.children with
  | [] => none
  | child :: later => some ⟨child, later, (c.tree, c.later) :: c.above⟩

def nextSibling? (c : Cursor) : Option Cursor :=
  match c.later with
  | [] => none
  | sibling :: later => some ⟨sibling, later, c.above⟩

def parent? (c : Cursor) : Option Cursor :=
  match c.above with
  | [] => none
  | (parent, later) :: above => some ⟨parent, later, above⟩

instance : SyntaxCursor Cursor where
  kind c := c.tree.kind
  span c := c.tree.span
  isNamed c := c.tree.isNamed
  isExtra c := c.tree.isExtra
  firstChild? := firstChild?
  nextSibling? := nextSibling?
  parent? := parent?
  childCount c := c.tree.children.length
  height c := c.tree.height
  remaining c := c.later.length
  depth c := c.above.length
  remaining_lt {c d} h := by
    unfold nextSibling? at h
    split at h <;> cases h
    simp [*]
  depth_lt {c d} h := by
    unfold parent? at h
    split at h <;> cases h
    simp [*]

end Cursor

end ParseTree

end Scriptlet
