import Scriptlet.Span
import Scriptlet.Tree.Kind

/-! # Cursors over syntax

What a walk asks of a cursor: what the current node is, and the basic moves to the first child, the
next sibling and the parent. How the tree is stored does not show. The other moves are made of the
basic ones: the significant moves pass over extra nodes.
-/

namespace Scriptlet

class SyntaxCursor (κ : Type) where
  kind : κ → String
  span : κ → Span
  isNamed : κ → Bool
  isExtra : κ → Bool
  firstChild? : κ → Option κ
  nextSibling? : κ → Option κ
  parent? : κ → Option κ
  childCount : κ → Nat
  /-- How deep the tree below is. -/
  height : κ → Nat
  /-- How many siblings follow. -/
  remaining : κ → Nat
  /-- How many nodes are above. -/
  depth : κ → Nat
  remaining_lt {c d : κ} : nextSibling? c = some d → remaining d < remaining c
  depth_lt {c d : κ} : parent? c = some d → depth d < depth c

namespace SyntaxCursor

variable {κ : Type} [SyntaxCursor κ]

def nodeKind (c : κ) : NodeKind := NodeKind.ofName (kind c)

def isContent (c : κ) : Bool := isNamed c && !isExtra c

/-- Go to the next sibling that is no extra. If there is none the answer is `false` and the cursor
rests on the last sibling. -/
def nextSignificant (c : κ) : Bool × κ :=
  match h : nextSibling? c with
  | none => (false, c)
  | some d =>
    have := remaining_lt h
    if isExtra d then nextSignificant d else (true, d)
termination_by remaining c

theorem nextSignificant_of_none {c : κ} (h : nextSibling? c = none) :
    nextSignificant c = (false, c) := by
  rw [nextSignificant]
  split
  next => rfl
  next hs => cases h.symm.trans hs

theorem nextSignificant_of_some {c d : κ} (h : nextSibling? c = some d) :
    nextSignificant c = if isExtra d then nextSignificant d else (true, d) := by
  rw [nextSignificant]
  split
  next hn => cases h.symm.trans hn
  next hs => cases h.symm.trans hs; rfl

/-- Go to the first child that is no extra. If there is none the answer is `false`, and the cursor
climbs back from the last child that it looked at. -/
def firstSignificant (c : κ) : Bool × κ :=
  match firstChild? c with
  | none => (false, c)
  | some d =>
    if !isExtra d then (true, d)
    else
      match nextSignificant d with
      | (true, e) => (true, e)
      | (false, e) => (false, (parent? e).getD e)

def root (c : κ) : κ :=
  match h : parent? c with
  | none => c
  | some d =>
    have := depth_lt h
    root d
termination_by depth c

theorem root_of_none {c : κ} (h : parent? c = none) : root c = c := by
  rw [root]
  split
  next => rfl
  next hs => cases h.symm.trans hs

theorem root_of_some {c d : κ} (h : parent? c = some d) : root c = root d := by
  rw [root]
  split
  next hn => cases h.symm.trans hn
  next hs => cases h.symm.trans hs; rfl

end SyntaxCursor

end Scriptlet
