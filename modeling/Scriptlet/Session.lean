import Scriptlet.Lowering.Program

/-! # Sessions

A session explores one tree: it moves a cursor, keeps copies of it, and lowers what it stands on.
A lowering that is refused puts the cursor back.
-/

namespace Scriptlet

inductive Cursor.Move
  | firstChild
  | nextSibling
  | parent
  | firstSignificant
  | nextSignificant
  deriving DecidableEq, Repr

def Cursor.move (c : Cursor) : Cursor.Move → Bool × Cursor
  | .firstChild => (c.firstChild?.isSome, c.firstChild?.getD c)
  | .nextSibling => (c.nextSibling?.isSome, c.nextSibling?.getD c)
  | .parent => (c.parent?.isSome, c.parent?.getD c)
  | .firstSignificant => c.firstSignificant
  | .nextSignificant => c.nextSignificant

structure Session where
  cursor : Cursor
  /-- Newest first. -/
  saved : List Cursor
  deriving Inhabited

namespace Session

def start (root : Node) : Session := ⟨.ofRoot root, []⟩

inductive Command
  | move (m : Cursor.Move)
  | save
  | restore
  | text
  | expr
  | stmt
  | program
  | node
  deriving DecidableEq, Repr

inductive Reply
  | moved (success : Bool)
  | saved (count : Nat)
  | text (result : Except Refusal String)
  | expr (result : Except Refusal Expr)
  | stmt (result : Except Refusal Stmt)
  | program (result : Except Refusal Program)
  | node (node : Node)

/-- Run a walk from the cursor; only success moves the cursor. -/
def walk {α : Type} (s : Session) (w : Walk Cursor α) : Except Refusal α × Session :=
  let (result, walker) := w.run (.start s.cursor)
  match result with
  | .ok _ => (result, { s with cursor := walker.cursor })
  | .error _ => (result, s)

def step (s : Session) (source : String) : Command → Reply × Session
  | .move m =>
    let (success, c) := s.cursor.move m
    (.moved success, { s with cursor := c })
  | .save => (.saved (s.saved.length + 1), { s with saved := s.cursor :: s.saved })
  | .restore =>
    match s.saved with
    | [] => (.moved false, s)
    | c :: saved => (.moved true, ⟨c, saved⟩)
  | .text =>
    let (result, s) := s.walk (Walk.text source)
    (.text result, s)
  | .expr =>
    let (result, s) := s.walk (Walk.expr source)
    (.expr result, s)
  | .stmt =>
    let (result, s) := s.walk (Walk.stmt source)
    (.stmt result, s)
  | .program =>
    let (result, s) := s.walk (Walk.program source)
    (.program result, s)
  | .node => (.node s.cursor.node, s)

end Session

end Scriptlet
