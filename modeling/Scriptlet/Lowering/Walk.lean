import Scriptlet.Lowering.Event
import Scriptlet.Text.Slice
import Scriptlet.Tree.SyntaxCursor

/-! # Walks

A walk moves one cursor through a tree, logs what it meets, and either has a result or stops at a
refusal. The cursor and the log stay where they were when it stopped. The three moves `enter`,
`advance` and `leave` bracket the visit of a node's significant children.
-/

namespace Scriptlet

structure Walker (κ : Type) where
  cursor : κ
  /-- Newest first. -/
  log : List Event
  /-- How often a walk tried to leave a root. -/
  missteps : Nat
  deriving Inhabited

def Walker.start {κ : Type} (cursor : κ) : Walker κ := ⟨cursor, [], 0⟩

abbrev Walk (κ : Type) := ExceptT Refusal (StateM (Walker κ))

namespace Walk

variable {κ α β : Type}

def run (walk : Walk κ α) (walker : Walker κ) : Except Refusal α × Walker κ :=
  ExceptT.run walk walker

def cursor : Walk κ κ := return (← get).cursor

def goto (c : κ) : Walk κ Unit := modify fun w => { w with cursor := c }

def note (event : Event) : Walk κ Unit := modify fun w => { w with log := event :: w.log }

variable [SyntaxCursor κ]

def text (source : String) : Walk κ String := do
  let span := SyntaxCursor.span (← cursor)
  match span.slice? source with
  | some text => return text
  | none => throw (.outOfBounds span)

def unsupported : Walk κ α := do
  let c ← cursor
  throw (.unsupportedSyntax (SyntaxCursor.kind c) (SyntaxCursor.span c))

def nextSibling : Walk κ Bool := do
  match SyntaxCursor.nextSibling? (← cursor) with
  | some c => goto c; return true
  | none => return false

def nextSignificant : Walk κ Bool := do
  let (found, c) := SyntaxCursor.nextSignificant (← cursor)
  goto c
  return found

/-- Go down to the first significant child of the node at `span`. -/
def enter (lacking : Shortage) (span : Span) : Walk κ Unit := do
  let (found, c) := SyntaxCursor.firstSignificant (← cursor)
  goto c
  if !found then throw (.ofShortage lacking span)

/-- Go on to the next significant child of the node at `span`. -/
def advance (lacking : Shortage) (span : Span) : Walk κ Unit := do
  if !(← nextSignificant) then throw (.ofShortage lacking span)

def leave : Walk κ Unit := do
  match SyntaxCursor.parent? (← cursor) with
  | some c => goto c
  | none => modify fun w => { w with missteps := w.missteps + 1 }

/-- Visit the named, significant nodes among the current one and the siblings after it. -/
def collect (visit : Walk κ α) : Nat → Walk κ (List α)
  | 0 => return []
  | siblings + 1 => do
    let here ← cursor
    let found ← if SyntaxCursor.isContent here then (fun x => [x]) <$> visit else pure []
    if ← nextSibling then
      return found ++ (← collect visit siblings)
    else return found

/-- Visit the named, significant children of the current node, and come back to it. -/
def collectChildren (visit : Walk κ α) : Walk κ (List α) := do
  let c ← cursor
  match SyntaxCursor.firstChild? c with
  | none => return []
  | some child =>
    goto child
    let found ← collect visit (SyntaxCursor.childCount c)
    leave
    return found

section Run

omit [SyntaxCursor κ]

@[simp] theorem run_pure (a : α) (w : Walker κ) : (pure a : Walk κ α).run w = (.ok a, w) := rfl

@[simp] theorem run_throw (r : Refusal) (w : Walker κ) :
    (throw r : Walk κ α).run w = (.error r, w) := rfl

theorem run_bind (x : Walk κ α) (f : α → Walk κ β) (w : Walker κ) :
    (x >>= f).run w =
      match x.run w with
      | (.ok a, v) => (f a).run v
      | (.error r, v) => (.error r, v) := by
  change (ExceptT.bindCont f (x.run w).1) (x.run w).2 = _
  rcases x.run w with ⟨_ | _, _⟩ <;> rfl

theorem run_map (f : α → β) (x : Walk κ α) (w : Walker κ) :
    (f <$> x).run w =
      match x.run w with
      | (.ok a, v) => (.ok (f a), v)
      | (.error r, v) => (.error r, v) := by
  rw [map_eq_pure_bind, run_bind]
  rcases x.run w with ⟨_ | _, _⟩ <;> rfl

@[simp] theorem run_cursor (w : Walker κ) : cursor.run w = (.ok w.cursor, w) := rfl

@[simp] theorem run_goto (c : κ) (w : Walker κ) :
    (goto c).run w = (.ok (), { w with cursor := c }) := rfl

@[simp] theorem run_note (e : Event) (w : Walker κ) :
    (note e).run w = (.ok (), { w with log := e :: w.log }) := rfl

end Run

@[simp] theorem run_unsupported (w : Walker κ) : (unsupported : Walk κ α).run w =
    (.error (.unsupportedSyntax (SyntaxCursor.kind w.cursor) (SyntaxCursor.span w.cursor)), w) :=
  rfl

theorem run_text (source : String) (w : Walker κ) :
    (text source).run w =
      match (SyntaxCursor.span w.cursor).slice? source with
      | some t => (.ok t, w)
      | none => (.error (.outOfBounds (SyntaxCursor.span w.cursor)), w) := by
  simp only [text, run_bind, run_cursor]
  cases (SyntaxCursor.span w.cursor).slice? source <;> rfl

theorem run_nextSibling (w : Walker κ) :
    nextSibling.run w =
      match SyntaxCursor.nextSibling? w.cursor with
      | some c => (.ok true, { w with cursor := c })
      | none => (.ok false, w) := by
  simp only [nextSibling, run_bind, run_cursor]
  cases SyntaxCursor.nextSibling? w.cursor <;> rfl

theorem run_nextSignificant (w : Walker κ) :
    nextSignificant.run w =
      (.ok (SyntaxCursor.nextSignificant w.cursor).1,
        { w with cursor := (SyntaxCursor.nextSignificant w.cursor).2 }) := rfl

theorem run_enter (s : Shortage) (span : Span) (w : Walker κ) :
    (enter s span).run w =
      (if (SyntaxCursor.firstSignificant w.cursor).1 then .ok () else .error (.ofShortage s span),
        { w with cursor := (SyntaxCursor.firstSignificant w.cursor).2 }) := by
  simp only [enter, run_bind, run_cursor]
  rcases SyntaxCursor.firstSignificant w.cursor with ⟨_ | _, _⟩ <;> rfl

theorem run_advance (s : Shortage) (span : Span) (w : Walker κ) :
    (advance s span).run w =
      (if (SyntaxCursor.nextSignificant w.cursor).1 then .ok () else .error (.ofShortage s span),
        { w with cursor := (SyntaxCursor.nextSignificant w.cursor).2 }) := by
  simp only [advance, run_bind, run_nextSignificant]
  rcases SyntaxCursor.nextSignificant w.cursor with ⟨_ | _, _⟩ <;> rfl

theorem run_leave (w : Walker κ) :
    leave.run w =
      (.ok (), match SyntaxCursor.parent? w.cursor with
        | some c => { w with cursor := c }
        | none => { w with missteps := w.missteps + 1 }) := by
  simp only [leave, run_bind, run_cursor]
  cases SyntaxCursor.parent? w.cursor <;> rfl

end Walk

end Scriptlet
