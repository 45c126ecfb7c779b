import Scriptlet.Damage
import Scriptlet.Lowering.Stmt
import Scriptlet.Tree.Cursor
import Scriptlet.Tree.Fault
import Scriptlet.Tree.Parsed

/-! # Lowering programs

A program is lowered from the content of the root, wherever the cursor stands before. A tree with
a fault is refused at its first fault and is not walked at all.
-/

namespace Scriptlet

/-- Lower the whole tree that the cursor is in. -/
def Walk.program {κ : Type} [SyntaxCursor κ] (source : String) : Walk κ Program := do
  let root := SyntaxCursor.root (← cursor)
  goto root
  match SyntaxCursor.firstChild? root with
  | none => return []
  | some child =>
    goto child
    let program ← collect (stmt source) (SyntaxCursor.childCount root)
    if let some c := SyntaxCursor.parent? (← cursor) then goto c
    return program

/-- A result with the events that led to it, oldest first. -/
structure Report (α : Type) where
  result : Except Refusal α
  events : List Event

def lowerSound {κ : Type} [SyntaxCursor κ] (origin : Origin) (c : κ) (source : String) :
    Report Program :=
  let (result, walker) := (Walk.program source).run (.start c)
  let closing :=
    match result with
    | .ok program => [Event.lowered origin program.length]
    | .error _ => []
  ⟨result, walker.log.reverse ++ closing⟩

def rejectFault (origin : Origin) (refusal : Refusal) : Report Program :=
  ⟨.error refusal, [.rejected origin refusal]⟩

/-- Lower a tree that comes from another program. -/
def lower (root : Node) (source : String) : Report Program :=
  match root.firstFault? with
  | some fault =>
    rejectFault .serialized (.ofFault fault.isMissing fault.kind fault.span source)
  | none => lowerSound .serialized (Cursor.ofRoot root) source

/-- Lower a tree that a parser marked. If the marks lead to no fault, the root is reported. -/
def ParseTree.lower (tree : ParseTree) (source : String) : Report Program :=
  let report :=
    if tree.isDamaged then
      let refusal :=
        match tree.damage? with
        | some fault => .ofFault fault.isMissing fault.kind fault.span source
        | none => .ofFault false tree.kind tree.span source
      rejectFault .parsed refusal
    else lowerSound .parsed (ParseTree.Cursor.ofRoot tree) source
  { report with events := .parsing source.utf8ByteSize :: report.events }

end Scriptlet
