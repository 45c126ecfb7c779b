import Scriptlet.Lowering.Program
import Scriptlet.Script.Lexer
import Scriptlet.Script.Statement

/-! # Reading scripts

A script whose tokens or grammar are damaged is turned away as a whole, whatever else is wrong
with it. Every other script is lowered, and refused with the cause and the place of the first
problem.
-/

namespace Scriptlet.Script

inductive Failure
  | damaged
  | refused (refusal : Refusal)
  deriving DecidableEq, Repr

def treeOf? (source : String) : Option Node := (tokens? source).bind tree?

def read (source : String) : Except Failure Program :=
  match treeOf? source with
  | none => .error .damaged
  | some tree => (lowerSound .parsed (Cursor.ofRoot tree) source).result.mapError .refused

end Scriptlet.Script
