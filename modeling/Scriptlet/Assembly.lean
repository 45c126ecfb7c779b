import Scriptlet.Program

/-! # Assembling programs

A stack machine that builds expressions from their operands and appends them to a program as
statements. An instruction that wants more expressions than there are stops the assembly.
-/

namespace Scriptlet

structure Assembly where
  /-- Newest first. -/
  stack : List Expr
  program : Program
  deriving Inhabited

namespace Assembly

def empty : Assembly := ⟨[], []⟩

inductive Instruction
  | number (value : Binary64)
  | identifier (name : String)
  | binary (token : String)
  | call1 (name : String)
  | call2 (name : String)
  | duplicate
  | drop
  | define (name : String)
  | evaluate
  | compare
  | compareStatements
  deriving DecidableEq, Repr

inductive Outcome
  | done
  | noOperator
  | compared (equal : Bool)
  deriving DecidableEq, Repr

def lastTwoEqual (program : Program) : Bool :=
  match program.reverse with
  | b :: a :: _ => a == b
  | _ => false

def push (a : Assembly) (stack : List Expr) (e : Expr) : Assembly := { a with stack := e :: stack }

def append (a : Assembly) (stack : List Expr) (s : Stmt) : Assembly := ⟨stack, a.program ++ [s]⟩

/-- Carry out an instruction; nothing if the stack holds too few expressions for it. -/
def step? (a : Assembly) (instruction : Instruction) : Option (Outcome × Assembly) :=
  match instruction, a.stack with
  | .number x, stack => some (.done, a.push stack (.number x))
  | .identifier name, stack => some (.done, a.push stack (.identifier name))
  | .binary token, stack =>
    match BinaryOp.ofSymbol? token, stack with
    | none, _ => some (.noOperator, a)
    | some op, right :: left :: stack => some (.done, a.push stack (.binary op left right))
    | some _, _ => none
  | .call1 name, arg :: stack => some (.done, a.push stack (.call1 name arg))
  | .call2 name, second :: first :: stack => some (.done, a.push stack (.call2 name first second))
  | .duplicate, e :: stack => some (.done, a.push (e :: stack) e)
  | .drop, _ :: stack => some (.done, { a with stack := stack })
  | .define name, value :: stack => some (.done, a.append stack (.define name value))
  | .evaluate, value :: stack => some (.done, a.append stack (.evaluate value))
  | .compare, y :: x :: _ => some (.compared (x == y), a)
  | .compareStatements, _ => some (.compared (lastTwoEqual a.program), a)
  | _, _ => none

end Assembly

end Scriptlet
