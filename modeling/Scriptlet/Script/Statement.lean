import Scriptlet.Script.Annotation
import Scriptlet.Script.Target

/-! # Statements of a script

A script is a list of lines, a line one or more simple statements with semicolons between them.
Only definitions and expression statements become nodes with parts; the others are nodes of their
kind.

Some statements can be read in several ways. The ways are tried in order, and the first one counts
that reads up to where a statement may end.
-/

namespace Scriptlet.Script

namespace Statement

open Parsing Phrase

/-- May a statement end here? A new line does not end one if no statement can begin on it. -/
def isClosed : Parsing Bool := do
  let lexeme ← peek .bracket
  return lexeme == .mark ";" || ((← endsLine) && (lexeme.beginsOperand || lexeme == .finish))

/-- A parser that must read up to where a statement may end. -/
def closed (parser : Parsing Node) : Parsing Node := do
  let whole ← parser
  if ← isClosed then return whole else failure

def values (fuel : Nat) : Parsing Node := do
  let start ← offset
  match ← series fuel .value with
  | [item] => return item
  | _ => node "expression_list" start []

def valueTargets (fuel : Nat) : Parsing Node := do
  let (whole, _) ← Target.targets fuel true
  if whole.kind = "pattern_list" ∧ !(← peek .bracket).isAssignment then return whole else failure

/-- What is assigned, as expressions or as a list of targets: what reaches farther, or else what is
preferred. -/
def value (fuel : Nat) : Parsing Node := fun reading => do
  let asValues := (closed (values fuel)).run reading
  let asTargets := (closed (valueTargets fuel)).run reading
  match asValues, asTargets with
  | some (n, after), some (m, beyond) =>
    let prefersTargets := after.stop < beyond.stop ∨
      (after.stop = beyond.stop ∧ Target.isPreferred m beyond.endsScript)
    if prefersTargets then some (m, beyond) else some (n, after)
  | some result, none => some result
  | none, result => result

mutual

/-- An assignment; `isValue` if it is itself assigned. -/
def assignment : Nat → Bool → Parsing Node
  | 0, _ => failure
  | fuel + 1, isValue => do
    let start ← offset
    let (left, ending) ← Target.targets fuel isValue
    let lexeme ← peek ending
    if lexeme = .mark "=" then
      let sign ← leaf "=" false
      let value ← assigned fuel
      node NodeKind.assignment.name start [left, sign, value]
    else if lexeme = .mark ":" then
      let colon ← leaf ":" false
      let typeStart ← offset
      Annotation.annotation fuel .line
      let type ← node "type" typeStart []
      if ← accept .line (.mark "=") then
        let _ ← assigned fuel
      node NodeKind.assignment.name start [left, colon, type]
    else if lexeme.isAugmented then
      let _ ← next
      let _ ← assigned fuel
      node "augmented_assignment" start []
    else failure

def assigned : Nat → Parsing Node
  | 0 => failure
  | fuel + 1 => do
    if (← peek .bracket) = .word "yield" then yielded fuel .cause
    else assignment fuel true <|> value fuel

end

def expressions (fuel : Nat) : Parsing Node := do
  let start ← offset
  if (← peek .bracket) = .word "yield" then
    node NodeKind.expressionStatement.name start [← yielded fuel .cause]
  else
    closed (do node NodeKind.expressionStatement.name start [← assignment fuel false]) <|>
      closed (do node NodeKind.expressionStatement.name start (← series fuel .start))

def conditions : Nat → Parsing Unit
  | 0 => failure
  | fuel + 1 => do
    let _ ← expression fuel .line
    if ← accept .line (.mark ",") then conditions fuel else return ()

def names : Nat → Parsing Unit
  | 0 => failure
  | fuel + 1 => do
    let _ ← name
    if ← accept .line (.mark ",") then names fuel else return ()

def printed (fuel : Nat) : Parsing Node := do
  let start ← offset
  let _ ← next
  let lexeme ← peek .line
  if lexeme = .finish ∨ lexeme.continuesExpression then failure
  let _ ← accept .line (.mark ">>")
  let _ ← series fuel .line
  node "print_statement" start []

def executed (fuel : Nat) : Parsing Node := do
  let start ← offset
  let _ ← next
  if (← peek .bracket).beginsString then text fuel
  else
    let _ ← next
  if ← accept .line (.word "in") then conditions fuel
  node "exec_statement" start []

def isExecuting : Parsing Bool := do
  match ← peekAt 1 .line with
  | .string | .opening => return true
  | .word text => return !(Lexeme.word text).continuesExpression && text != "not"
  | _ => return false

def typeAlias (fuel : Nat) : Parsing Node := do
  let start ← offset
  let _ ← next
  let lexeme ← peek .line
  if lexeme = .finish ∨ lexeme.continuesExpression then failure
  Annotation.annotation fuel .bracket
  expect (.mark "=")
  Annotation.annotation fuel .line
  node "type_alias_statement" start []

def opensBlock (word : String) : Bool :=
  ["if", "for", "while", "try", "with", "def", "class"].contains word

def noteFork : Parsing Unit := modify fun reading =>
  match reading.tokens with
  | ⟨.word word, _, _, _⟩ :: second :: _ =>
    let isFork := ["match", "print", "type"].contains word &&
      ["(", "[", "+", "-", "*"].any (second.lexeme == .mark ·)
    { reading with fork := if isFork then some ⟨word, second⟩ else none }
  | _ => { reading with fork := none }

/-- A simple statement. A statement with a body may only come first on its line; behind a semicolon
its word is a name. -/
def simple (fuel : Nat) (isFirst : Bool) : Parsing Node := do
  noteFork
  let start ← offset
  match ← peek .bracket with
  | .word "pass" => leaf "pass_statement" true
  | .word "break" => leaf "break_statement" true
  | .word "continue" => leaf "continue_statement" true
  | .word "return" =>
    let _ ← next
    if (← peek .line).beginsOperand then
      let _ ← series fuel .cause
    node "return_statement" start []
  | .word "raise" =>
    let _ ← next
    let lexeme ← peek .line
    if lexeme.beginsOperand ∧ lexeme ≠ .word "from" then
      let _ ← series fuel .cause
    if ← accept .line (.word "from") then
      let _ ← expression fuel .line
    node "raise_statement" start []
  | .word "del" =>
    let _ ← next
    let _ ← series fuel .cause
    node "delete_statement" start []
  | .word "global" =>
    let _ ← next
    names fuel
    node "global_statement" start []
  | .word "nonlocal" =>
    let _ ← next
    names fuel
    node "nonlocal_statement" start []
  | .word "assert" =>
    let _ ← next
    conditions fuel
    node "assert_statement" start []
  | .word "import" | .word "from" => failure
  | .word "print" =>
    if (← peekAt 1 .line) = .mark ">>" then printed fuel
    else expressions fuel <|> printed fuel
  | .word "exec" => if ← isExecuting then executed fuel else expressions fuel
  | .word "type" => closed (typeAlias fuel) <|> expressions fuel
  | .word word => if isFirst && opensBlock word then failure else expressions fuel
  | _ => expressions fuel

def line : Nat → Bool → Parsing (List Node)
  | 0, _ => failure
  | fuel + 1, isFirst => do
    let statement ← closed (simple fuel isFirst)
    if ← accept .line (.mark ";") then
      if ← endsLine then return [statement]
      else return statement :: (← line fuel false)
    else return [statement]

def lines : Nat → Parsing (List Node)
  | 0 => failure
  | fuel + 1 => do
    if (← peek .bracket) = .finish then return []
    else
      let statements ← line fuel true
      return statements ++ (← lines fuel)

end Statement

/-- How many nested steps a parser may make for each token. It fails if it would make more. -/
def stepsPerToken : Nat := 32

/-- The tree of a script. Its root has the statements as its children. -/
def tree? (tokens : List Token) : Option Node :=
  let fuel := stepsPerToken * (tokens.length + 1)
  ((Statement.lines fuel).run ⟨tokens, 0, none⟩).map fun (statements, reading) =>
    ⟨NodeKind.module.name, "", ⟨0, reading.stop⟩, statements, true, false, false⟩

end Scriptlet.Script
