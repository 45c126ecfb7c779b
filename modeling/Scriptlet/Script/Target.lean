import Scriptlet.Script.Phrase

/-! # Targets

What may stand left of an assignment: names, attributes and subscripts, with or without a star, and
targets in brackets. Behind a comma every word is a name that is none of the values. New lines mean
nothing where only an assignment can go on.
-/

namespace Scriptlet.Script

/-- The lexeme behind the bracket that closes what is open, so many brackets deep. -/
def behindBracket : Nat → List Token → Lexeme
  | _, [] => .finish
  | depth, token :: tokens =>
    match token.lexeme with
    | .mark text =>
      if ["(", "[", "\x7b"].contains text then behindBracket (depth + 1) tokens
      else if [")", "]", "\x7d"].contains text then
        if depth ≤ 1 then (tokens.head?.map Token.lexeme).getD .finish
        else behindBracket (depth - 1) tokens
      else behindBracket depth tokens
    | _ => behindBracket depth tokens

namespace Target

open Parsing Phrase

def isPlain (n : Node) : Bool :=
  ["identifier", "attribute", "subscript", "list_splat"].contains n.kind

/-- What goes on up to an attribute or a subscript that ends a target. -/
def reach : Nat → Ending → Nat → Node → Parsing Node
  | 0, _, _, _ => failure
  | fuel + 1, ending, start, left => do
    let whole ← trailers fuel ending start left
    if isPlain whole then return whole
    else reach fuel ending start (← member fuel start whole)

inductive Position
  /-- First in a statement or a value. -/
  | first
  /-- Behind a comma. -/
  | later
  /-- First in a bracket. -/
  | head
  /-- Behind a comma in a bracket. -/
  | member
  deriving DecidableEq, Repr

/-- May a longer expression stand here as well? -/
def Position.isShared (position : Position) : Bool := position == first || position == head

def plain (fuel : Nat) (ending : Ending) (position : Position) : Parsing Node := do
  let start ← offset
  let lexeme ← peek .bracket
  if lexeme = .word "await" ∧ (← peekAt 1 ending).isAwaited ending then failure
  let first ← if lexeme.isStar then starredOperand fuel ending start else atom fuel ending
  let whole ← if position.isShared then trailers fuel ending start first
    else reach fuel ending start first
  if !isPlain whole ∨ (position = .head ∧ continuesSplatTuple whole) then failure
  else if whole.kind = "list_splat" then return { whole with kind := "list_splat_pattern" }
  else return whole

/-- Is there a bracket here that holds targets? What such a bracket begins does not go on behind it.
-/
def opensGroup (ending : Ending) : Parsing Bool := do
  let behind ← match ← peek .bracket, ← peekAt 1 .bracket with
    | .mark "(", .mark ")" => peekAt 2 ending
    | .mark "[", .mark "]" => peekAt 2 ending
    | .mark "(", _ | .mark "[", _ => pure (behindBracket 0 (← get).tokens)
    | _, _ => return false
  return !behind.isTrailer

mutual

def target : Nat → Ending → Position → Parsing Node
  | 0, _, _ => failure
  | fuel + 1, ending, position => do
    let start ← offset
    if ← opensGroup ending then
      if (← next).lexeme = .mark "(" then
        node "tuple_pattern" start (← group fuel (.mark ")") .head)
      else node "list_pattern" start (← group fuel (.mark "]") .head)
    else
      let lexeme ← peek .bracket
      let second ← peekAt 1 .bracket
      let isReserved := lexeme = .word "yield" ∨ lexeme.isReserved ∨
        (position = .head ∧ lexeme.isStar ∧ second.isReserved)
      if isReserved ∧ position.isShared then failure else plain fuel ending position

/-- Targets up to a closing bracket. A comma before the bracket is kept. -/
def group : Nat → Lexeme → Position → Parsing (List Node)
  | 0, _, _ => failure
  | fuel + 1, last, position => do
    if ← accept .bracket last then return []
    else
      let first ← target fuel .bracket position
      if (← peek .bracket) = .mark "," then
        let comma ← leaf "," false
        if ← accept .bracket last then return [first, comma]
        else return first :: (← group fuel last .member)
      else
        expect last
        return [first]

end

def others : Nat → Ending → Parsing (List Node)
  | 0, _ => failure
  | fuel + 1, ending => do
    let lexeme ← peek ending
    if lexeme = .finish ∨ lexeme = .mark ";" ∨ lexeme.isAssignment then return []
    else
      let first ← target fuel ending .later
      if ← accept ending (.mark ",") then return first :: (← others fuel ending)
      else return [first]

def isGroup (n : Node) : Bool := n.kind == "tuple_pattern" || n.kind == "list_pattern"

/-- Targets with commas between them, and what may end them. A list of targets that is itself a
value may end with the line; a bracket that is no operand may not. -/
def targets (fuel : Nat) (isValue : Bool) : Parsing (Node × Ending) := do
  let start ← offset
  let first ← target fuel .line .first
  let ending := if isGroup first ∧ !first.children.isEmpty then .bracket else .line
  if ← accept ending (.mark ",") then
    let ending := if isValue then .line else .bracket
    let items := first :: (← others fuel ending)
    return (← node "pattern_list" start items, ending)
  else return (first, ending)

def isStarred : Node → Bool
  | ⟨_, _, _, [], _, _, _⟩ => false
  | ⟨kind, _, _, first :: _, _, _, _⟩ =>
    kind == "list_splat" || kind == "list_splat_pattern" ||
      (beginsWithOperand kind && isStarred first)

/-- Is this a group of one target that is no group with targets itself? -/
def isLone (n : Node) : Bool :=
  match n.children with
  | [item] =>
    isGroup n && !(n.kind == "list_pattern" && item.kind == "list_splat_pattern") &&
      !(isGroup item && !item.children.isEmpty)
  | _ => false

mutual

/-- Is the group rather one of targets than of values? -/
def isLikely : Node → Bool
  | ⟨kind, _, _, items, _, _, _⟩ =>
    (kind == "tuple_pattern" || kind == "list_pattern") && areLikely true true false items

/-- Are the items rather targets than values? A star inside a group speaks for targets if it is not
in front of the first item, and a group of one target speaks against. What comes last decides. -/
def areLikely (isInner isFirst sofar : Bool) : List Node → Bool
  | [] => sofar
  | item :: items =>
    let isFor := isLikely item || (isInner && !isFirst && isStarred item)
    let isAgainst :=
      isLone item || (!isInner && isStarred item && item.kind != "list_splat_pattern")
    areLikely isInner false (isFor || (sofar && !isAgainst)) items

end

/-- Is a list rather one of targets than of values? At the end of a script, only a last group that
says nothing keeps what was likely before it. -/
def isPreferred (n : Node) (endsScript : Bool) : Bool :=
  if !endsScript then areLikely false true false n.children
  else
    match n.children.getLast? with
    | some last =>
      last.span.stop == n.span.stop && isGroup last && !last.children.isEmpty && !isLone last &&
        !isLikely last && areLikely false true false n.children.dropLast
    | none => false

end Target

end Scriptlet.Script
