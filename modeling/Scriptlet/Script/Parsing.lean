import Scriptlet.Script.Token
import Scriptlet.Tree.Kind
import Scriptlet.Tree.Node

/-! # Parsing

The basic steps of reading tokens. A parser fails without saying where. Where a statement may end,
a token on a new line reads as the end; elsewhere a new line means nothing.
-/

namespace Scriptlet.Script

/-- What may end an expression. -/
inductive Ending
  /-- Only what closes a bracket. -/
  | bracket
  /-- Only what closes a bracket, or else the word `for`: behind the first item in it. -/
  | item
  /-- The word `else`. -/
  | choice
  /-- A new line. -/
  | line
  /-- A new line: where a statement begins. -/
  | start
  /-- A new line, or the word `from` behind a comma: where an assigned value begins. -/
  | value
  /-- A new line or the word `from`. -/
  | cause
  deriving DecidableEq, Repr

namespace Ending

def atLine : Ending → Bool
  | line | start | value | cause => true
  | bracket | item | choice => false

def later : Ending → Ending
  | start => line
  | value => cause
  | ending => ending

def atWord : Ending → String → Bool
  | choice, text => text == "else"
  | cause, text => text == "from"
  | _, _ => false

def atAwait : Ending → String → Bool
  | choice, text => text == "else"
  | item, text => text == "for"
  | line, text | cause, text => text == "from"
  | _, _ => false

end Ending

/-- How a statement begins that goes on as it does behind a name, or else as a statement of its own
kind. -/
structure Fork where
  word : String
  mark : Token

structure Reading where
  tokens : List Token
  /-- Where the last token taken ends. -/
  stop : Nat
  /-- How the statement begins, if its first word need not be a name. -/
  fork : Option Fork
  deriving Inhabited

/-- The first word of the statement, if this mark behind it was the last token taken. -/
def Reading.forked? (reading : Reading) (mark : String) : Option String :=
  match reading.fork with
  | some fork =>
    if fork.mark.lexeme = .mark mark ∧ fork.mark.span.stop = reading.stop then some fork.word
    else none
  | none => none

/-- Does nothing but blanks follow up to the end of the script? -/
def Reading.endsScript (reading : Reading) : Bool :=
  match reading.tokens with
  | token :: _ => token.lexeme == .finish && !token.isApart
  | [] => false

abbrev Parsing := StateT Reading Option

namespace Parsing

def offset : Parsing Nat := do
  match (← get).tokens with
  | token :: _ => return token.span.start
  | [] => failure

def next : Parsing Token := do
  match (← get).tokens with
  | token :: tokens =>
    modify fun reading => { reading with tokens, stop := token.span.stop }
    return token
  | [] => failure

def peekAt (count : Nat) (ending : Ending) : Parsing Lexeme := do
  match (← get).tokens.drop count with
  | token :: _ => return if ending.atLine && token.newLine then .finish else token.lexeme
  | [] => return .finish

def peek (ending : Ending) : Parsing Lexeme := peekAt 0 ending

def accept (ending : Ending) (lexeme : Lexeme) : Parsing Bool := do
  if (← peek ending) = lexeme then
    let _ ← next
    return true
  else return false

/-- Take the next token, which must be this one, on whatever line it stands. -/
def expect (lexeme : Lexeme) : Parsing Unit := do
  if !(← accept .bracket lexeme) then failure

/-- Take a star. Two stars may be one mark, of which the second is left. -/
def expectStar : Parsing Unit := do
  let token ← next
  match token.lexeme with
  | .mark "*" => return ()
  | .mark "**" =>
    let middle := token.span.start + 1
    let second := Token.mk (.mark "*") ⟨middle, token.span.stop⟩ false false
    modify fun reading => { reading with tokens := second :: reading.tokens, stop := middle }
  | _ => failure

/-- A node that reaches from an offset to the last token taken. -/
def node (kind : String) (start : Nat) (children : List Node) : Parsing Node :=
  return ⟨kind, "", ⟨start, (← get).stop⟩, children, true, false, false⟩

def leaf (kind : String) (isNamed : Bool) : Parsing Node :=
  return ⟨kind, "", (← next).span, [], isNamed, false, false⟩

def name : Parsing Node := do
  match ← peek .bracket with
  | .word _ => leaf NodeKind.identifier.name true
  | _ => failure

def endsLine : Parsing Bool := do
  match (← get).tokens with
  | token :: _ => return token.newLine
  | [] => return false

end Parsing

end Scriptlet.Script
