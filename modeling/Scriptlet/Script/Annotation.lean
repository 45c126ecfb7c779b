import Scriptlet.Script.Phrase

/-! # Annotations

The types that a target may be given: an expression, a name with types in brackets, or a starred
name. The last two have parts and alternatives of their own, and a colon may join any two types.
-/

namespace Scriptlet.Script.Annotation

open Parsing Phrase

def isPlainName (lexeme : Lexeme) : Bool :=
  lexeme.isFreeName &&
    !(["await", "async", "exec", "match", "print", "type"].map Lexeme.word).contains lexeme

def follows : Lexeme → Bool
  | .mark text => ["=", ":", "|", ".", ",", ";", "]"].contains text
  | .finish => true
  | _ => false

mutual

def annotation : Nat → Ending → Parsing Unit
  | 0, _ => failure
  | fuel + 1, ending => do
    let lexeme ← peek .bracket
    let second ← peekAt 1 ending
    let third ← peekAt 2 ending
    let isGeneric := (isPlainName lexeme ∨ lexeme = .word "type") ∧ second = .mark "["
    let isSplat := lexeme = .mark "*" ∧ isPlainName (← peekAt 1 .bracket) ∧ follows third
    if isGeneric then
      let _ ← next
      let _ ← next
      parameters fuel
      others fuel ending
    else if isSplat ∨ lexeme = .mark "**" then
      let _ ← next
      let _ ← name
      others fuel ending
    else
      let _ ← expression fuel ending
      if ← accept ending (.mark ":") then annotation fuel ending

/-- Types up to the closing bracket, which may follow a comma. There is at least one. -/
def parameters : Nat → Parsing Unit
  | 0 => failure
  | fuel + 1 => do
    annotation fuel .bracket
    if ← accept .bracket (.mark ",") then
      if ← accept .bracket (.mark "]") then return () else parameters fuel
    else expect (.mark "]")

/-- What may follow a type that is no expression. -/
def others : Nat → Ending → Parsing Unit
  | 0, _ => failure
  | fuel + 1, ending => do
    match ← peek ending with
    | .mark "." =>
      let _ ← next
      let _ ← name
      others fuel ending
    | .mark "|" | .mark ":" =>
      let _ ← next
      annotation fuel ending
    | _ => return ()

end

end Scriptlet.Script.Annotation
