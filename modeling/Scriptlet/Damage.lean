import Scriptlet.Refusal
import Scriptlet.Text.Blank
import Scriptlet.Text.Slice

/-! # Damage in the source

What is wrong with a source that a parser could not read, told at one place: a token that is
missing, or misplaced text, of which the beginning is quoted.
-/

namespace Scriptlet

inductive Damage
  /-- A token of this kind is missing. -/
  | missing (kind : String)
  /-- Misplaced text that begins like this. -/
  | near (snippet : String)
  /-- Misplaced text that shows nothing, at this offset. -/
  | atByte (offset : Nat)
  deriving DecidableEq, Repr, Inhabited

namespace Damage

def message : Damage → String
  | missing kind => "missing `" ++ kind ++ "`"
  | near snippet => "syntax error near `" ++ snippet ++ "`"
  | atByte offset => "syntax error at byte " ++ toString offset

/-- The beginning of a text, without blanks around it; nothing if the text is all blank. -/
def snippet? (text : String) : Option String :=
  match (Text.trim text.toList).take Limits.snippetLength with
  | [] => none
  | cs => some (String.ofList cs)

/-- What a node of this kind and span says is wrong. -/
def describe (isMissing : Bool) (kind : String) (span : Span) (source : String) : Damage :=
  if isMissing then missing kind
  else
    match (span.slice? source).bind snippet? with
    | some snippet => near snippet
    | none => atByte span.start

end Damage

/-- The refusal of a source whose first fault is a node like this. -/
def Refusal.ofFault (isMissing : Bool) (kind : String) (span : Span) (source : String) : Refusal :=
  syntaxError (Damage.describe isMissing kind span source).message span

end Scriptlet
