import Scriptlet.Diagnostic
import Scriptlet.Json.Value

/-! # Spans and diagnostics as JSON

A record is an object with its fields as members, others being ignored, or an array of its fields
in order. It is always written as an object.
-/

namespace Scriptlet

def Span.decode? : Json → Option Span
  | .object members => do
    return ⟨← (Json.member? "start" members).bind Json.index?,
      ← (Json.member? "end" members).bind Json.index?⟩
  | .array [start, stop] => do return ⟨← start.index?, ← stop.index?⟩
  | _ => none

def Span.encode (s : Span) : Json :=
  .object [("start", .ofIndex s.start), ("end", .ofIndex s.stop)]

namespace Diagnostic

def hint? : Json → Option (Option String)
  | .null => some none
  | .string hint => some (some hint)
  | _ => none

/-- An object may leave the hint out; an array may not. -/
def decode? : Json → Option Diagnostic
  | .object members => do
    let message ← (Json.member? "message" members).bind Json.string?
    let span ← (Json.member? "span" members).bind Span.decode?
    let hint ← hint? ((Json.member? "hint" members).getD .null)
    return ⟨message, span, hint⟩
  | .array [message, span, hint] => do
    return ⟨← message.string?, ← Span.decode? span, ← hint? hint⟩
  | _ => none

def encode (d : Diagnostic) : Json :=
  .object [("message", .string d.message), ("span", d.span.encode), ("hint", .ofString? d.hint)]

end Diagnostic

end Scriptlet
