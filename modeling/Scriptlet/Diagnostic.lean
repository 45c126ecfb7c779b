import Scriptlet.Span

/-! # Diagnostics

What a user is told: a message, a place, and perhaps a hint.
-/

namespace Scriptlet

structure Diagnostic where
  message : String
  span : Span
  hint : Option String
  deriving DecidableEq, Repr, Inhabited

namespace Diagnostic

def error (message : String) (span : Span) : Diagnostic := ⟨message, span, none⟩

def withHint (d : Diagnostic) (hint : String) : Diagnostic := { d with hint := some hint }

end Diagnostic

end Scriptlet
