/-! # Limits

The fixed numbers of the library.
-/

namespace Scriptlet.Limits

/-- A built-in takes at least this many arguments. -/
def minArity : Nat := 1

/-- A built-in takes at most this many arguments. -/
def maxArity : Nat := 2

/-- A diagnostic quotes at most this many characters of the source. -/
def snippetLength : Nat := 20

/-- Free stack below which a host should continue a deep walk on a new segment. -/
def stackReserveBytes : Nat := 64 * 1024

/-- The size of such a segment. -/
def stackSegmentBytes : Nat := 2 * 1024 * 1024

end Scriptlet.Limits
