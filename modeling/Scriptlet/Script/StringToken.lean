/-! # String tokens

How far the text of a string reaches: letters in front, one or three quotes, and the text up to the
same quotes or up to a part in braces. The text is read in stretches. A stretch runs up to the
closing quotes or up to a character that begins an escape or a part in braces. In a string with
single quotes a line may end only where a stretch starts. Where a stretch cannot be read, the text
may still hold an escape, a comment, a continued line or a part in braces, and a new stretch starts
behind it.
-/

namespace Scriptlet.Script

def isGapBlank (c : Char) : Bool :=
  [' ', '\t', '\n', '\x0b', '\x0c', '\r', '\uFEFF', '\u2060', '\u200B'].contains c

def inComment (c : Char) : Bool := c != '\n' && c != '\x00'

structure Quotes where
  mark : Char
  isTriple : Bool
  isRaw : Bool
  isBytes : Bool
  isFormat : Bool
  deriving DecidableEq, Repr

namespace Quotes

def isLetter (c : Char) : Bool := ['b', 'B', 'f', 'F', 'r', 'R', 'u', 'U'].contains c

def isQuote (c : Char) : Bool := c == '\'' || c == '"' || c.toNat == 0x60

/-- The quotes that open a string here, with what follows. -/
def ofChars? (cs : List Char) : Option (Quotes × List Char) :=
  let (letters, rest) := cs.span isLetter
  let among (a b : Char) := letters.any fun c => c == a || c == b
  match rest with
  | [] => none
  | c :: rest =>
    let quotes := Quotes.mk c false (among 'r' 'R') (among 'b' 'B') (among 'f' 'F')
    if !isQuote c then none
    else
      match rest with
      | d :: e :: others =>
        if d = c ∧ e = c ∧ (c = '\'' ∨ c = '"') then some ({ quotes with isTriple := true }, others)
        else some (quotes, rest)
      | _ => some (quotes, rest)

def pastLineEnd : List Char → List Char
  | '\r' :: '\n' :: rest => rest
  | '\r' :: rest => rest
  | '\n' :: rest => rest
  | cs => cs

/-- In a raw string, what follows a backslash and the characters that it covers: a quote or another
backslash, and the end of a line. -/
def pastCovered (q : Quotes) : List Char → List Char
  | c :: rest => pastLineEnd (if c = q.mark ∨ c = '\\' then rest else c :: rest)
  | [] => []

theorem length_pastLineEnd_le (cs : List Char) : (pastLineEnd cs).length ≤ cs.length := by
  unfold pastLineEnd
  grind

theorem length_pastCovered_le (q : Quotes) (cs : List Char) :
    (q.pastCovered cs).length ≤ cs.length := by
  cases cs with
  | nil => simp [pastCovered]
  | cons c rest =>
    refine Nat.le_trans (length_pastLineEnd_le _) ?_
    split <;> simp

inductive Stretch
  /-- The string is closed; the rest follows it. -/
  | closes (rest : List Char)
  /-- The stretch ends, having held some text or none. -/
  | pauses (hasText : Bool) (rest : List Char)
  /-- The stretch cannot be read. -/
  | breaks
  deriving DecidableEq, Repr

def closing (q : Quotes) (cs : List Char) : Stretch :=
  if !q.isTriple then .closes cs
  else
    match cs with
    | c :: rest =>
      if c ≠ q.mark then .pauses true cs
      else
        match rest with
        | d :: others => if d = q.mark then .closes others else .pauses true rest
        | [] => .pauses true rest
    | [] => .pauses true cs

/-- Read a stretch; `hasText` tells whether some of its text came before. -/
def stretch (q : Quotes) (hasText : Bool) (cs : List Char) : Stretch :=
  match cs with
  | [] => .breaks
  | c :: rest =>
    if c = '\x00' then .breaks
    else if q.isFormat ∧ (c = '\x7b' ∨ c = '\x7d') then .pauses hasText (c :: rest)
    else if c = '\\' then
      if q.isRaw then
        have := q.length_pastCovered_le rest
        stretch q hasText (q.pastCovered rest)
      else if q.isBytes then
        match rest with
        | [] => .pauses hasText (c :: rest)
        | [d] => if ['N', 'u', 'U'].contains d then .breaks else .pauses hasText (c :: rest)
        | d :: _ :: others =>
          if ['N', 'u', 'U'].contains d then stretch q true others else .pauses hasText (c :: rest)
      else .pauses hasText (c :: rest)
    else if c = q.mark then q.closing rest
    else if c = '\n' ∧ hasText ∧ !q.isTriple then .breaks
    else stretch q true rest
termination_by cs.length
decreasing_by all_goals simp_all; try omega

def pastDigits? : Nat → List Char → Option (List Char)
  | 0, cs => some cs
  | count + 1, c :: cs =>
    if c.isDigit ∨ ('a' ≤ c ∧ c ≤ 'f') ∨ ('A' ≤ c ∧ c ≤ 'F') then pastDigits? count cs else none
  | _ + 1, [] => none

def pastOctal : Nat → List Char → List Char
  | count + 1, c :: cs => if '0' ≤ c ∧ c ≤ '7' then pastOctal count cs else c :: cs
  | _, cs => cs

def pastName? : List Char → Option (List Char)
  | '\x7b' :: cs =>
    match cs.span fun c => c != '\x7d' && c != '\x00' with
    | (_ :: _, _ :: rest) => some rest
    | _ => none
  | _ => none

/-- What follows an escape, of which the backslash is already taken. A backslash may also stand
alone. -/
def pastEscape : List Char → List Char
  | '\r' :: '\n' :: rest => rest
  | 'u' :: rest => (pastDigits? 4 rest).getD ('u' :: rest)
  | 'U' :: rest => (pastDigits? 8 rest).getD ('U' :: rest)
  | 'x' :: rest => (pastDigits? 2 rest).getD ('x' :: rest)
  | 'N' :: rest => (pastName? rest).getD ('N' :: rest)
  | c :: rest =>
    if c = '\n' ∨ c = '\x00' ∨ "'\"abfrntv\\".toList.contains c then rest
    else pastOctal 3 (c :: rest)
  | [] => []

/-- Where a piece of a string's text ends. -/
inductive Edge
  /-- At the closing quotes. -/
  | quotes
  /-- At the brace that opens a part. -/
  | part
  deriving DecidableEq, Repr

/-- What follows something in a string that is no plain text, and whether that opens a part. -/
def pastOther? (q : Quotes) (cs : List Char) : Option (Bool × List Char) :=
  match q.isFormat, cs with
  | true, '\x7b' :: '\x7b' :: rest => some (false, rest)
  | true, '\x7d' :: '\x7d' :: rest => some (false, rest)
  | _, '\\' :: rest => some (false, pastEscape rest)
  | _, _ =>
    match cs.dropWhile isGapBlank with
    | '#' :: rest => some (false, rest.dropWhile inComment)
    | '\\' :: '\n' :: rest => some (false, rest)
    | '\\' :: '\r' :: '\n' :: rest => some (false, rest)
    | '\\' :: '\x00' :: rest => some (false, rest)
    | '\x7b' :: rest => some (true, rest)
    | _ => none

/-- The edge of a piece of text and what follows it; `later?` reads on behind one stretch. -/
def edgeBehind? (q : Quotes) (later? : List Char → Option (Edge × List Char)) (cs : List Char) :
    Option (Edge × List Char) :=
  match q.stretch false cs with
  | .closes rest => some (.quotes, rest)
  | .pauses true rest => later? rest
  | _ =>
    match q.pastOther? cs with
    | some (true, rest) => some (.part, rest)
    | some (false, rest) => later? rest
    | none => none

def edge? (q : Quotes) : Nat → List Char → Option (Edge × List Char)
  | 0, _ => none
  | fuel + 1, cs => q.edgeBehind? (q.edge? fuel) cs

def piece? (q : Quotes) (cs : List Char) : Option (Edge × List Char) := q.edge? (cs.length + 1) cs

end Quotes

end Scriptlet.Script
