import Scriptlet.Script.NumberToken
import Scriptlet.Script.StringPart
import Scriptlet.Text.Word

/-! # From characters to tokens

Between tokens there are blanks, comments and continued lines. A line end counts only if it is
seen before any of the rarer blanks: those hide what follows them, up to the next token or
comment, and the quotes of a string as well. A byte order mark in front of the script hides
nothing.
-/

namespace Scriptlet.Script

/-- What stands between the last token and the next. -/
structure Gap where
  newLine : Bool
  /-- Was there a rarer blank since the last token or comment? -/
  isHidden : Bool
  /-- Was there a comment behind the line end, or a continued line? -/
  isApart : Bool
  deriving DecidableEq, Repr

namespace Gap

def empty : Gap := ⟨false, false, false⟩

def endLine (g : Gap) : Gap := { g with newLine := g.newLine || !g.isHidden }

def hide (g : Gap) : Gap := { g with isHidden := true }

def remark (g : Gap) : Gap := ⟨g.newLine, false, g.isApart || g.newLine⟩

/-- After a continued line, blanks hide nothing any more. -/
def carryOn (g : Gap) : Gap := ⟨g.newLine, false, true⟩

end Gap

def isPlainBlank (c : Char) : Bool := c == ' ' || c == '\t' || c == '\r' || c == '\x0c'

def byteCount (cs : List Char) : Nat := cs.foldl (fun bytes c => bytes + c.utf8Size) 0

/-- Pass a blank, a comment or a continued line: the gap behind it, its characters and the rest. -/
def Gap.pass? (g : Gap) : List Char → Option (Gap × List Char × List Char)
  | '\\' :: '\n' :: rest => some (g.carryOn, ['\\', '\n'], rest)
  | '\\' :: '\r' :: '\n' :: rest => some (g.carryOn, ['\\', '\r', '\n'], rest)
  | '\\' :: '\x00' :: rest => some (⟨false, false, true⟩, ['\\', '\x00'], rest)
  | c :: rest =>
    if c = '\n' then some (g.endLine, [c], rest)
    else if isPlainBlank c then some (g, [c], rest)
    else if isGapBlank c then some (g.hide, [c], rest)
    else if c = '#' then
      let (comment, rest) := rest.span inComment
      some (g.remark, c :: comment, rest)
    else none
  | [] => none

/-- The rest of a text after the given characters, if it begins with them. -/
def dropWord? : List Char → List Char → Option (List Char)
  | [], cs => some cs
  | d :: ds, c :: cs => if c = d then dropWord? ds cs else none
  | _ :: _, [] => none

/-- The longest mark at the start of a text. -/
def mark? (cs : List Char) : Option (Lexeme × List Char × List Char) :=
  marks.findSome? fun m => (dropWord? m.toList cs).map fun rest => (.mark m, m.toList, rest)

def startsNumber : List Char → Bool
  | '.' :: c :: _ => c.isDigit
  | c :: _ => c.isDigit
  | [] => false

/-- The characters of a text that stand before its rest. -/
def before (cs rest : List Char) : List Char := cs.take (cs.length - rest.length)

/-- The number, the word or the mark at the start of a text, with the characters that it takes and
those after it. -/
def plainLexeme? (cs : List Char) : Option (Lexeme × List Char × List Char) :=
  if startsNumber cs then
    let number := NumberToken.ofChars cs
    some (if number.isFloat then .float else .integer, number.taken, number.rest)
  else
    match cs with
    | c :: rest =>
      if Text.isWordStart c then
        let (taken, rest) := rest.span Text.isWordContinue
        some (.word (String.ofList (c :: taken)), c :: taken, rest)
      else mark? cs
    | [] => none

/-- What a character means only in a part of a string, outside the brackets of that part: it closes
the part, converts its value or begins its layout. -/
def partLexeme? (parts : List StringPart) (read : List Token) (cs : List Char) :
    Option (Option (Lexeme × List StringPart × List Char)) :=
  match cs with
  | '\x7d' :: rest => some (StringPart.close? parts rest)
  | '!' :: c :: rest => if 'a' ≤ c ∧ c ≤ 'z' then some (some (.conversion, parts, rest)) else none
  | ':' :: rest =>
    if rest.head? = some '=' ∧ StringPart.namesValue read then none
    else some (StringPart.layout? parts rest)
  | _ => none

/-- The lexeme at the start of a text, with the parts of strings that are open behind it, the
characters that it takes and those after it. -/
def lexeme? (isHidden : Bool) (parts : List StringPart) (read : List Token) (cs : List Char) :
    Option (Lexeme × List StringPart × List Char × List Char) :=
  let within := if StringPart.isOutside parts then partLexeme? parts read cs else none
  match within, Quotes.ofChars? cs with
  | some found, _ => found.map fun (lexeme, parts, rest) => (lexeme, parts, before cs rest, rest)
  | none, some (quotes, text) =>
    if isHidden then none
    else (StringPart.open? parts quotes text).map fun (lexeme, parts, rest) =>
      (lexeme, parts, before cs rest, rest)
  | none, none =>
    (plainLexeme? cs).map fun (lexeme, taken, rest) =>
      match lexeme with
      | .mark mark => (lexeme, StringPart.count mark parts, taken, rest)
      | _ => (lexeme, parts, taken, rest)

/-- Read the tokens of a text that starts at an offset; `read` holds those before, newest first, and
`parts` the parts of strings that are open. -/
def tokensFrom? :
    Nat → Nat → Gap → List StringPart → List Token → List Char → Option (List Token)
  | 0, _, _, _, _, _ => none
  | _ + 1, offset, gap, _, read, [] =>
    some (⟨.finish, ⟨offset, offset⟩, gap.endLine.newLine, gap.isApart⟩ :: read).reverse
  | fuel + 1, offset, gap, parts, read, c :: cs =>
    match gap.pass? (c :: cs) with
    | some (gap, passed, rest) =>
      tokensFrom? fuel (offset + byteCount passed) gap parts read rest
    | none =>
      match lexeme? gap.isHidden parts read (c :: cs) with
      | none => none
      | some (lexeme, parts, taken, rest) =>
        let stop := offset + byteCount taken
        let token := Token.mk lexeme ⟨offset, stop⟩ gap.newLine gap.isApart
        tokensFrom? fuel stop .empty parts (token :: read) rest

/-- The tokens of a script, the last one its end. Nothing if some character is in no token. -/
def tokens? (source : String) : Option (List Token) :=
  match source.toList with
  | '\uFEFF' :: cs => tokensFrom? (cs.length + 1) 3 .empty [] [] cs
  | cs => tokensFrom? (cs.length + 1) 0 .empty [] [] cs

end Scriptlet.Script
