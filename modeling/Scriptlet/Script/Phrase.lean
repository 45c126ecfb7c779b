import Scriptlet.Script.Operator

/-! # Expressions of a script

Every function takes the number of nested steps that it may still make, and, where it matters, what
may end the expression. Constructs that no program may hold become nodes without the parts that
nobody asks for.

A word is a keyword only where the grammar can go on with that keyword. A star in front of an
operand belongs to its first name, or else to the first attribute or subscript. At the end of a
script it reaches as far as it can, but not in a statement that might have gone on in another way:
there a star reaches far behind a comma among arguments, and behind the star that comes second.
-/

namespace Scriptlet.Script

def beginsWithOperand (kind : String) : Bool :=
  ["binary_operator", "boolean_operator", "comparison_operator", "conditional_expression",
   "as_pattern", "attribute", "subscript", "call"].contains kind

/-- May a star in front of the node belong to the operand that the node begins with? -/
def takesStar : Node → Bool
  | ⟨kind, _, _, [], _, _, _⟩ => kind == NodeKind.identifier.name
  | ⟨kind, _, _, first :: _, _, _, _⟩ =>
    kind == "attribute" || kind == "subscript" || (beginsWithOperand kind && takesStar first)

def splat (start : Nat) (n : Node) : Node :=
  ⟨"list_splat", "", ⟨start, n.span.stop⟩, [n], true, false, false⟩

/-- Give a star that starts at an offset to the operand that the node begins with. -/
def carryStar (start : Nat) (n : Node) : Node :=
  match n with
  | ⟨kind, text, span, first :: others, isNamed, isExtra, isMissing⟩ =>
    if kind == "attribute" || kind == "subscript" then splat start n
    else
      let children := carryStar start first :: others
      ⟨kind, text, ⟨start, span.stop⟩, children, isNamed, isExtra, isMissing⟩
  | _ => splat start n

/-- A single starred operand in brackets, of which the star cannot belong to a part. -/
def isSplatTuple (n : Node) : Bool := n.kind == "tuple" && !n.children.isEmpty

/-- Does the node go on behind such a single operand? -/
def continuesSplatTuple : Node → Bool
  | ⟨_, _, _, [], _, _, _⟩ => false
  | ⟨kind, _, _, first :: _, _, _, _⟩ =>
    beginsWithOperand kind && (isSplatTuple first || continuesSplatTuple first)

namespace Phrase

open Parsing

/-- An expression in brackets. Only starred operands are kept as a part. -/
def inBrackets (start : Nat) (inner : Node) : Parsing Node :=
  if inner.kind = "list_splat" then
    let kind := if inner.children.any takesStar then "parenthesized_expression" else "tuple"
    node kind start [inner]
  else if isSplatTuple inner then node "tuple" start [inner]
  else if inner.kind = "parenthesized_expression" then
    node "parenthesized_expression" start (inner.children.take 1)
  else node "parenthesized_expression" start []

/-- The kind of an operand at the end of a script, where stars reach as far as they can. -/
def atEnd (isStarred : Bool) (n : Node) : Node :=
  if isStarred ∧ (n.kind = "attribute" ∨ n.kind = "subscript") then { n with kind := "list_splat" }
  else if n.kind = "parenthesized_expression" ∧ !n.children.isEmpty then { n with kind := "tuple" }
  else n

mutual

/-- An expression: alternatives, perhaps with other names, perhaps with a condition. -/
def expression : Nat → Ending → Parsing Node
  | 0, _ => failure
  | fuel + 1, ending => do
    let start ← offset
    let first ← operation fuel ending Strength.either
    let value ← aliases fuel ending start first
    if ← accept ending (.word "if") then
      let _ ← expression fuel .choice
      expect (.word "else")
      let _ ← expression fuel ending.later
      node "conditional_expression" start [value]
    else return value

def aliases : Nat → Ending → Nat → Node → Parsing Node
  | 0, _, _, _ => failure
  | fuel + 1, ending, start, value => do
    if ← accept ending (.word "as") then
      let _ ← operation fuel ending.later Strength.either
      aliases fuel ending start (← node "as_pattern" start [value])
    else return value

/-- An operand and the operators after it that bind at least so strongly. -/
def operation : Nat → Ending → Nat → Parsing Node
  | 0, _, _ => failure
  | fuel + 1, ending, least => do
    let start ← offset
    let first ← operand fuel ending least
    operators fuel ending least start first

def operators : Nat → Ending → Nat → Nat → Node → Parsing Node
  | 0, _, _, _, _ => failure
  | fuel + 1, ending, least, start, left => do
    let lexeme ← peek ending
    let isNotIn := lexeme = .word "not" ∧ (← peekAt 1 .bracket) = .word "in"
    if lexeme = .word "or" ∧ least ≤ Strength.either then
      let _ ← next
      let _ ← operation fuel ending.later Strength.both
      operators fuel ending least start (← node "boolean_operator" start [left])
    else if lexeme = .word "and" ∧ least ≤ Strength.both then
      let _ ← next
      let _ ← operation fuel ending.later Strength.negation
      operators fuel ending least start (← node "boolean_operator" start [left])
    else if (lexeme.isComparison ∨ isNotIn) ∧ least ≤ Strength.comparison then
      comparisons fuel ending
      operators fuel ending least start (← node "comparison_operator" start [left])
    else
      match lexeme, lexeme.binaryStrength? with
      | .mark symbol, some strength =>
        if least ≤ strength then
          let operator ← leaf symbol false
          let right ← operation fuel ending.later (min (strength + 1) Strength.sign)
          let whole ← node NodeKind.binaryOperator.name start [left, operator, right]
          operators fuel ending least start whole
        else return left
      | _, _ => return left

def comparisons : Nat → Ending → Parsing Unit
  | 0, _ => failure
  | fuel + 1, ending => do
    let lexeme ← peek ending
    let isNotIn := lexeme = .word "not" ∧ (← peekAt 1 .bracket) = .word "in"
    if lexeme.isComparison ∨ isNotIn then
      let _ ← next
      if isNotIn then expect (.word "in")
      if lexeme = .word "is" then
        let _ ← accept .bracket (.word "not")
      let _ ← operation fuel ending.later Strength.bits
      comparisons fuel ending
    else return ()

def operand : Nat → Ending → Nat → Parsing Node
  | 0, _, _ => failure
  | fuel + 1, ending, least => do
    let start ← offset
    let lexeme ← peek .bracket
    let second ← peekAt 1 ending
    if lexeme = .word "not" ∧ least ≤ Strength.negation then
      let _ ← next
      let _ ← operation fuel ending.later Strength.negation
      node "not_operator" start []
    else if lexeme = .word "lambda" ∧ least ≤ Strength.negation then failure
    else if lexeme.isFreeName ∧ second = .mark ":=" ∧ least ≤ Strength.negation then
      let _ ← next
      let _ ← next
      let _ ← operation fuel ending.later Strength.either
      node "named_expression" start []
    else if lexeme.isSign then
      let _ ← next
      let _ ← operation fuel ending.later Strength.sign
      node "unary_operator" start []
    else if lexeme = .word "await" ∧ second.isAwaited ending then
      let _ ← next
      let _ ← operation fuel ending.later Strength.sign
      node "await" start []
    else
      let word ← (·.forked? "*") <$> get
      let whole ← if lexeme.isStar then starredOperand fuel ending start
        else
          let first ← atom fuel ending
          trailers fuel ending start first
      let reading ← get
      let isFar := reading.fork.isNone ∨ (word.isSome ∧ word ≠ some "print" ∧ lexeme.isStar)
      return if reading.endsScript ∧ isFar then atEnd lexeme.isStar whole else whole

def trailers : Nat → Ending → Nat → Node → Parsing Node
  | 0, _, _, _ => failure
  | fuel + 1, ending, start, left => do
    match ← trailer fuel ending start left with
    | some whole => trailers fuel ending start whole
    | none => return left

def trailer : Nat → Ending → Nat → Node → Parsing (Option Node)
  | 0, _, _, _ => failure
  | fuel + 1, ending, start, left => do
    match ← peek ending with
    | .mark "." =>
      let _ ← next
      let _ ← name
      some <$> node "attribute" start [left]
    | .mark "[" =>
      let _ ← next
      subscripts fuel
      some <$> node "subscript" start [left]
    | .mark "(" =>
      let opening ← offset
      let _ ← next
      let arguments ← argumentsFrom fuel true ((← get).forked? "(").isSome
      let list ← node NodeKind.argumentList.name opening arguments
      some <$> node NodeKind.call.name start [left, list]
    | _ => return none

/-- What goes on up to the next attribute or subscript, on whatever line it stands. -/
def member : Nat → Nat → Node → Parsing Node
  | 0, _, _ => failure
  | fuel + 1, start, left => do
    match ← trailer fuel .bracket start left with
    | some whole =>
      if whole.kind = NodeKind.call.name then member fuel start whole else return whole
    | none => failure

def starredOperand : Nat → Ending → Nat → Parsing Node
  | 0, _, _ => failure
  | fuel + 1, ending, start => do
    let first ← starred fuel ending
    let whole ← trailers fuel ending start first
    if whole.kind = NodeKind.call.name then
      (do
        let reached ← member fuel start whole
        trailers fuel ending start (← node "list_splat" start [reached])) <|> pure whole
    else return whole

/-- A star and what it belongs to: a name, or an operand up to an attribute or a subscript. Behind
the star of `print *` a name is such an operand as well. -/
def starred : Nat → Ending → Parsing Node
  | 0, _ => failure
  | fuel + 1, ending => do
    let start ← offset
    let isFirst := (← get).forked? "*" = some "print"
    expectStar
    let inner ← offset
    let lexeme ← peek .bracket
    if lexeme.isName then
      let second ← peekAt 1 ending
      if lexeme = .word "await" ∧ second.isAwaited ending then failure
      else
        let first ← name
        let reached ← if isFirst ∧ second.isTrailer then member fuel inner first <|> pure first
          else pure first
        node "list_splat" start [reached]
    else
      let first ← if lexeme.isStar then starred fuel .bracket else atom fuel .bracket
      node "list_splat" start [← member fuel inner first]

def atom : Nat → Ending → Parsing Node
  | 0, _ => failure
  | fuel + 1, ending => do
    let start ← offset
    let lexeme ← peek .bracket
    match lexeme with
    | .word _ => leaf (lexeme.constant?.getD NodeKind.identifier.name) true
    | .integer => leaf NodeKind.integer.name true
    | .float => leaf NodeKind.float.name true
    | .string | .opening =>
      text fuel
      if (← peek ending).beginsString then
        strings fuel ending
        node "concatenated_string" start []
      else node "string" start []
    | .mark "..." => leaf "ellipsis" true
    | .mark "(" =>
      let _ ← next
      if ← accept .bracket (.mark ")") then node "tuple" start []
      else
        let first ← element fuel .item
        if ← accept .bracket (.mark ")") then inBrackets start first
        else
          expect (.mark ",")
          elements fuel .bracket (.mark ")")
          node "tuple" start []
    | .mark "[" =>
      let _ ← next
      elements fuel .item (.mark "]")
      node "list" start []
    | .mark "\x7b" =>
      let _ ← next
      braces fuel start
    | _ => failure

def strings : Nat → Ending → Parsing Unit
  | 0, _ => failure
  | fuel + 1, ending => do
    if (← peek ending).beginsString then
      text fuel
      strings fuel ending

def text : Nat → Parsing Unit
  | 0 => failure
  | fuel + 1 => do
    if (← next).lexeme = .opening then parts fuel

def parts : Nat → Parsing Unit
  | 0 => failure
  | fuel + 1 => do
    if (← peek .bracket) = .word "yield" then
      let _ ← yielded fuel .bracket
    else
      let _ ← series fuel .bracket
    let _ ← accept .bracket (.mark "=")
    let _ ← accept .bracket .conversion
    if ← accept .bracket .middle then parts fuel else expect .closing

def element : Nat → Ending → Parsing Node
  | 0, _ => failure
  | fuel + 1, ending => do
    let start ← offset
    let lexeme ← peek .bracket
    if lexeme = .word "yield" then yielded fuel .bracket
    else if lexeme.isStar then
      expectStar
      node "list_splat" start [← expression fuel ending]
    else
      let whole ← expression fuel ending
      if continuesSplatTuple whole then failure else return whole

def elements : Nat → Ending → Lexeme → Parsing Unit
  | 0, _, _ => failure
  | fuel + 1, ending, last => do
    if ← accept .bracket last then return ()
    else
      let _ ← element fuel ending
      if ← accept .bracket (.mark ",") then elements fuel .bracket last else expect last

/-- What follows an opening brace: the entries of a dictionary, or the elements of a set. -/
def braces : Nat → Nat → Parsing Node
  | 0, _ => failure
  | fuel + 1, start => do
    match ← peek .bracket with
    | .mark "\x7d" | .mark "**" =>
      entries fuel
      node "dictionary" start []
    | .mark "," =>
      let _ ← next
      expect (.mark "\x7d")
      node "dictionary" start []
    | _ =>
      let first ← element fuel .item
      let isKey := first.kind ≠ "yield" ∧ !isSplatTuple first ∧
        (first.kind ≠ "list_splat" ∨ first.children.any takesStar)
      if isKey ∧ (← peek .bracket) = .mark ":" then
        let _ ← next
        let _ ← expression fuel .item
        if ← accept .bracket (.mark ",") then entries fuel else expect (.mark "\x7d")
        node "dictionary" start []
      else
        if ← accept .bracket (.mark ",") then elements fuel .bracket (.mark "\x7d")
        else expect (.mark "\x7d")
        node "set" start []

def entries : Nat → Parsing Unit
  | 0 => failure
  | fuel + 1 => do
    if ← accept .bracket (.mark "\x7d") then return ()
    else
      if ← accept .bracket (.mark "**") then
        let _ ← expression fuel .bracket
      else
        let _ ← expression fuel .bracket
        expect (.mark ":")
        let _ ← expression fuel .bracket
      if ← accept .bracket (.mark ",") then entries fuel else expect (.mark "\x7d")

/-- The arguments of a call up to the closing bracket, which may follow a comma. If they could also
be a tuple, as they can up to one with a name, a star behind a comma belongs to an operand. -/
def argumentsFrom : Nat → Bool → Bool → Parsing (List Node)
  | 0, _, _ => failure
  | fuel + 1, isFirst, isShared => do
    if ← accept .bracket (.mark ")") then return []
    else if isFirst ∧ (← peek .bracket) = .mark "," then
      let _ ← next
      expect (.mark ")")
      return []
    else
      let first ← argument fuel (if isFirst then .item else .bracket) (isShared && !isFirst)
      if ← accept .bracket (.mark ",") then
        let others ← argumentsFrom fuel false (isShared && first.kind != "keyword_argument")
        return first :: others
      else
        expect (.mark ")")
        return [first]

def argument : Nat → Ending → Bool → Parsing Node
  | 0, _, _ => failure
  | fuel + 1, ending, isShared => do
    let start ← offset
    let lexeme ← peek .bracket
    if lexeme = .mark "**" then
      let _ ← next
      node "dictionary_splat" start [← expression fuel .bracket]
    else if lexeme = .mark "*" then
      let _ ← next
      let whole ← expression fuel ending
      if isShared && takesStar whole then return carryStar start whole
      else node "list_splat" start [whole]
    else if lexeme.isFreeName ∧ (← peekAt 1 .bracket) = .mark "=" then
      let _ ← next
      let _ ← next
      node "keyword_argument" start [← expression fuel .bracket]
    else
      let whole ← expression fuel ending
      if continuesSplatTuple whole then failure
      else if isSplatTuple whole then return { whole with kind := "parenthesized_expression" }
      else return whole

/-- The subscripts up to the closing bracket, which may follow a comma. There is at least one. -/
def subscripts : Nat → Parsing Unit
  | 0 => failure
  | fuel + 1 => do
    if (← peek .bracket) ≠ .mark ":" then
      let _ ← expression fuel .bracket
    if ← accept .bracket (.mark ":") then
      bound fuel
      if ← accept .bracket (.mark ":") then bound fuel
    if ← accept .bracket (.mark ",") then
      if ← accept .bracket (.mark "]") then return () else subscripts fuel
    else expect (.mark "]")

def bound : Nat → Parsing Unit
  | 0 => failure
  | fuel + 1 => do
    if (← peek .bracket).beginsOperand then
      let _ ← expression fuel .bracket

def yielded : Nat → Ending → Parsing Node
  | 0, _ => failure
  | fuel + 1, ending => do
    let start ← offset
    expect (.word "yield")
    if ← accept ending (.word "from") then
      let _ ← expression fuel ending
    else if (← peek ending).beginsOperand then
      let _ ← series fuel ending
    node "yield" start []

/-- Expressions with commas between them, as nodes in order. The last one may be a comma. -/
def series : Nat → Ending → Parsing (List Node)
  | 0, _ => failure
  | fuel + 1, ending => do
    let first ← expression fuel ending
    if (← peek ending) = .mark "," then
      let comma ← leaf "," false
      match ← peek ending with
      | .word text =>
        if ending.later.atWord text then return [first, comma]
        else return first :: comma :: (← series fuel ending.later)
      | lexeme =>
        if lexeme.beginsOperand then return first :: comma :: (← series fuel ending.later)
        else return [first, comma]
    else return [first]

end

end Phrase

end Scriptlet.Script
