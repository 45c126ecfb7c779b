import Scriptlet.Json.Value

/-! # Deserializers

A deserializer hands a JSON value to what is put together from it. It decides which values show
the fields of an alternative, and which double a number is. A text shows fields as an object or as
an array in which they stand in order, a value in memory as an object only.
-/

namespace Scriptlet.Json

structure Deserializer where
  /-- Does it show what the value holds where fields are asked for? -/
  showsFields : Json → Bool
  number? : Json → Option Binary64

namespace Deserializer

def ofValue : Deserializer where
  showsFields
    | object _ => true
    | _ => false
  number? := Json.number?

def ofText : Deserializer where
  showsFields
    | object _ | array _ => true
    | _ => false
  number? := Json.number?

/-- The members among which fields with these names are looked for. In an array there is one item
for each field. -/
def fields? (d : Deserializer) (names : List String) (held : Json) :
    Option (List (String × Json)) :=
  if d.showsFields held then
    match held with
    | object members => some members
    | array items => if items.length = names.length then some (names.zip items) else none
    | _ => none
  else none

end Deserializer

end Scriptlet.Json
