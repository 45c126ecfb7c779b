import Scriptlet.Json.Value
import Scriptlet.Tree.Node

/-! # Trees as JSON

A node is an object or an array of its fields. In an object the text, the children and the flags
of extra and missing nodes may be left out; in an array only the two flags at the end. It is
written as an object with every field.

Decoding recurses on the value alone: the values inside an object or array are first decoded as
lists of children, and the one that stands for the children is then picked out.
-/

namespace Scriptlet.Node

def optional {α : Type} (decode? : Json → Option α) (default : α) : Option Json → Option α
  | none => some default
  | some value => decode? value

/-- Put a node together from the members of an object and what each of them means as children. -/
def ofMembers? (members : List (String × Json)) (subtrees : List (String × Option (List Node))) :
    Option Node := do
  let kind ← (Json.member? "type" members).bind Json.string?
  let text ← optional Json.string? "" (Json.member? "text" members)
  let start ← (Json.member? "startIndex" members).bind Json.index?
  let stop ← (Json.member? "endIndex" members).bind Json.index?
  let children ← (Json.member? "children" subtrees).getD (some [])
  let isNamed ← (Json.member? "isNamed" members).bind Json.bool?
  let isExtra ← optional Json.bool? false (Json.member? "isExtra" members)
  let isMissing ← optional Json.bool? false (Json.member? "isMissing" members)
  return ⟨kind, text, ⟨start, stop⟩, children, isNamed, isExtra, isMissing⟩

/-- Put a node together from the items of an array and what each of them means as children. -/
def ofItems? (items : List Json) (subtrees : List (Option (List Node))) : Option Node :=
  match items, subtrees with
  | kind :: text :: start :: stop :: _ :: isNamed :: flags, _ :: _ :: _ :: _ :: children :: _ => do
    if 2 < flags.length then none
    else
      let span : Span := ⟨← start.index?, ← stop.index?⟩
      let isExtra ← optional Json.bool? false flags[0]?
      let isMissing ← optional Json.bool? false flags[1]?
      return ⟨← kind.string?, ← text.string?, span, ← children, ← isNamed.bool?, isExtra, isMissing⟩
  | _, _ => none

mutual

def decode? : Json → Option Node
  | .object members => ofMembers? members (subtreesOfMembers members)
  | .array items => ofItems? items (subtreesOfItems items)
  | _ => none

def decodeChildren? : Json → Option (List Node)
  | .array items => decodeAll? items
  | _ => none

def decodeAll? : List Json → Option (List Node)
  | [] => some []
  | item :: items =>
    match decode? item, decodeAll? items with
    | some node, some nodes => some (node :: nodes)
    | _, _ => none

def subtreesOfMembers : List (String × Json) → List (String × Option (List Node))
  | [] => []
  | (key, value) :: members => (key, decodeChildren? value) :: subtreesOfMembers members

def subtreesOfItems : List Json → List (Option (List Node))
  | [] => []
  | item :: items => decodeChildren? item :: subtreesOfItems items

end

mutual

def encode : Node → Json
  | ⟨kind, text, span, children, isNamed, isExtra, isMissing⟩ =>
    .object [("type", .string kind), ("text", .string text), ("startIndex", .ofIndex span.start),
      ("endIndex", .ofIndex span.stop), ("children", .array (encodeAll children)),
      ("isNamed", .bool isNamed), ("isExtra", .bool isExtra), ("isMissing", .bool isMissing)]

def encodeAll : List Node → List Json
  | [] => []
  | n :: ns => n.encode :: encodeAll ns

end

end Scriptlet.Node
