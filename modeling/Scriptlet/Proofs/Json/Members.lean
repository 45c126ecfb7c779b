import Mathlib.Data.List.Forall2
import Mathlib.Data.List.Nodup
import Scriptlet.Json.Value
import Scriptlet.Proofs.Number.Nearest

/-! # Members of an object

A value is well keyed if no object in it repeats a key. What such an object has under a key is
then told by its members, whatever their order.
-/

namespace Scriptlet.Json

mutual

/-- No object in the value repeats a key. -/
def isWellKeyed : Json → Bool
  | .array items => areWellKeyed items
  | .object members => decide (members.map Prod.fst).Nodup && haveWellKeyed members
  | .null | .bool _ | .integer _ | .decimal _ | .string _ => true

def areWellKeyed : List Json → Bool
  | [] => true
  | item :: items => item.isWellKeyed && areWellKeyed items

def haveWellKeyed : List (String × Json) → Bool
  | [] => true
  | (_, value) :: members => value.isWellKeyed && haveWellKeyed members

end

theorem isWellKeyed_array {items : List Json} :
    (array items).isWellKeyed = true ↔ ∀ item ∈ items, item.isWellKeyed = true := by
  rw [isWellKeyed]
  induction items with
  | nil => simp [areWellKeyed]
  | cons item items ih => rw [areWellKeyed, Bool.and_eq_true, ih, List.forall_mem_cons]

theorem isWellKeyed_object {members : List (String × Json)} :
    (object members).isWellKeyed = true ↔
      (members.map Prod.fst).Nodup ∧ ∀ m ∈ members, m.2.isWellKeyed = true := by
  have hvalues : haveWellKeyed members = true ↔ ∀ m ∈ members, m.2.isWellKeyed = true := by
    induction members with
    | nil => simp [haveWellKeyed]
    | cons m members ih => rw [haveWellKeyed, Bool.and_eq_true, ih, List.forall_mem_cons]
  rw [isWellKeyed, Bool.and_eq_true, decide_eq_true_eq, hvalues]

theorem isWellKeyed_held {tag : String} {members : List (String × Json)}
    (h : (object [(tag, object members)]).isWellKeyed = true) :
    (members.map Prod.fst).Nodup ∧ ∀ m ∈ members, m.2.isWellKeyed = true :=
  isWellKeyed_object.mp ((isWellKeyed_object.mp h).2 _ List.mem_cons_self)

section Lookup

variable {α β : Type} {key : String} {members : List (String × α)}

theorem member?_eq_none_iff : member? key members = none ↔ key ∉ members.map Prod.fst := by
  rw [member?, Option.map_eq_none_iff, List.find?_eq_none]
  constructor
  · intro h hkey
    obtain ⟨m, hm, rfl⟩ := List.mem_map.mp hkey
    exact h m hm (beq_self_eq_true _)
  · intro h m hm hkey
    exact h (List.mem_map.mpr ⟨m, hm, eq_of_beq hkey⟩)

theorem member?_eq_some_iff (h : (members.map Prod.fst).Nodup) {a : α} :
    member? key members = some a ↔ (key, a) ∈ members := by
  constructor
  · intro ha
    obtain ⟨m, hm, rfl⟩ := Option.map_eq_some_iff.mp ha
    obtain rfl : m.1 = key := by simpa using List.find?_some hm
    exact List.mem_of_find?_eq_some hm
  · intro ha
    cases hb : member? key members with
    | none => exact absurd (List.mem_map_of_mem ha) (member?_eq_none_iff.mp hb)
    | some b =>
      obtain ⟨m, hm, rfl⟩ := Option.map_eq_some_iff.mp hb
      have hkey : m.1 = key := by simpa using List.find?_some hm
      have heq := List.inj_on_of_nodup_map h (List.mem_of_find?_eq_some hm) ha hkey
      rw [heq]

theorem member?_bind_eq_some_iff (h : (members.map Prod.fst).Nodup) {f : α → Option β} {b : β} :
    (member? key members).bind f = some b ↔ ∃ a, (key, a) ∈ members ∧ f a = some b := by
  simp only [Option.bind_eq_some_iff, member?_eq_some_iff h]

theorem member?_map (f : α → β) :
    member? key (members.map fun m => (m.1, f m.2)) = (member? key members).map f := by
  simp only [member?, List.find?_map, Option.map_map]
  rfl

end Lookup

theorem forall₂_iff_of_mem {α β : Type} {R S : α → β → Prop} {as : List α} {bs : List β}
    (h : ∀ a ∈ as, ∀ b ∈ bs, (R a b ↔ S a b)) :
    List.Forall₂ R as bs ↔ List.Forall₂ S as bs := by
  induction as generalizing bs with
  | nil => cases bs <;> simp
  | cons a as ih =>
    cases bs with
    | nil => simp
    | cons b bs =>
      rw [List.forall₂_cons, List.forall₂_cons, h a List.mem_cons_self b List.mem_cons_self,
        ih fun a ha b hb => h a (List.mem_cons_of_mem _ ha) b (List.mem_cons_of_mem _ hb)]

section Scalars

variable {v : Json}

theorem string?_eq_some_iff {s : String} : v.string? = some s ↔ v = .string s := by
  cases v <;> simp [string?]

theorem bool?_eq_some_iff {b : Bool} : v.bool? = some b ↔ v = .bool b := by
  cases v <;> simp [bool?]

/-- The indices that a number can be: those that 64 bits hold. -/
def IsIndex (n : Nat) : Prop := n < 0x10000000000000000

theorem index?_eq_some_iff {n : Nat} : v.index? = some n ↔ IsIndex n ∧ v = ofIndex n := by
  cases v with
  | integer i =>
    simp only [index?, ofIndex, IsIndex, integer.injEq, Option.ite_none_right_eq_some,
      Option.some.injEq]
    omega
  | null | bool | decimal | string | array | object => simp [index?, ofIndex]

/-- The value is a number, and the double is nearest to it. Zero with a sign is written `-0`. -/
def RoundsTo : Json → Binary64 → Prop
  | integer i, b => b.IsNearest (decide (i < 0)) |i|
  | decimal d, b => b.IsNearest d.negative d.size
  | _, _ => False

theorem number?_eq_some_iff {b : Binary64} : v.number? = some b ↔ v.RoundsTo b := by
  cases v with
  | integer i =>
    rw [number?, RoundsTo, Option.some.injEq, Binary64.nearest_eq_iff Nat.one_pos]
    simp
  | decimal d => rw [number?, RoundsTo, Option.some.injEq, Numeral.nearest_eq_iff]
  | null | bool | string | array | object => simp [number?, RoundsTo]

end Scalars

end Scriptlet.Json
