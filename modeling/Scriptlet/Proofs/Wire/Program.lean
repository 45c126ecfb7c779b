import Scriptlet.Proofs.Wire.Deserializer
import Scriptlet.Wire.Program

/-! # The ways to write a program

A program is decoded from the values that represent it and from no others. What represents an
expression depends on the fields and the numbers that a deserializer shows: decoding by a
deserializer goes by what that one shows, whatever it is.
-/

namespace Scriptlet

variable {v : Json}

namespace BinaryOp

/-- An operator is written as its name, or as its name mapped to null. -/
inductive WrittenAs (op : BinaryOp) : Json → Prop
  | name : WrittenAs op (.string op.wireName)
  | tagged : WrittenAs op (.object [(op.wireName, .null)])

variable {op : BinaryOp}

theorem ofWireName?_eq_some_iff {name : String} :
    ofWireName? name = some op ↔ name = op.wireName := by
  constructor
  · intro h
    unfold ofWireName? at h
    split at h <;> cases h <;> rfl
  · rintro rfl
    cases op <;> rfl

theorem decode?_eq_some_iff : decode? v = some op ↔ op.WrittenAs v := by
  constructor
  · intro h
    unfold decode? at h
    split at h
    · rw [ofWireName?_eq_some_iff.mp h]
      exact .name
    · rw [ofWireName?_eq_some_iff.mp h]
      exact .tagged
    · cases h
  · intro h
    cases h with
    | name => exact ofWireName?_eq_some_iff.mpr rfl
    | tagged => exact ofWireName?_eq_some_iff.mpr rfl

end BinaryOp

namespace Expr

/-- The value represents the expression: it is an object whose one member is named for the
alternative, and that member holds the number, the name or the fields. -/
inductive WrittenAs (Holds : List (String × Json) → Json → Prop)
    (Reads : Json → Binary64 → Prop) : Expr → Json → Prop
  | number {x : Binary64} {n : Json} (value : Reads n x) :
      WrittenAs Holds Reads (.number x) (.object [("Number", n)])
  | identifier {name : String} :
      WrittenAs Holds Reads (.identifier name) (.object [("Identifier", .string name)])
  | binary {op : BinaryOp} {a b : Expr} {o u w held : Json} (operator : op.WrittenAs o)
      (left : WrittenAs Holds Reads a u) (right : WrittenAs Holds Reads b w)
      (fields : Holds [("op", o), ("left", u), ("right", w)] held) :
      WrittenAs Holds Reads (.binary op a b) (.object [("BinaryOp", held)])
  | call1 {name : String} {a : Expr} {u held : Json} (arg : WrittenAs Holds Reads a u)
      (fields : Holds [("name", .string name), ("arg", u)] held) :
      WrittenAs Holds Reads (.call1 name a) (.object [("Call1", held)])
  | call2 {name : String} {a b : Expr} {u w held : Json} (first : WrittenAs Holds Reads a u)
      (second : WrittenAs Holds Reads b w)
      (fields : Holds [("name", .string name), ("arg1", u), ("arg2", w)] held) :
      WrittenAs Holds Reads (.call2 name a b) (.object [("Call2", held)])

variable {d : Json.Deserializer} {e : Expr} {tag : String} {members : List (String × Json)}
  {names : List String} {held : Json}

theorem nodup_fieldNames (tag : String) : (fieldNames tag).Nodup := by
  unfold fieldNames
  split <;> decide

theorem operandsOfMembers_eq (members : List (String × Json)) :
    operandsOfMembers d members = members.map fun m => ofJson? d m.2 := by
  induction members with
  | nil => rfl
  | cons m members ih => rw [operandsOfMembers, ih, List.map_cons]

theorem operandsOfItems_eq (items : List Json) :
    operandsOfItems d items = items.map (ofJson? d) := by
  induction items with
  | nil => rfl
  | cons item items ih => rw [operandsOfItems, ih, List.map_cons]

theorem zip_operandsOf (h : d.fields? names held = some members) :
    (members.map Prod.fst).zip (operandsOf d held) =
      members.map fun m => (m.1, ofJson? d m.2) := by
  obtain ⟨-, rfl | ⟨items, rfl, hlength, rfl⟩⟩ := Json.Deserializer.fields?_eq_some_iff.mp h
  · rw [operandsOf, operandsOfMembers_eq, List.zip_map']
  · rw [operandsOf, operandsOfItems_eq, List.map_fst_zip (by omega), List.zip_map_right]
    rfl

theorem member?_operands (key : String) (h : d.fields? names held = some members) :
    (Json.member? key ((members.map Prod.fst).zip (operandsOf d held))).join =
      (Json.member? key members).bind (ofJson? d) := by
  rw [zip_operandsOf h, Json.member?_map]
  cases Json.member? key members <;> rfl

section Record

variable (h : (members.map Prod.fst).Nodup)
include h

theorem name?_eq_some_iff {key name : String} :
    (Json.member? key members).bind Json.string? = some name ↔ (key, .string name) ∈ members := by
  simp only [Json.member?_bind_eq_some_iff h, Json.string?_eq_some_iff, exists_eq_right]

theorem operator?_eq_some_iff {key : String} {op : BinaryOp} :
    (Json.member? key members).bind BinaryOp.decode? = some op ↔
      ∃ v, (key, v) ∈ members ∧ op.WrittenAs v := by
  simp only [Json.member?_bind_eq_some_iff h, BinaryOp.decode?_eq_some_iff]

variable (hvalues : ∀ m ∈ members, ∀ a, ofJson? d m.2 = some a ↔ a.WrittenAs d.Shows d.Reads m.2)
include hvalues

theorem operand?_eq_some_iff {key : String} :
    (Json.member? key members).bind (ofJson? d) = some e ↔
      ∃ v, (key, v) ∈ members ∧ e.WrittenAs d.Shows d.Reads v := by
  rw [Json.member?_bind_eq_some_iff h]
  constructor
  · rintro ⟨v, hv, he⟩
    exact ⟨v, hv, (hvalues _ hv e).mp he⟩
  · rintro ⟨v, hv, he⟩
    exact ⟨v, hv, (hvalues _ hv e).mpr he⟩

end Record

section Held

variable (hheld : held.isWellKeyed = true)
  (hvalues : ∀ names members, d.fields? names held = some members →
    ∀ m ∈ members, ∀ a, ofJson? d m.2 = some a ↔ a.WrittenAs d.Shows d.Reads m.2)
include hheld hvalues

theorem writtenAs_of_ofMembers? (hm : d.fields? (fieldNames tag) held = some members)
    (he : ofMembers? tag members ((members.map Prod.fst).zip (operandsOf d held)) = some e) :
    e.WrittenAs d.Shows d.Reads (.object [(tag, held)]) := by
  have hkeys := Json.Deserializer.nodup_of_fields? hheld (nodup_fieldNames tag) hm
  have hoperands := hvalues _ members hm
  unfold ofMembers? at he
  simp only [Option.bind_eq_bind, member?_operands _ hm] at he
  split at he
  · simp only [Option.bind_eq_some_iff, operator?_eq_some_iff hkeys,
      operand?_eq_some_iff hkeys hoperands] at he
    obtain ⟨op, ⟨o, ho, hop⟩, a, ⟨u, hu, ha⟩, b, ⟨w, hw, hb⟩, ⟨⟩⟩ := he
    have hfields : d.Shows [("op", o), ("left", u), ("right", w)] held :=
      (Json.Deserializer.exists_fields?_iff (nodup_fieldNames "BinaryOp") rfl).mp
        ⟨members, hm, by simp [ho, hu, hw]⟩
    exact .binary hop ha hb hfields
  · simp only [Option.bind_eq_some_iff, name?_eq_some_iff hkeys,
      operand?_eq_some_iff hkeys hoperands] at he
    obtain ⟨name, hname, a, ⟨u, hu, ha⟩, ⟨⟩⟩ := he
    have hfields : d.Shows [("name", .string name), ("arg", u)] held :=
      (Json.Deserializer.exists_fields?_iff (nodup_fieldNames "Call1") rfl).mp
        ⟨members, hm, by simp [hname, hu]⟩
    exact .call1 ha hfields
  · simp only [Option.bind_eq_some_iff, name?_eq_some_iff hkeys,
      operand?_eq_some_iff hkeys hoperands] at he
    obtain ⟨name, hname, a, ⟨u, hu, ha⟩, b, ⟨w, hw, hb⟩, ⟨⟩⟩ := he
    have hfields : d.Shows [("name", .string name), ("arg1", u), ("arg2", w)] held :=
      (Json.Deserializer.exists_fields?_iff (nodup_fieldNames "Call2") rfl).mp
        ⟨members, hm, by simp [hname, hu, hw]⟩
    exact .call2 ha hb hfields
  · cases he

theorem ofHeld?_eq_some_iff :
    ofHeld? d tag held (operandsOf d held) = some e ↔
      e.WrittenAs d.Shows d.Reads (.object [(tag, held)]) := by
  constructor
  · intro he
    unfold ofHeld? at he
    split at he
    · obtain ⟨x, hx, rfl⟩ := Option.map_eq_some_iff.mp he
      exact .number hx
    · obtain ⟨name, hname, rfl⟩ := Option.map_eq_some_iff.mp he
      obtain rfl := Json.string?_eq_some_iff.mp hname
      exact .identifier
    · obtain ⟨members, hm, he⟩ := Option.bind_eq_some_iff.mp he
      exact writtenAs_of_ofMembers? hheld hvalues hm he
  · intro he
    cases he with
    | number value => exact Option.map_eq_some_iff.mpr ⟨_, value, rfl⟩
    | identifier => rfl
    | binary operator left right fields =>
      obtain ⟨members, hm, own⟩ :=
        (Json.Deserializer.exists_fields?_iff (nodup_fieldNames "BinaryOp") rfl).mpr fields
      have hkeys := Json.Deserializer.nodup_of_fields? hheld (nodup_fieldNames _) hm
      simp only [List.cons_subset, List.nil_subset, and_true] at own
      have hop := (operator?_eq_some_iff hkeys).mpr ⟨_, own.1, operator⟩
      have ha := (operand?_eq_some_iff hkeys (hvalues _ _ hm)).mpr ⟨_, own.2.1, left⟩
      have hb := (operand?_eq_some_iff hkeys (hvalues _ _ hm)).mpr ⟨_, own.2.2, right⟩
      simp [ofHeld?, hm, ofMembers?, member?_operands _ hm, hop, ha, hb]
    | call1 arg fields =>
      obtain ⟨members, hm, own⟩ :=
        (Json.Deserializer.exists_fields?_iff (nodup_fieldNames "Call1") rfl).mpr fields
      have hkeys := Json.Deserializer.nodup_of_fields? hheld (nodup_fieldNames _) hm
      simp only [List.cons_subset, List.nil_subset, and_true] at own
      have hname := (name?_eq_some_iff hkeys).mpr own.1
      have ha := (operand?_eq_some_iff hkeys (hvalues _ _ hm)).mpr ⟨_, own.2, arg⟩
      simp [ofHeld?, hm, ofMembers?, member?_operands _ hm, hname, ha]
    | call2 first second fields =>
      obtain ⟨members, hm, own⟩ :=
        (Json.Deserializer.exists_fields?_iff (nodup_fieldNames "Call2") rfl).mpr fields
      have hkeys := Json.Deserializer.nodup_of_fields? hheld (nodup_fieldNames _) hm
      simp only [List.cons_subset, List.nil_subset, and_true] at own
      have hname := (name?_eq_some_iff hkeys).mpr own.1
      have ha := (operand?_eq_some_iff hkeys (hvalues _ _ hm)).mpr ⟨_, own.2.1, first⟩
      have hb := (operand?_eq_some_iff hkeys (hvalues _ _ hm)).mpr ⟨_, own.2.2, second⟩
      simp [ofHeld?, hm, ofMembers?, member?_operands _ hm, hname, ha, hb]

end Held

/-- A well-keyed value is decoded to an expression just if it represents it. -/
theorem ofJson?_eq_some_iff {e : Expr} (v : Json) (hv : v.isWellKeyed = true) :
    ofJson? d v = some e ↔ e.WrittenAs d.Shows d.Reads v := by
  match v with
  | .object [(tag, held)] =>
    have hheld := (Json.isWellKeyed_object.mp hv).2 _ List.mem_cons_self
    refine ofHeld?_eq_some_iff hheld fun names members hm m hmem a => ?_
    have hlt := Json.Deserializer.sizeOf_lt_of_fields? hm m hmem
    exact ofJson?_eq_some_iff m.2 (Json.Deserializer.wellKeyed_of_fields? hheld hm m hmem)
  | .object [] | .object (_ :: _ :: _) | .null | .bool _ | .integer _ | .decimal _ | .string _
  | .array _ => exact iff_of_false nofun nofun
termination_by v
decreasing_by
  simp
  omega

theorem fields_known (hheld : held.isWellKeyed = true) (hm : d.fields? names held = some members) :
    ∀ m ∈ members, ∀ a, ofJson? d m.2 = some a ↔ a.WrittenAs d.Shows d.Reads m.2 :=
  fun m hmem _ =>
    ofJson?_eq_some_iff m.2 (Json.Deserializer.wellKeyed_of_fields? hheld hm m hmem)

end Expr

namespace Stmt

inductive WrittenAs (Holds : List (String × Json) → Json → Prop)
    (Reads : Json → Binary64 → Prop) : Stmt → Json → Prop
  | define {name : String} {e : Expr} {u held : Json} (value : e.WrittenAs Holds Reads u)
      (fields : Holds [("name", .string name), ("value", u)] held) :
      WrittenAs Holds Reads (.define name e) (.object [("Define", held)])
  | evaluate {e : Expr} {u held : Json} (value : e.WrittenAs Holds Reads u)
      (fields : Holds [("expr", u)] held) :
      WrittenAs Holds Reads (.evaluate e) (.object [("ExprStmt", held)])

variable {d : Json.Deserializer} {s : Stmt}

theorem ofJson?_eq_some_iff (hv : v.isWellKeyed = true) :
    ofJson? d v = some s ↔ s.WrittenAs d.Shows d.Reads v := by
  have hdefine : ["name", "value"].Nodup := by decide
  have hevaluate : ["expr"].Nodup := by decide
  constructor
  · intro hs
    unfold ofJson? at hs
    simp only [Option.bind_eq_bind] at hs
    split at hs
    · obtain ⟨members, hm, hs⟩ := Option.bind_eq_some_iff.mp hs
      have hheld := (Json.isWellKeyed_object.mp hv).2 _ List.mem_cons_self
      have hkeys := Json.Deserializer.nodup_of_fields? hheld hdefine hm
      simp only [Option.bind_eq_some_iff, Expr.name?_eq_some_iff hkeys,
        Expr.operand?_eq_some_iff hkeys (Expr.fields_known hheld hm)] at hs
      obtain ⟨name, hname, e, ⟨u, hu, he⟩, ⟨⟩⟩ := hs
      refine .define he ((Json.Deserializer.exists_fields?_iff hdefine rfl).mp ⟨members, hm, ?_⟩)
      simp [hname, hu]
    · obtain ⟨members, hm, hs⟩ := Option.bind_eq_some_iff.mp hs
      have hheld := (Json.isWellKeyed_object.mp hv).2 _ List.mem_cons_self
      have hkeys := Json.Deserializer.nodup_of_fields? hheld hevaluate hm
      simp only [Option.bind_eq_some_iff,
        Expr.operand?_eq_some_iff hkeys (Expr.fields_known hheld hm)] at hs
      obtain ⟨e, ⟨u, hu, he⟩, ⟨⟩⟩ := hs
      refine .evaluate he
        ((Json.Deserializer.exists_fields?_iff hevaluate rfl).mp ⟨members, hm, ?_⟩)
      simp [hu]
    · cases hs
  · intro hs
    cases hs with
    | define value fields =>
      have hheld := (Json.isWellKeyed_object.mp hv).2 _ List.mem_cons_self
      obtain ⟨members, hm, own⟩ := (Json.Deserializer.exists_fields?_iff hdefine rfl).mpr fields
      have hkeys := Json.Deserializer.nodup_of_fields? hheld hdefine hm
      simp only [List.cons_subset, List.nil_subset, and_true] at own
      have hname := (Expr.name?_eq_some_iff hkeys).mpr own.1
      have he := (Expr.operand?_eq_some_iff hkeys (Expr.fields_known hheld hm)).mpr
        ⟨_, own.2, value⟩
      simp [ofJson?, hm, hname, he]
    | evaluate value fields =>
      have hheld := (Json.isWellKeyed_object.mp hv).2 _ List.mem_cons_self
      obtain ⟨members, hm, own⟩ := (Json.Deserializer.exists_fields?_iff hevaluate rfl).mpr fields
      have hkeys := Json.Deserializer.nodup_of_fields? hheld hevaluate hm
      simp only [List.cons_subset, List.nil_subset, and_true] at own
      have he := (Expr.operand?_eq_some_iff hkeys (Expr.fields_known hheld hm)).mpr ⟨_, own, value⟩
      simp [ofJson?, hm, he]

end Stmt

namespace Program

inductive WrittenAs (Holds : List (String × Json) → Json → Prop)
    (Reads : Json → Binary64 → Prop) (p : Program) : Json → Prop
  | array {items : List Json} (statements : List.Forall₂ (Stmt.WrittenAs Holds Reads) p items) :
      WrittenAs Holds Reads p (.array items)

variable {d : Json.Deserializer} {p : Program}

theorem ofItems?_eq_some_iff {items : List Json} :
    items.mapM (Stmt.ofJson? d) = some p ↔
      List.Forall₂ (fun s item => Stmt.ofJson? d item = some s) p items := by
  induction items generalizing p with
  | nil => simp [eq_comm]
  | cons item items ih =>
    rw [List.forall₂_cons_right_iff]
    simp only [List.mapM_cons, Option.bind_eq_bind, Option.bind_eq_some_iff, ih]
    constructor
    · rintro ⟨s, hs, rest, hrest, ⟨⟩⟩
      exact ⟨s, rest, hs, hrest, rfl⟩
    · rintro ⟨s, rest, hs, hrest, rfl⟩
      exact ⟨s, hs, rest, hrest, rfl⟩

theorem ofJson?_eq_some_iff (hv : v.isWellKeyed = true) :
    ofJson? d v = some p ↔ p.WrittenAs d.Shows d.Reads v := by
  cases v with
  | array items =>
    have hitems := Json.isWellKeyed_array.mp hv
    have hstatements : List.Forall₂ (fun s item => Stmt.ofJson? d item = some s) p items ↔
        List.Forall₂ (Stmt.WrittenAs d.Shows d.Reads) p items :=
      Json.forall₂_iff_of_mem fun s _ item hi => Stmt.ofJson?_eq_some_iff (hitems item hi)
    rw [ofJson?, ofItems?_eq_some_iff, hstatements]
    constructor
    · intro h
      exact .array h
    · rintro ⟨h⟩
      exact h
  | null | bool | integer | decimal | string | object => exact iff_of_false nofun nofun

end Program

/-- The statement `x = a + f(2.5)` as an array, with the sum as an object whose members are in
another order and next to one that is unknown, and the call as an array again. -/
def representedSum : Json :=
  .array [.object [("Define", .array [.string "x", .object [("BinaryOp", .object [
    ("right", .object [("Call1", .array [.string "f", .object [
      ("Number", .decimal ⟨false, 25, 1, 0⟩)]])]),
    ("note", .null), ("op", .object [("Add", .null)]),
    ("left", .object [("Identifier", .string "a")])])]])]]

def sumOfCall : Program :=
  [.define "x" (.binary .add (.identifier "a") (.call1 "f" (.number ⟨0x4004000000000000⟩)))]

/-- In memory an array shows no fields, so the statement is refused. -/
example : Program.decode? representedSum = none := by decide +kernel

end Scriptlet
