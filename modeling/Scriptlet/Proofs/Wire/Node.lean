import Mathlib.Data.List.Perm.Lattice
import Scriptlet.Proofs.Tree.Preorder
import Scriptlet.Proofs.Wire.Record
import Scriptlet.Wire.Node

/-! # The ways to write a tree

A tree is decoded from every value that differs from its own encoding, node by node, only in how it
is presented, and from no other value.
-/

namespace Scriptlet.Node

/-- All offsets in the tree fit in 64 bits. -/
def IsIndexed (n : Node) : Prop := ∀ m ∈ n.preorder, m.span.IsIndexed

/-- The members that an object has for a node, given the items for its children. -/
def membersWith (n : Node) (items : List Json) : List (String × Json) :=
  [("type", .string n.kind), ("text", .string n.text), ("startIndex", .ofIndex n.span.start),
    ("endIndex", .ofIndex n.span.stop), ("children", .array items), ("isNamed", .bool n.isNamed),
    ("isExtra", .bool n.isExtra), ("isMissing", .bool n.isMissing)]

/-- The values that an array has for a node up to its last two flags. -/
def itemsWith (n : Node) (items : List Json) : List Json :=
  [.string n.kind, .string n.text, .ofIndex n.span.start, .ofIndex n.span.stop, .array items,
    .bool n.isNamed]

def memberKeys : List String :=
  ["type", "text", "startIndex", "endIndex", "children", "isNamed", "isExtra", "isMissing"]

/-- The members that mean the same when they are left out. -/
def defaultMembers : List (String × Json) :=
  [("text", .string ""), ("children", .array []), ("isExtra", .bool false),
    ("isMissing", .bool false)]

/-- The value presents the node. An object has the members of the node, in any order and next to
others, but for some that mean the same when left out. An array has their values in order, but for
flags at its end that are not set. The children may be presented in either way. -/
inductive WrittenAs : Node → Json → Prop
  | object {n : Node} {items : List Json} {kept omitted others members : List (String × Json)}
      (children : List.Forall₂ WrittenAs n.children items)
      (own : (kept ++ omitted).Perm (n.membersWith items)) (default : omitted ⊆ defaultMembers)
      (unknown : ∀ m ∈ others, m.1 ∉ memberKeys) (order : members.Perm (kept ++ others)) :
      WrittenAs n (.object members)
  | array {n : Node} {items flags omitted : List Json}
      (children : List.Forall₂ WrittenAs n.children items)
      (own : flags ++ omitted = [.bool n.isExtra, .bool n.isMissing])
      (default : ∀ flag ∈ omitted, flag = .bool false) :
      WrittenAs n (.array (n.itemsWith items ++ flags))

variable {n : Node} {ns : List Node} {v : Json} {items : List Json}
  {members : List (String × Json)}

theorem isIndexed_iff :
    n.IsIndexed ↔ n.span.IsIndexed ∧ ∀ child ∈ n.children, child.IsIndexed := by
  constructor
  · intro h
    exact ⟨h n (mem_preorder_self n), fun child hc m hm => h m (mem_preorder_of_mem hc hm)⟩
  · rintro ⟨hn, hchildren⟩ m hm
    rcases mem_preorder.mp hm with rfl | ⟨child, hc, hm⟩
    · exact hn
    · exact hchildren child hc m hm

theorem encodeAll_eq (ns : List Node) : encodeAll ns = ns.map encode := by
  induction ns with
  | nil => rfl
  | cons n ns ih => rw [encodeAll, ih, List.map_cons]

theorem encode_eq (n : Node) : n.encode = .object (n.membersWith (n.children.map encode)) := by
  rw [← encodeAll_eq]; cases n; rfl

theorem keys_membersWith (n : Node) (items : List Json) :
    (n.membersWith items).map Prod.fst = memberKeys := rfl

theorem nodup_memberKeys : memberKeys.Nodup := by decide

/-! ## What is decoded -/

theorem subtreesOfMembers_eq (members : List (String × Json)) :
    subtreesOfMembers members = members.map fun m => (m.1, decodeChildren? m.2) := by
  induction members with
  | nil => rfl
  | cons m members ih => rw [subtreesOfMembers, ih, List.map_cons]

theorem subtreesOfItems_eq (items : List Json) :
    subtreesOfItems items = items.map decodeChildren? := by
  induction items with
  | nil => rfl
  | cons item items ih => rw [subtreesOfItems, ih, List.map_cons]

theorem decodeAll?_eq_some_iff :
    decodeAll? items = some ns ↔ List.Forall₂ (fun n item => decode? item = some n) ns items := by
  induction items generalizing ns with
  | nil => simp [decodeAll?, eq_comm]
  | cons item items ih =>
    rw [decodeAll?, List.forall₂_cons_right_iff]
    simp only [← ih]
    cases decode? item <;> cases decodeAll? items <;> simp [eq_comm]

theorem decodeChildren?_eq_some_iff :
    decodeChildren? v = some ns ↔ ∃ items, v = .array items ∧ decodeAll? items = some ns := by
  cases v <;> simp [decodeChildren?]

theorem ofMembers?_eq_some_iff {subtrees : List (String × Option (List Node))} :
    ofMembers? members subtrees = some n ↔
      (Json.member? "type" members).bind Json.string? = some n.kind ∧
      optional Json.string? "" (Json.member? "text" members) = some n.text ∧
      (Json.member? "startIndex" members).bind Json.index? = some n.span.start ∧
      (Json.member? "endIndex" members).bind Json.index? = some n.span.stop ∧
      (Json.member? "children" subtrees).getD (some []) = some n.children ∧
      (Json.member? "isNamed" members).bind Json.bool? = some n.isNamed ∧
      optional Json.bool? false (Json.member? "isExtra" members) = some n.isExtra ∧
      optional Json.bool? false (Json.member? "isMissing" members) = some n.isMissing := by
  obtain ⟨kind, text, span, children, isNamed, isExtra, isMissing⟩ := n
  unfold ofMembers?
  constructor
  · intro h
    obtain ⟨_, hkind, h⟩ := Option.bind_eq_some_iff.mp h
    obtain ⟨_, htext, h⟩ := Option.bind_eq_some_iff.mp h
    obtain ⟨_, hstart, h⟩ := Option.bind_eq_some_iff.mp h
    obtain ⟨_, hstop, h⟩ := Option.bind_eq_some_iff.mp h
    obtain ⟨_, hchildren, h⟩ := Option.bind_eq_some_iff.mp h
    obtain ⟨_, hnamed, h⟩ := Option.bind_eq_some_iff.mp h
    obtain ⟨_, hextra, h⟩ := Option.bind_eq_some_iff.mp h
    obtain ⟨_, hmissing, h⟩ := Option.bind_eq_some_iff.mp h
    cases h
    exact ⟨hkind, htext, hstart, hstop, hchildren, hnamed, hextra, hmissing⟩
  · rintro ⟨hkind, htext, hstart, hstop, hchildren, hnamed, hextra, hmissing⟩
    simp only [hkind, htext, hstart, hstop, hchildren, hnamed, hextra, hmissing,
      Option.bind_eq_bind, Option.bind_some]
    rfl

section Object

/-- An object tells the member if it has it, or has nothing under its key and that means the
same. -/
def Tells (members : List (String × Json)) (m : String × Json) : Prop :=
  m ∈ members ∨ m.1 ∉ members.map Prod.fst ∧ m ∈ defaultMembers

variable {key : String} {α : Type} {a default : α} (h : (members.map Prod.fst).Nodup)
include h

theorem required_eq_some_iff {decode? : Json → Option α}
    (hkey : key ∉ defaultMembers.map Prod.fst) :
    (Json.member? key members).bind decode? = some a ↔
      ∃ v, Tells members (key, v) ∧ decode? v = some a := by
  have htells (v : Json) : Tells members (key, v) ↔ (key, v) ∈ members :=
    or_iff_left fun hm => hkey (List.mem_map_of_mem hm.2)
  simp only [Json.member?_bind_eq_some_iff h, htells]

theorem optional_eq_some_iff (decode? : Json → Option α) (w : Json)
    (hw : (key, w) ∈ defaultMembers) (hdefault : decode? w = some default) :
    optional decode? default (Json.member? key members) = some a ↔
      ∃ v, Tells members (key, v) ∧ decode? v = some a := by
  have hkeys : (defaultMembers.map Prod.fst).Nodup := by decide
  have hv (v : Json) : (key, v) ∈ defaultMembers ↔ v = w := by
    constructor
    · intro hv
      exact congrArg Prod.snd (List.inj_on_of_nodup_map hkeys hv hw rfl)
    · rintro rfl; exact hw
  simp only [Tells, hv, ← Json.member?_eq_none_iff, ← Json.member?_eq_some_iff h]
  cases Json.member? key members with
  | none => simp [optional, hdefault]
  | some u => simp [optional]

theorem children_eq_some_iff :
    (Json.member? "children" (subtreesOfMembers members)).getD (some []) = some ns ↔
      ∃ v, Tells members ("children", v) ∧ decodeChildren? v = some ns := by
  rw [← optional_eq_some_iff h decodeChildren? (.array []) (by simp [defaultMembers]) rfl,
    subtreesOfMembers_eq, Json.member?_map]
  cases Json.member? "children" members <;> rfl

theorem decode?_object_iff : Node.decode? (.object members) = some n ↔
    n.span.IsIndexed ∧ ∃ items, decodeAll? items = some n.children ∧
      ∀ m ∈ n.membersWith items, Tells members m := by
  rw [Node.decode?, ofMembers?_eq_some_iff, required_eq_some_iff h (by decide),
    optional_eq_some_iff h Json.string? (.string "") (by simp [defaultMembers]) rfl,
    required_eq_some_iff h (by decide), required_eq_some_iff h (by decide),
    children_eq_some_iff h, required_eq_some_iff h (by decide),
    optional_eq_some_iff h Json.bool? (.bool false) (by simp [defaultMembers]) rfl,
    optional_eq_some_iff h Json.bool? (.bool false) (by simp [defaultMembers]) rfl]
  simp only [Json.string?_eq_some_iff, Json.index?_eq_some_iff, Json.bool?_eq_some_iff,
    decodeChildren?_eq_some_iff, exists_eq_right, exists_eq_right_right, membersWith,
    List.forall_mem_cons, Span.IsIndexed]
  constructor
  · rintro ⟨hkind, htext, ⟨hstart, hi⟩, ⟨hstop, hj⟩, ⟨_, hchildren, items, rfl, hitems⟩, hflags⟩
    obtain ⟨hnamed, hextra, hmissing⟩ := hflags
    exact ⟨⟨hi, hj⟩, items, hitems, hkind, htext, hstart, hstop, hchildren, hnamed, hextra,
      hmissing, List.forall_mem_nil _⟩
  · rintro ⟨⟨hi, hj⟩, items, hitems, hkind, htext, hstart, hstop, hchildren, hflags⟩
    obtain ⟨hnamed, hextra, hmissing, -⟩ := hflags
    exact ⟨hkind, htext, ⟨hstart, hi⟩, ⟨hstop, hj⟩, ⟨_, hchildren, items, rfl, hitems⟩, hnamed,
      hextra, hmissing⟩

end Object

/-- The flags at the end of an array are those of the node, as far as they go, and are not set
where they have ended. -/
theorem flags_iff {flags : List Json} {isExtra isMissing : Bool} :
    (¬ 2 < flags.length ∧ optional Json.bool? false flags[0]? = some isExtra ∧
      optional Json.bool? false flags[1]? = some isMissing) ↔
    ∃ omitted, flags ++ omitted = [.bool isExtra, .bool isMissing] ∧
      ∀ flag ∈ omitted, flag = .bool false := by
  match flags with
  | [] => simp [optional]
  | [_] => simp [optional, Json.bool?_eq_some_iff]
  | [_, _] => simp [optional, Json.bool?_eq_some_iff]
  | _ :: _ :: _ :: _ => simp

theorem ofItems?_eq_some_iff {kind text start stop children isNamed : Json} {flags : List Json}
    {a b c d subtree : Option (List Node)} {rest : List (Option (List Node))} :
    ofItems? (kind :: text :: start :: stop :: children :: isNamed :: flags)
        (a :: b :: c :: d :: subtree :: rest) = some n ↔
      ¬ 2 < flags.length ∧ kind.string? = some n.kind ∧ text.string? = some n.text ∧
      start.index? = some n.span.start ∧ stop.index? = some n.span.stop ∧
      subtree = some n.children ∧ isNamed.bool? = some n.isNamed ∧
      optional Json.bool? false flags[0]? = some n.isExtra ∧
      optional Json.bool? false flags[1]? = some n.isMissing := by
  obtain ⟨_, _, _, _, _, _, _⟩ := n
  by_cases hlong : 2 < flags.length
  · simp [ofItems?, hlong]
  · simp only [ofItems?, if_neg hlong]
    constructor
    · intro h
      obtain ⟨_, hstart, h⟩ := Option.bind_eq_some_iff.mp h
      obtain ⟨_, hstop, h⟩ := Option.bind_eq_some_iff.mp h
      obtain ⟨_, hextra, h⟩ := Option.bind_eq_some_iff.mp h
      obtain ⟨_, hmissing, h⟩ := Option.bind_eq_some_iff.mp h
      obtain ⟨_, hkind, h⟩ := Option.bind_eq_some_iff.mp h
      obtain ⟨_, htext, h⟩ := Option.bind_eq_some_iff.mp h
      obtain ⟨_, hchildren, h⟩ := Option.bind_eq_some_iff.mp h
      obtain ⟨_, hnamed, h⟩ := Option.bind_eq_some_iff.mp h
      cases h
      exact ⟨hlong, hkind, htext, hstart, hstop, hchildren, hnamed, hextra, hmissing⟩
    · rintro ⟨-, hkind, htext, hstart, hstop, rfl, hnamed, hextra, hmissing⟩
      simp only [hkind, htext, hstart, hstop, hnamed, hextra, hmissing, Option.bind_eq_bind,
        Option.bind_some]
      rfl

theorem decode?_array_iff {values : List Json} : Node.decode? (.array values) = some n ↔
    n.span.IsIndexed ∧ ∃ items flags omitted, decodeAll? items = some n.children ∧
      values = n.itemsWith items ++ flags ∧
      flags ++ omitted = [.bool n.isExtra, .bool n.isMissing] ∧
      ∀ flag ∈ omitted, flag = .bool false := by
  rw [Node.decode?, subtreesOfItems_eq]
  match values with
  | kind :: text :: start :: stop :: children :: isNamed :: flags =>
    rw [List.map_cons, List.map_cons, List.map_cons, List.map_cons, List.map_cons,
      ofItems?_eq_some_iff]
    simp only [Json.string?_eq_some_iff, Json.index?_eq_some_iff, Json.bool?_eq_some_iff,
      decodeChildren?_eq_some_iff, Span.IsIndexed]
    constructor
    · rintro ⟨hlong, rfl, rfl, ⟨hi, rfl⟩, ⟨hj, rfl⟩, ⟨items, rfl, hitems⟩, rfl, hextra, hmissing⟩
      obtain ⟨omitted, hown, hdefault⟩ := flags_iff.mp ⟨hlong, hextra, hmissing⟩
      exact ⟨⟨hi, hj⟩, items, flags, omitted, hitems, rfl, hown, hdefault⟩
    · rintro ⟨⟨hi, hj⟩, items, flags', omitted, hitems, hvalues, hown, hdefault⟩
      simp only [itemsWith, List.cons_append, List.nil_append, List.cons.injEq] at hvalues
      obtain ⟨rfl, rfl, rfl, rfl, rfl, rfl, rfl⟩ := hvalues
      obtain ⟨hlong, hextra, hmissing⟩ := flags_iff.mpr ⟨omitted, hown, hdefault⟩
      exact ⟨hlong, rfl, rfl, ⟨hi, rfl⟩, ⟨hj, rfl⟩, ⟨items, rfl, hitems⟩, rfl, hextra, hmissing⟩
  | [] | [_] | [_, _] | [_, _, _] | [_, _, _, _] | [_, _, _, _, _] => simp [ofItems?, itemsWith]

/-! ## What is written -/

/-- What an object has of a node, and no more, is told by it. -/
theorem tells_of_order {kept omitted others : List (String × Json)}
    (own : (kept ++ omitted).Perm (n.membersWith items)) (default : omitted ⊆ defaultMembers)
    (unknown : ∀ m ∈ others, m.1 ∉ memberKeys) (order : members.Perm (kept ++ others)) :
    ∀ m ∈ n.membersWith items, Tells members m := by
  intro m hm
  rcases List.mem_append.mp (own.mem_iff.mpr hm) with hkept | homitted
  · exact .inl (order.mem_iff.mpr (List.mem_append_left _ hkept))
  · refine .inr ⟨fun hkey => ?_, default homitted⟩
    have hkeys : ((kept ++ omitted).map Prod.fst).Nodup :=
      (own.map Prod.fst).nodup_iff.mpr nodup_memberKeys
    rw [List.map_append, List.nodup_append] at hkeys
    rw [(order.map Prod.fst).mem_iff, List.map_append, List.mem_append] at hkey
    rcases hkey with hkept | hother
    · exact hkeys.2.2 _ hkept _ (List.mem_map_of_mem homitted) rfl
    · obtain ⟨other, hother, heq⟩ := List.mem_map.mp hother
      refine unknown other hother ?_
      rw [heq, ← n.keys_membersWith items]
      exact List.mem_map_of_mem hm

/-- Of the members of an object that tells those of a node, the ones under the node's keys are those
that it has of the node. -/
theorem filter_perm_of_tells (h : (members.map Prod.fst).Nodup)
    (htells : ∀ m ∈ n.membersWith items, Tells members m) :
    (members.filter fun m => m.1 ∈ memberKeys).Perm
      ((n.membersWith items).filter fun m => m.1 ∈ members.map Prod.fst) := by
  have hown : ((n.membersWith items).map Prod.fst).Nodup := nodup_memberKeys
  refine (List.perm_ext_iff_of_nodup (h.of_map.filter _) (hown.of_map.filter _)).mpr fun m => ?_
  simp only [List.mem_filter, decide_eq_true_eq]
  constructor
  · rintro ⟨hm, hkey⟩
    have hfound : m.1 ∈ members.map Prod.fst := List.mem_map_of_mem hm
    rw [← n.keys_membersWith items] at hkey
    obtain ⟨own, hownmem, heq⟩ := List.mem_map.mp hkey
    rcases htells own hownmem with hmem | ⟨hmissing, -⟩
    · obtain rfl := List.inj_on_of_nodup_map h hmem hm heq
      exact ⟨hownmem, hfound⟩
    · exact absurd (heq ▸ hfound) hmissing
  · rintro ⟨hm, hkey⟩
    rcases htells m hm with hmem | ⟨hmissing, -⟩
    · exact ⟨hmem, List.mem_map_of_mem hm⟩
    · exact absurd hkey hmissing

theorem writtenAs_object_iff (h : (members.map Prod.fst).Nodup) :
    n.WrittenAs (.object members) ↔ ∃ items, List.Forall₂ WrittenAs n.children items ∧
      ∀ m ∈ n.membersWith items, Tells members m := by
  constructor
  · rintro (⟨children, own, default, unknown, order⟩ | _)
    exact ⟨_, children, tells_of_order own default unknown order⟩
  · rintro ⟨items, hitems, htells⟩
    have hown := List.filter_append_perm (fun m => decide (m.1 ∈ members.map Prod.fst))
      (n.membersWith items)
    have hmembers := List.filter_append_perm (fun m => decide (m.1 ∈ memberKeys)) members
    have horder := ((filter_perm_of_tells h htells).append_right _).symm.trans hmembers
    refine .object hitems hown (fun m hm => ?_) (fun m hm => ?_) horder.symm
    · obtain ⟨hm, hkey⟩ := List.mem_filter.mp hm
      rw [Bool.not_eq_true', decide_eq_false_iff_not] at hkey
      rcases htells m hm with hmem | ⟨-, hdefault⟩
      · exact absurd (List.mem_map_of_mem hmem) hkey
      · exact hdefault
    · simpa using (List.mem_filter.mp hm).2

/-! ## Decoding -/

/-- A well-keyed value is decoded to a node just if it presents it. -/
theorem decode?_eq_some_iff (hv : v.isWellKeyed = true) :
    decode? v = some n ↔ n.IsIndexed ∧ n.WrittenAs v := by
  induction n using inductionOnHeight generalizing v with
  | step n ih =>
    -- What the items of the node's children mean is known from the induction.
    have hitems (items : List Json) (h : ∀ item ∈ items, item.isWellKeyed = true) :
        decodeAll? items = some n.children ↔
          (∀ child ∈ n.children, child.IsIndexed) ∧ List.Forall₂ WrittenAs n.children items := by
      rw [decodeAll?_eq_some_iff, ← List.forall₂_and_left]
      exact Json.forall₂_iff_of_mem fun child hc item hi =>
        ih child (height_lt_of_mem hc) (h item hi)
    cases v with
    | object members =>
      obtain ⟨hkeys, hvalues⟩ := Json.isWellKeyed_object.mp hv
      -- Items that are not written are none.
      have hchildren (items : List Json) (h : ∀ m ∈ n.membersWith items, Tells members m) :
          ∀ item ∈ items, item.isWellKeyed = true := by
        rcases h ("children", .array items) (by simp [membersWith]) with hm | ⟨-, hm⟩
        · exact Json.isWellKeyed_array.mp (hvalues _ hm)
        · obtain rfl : items = [] := by simpa [defaultMembers] using hm
          exact List.forall_mem_nil _
      rw [decode?_object_iff hkeys, writtenAs_object_iff hkeys, isIndexed_iff]
      constructor
      · rintro ⟨hspan, items, hdecode, htells⟩
        obtain ⟨hindexed, hwritten⟩ := (hitems items (hchildren items htells)).mp hdecode
        exact ⟨⟨hspan, hindexed⟩, items, hwritten, htells⟩
      · rintro ⟨⟨hspan, hindexed⟩, items, hwritten, htells⟩
        have hdecode := (hitems items (hchildren items htells)).mpr ⟨hindexed, hwritten⟩
        exact ⟨hspan, items, hdecode, htells⟩
    | array values =>
      have hvalues := Json.isWellKeyed_array.mp hv
      have hchildren (items flags : List Json) (h : values = n.itemsWith items ++ flags) :
          ∀ item ∈ items, item.isWellKeyed = true :=
        Json.isWellKeyed_array.mp (hvalues (.array items) (by simp [h, itemsWith]))
      rw [decode?_array_iff, isIndexed_iff]
      constructor
      · rintro ⟨hspan, items, flags, omitted, hdecode, rfl, hown, hdefault⟩
        obtain ⟨hindexed, hwritten⟩ := (hitems items (hchildren items flags rfl)).mp hdecode
        exact ⟨⟨hspan, hindexed⟩, .array hwritten hown hdefault⟩
      · rintro ⟨⟨hspan, hindexed⟩, hwritten⟩
        obtain _ | ⟨hwritten, hown, hdefault⟩ := hwritten
        have hdecode := (hitems _ (hchildren _ _ rfl)).mpr ⟨hindexed, hwritten⟩
        exact ⟨hspan, _, _, _, hdecode, rfl, hown, hdefault⟩
    | null | bool | integer | decimal | string =>
      refine iff_of_false nofun ?_
      rintro ⟨-, _ | _⟩

theorem writtenAs_encode (n : Node) : n.WrittenAs n.encode := by
  induction n using inductionOnHeight with
  | step n ih =>
    have hchildren : List.Forall₂ WrittenAs n.children (n.children.map encode) :=
      List.forall₂_map_right_iff.mpr
        (List.forall₂_same.mpr fun child hc => ih child (height_lt_of_mem hc))
    have hown : (n.membersWith (n.children.map encode) ++ []).Perm
        (n.membersWith (n.children.map encode)) := by rw [List.append_nil]
    rw [encode_eq]
    exact .object hchildren hown (List.nil_subset _) (List.forall_mem_nil _) hown.symm

theorem isWellKeyed_encode (n : Node) : n.encode.isWellKeyed = true := by
  induction n using inductionOnHeight with
  | step n ih =>
    have hchildren : (Json.array (n.children.map encode)).isWellKeyed = true := by
      rw [Json.isWellKeyed_array, List.forall_mem_map]
      exact fun child hc => ih child (height_lt_of_mem hc)
    rw [Json.isWellKeyed] at hchildren
    rw [encode_eq, Json.isWellKeyed_object]
    exact ⟨nodup_memberKeys, by simp [membersWith, hchildren, Json.isWellKeyed, Json.ofIndex]⟩

theorem isReadable_encode {n : Node} (h : n.IsIndexed) : n.encode.isReadable = true := by
  induction n using inductionOnHeight with
  | step n ih =>
    obtain ⟨hspan, hchildren⟩ := isIndexed_iff.mp h
    have hitems : (Json.array (n.children.map encode)).isReadable = true := by
      rw [Json.isReadable_array, List.forall_mem_map]
      exact fun child hc => ih child (height_lt_of_mem hc) (hchildren child hc)
    rw [Json.isReadable] at hitems
    rw [encode_eq, Json.isReadable, membersWith]
    simp [Json.haveReadable, hitems, Json.isReadable, Json.isReadable_ofIndex hspan.1,
      Json.isReadable_ofIndex hspan.2]

theorem decode?_read?_print {n : Node} (h : n.IsIndexed) :
    (Json.read? n.encode.print).bind decode? = some n := by
  rw [Json.read?_print n.isWellKeyed_encode (isReadable_encode h), Option.bind_some]
  exact (decode?_eq_some_iff n.isWellKeyed_encode).mpr ⟨h, n.writtenAs_encode⟩

/-- A tree is encoded with all its members. Decoding takes it back from its encoding, and from the
values that present it in another way and no others. -/
theorem decode_presented :
    (∀ n : Node, n.encode = .object (n.membersWith (n.children.map encode)) ∧
      (n.IsIndexed → decode? n.encode = some n)) ∧
    ∀ v : Json, v.isWellKeyed = true → ∀ n, decode? v = some n ↔ n.IsIndexed ∧ n.WrittenAs v := by
  constructor
  · intro n
    refine ⟨n.encode_eq, fun h => ?_⟩
    exact (decode?_eq_some_iff n.isWellKeyed_encode).mpr ⟨h, n.writtenAs_encode⟩
  · intro v hv n
    exact decode?_eq_some_iff hv

def literalStatement : Node :=
  ⟨"expression_statement", "", ⟨0, 2⟩, [⟨"integer", "12", ⟨0, 2⟩, [], true, false, false⟩],
    true, false, true⟩

/-- The statement with its members in another order, one that is unknown and two that are left out,
and the literal as an array without flags. -/
def presentedStatement : Json :=
  .object [("isMissing", .bool true), ("note", .null), ("endIndex", .integer 2),
    ("children", .array [.array [.string "integer", .string "12", .integer 0, .integer 2, .array [],
      .bool true]]),
    ("isNamed", .bool true), ("startIndex", .integer 0), ("type", .string "expression_statement")]

theorem decode_presentedStatement :
    literalStatement.IsIndexed ∧ presentedStatement.isWellKeyed = true ∧
    decode? literalStatement.encode = some literalStatement ∧
    decode? presentedStatement = some literalStatement ∧
    literalStatement.WrittenAs presentedStatement := by
  have hindexed : literalStatement.IsIndexed := by
    simp [IsIndexed, preorder, preorderAll, literalStatement, Span.IsIndexed, Json.IsIndex]
  have hkeys : presentedStatement.isWellKeyed = true := by decide +kernel
  have hdecode : decode? presentedStatement = some literalStatement := rfl
  exact ⟨hindexed, hkeys, (decode_presented.1 literalStatement).2 hindexed, hdecode,
    ((decode_presented.2 presentedStatement hkeys literalStatement).mp hdecode).2⟩

end Scriptlet.Node
