import Scriptlet.Proofs.Json.Members
import Scriptlet.Wire.Deserializer

/-! # Fields that a deserializer shows

A value holds fields if it is an object with these members, in any order and next to others, or an
array of their values in order. Fields are found just if the value holds them and the deserializer
shows what it holds.
-/

namespace Scriptlet.Json

inductive HoldsFields (fields : List (String × Json)) : Json → Prop
  | object {members : List (String × Json)} (own : fields ⊆ members) :
      HoldsFields fields (.object members)
  | array : HoldsFields fields (.array (fields.map Prod.snd))

theorem holdsFields_object {fields members : List (String × Json)} :
    HoldsFields fields (.object members) ↔ fields ⊆ members := by
  constructor
  · rintro ⟨own⟩
    exact own
  · exact .object

theorem subset_zip_iff {fields : List (String × Json)} {items : List Json}
    (hnames : (fields.map Prod.fst).Nodup) (hlength : items.length = fields.length) :
    fields ⊆ (fields.map Prod.fst).zip items ↔ items = fields.map Prod.snd := by
  constructor
  · intro hsub
    induction fields generalizing items with
    | nil => simpa using hlength
    | cons field fields ih =>
      obtain ⟨name, value⟩ := field
      obtain ⟨item, items, rfl⟩ := List.exists_cons_of_length_eq_add_one hlength
      simp only [List.map_cons, List.nodup_cons] at hnames
      simp only [List.map_cons, List.zip_cons_cons, List.cons_subset, List.mem_cons,
        Prod.mk.injEq, true_and] at hsub
      have hvalue : value = item := by
        rcases hsub.1 with hvalue | hlater
        · exact hvalue
        · exact absurd (List.of_mem_zip hlater).1 hnames.1
      have hrest : fields ⊆ (fields.map Prod.fst).zip items := by
        intro m hm
        rcases List.mem_cons.mp (hsub.2 hm) with rfl | hlater
        · exact absurd (List.mem_map_of_mem hm) hnames.1
        · exact hlater
      rw [List.map_cons, hvalue, ← ih hnames.2 (by simpa using hlength) hrest]
  · rintro rfl
    rw [List.zip_map', List.map_id']
    exact List.Subset.refl _

namespace Deserializer

variable {d : Deserializer} {names : List String} {fields members : List (String × Json)}
  {held : Json}

/-- The value holds the fields, and the deserializer shows what it holds. -/
def Shows (d : Deserializer) (fields : List (String × Json)) (held : Json) : Prop :=
  d.showsFields held = true ∧ HoldsFields fields held

def Reads (d : Deserializer) (n : Json) (x : Binary64) : Prop := d.number? n = some x

theorem fields?_eq_some_iff : d.fields? names held = some members ↔
    d.showsFields held = true ∧ (held = .object members ∨
      ∃ items, held = .array items ∧ items.length = names.length ∧ members = names.zip items) := by
  unfold fields?
  cases held <;> simp [eq_comm (a := members)]

theorem exists_fields?_iff (hnames : names.Nodup) (hfields : fields.map Prod.fst = names) :
    (∃ members, d.fields? names held = some members ∧ fields ⊆ members) ↔
      d.Shows fields held := by
  subst hfields
  simp only [fields?_eq_some_iff, List.length_map]
  constructor
  · rintro ⟨members, ⟨hshows, rfl | ⟨items, rfl, hlength, rfl⟩⟩, hsub⟩
    · exact ⟨hshows, .object hsub⟩
    · refine ⟨hshows, ?_⟩
      rw [(subset_zip_iff hnames hlength).mp hsub]
      exact .array
  · rintro ⟨hshows, hfields⟩
    cases hfields with
    | object own => exact ⟨_, ⟨hshows, .inl rfl⟩, own⟩
    | array =>
      refine ⟨_, ⟨hshows, .inr ⟨_, rfl, by simp, rfl⟩⟩, ?_⟩
      exact (subset_zip_iff hnames (by simp)).mpr rfl

theorem nodup_of_fields? (hheld : held.isWellKeyed = true) (hnames : names.Nodup)
    (h : d.fields? names held = some members) : (members.map Prod.fst).Nodup := by
  obtain ⟨-, rfl | ⟨items, rfl, hlength, rfl⟩⟩ := fields?_eq_some_iff.mp h
  · exact (isWellKeyed_object.mp hheld).1
  · rwa [List.map_fst_zip (by omega)]

theorem wellKeyed_of_fields? (hheld : held.isWellKeyed = true)
    (h : d.fields? names held = some members) : ∀ m ∈ members, m.2.isWellKeyed = true := by
  obtain ⟨-, rfl | ⟨items, rfl, -, rfl⟩⟩ := fields?_eq_some_iff.mp h
  · exact (isWellKeyed_object.mp hheld).2
  · exact fun m hm => isWellKeyed_array.mp hheld _ (List.of_mem_zip hm).2

theorem sizeOf_lt_of_fields? (h : d.fields? names held = some members) :
    ∀ m ∈ members, sizeOf m.2 < sizeOf held := by
  intro m hm
  obtain ⟨-, rfl | ⟨items, rfl, -, rfl⟩⟩ := fields?_eq_some_iff.mp h
  · have hmember := List.sizeOf_lt_of_mem hm
    rcases m with ⟨key, value⟩
    simp only [Prod.mk.sizeOf_spec, object.sizeOf_spec] at hmember ⊢
    omega
  · have hitem := List.sizeOf_lt_of_mem (List.of_mem_zip hm).2
    simp only [array.sizeOf_spec]
    omega

/-- Fields are shown by objects and by arrays, and a number is the double nearest to it. -/
structure FollowsRules (d : Deserializer) : Prop where
  showsFields_iff : ∀ held, d.showsFields held = true ↔
    (∃ members, held = .object members) ∨ ∃ items, held = .array items
  number?_eq_some_iff : ∀ n x, d.number? n = some x ↔ n.RoundsTo x

theorem ofText_followsRules : ofText.FollowsRules where
  showsFields_iff held := by cases held <;> simp [ofText]
  number?_eq_some_iff _ _ := Json.number?_eq_some_iff

theorem FollowsRules.shows_eq (h : d.FollowsRules) : d.Shows = HoldsFields := by
  funext fields held
  apply propext
  rw [Shows, h.showsFields_iff]
  constructor
  · exact And.right
  · intro hfields
    refine ⟨?_, hfields⟩
    cases hfields with
    | object _ => exact .inl ⟨_, rfl⟩
    | array => exact .inr ⟨_, rfl⟩

theorem FollowsRules.reads_eq (h : d.FollowsRules) : d.Reads = RoundsTo := by
  funext n x
  exact propext (h.number?_eq_some_iff n x)

/-- In memory only objects show fields. -/
theorem shows_ofValue : ofValue.Shows fields held ↔
    ∃ members, held = .object members ∧ fields ⊆ members := by
  cases held <;> simp [Shows, ofValue, holdsFields_object]

end Deserializer

end Scriptlet.Json
