import Scriptlet.Json.Reader
import Scriptlet.Proofs.Json.Members

/-! # What the reader of JSON reads

Each step of the reader takes some of the text, so that the steps that the text allows are enough:
with more of them nothing else is read. Every value read is well keyed.
-/

namespace Scriptlet.Json.Reader

variable {α : Type} {cs rest : List Char}

/-- Whatever is read, some of the text is taken. -/
def Takes (read? : List Char → Option (α × List Char)) : Prop :=
  ∀ {cs a rest}, read? cs = some (a, rest) → rest.length < cs.length

theorem length_skip_le (cs : List Char) : (skip cs).length ≤ cs.length :=
  (List.dropWhile_sublist isBlank).length_le

theorem length_lt_of_skip {c : Char} (h : skip cs = c :: rest) : rest.length < cs.length := by
  have hle := length_skip_le cs
  rw [h] at hle
  exact hle

theorem takes_string? (read : List Char) (high? : Option Nat) : Takes (string? read high?) := by
  intro cs a rest h
  fun_induction string? read high? cs <;> grind only [List.length_cons]

theorem takes_digits? : Takes digits? := by
  intro cs a rest h
  have hsplit :=
    congrArg List.length (List.takeWhile_append_dropWhile (p := Char.isDigit) (l := cs))
  simp only [digits?, List.span_eq_takeWhile_dropWhile] at h
  split at h
  next => cases h
  next hne =>
    obtain ⟨rfl, rfl⟩ := Prod.mk.inj (Option.some.inj h)
    have hpos := List.length_pos_iff.mpr (List.isEmpty_eq_false_iff.mp (Bool.eq_false_iff.mpr hne))
    rw [List.length_append] at hsplit
    omega

theorem takes_whole? : Takes whole? := by
  intro cs a rest h
  unfold whole? at h
  split at h
  next => cases h; exact Nat.lt_succ_self _
  next => exact takes_digits? h

theorem length_places?_le {places : List Char} (h : places? cs = some (places, rest)) :
    rest.length ≤ cs.length := by
  unfold places? at h
  split at h
  next => exact (takes_digits? h).le.trans (Nat.le_succ _)
  next => cases h; rfl

theorem length_splitMinus_le (cs : List Char) : (splitMinus cs).2.length ≤ cs.length := by
  unfold splitMinus
  split
  · exact Nat.le_succ _
  · rfl

theorem length_splitSign_le (cs : List Char) : (Numeral.splitSign cs).2.length ≤ cs.length := by
  unfold Numeral.splitSign
  split
  · exact Nat.le_succ _
  · exact Nat.le_succ _
  · rfl

theorem length_exponent?_le {exponent : Option Int} (h : exponent? cs = some (exponent, rest)) :
    rest.length ≤ cs.length := by
  unfold exponent? at h
  split at h
  next => cases h; rfl
  next c cs =>
    split at h
    next =>
      obtain ⟨⟨digits, rest'⟩, hd, heq⟩ := Option.map_eq_some_iff.mp h
      cases heq
      exact ((takes_digits? hd).le.trans (length_splitSign_le cs)).trans (Nat.le_succ _)
    next => cases h; rfl

theorem number?_eq_some_iff {number : Json} : number? cs = some (number, rest) ↔
    ∃ whole afterWhole places afterPlaces exponent,
      whole? (splitMinus cs).2 = some (whole, afterWhole) ∧
      places? afterWhole = some (places, afterPlaces) ∧
      exponent? afterPlaces = some (exponent, rest) ∧
      ofParts (splitMinus cs).1 whole places exponent = number ∧
      number.number?.any Binary64.isFinite = true := by
  simp only [number?, Option.bind_eq_bind, Option.bind_eq_some_iff, Prod.exists,
    Option.ite_none_right_eq_some, Option.some.injEq, Prod.mk.injEq]
  constructor
  · rintro ⟨whole, afterWhole, hwhole, places, afterPlaces, hplaces, exponent, _, hexponent,
      hfinite, rfl, rfl⟩
    exact ⟨whole, afterWhole, places, afterPlaces, exponent, hwhole, hplaces, hexponent, rfl,
      hfinite⟩
  · rintro ⟨whole, afterWhole, places, afterPlaces, exponent, hwhole, hplaces, hexponent, rfl,
      hfinite⟩
    exact ⟨whole, afterWhole, hwhole, places, afterPlaces, hplaces, exponent, rest, hexponent,
      hfinite, rfl, rfl⟩

theorem takes_number? : Takes number? := by
  intro cs a rest h
  obtain ⟨whole, afterWhole, places, afterPlaces, exponent, hwhole, hplaces, hexponent, -⟩ :=
    number?_eq_some_iff.mp h
  have hsplit := length_splitMinus_le cs
  have hle := (length_exponent?_le hexponent).trans (length_places?_le hplaces)
  exact (hle.trans_lt (takes_whole? hwhole)).trans_le hsplit

theorem takes_key? : Takes key? := by
  intro cs key rest h
  unfold key? at h
  split at h
  next heq =>
    obtain ⟨⟨_, afterKey⟩, hkey, hcolon⟩ := Option.bind_eq_some_iff.mp h
    have hlt := (takes_string? _ _ hkey).trans (length_lt_of_skip heq)
    dsimp only at hcolon
    split at hcolon
    next heq =>
      cases hcolon
      exact (length_lt_of_skip heq).trans hlt
    next => cases hcolon
  next => cases h

theorem takes_nested (fuel : Nat) :
    Takes (value? fuel) ∧ (∀ read, Takes (items? fuel read)) ∧
      (∀ read, Takes (members? fuel read)) := by
  induction fuel with
  | zero =>
    exact ⟨(fun h => by cases h), (fun _ _ _ _ h => by cases h), (fun _ _ _ _ h => by cases h)⟩
  | succ fuel ih =>
    obtain ⟨hvalue, hitems, hmembers⟩ := ih
    refine ⟨fun {cs a rest} h => ?_, fun read cs a rest h => ?_, fun read cs a rest h => ?_⟩
    · rw [value?] at h
      split at h
      iterate 3
        next heq =>
          cases h
          have := length_lt_of_skip heq
          grind only [List.length_cons]
      next text heq =>
        obtain ⟨⟨_, _⟩, hs, hrest⟩ := Option.map_eq_some_iff.mp h
        cases hrest
        exact (takes_string? _ _ hs).trans (length_lt_of_skip heq)
      next inner heq =>
        have hlt := length_lt_of_skip heq
        split at h
        next hend =>
          cases h
          exact (length_lt_of_skip hend).trans hlt
        next => exact (hitems _ h).trans hlt
      next inner heq =>
        have hlt := length_lt_of_skip heq
        split at h
        next hend =>
          cases h
          exact (length_lt_of_skip hend).trans hlt
        next => exact (hmembers _ h).trans hlt
      next => exact (takes_number? h).trans_le (length_skip_le cs)
    · rw [items?] at h
      split at h
      next => cases h
      next value after hv =>
        split at h
        next heq => exact ((hitems _ h).trans (length_lt_of_skip heq)).trans (hvalue hv)
        next heq =>
          cases h
          exact (length_lt_of_skip heq).trans (hvalue hv)
        next => cases h
    · rw [members?] at h
      split at h
      next => cases h
      next key afterKey hkey =>
        split at h
        next => cases h
        next value after hv =>
          have hlt := (hvalue hv).trans (takes_key? hkey)
          split at h
          next heq => exact ((hmembers _ h).trans (length_lt_of_skip heq)).trans hlt
          next heq =>
            cases h
            exact (length_lt_of_skip heq).trans hlt
          next => cases h

/-- Above its bound the number of nested steps does not matter. -/
theorem nested_congr (m : Nat) :
    (∀ n cs, 2 * cs.length + 1 ≤ m → 2 * cs.length + 1 ≤ n → value? m cs = value? n cs) ∧
    (∀ n read cs, 2 * cs.length + 2 ≤ m → 2 * cs.length + 2 ≤ n →
      items? m read cs = items? n read cs) ∧
    (∀ n read cs, 2 * cs.length + 2 ≤ m → 2 * cs.length + 2 ≤ n →
      members? m read cs = members? n read cs) := by
  induction m with
  | zero => exact ⟨fun _ _ h => by omega, fun _ _ _ h => by omega, fun _ _ _ h => by omega⟩
  | succ m ih =>
    obtain ⟨hvalue, hitems, hmembers⟩ := ih
    refine ⟨fun n cs hm hn => ?_, fun n read cs hm hn => ?_, fun n read cs hm hn => ?_⟩
    · obtain ⟨n, rfl⟩ := Nat.exists_eq_succ_of_ne_zero (by omega : n ≠ 0)
      rw [value?, value?]
      split
      iterate 4
        next => rfl
      next inner heq =>
        have := length_lt_of_skip heq
        split
        next => rfl
        next => exact hitems n _ _ (by omega) (by omega)
      next inner heq =>
        have := length_lt_of_skip heq
        split
        next => rfl
        next => exact hmembers n _ _ (by omega) (by omega)
      next => rfl
    · obtain ⟨n, rfl⟩ := Nat.exists_eq_succ_of_ne_zero (by omega : n ≠ 0)
      rw [items?, items?, hvalue n cs (by omega) (by omega)]
      split
      next => rfl
      next value after hv =>
        have hlt := (takes_nested n).1 hv
        split
        next heq =>
          have := length_lt_of_skip heq
          exact hitems n _ _ (by omega) (by omega)
        next => rfl
        next => rfl
    · obtain ⟨n, rfl⟩ := Nat.exists_eq_succ_of_ne_zero (by omega : n ≠ 0)
      rw [members?, members?]
      split
      next => rfl
      next key afterKey hkey =>
        have := takes_key? hkey
        rw [hvalue n afterKey (by omega) (by omega)]
        split
        next => rfl
        next value after hv =>
          have hlt := (takes_nested n).1 hv
          split
          next heq =>
            have := length_lt_of_skip heq
            exact hmembers n _ _ (by omega) (by omega)
          next => rfl
          next => rfl

/-! ## Members -/

theorem lastOfEach_cons (m : String × Json) (members : List (String × Json)) :
    lastOfEach (m :: members) =
      if (lastOfEach members).any (·.1 == m.1) then lastOfEach members
      else m :: lastOfEach members :=
  rfl

theorem lastOfEach_subset (members : List (String × Json)) : lastOfEach members ⊆ members := by
  induction members with
  | nil => exact List.Subset.refl _
  | cons m members ih =>
    rw [lastOfEach_cons]
    split
    · exact List.subset_cons_of_subset m ih
    · exact List.cons_subset_cons m ih

theorem nodup_lastOfEach (members : List (String × Json)) :
    ((lastOfEach members).map Prod.fst).Nodup := by
  induction members with
  | nil => exact List.nodup_nil
  | cons m members ih =>
    rw [lastOfEach_cons]
    split
    next => exact ih
    next hnew =>
      refine List.nodup_cons.mpr ⟨fun hm => hnew ?_, ih⟩
      obtain ⟨m', hm', hkey⟩ := List.mem_map.mp hm
      exact List.any_eq_true.mpr ⟨m', hm', beq_iff_eq.mpr hkey⟩

theorem isSome_member? (key : String) (members : List (String × Json)) :
    (member? key members).isSome = members.any (·.1 == key) := by
  rw [member?, Option.isSome_map, Bool.eq_iff_iff, List.find?_isSome, List.any_eq_true]

/-- Of the members with one key the last one counts. -/
theorem member?_lastOfEach (key : String) (members : List (String × Json)) :
    member? key (lastOfEach members) = member? key members.reverse := by
  induction members with
  | nil => rfl
  | cons m members ih =>
    have hlast : member? key (m :: members).reverse =
        (member? key (lastOfEach members)).or (if m.1 == key then some m.2 else none) := by
      rw [ih, member?, member?, List.reverse_cons, List.find?_append, Option.map_or,
        List.find?_singleton, apply_ite (Option.map _)]
      rfl
    have hsome := isSome_member? key (lastOfEach members)
    rw [hlast, lastOfEach_cons]
    by_cases hkey : m.1 = key
    · subst hkey
      rw [if_pos (beq_self_eq_true _), ← hsome]
      cases hfound : member? m.1 (lastOfEach members) with
      | none => simp [member?]
      | some v => simpa using hfound
    · have hne : ¬ (m.1 == key) = true := by simpa using hkey
      rw [if_neg hne, Option.or_none]
      split
      · rfl
      · rw [member?, List.find?_cons, Bool.eq_false_iff.mpr hne]
        rfl

/-! ## What is read -/

theorem isWellKeyed_nested (fuel : Nat) :
    (∀ cs v rest, value? fuel cs = some (v, rest) → v.isWellKeyed = true) ∧
    (∀ read cs v rest, (∀ item ∈ read, item.isWellKeyed = true) →
      items? fuel read cs = some (v, rest) → v.isWellKeyed = true) ∧
    (∀ read cs v rest, (∀ m ∈ read, m.2.isWellKeyed = true) →
      members? fuel read cs = some (v, rest) → v.isWellKeyed = true) := by
  induction fuel with
  | zero =>
    exact ⟨(fun _ _ _ h => by cases h), (fun _ _ _ _ _ h => by cases h),
      (fun _ _ _ _ _ h => by cases h)⟩
  | succ fuel ih =>
    obtain ⟨hvalue, hitems, hmembers⟩ := ih
    refine ⟨fun cs v rest h => ?_, fun read cs v rest hread h => ?_,
      fun read cs v rest hread h => ?_⟩
    · rw [value?] at h
      split at h
      iterate 3
        next => cases h; rfl
      next =>
        obtain ⟨_, _, heq⟩ := Option.map_eq_some_iff.mp h
        cases heq; rfl
      next =>
        split at h
        next => cases h; rfl
        next => exact hitems _ _ _ _ (List.forall_mem_nil _) h
      next =>
        split at h
        next => cases h; rfl
        next => exact hmembers _ _ _ _ (List.forall_mem_nil _) h
      next =>
        obtain ⟨_, _, _, _, _, -, -, -, rfl, -⟩ := number?_eq_some_iff.mp h
        unfold ofParts
        dsimp only
        split <;> rfl
    · rw [items?] at h
      split at h
      next => cases h
      next value after hv =>
        have hcons : ∀ item ∈ value :: read, item.isWellKeyed = true :=
          List.forall_mem_cons.mpr ⟨hvalue _ _ _ hv, hread⟩
        split at h
        next => exact hitems _ _ _ _ hcons h
        next =>
          cases h
          exact isWellKeyed_array.mpr fun item hitem => hcons item (List.mem_reverse.mp hitem)
        next => cases h
    · rw [members?] at h
      split at h
      next => cases h
      next key afterKey hkey =>
        split at h
        next => cases h
        next value after hv =>
          have hcons : ∀ m ∈ (key, value) :: read, m.2.isWellKeyed = true :=
            List.forall_mem_cons.mpr ⟨hvalue _ _ _ hv, hread⟩
          split at h
          next => exact hmembers _ _ _ _ hcons h
          next =>
            cases h
            exact isWellKeyed_object.mpr ⟨nodup_lastOfEach _, fun m hm =>
              hcons m (List.mem_reverse.mp (lastOfEach_subset _ hm))⟩
          next => cases h

end Scriptlet.Json.Reader

namespace Scriptlet.Json

variable {text : String} {v : Json} {fuel : Nat}

/-- The text alone decides what is read, once the steps are enough. -/
theorem read?_eq_some_iff (h : 2 * text.toList.length + 1 ≤ fuel) :
    read? text = some v ↔
      ∃ rest, Reader.value? fuel text.toList = some (v, rest) ∧ Reader.skip rest = [] := by
  have hcongr := (Reader.nested_congr fuel).1 (2 * text.toList.length + 2) text.toList h (by omega)
  rw [hcongr, read?]
  split
  next value rest hv => 
    rw [Option.ite_none_right_eq_some, List.isEmpty_iff]
    constructor
    · rintro ⟨hrest, hvalue⟩
      cases hvalue
      exact ⟨rest, hv, hrest⟩
    · rintro ⟨rest', hv', hrest⟩
      cases hv.symm.trans hv'
      exact ⟨hrest, rfl⟩
  next hv => 
    refine iff_of_false nofun ?_
    rintro ⟨_, hv', -⟩
    cases hv.symm.trans hv'

/-- Whatever text is read, no object in it repeats a key. -/
theorem isWellKeyed_of_read? (h : read? text = some v) : v.isWellKeyed = true := by
  obtain ⟨rest, hv, -⟩ := (read?_eq_some_iff (Nat.le_refl _)).mp h
  exact (Reader.isWellKeyed_nested _).1 _ _ _ hv

end Scriptlet.Json
