import Scriptlet.Proofs.Json.Printer
import Scriptlet.Proofs.Number.Finite
import Scriptlet.Wire.Record

/-! # Spans and diagnostics as JSON

A value without repeated keys is decoded as the span or the diagnostic that it presents, and from no
other. One way to present it is its encoding, which also survives being printed and read.
-/

namespace Scriptlet

namespace Json

theorem isReadable_ofIndex {n : Nat} (h : IsIndex n) : (ofIndex n).isReadable = true := by
  have hnearest : (Binary64.nearest false n 1).IsNearest false (n / (1 : ℕ)) :=
    Binary64.nearest_isNearest false n Nat.one_pos
  rw [Nat.cast_one, div_one] at hnearest
  have hsmall : (n : ℚ) < Binary64.overflow := by
    rw [Binary64.overflow_eq]
    calc (n : ℚ) < 2 ^ 64 := by exact_mod_cast h
      _ ≤ 2 ^ 970 := pow_le_pow_right₀ (by norm_num) (by norm_num)
      _ ≤ 2 ^ 970 * (2 ^ 54 - 1) := le_mul_of_one_le_right (by positivity) (by norm_num)
  have hsign : decide ((n : ℤ) < 0) = false := decide_eq_false (by omega)
  simp [ofIndex, isReadable, number?, hsign,
    Binary64.isFinite_iff.mpr (hnearest.2.lt_infinity_iff.mpr hsmall)]

end Json

namespace Span

variable {s : Span} {v : Json} {members : List (String × Json)}

def IsIndexed (s : Span) : Prop := Json.IsIndex s.start ∧ Json.IsIndex s.stop

/-- The values that present a span: its offsets as members among others, or as the only items. -/
inductive WrittenAs (s : Span) : Json → Prop
  | object {members : List (String × Json)} :
      ("start", .ofIndex s.start) ∈ members → ("end", .ofIndex s.stop) ∈ members →
      WrittenAs s (.object members)
  | array : WrittenAs s (.array [.ofIndex s.start, .ofIndex s.stop])

theorem decode?_object_iff (h : (members.map Prod.fst).Nodup) :
    decode? (.object members) = some s ↔ s.IsIndexed ∧ s.WrittenAs (.object members) := by
  have hfield (key : String) (n : Nat) :
      (Json.member? key members).bind Json.index? = some n ↔
        Json.IsIndex n ∧ (key, .ofIndex n) ∈ members := by
    simp only [Json.member?_bind_eq_some_iff h, Json.index?_eq_some_iff]
    constructor
    · rintro ⟨_, hm, hn, rfl⟩
      exact ⟨hn, hm⟩
    · rintro ⟨hn, hm⟩
      exact ⟨_, hm, hn, rfl⟩
  simp only [decode?, Option.bind_eq_bind, Option.bind_eq_some_iff, hfield, Option.pure_def,
    Option.some.injEq]
  constructor
  · rintro ⟨start, ⟨hstart, hm⟩, stop, ⟨hstop, hm'⟩, rfl⟩
    exact ⟨⟨hstart, hstop⟩, .object hm hm'⟩
  · rintro ⟨⟨hstart, hstop⟩, hm, hm'⟩
    exact ⟨s.start, ⟨hstart, hm⟩, s.stop, ⟨hstop, hm'⟩, rfl⟩

theorem decode?_array_iff {items : List Json} :
    decode? (.array items) = some s ↔ s.IsIndexed ∧ s.WrittenAs (.array items) := by
  match items with
  | [] | [_] | _ :: _ :: _ :: _ => exact iff_of_false nofun (by rintro ⟨-, ⟨⟩⟩)
  | [start, stop] =>
    simp only [decode?, Option.bind_eq_bind, Option.bind_eq_some_iff, Json.index?_eq_some_iff,
      Option.pure_def, Option.some.injEq]
    constructor
    · rintro ⟨_, ⟨hstart, rfl⟩, _, ⟨hstop, rfl⟩, rfl⟩
      exact ⟨⟨hstart, hstop⟩, .array⟩
    · rintro ⟨⟨hstart, hstop⟩, ⟨⟩⟩
      exact ⟨_, ⟨hstart, rfl⟩, _, ⟨hstop, rfl⟩, rfl⟩

theorem decode?_eq_some_iff (hv : v.isWellKeyed = true) :
    decode? v = some s ↔ s.IsIndexed ∧ s.WrittenAs v := by
  cases v with
  | object members => exact decode?_object_iff (Json.isWellKeyed_object.mp hv).1
  | array items => exact decode?_array_iff
  | null | bool | integer | decimal | string => exact iff_of_false nofun (by rintro ⟨-, ⟨⟩⟩)

theorem writtenAs_encode (s : Span) : s.WrittenAs s.encode := .object (by simp) (by simp)

theorem isWellKeyed_encode (s : Span) : s.encode.isWellKeyed = true := rfl

theorem isReadable_encode (h : s.IsIndexed) : s.encode.isReadable = true := by
  simp [encode, Json.isReadable, Json.haveReadable, Json.isReadable_ofIndex h.1,
    Json.isReadable_ofIndex h.2]

theorem decode?_read?_print (h : s.IsIndexed) :
    (Json.read? s.encode.print).bind decode? = some s := by
  rw [Json.read?_print s.isWellKeyed_encode (isReadable_encode h), Option.bind_some]
  exact (decode?_eq_some_iff s.isWellKeyed_encode).mpr ⟨h, s.writtenAs_encode⟩

end Span

namespace Diagnostic

variable {d : Diagnostic} {v : Json} {members : List (String × Json)}

theorem hint?_eq_some_iff {hint : Option String} : hint? v = some hint ↔ v = .ofString? hint := by
  cases hint <;> cases v <;> simp [hint?, Json.ofString?]

/-- The values that present a diagnostic. An object need not have a hint, unless there is one. -/
inductive WrittenAs (d : Diagnostic) : Json → Prop
  | object {members : List (String × Json)} {span : Json} :
      ("message", .string d.message) ∈ members → ("span", span) ∈ members →
      d.span.WrittenAs span →
      ("hint", .ofString? d.hint) ∈ members ∨ ("hint" ∉ members.map Prod.fst ∧ d.hint = none) →
      WrittenAs d (.object members)
  | array {span : Json} : d.span.WrittenAs span →
      WrittenAs d (.array [.string d.message, span, .ofString? d.hint])

theorem hint?_member?_iff (h : (members.map Prod.fst).Nodup) {hint : Option String} :
    hint? ((Json.member? "hint" members).getD .null) = some hint ↔
      ("hint", .ofString? hint) ∈ members ∨ ("hint" ∉ members.map Prod.fst ∧ hint = none) := by
  rw [hint?_eq_some_iff, ← Json.member?_eq_some_iff h, ← Json.member?_eq_none_iff]
  cases Json.member? "hint" members with
  | none => cases hint <;> simp [Json.ofString?]
  | some w => simp

theorem decode?_object_iff (hv : (Json.object members).isWellKeyed = true) :
    decode? (.object members) = some d ↔ d.span.IsIndexed ∧ d.WrittenAs (.object members) := by
  obtain ⟨h, hvalues⟩ := Json.isWellKeyed_object.mp hv
  simp only [decode?, Option.bind_eq_bind, Option.bind_eq_some_iff,
    Json.member?_bind_eq_some_iff h, Json.string?_eq_some_iff, hint?_member?_iff h,
    Option.pure_def, Option.some.injEq]
  constructor
  · rintro ⟨message, ⟨_, hm, rfl⟩, span, ⟨w, hs, hspan⟩, hint, hh, rfl⟩
    obtain ⟨hindexed, hw⟩ := (Span.decode?_eq_some_iff (hvalues _ hs)).mp hspan
    exact ⟨hindexed, .object hm hs hw hh⟩
  · rintro ⟨hindexed, hw⟩
    cases hw with
    | object hm hs hw hh =>
      have hspan := (Span.decode?_eq_some_iff (hvalues _ hs)).mpr ⟨hindexed, hw⟩
      exact ⟨d.message, ⟨_, hm, rfl⟩, d.span, ⟨_, hs, hspan⟩, d.hint, hh, rfl⟩

theorem decode?_array_iff {items : List Json} (hv : (Json.array items).isWellKeyed = true) :
    decode? (.array items) = some d ↔ d.span.IsIndexed ∧ d.WrittenAs (.array items) := by
  match items with
  | [] | [_] | [_, _] | _ :: _ :: _ :: _ :: _ => exact iff_of_false nofun (by rintro ⟨-, ⟨⟩⟩)
  | [message, span, hint] =>
    have hspan (s : Span) := Span.decode?_eq_some_iff (s := s)
      (Json.isWellKeyed_array.mp hv span (by simp))
    simp only [decode?, Option.bind_eq_bind, Option.bind_eq_some_iff, Json.string?_eq_some_iff,
      hspan, hint?_eq_some_iff, Option.pure_def, Option.some.injEq]
    constructor
    · rintro ⟨_, rfl, _, ⟨hindexed, hw⟩, _, rfl, rfl⟩
      exact ⟨hindexed, .array hw⟩
    · rintro ⟨hindexed, hw⟩
      cases hw with
      | array hw => exact ⟨_, rfl, _, ⟨hindexed, hw⟩, _, rfl, rfl⟩

theorem decode?_eq_some_iff (hv : v.isWellKeyed = true) :
    decode? v = some d ↔ d.span.IsIndexed ∧ d.WrittenAs v := by
  cases v with
  | object members => exact decode?_object_iff hv
  | array items => exact decode?_array_iff hv
  | null | bool | integer | decimal | string => exact iff_of_false nofun (by rintro ⟨-, ⟨⟩⟩)

theorem writtenAs_encode (d : Diagnostic) : d.WrittenAs d.encode :=
  .object (by simp) (by simp) d.span.writtenAs_encode (.inl (by simp))

theorem isWellKeyed_encode (d : Diagnostic) : d.encode.isWellKeyed = true := by
  obtain ⟨message, span, _ | hint⟩ := d <;> rfl

theorem isReadable_encode (h : d.span.IsIndexed) : d.encode.isReadable = true := by
  obtain ⟨message, span, hint⟩ := d
  have hspan := Span.isReadable_encode h
  cases hint <;> simp [encode, Json.isReadable, Json.haveReadable, Json.ofString?, hspan]

theorem decode?_read?_print (h : d.span.IsIndexed) :
    (Json.read? d.encode.print).bind decode? = some d := by
  rw [Json.read?_print d.isWellKeyed_encode (isReadable_encode h), Option.bind_some]
  exact (decode?_eq_some_iff d.isWellKeyed_encode).mpr ⟨h, d.writtenAs_encode⟩

end Diagnostic

end Scriptlet
