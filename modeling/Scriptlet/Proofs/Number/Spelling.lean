import Mathlib.Data.List.Induction
import Mathlib.Data.List.TakeWhile
import Mathlib.Data.Nat.Digits.Defs
import Scriptlet.Proofs.Number.Nearest

/-! # Spellings of numbers

Which texts spell a number, and which one: a sign or none, digits with at most one point among or
around them, and an exponent or none. Just the texts that spell a number are read, and each is read
as the number that it spells, if its exponent is not beyond the limit.
-/

namespace Scriptlet

def signed {α : Type} [Neg α] (negative : Bool) (x : α) : α := if negative then -x else x

theorem signed_zero (negative : Bool) : signed negative (0 : ℚ) = 0 := by
  cases negative
  · rfl
  · exact neg_zero

theorem abs_signed (negative : Bool) (x : ℚ) : |signed negative x| = |x| := by
  cases negative
  · rfl
  · exact abs_neg x

theorem abs_signed_sub (negative : Bool) (x y : ℚ) :
    |signed negative x - signed negative y| = |x - y| := by
  cases negative
  · rfl
  · rw [signed, signed, if_pos rfl, if_pos rfl, neg_sub_neg, abs_sub_comm]

section Signs

variable {x y : ℚ} (hx : 0 ≤ x) (hy : 0 ≤ y)
include hx hy

theorem abs_signed_not_sub (negative : Bool) :
    |signed (!negative) x - signed negative y| = x + y := by
  have hsum : |x + y| = x + y := abs_of_nonneg (add_nonneg hx hy)
  cases negative
  · rw [signed, signed, Bool.not_false, if_pos rfl, if_neg (by decide), ← neg_add', abs_neg, hsum]
  · rw [signed, signed, Bool.not_true, if_pos rfl, if_neg (by decide), sub_neg_eq_add, hsum]

/-- A change of the sign leads away from every number of the old sign. -/
theorem abs_sub_le_abs_signed_sub (s t : Bool) : |x - y| ≤ |signed s x - signed t y| := by
  rcases Bool.eq_or_eq_not s t with rfl | rfl
  · rw [abs_signed_sub]
  · rw [abs_signed_not_sub hx hy, abs_sub_le_iff]
    constructor <;> linarith

theorem eq_of_signed_eq {s t : Bool} (h : signed s x = signed t y) (hne : signed s x ≠ 0) :
    s = t := by
  refine (Bool.eq_or_eq_not s t).resolve_right ?_
  rintro rfl
  have hsum := abs_signed_not_sub hx hy t
  rw [h, sub_self, abs_zero] at hsum
  obtain rfl : x = 0 := by linarith
  exact hne (signed_zero _)

end Signs

namespace Numeral

def AreDigits (cs : List Char) : Prop := ∀ c ∈ cs, c.isDigit = true

instance : DecidablePred AreDigits :=
  fun cs => decidable_of_iff (cs.all Char.isDigit = true) List.all_eq_true

/-- The natural number that digits stand for, the last of them counting ones. -/
def natural (ds : List Char) : ℕ := Nat.ofDigits 10 (ds.reverse.map digitValue)

inductive SpellsSign : List Char → Bool → Prop
  | absent : SpellsSign [] false
  | plus : SpellsSign ['+'] false
  | minus : SpellsSign ['-'] true

inductive SpellsMantissa : List Char → ℚ → Prop
  | whole {ds : List Char} (hd : AreDigits ds) (hne : ds ≠ []) : SpellsMantissa ds (natural ds)
  | pointed {ws ps : List Char} (hw : AreDigits ws) (hp : AreDigits ps)
      (hne : ws ≠ [] ∨ ps ≠ []) :
      SpellsMantissa (ws ++ '.' :: ps) (natural ws + natural ps / 10 ^ ps.length)

inductive SpellsExponent : List Char → ℤ → Prop
  | absent : SpellsExponent [] 0
  | marked {mark : Char} {sign ds : List Char} {negative : Bool} (hm : mark = 'e' ∨ mark = 'E')
      (hs : SpellsSign sign negative) (hd : AreDigits ds) (hne : ds ≠ []) :
      SpellsExponent (mark :: (sign ++ ds)) (signed negative (natural ds))

/-- The text spells a sign, a mantissa and an exponent of ten. -/
inductive Spells : List Char → Bool → ℚ → ℤ → Prop
  | mk {sign mantissa exponent : List Char} {negative : Bool} {m : ℚ} {e : ℤ}
      (hs : SpellsSign sign negative) (hm : SpellsMantissa mantissa m)
      (he : SpellsExponent exponent e) : Spells (sign ++ (mantissa ++ exponent)) negative m e

/-! ## Digits -/

section Digits

variable {ds ws ps xs : List Char}

theorem natural_append (ws ps : List Char) :
    natural (ws ++ ps) = natural ws * 10 ^ ps.length + natural ps := by
  simp only [natural, List.reverse_append, List.map_append, Nat.ofDigits_append, List.length_map,
    List.length_reverse]
  ring

theorem natural_concat (ds : List Char) (c : Char) :
    natural (ds ++ [c]) = 10 * natural ds + digitValue c := by
  rw [natural_append]
  simp [natural, mul_comm]

theorem foldDigits_natural (ws ps : List Char) :
    foldDigits (natural ws) ps = natural (ws ++ ps) := by
  induction ps generalizing ws with
  | nil => simp [foldDigits]
  | cons c ps ih =>
    have hstep : foldDigits (natural ws) (c :: ps) = foldDigits (natural (ws ++ [c])) ps := by
      rw [natural_concat]
      rfl
    rw [hstep, ih, List.append_assoc]
    rfl

theorem digitValue_lt {c : Char} (h : c.isDigit = true) : digitValue c < 10 := by
  obtain ⟨-, hle⟩ : '0'.toNat ≤ c.toNat ∧ c.toNat ≤ '9'.toNat := by
    simpa [Char.isDigit, UInt32.le_iff_toNat_le] using h
  exact Nat.lt_succ_of_le (Nat.sub_le_sub_right hle _)

theorem natural_lt (hd : AreDigits ds) : natural ds < 10 ^ ds.length := by
  have hlt : ∀ d ∈ ds.reverse.map digitValue, d < 10 := by
    simp only [List.mem_map, List.mem_reverse]
    rintro _ ⟨c, hc, rfl⟩
    exact digitValue_lt (hd c hc)
  simpa [natural] using Nat.ofDigits_lt_base_pow_length (by decide) hlt

theorem foldExponent_eq (h : natural ds < exponentLimit) : foldExponent ds = natural ds := by
  induction ds using List.reverseRecOn with
  | nil => rfl
  | append_singleton ds c ih =>
    rw [natural_concat] at h
    -- Without its last digit the exponent is smaller, so this digit was not dropped.
    have hlt : natural ds < exponentLimit := by omega
    have hstep : foldExponent (ds ++ [c]) =
        if foldExponent ds < exponentLimit then 10 * foldExponent ds + digitValue c
        else foldExponent ds := by
      rw [foldExponent, List.foldl_append]
      rfl
    rw [hstep, ih hlt, if_pos hlt, natural_concat]

theorem takeWhile_digits (hd : AreDigits ds) (hx : ∀ c ∈ xs.head?, c.isDigit = false) :
    (ds ++ xs).takeWhile Char.isDigit = ds ∧ (ds ++ xs).dropWhile Char.isDigit = xs := by
  rw [List.takeWhile_append_of_pos hd, List.dropWhile_append_of_pos hd]
  cases xs with
  | nil => simp
  | cons c xs => simp [hx c rfl]

theorem areDigits_takeWhile (cs : List Char) : AreDigits (cs.takeWhile Char.isDigit) :=
  fun _ h => List.mem_takeWhile_imp h

end Digits

/-! ## Reading what is spelled -/

section Read

variable {sign body ds ws ps xs cs : List Char} {negative : Bool} {m : ℚ} {e : ℤ}

theorem splitSign_of_spells (hs : SpellsSign sign negative)
    (hb : ∀ c ∈ body.head?, c ≠ '+' ∧ c ≠ '-') : splitSign (sign ++ body) = (negative, body) := by
  cases hs with
  | plus => rfl
  | minus => rfl
  | absent =>
    cases body with
    | nil => rfl
    | cons c cs =>
      obtain ⟨hplus, hminus⟩ := hb c rfl
      simp [splitSign, hplus, hminus]

theorem ne_sign_of_isDigit {c : Char} (h : c.isDigit = true) : c ≠ '+' ∧ c ≠ '-' := by
  constructor <;> rintro rfl <;> exact absurd h (by decide)

theorem AreDigits.head?_ne_sign (hd : AreDigits ds) (hne : ds ≠ []) (xs : List Char) :
    ∀ c ∈ (ds ++ xs).head?, c ≠ '+' ∧ c ≠ '-' := by
  cases ds with
  | nil => exact absurd rfl hne
  | cons d ds =>
    rintro c ⟨⟩
    exact ne_sign_of_isDigit (hd d List.mem_cons_self)

theorem SpellsExponent.head? (h : SpellsExponent xs e) :
    ∀ c ∈ xs.head?, c.isDigit = false ∧ c ≠ '.' := by
  cases h with
  | absent => simp
  | marked hm =>
    rintro c ⟨⟩
    rcases hm with rfl | rfl <;> decide

theorem readExponent?_of_spells (h : SpellsExponent xs e) (hlimit : |e| < exponentLimit) :
    readExponent? xs = some e := by
  cases h with
  | absent => rfl
  | @marked mark sign ds negative hm hs hd hne =>
    have hsplit : splitSign (sign ++ ds) = (negative, ds) := by
      apply splitSign_of_spells hs
      simpa using hd.head?_ne_sign hne []
    have hnatural : natural ds < exponentLimit := by
      cases negative <;> simp [signed] at hlimit <;> exact_mod_cast hlimit
    have hall : ds.all Char.isDigit = true := List.all_eq_true.mpr hd
    cases negative <;> simp [readExponent?, hm, hsplit, hne, hall, foldExponent_eq hnatural, signed]

theorem size_eq_of_digits (ws ps : List Char) (negative : Bool) (e : ℤ) :
    Numeral.size ⟨negative, foldDigits (foldDigits 0 ws) ps, ps.length, e⟩ =
      (natural ws + natural ps / 10 ^ ps.length) * 10 ^ e := by
  have hws : foldDigits 0 ws = natural ws := foldDigits_natural [] ws
  rw [size, hws, foldDigits_natural, natural_append, zpow_sub₀ (by norm_num)]
  push_cast
  rw [zpow_natCast]
  field_simp

theorem read?_whole (hs : splitSign cs = (negative, ds ++ xs)) (hd : AreDigits ds) (hne : ds ≠ [])
    (hx : ∀ c ∈ xs.head?, c.isDigit = false ∧ c ≠ '.') :
    read? cs =
      (readExponent? xs).map (⟨negative, foldDigits (foldDigits 0 ds) [], 0, ·⟩) := by
  obtain ⟨htake, hdrop⟩ := takeWhile_digits hd fun c hc => (hx c hc).1
  have hempty : ds.isEmpty = false := by simpa using hne
  simp only [read?, hs, htake, hdrop, hempty]
  cases xs with
  | nil => rfl
  | cons c xs =>
    have hpoint : c ≠ '.' := (hx c rfl).2
    simp [hpoint]

theorem read?_pointed (hs : splitSign cs = (negative, ws ++ '.' :: (ps ++ xs)))
    (hw : AreDigits ws) (hp : AreDigits ps) (hne : ws ≠ [] ∨ ps ≠ [])
    (hx : ∀ c ∈ xs.head?, c.isDigit = false) :
    read? cs =
      (readExponent? xs).map (⟨negative, foldDigits (foldDigits 0 ws) ps, ps.length, ·⟩) := by
  have hpoint : ∀ c ∈ ('.' :: (ps ++ xs)).head?, c.isDigit = false := by
    rintro c ⟨⟩
    rfl
  obtain ⟨htake, hdrop⟩ := takeWhile_digits hw hpoint
  obtain ⟨htake', hdrop'⟩ := takeWhile_digits hp hx
  have hempty : (ws.isEmpty && ps.isEmpty) = false := by
    rcases hne with hne | hne <;> simp [hne]
  simp [read?, hs, htake, hdrop, htake', hdrop', hempty]

theorem exists_read?_of_spells (h : Spells cs negative m e) (hlimit : |e| < exponentLimit) :
    ∃ n, read? cs = some n ∧ n.negative = negative ∧ n.size = m * 10 ^ e := by
  obtain @⟨sign, mantissa, exponent, _, _, _, hs, hm, he⟩ := h
  have hread := readExponent?_of_spells he hlimit
  cases hm with
  | whole hd hne =>
    have hsplit := splitSign_of_spells hs (hd.head?_ne_sign hne exponent)
    rw [read?_whole hsplit hd hne he.head?, hread]
    have hnone : natural [] = 0 := rfl
    exact ⟨_, rfl, rfl, by simpa [hnone] using size_eq_of_digits mantissa [] negative e⟩
  | @pointed ws ps hw hp hne =>
    have hsplit : splitSign (sign ++ (ws ++ '.' :: ps ++ exponent)) =
        (negative, ws ++ '.' :: (ps ++ exponent)) := by
      rw [List.append_assoc]
      apply splitSign_of_spells hs
      cases ws with
      | nil => rintro c ⟨⟩; decide
      | cons w ws => exact hw.head?_ne_sign (by simp) _
    rw [read?_pointed hsplit hw hp hne fun c hc => (he.head? c hc).1, hread]
    exact ⟨_, rfl, rfl, size_eq_of_digits ws ps negative e⟩

/-! ## Spelling what is read -/

theorem spellsSign_splitSign (cs : List Char) :
    ∃ sign, SpellsSign sign (splitSign cs).1 ∧ cs = sign ++ (splitSign cs).2 := by
  unfold splitSign
  split
  · exact ⟨['-'], .minus, rfl⟩
  · exact ⟨['+'], .plus, rfl⟩
  · exact ⟨[], .absent, rfl⟩

theorem exists_spellsExponent (h : readExponent? xs = some e) : ∃ e', SpellsExponent xs e' := by
  cases xs with
  | nil => exact ⟨0, .absent⟩
  | cons mark cs =>
    obtain ⟨sign, hs, hcs⟩ := spellsSign_splitSign cs
    generalize hsplit : splitSign cs = split at hs hcs
    obtain ⟨negative, ds⟩ := split
    subst hcs
    rw [readExponent?] at h
    split at h
    next hm =>
      simp only [hsplit] at h
      split at h
      next => cases h
      next hds =>
        obtain ⟨hne, hall⟩ : ds ≠ [] ∧ ds.all Char.isDigit = true := by simpa using hds
        exact ⟨_, .marked hm hs (List.all_eq_true.mp hall) hne⟩
    next => cases h

theorem exists_spells_of_read? {n : Numeral} (h : read? cs = some n) :
    ∃ negative m e, Spells cs negative m e := by
  obtain ⟨sign, hs, hcs⟩ := spellsSign_splitSign cs
  generalize hsplit : splitSign cs = split at hs hcs
  obtain ⟨negative, body⟩ := split
  have hw := areDigits_takeWhile body
  have hbody := (List.takeWhile_append_dropWhile (p := Char.isDigit) (l := body)).symm
  simp only [read?, hsplit] at h
  -- From here on the text is the sign, the digits and the rest, put together.
  generalize body.takeWhile Char.isDigit = ws at *
  generalize body.dropWhile Char.isDigit = rest at *
  subst hcs hbody
  split at h
  next _ rest =>
    have hp := areDigits_takeWhile rest
    have hrest := (List.takeWhile_append_dropWhile (p := Char.isDigit) (l := rest)).symm
    generalize rest.takeWhile Char.isDigit = ps at *
    generalize rest.dropWhile Char.isDigit = xs at *
    subst hrest
    obtain ⟨hempty, h⟩ := Option.ite_none_left_eq_some.mp h
    obtain ⟨e, he, -⟩ := Option.map_eq_some_iff.mp h
    obtain ⟨e', he'⟩ := exists_spellsExponent he
    have hne : ws ≠ [] ∨ ps ≠ [] := imp_iff_not_or.mp (by simpa using hempty)
    have hspells := Spells.mk hs (.pointed hw hp hne) he'
    rw [List.append_assoc] at hspells
    exact ⟨_, _, _, hspells⟩
  next =>
    obtain ⟨hempty, h⟩ := Option.ite_none_left_eq_some.mp h
    obtain ⟨e, he, -⟩ := Option.map_eq_some_iff.mp h
    obtain ⟨e', he'⟩ := exists_spellsExponent he
    have hne : ws ≠ [] := by simpa using hempty
    exact ⟨_, _, _, .mk hs (.whole hw hne) he'⟩

end Read

/-! ## What is written in a spelling -/

section Written

variable {cs ds : List Char} {negative : Bool} {m : ℚ} {e : ℤ}

def IsNumeric (c : Char) : Prop := c.isDigit = true ∨ c ∈ ['+', '-', '.', 'e', 'E']

instance : DecidablePred IsNumeric :=
  fun c => inferInstanceAs (Decidable (c.isDigit = true ∨ c ∈ ['+', '-', '.', 'e', 'E']))

theorem AreDigits.isNumeric (h : AreDigits ds) : ∀ c ∈ ds, IsNumeric c :=
  fun c hc => .inl (h c hc)

theorem SpellsSign.isNumeric (h : SpellsSign cs negative) : ∀ c ∈ cs, IsNumeric c := by
  cases h <;> simp [IsNumeric]

theorem SpellsMantissa.isNumeric (h : SpellsMantissa cs m) : ∀ c ∈ cs, IsNumeric c := by
  cases h with
  | whole hd => exact hd.isNumeric
  | pointed hw hp =>
    simp only [List.forall_mem_append, List.forall_mem_cons]
    exact ⟨hw.isNumeric, by simp [IsNumeric], hp.isNumeric⟩

theorem SpellsExponent.isNumeric (h : SpellsExponent cs e) : ∀ c ∈ cs, IsNumeric c := by
  cases h with
  | absent => simp
  | marked hm hs hd =>
    simp only [List.forall_mem_cons, List.forall_mem_append]
    refine ⟨?_, hs.isNumeric, hd.isNumeric⟩
    rcases hm with rfl | rfl <;> simp [IsNumeric]

theorem Spells.isNumeric (h : Spells cs negative m e) : ∀ c ∈ cs, IsNumeric c := by
  obtain ⟨hs, hm, he⟩ := h
  simp only [List.forall_mem_append]
  exact ⟨hs.isNumeric, hm.isNumeric, he.isNumeric⟩

theorem SpellsMantissa.ne_nil (h : SpellsMantissa cs m) : cs ≠ [] := by
  cases h with
  | whole _ hne => exact hne
  | pointed => simp

theorem SpellsMantissa.nonneg (h : SpellsMantissa cs m) : 0 ≤ m := by
  cases h with
  | whole => exact Nat.cast_nonneg _
  | pointed => exact add_nonneg (Nat.cast_nonneg _) (div_nonneg (Nat.cast_nonneg _) (by norm_num))

theorem Spells.nonneg (h : Spells cs negative m e) : 0 ≤ m * 10 ^ e := by
  obtain ⟨-, hm, -⟩ := h
  exact mul_nonneg hm.nonneg (zpow_nonneg (by norm_num) e)

/-- No exponent that the text spells is beyond the limit. -/
def WithinLimit (cs : List Char) : Prop :=
  ∀ negative m e, Spells cs negative m e → |e| < exponentLimit

/-- A short text has no room for an exponent beyond the limit. -/
theorem withinLimit_of_length (h : cs.length ≤ 6) : WithinLimit cs := by
  rintro negative m e ⟨-, hm, he⟩
  -- The mantissa and the mark take two characters and leave four for digits.
  have hmantissa := List.length_pos_iff.mpr hm.ne_nil
  cases he with
  | absent => decide
  | @marked mark sign ds negative _ _ hd =>
    simp only [List.length_append, List.length_cons] at h
    have hlt : natural ds < exponentLimit :=
      (natural_lt hd).trans_le ((Nat.pow_le_pow_right (by decide)
        (show ds.length ≤ 4 by omega)).trans (by decide))
    cases negative <;> simpa [signed] using hlt

end Written

end Numeral

end Scriptlet
