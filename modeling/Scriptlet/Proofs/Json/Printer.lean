import Scriptlet.Json.Printer
import Scriptlet.Proofs.Json.Reader
import Scriptlet.Proofs.Number.Spelling

/-! # What is printed is read back

The characters printed for a value are read as this value, whatever stands behind them. This needs
keys that do not repeat, and numbers in the form in which the reader gives them.
-/

namespace Scriptlet.Json

mutual

/-- Its numbers are such as they are read: not beyond the largest double, and with an exponent in
place of a point. -/
def isReadable : Json → Bool
  | .integer i => (Json.integer i).number?.any Binary64.isFinite
  | .decimal n =>
    n.places == 0 && decide (n.exponent.natAbs < Numeral.exponentLimit) && n.nearest.isFinite
  | .array items => areReadable items
  | .object members => haveReadable members
  | .null | .bool _ | .string _ => true

def areReadable : List Json → Bool
  | [] => true
  | item :: items => isReadable item && areReadable items

def haveReadable : List (String × Json) → Bool
  | [] => true
  | (_, value) :: members => isReadable value && haveReadable members

end

theorem isReadable_array {items : List Json} :
    (array items).isReadable = true ↔ ∀ item ∈ items, item.isReadable = true := by
  rw [isReadable]
  induction items with
  | nil => simp [areReadable]
  | cons item items ih => rw [areReadable, Bool.and_eq_true, ih, List.forall_mem_cons]

namespace Printer

open Reader Numeral

/-! ## The characters printed -/

def charText (c : Char) : List Char := (pushChar "" c).toList

def stringText (s : String) : List Char := '"' :: (s.toList.flatMap charText ++ ['"'])

mutual

def text : Json → List Char
  | .null => ['n', 'u', 'l', 'l']
  | .bool true => ['t', 'r', 'u', 'e']
  | .bool false => ['f', 'a', 'l', 's', 'e']
  | .integer value => (toString value).toList
  | .decimal value => (numeral value).toList
  | .string value => stringText value
  | .array items => '[' :: (itemsText true items ++ [']'])
  | .object members => '\x7b' :: (membersText true members ++ ['\x7d'])

def itemsText (first : Bool) : List Json → List Char
  | [] => []
  | item :: items => (if first then [] else [',']) ++ text item ++ itemsText false items

def membersText (first : Bool) : List (String × Json) → List Char
  | [] => []
  | (key, value) :: members =>
    (if first then [] else [',']) ++ stringText key ++
      ':' :: (text value ++ membersText false members)

end

theorem toList_pushChar (out : String) (c : Char) :
    (pushChar out c).toList = out.toList ++ charText c := by
  unfold charText pushChar
  split
  · simp
  · simp
  · split <;> simp

theorem toList_foldl_pushChar (cs : List Char) (out : String) :
    (cs.foldl pushChar out).toList = out.toList ++ cs.flatMap charText := by
  induction cs generalizing out with
  | nil => simp
  | cons c cs ih => rw [List.foldl_cons, ih, toList_pushChar, List.flatMap_cons, List.append_assoc]

theorem toList_pushString (out text : String) :
    (pushString out text).toList = out.toList ++ stringText text := by
  simp [pushString, stringText, toList_foldl_pushChar]

mutual

theorem toList_push (out : String) (v : Json) : (push out v).toList = out.toList ++ text v := by
  cases v with
  | null => simp [push, text]
  | bool value => cases value <;> simp [push, text]
  | integer value => simp [push, text]
  | decimal value => simp [push, text]
  | string value => rw [push, toList_pushString, text]
  | array items => simp [push, text, toList_pushItems]
  | object members => simp [push, text, toList_pushMembers]

theorem toList_pushItems (out : String) (first : Bool) (items : List Json) :
    (pushItems out first items).toList = out.toList ++ itemsText first items := by
  cases items with
  | nil => simp [pushItems, itemsText]
  | cons item items =>
    rw [pushItems, toList_pushItems, toList_push, itemsText]
    cases first <;> simp

theorem toList_pushMembers (out : String) (first : Bool) (members : List (String × Json)) :
    (pushMembers out first members).toList = out.toList ++ membersText first members := by
  cases members with
  | nil => simp [pushMembers, membersText]
  | cons m members =>
    obtain ⟨key, value⟩ := m
    rw [pushMembers, toList_pushMembers, toList_push, membersText]
    cases first <;> simp [toList_pushString]

end

/-! ## Strings -/

theorem hexValue?_hexDigit : ∀ d < 16, hexValue? (hexDigit d) = some d := by decide

theorem toList_hex (n : Nat) :
    (hex 4 n).toList = [hexDigit (n / 4096 % 16), hexDigit (n / 256 % 16),
      hexDigit (n / 16 % 16), hexDigit (n % 16)] := by
  simp [hex, List.range_succ]

theorem unit?_hex {n : Nat} (h : n < 65536) :
    unit? (hexDigit (n / 4096 % 16)) (hexDigit (n / 256 % 16)) (hexDigit (n / 16 % 16))
      (hexDigit (n % 16)) = some n := by
  have hdigit (k : Nat) : hexValue? (hexDigit (k % 16)) = some (k % 16) :=
    hexValue?_hexDigit _ (Nat.mod_lt _ (by decide))
  simp only [unit?, hdigit, Option.bind_eq_bind, Option.bind_some, Option.pure_def,
    Option.some.injEq]
  omega

theorem charText_of_escape {c : Char} (hq : c ≠ '"') (hb : c ≠ '\\') (h : needsEscape c = true) :
    charText c = '\\' :: 'u' :: (hex 4 c.toNat).toList := by
  simp [charText, pushChar, h]

theorem charText_of_plain {c : Char} (hq : c ≠ '"') (hb : c ≠ '\\') (h : needsEscape c = false) :
    charText c = [c] := by
  simp [charText, pushChar, h]

theorem string?_charText (read : List Char) (c : Char) (cs : List Char) :
    Reader.string? read none (charText c ++ cs) = Reader.string? (c :: read) none cs := by
  by_cases hq : c = '"'
  · subst hq
    rfl
  by_cases hb : c = '\\'
  · subst hb
    rfl
  cases h : needsEscape c with
  | true =>
    rw [charText_of_escape hq hb h, toList_hex]
    have hsmall : c.toNat < 0xD800 := by
      simp only [needsEscape, Bool.or_eq_true, Bool.and_eq_true, decide_eq_true_eq] at h
      omega
    have hunit := unit?_hex (n := c.toNat) (by omega)
    have hhigh : isHighSurrogate c.toNat = false := by simp [isHighSurrogate]; omega
    have hlow : isLowSurrogate c.toNat = false := by simp [isLowSurrogate]; omega
    simp only [List.cons_append, List.nil_append]
    rw [Reader.string?.eq_def]
    simp [hunit, hhigh, hlow]
  | false =>
    have hsmall : ¬ c.toNat < 0x20 := fun hlt => by simp [needsEscape, hlt] at h
    rw [charText_of_plain hq hb h, List.singleton_append, Reader.string?.eq_def]
    simp [hq, hb, hsmall]

theorem string?_stringText (s : String) (cs : List Char) :
    Reader.string? [] none (s.toList.flatMap charText ++ '"' :: cs) = some (s, cs) := by
  have hread (text read : List Char) :
      Reader.string? read none (text.flatMap charText ++ '"' :: cs) =
        some (String.ofList (read.reverse ++ text), cs) := by
    induction text generalizing read with
    | nil => 
      rw [List.append_nil]
      rfl
    | cons c text ih =>
      rw [List.flatMap_cons, List.append_assoc, string?_charText, ih, List.reverse_cons,
        List.append_assoc]
      rfl
  rw [hread]
  simp

/-! ## Numbers -/

theorem areDigits_toDigits (n : Nat) : AreDigits (Nat.toDigits 10 n) :=
  fun _ hc => Nat.isDigit_of_mem_toDigits (by decide) (by decide) hc

theorem toDigits_ne_nil (n : Nat) : Nat.toDigits 10 n ≠ [] :=
  List.length_pos_iff.mp Nat.length_toDigits_pos

theorem natural_toDigits (n : Nat) : natural (Nat.toDigits 10 n) = n :=
  (foldDigits_natural [] _).symm.trans (Nat.ofDigitChars_toDigits (by decide) (by decide))

theorem foldDigits_toDigits (n : Nat) : foldDigits 0 (Nat.toDigits 10 n) = n :=
  Nat.ofDigitChars_toDigits (by decide) (by decide)

/-- No number but zero is printed with a zero in front. -/
theorem head?_toDigits {n : Nat} (h : n ≠ 0) : (Nat.toDigits 10 n).head? ≠ some '0' := by
  induction n using Nat.strongRecOn with
  | ind n ih =>
    rw [Nat.toDigits_eq_if (by decide)]
    split
    next hlt => simpa [Nat.digitChar_eq_zero] using h
    next hge =>
      rw [List.head?_append_of_ne_nil _ (toDigits_ne_nil _)]
      exact ih (n / 10) (by omega) (by omega)

theorem digits?_append {ds xs : List Char} (hd : AreDigits ds) (hne : ds ≠ [])
    (hx : ∀ c ∈ xs.head?, c.isDigit = false) : digits? (ds ++ xs) = some (ds, xs) := by
  obtain ⟨htake, hdrop⟩ := takeWhile_digits hd hx
  rw [digits?, List.span_eq_takeWhile_dropWhile, htake, hdrop]
  simpa using hne

theorem whole?_toDigits (n : Nat) {xs : List Char} (hx : ∀ c ∈ xs.head?, c.isDigit = false) :
    whole? (Nat.toDigits 10 n ++ xs) = some (Nat.toDigits 10 n, xs) := by
  by_cases hn : n = 0
  · subst hn
    rfl
  · rw [← digits?_append (areDigits_toDigits n) (toDigits_ne_nil n) hx]
    have hhead := head?_toDigits hn
    unfold whole?
    split
    next heq =>
      rw [← List.head?_append_of_ne_nil _ (toDigits_ne_nil n), heq] at hhead
      exact absurd rfl hhead
    next => rfl

def signText (negative : Bool) : List Char := if negative then ['-'] else []

theorem toList_toString (i : Int) :
    (toString i).toList = signText (decide (i < 0)) ++ Nat.toDigits 10 i.natAbs := by
  cases i with
  | ofNat n => exact (congrArg String.toList Nat.repr_eq_ofList_toDigits).trans String.toList_ofList
  | negSucc n =>
    have htext : toString (Int.negSucc n) = "-" ++ (n + 1).repr := rfl
    rw [decide_eq_true (Int.negSucc_lt_zero n)]
    simp [htext, Nat.repr_eq_ofList_toDigits, signText, Int.natAbs_negSucc]

theorem splitMinus_signText (negative : Bool) {ds : List Char} (hd : AreDigits ds) (hne : ds ≠ [])
    (xs : List Char) : splitMinus (signText negative ++ (ds ++ xs)) = (negative, ds ++ xs) := by
  cases negative with
  | true => rfl
  | false =>
    have hsign := hd.head?_ne_sign hne xs
    change splitMinus (ds ++ xs) = _
    unfold splitMinus
    split
    next heq => exact absurd rfl (hsign '-' (by rw [heq]; rfl)).2
    next => rfl

theorem splitSign_signText (negative : Bool) {ds : List Char} (hd : AreDigits ds) (hne : ds ≠ [])
    (xs : List Char) : splitSign (signText negative ++ (ds ++ xs)) = (negative, ds ++ xs) := by
  refine splitSign_of_spells ?_ (hd.head?_ne_sign hne xs)
  cases negative with
  | true => exact .minus
  | false => exact .absent

/-- What stands behind a value: nothing, or a mark. -/
def Ends (rest : List Char) : Prop := ∀ c ∈ rest.head?, c = ',' ∨ c = ']' ∨ c = '\x7d'

variable {rest : List Char}

theorem Ends.head? (h : Ends rest) :
    ∀ c ∈ rest.head?, c.isDigit = false ∧ c ≠ '.' ∧ c ≠ 'e' ∧ c ≠ 'E' := by
  intro c hc
  rcases h c hc with rfl | rfl | rfl <;> decide

theorem places?_of_head? {xs : List Char} (hx : ∀ c ∈ xs.head?, c ≠ '.') :
    places? xs = some ([], xs) := by
  unfold places?
  split
  next => exact absurd rfl (hx '.' rfl)
  next => rfl

theorem exponent?_of_ends (h : Ends rest) : exponent? rest = some (none, rest) := by
  cases rest with
  | nil => rfl
  | cons c rest =>
    obtain ⟨-, -, he, hE⟩ := h.head? c rfl
    rw [exponent?, if_neg (by simp [he, hE])]

theorem exponent?_toString {e : Int} (he : e.natAbs < exponentLimit) (h : Ends rest) :
    exponent? ('e' :: ((toString e).toList ++ rest)) = some (some e, rest) := by
  have hdigits := areDigits_toDigits e.natAbs
  have hlimit : natural (Nat.toDigits 10 e.natAbs) < exponentLimit := by rwa [natural_toDigits]
  rw [exponent?, if_pos (.inl rfl), toList_toString, List.append_assoc,
    splitSign_signText _ hdigits (toDigits_ne_nil _)]
  dsimp only
  rw [digits?_append hdigits (toDigits_ne_nil _) fun c hc => (h.head? c hc).1, Option.map_some,
    foldExponent_eq hlimit, natural_toDigits]
  have hsign : (if decide (e < 0) = true then -(e.natAbs : Int) else e.natAbs) = e := by
    split <;> grind
  rw [hsign]

theorem number?_parts {negative : Bool} {n : Nat} {xs : List Char} {exponent : Option Int}
    {number : Json} (hx : ∀ c ∈ xs.head?, c.isDigit = false ∧ c ≠ '.')
    (hexponent : exponent? xs = some (exponent, rest))
    (hnumber : ofParts negative (Nat.toDigits 10 n) [] exponent = number)
    (hfinite : number.number?.any Binary64.isFinite = true) :
    Reader.number? (signText negative ++ (Nat.toDigits 10 n ++ xs)) = some (number, rest) := by
  have hminus := splitMinus_signText negative (areDigits_toDigits n) (toDigits_ne_nil n) xs
  refine Reader.number?_eq_some_iff.mpr ⟨Nat.toDigits 10 n, xs, [], xs, exponent, ?_,
    places?_of_head? fun c hc => (hx c hc).2, hexponent, ?_, hfinite⟩
  · rw [hminus]
    exact whole?_toDigits n fun c hc => (hx c hc).1
  · rw [hminus, hnumber]

theorem ofParts_toDigits (negative : Bool) (n : Nat) (exponent : Option Int) :
    ofParts negative (Nat.toDigits 10 n) [] exponent =
      if exponent.isNone && !(negative && n == 0) then .integer (if negative then -(n : Int) else n)
      else .decimal ⟨negative, n, 0, exponent.getD 0⟩ := by
  unfold ofParts
  rw [foldDigits_toDigits]
  rfl

theorem number?_integer {i : Int} (hfinite : (Json.integer i).number?.any Binary64.isFinite = true)
    (h : Ends rest) :
    Reader.number? ((toString i).toList ++ rest) = some (.integer i, rest) := by
  have hzero : (decide (i < 0) && i.natAbs == 0) = false := by grind
  have hvalue : (if decide (i < 0) = true then -(i.natAbs : Int) else i.natAbs) = i := by grind
  rw [toList_toString, List.append_assoc]
  refine number?_parts (fun c hc => ⟨(h.head? c hc).1, (h.head? c hc).2.1⟩) (exponent?_of_ends h) ?_
    hfinite
  rw [ofParts_toDigits, hzero, hvalue]
  rfl

theorem toList_numeral (n : Numeral) : (numeral n).toList =
    signText n.negative ++
      (Nat.toDigits 10 n.digits ++ 'e' :: (toString (n.exponent - n.places)).toList) := by
  unfold numeral
  cases n.negative <;> simp [signText]

theorem number?_numeral {n : Numeral} (hplaces : n.places = 0)
    (he : n.exponent.natAbs < exponentLimit) (hfinite : n.nearest.isFinite = true) (h : Ends rest) :
    Reader.number? ((numeral n).toList ++ rest) = some (.decimal n, rest) := by
  obtain ⟨negative, digits, places, exponent⟩ := n
  obtain rfl : places = 0 := hplaces
  have hscale : exponent - (0 : Nat) = exponent := Int.sub_zero exponent
  rw [toList_numeral, List.append_assoc, List.append_assoc, List.cons_append, hscale]
  refine number?_parts (by simp) (exponent?_toString he h) ?_ ?_
  · rw [ofParts_toDigits]
    rfl
  · simpa [Json.number?] using hfinite

/-! ## Steps of the reader -/

theorem skip_cons {c : Char} (h : isBlank c = false) (cs : List Char) :
    skip (c :: cs) = c :: cs := by
  rw [skip, List.dropWhile_cons_of_neg (by simp [h])]

theorem lastOfEach_of_nodup {members : List (String × Json)} (h : (members.map Prod.fst).Nodup) :
    lastOfEach members = members := by
  induction members with
  | nil => rfl
  | cons m members ih =>
    obtain ⟨hm, hrest⟩ := List.nodup_cons.mp h
    rw [lastOfEach_cons, ih hrest, if_neg]
    intro hany
    obtain ⟨m', hm', hkey⟩ := List.any_eq_true.mp hany
    exact hm (List.mem_map.mpr ⟨m', hm', eq_of_beq hkey⟩)

theorem isBlank_of_isDigit {c : Char} (h : c.isDigit = true) : isBlank c = false := by
  simp only [isBlank, Bool.or_eq_false_iff, beq_eq_false_iff_ne]
  refine ⟨⟨⟨?_, ?_⟩, ?_⟩, ?_⟩ <;> rintro rfl <;> exact absurd h (by decide)

/-- A value begins with a character that is no blank and does not close a list. -/
def Begins (cs : List Char) : Prop := ∃ c tail, cs = c :: tail ∧ isBlank c = false ∧ c ≠ ']'

section Steps

variable {fuel : Nat} {cs : List Char} {v : Json}

theorem value?_of_number {c : Char} (hc : c.isDigit = true ∨ c = '-') :
    Reader.value? (fuel + 1) (c :: cs) = Reader.number? (c :: cs) := by
  have hblank : isBlank c = false := by
    rcases hc with hc | rfl
    · exact isBlank_of_isDigit hc
    · decide
  rw [Reader.value?, skip_cons hblank]
  split <;> first | rfl | (next heq => cases heq; exact absurd hc (by decide))

theorem value?_array (hb : Begins cs) :
    Reader.value? (fuel + 1) ('[' :: cs) = Reader.items? fuel [] cs := by
  obtain ⟨c, tail, rfl, hblank, hne⟩ := hb
  simp only [Reader.value?, skip_cons (c := '[') rfl, skip_cons hblank]
  split
  next heq => cases heq; exact absurd rfl hne
  next => rfl

theorem value?_object (key : String) :
    Reader.value? (fuel + 1) ('\x7b' :: (stringText key ++ cs)) =
      members? fuel [] (stringText key ++ cs) :=
  rfl

theorem items?_last {read : List Json} (h : Reader.value? fuel cs = some (v, ']' :: rest)) :
    Reader.items? (fuel + 1) read cs = some (.array (v :: read).reverse, rest) := by
  rw [Reader.items?, h]
  rfl

theorem items?_more {read : List Json} (h : Reader.value? fuel cs = some (v, ',' :: rest)) :
    Reader.items? (fuel + 1) read cs = Reader.items? fuel (v :: read) rest := by
  rw [Reader.items?, h]
  rfl

theorem stringText_append (s : String) (cs : List Char) :
    stringText s ++ cs = '"' :: (s.toList.flatMap charText ++ '"' :: cs) := by
  rw [stringText, List.cons_append, List.append_assoc]
  rfl

theorem value?_string (s : String) :
    Reader.value? (fuel + 1) (stringText s ++ cs) = some (.string s, cs) := by
  rw [stringText_append]
  simp only [Reader.value?, skip_cons (c := '"') rfl, string?_stringText, Option.map_some]

theorem key?_text (key : String) (cs : List Char) :
    key? (stringText key ++ ':' :: cs) = some (key, cs) := by
  rw [stringText_append]
  simp only [key?, skip_cons (c := '"') rfl, string?_stringText, Option.bind_eq_bind,
    Option.bind_some, skip_cons (c := ':') rfl]

theorem members?_last {key : String} {read : List (String × Json)}
    (h : Reader.value? fuel cs = some (v, '\x7d' :: rest)) :
    members? (fuel + 1) read (stringText key ++ ':' :: cs) =
      some (.object (lastOfEach ((key, v) :: read).reverse), rest) := by
  rw [members?, key?_text]
  dsimp only
  rw [h]
  rfl

theorem members?_more {key : String} {read : List (String × Json)}
    (h : Reader.value? fuel cs = some (v, ',' :: rest)) :
    members? (fuel + 1) read (stringText key ++ ':' :: cs) =
      members? fuel ((key, v) :: read) rest := by
  rw [members?, key?_text]
  dsimp only
  rw [h]
  rfl

end Steps

/-! ## Values -/

theorem begins_toDigits (negative : Bool) (n : Nat) (xs : List Char) :
    ∃ c cs, signText negative ++ (Nat.toDigits 10 n ++ xs) = c :: cs ∧
      (c.isDigit = true ∨ c = '-') := by
  cases negative with
  | true => exact ⟨'-', _, rfl, .inr rfl⟩
  | false =>
    obtain ⟨c, cs, hcs⟩ := List.exists_cons_of_ne_nil (toDigits_ne_nil n)
    refine ⟨c, cs ++ xs, by rw [hcs]; rfl, .inl (areDigits_toDigits n c ?_)⟩
    rw [hcs]
    exact List.mem_cons_self

theorem text_integer (i : Int) (rest : List Char) :
    ∃ c cs, text (.integer i) ++ rest = c :: cs ∧ (c.isDigit = true ∨ c = '-') := by
  rw [text, toList_toString, List.append_assoc]
  exact begins_toDigits _ _ _

theorem text_decimal (n : Numeral) (rest : List Char) :
    ∃ c cs, text (.decimal n) ++ rest = c :: cs ∧ (c.isDigit = true ∨ c = '-') := by
  rw [text, toList_numeral, List.append_assoc, List.append_assoc]
  exact begins_toDigits _ _ _

theorem begins_text (v : Json) (rest : List Char) : Begins (text v ++ rest) := by
  have hnumber {c : Char} (hc : c.isDigit = true ∨ c = '-') : isBlank c = false ∧ c ≠ ']' := by
    rcases hc with hc | rfl
    · exact ⟨isBlank_of_isDigit hc, by rintro rfl; exact absurd hc (by decide)⟩
    · decide
  cases v with
  | null => exact ⟨'n', _, rfl, by decide, by decide⟩
  | bool value => cases value <;> exact ⟨_, _, rfl, by decide, by decide⟩
  | integer i =>
    obtain ⟨c, cs, htext, hc⟩ := text_integer i rest
    exact ⟨c, cs, htext, hnumber hc⟩
  | decimal n =>
    obtain ⟨c, cs, htext, hc⟩ := text_decimal n rest
    exact ⟨c, cs, htext, hnumber hc⟩
  | string s => exact ⟨'"', _, rfl, by decide, by decide⟩
  | array items => exact ⟨'[', _, rfl, by decide, by decide⟩
  | object members => exact ⟨'\x7b', _, rfl, by decide, by decide⟩

theorem ends_itemsText (items : List Json) (rest : List Char) :
    Ends (itemsText false items ++ ']' :: rest) := by
  cases items with
  | nil => rintro c ⟨⟩; exact .inr (.inl rfl)
  | cons item items => rintro c ⟨⟩; exact .inl rfl

theorem ends_membersText (members : List (String × Json)) (rest : List Char) :
    Ends (membersText false members ++ '\x7d' :: rest) := by
  cases members with
  | nil => rintro c ⟨⟩; exact .inr (.inr rfl)
  | cons item items => rintro c ⟨⟩; exact .inl rfl

theorem itemsText_append (item : Json) (items : List Json) (rest : List Char) :
    itemsText true (item :: items) ++ ']' :: rest =
      text item ++ (itemsText false items ++ ']' :: rest) :=
  List.append_assoc ..

theorem membersText_append (key : String) (value : Json) (members : List (String × Json))
    (rest : List Char) :
    membersText true ((key, value) :: members) ++ '\x7d' :: rest =
      stringText key ++ ':' :: (text value ++ (membersText false members ++ '\x7d' :: rest)) := by
  simp [membersText]

mutual

theorem value?_text (v : Json) (hkeys : v.isWellKeyed = true) (hnumbers : isReadable v = true)
    (rest : List Char) (hrest : Ends rest) (fuel : Nat)
    (hfuel : 2 * (text v ++ rest).length + 1 ≤ fuel) :
    Reader.value? fuel (text v ++ rest) = some (v, rest) := by
  obtain ⟨fuel, rfl⟩ := Nat.exists_eq_succ_of_ne_zero (by omega : fuel ≠ 0)
  cases v with
  | null => rfl
  | bool value => cases value <;> rfl
  | integer i =>
    obtain ⟨c, cs, htext, hc⟩ := text_integer i rest
    rw [htext, value?_of_number hc, ← htext]
    exact number?_integer hnumbers hrest
  | decimal n =>
    obtain ⟨c, cs, htext, hc⟩ := text_decimal n rest
    simp only [isReadable, Bool.and_eq_true, beq_iff_eq, decide_eq_true_eq] at hnumbers
    rw [htext, value?_of_number hc, ← htext]
    exact number?_numeral hnumbers.1.1 hnumbers.1.2 hnumbers.2 hrest
  | string s => exact value?_string s
  | array items =>
    cases items with
    | nil => rfl
    | cons item items =>
      have htext : text (.array (item :: items)) ++ rest =
          '[' :: (itemsText true (item :: items) ++ ']' :: rest) := by simp [text]
      have hbegins : Begins (itemsText true (item :: items) ++ ']' :: rest) := by
        rw [itemsText_append]
        exact begins_text item _
      rw [htext, List.length_cons] at hfuel
      rw [htext, value?_array hbegins,
        items?_text item items [] hkeys hnumbers rest fuel (by omega)]
      rfl
  | object members =>
    cases members with
    | nil => rfl
    | cons m members =>
      obtain ⟨hnodup, hvalues⟩ : ((m :: members).map Prod.fst).Nodup ∧
          haveWellKeyed (m :: members) = true := by
        simpa only [isWellKeyed, Bool.and_eq_true, decide_eq_true_eq] using hkeys
      have htext : text (.object (m :: members)) ++ rest =
          '\x7b' :: (membersText true (m :: members) ++ '\x7d' :: rest) := by simp [text]
      rw [htext, List.length_cons] at hfuel
      have hmembers := members?_text m members [] hvalues hnumbers rest fuel (by omega)
      rw [htext, membersText_append, value?_object, ← membersText_append, hmembers]
      rw [List.reverse_nil, List.nil_append, lastOfEach_of_nodup hnodup]
termination_by fuel

theorem items?_text (item : Json) (items read : List Json)
    (hkeys : areWellKeyed (item :: items) = true)
    (hnumbers : areReadable (item :: items) = true) (rest : List Char) (fuel : Nat)
    (hfuel : 2 * (itemsText true (item :: items) ++ ']' :: rest).length + 2 ≤ fuel) :
    Reader.items? fuel read (itemsText true (item :: items) ++ ']' :: rest) =
      some (.array (read.reverse ++ item :: items), rest) := by
  obtain ⟨fuel, rfl⟩ := Nat.exists_eq_succ_of_ne_zero (by omega : fuel ≠ 0)
  rw [areWellKeyed, Bool.and_eq_true] at hkeys
  rw [areReadable, Bool.and_eq_true] at hnumbers
  rw [itemsText_append] at hfuel ⊢
  have hitem := value?_text item hkeys.1 hnumbers.1 _ (ends_itemsText items rest) fuel (by omega)
  cases items with
  | nil => rw [items?_last hitem, List.reverse_cons]
  | cons next items =>
    have hlater : itemsText false (next :: items) ++ ']' :: rest =
        ',' :: (itemsText true (next :: items) ++ ']' :: rest) :=
      rfl
    rw [hlater] at hitem
    rw [hlater, List.length_append, List.length_cons] at hfuel
    rw [hlater, items?_more hitem,
      items?_text next items (item :: read) hkeys.2 hnumbers.2 rest fuel (by omega),
      List.reverse_cons, List.append_assoc]
    rfl
termination_by fuel

theorem members?_text (m : String × Json) (members read : List (String × Json))
    (hkeys : haveWellKeyed (m :: members) = true)
    (hnumbers : haveReadable (m :: members) = true) (rest : List Char) (fuel : Nat)
    (hfuel : 2 * (membersText true (m :: members) ++ '\x7d' :: rest).length + 2 ≤ fuel) :
    members? fuel read (membersText true (m :: members) ++ '\x7d' :: rest) =
      some (.object (lastOfEach (read.reverse ++ m :: members)), rest) := by
  obtain ⟨key, value⟩ := m
  obtain ⟨fuel, rfl⟩ := Nat.exists_eq_succ_of_ne_zero (by omega : fuel ≠ 0)
  rw [haveWellKeyed, Bool.and_eq_true] at hkeys
  rw [haveReadable, Bool.and_eq_true] at hnumbers
  rw [membersText_append] at hfuel ⊢
  rw [List.length_append, List.length_cons] at hfuel
  have hvalue := value?_text value hkeys.1 hnumbers.1 _ (ends_membersText members rest) fuel
    (by omega)
  cases members with
  | nil => rw [members?_last hvalue, List.reverse_cons]
  | cons next members =>
    have hlater : membersText false (next :: members) ++ '\x7d' :: rest =
        ',' :: (membersText true (next :: members) ++ '\x7d' :: rest) :=
      rfl
    rw [hlater] at hvalue
    rw [hlater, List.length_append, List.length_cons] at hfuel
    rw [hlater, members?_more hvalue,
      members?_text next members ((key, value) :: read) hkeys.2 hnumbers.2 rest fuel (by omega),
      List.reverse_cons, List.append_assoc]
    rfl
termination_by fuel

end

end Printer

/-- Every value without repeated keys and with numbers in the form that is read comes back from what
is printed of it. -/
theorem read?_print {v : Json} (hkeys : v.isWellKeyed = true) (hnumbers : v.isReadable = true) :
    read? (print v) = some v := by
  have htext : (print v).toList = Printer.text v := by simp [print, Printer.toList_push]
  refine (read?_eq_some_iff (Nat.le_refl _)).mpr ⟨[], ?_, rfl⟩
  rw [htext]
  have hread := Printer.value?_text v hkeys hnumbers [] nofun _ (Nat.le_refl _)
  rwa [List.append_nil] at hread

end Scriptlet.Json
