import Mathlib.Data.List.Infix
import Scriptlet.Script.Lexer

/-! # How far numbers reach

Whatever is read of a number is moved, character by character, from the front of the text to what
the number takes. So the number and what follows it make up the text, and a number that starts with
a digit takes that digit at least.
-/

namespace Scriptlet.Script

namespace NumberToken

variable {taken cs : List Char}

/-- Characters are moved from the front of a text to those taken, which stand newest first. -/
def Moves (source target : List Char × List Char) : Prop :=
  ∃ moved, target.1 = moved ++ source.1 ∧ source.2 = moved.reverse ++ target.2

theorem Moves.refl (p : List Char × List Char) : Moves p p := ⟨[], rfl, rfl⟩

theorem Moves.trans {p q r : List Char × List Char} (hpq : Moves p q) (hqr : Moves q r) :
    Moves p r := by
  obtain ⟨first, hq, hp⟩ := hpq
  obtain ⟨second, hr, hq'⟩ := hqr
  exact ⟨second ++ first, by rw [hr, hq, List.append_assoc], by
    rw [hp, hq', List.reverse_append, List.append_assoc]⟩

/-- The older characters stay where they are. -/
theorem Moves.above {p q : List Char × List Char} (h : Moves p q) (older : List Char) :
    Moves (p.1 ++ older, p.2) (q.1 ++ older, q.2) := by
  obtain ⟨moved, hq, hp⟩ := h
  exact ⟨moved, by simp only [hq, List.append_assoc], hp⟩

theorem moves_cons (c : Char) : Moves (taken, c :: cs) (c :: taken, cs) := ⟨[c], rfl, rfl⟩

theorem moves_digits (taken : List Char) (afterDigit : Bool) (cs : List Char) :
    Moves (taken, cs) (digits taken afterDigit cs) := by
  fun_induction digits taken afterDigit cs with
  | case1 | case4 => exact .refl _
  | case2 _ _ c _ _ ih | case3 _ _ c _ _ _ ih => exact (moves_cons c).trans ih

theorem moves_radixDigits (isDigit : Char → Bool) (taken cs : List Char) :
    Moves (taken, cs) (radixDigits isDigit taken cs) := by
  fun_induction radixDigits isDigit taken cs with
  | case1 _ c _ _ ih => exact ((moves_cons '_').trans (moves_cons c)).trans ih
  | case3 _ c _ _ _ ih => exact (moves_cons c).trans ih
  | case2 | case4 | case5 => exact .refl _

theorem moves_optional (letters taken cs : List Char) :
    Moves (taken, cs) (optional letters taken cs) := by
  fun_cases optional letters taken cs with
  | case1 c => exact moves_cons c
  | case2 | case3 => exact .refl _

theorem moves_exponent? {p : List Char × List Char} (h : exponent? taken cs = some p) :
    Moves (taken, cs) p := by
  cases cs with
  | nil => cases h
  | cons c cs =>
    simp only [exponent?] at h
    split at h
    next =>
      split at h
      next => cases h
      next =>
        cases h
        exact ((moves_cons c).trans (moves_optional _ _ _)).trans (moves_digits _ _ _)
    next => cases h

def ends (number : NumberToken) : List Char × List Char := (number.taken.reverse, number.rest)

theorem ends_reverse (isFloat : Bool) (p : List Char × List Char) :
    (NumberToken.mk isFloat p.1.reverse p.2).ends = p := by
  simp only [ends, List.reverse_reverse]

theorem moves_floatEnd (taken cs : List Char) : Moves (taken, cs) (floatEnd taken cs).ends := by
  have hexp : Moves (taken, cs) ((exponent? taken cs).getD (taken, cs)) := by
    cases he : exponent? taken cs with
    | none => exact .refl _
    | some p => exact moves_exponent? he
  rw [floatEnd, ends_reverse]
  exact hexp.trans (moves_optional _ _ _)

theorem moves_decimal (cs : List Char) : Moves ([], cs) (decimal cs).ends := by
  have hdigits := moves_digits [] false cs
  unfold decimal
  split
  next heq =>
    rw [heq] at hdigits
    exact ((hdigits.trans (moves_cons '.')).trans (moves_digits _ _ _)).trans (moves_floatEnd _ _)
  next heq =>
    rw [heq] at hdigits
    split
    next => exact hdigits.trans (moves_floatEnd _ _)
    next =>
      rw [ends_reverse]
      exact hdigits.trans (moves_optional _ _ _)

theorem moves_ofChars (cs : List Char) : Moves ([], cs) (ofChars cs).ends := by
  fun_cases ofChars cs with
  | case1 | case2 | case4 => exact moves_decimal _
  | case3 letter rest isDigit _ taken rest' _ heq taken' rest'' hend =>
    have hdigits := moves_radixDigits isDigit [] rest
    have hend' := moves_optional ['l', 'L'] taken rest'
    rw [heq] at hdigits
    rw [hend] at hend'
    have hstart := (moves_cons '0').trans (@moves_cons ['0'] rest letter)
    have hall := hstart.trans ((hdigits.trans hend').above [letter, '0'])
    simpa [ends] using hall

theorem ofChars_append (cs : List Char) : (ofChars cs).taken ++ (ofChars cs).rest = cs := by
  obtain ⟨moved, htaken, hcs⟩ := moves_ofChars cs
  simp only [ends, List.append_nil, List.reverse_eq_iff] at htaken
  rw [htaken]
  exact hcs.symm

theorem Moves.ne_nil {p q : List Char × List Char} (h : Moves p q) (hp : p.1 ≠ []) :
    q.1 ≠ [] := by
  obtain ⟨moved, hq, -⟩ := h
  simp [hq, hp]

theorem decimal_ne_nil (h : startsNumber cs = true) : (decimal cs).ends.1 ≠ [] := by
  have hdigits : ∀ {c cs'}, cs = c :: cs' → c.isDigit = true → (digits [] false cs).1 ≠ [] := by
    rintro c cs' rfl hc
    rw [digits, if_pos hc]
    exact (moves_digits _ _ _).ne_nil (by simp)
  unfold decimal
  split
  next => exact ((moves_digits _ _ _).trans (moves_floatEnd _ _)).ne_nil (by simp)
  next taken rest hne heq =>
    have htaken : taken ≠ [] := by
      unfold startsNumber at h
      split at h
      next c cs' =>
        cases heq
        exact absurd rfl (hne _)
      next c cs' _ => simpa [heq] using hdigits rfl h
      next => cases h
    split
    next => exact (moves_floatEnd _ _).ne_nil htaken
    next =>
      rw [ends_reverse]
      exact (moves_optional _ _ _).ne_nil htaken

theorem ofChars_ne_nil (h : startsNumber cs = true) : (ofChars cs).taken ≠ [] := by
  have hdecimal : (decimal cs).taken ≠ [] := by simpa [ends] using decimal_ne_nil h
  revert hdecimal
  fun_cases ofChars cs with
  | case1 | case2 | case4 => exact id
  | case3 => simp

end NumberToken

end Scriptlet.Script
