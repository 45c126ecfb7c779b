import Scriptlet.Proofs.Number.Finite
import Scriptlet.Proofs.Reading.Simulation

/-! # Number literals

A number is accepted just if its text spells one below the overflow bound, and it is rounded once.
How it is spelled does not matter, as long as no exponent is written that is beyond the limit: the
digits of an exponent are read only so far.
-/

namespace Scriptlet

namespace Walk

open Binary64 (overflow)

variable {w : Walker Cursor} {source text : String}

theorem run_number (ht : w.cursor.node.span.slice? source = some text) :
    ((number source).run w).1 =
      match Numeral.readFinite? text with
      | some b => .ok (.number b)
      | none => .error (.malformedLiteral text w.cursor.node.span) := by
  rw [(follows_number source w.cursor).result_eq, Node.toNumber, Node.slice_of_some ht, pure_bind]
  cases Numeral.readFinite? text <;> rfl

theorem run_expr_eq_run_number
    (hk : w.cursor.node.kind = NodeKind.integer.name ∨ w.cursor.node.kind = NodeKind.float.name) :
    ((expr source).run w).1 = ((number source).run w).1 := by
  rw [(follows_number source w.cursor).result_eq, (follows_expr source w.cursor).result_eq,
    Node.toExpr]
  rcases hk with hk | hk <;>
    rw [hk, NodeKind.ofName_name, Report.bind_of_ok (Report.result_note _)]

theorem run_number_eq_ok (ht : w.cursor.node.span.slice? source = some text) {b : Binary64} :
    ((number source).run w).1 = .ok (.number b) ↔ Numeral.readFinite? text = some b := by
  rw [run_number ht]
  cases Numeral.readFinite? text with
  | none => simp
  | some c => simp

/-- A number is accepted just if its text spells one below the overflow bound, and then it is the
one double that this is rounded to. Every other text is refused as it stands, among them all with a
character that no number is spelled with. Spellings of one number, if it is not zero, are all
accepted as the same double or all refused. -/
theorem number_correctly_rounded (ht : w.cursor.node.span.slice? source = some text)
    (hlimit : Numeral.WithinLimit text.toList) :
    let result := ((number source).run w).1
    let refused := Except.error (Refusal.malformedLiteral text w.cursor.node.span)
    (w.cursor.node.kind = NodeKind.integer.name ∨ w.cursor.node.kind = NodeKind.float.name →
      ((expr source).run w).1 = result) ∧
    (∀ negative m e, Numeral.Spells text.toList negative m e →
      |signed negative (m * 10 ^ e)| < overflow →
      ∃ b, result = .ok (.number b) ∧
        ∀ c : Binary64, c.Rounds negative (signed negative (m * 10 ^ e)) ↔ c = b) ∧
    ((∀ negative m e, Numeral.Spells text.toList negative m e →
      overflow ≤ |signed negative (m * 10 ^ e)|) → result = refused) ∧
    ((∃ c ∈ text.toList, ¬ Numeral.IsNumeric c) → result = refused) ∧
    (∀ (w' : Walker Cursor) (source' text' : String),
      w'.cursor.node.span.slice? source' = some text' →
      Numeral.WithinLimit text'.toList →
      ∀ negative m e negative' m' e', Numeral.Spells text.toList negative m e →
      Numeral.Spells text'.toList negative' m' e' →
      signed negative (m * 10 ^ e) = signed negative' (m' * 10 ^ e') →
      signed negative (m * 10 ^ e) ≠ 0 →
      ∀ b, ((number source').run w').1 = .ok (.number b) ↔ result = .ok (.number b)) := by
  intro result refused
  have hrefused (h : ∀ negative m e, Numeral.Spells text.toList negative m e →
      overflow ≤ |signed negative (m * 10 ^ e)|) : result = refused := by
    simp only [result, run_number ht, Numeral.readFinite?_eq_none hlimit h, refused]
  refine ⟨run_expr_eq_run_number, ?_, hrefused, ?_, ?_⟩
  · intro negative m e h hov
    obtain ⟨b, hb⟩ := Numeral.exists_rounding hlimit h hov
    refine ⟨b, (run_number_eq_ok ht).mpr hb, fun c => ?_⟩
    rw [← Option.some_inj, ← hb, eq_comm, Numeral.readFinite?_eq_some_iff hlimit h]
    exact (and_iff_right hov).symm
  · rintro ⟨c, hc, hnot⟩
    exact hrefused fun negative m e h => absurd (h.isNumeric c hc) hnot
  · intro w' source' text' ht' hlimit' negative m e negative' m' e' h h' heq hne b
    obtain rfl := eq_of_signed_eq h.nonneg h'.nonneg heq hne
    rw [run_number_eq_ok ht', run_number_eq_ok ht, Numeral.readFinite?_eq_some_iff hlimit' h',
      Numeral.readFinite?_eq_some_iff hlimit h, heq]

def literalWalker (source : String) : Walker Cursor :=
  .start (.ofRoot ⟨"float", "", ⟨0, source.utf8ByteSize⟩, [], true, false, false⟩)

/-- A tenth is rounded up, however it is spelled, and a separator is refused. -/
theorem number_correctly_rounded_tenth :
    let tenth : Binary64 := ⟨0x3FB999999999999A⟩
    ((expr "0.1").run (literalWalker "0.1")).1 = .ok (.number tenth) ∧
    tenth.Rounds false (1 / 10) ∧
    ((number "1e-1").run (literalWalker "1e-1")).1 = .ok (.number tenth) ∧
    ((number "1_0").run (literalWalker "1_0")).1 = .error (.malformedLiteral "1_0" ⟨0, 3⟩) := by
  intro tenth
  have hzero : Numeral.natural ['0'] = 0 := by decide
  have hone : Numeral.natural ['1'] = 1 := by decide
  have hzeros : Numeral.AreDigits ['0'] := by decide
  have hones : Numeral.AreDigits ['1'] := by decide
  have hdigits : Numeral.Spells "0.1".toList false (1 / 10) 0 := by
    have hm : Numeral.SpellsMantissa ['0', '.', '1'] (1 / 10) := by
      simpa [hzero, hone] using Numeral.SpellsMantissa.pointed hzeros hones (by decide)
    exact .mk .absent hm .absent
  have hpower : Numeral.Spells "1e-1".toList false 1 (-1) := by
    have hm : Numeral.SpellsMantissa ['1'] 1 := by
      simpa [hone] using Numeral.SpellsMantissa.whole hones (by decide)
    have he : Numeral.SpellsExponent ['e', '-', '1'] (-1) :=
      .marked (.inl rfl) .minus hones (by decide)
    exact .mk .absent hm he
  have htenth : (literalWalker "0.1").cursor.node.span.slice? "0.1" = some "0.1" := by
    decide +kernel
  have hseparated : (literalWalker "1_0").cursor.node.span.slice? "1_0" = some "1_0" := by
    decide +kernel
  have hresult : ((number "0.1").run (literalWalker "0.1")).1 = .ok (.number tenth) := by
    decide +kernel
  obtain ⟨hexpr, haccepted, -, -, hsame⟩ :=
    number_correctly_rounded htenth (Numeral.withinLimit_of_length (by decide))
  obtain ⟨-, -, -, hrefused, -⟩ :=
    number_correctly_rounded hseparated (Numeral.withinLimit_of_length (by decide))
  refine ⟨?_, ?_, ?_, ?_⟩
  · rw [hexpr (.inr rfl), hresult]
  · have hov : |signed false ((1 / 10 : ℚ) * 10 ^ (0 : ℤ))| < overflow :=
      lt_of_lt_of_le (by norm_num [signed]) Binary64.one_le_overflow
    obtain ⟨b, hb, hrounds⟩ := haccepted _ _ _ hdigits hov
    obtain rfl : tenth = b := Expr.number.inj (Except.ok.inj (hresult.symm.trans hb))
    simpa [signed] using (hrounds tenth).mpr rfl
  · refine (hsame (literalWalker "1e-1") "1e-1" "1e-1" (by decide +kernel)
      (Numeral.withinLimit_of_length (by decide)) _ _ _ _ _ _ hdigits hpower ?_ ?_ tenth).mpr
      hresult <;> norm_num [signed]
  · exact hrefused ⟨'_', by decide, by decide⟩

end Walk

end Scriptlet
