import Scriptlet.Proofs.Reading.Fault
import Scriptlet.Proofs.Text.Boundary

/-! # Quoted source

What a syntax error quotes of the source. The snippet is the beginning of what can be seen in the
slice at the fault; it stands in the source right behind the leading blanks of the slice. A fault
of which nothing can be seen is told by its offset.
-/

namespace Scriptlet

namespace Text

/-- The text is a core between blanks; the core neither begins nor ends with a blank. -/
structure Trimmed (text lead core trail : String) : Prop where
  eq : text = lead ++ core ++ trail
  lead : ∀ c ∈ lead.toList, isBlank c = true
  trail : ∀ c ∈ trail.toList, isBlank c = true
  first : ∀ c ∈ core.toList.head?, isBlank c = false
  last : ∀ c ∈ core.toList.getLast?, isBlank c = false

theorem exists_blanks_trimLeft (cs : List Char) :
    ∃ lead, cs = lead ++ trimLeft cs ∧ (∀ c ∈ lead, isBlank c = true) ∧
      ∀ c ∈ (trimLeft cs).head?, isBlank c = false := by
  induction cs with
  | nil => exact ⟨[], rfl, by simp, by simp [trimLeft]⟩
  | cons b cs ih =>
    cases hb : isBlank b with
    | true =>
      have htrim : trimLeft (b :: cs) = trimLeft cs := List.dropWhile_cons_of_pos hb
      obtain ⟨lead, hcs, hlead, hfirst⟩ := ih
      rw [htrim]
      refine ⟨b :: lead, ?_, List.forall_mem_cons.mpr ⟨hb, hlead⟩, hfirst⟩
      rw [List.cons_append, ← hcs]
    | false =>
      have htrim : trimLeft (b :: cs) = b :: cs :=
        List.dropWhile_cons_of_neg (by simp [hb])
      rw [htrim]
      exact ⟨[], rfl, by simp, by simpa using hb⟩

theorem exists_trimmed (text : String) :
    ∃ lead trail, Trimmed text lead (String.ofList (trim text.toList)) trail := by
  obtain ⟨lead, htext, hlead, hfirst⟩ := exists_blanks_trimLeft text.toList
  obtain ⟨liart, hrest, htrail, hlast⟩ := exists_blanks_trimLeft (trimLeft text.toList).reverse
  -- The blanks behind are found from the end, where they are the leading ones.
  have hcore : trimLeft text.toList = trim text.toList ++ liart.reverse := by
    rw [← List.reverse_reverse (trimLeft text.toList), hrest, List.reverse_append]
    rfl
  refine ⟨String.ofList lead, String.ofList liart.reverse, ?_⟩
  constructor
  · rw [← String.ofList_append, ← String.ofList_append, List.append_assoc, ← hcore, ← htext,
      String.ofList_toList]
  · simpa using hlead
  · simpa using htrail
  · intro c hc
    rw [String.toList_ofList] at hc
    apply hfirst
    rw [hcore, List.head?_append, hc]
    rfl
  · simpa [trim] using hlast

theorem Trimmed.core_ne_empty_iff {text lead core trail : String}
    (h : Trimmed text lead core trail) :
    core.toList ≠ [] ↔ ∃ c ∈ text.toList, isBlank c = false := by
  rw [h.eq]
  constructor
  · intro hne
    obtain ⟨c, cs, hcore⟩ := List.exists_cons_of_ne_nil hne
    exact ⟨c, by simp [hcore], h.first c (by simp [hcore])⟩
  · rintro ⟨c, hc, hvisible⟩ hnone
    simp only [String.toList_append, hnone, List.append_nil, List.mem_append] at hc
    rcases hc with hc | hc
    · simp [h.lead c hc] at hvisible
    · simp [h.trail c hc] at hvisible

end Text

namespace Damage

open Text (IsBoundary Trimmed)

variable {source text : String} {span : Span}

/-- The span cuts out a slice that is not all blank. -/
def IsVisible (span : Span) (source : String) : Prop :=
  ∃ text, span.slice? source = some text ∧ ∃ c ∈ text.toList, Text.isBlank c = false

/-- The snippet quotes the source at the span: of the slice there, without the blanks around it, it
is the beginning, and it stands where the leading blanks end. -/
structure Quotes (source : String) (span : Span) (snippet : String) : Prop where
  ne_empty : snippet ≠ ""
  first : ∀ c ∈ snippet.toList.head?, Text.isBlank c = false
  place : ∃ text lead core trail, span.slice? source = some text ∧ Trimmed text lead core trail ∧
    snippet.length = min Limits.snippetLength core.length ∧
    ∃ stop ≤ span.stop, IsBoundary source stop ∧
      Span.slice? ⟨span.start + lead.utf8ByteSize, stop⟩ source = some snippet

theorem snippet?_eq (text : String) :
    snippet? text =
      if Text.trim text.toList = [] then none
      else some (String.ofList ((Text.trim text.toList).take Limits.snippetLength)) := by
  unfold snippet?
  generalize Text.trim text.toList = cs
  cases cs <;> rfl

theorem quotes_of_trimmed {lead core trail x rest : String} (hs : span.slice? source = some text)
    (ht : Trimmed text lead core trail) (hcore : core = x ++ rest) (hne : x ≠ "")
    (hlength : x.length = min Limits.snippetLength core.length) : Quotes source span x := by
  obtain ⟨before, after, rfl, rfl⟩ := Span.slice?_eq_some_iff.mp hs
  have hsplit : before ++ text ++ after = before ++ lead ++ x ++ (rest ++ trail ++ after) := by
    rw [ht.eq, hcore]
    simp only [String.append_assoc]
  constructor
  · exact hne
  · intro c hc
    apply ht.first
    rw [hcore, String.toList_append, List.head?_append, hc]
    rfl
  · refine ⟨text, lead, core, trail, hs, ht, hlength,
      (before ++ lead ++ x).utf8ByteSize, ?_, ?_, ?_⟩
    · rw [ht.eq, hcore]
      simp only [String.utf8ByteSize_append]
      omega
    · exact Text.isBoundary_iff.mpr ⟨_, _, hsplit, rfl⟩
    · rw [hsplit, ← String.utf8ByteSize_append]
      exact Span.slice?_append (before ++ lead) x _

theorem describe_of_isVisible (kind : String) (h : IsVisible span source) :
    ∃ x, describe false kind span source = near x ∧ Quotes source span x := by
  obtain ⟨text, hs, hvisible⟩ := h
  obtain ⟨lead, trail, ht⟩ := Text.exists_trimmed text
  have hne : Text.trim text.toList ≠ [] := by
    simpa using ht.core_ne_empty_iff.mpr hvisible
  have hdescribe : describe false kind span source =
      near (String.ofList ((Text.trim text.toList).take Limits.snippetLength)) := by
    simp [describe, hs, snippet?_eq, hne]
  have hcore : String.ofList (Text.trim text.toList) =
      String.ofList ((Text.trim text.toList).take Limits.snippetLength) ++
        String.ofList ((Text.trim text.toList).drop Limits.snippetLength) := by
    rw [← String.ofList_append, List.take_append_drop]
  refine ⟨_, hdescribe, quotes_of_trimmed hs ht hcore ?_ ?_⟩
  · simpa [Limits.snippetLength] using hne
  · simp

theorem describe_of_not_isVisible (kind : String) (h : ¬ IsVisible span source) :
    describe false kind span source = atByte span.start := by
  cases hs : span.slice? source with
  | none => simp [describe, hs]
  | some text =>
    obtain ⟨lead, trail, ht⟩ := Text.exists_trimmed text
    have hnone : Text.trim text.toList = [] := by
      by_contra hne
      refine h ⟨text, hs, ht.core_ne_empty_iff.mp ?_⟩
      rwa [String.toList_ofList]
    simp [describe, hs, snippet?_eq, hnone]

/-! ## Messages -/

theorem missing_ne_near (kind x : String) : (missing kind).message ≠ (near x).message := by
  intro h
  have htext : ("missing `" ++ kind ++ "`").toList = ("syntax error near `" ++ x ++ "`").toList :=
    congrArg String.toList h
  simp [String.toList_append] at htext

theorem missing_ne_atByte (kind : String) (i : Nat) :
    (missing kind).message ≠ (atByte i).message := by
  intro h
  have htext : ("missing `" ++ kind ++ "`").toList =
      ("syntax error at byte " ++ toString i).toList := congrArg String.toList h
  simp [String.toList_append] at htext

theorem near_ne_atByte (x : String) (i : Nat) : (near x).message ≠ (atByte i).message := by
  intro h
  have htext : ("syntax error near `" ++ x ++ "`").toList =
      ("syntax error at byte " ++ toString i).toList := congrArg String.toList h
  simp [String.toList_append] at htext

theorem near_inj {x y : String} : (near x).message = (near y).message ↔ x = y := by
  change "syntax error near `" ++ x ++ "`" = "syntax error near `" ++ y ++ "`" ↔ _
  simp

/-- What a syntax error at a node of this kind and span tells: which token is missing, or else what
the source shows at the span, or else, if it shows nothing, where the span starts. -/
structure Tells (isMissing : Bool) (kind : String) (span : Span) (source message : String) :
    Prop where
  missing_iff : message = "missing `" ++ kind ++ "`" ↔ isMissing = true
  near_iff : (∃ x, message = "syntax error near `" ++ x ++ "`") ↔
    isMissing = false ∧ IsVisible span source
  near : ∀ x, message = "syntax error near `" ++ x ++ "`" → Quotes source span x
  atByte_iff : message = "syntax error at byte " ++ toString span.start ↔
    isMissing = false ∧ ¬ IsVisible span source

theorem tells_describe (isMissing : Bool) (kind : String) (span : Span) (source : String) :
    Tells isMissing kind span source (describe isMissing kind span source).message := by
  cases isMissing with
  | true =>
    constructor
    · exact iff_of_true rfl rfl
    · apply iff_of_false _ (by simp)
      rintro ⟨x, h⟩
      exact missing_ne_near kind x h
    · intro x h
      exact absurd h (missing_ne_near kind x)
    · exact iff_of_false (missing_ne_atByte kind _) (by simp)
  | false =>
    by_cases hv : IsVisible span source
    · obtain ⟨x, hx, hquotes⟩ := describe_of_isVisible kind hv
      rw [hx]
      constructor
      · exact iff_of_false (missing_ne_near kind x).symm (by simp)
      · exact iff_of_true ⟨x, rfl⟩ ⟨rfl, hv⟩
      · intro y h
        exact near_inj.mp h ▸ hquotes
      · exact iff_of_false (near_ne_atByte x _) (by simp [hv])
    · rw [describe_of_not_isVisible kind hv]
      constructor
      · exact iff_of_false (missing_ne_atByte kind _).symm (by simp)
      · apply iff_of_false _ (by simp [hv])
        rintro ⟨x, h⟩
        exact near_ne_atByte x _ h.symm
      · intro x h
        exact absurd h.symm (near_ne_atByte x _)
      · exact iff_of_true rfl ⟨rfl, hv⟩

end Damage

/-- A tree is refused at its first fault, with a message that quotes the source there as far as it
shows anything. The message depends on the slice at the fault alone. -/
theorem fault_quotes_source {root n : Node} (h : root.IsFirstFault n) (source : String) :
    ∃ message, (lower root source).result = .error (.syntaxError message n.span) ∧
      Damage.Tells n.isMissing n.kind n.span source message ∧
      ∀ other, n.span.slice? other = n.span.slice? source →
        (lower root other).result = (lower root source).result := by
  have hfault := Node.firstFault?_eq_some_iff.mpr h
  refine ⟨_, result_lower_of_fault hfault source, Damage.tells_describe .., ?_⟩
  intro other hslice
  rw [result_lower_of_fault hfault, result_lower_of_fault hfault, Refusal.ofFault, Refusal.ofFault,
    Damage.describe, Damage.describe, hslice]

def wideFault : Node := ⟨"ERROR", "", ⟨1, 47⟩, [], true, false, false⟩

def wideTree : Node :=
  let name : Node := ⟨"identifier", "", ⟨0, 1⟩, [], true, false, false⟩
  let statement : Node := ⟨"expression_statement", "", ⟨0, 1⟩, [name], true, false, false⟩
  ⟨"module", "", ⟨0, 47⟩, [statement, wideFault], true, false, false⟩

/-- A name, a blank of three bytes, twenty-one letters of two bytes each, and a blank. The snippet
has twenty of the letters. -/
theorem fault_quotes_wideTree :
    wideTree.IsFirstFault wideFault ∧
    Damage.Tells false "ERROR" ⟨1, 47⟩ "a\u3000ééééééééééééééééééééé "
      "syntax error near `éééééééééééééééééééé`" ∧
    (lower wideTree "b\u3000ééééééééééééééééééééé ").result =
      (lower wideTree "a\u3000ééééééééééééééééééééé ").result := by
  have hfirst : wideTree.IsFirstFault wideFault :=
    ⟨wideTree.preorder.take 3, [], rfl, rfl, by decide⟩
  have hresult : (lower wideTree "a\u3000ééééééééééééééééééééé ").result =
      .error (.syntaxError "syntax error near `éééééééééééééééééééé`" ⟨1, 47⟩) := by decide +kernel
  obtain ⟨message, hmessage, htells, hslice⟩ :=
    fault_quotes_source hfirst "a\u3000ééééééééééééééééééééé "
  obtain ⟨rfl, -⟩ := Refusal.syntaxError.inj (Except.error.inj (hmessage.symm.trans hresult))
  exact ⟨hfirst, htells, hslice _ (by decide +kernel)⟩

end Scriptlet
