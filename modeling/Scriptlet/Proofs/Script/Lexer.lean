import Scriptlet.Proofs.Script.NumberToken
import Scriptlet.Proofs.Script.StringToken
import Scriptlet.Proofs.Text.Slice
import Scriptlet.Proofs.Text.Word

/-! # The tokens of a script

The tokens stand one behind the other. Between them there is nothing but blanks, comments and
continued lines, and each of them covers the characters that its span tells: a word or a mark just
its own text. The last of them is the end of the script.
-/

namespace Scriptlet.Script

variable {cs taken rest : List Char}

theorem byteCount_eq (cs : List Char) : byteCount cs = (String.ofList cs).utf8ByteSize := by
  have hfold (bytes : Nat) : cs.foldl (fun bytes c => bytes + c.utf8Size) bytes =
      bytes + (String.ofList cs).utf8ByteSize := by
    induction cs generalizing bytes with
    | nil => simp
    | cons c cs ih => rw [List.foldl_cons, ih, String.ofList_cons]; simp [Nat.add_assoc]
  rw [byteCount, hfold, Nat.zero_add]

theorem byteCount_append (cs ds : List Char) :
    byteCount (cs ++ ds) = byteCount cs + byteCount ds := by
  simp [byteCount_eq]

theorem dropWord?_eq_some_iff {word : List Char} :
    dropWord? word cs = some rest ↔ cs = word ++ rest := by
  induction word generalizing cs with
  | nil => simp [dropWord?]
  | cons d word ih =>
    cases cs with
    | nil => simp [dropWord?]
    | cons c cs =>
      rw [dropWord?]
      split
      next h => simp [ih, h]
      next h => simp [h]

theorem pairwise_marks : marks.Pairwise fun m n => n.toList.length ≤ m.toList.length := by
  decide +kernel

theorem mark?_eq_some {lexeme : Lexeme} (h : mark? cs = some (lexeme, taken, rest)) :
    ∃ m ∈ marks, lexeme = .mark m ∧ taken = m.toList ∧ cs = taken ++ rest ∧
      ∀ n ∈ marks, n.toList <+: cs → n.toList.length ≤ taken.length := by
  obtain ⟨longer, m, shorter, hmarks, hm, hlonger⟩ := List.findSome?_eq_some_iff.mp h
  obtain ⟨rest', hrest, heq⟩ := Option.map_eq_some_iff.mp hm
  cases heq
  refine ⟨m, by simp [hmarks], rfl, rfl, dropWord?_eq_some_iff.mp hrest, fun n hn hprefix => ?_⟩
  have hsorted := pairwise_marks
  rw [hmarks, List.pairwise_append, List.pairwise_cons] at hsorted
  rw [hmarks, List.mem_append, List.mem_cons] at hn
  rcases hn with hn | rfl | hn
  · obtain ⟨others, rfl⟩ := hprefix
    have hnone := hlonger n hn
    rw [dropWord?_eq_some_iff.mpr rfl] at hnone
    cases hnone
  · exact Nat.le_refl _
  · exact hsorted.2.1.1 n hn

/-- The characters from which a word or a mark is read, and those behind it. It takes as many as it
can. Numbers and strings are told apart only by their class. -/
def Lexeme.Reads : Lexeme → List Char → List Char → Prop
  | word text, taken, rest => text.toList = taken ∧
      (∀ c ∈ taken.head?, Text.isWordStart c = true) ∧
      (∀ c ∈ taken, Text.isWordContinue c = true) ∧
      ∀ c ∈ rest.head?, Text.isWordContinue c = false
  | mark text, taken, rest => text.toList = taken ∧ text ∈ marks ∧
      ∀ n ∈ marks, n.toList <+: taken ++ rest → n.toList.length ≤ taken.length
  | finish, _, _ => False
  | _, _, _ => True

/-- What a lexeme takes from the front of a text, and what it leaves. -/
structure Lexeme.Takes (lexeme : Lexeme) (cs taken rest : List Char) : Prop where
  eq_append : cs = taken ++ rest
  ne_nil : taken ≠ []
  reads : lexeme.Reads taken rest

theorem mark_ne_nil {m : String} (h : m ∈ marks) : m.toList ≠ [] := by
  have hall : ∀ m ∈ marks, m.toList ≠ [] := by decide +kernel
  exact hall m h

theorem takes_plainLexeme? {lexeme : Lexeme} (h : plainLexeme? cs = some (lexeme, taken, rest)) :
    lexeme.Takes cs taken rest := by
  unfold plainLexeme? at h
  split at h
  next hnumber =>
    obtain ⟨hlexeme, htaken, hrest⟩ := by simpa only [Option.some.injEq, Prod.mk.injEq] using h
    subst htaken hrest
    refine ⟨(NumberToken.ofChars_append cs).symm, NumberToken.ofChars_ne_nil hnumber, ?_⟩
    rw [← hlexeme]
    split <;> trivial
  next =>
    split at h
    next c cs _ =>
      split at h
      next hstart =>
        rw [List.span_eq_takeWhile_dropWhile] at h
        cases h
        have hcontinue : ∀ d ∈ c :: cs.takeWhile Text.isWordContinue,
            Text.isWordContinue d = true :=
          List.forall_mem_cons.mpr ⟨Text.isWordContinue_of_isWordStart hstart,
            List.all_eq_true.mp List.all_takeWhile⟩
        refine ⟨by simp, List.cons_ne_nil _ _, String.toList_ofList, by simpa using hstart,
          hcontinue, fun d hd => ?_⟩
        have hnot := List.head?_dropWhile_not Text.isWordContinue cs
        rwa [Option.mem_def.mp hd] at hnot
      next =>
        obtain ⟨m, hm, rfl, rfl, hcs, hlongest⟩ := mark?_eq_some h
        exact ⟨hcs, mark_ne_nil hm, rfl, hm, hcs ▸ hlongest⟩
    next => cases h

theorem before_append (h : rest <:+ cs) : before cs rest ++ rest = cs := by
  obtain ⟨front, rfl⟩ := h
  simp [before]

def Lexeme.IsPart : Lexeme → Prop
  | string | opening | middle | closing | conversion => True
  | _ => False

theorem Lexeme.IsPart.takes_before {lexeme : Lexeme} (h : lexeme.IsPart) (hrest : Leaves cs rest) :
    lexeme.Takes cs (before cs rest) rest := by
  have happ := before_append hrest.1
  refine ⟨happ.symm, fun hnil => ?_, ?_⟩
  · rw [hnil, List.nil_append] at happ
    exact absurd hrest.2 (by simp [happ])
  · cases lexeme <;> trivial

namespace StringPart

variable {parts parts' : List StringPart} {lexeme : Lexeme}

theorem isPart_close? (h : close? parts cs = some (lexeme, parts', rest)) : lexeme.IsPart := by
  fun_induction close? parts cs with
  | case1 | case4 | case7 => cases h
  | case2 | case5 | case6 => cases h; trivial
  | case3 _ _ _ _ _ _ ih => exact ih h

theorem isPart_layout? (h : layout? parts cs = some (lexeme, parts', rest)) : lexeme.IsPart := by
  cases parts with
  | nil => cases h
  | cons part parts => exact isPart_close? h

theorem isPart_open? {quotes : Quotes} (h : open? parts quotes cs = some (lexeme, parts', rest)) :
    lexeme.IsPart := by
  simp only [open?, Option.map_eq_some_iff, Prod.exists] at h
  obtain ⟨edge, mid, -, heq⟩ := h
  cases edge <;> cases heq <;> trivial

end StringPart

section

variable {isHidden : Bool} {parts parts' : List StringPart} {read : List Token} {lexeme : Lexeme}

theorem partLexeme?_eq_some
    (h : partLexeme? parts read cs = some (some (lexeme, parts', rest))) :
    lexeme.IsPart ∧ Leaves cs rest := by
  unfold partLexeme? at h
  split at h
  next =>
    obtain h := Option.some.inj h
    exact ⟨StringPart.isPart_close? h, leaves_cons (StringPart.leaves_close? h).1⟩
  next =>
    split at h
    next => cases h; exact ⟨trivial, leaves_cons (List.suffix_cons _ _)⟩
    next => cases h
  next =>
    split at h
    next => cases h
    next =>
      obtain h := Option.some.inj h
      exact ⟨StringPart.isPart_layout? h, leaves_cons (StringPart.leaves_layout? h).1⟩
  next => cases h

theorem takes_lexeme? (h : lexeme? isHidden parts read cs = some (lexeme, parts', taken, rest)) :
    lexeme.Takes cs taken rest := by
  cases hwithin : if StringPart.isOutside parts then partLexeme? parts read cs else none with
  | some found =>
    simp only [lexeme?, hwithin, Option.map_eq_some_iff, Prod.exists, Prod.mk.injEq] at h
    obtain ⟨lexeme, parts', rest, rfl, rfl, rfl, rfl, rfl⟩ := h
    have hpart : partLexeme? parts read cs = some (some (lexeme, parts', rest)) := by
      split at hwithin
      · exact hwithin
      · cases hwithin
    exact (partLexeme?_eq_some hpart).1.takes_before (partLexeme?_eq_some hpart).2
  | none =>
    simp only [lexeme?, hwithin] at h
    split at h
    next heq => cases heq
    next quotes text _ hquotes =>
      split at h
      next => cases h
      next =>
        simp only [Option.map_eq_some_iff, Prod.exists, Prod.mk.injEq] at h
        obtain ⟨lexeme, parts', rest, hopen, rfl, rfl, rfl, rfl⟩ := h
        have hrest := (StringPart.leaves_open? hopen).of_suffix (Quotes.leaves_ofChars? hquotes).1
        exact (StringPart.isPart_open? hopen).takes_before hrest
    next =>
      simp only [Option.map_eq_some_iff, Prod.exists] at h
      obtain ⟨lexeme, taken, rest, hplain, heq⟩ := h
      have htakes := takes_plainLexeme? hplain
      split at heq <;> cases heq <;> exact htakes

end

/-- What may stand between two tokens. -/
inductive IsGap : List Char → Prop
  | blank {c : Char} (h : isGapBlank c = true) : IsGap [c]
  | comment {text : List Char} (h : ∀ c ∈ text, inComment c = true) : IsGap ('#' :: text)
  | continued {ending : List Char} (h : ending ∈ [['\n'], ['\r', '\n'], ['\x00']]) :
    IsGap ('\\' :: ending)

theorem IsGap.ne_nil (h : IsGap taken) : taken ≠ [] := by
  cases h <;> exact List.cons_ne_nil _ _

theorem isGapBlank_of_isPlainBlank {c : Char} (h : isPlainBlank c = true) :
    isGapBlank c = true := by
  simp only [isPlainBlank, Bool.or_eq_true, beq_iff_eq] at h
  rcases h with ((rfl | rfl) | rfl) | rfl <;> rfl

theorem Gap.pass?_eq_some {g g' : Gap} (h : g.pass? cs = some (g', taken, rest)) :
    cs = taken ++ rest ∧ IsGap taken := by
  unfold pass? at h
  split at h
  next => cases h; exact ⟨rfl, .continued (by simp)⟩
  next => cases h; exact ⟨rfl, .continued (by simp)⟩
  next => cases h; exact ⟨rfl, .continued (by simp)⟩
  next c cs _ _ _ =>
    split at h
    next hc => cases h; exact ⟨rfl, .blank (hc ▸ rfl)⟩
    next =>
      split at h
      next hc => cases h; exact ⟨rfl, .blank (isGapBlank_of_isPlainBlank hc)⟩
      next =>
        split at h
        next hc => cases h; exact ⟨rfl, .blank hc⟩
        next =>
          split at h
          next hc =>
            rw [List.span_eq_takeWhile_dropWhile] at h
            cases h
            exact ⟨by simp, hc ▸ .comment (List.all_eq_true.mp List.all_takeWhile)⟩
          next => cases h
  next => cases h

/-- The tokens cover a text that starts at an offset: each token stands on the characters of which
it is read, and between two of them there are only gaps. -/
inductive Covers : Nat → List Char → List Token → Prop
  | finish {offset : Nat} {newLine isApart : Bool} :
    Covers offset [] [⟨.finish, ⟨offset, offset⟩, newLine, isApart⟩]
  | gap {offset : Nat} {passed rest : List Char} {tokens : List Token} (h : IsGap passed)
    (later : Covers (offset + byteCount passed) rest tokens) :
    Covers offset (passed ++ rest) tokens
  | token {offset : Nat} {taken rest : List Char} {lexeme : Lexeme} {newLine isApart : Bool}
    {tokens : List Token} (h : lexeme.Takes (taken ++ rest) taken rest)
    (later : Covers (offset + byteCount taken) rest tokens) :
    Covers offset (taken ++ rest)
      (⟨lexeme, ⟨offset, offset + byteCount taken⟩, newLine, isApart⟩ :: tokens)

section

variable {fuel fuel' offset : Nat} {gap : Gap} {parts : List StringPart}
  {read tokens : List Token}

theorem covers_of_tokensFrom? (h : tokensFrom? fuel offset gap parts read cs = some tokens) :
    ∃ newer, tokens = read.reverse ++ newer ∧ Covers offset cs newer := by
  fun_induction tokensFrom? fuel offset gap parts read cs with
  | case1 => cases h
  | case2 =>
    cases h
    exact ⟨[_], List.reverse_cons, .finish⟩
  | case3 _ _ _ _ _ _ _ _ _ _ hpass ih =>
    obtain ⟨newer, htokens, hlater⟩ := ih h
    obtain ⟨hcs, hgap⟩ := Gap.pass?_eq_some hpass
    rw [hcs]
    exact ⟨newer, htokens, .gap hgap hlater⟩
  | case4 => cases h
  | case5 _ offset gap parts read _ _ _ lexeme _ taken rest hlexeme _ _ ih =>
    obtain ⟨newer, htokens, hlater⟩ := ih h
    have htakes := takes_lexeme? hlexeme
    have hcs := htakes.eq_append
    rw [hcs] at htakes ⊢
    exact ⟨_ :: newer, by simpa using htokens, .token htakes hlater⟩

theorem tokensFrom?_congr (h : cs.length < fuel) (h' : cs.length < fuel') :
    tokensFrom? fuel offset gap parts read cs = tokensFrom? fuel' offset gap parts read cs := by
  induction fuel generalizing fuel' offset gap parts read cs with
  | zero => omega
  | succ fuel ih =>
    obtain ⟨fuel', rfl⟩ := Nat.exists_eq_succ_of_ne_zero (Nat.ne_zero_of_lt h')
    have later {taken rest : List Char} (hcs : cs = taken ++ rest) (hne : taken ≠ [])
        {offset : Nat} {gap : Gap} {parts : List StringPart} {read : List Token} :
        tokensFrom? fuel offset gap parts read rest =
          tokensFrom? fuel' offset gap parts read rest := by
      have hlt : rest.length < cs.length := by
        rw [hcs, List.length_append]
        have := List.length_pos_iff.mpr hne
        omega
      exact ih (by omega) (by omega)
    cases cs with
    | nil => rfl
    | cons c cs =>
      simp only [tokensFrom?]
      split
      next hpass => exact later (Gap.pass?_eq_some hpass).1 (Gap.pass?_eq_some hpass).2.ne_nil
      next =>
        split
        next => rfl
        next hlexeme =>
          have htakes := takes_lexeme? hlexeme
          exact later htakes.eq_append htakes.ne_nil

/-- A script is covered up to its end; only a byte order mark may stand before that. -/
theorem covers_of_tokens? {source : String} (h : tokens? source = some tokens) :
    ∃ front cs, source.toList = front ++ cs ∧ front ∈ [[], ['\uFEFF']] ∧
      Covers (byteCount front) cs tokens := by
  unfold tokens? at h
  split at h
  next cs heq =>
    obtain ⟨newer, rfl, hcovers⟩ := covers_of_tokensFrom? h
    exact ⟨['\uFEFF'], cs, heq, by simp, hcovers⟩
  next =>
    obtain ⟨newer, rfl, hcovers⟩ := covers_of_tokensFrom? h
    exact ⟨[], source.toList, rfl, by simp, hcovers⟩

end

namespace Covers

variable {offset : Nat} {tokens : List Token}

theorem ordered (h : Covers offset cs tokens) :
    (∀ token ∈ tokens, offset ≤ token.span.start) ∧
      tokens.Pairwise fun first second => first.span.stop ≤ second.span.start := by
  induction h with
  | finish => simp
  | gap _ _ ih => exact ⟨fun token htoken => (Nat.le_add_right _ _).trans (ih.1 token htoken), ih.2⟩
  | token _ _ ih =>
    refine ⟨fun token htoken => ?_, List.pairwise_cons.mpr ih⟩
    rcases List.mem_cons.mp htoken with rfl | htoken
    · exact Nat.le_refl _
    · exact (Nat.le_add_right _ _).trans (ih.1 token htoken)

theorem ends (h : Covers offset cs tokens) :
    ∃ inner last, tokens = inner ++ [last] ∧ last.lexeme = .finish ∧
      last.span = ⟨offset + byteCount cs, offset + byteCount cs⟩ ∧
      ∀ token ∈ inner, token.lexeme ≠ .finish := by
  induction h with
  | finish => exact ⟨[], _, rfl, rfl, by simp [byteCount], by simp⟩
  | gap _ _ ih => simpa only [byteCount_append, Nat.add_assoc] using ih
  | @token offset taken rest lexeme _ _ _ h _ ih =>
    obtain ⟨inner, last, rfl, hlast, hspan, hinner⟩ := ih
    refine ⟨_ :: inner, last, rfl, hlast, ?_, fun token htoken => ?_⟩
    · rw [hspan, byteCount_append, Nat.add_assoc]
    · rcases List.mem_cons.mp htoken with rfl | htoken
      · rintro rfl
        exact h.reads
      · exact hinner token htoken

theorem slices (h : Covers offset cs tokens) {front : List Char}
    (hoffset : byteCount front = offset) {token : Token} (htoken : token ∈ tokens)
    (hne : token.lexeme ≠ .finish) :
    ∃ taken rest, token.lexeme.Takes (taken ++ rest) taken rest ∧
      token.span.slice? (String.ofList (front ++ cs)) = some (String.ofList taken) := by
  induction h generalizing front with
  | finish => simp_all
  | gap _ _ ih =>
    rw [← List.append_assoc]
    exact ih (by rw [byteCount_append, hoffset]) htoken
  | @token offset taken rest _ _ _ _ h _ ih =>
    rcases List.mem_cons.mp htoken with rfl | htoken
    · refine ⟨taken, rest, h, Span.slice?_eq_some_iff.mpr ⟨.ofList front, .ofList rest, ?_, ?_⟩⟩
      · simp only [String.ofList_append, String.append_assoc]
      · simp only [← hoffset, byteCount_eq, String.utf8ByteSize_append]
    · rw [← List.append_assoc]
      exact ih (by rw [byteCount_append, hoffset]) htoken

end Covers

section

variable {source : String} {tokens : List Token}

/-- No token begins before the one in front of it ends. -/
theorem pairwise_tokens? (h : tokens? source = some tokens) :
    tokens.Pairwise fun first second => first.span.stop ≤ second.span.start := by
  obtain ⟨front, cs, -, -, hcovers⟩ := covers_of_tokens? h
  exact hcovers.ordered.2

/-- The last token, and no other, is the end of the script. -/
theorem tokens?_eq_append (h : tokens? source = some tokens) :
    ∃ inner last, tokens = inner ++ [last] ∧ last.lexeme = .finish ∧
      last.span = ⟨source.utf8ByteSize, source.utf8ByteSize⟩ ∧
      ∀ token ∈ inner, token.lexeme ≠ .finish := by
  obtain ⟨front, cs, hsource, -, hcovers⟩ := covers_of_tokens? h
  have hsize : source.utf8ByteSize = byteCount front + byteCount cs := by
    rw [← byteCount_append, ← hsource, byteCount_eq, String.ofList_toList]
  rw [hsize]
  exact hcovers.ends

/-- Every other token has a text of its own, which its span cuts out of the script. -/
theorem takes_of_mem_tokens? (h : tokens? source = some tokens) {token : Token}
    (htoken : token ∈ tokens) (hne : token.lexeme ≠ .finish) :
    ∃ taken rest, token.lexeme.Takes (taken ++ rest) taken rest ∧
      token.span.slice? source = some (String.ofList taken) := by
  obtain ⟨front, cs, hsource, -, hcovers⟩ := covers_of_tokens? h
  have hslices := hcovers.slices rfl htoken hne
  rwa [← hsource, String.ofList_toList] at hslices

theorem slice?_of_mem_tokens? (h : tokens? source = some tokens) {token : Token}
    (htoken : token ∈ tokens) {text : String}
    (hlexeme : token.lexeme = .word text ∨ token.lexeme = .mark text) :
    token.span.slice? source = some text := by
  have hne : token.lexeme ≠ .finish := by
    rcases hlexeme with hlexeme | hlexeme <;> rw [hlexeme] <;> exact nofun
  obtain ⟨taken, rest, htakes, hslice⟩ := takes_of_mem_tokens? h htoken hne
  have htext : text.toList = taken := by
    have hreads := htakes.reads
    rcases hlexeme with hlexeme | hlexeme <;> rw [hlexeme] at hreads <;> exact hreads.1
  rw [hslice, ← htext, String.ofList_toList]

end

end Scriptlet.Script
