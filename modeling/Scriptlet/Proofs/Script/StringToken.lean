import Mathlib.Data.List.Infix
import Scriptlet.Script.StringPart

/-! # How far strings reach

What follows a string, or a piece of one, is what is left of the text when some characters are taken
from its front. So a string is read within as many stretches as the text has characters.
-/

namespace Scriptlet.Script

variable {c : Char} {cs mid rest : List Char}

/-- Some characters are taken from the front of a text, and the rest is left. -/
def Leaves (cs rest : List Char) : Prop := rest <:+ cs ∧ rest.length < cs.length

theorem leaves_cons (h : rest <:+ cs) : Leaves (c :: cs) rest :=
  ⟨h.trans (List.suffix_cons c cs), Nat.lt_succ_of_le h.length_le⟩

theorem Leaves.of_suffix (h : Leaves mid rest) (hm : mid <:+ cs) : Leaves cs rest :=
  ⟨h.1.trans hm, h.2.trans_le hm.length_le⟩

theorem Leaves.trans_suffix (h : Leaves cs mid) (hr : rest <:+ mid) : Leaves cs rest :=
  ⟨hr.trans h.1, hr.length_le.trans_lt h.2⟩

theorem leaves_dropWhile {p : Char → Bool} (h : cs.dropWhile p = c :: mid) (hr : rest <:+ mid) :
    Leaves cs rest :=
  (leaves_cons hr).of_suffix (h ▸ List.dropWhile_suffix p)

namespace Quotes

variable {q : Quotes}

theorem leaves_ofChars? (h : ofChars? cs = some (q, rest)) : Leaves cs rest := by
  simp only [ofChars?, List.span_eq_takeWhile_dropWhile] at h
  split at h
  next => cases h
  next c' others heq =>
    have hdrop {mid : List Char} (hm : mid <:+ others) : Leaves cs mid := leaves_dropWhile heq hm
    split at h
    next => cases h
    next =>
      split at h
      next d e others' =>
        split at h
        next =>
          cases h
          exact hdrop ((List.suffix_cons e _).trans (List.suffix_cons d _))
        next =>
          cases h
          exact hdrop List.suffix_rfl
      next =>
        cases h
        exact hdrop List.suffix_rfl

theorem pastLineEnd_suffix (cs : List Char) : pastLineEnd cs <:+ cs := by
  unfold pastLineEnd
  split
  next => exact (List.suffix_cons _ _).trans (List.suffix_cons _ _)
  next => exact List.suffix_cons _ _
  next => exact List.suffix_cons _ _
  next => exact List.suffix_rfl

theorem pastCovered_suffix (q : Quotes) (cs : List Char) : q.pastCovered cs <:+ cs := by
  cases cs with
  | nil => exact List.suffix_rfl
  | cons c rest =>
    refine (pastLineEnd_suffix _).trans ?_
    split
    · exact List.suffix_cons c rest
    · exact List.suffix_rfl

/-- What follows a stretch. Behind the closing quotes and behind text something is taken. -/
def Stretch.Leaves (cs : List Char) (hasText : Bool) : Stretch → Prop
  | closes rest => Script.Leaves cs rest
  | pauses hasMore rest =>
    rest <:+ cs ∧ (hasMore = true → hasText = true ∨ rest.length < cs.length)
  | breaks => True

theorem Stretch.Leaves.of_suffix {s : Stretch} {b : Bool} (h : s.Leaves mid b) (hm : mid <:+ cs)
    (hlt : mid.length < cs.length) (hasText : Bool) : s.Leaves cs hasText := by
  cases s with
  | closes rest => exact Script.Leaves.of_suffix h hm
  | pauses hasMore rest =>
    exact ⟨h.1.trans hm, fun _ => .inr (h.1.length_le.trans_lt hlt)⟩
  | breaks => trivial

theorem Stretch.leaves_pause {hasText : Bool} : (pauses hasText cs).Leaves cs hasText :=
  ⟨List.suffix_rfl, .inl⟩

theorem leaves_closing (q : Quotes) (c : Char) (cs : List Char) (hasText : Bool) :
    (q.closing cs).Leaves (c :: cs) hasText := by
  have paused {rest : List Char} (h : rest <:+ cs) :
      (Stretch.pauses true rest).Leaves (c :: cs) hasText :=
    ⟨(leaves_cons h).1, fun _ => .inr (leaves_cons h).2⟩
  unfold closing
  split
  next => exact leaves_cons List.suffix_rfl
  next =>
    split
    next d rest =>
      split
      next => exact paused List.suffix_rfl
      next =>
        split
        next e others =>
          split
          next => exact leaves_cons ((List.suffix_cons e _).trans (List.suffix_cons d _))
          next => exact paused (List.suffix_cons d _)
        next => exact paused (List.suffix_cons d _)
    next => exact paused List.suffix_rfl

theorem leaves_stretch (q : Quotes) (hasText : Bool) (cs : List Char) :
    (q.stretch hasText cs).Leaves cs hasText := by
  fun_induction stretch q hasText cs with
  | case1 | case2 | case6 | case12 => trivial
  | case3 | case5 | case7 | case9 | case10 => exact Stretch.leaves_pause
  | case4 _ rest _ _ _ _ ih =>
    have h : Leaves ('\\' :: rest) (q.pastCovered rest) := leaves_cons (q.pastCovered_suffix rest)
    exact ih.of_suffix h.1 h.2 _
  | case8 _ _ _ d e others _ _ _ ih =>
    have h : Leaves ('\\' :: d :: e :: others) others :=
      leaves_cons ((List.suffix_cons e _).trans (List.suffix_cons d _))
    exact ih.of_suffix h.1 h.2 _
  | case11 => exact q.leaves_closing _ _ _
  | case13 _ c rest _ _ _ _ _ ih =>
    exact ih.of_suffix (List.suffix_cons c rest) (Nat.lt_succ_self _) _

theorem pastDigits?_suffix {count : Nat} (h : pastDigits? count cs = some rest) : rest <:+ cs := by
  fun_induction pastDigits? count cs with
  | case1 => cases h; exact List.suffix_rfl
  | case2 _ c cs _ ih => exact (ih h).trans (List.suffix_cons c cs)
  | case3 | case4 => cases h

theorem pastOctal_suffix (count : Nat) (cs : List Char) : pastOctal count cs <:+ cs := by
  fun_induction pastOctal count cs with
  | case1 _ c cs _ ih => exact ih.trans (List.suffix_cons c cs)
  | case2 | case3 => exact List.suffix_rfl

theorem pastName?_suffix (h : pastName? cs = some rest) : rest <:+ cs := by
  unfold pastName? at h
  split at h
  next cs =>
    rw [List.span_eq_takeWhile_dropWhile] at h
    split at h
    next heq =>
      cases h
      obtain ⟨-, hdrop⟩ := Prod.mk.inj heq
      exact (leaves_cons (leaves_dropWhile hdrop List.suffix_rfl).1).1
    next => cases h
  next => cases h

theorem pastEscape_suffix (cs : List Char) : pastEscape cs <:+ cs := by
  have among {c : Char} {rest : List Char} {past : Option (List Char)}
      (h : ∀ others, past = some others → others <:+ rest) :
      past.getD (c :: rest) <:+ c :: rest := by
    cases past with
    | none => exact List.suffix_rfl
    | some others => exact (h others rfl).trans (List.suffix_cons c rest)
  unfold pastEscape
  split
  next => exact (List.suffix_cons _ _).trans (List.suffix_cons _ _)
  next => exact among fun _ => pastDigits?_suffix
  next => exact among fun _ => pastDigits?_suffix
  next => exact among fun _ => pastDigits?_suffix
  next => exact among fun _ => pastName?_suffix
  next c rest _ _ _ _ _ =>
    split
    · exact List.suffix_cons c rest
    · exact pastOctal_suffix 3 (c :: rest)
  next => exact List.suffix_rfl

theorem leaves_pastOther? {isPart : Bool} (h : q.pastOther? cs = some (isPart, rest)) :
    Leaves cs rest := by
  unfold pastOther? at h
  split at h
  next => cases h; exact leaves_cons (List.suffix_cons _ _)
  next => cases h; exact leaves_cons (List.suffix_cons _ _)
  next => cases h; exact leaves_cons (pastEscape_suffix _)
  next =>
    split at h
    next heq => cases h; exact leaves_dropWhile heq (List.dropWhile_suffix _)
    next heq => cases h; exact leaves_dropWhile heq (List.suffix_cons _ _)
    next heq =>
      cases h
      exact leaves_dropWhile heq ((List.suffix_cons _ _).trans (List.suffix_cons _ _))
    next heq => cases h; exact leaves_dropWhile heq (List.suffix_cons _ _)
    next heq => cases h; exact leaves_dropWhile heq List.suffix_rfl
    next => cases h

theorem edgeBehind?_congr {later? later?' : List Char → Option (Edge × List Char)}
    (h : ∀ rest, Leaves cs rest → later? rest = later?' rest) :
    q.edgeBehind? later? cs = q.edgeBehind? later?' cs := by
  have hstretch := q.leaves_stretch false cs
  unfold edgeBehind?
  cases hs : q.stretch false cs with
  | closes rest => rfl
  | pauses hasText rest =>
    cases hasText with
    | true =>
      rw [hs] at hstretch
      exact h rest ⟨hstretch.1, by simpa using hstretch.2⟩
    | false => grind [leaves_pastOther?]
  | breaks => grind [leaves_pastOther?]

/-- A text with fewer characters than there may be stretches is read to the end. -/
theorem edge?_congr {fuel fuel' : Nat} (h : cs.length < fuel) (h' : cs.length < fuel') :
    q.edge? fuel cs = q.edge? fuel' cs := by
  induction fuel generalizing fuel' cs with
  | zero => omega
  | succ fuel ih =>
    obtain ⟨fuel', rfl⟩ := Nat.exists_eq_succ_of_ne_zero (Nat.ne_zero_of_lt h')
    exact edgeBehind?_congr fun rest hrest =>
      ih (by have := hrest.2; omega) (by have := hrest.2; omega)

theorem piece?_eq (q : Quotes) (cs : List Char) : q.piece? cs = q.edgeBehind? q.piece? cs :=
  edgeBehind?_congr fun _ hrest => edge?_congr hrest.2 (Nat.lt_succ_self _)

theorem leaves_edgeBehind? {later? : List Char → Option (Edge × List Char)} {edge : Edge}
    (h : q.edgeBehind? later? cs = some (edge, rest))
    (hlater : ∀ {mid}, later? mid = some (edge, rest) → rest <:+ mid) : Leaves cs rest := by
  have hstretch := q.leaves_stretch false cs
  unfold edgeBehind? at h
  split at h
  next heq =>
    cases h
    rwa [heq] at hstretch
  next heq =>
    rw [heq] at hstretch
    exact Leaves.trans_suffix ⟨hstretch.1, by simpa using hstretch.2⟩ (hlater h)
  next =>
    split at h
    next heq =>
      cases h
      exact leaves_pastOther? heq
    next heq => exact (leaves_pastOther? heq).trans_suffix (hlater h)
    next => cases h

theorem leaves_edge? {fuel : Nat} {edge : Edge} (h : q.edge? fuel cs = some (edge, rest)) :
    Leaves cs rest := by
  induction fuel generalizing cs with
  | zero => cases h
  | succ fuel ih => exact leaves_edgeBehind? h fun hmid => (ih hmid).1

theorem leaves_piece? {edge : Edge} (h : q.piece? cs = some (edge, rest)) : Leaves cs rest :=
  leaves_edge? h

end Quotes

namespace StringPart

variable {parts parts' : List StringPart} {lexeme : Lexeme}

theorem leaves_close? (h : close? parts cs = some (lexeme, parts', rest)) : Leaves cs rest := by
  fun_induction close? parts cs with
  | case1 | case4 | case7 => cases h
  | case2 _ _ _ _ _ heq =>
    cases h
    exact leaves_dropWhile heq List.suffix_rfl
  | case3 _ _ _ _ _ heq ih => exact leaves_dropWhile heq (ih h).1
  | case5 _ _ _ _ _ heq | case6 _ _ _ _ _ heq =>
    cases h
    exact Quotes.leaves_piece? heq

theorem leaves_layout? (h : layout? parts cs = some (lexeme, parts', rest)) : Leaves cs rest := by
  cases parts with
  | nil => cases h
  | cons part parts => exact leaves_close? h

theorem leaves_open? {quotes : Quotes} (h : open? parts quotes cs = some (lexeme, parts', rest)) :
    Leaves cs rest := by
  simp only [open?, Option.map_eq_some_iff, Prod.exists] at h
  obtain ⟨edge, mid, hmid, heq⟩ := h
  cases edge <;> cases heq <;> exact Quotes.leaves_piece? hmid

end StringPart

end Scriptlet.Script
