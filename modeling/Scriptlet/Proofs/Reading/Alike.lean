import Mathlib.Data.Option.Basic
import Scriptlet.Lowering.Program
import Scriptlet.Proofs.Reading.Follows

/-! # Walks with different cursors

Of a cursor a walk sees the node and the basic moves, and nothing of how the tree is stored. If
cursors of two types are related such that related ones show the same node and stay related under
every basic move, then walks from related cursors have the same result and log the same events.
-/

namespace Scriptlet

variable {κ μ : Type}

theorem eq_none_of_rel {α β : Type} {R : α → β → Prop} {b : Option β} (h : Option.Rel R none b) :
    b = none := by
  cases h; rfl

theorem exists_of_rel_some {α β : Type} {R : α → β → Prop} {a : α} {b : Option β}
    (h : Option.Rel R (some a) b) : ∃ x, b = some x ∧ R a x := by
  cases h with
  | some h => exact ⟨_, rfl, h⟩

namespace SyntaxCursor

variable [SyntaxCursor κ] [SyntaxCursor μ]

/-- Related cursors show the same node, and every basic move keeps them related. -/
structure Simulation (R : κ → μ → Prop) : Prop where
  kind {c : κ} {d : μ} : R c d → SyntaxCursor.kind c = SyntaxCursor.kind d
  span {c : κ} {d : μ} : R c d → SyntaxCursor.span c = SyntaxCursor.span d
  isNamed {c : κ} {d : μ} : R c d → SyntaxCursor.isNamed c = SyntaxCursor.isNamed d
  isExtra {c : κ} {d : μ} : R c d → SyntaxCursor.isExtra c = SyntaxCursor.isExtra d
  childCount {c : κ} {d : μ} : R c d → SyntaxCursor.childCount c = SyntaxCursor.childCount d
  height {c : κ} {d : μ} : R c d → SyntaxCursor.height c = SyntaxCursor.height d
  firstChild? {c : κ} {d : μ} :
    R c d → Option.Rel R (SyntaxCursor.firstChild? c) (SyntaxCursor.firstChild? d)
  nextSibling? {c : κ} {d : μ} :
    R c d → Option.Rel R (SyntaxCursor.nextSibling? c) (SyntaxCursor.nextSibling? d)
  parent? {c : κ} {d : μ} :
    R c d → Option.Rel R (SyntaxCursor.parent? c) (SyntaxCursor.parent? d)

namespace Simulation

variable {R : κ → μ → Prop} (h : Simulation R) {c : κ} {d : μ} (hcd : R c d)
include h hcd

theorem nodeKind : SyntaxCursor.nodeKind c = SyntaxCursor.nodeKind d :=
  congrArg NodeKind.ofName (h.kind hcd)

theorem isContent : SyntaxCursor.isContent c = SyntaxCursor.isContent d := by
  rw [SyntaxCursor.isContent, SyntaxCursor.isContent, h.isNamed hcd, h.isExtra hcd]

theorem nextSignificant :
    (SyntaxCursor.nextSignificant c).1 = (SyntaxCursor.nextSignificant d).1 ∧
      R (SyntaxCursor.nextSignificant c).2 (SyntaxCursor.nextSignificant d).2 := by
  fun_induction SyntaxCursor.nextSignificant c generalizing d with
  | case1 c hn =>
    have hmove := h.nextSibling? hcd
    rw [hn] at hmove
    rw [nextSignificant_of_none (eq_none_of_rel hmove)]
    exact ⟨rfl, hcd⟩
  | case2 c c' hn _ hx ih =>
    have hmove := h.nextSibling? hcd
    rw [hn] at hmove
    obtain ⟨d', hd, hcd'⟩ := exists_of_rel_some hmove
    rw [nextSignificant_of_some hd, if_pos ((h.isExtra hcd').symm.trans hx)]
    exact ih hcd'
  | case3 c c' hn _ hx =>
    have hmove := h.nextSibling? hcd
    rw [hn] at hmove
    obtain ⟨d', hd, hcd'⟩ := exists_of_rel_some hmove
    rw [nextSignificant_of_some hd, if_neg ((h.isExtra hcd') ▸ hx)]
    exact ⟨rfl, hcd'⟩

theorem climb : R ((SyntaxCursor.parent? c).getD c) ((SyntaxCursor.parent? d).getD d) := by
  have hup := h.parent? hcd
  generalize SyntaxCursor.parent? c = up, SyntaxCursor.parent? d = up' at hup ⊢
  cases hup with
  | none => exact hcd
  | some hup => exact hup

theorem firstSignificant :
    (SyntaxCursor.firstSignificant c).1 = (SyntaxCursor.firstSignificant d).1 ∧
      R (SyntaxCursor.firstSignificant c).2 (SyntaxCursor.firstSignificant d).2 := by
  have hmove := h.firstChild? hcd
  unfold SyntaxCursor.firstSignificant
  generalize SyntaxCursor.firstChild? c = child, SyntaxCursor.firstChild? d = child' at hmove ⊢
  cases hmove with
  | none => exact ⟨rfl, hcd⟩
  | @some e e' he =>
    dsimp only
    rw [h.isExtra he]
    obtain ⟨hfound, hnext⟩ := h.nextSignificant he
    generalize SyntaxCursor.nextSignificant e = p, SyntaxCursor.nextSignificant e' = q at *
    obtain ⟨found, f⟩ := p
    obtain ⟨_, f'⟩ := q
    obtain rfl : found = _ := hfound
    cases SyntaxCursor.isExtra e' with
    | false => exact ⟨rfl, he⟩
    | true =>
      cases found with
      | true => exact ⟨rfl, hnext⟩
      | false => exact ⟨rfl, h.climb hnext⟩

theorem root : R (SyntaxCursor.root c) (SyntaxCursor.root d) := by
  fun_induction SyntaxCursor.root c generalizing d with
  | case1 c hn =>
    have hmove := h.parent? hcd
    rw [hn] at hmove
    rwa [root_of_none (eq_none_of_rel hmove)]
  | case2 c c' hp _ ih =>
    have hmove := h.parent? hcd
    rw [hp] at hmove
    obtain ⟨d', hd, hcd'⟩ := exists_of_rel_some hmove
    rw [root_of_some hd]
    exact ih hcd'

end Simulation

end SyntaxCursor

/-- The cursors are related, and everything else is the same. -/
structure Walker.Alike (R : κ → μ → Prop) (w : Walker κ) (v : Walker μ) : Prop where
  cursor : R w.cursor v.cursor
  log : w.log = v.log
  missteps : w.missteps = v.missteps

namespace Walk

open SyntaxCursor (Simulation)

/-- From walkers that are alike both walks end alike: with values that `S` relates, or with the same
refusal. -/
def Alike {α β : Type} (R : κ → μ → Prop) (S : α → β → Prop) (x : Walk κ α) (y : Walk μ β) : Prop :=
  ∀ w v, Walker.Alike R w v →
    Agree S (x.run w).1 (y.run v).1 ∧ Walker.Alike R (x.run w).2 (y.run v).2

variable {R : κ → μ → Prop} {α β γ δ : Type} {S : α → β → Prop} {T : γ → δ → Prop}

theorem alike_pure {a : α} {b : β} (h : S a b) : Alike R S (pure a) (pure b) :=
  fun _ _ hw => ⟨.ok h, hw⟩

theorem alike_throw (r : Refusal) : Alike R S (throw r) (throw r) := fun _ _ hw => ⟨.error, hw⟩

theorem alike_bind {x : Walk κ α} {y : Walk μ β} {f : α → Walk κ γ} {g : β → Walk μ δ}
    (hx : Alike R S x y) (hf : ∀ a b, S a b → Alike R T (f a) (g b)) :
    Alike R T (x >>= f) (y >>= g) := by
  intro w v hw
  obtain ⟨hagree, hw'⟩ := hx w v hw
  rw [run_bind, run_bind]
  generalize x.run w = p, y.run v = q at hagree hw' ⊢
  obtain ⟨a, w'⟩ := p
  obtain ⟨b, v'⟩ := q
  cases hagree with
  | ok hab => exact hf _ _ hab w' v' hw'
  | error => exact ⟨.error, hw'⟩

theorem alike_map (f : α → β) {x : Walk κ α} {y : Walk μ α} (h : Alike R Eq x y) :
    Alike R Eq (f <$> x) (f <$> y) := by
  rw [map_eq_pure_bind, map_eq_pure_bind]
  exact alike_bind h fun _ _ hab => alike_pure (congrArg f hab)

theorem alike_throw_bind (r : Refusal) (f : α → Walk κ γ) (g : β → Walk μ δ) :
    Alike R T (throw r >>= f) (throw r >>= g) :=
  alike_bind (S := fun _ _ => False) (alike_throw r) fun _ _ h => h.elim

theorem alike_cursor : Alike R R cursor cursor := fun _ _ hw => ⟨.ok hw.cursor, hw⟩

theorem alike_goto {c : κ} {d : μ} (h : R c d) : Alike R Eq (goto c) (goto d) :=
  fun _ _ hw => ⟨.ok rfl, h, hw.log, hw.missteps⟩

theorem alike_note (e : Event) : Alike R Eq (note e) (note e) :=
  fun _ _ hw => ⟨.ok rfl, hw.cursor, congrArg (e :: ·) hw.log, hw.missteps⟩

variable [SyntaxCursor κ] [SyntaxCursor μ] (h : Simulation R)
include h

theorem alike_text (source : String) : Alike R Eq (text source) (text source) := by
  refine alike_bind alike_cursor fun c d hcd => ?_
  rw [h.span hcd]
  dsimp only
  cases (SyntaxCursor.span d).slice? source with
  | some t => exact alike_pure rfl
  | none => exact alike_throw _

theorem alike_unsupported : Alike R S unsupported unsupported := by
  refine alike_bind alike_cursor fun c d hcd => ?_
  rw [h.kind hcd, h.span hcd]
  exact alike_throw _

theorem alike_nextSibling : Alike R Eq nextSibling nextSibling := by
  refine alike_bind alike_cursor fun c d hcd => ?_
  have hmove := h.nextSibling? hcd
  generalize SyntaxCursor.nextSibling? c = e, SyntaxCursor.nextSibling? d = e' at hmove ⊢
  cases hmove with
  | none => exact alike_pure rfl
  | some he => exact alike_bind (alike_goto he) fun _ _ _ => alike_pure rfl

theorem alike_nextSignificant : Alike R Eq nextSignificant nextSignificant := by
  refine alike_bind alike_cursor fun c d hcd => ?_
  obtain ⟨hfound, hnext⟩ := h.nextSignificant hcd
  exact alike_bind (alike_goto hnext) fun _ _ _ => alike_pure hfound

theorem alike_enter (s : Shortage) (span : Span) : Alike R Eq (enter s span) (enter s span) := by
  refine alike_bind alike_cursor fun c d hcd => ?_
  obtain ⟨hfound, hnext⟩ := h.firstSignificant hcd
  dsimp only
  rw [hfound]
  refine alike_bind (alike_goto hnext) fun _ _ _ => ?_
  split
  · exact alike_throw _
  · exact alike_pure rfl

theorem alike_advance (s : Shortage) (span : Span) :
    Alike R Eq (advance s span) (advance s span) := by
  refine alike_bind (alike_nextSignificant h) ?_
  rintro found _ rfl
  split
  · exact alike_throw _
  · exact alike_pure rfl

theorem alike_leave : Alike R Eq leave leave := by
  refine alike_bind alike_cursor fun c d hcd => ?_
  have hmove := h.parent? hcd
  generalize SyntaxCursor.parent? c = e, SyntaxCursor.parent? d = e' at hmove ⊢
  cases hmove with
  | none => exact fun _ _ hw => ⟨.ok rfl, hw.cursor, hw.log, congrArg (· + 1) hw.missteps⟩
  | some he => exact alike_goto he

/-! ## Children -/

section Collect

variable {visit : Walk κ α} {visit' : Walk μ α} (hv : Alike R Eq visit visit')
include hv

theorem alike_collect (siblings : Nat) :
    Alike R Eq (collect visit siblings) (collect visit' siblings) := by
  induction siblings with
  | zero => exact alike_pure rfl
  | succ siblings ih =>
    have hrest (found : List α) : Alike R Eq
        (do if ← nextSibling then return found ++ (← collect visit siblings) else return found)
        (do
          if ← nextSibling then return found ++ (← collect visit' siblings) else return found) := by
      refine alike_bind (alike_nextSibling h) ?_
      rintro moved _ rfl
      split
      · refine alike_bind ih ?_
        rintro later _ rfl
        exact alike_pure rfl
      · exact alike_pure rfl
    refine alike_bind alike_cursor fun c d hcd => ?_
    rw [h.isContent hcd]
    split
    · refine alike_bind (alike_map _ hv) ?_
      rintro found _ rfl
      exact hrest found
    · exact hrest []

theorem alike_collectChildren : Alike R Eq (collectChildren visit) (collectChildren visit') := by
  refine alike_bind alike_cursor fun c d hcd => ?_
  have hmove := h.firstChild? hcd
  rw [h.childCount hcd]
  generalize SyntaxCursor.firstChild? c = e, SyntaxCursor.firstChild? d = e' at hmove ⊢
  cases hmove with
  | none => exact alike_pure rfl
  | some he =>
    refine alike_bind (alike_goto he) fun _ _ _ => ?_
    refine alike_bind (alike_collect h hv _) ?_
    rintro found _ rfl
    exact alike_bind (alike_leave h) fun _ _ _ => alike_pure rfl

end Collect

/-! ## Expressions, statements and programs -/

theorem alike_number (source : String) : Alike R Eq (number source) (number source) := by
  refine alike_bind alike_cursor fun c d hcd => ?_
  refine alike_bind (alike_text h source) ?_
  rintro text _ rfl
  rw [h.span hcd]
  cases Numeral.readFinite? text with
  | some value => exact alike_pure rfl
  | none => exact alike_throw _

theorem alike_identifier (source : String) :
    Alike R Eq (identifier source) (identifier source) := by
  refine alike_bind (alike_text h source) ?_
  rintro name _ rfl
  exact alike_pure rfl

theorem alike_binary {operand : Walk κ Expr} {operand' : Walk μ Expr}
    (ho : Alike R Eq operand operand') (source : String) :
    Alike R Eq (binary source operand) (binary source operand') := by
  refine alike_bind alike_cursor fun c d hcd => ?_
  dsimp only
  rw [h.span hcd]
  refine alike_bind (alike_enter h _ _) fun _ _ _ => ?_
  refine alike_bind ho ?_
  rintro left _ rfl
  refine alike_bind (alike_advance h _ _) fun _ _ _ => ?_
  refine alike_bind (alike_text h source) ?_
  rintro token _ rfl
  cases BinaryOp.ofSymbol? token with
  | none =>
    refine alike_bind alike_cursor fun e f hef => ?_
    rw [h.span hef]
    exact alike_throw _
  | some op =>
    refine alike_bind (alike_note _) fun _ _ _ => ?_
    refine alike_bind (alike_advance h _ _) fun _ _ _ => ?_
    refine alike_bind ho ?_
    rintro right _ rfl
    exact alike_bind (alike_leave h) fun _ _ _ => alike_pure rfl

theorem alike_require {p q : Prop} [Decidable p] [Decidable q] (hpq : p ↔ q)
    {f : Unit → Walk κ α} {g : Unit → Walk μ β} (hf : Alike R S (f ()) (g ())) :
    Alike R S (if p then unsupported >>= f else f ()) (if q then unsupported >>= g else g ()) := by
  by_cases hp : p
  · rw [if_pos hp, if_pos (hpq.mp hp)]
    exact alike_bind (S := fun _ _ => False) (alike_unsupported h) fun _ _ hfalse => hfalse.elim
  · rwa [if_neg hp, if_neg fun hq => hp (hpq.mpr hq)]

theorem alike_call {argument : Walk κ Expr} {argument' : Walk μ Expr}
    (ha : Alike R Eq argument argument') (source : String) :
    Alike R Eq (call source argument) (call source argument') := by
  refine alike_bind alike_cursor fun c d hcd => ?_
  dsimp only
  rw [h.span hcd]
  refine alike_bind (alike_enter h _ _) fun _ _ _ => ?_
  refine alike_bind alike_cursor fun e f hef => ?_
  refine alike_require h (by rw [h.nodeKind hef]) ?_
  refine alike_bind (alike_text h source) ?_
  rintro name _ rfl
  refine alike_bind (alike_advance h _ _) fun _ _ _ => ?_
  refine alike_bind alike_cursor fun e f hef => ?_
  refine alike_require h (by rw [h.nodeKind hef]) ?_
  refine alike_bind (alike_collectChildren h ha) ?_
  rintro arguments _ rfl
  refine alike_bind (alike_leave h) fun _ _ _ => ?_
  split
  · exact alike_pure rfl
  · exact alike_pure rfl
  · exact alike_throw _

theorem alike_exprBelow (source : String) (height : Nat) :
    Alike R Eq (exprBelow source height) (exprBelow source height) := by
  induction height with
  | zero => exact alike_unsupported h
  | succ height ih =>
    refine alike_bind alike_cursor fun c d hcd => ?_
    rw [h.kind hcd, h.span hcd]
    refine alike_bind (alike_note _) fun _ _ _ => ?_
    refine alike_bind alike_cursor fun e f hef => ?_
    rw [h.nodeKind hef]
    cases SyntaxCursor.nodeKind f with
    | integer | float => exact alike_number h source
    | identifier => exact alike_identifier h source
    | binaryOperator => exact alike_binary h ih source
    | call => exact alike_call h ih source
    | module | expressionStatement | assignment | argumentList | other =>
      exact alike_unsupported h

theorem alike_expr (source : String) : Alike R Eq (expr source) (expr source) := by
  refine alike_bind alike_cursor fun c d hcd => ?_
  rw [h.height hcd]
  exact alike_exprBelow h source _

theorem alike_define (source : String) : Alike R Eq (define source) (define source) := by
  refine alike_bind alike_cursor fun c d hcd => ?_
  dsimp only
  rw [h.span hcd]
  refine alike_bind (alike_enter h _ _) fun _ _ _ => ?_
  refine alike_bind alike_cursor fun e f hef => ?_
  refine alike_require h (by rw [h.nodeKind hef]) ?_
  refine alike_bind (alike_text h source) ?_
  rintro name _ rfl
  refine alike_bind (alike_advance h _ _) fun _ _ _ => ?_
  refine alike_bind alike_cursor fun e f hef => ?_
  refine alike_require h (by rw [h.kind hef]) ?_
  refine alike_bind (alike_advance h _ _) fun _ _ _ => ?_
  refine alike_bind (alike_expr h source) ?_
  rintro value _ rfl
  exact alike_bind (alike_leave h) fun _ _ _ => alike_pure rfl

theorem alike_expressionStatement (source : String) :
    Alike R Eq (expressionStatement source) (expressionStatement source) := by
  refine alike_bind alike_cursor fun c d hcd => ?_
  dsimp only
  rw [h.span hcd]
  refine alike_bind (alike_enter h _ _) fun _ _ _ => ?_
  have hend (stmt : Stmt) (span : Span) :
      let walk (κ : Type) [SyntaxCursor κ] : Walk κ Stmt := do
        if ← nextSignificant then throw (.unsupportedSyntax expressionList span)
        leave
        return stmt
      Alike R Eq (walk κ) (walk μ) := by
    refine alike_bind (alike_nextSignificant h) ?_
    rintro found _ rfl
    split
    · exact alike_throw_bind _ _ _
    · exact alike_bind (alike_leave h) fun _ _ _ => alike_pure rfl
  refine alike_bind alike_cursor fun e f hef => ?_
  rw [h.nodeKind hef]
  cases SyntaxCursor.nodeKind f with
  | assignment =>
    refine alike_bind (alike_define h source) ?_
    rintro stmt _ rfl
    exact hend stmt _
  | module | expressionStatement | integer | float | identifier | binaryOperator | call |
      argumentList | other =>
    refine alike_bind (alike_map Stmt.evaluate (alike_expr h source)) ?_
    rintro stmt _ rfl
    exact hend stmt _

theorem alike_stmt (source : String) : Alike R Eq (stmt source) (stmt source) := by
  refine alike_bind alike_cursor fun c d hcd => ?_
  rw [h.kind hcd, h.span hcd]
  refine alike_bind (alike_note _) fun _ _ _ => ?_
  refine alike_bind alike_cursor fun e f hef => ?_
  rw [h.nodeKind hef]
  cases SyntaxCursor.nodeKind f with
  | expressionStatement => exact alike_expressionStatement h source
  | assignment => exact alike_define h source
  | module | integer | float | identifier | binaryOperator | call | argumentList | other =>
    exact alike_unsupported h

theorem alike_program (source : String) : Alike R Eq (program source) (program source) := by
  refine alike_bind alike_cursor fun c d hcd => ?_
  have hroot := h.root hcd
  refine alike_bind (alike_goto hroot) fun _ _ _ => ?_
  have hmove := h.firstChild? hroot
  rw [h.childCount hroot]
  generalize SyntaxCursor.firstChild? (SyntaxCursor.root c) = e,
    SyntaxCursor.firstChild? (SyntaxCursor.root d) = e' at hmove ⊢
  cases hmove with
  | none => exact alike_pure rfl
  | some he =>
    refine alike_bind (alike_goto he) fun _ _ _ => ?_
    refine alike_bind (alike_collect h (alike_stmt h source) _) ?_
    rintro program _ rfl
    refine alike_bind alike_cursor fun f g hfg => ?_
    have hmove := h.parent? hfg
    generalize SyntaxCursor.parent? f = p, SyntaxCursor.parent? g = p' at hmove ⊢
    cases hmove with
    | none => exact alike_pure rfl
    | some hp => exact alike_bind (alike_goto hp) fun _ _ _ => alike_pure rfl

end Walk

/-- Sound trees at related cursors are lowered with the same report. -/
theorem SyntaxCursor.Simulation.lowerSound_eq [SyntaxCursor κ] [SyntaxCursor μ] {R : κ → μ → Prop}
    (h : Simulation R) {c : κ} {d : μ} (hcd : R c d) (origin : Origin) (source : String) :
    lowerSound origin c source = lowerSound origin d source := by
  obtain ⟨hagree, hw⟩ := Walk.alike_program h source (.start c) (.start d) ⟨hcd, rfl, rfl⟩
  unfold lowerSound
  generalize (Walk.program source).run (.start c) = p at hagree hw ⊢
  generalize (Walk.program source).run (.start d) = q at hagree hw ⊢
  obtain ⟨result, w⟩ := p
  obtain ⟨result', v⟩ := q
  have hlog : w.log = v.log := hw.log
  dsimp only at hagree ⊢
  rw [hlog]
  cases hagree with
  | ok hab => rw [hab]
  | error => rfl

end Scriptlet
