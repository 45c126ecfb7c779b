import Scriptlet.Proofs.Script.Parsing
import Scriptlet.Script.Phrase

/-! # The trees of expressions

The functions that read expressions call each other with fewer nested steps. If all of them return
trees built of tokens with some number of steps, so do they with one more.
-/

namespace Scriptlet.Script

open Parsing Phrase

namespace Phrase

structure Grows (fuel : Nat) : Prop where
  expression (ending : Ending) : (expression fuel ending).Yields Grown
  aliases {value : Node} (ending : Ending) (start : Nat) (h : Grown value) :
    (aliases fuel ending start value).Yields Grown
  operation (ending : Ending) (least : Nat) : (operation fuel ending least).Yields Grown
  operators {left : Node} (ending : Ending) (least start : Nat) (h : Grown left) :
    (operators fuel ending least start left).Yields Grown
  operand (ending : Ending) (least : Nat) : (operand fuel ending least).Yields Grown
  trailers {left : Node} (ending : Ending) (start : Nat) (h : Grown left) :
    (trailers fuel ending start left).Yields Grown
  trailer {left : Node} (ending : Ending) (start : Nat) (h : Grown left) :
    (trailer fuel ending start left).Yields fun whole => ∀ n ∈ whole, Grown n
  member {left : Node} (start : Nat) (h : Grown left) : (member fuel start left).Yields Grown
  starredOperand (ending : Ending) (start : Nat) :
    (starredOperand fuel ending start).Yields Grown
  starred (ending : Ending) : (starred fuel ending).Yields Grown
  atom (ending : Ending) : (atom fuel ending).Yields Grown
  element (ending : Ending) : (element fuel ending).Yields Grown
  braces (start : Nat) : (braces fuel start).Yields Grown
  argumentsFrom (isFirst isShared : Bool) :
    (argumentsFrom fuel isFirst isShared).Yields fun arguments => ∀ n ∈ arguments, Grown n
  argument (ending : Ending) (isShared : Bool) : (argument fuel ending isShared).Yields Grown
  yielded (ending : Ending) : (yielded fuel ending).Yields Grown
  series (ending : Ending) : (series fuel ending).Yields fun items => ∀ n ∈ items, Grown n

namespace Grows

variable {fuel : Nat}

theorem expression_succ (h : Grows fuel) (ending : Ending) :
    (Phrase.expression (fuel + 1) ending).Yields Grown := by
  rw [Phrase.expression]
  refine yields_then _ fun start => (h.operation _ _).bind fun first hfirst =>
    (h.aliases _ _ hfirst).bind fun value hvalue => yields_then _ fun hasCondition => ?_
  split
  · exact yields_then _ fun _ => yields_then _ fun _ => yields_then _ fun _ =>
      yields_wrap (by decide) hvalue
  · exact yields_pure hvalue

theorem aliases_succ (h : Grows fuel) {value : Node} (ending : Ending) (start : Nat)
    (hvalue : Grown value) : (Phrase.aliases (fuel + 1) ending start value).Yields Grown := by
  rw [Phrase.aliases]
  refine yields_then _ fun hasAlias => ?_
  split
  · exact yields_then _ fun _ => (yields_wrap (by decide) hvalue).bind fun _ hwhole =>
      h.aliases _ _ hwhole
  · exact yields_pure hvalue

theorem operation_succ (h : Grows fuel) (ending : Ending) (least : Nat) :
    (Phrase.operation (fuel + 1) ending least).Yields Grown := by
  rw [Phrase.operation]
  exact yields_then _ fun start => (h.operand _ _).bind fun first hfirst =>
    h.operators _ _ _ hfirst

theorem isLoose_of_binaryStrength? {symbol : String} {strength : Nat}
    (hs : (Lexeme.mark symbol).binaryStrength? = some strength) : IsLoose symbol := by
  unfold Lexeme.binaryStrength? at hs
  split at hs <;> simp_all <;> subst_vars <;> decide

theorem operators_wrap (h : Grows fuel) {left : Node} {kind : String} (hkind : IsLoose kind)
    (ending : Ending) (least start : Nat) (hleft : Grown left) :
    (node kind start [left] >>= Phrase.operators fuel ending least start).Yields Grown :=
  (yields_wrap hkind hleft).bind fun _ hwhole => h.operators _ _ _ hwhole

theorem operators_succ (h : Grows fuel) {left : Node} (ending : Ending) (least start : Nat)
    (hleft : Grown left) : (Phrase.operators (fuel + 1) ending least start left).Yields Grown := by
  rw [Phrase.operators]
  refine yields_then _ fun lexeme => yields_then _ fun second => ?_
  dsimp only
  split
  · exact yields_then _ fun _ => yields_then _ fun _ => h.operators_wrap (by decide) _ _ _ hleft
  split
  · exact yields_then _ fun _ => yields_then _ fun _ => h.operators_wrap (by decide) _ _ _ hleft
  split
  · exact yields_then _ fun _ => h.operators_wrap (by decide) _ _ _ hleft
  split
  next symbol strength hstrength =>
    split
    · refine (yields_leaf (isLoose_of_binaryStrength? hstrength)).bind fun operator hoperator =>
        (h.operation _ _).bind fun right hright => ?_
      have hparts : ∀ n ∈ [left, operator, right], Grown n := by simp [hleft, hoperator, hright]
      exact (yields_node (by decide : Fits _ 3) rfl hparts).bind fun _ hwhole =>
        h.operators _ _ _ hwhole
    · exact yields_pure hleft
  next => exact yields_pure hleft

theorem grown_atEnd {n : Node} (isStarred : Bool) (hn : Grown n) : Grown (atEnd isStarred n) := by
  unfold atEnd
  split
  · exact hn.renamed (by decide)
  split
  · exact hn.renamed (by decide)
  · exact hn

theorem operand_succ (h : Grows fuel) (ending : Ending) (least : Nat) :
    (Phrase.operand (fuel + 1) ending least).Yields Grown := by
  rw [Phrase.operand]
  refine yields_then _ fun start => yields_then _ fun lexeme => yields_then _ fun second => ?_
  split
  · exact yields_then _ fun _ => yields_then _ fun _ => yields_stub (by decide)
  split
  · exact yields_failure
  split
  · exact yields_then _ fun _ => yields_then _ fun _ => yields_then _ fun _ =>
      yields_stub (by decide)
  split
  · exact yields_then _ fun _ => yields_then _ fun _ => yields_stub (by decide)
  split
  · exact yields_then _ fun _ => yields_then _ fun _ => yields_stub (by decide)
  · have hend (isStarred : Bool) (word : Option String) {whole : Node} (hwhole : Grown whole) :
        Yields (do
          let reading ← get
          let isFar := reading.fork.isNone ∨ (word.isSome ∧ word ≠ some "print" ∧ isStarred)
          return if reading.endsScript ∧ isFar then atEnd isStarred whole else whole) Grown := by
      refine yields_then _ fun reading => yields_pure ?_
      split
      · exact grown_atEnd _ hwhole
      · exact hwhole
    refine yields_then _ fun word => ?_
    dsimp only
    split
    · exact (h.starredOperand _ _).bind fun _ hwhole => hend _ _ hwhole
    · exact (h.atom _).bind fun _ hfirst => (h.trailers _ _ hfirst).bind fun _ hwhole =>
        hend _ _ hwhole

theorem trailers_succ (h : Grows fuel) {left : Node} (ending : Ending) (start : Nat)
    (hleft : Grown left) : (Phrase.trailers (fuel + 1) ending start left).Yields Grown := by
  rw [Phrase.trailers]
  refine (h.trailer _ _ hleft).bind fun whole hwhole => ?_
  cases whole with
  | some whole => exact h.trailers _ _ (hwhole whole rfl)
  | none => exact yields_pure hleft

theorem trailer_succ (h : Grows fuel) {left : Node} (ending : Ending) (start : Nat)
    (hleft : Grown left) :
    (Phrase.trailer (fuel + 1) ending start left).Yields fun whole => ∀ n ∈ whole, Grown n := by
  rw [Phrase.trailer]
  have some_mem {n : Node} (hn : Grown n) : ∀ m ∈ some n, Grown m := by simpa using hn
  refine yields_then _ fun lexeme => ?_
  split
  · exact yields_then _ fun _ => yields_then _ fun _ =>
      (yields_wrap (by decide) hleft).map fun _ => some_mem
  · exact yields_then _ fun _ => yields_then _ fun _ =>
      (yields_wrap (by decide) hleft).map fun _ => some_mem
  · refine yields_then _ fun opening => yields_then _ fun _ => yields_then _ fun reading =>
      (h.argumentsFrom _ _).bind fun arguments harguments => ?_
    refine (yields_node (IsLoose.fits (by decide) _) rfl harguments).bind fun list hlist => ?_
    have hparts : ∀ n ∈ [left, list], Grown n := by simp [hleft, hlist]
    exact (yields_node (by decide : Fits _ 2) rfl hparts).map fun _ => some_mem
  · exact yields_pure (by simp)

theorem member_succ (h : Grows fuel) {left : Node} (start : Nat) (hleft : Grown left) :
    (Phrase.member (fuel + 1) start left).Yields Grown := by
  rw [Phrase.member]
  refine (h.trailer _ _ hleft).bind fun whole hwhole => ?_
  cases whole with
  | some whole =>
    dsimp only
    split
    · exact h.member _ (hwhole whole rfl)
    · exact yields_pure (hwhole whole rfl)
  | none => exact yields_failure

theorem starredOperand_succ (h : Grows fuel) (ending : Ending) (start : Nat) :
    (Phrase.starredOperand (fuel + 1) ending start).Yields Grown := by
  rw [Phrase.starredOperand]
  refine (h.starred _).bind fun first hfirst => (h.trailers _ _ hfirst).bind fun whole hwhole => ?_
  split
  · exact Yields.orElse ((h.member _ hwhole).bind fun reached hreached =>
      (yields_wrap (by decide) hreached).bind fun _ hsplat => h.trailers _ _ hsplat)
      (yields_pure hwhole)
  · exact yields_pure hwhole

theorem starred_succ (h : Grows fuel) (ending : Ending) :
    (Phrase.starred (fuel + 1) ending).Yields Grown := by
  rw [Phrase.starred]
  refine yields_then _ fun start => yields_then _ fun reading => yields_then _ fun _ =>
    yields_then _ fun inner => yields_then _ fun lexeme => ?_
  split
  · refine yields_then _ fun second => ?_
    split
    · exact yields_failure
    · refine yields_name.bind fun first hfirst => ?_
      dsimp only
      split
      · exact (Yields.orElse (h.member _ hfirst) (yields_pure hfirst)).bind fun _ hreached =>
          yields_wrap (by decide) hreached
      · exact (yields_pure hfirst).bind fun _ hreached => yields_wrap (by decide) hreached
  · dsimp only
    split
    · exact (h.starred _).bind fun _ hfirst => (h.member _ hfirst).bind fun _ hreached =>
        yields_wrap (by decide) hreached
    · exact (h.atom _).bind fun _ hfirst => (h.member _ hfirst).bind fun _ hreached =>
        yields_wrap (by decide) hreached

theorem isLoose_constant (text : String) :
    IsLoose ((Lexeme.word text).constant?.getD NodeKind.identifier.name) := by
  unfold Lexeme.constant?
  split <;> decide

theorem yields_inBrackets {inner : Node} (start : Nat) (hinner : Grown inner) :
    (inBrackets start inner).Yields Grown := by
  unfold inBrackets
  split
  · dsimp only
    split
    · exact yields_wrap (by decide) hinner
    · exact yields_wrap (by decide) hinner
  split
  · exact yields_wrap (by decide) hinner
  split
  · obtain ⟨-, hchildren⟩ := hinner
    exact yields_node (IsLoose.fits (by decide) _) rfl fun n hn =>
      hchildren n (List.mem_of_mem_take hn)
  · exact yields_stub (by decide)

theorem atom_succ (h : Grows fuel) (ending : Ending) :
    (Phrase.atom (fuel + 1) ending).Yields Grown := by
  have strings {start : Nat} : Yields (do
      Phrase.text fuel
      if (← peek ending).beginsString then
        Phrase.strings fuel ending
        node "concatenated_string" start []
      else node "string" start []) Grown := by
    refine yields_then _ fun _ => yields_then _ fun second => ?_
    split
    · exact yields_then _ fun _ => yields_stub (by decide)
    · exact yields_stub (by decide)
  rw [Phrase.atom]
  refine yields_then _ fun start => yields_then _ fun lexeme => ?_
  split
  next text => exact yields_leaf (isLoose_constant text)
  next => exact yields_leaf (by decide)
  next => exact yields_leaf (by decide)
  next => exact strings
  next => exact strings
  next => exact yields_leaf (by decide)
  next =>
    refine yields_then _ fun _ => yields_then _ fun isEmpty => ?_
    split
    · exact yields_stub (by decide)
    · refine (h.element _).bind fun first hfirst => yields_then _ fun isSingle => ?_
      split
      · exact yields_inBrackets _ hfirst
      · exact yields_then _ fun _ => yields_then _ fun _ => yields_stub (by decide)
  next => exact yields_then _ fun _ => yields_then _ fun _ => yields_stub (by decide)
  next => exact yields_then _ fun _ => h.braces _
  next => exact yields_failure

theorem element_succ (h : Grows fuel) (ending : Ending) :
    (Phrase.element (fuel + 1) ending).Yields Grown := by
  rw [Phrase.element]
  refine yields_then _ fun start => yields_then _ fun lexeme => ?_
  split
  · exact h.yielded _
  split
  · exact yields_then _ fun _ => (h.expression _).bind fun _ hinner =>
      yields_wrap (by decide) hinner
  · refine (h.expression _).bind fun whole hwhole => ?_
    split
    · exact yields_failure
    · exact yields_pure hwhole

theorem braces_succ (start : Nat) :
    (Phrase.braces (fuel + 1) start).Yields Grown := by
  rw [Phrase.braces]
  refine yields_then _ fun lexeme => ?_
  split
  · exact yields_then _ fun _ => yields_stub (by decide)
  · exact yields_then _ fun _ => yields_stub (by decide)
  · exact yields_then _ fun _ => yields_then _ fun _ => yields_stub (by decide)
  · refine yields_then _ fun first => yields_then _ fun second => ?_
    split
    · refine yields_then _ fun _ => yields_then _ fun _ => yields_then _ fun hasMore => ?_
      dsimp only
      split <;> exact yields_then _ fun _ => yields_stub (by decide)
    · refine yields_then _ fun hasMore => ?_
      dsimp only
      split <;> exact yields_then _ fun _ => yields_stub (by decide)

theorem argumentsFrom_succ (h : Grows fuel) (isFirst isShared : Bool) :
    (Phrase.argumentsFrom (fuel + 1) isFirst isShared).Yields fun arguments =>
      ∀ n ∈ arguments, Grown n := by
  rw [Phrase.argumentsFrom]
  refine yields_then _ fun isClosed => ?_
  split
  · exact yields_pure (by simp)
  refine yields_then _ fun second => ?_
  split
  · exact yields_then _ fun _ => yields_then _ fun _ => yields_pure (by simp)
  · refine (h.argument _ _).bind fun first hfirst => yields_then _ fun hasMore => ?_
    split
    · exact yields_cons hfirst (h.argumentsFrom _ _)
    · exact yields_then _ fun _ => yields_pure (List.forall_mem_singleton.mpr hfirst)

theorem grown_splat {n : Node} (start : Nat) (hn : Grown n) : Grown (splat start n) :=
  .node (IsLoose.fits (by decide) _) (List.forall_mem_singleton.mpr hn)

theorem grown_carryStar {n : Node} (start : Nat) (hn : Grown n) : Grown (carryStar start n) := by
  fun_induction carryStar start n with
  | case1 => exact grown_splat start hn
  | case2 _ _ _ _ _ _ _ _ _ _ ih =>
    obtain ⟨hkind, hchildren⟩ := hn
    obtain ⟨hfirst, hothers⟩ := List.forall_mem_cons.mp hchildren
    exact .node hkind (List.forall_mem_cons.mpr ⟨ih hfirst, hothers⟩)
  | case3 => exact grown_splat start hn

theorem argument_succ (h : Grows fuel) (ending : Ending) (isShared : Bool) :
    (Phrase.argument (fuel + 1) ending isShared).Yields Grown := by
  rw [Phrase.argument]
  refine yields_then _ fun start => yields_then _ fun lexeme => ?_
  split
  · exact yields_then _ fun _ => (h.expression _).bind fun _ hinner =>
      yields_wrap (by decide) hinner
  split
  · refine yields_then _ fun _ => (h.expression _).bind fun whole hwhole => ?_
    split
    · exact yields_pure (grown_carryStar _ hwhole)
    · exact yields_wrap (by decide) hwhole
  refine yields_then _ fun second => ?_
  split
  · exact yields_then _ fun _ => yields_then _ fun _ => (h.expression _).bind fun _ hinner =>
      yields_wrap (by decide) hinner
  · refine (h.expression _).bind fun whole hwhole => ?_
    split
    · exact yields_failure
    split
    · exact yields_pure (hwhole.renamed (by decide))
    · exact yields_pure hwhole

theorem yielded_succ (ending : Ending) : (Phrase.yielded (fuel + 1) ending).Yields Grown := by
  rw [Phrase.yielded]
  refine yields_then _ fun start => yields_then _ fun _ => yields_then _ fun isFrom => ?_
  dsimp only
  split
  · exact yields_then _ fun _ => yields_stub (by decide)
  · refine yields_then _ fun second => ?_
    split
    · exact yields_then _ fun _ => yields_stub (by decide)
    · exact yields_stub (by decide)

theorem series_succ (h : Grows fuel) (ending : Ending) :
    (Phrase.series (fuel + 1) ending).Yields fun items => ∀ n ∈ items, Grown n := by
  rw [Phrase.series]
  refine (h.expression _).bind fun first hfirst => yields_then _ fun lexeme => ?_
  split
  · refine (yields_leaf (by decide)).bind fun comma hcomma => yields_then _ fun second => ?_
    have hpair : ∀ n ∈ [first, comma], Grown n := by simp [hfirst, hcomma]
    have hmore {items : List Node} (hitems : ∀ n ∈ items, Grown n) :
        ∀ n ∈ first :: comma :: items, Grown n := by simpa [hfirst, hcomma] using hitems
    have later : Yields (do return first :: comma :: (← Phrase.series fuel ending.later))
        fun items => ∀ n ∈ items, Grown n :=
      (h.series _).bind fun _ hitems => yields_pure (hmore hitems)
    split
    · split
      · exact yields_pure hpair
      · exact later
    · split
      · exact later
      · exact yields_pure hpair
  · exact yields_pure (by simpa using hfirst)

theorem succ (h : Grows fuel) : Grows (fuel + 1) where
  expression := h.expression_succ
  aliases := h.aliases_succ
  operation := h.operation_succ
  operators := h.operators_succ
  operand := h.operand_succ
  trailers := h.trailers_succ
  trailer := h.trailer_succ
  member := h.member_succ
  starredOperand := h.starredOperand_succ
  starred := h.starred_succ
  atom := h.atom_succ
  element := h.element_succ
  braces := braces_succ
  argumentsFrom := h.argumentsFrom_succ
  argument := h.argument_succ
  yielded := yielded_succ
  series := h.series_succ

end Grows

theorem grows_zero : Grows 0 := by
  constructor <;> intros <;>
    simp only [expression, aliases, operation, operators, operand, trailers, trailer, member,
      starredOperand, starred, atom, element, braces, argumentsFrom, argument, yielded, series,
      yields_failure]

theorem grows (fuel : Nat) : Grows fuel := by
  induction fuel with
  | zero => exact grows_zero
  | succ fuel ih => exact ih.succ

end Phrase

end Scriptlet.Script
