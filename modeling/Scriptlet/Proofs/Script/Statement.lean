import Scriptlet.Proofs.Script.Phrase
import Scriptlet.Script.Statement

/-! # The trees of statements

Targets and statements are read with fewer nested steps in each call as well. So every tree that a
script is read to is built of its tokens.
-/

namespace Scriptlet.Script

open Parsing Phrase

namespace Target

theorem yields_reach (fuel : Nat) (ending : Ending) (start : Nat) {left : Node}
    (hleft : Grown left) : (reach fuel ending start left).Yields Grown := by
  induction fuel generalizing left with
  | zero =>
    rw [reach]
    exact yields_failure
  | succ fuel ih =>
    rw [reach]
    refine ((grows fuel).trailers _ _ hleft).bind fun whole hwhole => ?_
    split
    · exact yields_pure hwhole
    · exact ((grows fuel).member _ hwhole).bind fun _ hmember => ih hmember

theorem yields_plain (fuel : Nat) (ending : Ending) (position : Position) :
    (plain fuel ending position).Yields Grown := by
  have finish {whole : Node} (hwhole : Grown whole) : Yields (
      if !isPlain whole ∨ (position = .head ∧ continuesSplatTuple whole) then failure
      else if whole.kind = "list_splat" then return { whole with kind := "list_splat_pattern" }
      else return whole) Grown := by
    split
    · exact yields_failure
    split
    · exact yields_pure (hwhole.renamed (by decide))
    · exact yields_pure hwhole
  have goOn {first : Node} (start : Nat) (hfirst : Grown first) : Yields (do
      let whole ← if position.isShared then trailers fuel ending start first
        else reach fuel ending start first
      if !isPlain whole ∨ (position = .head ∧ continuesSplatTuple whole) then failure
      else if whole.kind = "list_splat" then return { whole with kind := "list_splat_pattern" }
      else return whole) Grown := by
    dsimp only
    split
    · exact ((grows fuel).trailers _ _ hfirst).bind fun _ => finish
    · exact (yields_reach _ _ _ hfirst).bind fun _ => finish
  unfold plain
  refine yields_then _ fun start => yields_then _ fun lexeme => yields_then _ fun second => ?_
  dsimp only
  split
  · exact yields_failure_then
  split
  · exact ((grows fuel).starredOperand _ _).bind fun _ => goOn start
  · exact ((grows fuel).atom _).bind fun _ => goOn start

mutual

theorem yields_target (fuel : Nat) (ending : Ending) (position : Position) :
    (target fuel ending position).Yields Grown := by
  cases fuel with
  | zero =>
    rw [target]
    exact yields_failure
  | succ fuel =>
    rw [target]
    refine yields_then _ fun start => yields_then _ fun isGroup => ?_
    split
    · refine yields_then _ fun token => ?_
      split <;> exact (yields_group fuel _ _).bind fun _ hitems =>
        yields_node (IsLoose.fits (by decide) _) rfl hitems
    · refine yields_then _ fun lexeme => yields_then _ fun second => ?_
      dsimp only
      split
      · exact yields_failure
      · exact yields_plain _ _ _

theorem yields_group (fuel : Nat) (last : Lexeme) (position : Position) :
    (group fuel last position).Yields fun items => ∀ n ∈ items, Grown n := by
  cases fuel with
  | zero =>
    rw [group]
    exact yields_failure
  | succ fuel =>
    rw [group]
    refine yields_then _ fun isClosed => ?_
    split
    · exact yields_pure (List.forall_mem_nil _)
    · refine (yields_target fuel _ _).bind fun first hfirst => yields_then _ fun second => ?_
      split
      · refine (yields_leaf (by decide)).bind fun comma hcomma => yields_then _ fun isLast => ?_
        split
        · exact yields_pure (by simp [hfirst, hcomma])
        · exact yields_cons hfirst (yields_group fuel _ _)
      · exact yields_then _ fun _ => yields_pure (List.forall_mem_singleton.mpr hfirst)

end

theorem yields_others (fuel : Nat) (ending : Ending) :
    (others fuel ending).Yields fun items => ∀ n ∈ items, Grown n := by
  induction fuel with
  | zero =>
    rw [others]
    exact yields_failure
  | succ fuel ih =>
    rw [others]
    refine yields_then _ fun lexeme => ?_
    split
    · exact yields_pure (List.forall_mem_nil _)
    · refine (yields_target _ _ _).bind fun first hfirst => yields_then _ fun hasMore => ?_
      split
      · exact yields_cons hfirst ih
      · exact yields_pure (List.forall_mem_singleton.mpr hfirst)

theorem yields_targets (fuel : Nat) (isValue : Bool) :
    (targets fuel isValue).Yields fun result => Grown result.1 := by
  unfold targets
  refine yields_then _ fun start => (yields_target _ _ _).bind fun first hfirst => ?_
  dsimp only
  refine yields_then _ fun hasMore => ?_
  split
  · refine (yields_others _ _).bind fun others hothers => ?_
    have hitems : ∀ n ∈ first :: others, Grown n := List.forall_mem_cons.mpr ⟨hfirst, hothers⟩
    exact (yields_node (IsLoose.fits (by decide) _) rfl hitems).bind fun _ hwhole =>
      yields_pure hwhole
  · exact yields_pure hfirst

end Target

namespace Statement

theorem yields_closed {parser : Parsing Node} (h : parser.Yields Grown) :
    (closed parser).Yields Grown := by
  refine h.bind fun whole hwhole => yields_then _ fun isClosed => ?_
  split
  · exact yields_pure hwhole
  · exact yields_failure

theorem yields_values (fuel : Nat) : (values fuel).Yields Grown := by
  refine yields_then _ fun start => ((grows fuel).series _).bind fun items hitems => ?_
  split
  next item => exact yields_pure (List.forall_mem_singleton.mp hitems)
  next => exact yields_stub (by decide)

theorem yields_valueTargets (fuel : Nat) : (valueTargets fuel).Yields Grown := by
  refine (Target.yields_targets _ _).bind fun ⟨whole, _⟩ hwhole => yields_then _ fun lexeme => ?_
  split
  · exact yields_pure hwhole
  · exact yields_failure

theorem yields_value (fuel : Nat) : (value fuel).Yields Grown := by
  intro reading n after hrun
  have hvalues := yields_closed (yields_values fuel) reading
  have htargets := yields_closed (yields_valueTargets fuel) reading
  simp only [value, StateT.run] at hrun hvalues htargets
  split at hrun
  next hv ht =>
    split at hrun
    · exact htargets n after (ht.trans hrun)
    · exact hvalues n after (hv.trans hrun)
  next hv _ => exact hvalues n after (hv.trans hrun)
  next => exact htargets n after hrun

mutual

theorem yields_assignment (fuel : Nat) (isValue : Bool) :
    (assignment fuel isValue).Yields Grown := by
  cases fuel with
  | zero =>
    rw [assignment]
    exact yields_failure
  | succ fuel =>
    rw [assignment]
    refine yields_then _ fun start => (Target.yields_targets _ _).bind fun result hleft => ?_
    refine yields_then _ fun lexeme => ?_
    split
    · refine (yields_leaf (by decide)).bind fun sign hsign =>
        (yields_assigned fuel).bind fun value hvalue => ?_
      exact yields_node (by decide : Fits _ 3) rfl (by simp [hleft, hsign, hvalue])
    split
    · refine (yields_leaf (by decide)).bind fun colon hcolon => yields_then _ fun typeStart =>
        yields_then _ fun _ => (yields_stub (by decide)).bind fun type htype =>
        yields_then _ fun hasValue => ?_
      have hparts : ∀ n ∈ [result.1, colon, type], Grown n := by simp [hleft, hcolon, htype]
      have hwhole : Yields (node NodeKind.assignment.name start [result.1, colon, type]) Grown :=
        yields_node (by decide : Fits _ 3) rfl hparts
      dsimp only
      split
      · exact yields_then _ fun _ => hwhole
      · exact hwhole
    split
    · exact yields_then _ fun _ => yields_then _ fun _ => yields_stub (by decide)
    · exact yields_failure

theorem yields_assigned (fuel : Nat) : (assigned fuel).Yields Grown := by
  cases fuel with
  | zero =>
    rw [assigned]
    exact yields_failure
  | succ fuel =>
    rw [assigned]
    refine yields_then _ fun lexeme => ?_
    split
    · exact (grows fuel).yielded _
    · exact (yields_assignment fuel _).orElse (yields_value fuel)

end

theorem yields_expressions (fuel : Nat) : (expressions fuel).Yields Grown := by
  refine yields_then _ fun start => yields_then _ fun lexeme => ?_
  split
  · exact ((grows fuel).yielded _).bind fun n hn =>
      yields_node (by decide : Fits _ 1) rfl (List.forall_mem_singleton.mpr hn)
  · refine Yields.orElse (yields_closed ?_) (yields_closed ?_)
    · exact (yields_assignment fuel _).bind fun n hn =>
        yields_node (by decide : Fits _ 1) rfl (List.forall_mem_singleton.mpr hn)
    · exact ((grows fuel).series _).bind fun items hitems =>
        yields_node ⟨by decide, .inl rfl⟩ rfl hitems

theorem yields_printed (fuel : Nat) : (printed fuel).Yields Grown := by
  unfold printed
  refine yields_then _ fun start => yields_then _ fun _ => yields_then _ fun lexeme => ?_
  dsimp only
  split
  · exact yields_failure_then
  · exact yields_then _ fun _ => yields_then _ fun _ => yields_stub (by decide)

theorem yields_executed (fuel : Nat) : (executed fuel).Yields Grown := by
  have finish (start : Nat) : Yields (do
      if ← accept .line (.word "in") then conditions fuel
      node "exec_statement" start []) Grown := by
    refine yields_then _ fun hasScope => ?_
    dsimp only
    split
    · exact yields_then _ fun _ => yields_stub (by decide)
    · exact yields_stub (by decide)
  unfold executed
  refine yields_then _ fun start => yields_then _ fun _ => yields_then _ fun lexeme => ?_
  dsimp only
  split
  · exact yields_then _ fun _ => finish start
  · exact yields_then _ fun _ => finish start

theorem yields_typeAlias (fuel : Nat) : (typeAlias fuel).Yields Grown := by
  unfold typeAlias
  refine yields_then _ fun start => yields_then _ fun _ => yields_then _ fun lexeme => ?_
  dsimp only
  split
  · exact yields_failure_then
  · exact yields_then _ fun _ => yields_then _ fun _ => yields_then _ fun _ =>
      yields_stub (by decide)

theorem yields_simple (fuel : Nat) (isFirst : Bool) : (simple fuel isFirst).Yields Grown := by
  unfold simple
  refine yields_then _ fun _ => yields_then _ fun start => yields_then _ fun lexeme => ?_
  split
  next => exact yields_leaf (by decide)
  next => exact yields_leaf (by decide)
  next => exact yields_leaf (by decide)
  next =>
    refine yields_then _ fun _ => yields_then _ fun second => ?_
    dsimp only
    split
    · exact yields_then _ fun _ => yields_stub (by decide)
    · exact yields_stub (by decide)
  next =>
    have finish : Yields (do
        if ← accept .line (.word "from") then
          let _ ← expression fuel .line
        node "raise_statement" start []) Grown := by
      refine yields_then _ fun hasCause => ?_
      dsimp only
      split
      · exact yields_then _ fun _ => yields_stub (by decide)
      · exact yields_stub (by decide)
    refine yields_then _ fun _ => yields_then _ fun second => ?_
    dsimp only
    split
    · exact yields_then _ fun _ => finish
    · exact finish
  next => exact yields_then _ fun _ => yields_then _ fun _ => yields_stub (by decide)
  next => exact yields_then _ fun _ => yields_then _ fun _ => yields_stub (by decide)
  next => exact yields_then _ fun _ => yields_then _ fun _ => yields_stub (by decide)
  next => exact yields_then _ fun _ => yields_then _ fun _ => yields_stub (by decide)
  next => exact yields_failure
  next => exact yields_failure
  next =>
    refine yields_then _ fun second => ?_
    split
    · exact yields_printed _
    · exact (yields_expressions _).orElse (yields_printed _)
  next =>
    refine yields_then _ fun isExecuted => ?_
    split
    · exact yields_executed _
    · exact yields_expressions _
  next => exact (yields_closed (yields_typeAlias _)).orElse (yields_expressions _)
  next =>
    split
    · exact yields_failure
    · exact yields_expressions _
  next => exact yields_expressions _

theorem yields_line (fuel : Nat) (isFirst : Bool) :
    (line fuel isFirst).Yields fun statements => ∀ n ∈ statements, Grown n := by
  induction fuel generalizing isFirst with
  | zero =>
    rw [line]
    exact yields_failure
  | succ fuel ih =>
    rw [line]
    refine (yields_closed (yields_simple _ _)).bind fun statement hstatement =>
      yields_then _ fun hasMore => ?_
    split
    · refine yields_then _ fun isLast => ?_
      split
      · exact yields_pure (List.forall_mem_singleton.mpr hstatement)
      · exact yields_cons hstatement (ih false)
    · exact yields_pure (List.forall_mem_singleton.mpr hstatement)

theorem yields_lines (fuel : Nat) :
    (lines fuel).Yields fun statements => ∀ n ∈ statements, Grown n := by
  induction fuel with
  | zero =>
    rw [lines]
    exact yields_failure
  | succ fuel ih =>
    rw [lines]
    refine yields_then _ fun lexeme => ?_
    split
    · exact yields_pure (List.forall_mem_nil _)
    · exact (yields_line _ _).bind fun first hfirst => ih.bind fun others hothers =>
        yields_pure (List.forall_mem_append.mpr ⟨hfirst, hothers⟩)

end Statement

theorem grown_tree? {tokens : List Token} {tree : Node} (h : tree? tokens = some tree) :
    Grown tree := by
  obtain ⟨⟨statements, reading⟩, hlines, rfl⟩ := Option.map_eq_some_iff.mp h
  exact .node (IsLoose.fits (by decide) _) (Statement.yields_lines _ _ _ _ hlines)

end Scriptlet.Script
