import Scriptlet.Proofs.Reading.Simulation
import Scriptlet.Proofs.Tree.Address

/-! # Where walks end

A walk that succeeds comes back to the cursor it started from; one that is refused rests there or
below. So the cursors that moves and walks lead to all stand at addresses of their tree, also where
a refusal left them half-way, and no walk from such a cursor tries to leave the root.
-/

namespace Scriptlet

namespace Walk

open Cursor (Below StandsAt)

variable {α β : Type} {top e : Cursor} {x : Walk Cursor α} {r : Report β} {w : Walker Cursor}
  {R : α → β → Cursor → Prop}

theorem Follows.below_run (h : Follows top w.cursor x r R) :
    Below top (x.run w).2.cursor := by
  obtain ⟨d, result, hrun, hd, -⟩ := h w.log w.missteps
  change x.run w = _ at hrun
  rw [hrun]
  exact hd

theorem Follows.missteps_run (h : Follows top w.cursor x r R) :
    (x.run w).2.missteps = w.missteps := by
  obtain ⟨d, result, hrun, -, -⟩ := h w.log w.missteps
  change x.run w = _ at hrun
  rw [hrun]

theorem Follows.cursor_run {r : Report α} {a : α} (h : Follows top w.cursor x r (Same e))
    (ha : (x.run w).1 = .ok a) : (x.run w).2.cursor = e := by
  obtain ⟨d, result, hrun, -, hagree⟩ := h w.log w.missteps
  change x.run w = _ at hrun
  rw [hrun] at ha ⊢
  cases ha
  generalize r.result = expected at hagree
  cases hagree with
  | ok h => exact h.2.symm

end Walk

namespace Cursor

open Walk (follows_expr follows_stmt follows_program)

/-- Moves and walks over the tree lead to the cursor, whether or not the walks were refused. -/
inductive Reachable (root : Node) : Cursor → Prop
  | start : Reachable root (ofRoot root)
  | move {c : Cursor} (m : Move) : Reachable root c → Reachable root (c.move m).2
  | expr {w : Walker Cursor} (source : String) : Reachable root w.cursor →
      Reachable root ((Walk.expr source).run w).2.cursor
  | stmt {w : Walker Cursor} (source : String) : Reachable root w.cursor →
      Reachable root ((Walk.stmt source).run w).2.cursor
  | program {w : Walker Cursor} (source : String) : Reachable root w.cursor →
      Reachable root ((Walk.program source).run w).2.cursor

variable {root : Node} {c : Cursor}

theorem Reachable.exists_standsAt (h : c.Reachable root) : ∃ a, StandsAt root a c := by
  induction h with
  | start => exact ⟨[], standsAt_ofRoot root⟩
  | move m _ ih =>
    obtain ⟨a, ha⟩ := ih
    exact ⟨_, (ha.move_alike m).2⟩
  | @expr w source _ ih =>
    obtain ⟨a, ha⟩ := ih
    obtain ⟨down, hd⟩ := ha.of_below (follows_expr source w.cursor).below_run
    exact ⟨_, hd⟩
  | @stmt w source _ ih =>
    obtain ⟨a, ha⟩ := ih
    obtain ⟨down, hd⟩ := ha.of_below (follows_stmt source w.cursor).below_run
    exact ⟨_, hd⟩
  | @program w source _ ih =>
    obtain ⟨a, ha⟩ := ih
    have hbelow := (follows_program source w.cursor).below_run
    rw [ha.root_eq] at hbelow
    obtain ⟨down, hd⟩ := (standsAt_ofRoot root).of_below hbelow
    exact ⟨_, hd⟩

theorem Reachable.root_eq (h : c.Reachable root) : c.root = ofRoot root :=
  h.exists_standsAt.elim fun _ ha => ha.root_eq

end Cursor

namespace Walk

open Cursor (StandsAt)

variable {α : Type} {root : Node} {x : Walk Cursor α} {w : Walker Cursor}

structure Frame (root : Node) (x : Walk Cursor α) (w : Walker Cursor) : Prop where
  /-- After a success it is the very cursor from before. -/
  back : ∀ a, (x.run w).1 = .ok a → (x.run w).2.cursor = w.cursor
  /-- After a refusal its path goes on from the path before. -/
  onward : ∀ e, (x.run w).1 = .error e → w.cursor.path <:+ (x.run w).2.cursor.path
  /-- After a refusal it stands at the place from before or at one below it. -/
  inside : ∀ e, (x.run w).1 = .error e → ∃ a down, StandsAt root a w.cursor ∧
    StandsAt root (down ++ a) (x.run w).2.cursor
  /-- It never tried to leave the root. -/
  steady : (x.run w).2.missteps = w.missteps

theorem Follows.frame {r : Report α} (h : Follows w.cursor w.cursor x r (Same w.cursor))
    (hw : w.cursor.Reachable root) : Frame root x w where
  back _ ha := h.cursor_run ha
  onward _ _ := h.below_run.path_suffix
  inside _ _ := by
    obtain ⟨a, ha⟩ := hw.exists_standsAt
    obtain ⟨down, hd⟩ := ha.of_below h.below_run
    exact ⟨a, down, ha, hd⟩
  steady := h.missteps_run

/-- A walk over an expression or a statement keeps its place when it succeeds and stays at or below
it when it is refused. No walk, over a program neither, tries to leave the root. -/
theorem walk_keeps_place (source : String) (h : w.cursor.Reachable root) :
    Frame root (expr source) w ∧ Frame root (stmt source) w ∧
      ((program source).run w).2.missteps = w.missteps :=
  ⟨(follows_expr source w.cursor).frame h, (follows_stmt source w.cursor).frame h,
    (follows_program source w.cursor).missteps_run⟩

/-- The tree of `a+f()`, with a comment behind the call. -/
def sumWithEmptyCall : Node :=
  let callee : Node := ⟨"identifier", "", ⟨2, 3⟩, [], true, false, false⟩
  let list : Node := ⟨"argument_list", "", ⟨3, 5⟩, [], true, false, false⟩
  let sum : Node :=
    ⟨"binary_operator", "", ⟨0, 5⟩,
      [⟨"identifier", "", ⟨0, 1⟩, [], true, false, false⟩,
        ⟨"+", "", ⟨1, 2⟩, [], false, false, false⟩,
        ⟨"call", "", ⟨2, 5⟩, [callee, list], true, false, false⟩,
        ⟨"comment", "", ⟨5, 5⟩, [], true, true, false⟩],
      true, false, false⟩
  ⟨"expression_statement", "", ⟨0, 5⟩, [sum], true, false, false⟩

theorem walk_keeps_place_emptyCall :
    let w : Walker Cursor := .start (.ofRoot sumWithEmptyCall)
    let refusal : Refusal := .arityMismatch "f" 0 ⟨2, 5⟩
    w.cursor.Reachable sumWithEmptyCall ∧
    ((stmt "a+f()").run w).1 = .error refusal ∧
    (∃ a down, StandsAt sumWithEmptyCall a w.cursor ∧
      StandsAt sumWithEmptyCall (down ++ a) ((stmt "a+f()").run w).2.cursor) ∧
    ((stmt "a+f()").run w).2.missteps = 0 := by
  intro w refusal
  have hw : w.cursor.Reachable sumWithEmptyCall := .start
  have hrefused : ((stmt "a+f()").run w).1 = .error refusal := by decide +kernel
  obtain ⟨-, hframe, -⟩ := walk_keeps_place "a+f()" hw
  exact ⟨hw, hrefused, hframe.inside refusal hrefused, hframe.steady⟩

end Walk

end Scriptlet
