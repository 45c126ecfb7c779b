import Mathlib.Data.List.Nodup
import Scriptlet.Proofs.Tree.Position
import Scriptlet.Session

/-! # Rounds

A round visits the significant children of a node: it goes to the first one and on from each to the
next, until there is none left. Every significant child is visited once, in order, and the cursor
rests on the last child of all, extra or not.
-/

namespace Scriptlet.Cursor

variable {c d e : Cursor} {i : Nat}

structure Round where
  visited : List Cursor
  /-- Where the cursor rests in the end. -/
  last : Cursor

theorem remaining_lt_of_nextSignificant (h : d.nextSignificant = (true, e)) :
    e.remaining < d.remaining := by
  unfold nextSignificant at h
  fun_induction SyntaxCursor.nextSignificant d with
  | case1 => cases h
  | case2 d f hn hlt hx ih => exact Nat.lt_trans (ih h) hlt
  | case3 d f hn hlt hx =>
    cases h
    exact hlt

/-- The rest of a round, from one of the children on. -/
def continueRound (d : Cursor) : Round :=
  match h : d.nextSignificant with
  | (true, e) =>
    have := remaining_lt_of_nextSignificant h
    ⟨e :: e.continueRound.visited, e.continueRound.last⟩
  | (false, e) => ⟨[], e⟩
termination_by d.remaining

def round (c : Cursor) : Round :=
  match c.firstSignificant with
  | (true, d) => ⟨d :: d.continueRound.visited, d.continueRound.last⟩
  | (false, d) => ⟨[], d⟩

theorem continueRound_of_child? (h : c.child? i = some d) :
    d.continueRound.visited = c.placesFrom (i + 1) ∧
      c.child? (c.node.children.length - 1) = some d.continueRound.last := by
  fun_induction continueRound d generalizing i with
  | case1 d e he hlt ih =>
    rcases nextSignificant_cases h with ⟨j, f, hf, hj, hplaces⟩ | ⟨f, hf, hlast, hplaces⟩
    · cases he.symm.trans hf
      obtain ⟨hvisited, hlast⟩ := ih hj
      rw [hplaces, ← hvisited]
      exact ⟨rfl, hlast⟩
    · cases he.symm.trans hf
  | case2 d e he =>
    rcases nextSignificant_cases h with ⟨j, f, hf, hj, hplaces⟩ | ⟨f, hf, hlast, hplaces⟩
    · cases he.symm.trans hf
    · cases he.symm.trans hf
      rw [hplaces]
      exact ⟨rfl, hlast⟩

/-- The children have places of their own, also where they are equal as trees. -/
theorem nodup_childPlaces (c : Cursor) : c.childPlaces.Nodup := by
  rw [List.nodup_iff_injective_getElem]
  intro i j hij
  simp only [childPlaces, List.getElem_mapIdx, mk.injEq, List.cons.injEq, Prod.mk.injEq] at hij
  exact Fin.ext hij.2.1.2

/-- A round visits the significant children, in order and each of them once. If there are none, the
first move fails and changes nothing; otherwise the round ends at the last child of all, and one
step up leads back to the place where it began. -/
theorem round_visits_significant (c : Cursor) :
    c.round.visited = c.significantPlaces ∧
    c.significantPlaces.map node = c.node.significant ∧ c.significantPlaces.Nodup ∧
    (c.node.significant = [] → c.move .firstSignificant = (false, c)) ∧
    (c.node.significant ≠ [] →
      c.child? (c.node.children.length - 1) = some c.round.last ∧
      c.round.last.move .parent = (true, c)) := by
  have hnodes := map_node_significantPlaces c
  have hnodup : c.significantPlaces.Nodup := (nodup_childPlaces c).filter _
  rcases firstSignificant_cases c with ⟨i, d, hd, hi, hplaces⟩ | ⟨hmissed, hplaces⟩
  · obtain ⟨hvisited, hlast⟩ := continueRound_of_child? hi
    have hround : c.round = ⟨d :: d.continueRound.visited, d.continueRound.last⟩ := by
      rw [round, hd]
    have hne : c.node.significant ≠ [] := by simp [← hnodes, hplaces]
    refine ⟨?_, hnodes, hnodup, fun hnone => absurd hnone hne, fun _ => ⟨?_, ?_⟩⟩
    · rw [hround, hvisited, hplaces]
    · rw [hround]
      exact hlast
    · rw [hround]
      simp [move, parent?_of_child? hlast]
  · have hround : c.round = ⟨[], c⟩ := by rw [round, hmissed]
    have hnone : c.node.significant = [] := by simp [← hnodes, hplaces]
    refine ⟨?_, hnodes, hnodup, fun _ => hmissed, fun hne => absurd hnone hne⟩
    rw [hround, hplaces]

end Scriptlet.Cursor
