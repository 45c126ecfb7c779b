import Scriptlet.Proofs.Reading.Basic
import Scriptlet.Proofs.Tree.Position

/-! # Walks that follow a report

A walk follows a report if, from one place and after whatever was logged before, it ends in the
same way with the same events. Sequences of walks follow sequences of reports. The moves between
the significant children of a node follow the choice of these children by their places.
-/

namespace Scriptlet.Walk

open Cursor (Below Amid)

variable {α β γ δ : Type} {top c d : Cursor} {k : Nat}

/-- Both are the same refusal, or values that `R` relates. -/
inductive Agree (R : α → β → Prop) : Except Refusal α → Except Refusal β → Prop
  | ok {a : α} {b : β} : R a b → Agree R (.ok a) (.ok b)
  | error {r : Refusal} : Agree R (.error r) (.error r)

/-- Started at `c`, the walk ends as the report does, somewhere below `top`. It logs the events of
the report and makes no misstep. After a success `R` relates both values and the place. -/
def Follows (top c : Cursor) (x : Walk Cursor α) (r : Report β) (R : α → β → Cursor → Prop) :
    Prop :=
  ∀ log missteps, ∃ d result, x.run ⟨c, log, missteps⟩ =
      (result, ⟨d, r.events.reverse ++ log, missteps⟩) ∧
    Below top d ∧ Agree (R · · d) result r.result

/-- The walk has the same value as the report and returns to `c`. -/
def Same (c : Cursor) (a b : α) (d : Cursor) : Prop := a = b ∧ c = d

variable {x : Walk Cursor α} {r : Report β} {R : α → β → Cursor → Prop}

theorem follows_pure {a : α} {b : β} (hc : Below top c) (h : R a b c) :
    Follows top c (pure a) (pure b) R :=
  fun _ _ => ⟨c, .ok a, rfl, hc, .ok h⟩

theorem follows_throw {e : Refusal} (hc : Below top c) : Follows top c (throw e) (.refuse e) R :=
  fun _ _ => ⟨c, .error e, rfl, hc, .error⟩

theorem follows_throw_bind {e : Refusal} {f : γ → Walk Cursor α} (hc : Below top c) :
    Follows top c (throw e >>= f) (.refuse e) R :=
  fun _ _ => ⟨c, .error e, rfl, hc, .error⟩

theorem follows_unsupported (hc : Below top c) : Follows top c unsupported c.node.unsupported R :=
  fun _ _ => ⟨c, _, rfl, hc, .error⟩

theorem follows_bind {f : α → Walk Cursor γ} {g : β → Report δ} {S : γ → δ → Cursor → Prop}
    (hx : Follows top c x r R) (hf : ∀ a b d, R a b d → Follows top d (f a) (g b) S) :
    Follows top c (x >>= f) (r >>= g) S := by
  intro log missteps
  obtain ⟨d, _, hrun, hd, hres⟩ := hx log missteps
  generalize hr : r.result = result at hres
  cases hres with
  | @ok a b h =>
    obtain ⟨e, result, hrun', he, hres'⟩ := hf a b d h (r.events.reverse ++ log) missteps
    refine ⟨e, result, ?_, he, ?_⟩
    · rw [run_bind, hrun, Report.bind_of_ok hr]
      simpa using hrun'
    · rwa [Report.bind_of_ok hr]
  | @error e =>
    refine ⟨d, .error e, ?_, hd, ?_⟩
    · rw [run_bind, hrun, Report.bind_of_error hr]
    · rw [Report.bind_of_error hr]; exact .error

theorem Follows.below {mid : Cursor} (h : Follows mid c x r R) (hm : Below top mid) :
    Follows top c x r R := by
  intro log missteps
  obtain ⟨d, result, hrun, hd, hres⟩ := h log missteps
  exact ⟨d, result, hrun, hm.trans hd, hres⟩

theorem follows_cursor_bind {f : Cursor → Walk Cursor α} (h : Follows top c (f c) r R) :
    Follows top c (cursor >>= f) r R :=
  h

theorem follows_goto_bind {f : Unit → Walk Cursor α} (h : Follows top d (f ()) r R) :
    Follows top c (goto d >>= f) r R :=
  h

theorem follows_note (hc : Below top c) (e : Event) :
    Follows top c (note e) (.note e) fun _ _ d => c = d :=
  fun _ _ => ⟨c, .ok (), rfl, hc, .ok rfl⟩

theorem follows_text (hc : Below top c) (source : String) :
    Follows top c (text source) (c.node.slice source) (Same c) := by
  intro log missteps
  rw [run_text, Cursor.syntax_span, Node.slice]
  cases c.node.span.slice? source with
  | some t => exact ⟨c, .ok t, rfl, hc, .ok ⟨rfl, rfl⟩⟩
  | none => exact ⟨c, .error _, rfl, hc, .error⟩

theorem follows_require {p q : Prop} [Decidable p] [Decidable q] {f : Unit → Walk Cursor α}
    {g : Unit → Report β} (hc : Below top c) (hpq : q ↔ ¬ p)
    (h : p → Follows top c (f ()) (g ()) R) :
    Follows top c (if q then unsupported >>= f else f ()) (c.node.require p >>= g) R := by
  by_cases hp : p
  · rw [if_neg fun hq => hpq.mp hq hp, Node.require, if_pos hp, pure_bind]
    exact h hp
  · rw [if_pos (hpq.mpr hp), Node.require, if_neg hp]
    exact follows_bind (R := fun _ _ _ => False) (follows_unsupported hc) fun _ _ _ h => h.elim

/-- The walk has arrived at the child that the report names. -/
def Arrives (c : Cursor) (s : Shortage) {p : Node → Prop} (_ : Unit) (m : { m // p m })
    (d : Cursor) : Prop :=
  m.1 = d.node ∧ Amid c (s.place + 1) d

theorem follows_enter {s : Shortage} (hs : s.place = 0) :
    Follows c c (enter s c.node.span) (c.node.part s) (Arrives c s) := by
  intro log missteps
  rw [run_enter, Cursor.syntax_firstSignificant]
  rcases c.firstSignificant_spec with ⟨d, hd, hm, ha⟩ | ⟨hd, hm⟩
  · rw [← hs] at hm
    rw [Node.part_of_some hm, hd]
    exact ⟨d, .ok (), rfl, ha.below, .ok ⟨rfl, by rwa [hs]⟩⟩
  · rw [← hs] at hm
    rw [Node.part_of_none hm, hd]
    exact ⟨c, .error _, rfl, .here, .error⟩

theorem follows_advance {s : Shortage} (h : Amid c s.place d) :
    Follows c d (advance s c.node.span) (c.node.part s) (Arrives c s) := by
  intro log missteps
  rw [run_advance, Cursor.syntax_nextSignificant]
  rcases h.nextSignificant with ⟨e, he, hm, ha⟩ | ⟨e, he, hm, ha⟩
  · rw [Node.part_of_some hm, he]
    exact ⟨e, .ok (), rfl, ha.below, .ok ⟨rfl, ha⟩⟩
  · rw [Node.part_of_none hm, he]
    exact ⟨e, .error _, rfl, ha.below, .error⟩

theorem follows_leave_bind {f : Unit → Walk Cursor α} (h : d.parent? = some c)
    (hf : Follows top c (f ()) r R) : Follows top d (leave >>= f) r R := by
  intro log missteps
  obtain ⟨e, result, hrun, he⟩ := hf log missteps
  refine ⟨e, result, ?_, he⟩
  rw [run_bind, run_leave]
  simpa [h] using hrun

theorem Follows.map {f : α → γ} {S : γ → β → Cursor → Prop} (h : Follows top c x r R)
    (hRS : ∀ a b d, R a b d → S (f a) b d) : Follows top c (f <$> x) r S := by
  intro log missteps
  obtain ⟨d, result, hrun, hd, hres⟩ := h log missteps
  generalize r.result = s at hres
  cases hres with
  | ok h => exact ⟨d, .ok _, by rw [run_map, hrun], hd, .ok (hRS _ _ _ h)⟩
  | error => exact ⟨d, .error _, by rw [run_map, hrun], hd, .error⟩

theorem Follows.map_report {f : β → δ} {S : α → δ → Cursor → Prop} (h : Follows top c x r R)
    (hRS : ∀ a b d, R a b d → S a (f b) d) :
    Follows top c x (r >>= fun b => pure (f b)) S := by
  intro log missteps
  obtain ⟨d, result, hrun, hd, hres⟩ := h log missteps
  generalize hr : r.result = s at hres
  cases hres with
  | ok h =>
    rw [Report.bind_of_ok hr]
    exact ⟨d, .ok _, by simpa using hrun, hd, .ok (hRS _ _ _ h)⟩
  | error =>
    rw [Report.bind_of_error hr]
    exact ⟨d, .error _, hrun, hd, .error⟩

theorem Follows.map_same {f : α → γ} {r : Report α} (h : Follows top c x r (Same d)) :
    Follows top c (f <$> x) (f <$> r) (Same d) := by
  rw [map_eq_pure_bind]
  have hx : Follows top c (f <$> x) r fun a b e => a = f b ∧ d = e :=
    h.map fun a b e h => ⟨congrArg f h.1, h.2⟩
  exact hx.map_report fun _ _ _ h => h

theorem follows_nextSibling_bind {f : Bool → Walk Cursor α}
    (hsome : ∀ e, d.nextSibling? = some e → Follows top e (f true) r R)
    (hnone : d.nextSibling? = none → Follows top d (f false) r R) :
    Follows top d (nextSibling >>= f) r R := by
  intro log missteps
  rw [run_bind, run_nextSibling, Cursor.syntax_nextSibling?]
  cases h : d.nextSibling? with
  | some e => exact hsome e h log missteps
  | none => exact hnone h log missteps

theorem follows_nextSignificant_bind {f : Bool → Walk Cursor α} (h : Amid c k d)
    (hsome : ∀ m e, c.node.significant[k]? = some m → Amid c (k + 1) e →
      Follows top e (f true) r R)
    (hnone : ∀ e, c.node.significant[k]? = none → Amid c k e → Follows top e (f false) r R) :
    Follows top d (nextSignificant >>= f) r R := by
  intro log missteps
  rw [run_bind, run_nextSignificant, Cursor.syntax_nextSignificant]
  rcases h.nextSignificant with ⟨e, he, hm, ha⟩ | ⟨e, he, hm, ha⟩
  · rw [he]; exact hsome _ e hm ha log missteps
  · rw [he]; exact hnone e hm ha log missteps

end Scriptlet.Walk
