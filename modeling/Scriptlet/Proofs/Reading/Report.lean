import Scriptlet.Lowering.Program
import Mathlib.Data.List.Forall2

/-! # Reports in sequence

Reports follow one another: the events add up, and the first refusal ends the sequence.
-/

namespace Scriptlet.Report

variable {α β γ : Type}

protected def bind (x : Report α) (f : α → Report β) : Report β :=
  match x.result with
  | .ok a => ⟨(f a).result, x.events ++ (f a).events⟩
  | .error r => ⟨.error r, x.events⟩

instance : Monad Report where
  pure a := ⟨.ok a, []⟩
  bind := Report.bind

def refuse (r : Refusal) : Report α := ⟨.error r, []⟩

def note (e : Event) : Report Unit := ⟨.ok (), [e]⟩

@[simp] theorem result_pure (a : α) : (pure a : Report α).result = .ok a := rfl
@[simp] theorem events_pure (a : α) : (pure a : Report α).events = [] := rfl
@[simp] theorem result_refuse (r : Refusal) : (refuse r : Report α).result = .error r := rfl
@[simp] theorem events_refuse (r : Refusal) : (refuse r : Report α).events = [] := rfl
@[simp] theorem result_note (e : Event) : (note e).result = .ok () := rfl
@[simp] theorem events_note (e : Event) : (note e).events = [e] := rfl

theorem bind_of_ok {x : Report α} {a : α} (h : x.result = .ok a) (f : α → Report β) :
    x >>= f = ⟨(f a).result, x.events ++ (f a).events⟩ := by
  change Report.bind x f = _
  simp [Report.bind, h]

theorem bind_of_error {x : Report α} {r : Refusal} (h : x.result = .error r)
    (f : α → Report β) : x >>= f = ⟨.error r, x.events⟩ := by
  change Report.bind x f = _
  simp [Report.bind, h]

@[simp] theorem refuse_bind (r : Refusal) (f : α → Report β) :
    (refuse r : Report α) >>= f = refuse r := bind_of_error rfl f

theorem map_id_eq (x : Report α) : id <$> x = x := by
  change x >>= _ = x
  cases h : x.result with
  | ok a => rw [bind_of_ok h]; cases x; simp_all
  | error r => rw [bind_of_error h]; cases x; simp_all

theorem bind_bind (x : Report α) (f : α → Report β) (g : β → Report γ) :
    x >>= f >>= g = x >>= fun a => f a >>= g := by
  cases h : x.result with
  | error r => simp [bind_of_error, h]
  | ok a =>
    rw [bind_of_ok h, bind_of_ok h]
    cases hf : (f a).result with
    | ok b => rw [bind_of_ok hf, bind_of_ok rfl]; simp
    | error r => rw [bind_of_error hf, bind_of_error rfl]

instance : LawfulMonad Report :=
  .mk' Report map_id_eq (fun a f => by rw [bind_of_ok (result_pure a)]; simp) bind_bind

theorem result_bind (x : Report α) (f : α → Report β) :
    (x >>= f).result = x.result >>= fun a => (f a).result := by
  cases h : x.result with
  | ok a => rw [bind_of_ok h]; rfl
  | error r => rw [bind_of_error h]; rfl

theorem result_bind_eq_ok {x : Report α} {f : α → Report β} {b : β} :
    (x >>= f).result = .ok b ↔ ∃ a, x.result = .ok a ∧ (f a).result = .ok b := by
  cases h : x.result with
  | ok a => simp [bind_of_ok h]
  | error r => simp [bind_of_error h]

theorem result_bind_eq_error {x : Report α} {f : α → Report β} {r : Refusal} :
    (x >>= f).result = .error r ↔
      x.result = .error r ∨ ∃ a, x.result = .ok a ∧ (f a).result = .error r := by
  cases h : x.result with
  | ok a => simp [bind_of_ok h]
  | error r => simp [bind_of_error h]

theorem mapM_eq_ok {f : α → Report β} {as : List α} {bs : List β} :
    (as.mapM f).result = .ok bs ↔ List.Forall₂ (fun a b => (f a).result = .ok b) as bs := by
  induction as generalizing bs with
  | nil => cases bs <;> simp
  | cons a as ih =>
    simp only [List.mapM_cons, result_bind_eq_ok, ih, result_pure]
    constructor
    · rintro ⟨b, hb, cs, hcs, h⟩
      cases h
      exact .cons hb hcs
    · rintro (_ | ⟨hb, hbs⟩)
      exact ⟨_, hb, _, hbs, rfl⟩

theorem mapM_eq_error {f : α → Report β} {as : List α} {r : Refusal} :
    (as.mapM f).result = .error r ↔ ∃ before a after, as = before ++ a :: after ∧
      (∀ b ∈ before, ∃ c, (f b).result = .ok c) ∧ (f a).result = .error r := by
  induction as with
  | nil => simp
  | cons a as ih =>
    rw [List.mapM_cons, result_bind_eq_error]
    constructor
    · rintro (h | ⟨b, hb, h⟩)
      · exact ⟨[], a, as, rfl, by simp, h⟩
      · rcases result_bind_eq_error.mp h with h | ⟨_, -, h⟩
        · obtain ⟨before, c, after, rfl, hbefore, hc⟩ := ih.mp h
          exact ⟨a :: before, c, after, rfl, List.forall_mem_cons.mpr ⟨⟨b, hb⟩, hbefore⟩, hc⟩
        · simp at h
    · rintro ⟨before, c, after, heq, hbefore, hc⟩
      cases before with
      | nil => obtain ⟨rfl, -⟩ := List.cons.inj heq; exact .inl hc
      | cons b before =>
        obtain ⟨rfl, rfl⟩ := List.cons.inj heq
        obtain ⟨⟨x, hx⟩, hbefore⟩ := List.forall_mem_cons.mp hbefore
        have hrest := ih.mpr ⟨before, c, after, rfl, hbefore, hc⟩
        exact .inr ⟨x, hx, result_bind_eq_error.mpr (.inl hrest)⟩

theorem exists_of_mapM_eq_error {f : α → Report β} {as : List α} {r : Refusal}
    (h : (as.mapM f).result = .error r) : ∃ a ∈ as, (f a).result = .error r := by
  obtain ⟨before, a, after, rfl, -, ha⟩ := mapM_eq_error.mp h
  exact ⟨a, List.mem_append_right _ List.mem_cons_self, ha⟩

end Scriptlet.Report
