import Scriptlet.Proofs.Reading.Surplus
import Scriptlet.Script.Parsing

/-! # What parsers return

The nodes that parsers build are sound, none of them is a comment, and those of a kind with a number
of parts have just so many children. What a parser returns is traced through its steps, whatever
tokens it reads.
-/

namespace Scriptlet.Script

/-- A kind of nodes that are sound and have no number of parts. -/
def IsLoose (kind : String) : Prop :=
  kind ≠ Node.errorKind ∧ (NodeKind.ofName kind).arity? = none

instance : DecidablePred IsLoose := fun kind =>
  inferInstanceAs (Decidable (kind ≠ Node.errorKind ∧ (NodeKind.ofName kind).arity? = none))

/-- A kind of nodes that may have so many children. An expression statement may hold more than its
one: that is for lowering to refuse. -/
def Fits (kind : String) (count : Nat) : Prop :=
  kind ≠ Node.errorKind ∧ (kind = NodeKind.expressionStatement.name ∨
    ∀ k ∈ (NodeKind.ofName kind).arity?, count = k)

instance (kind : String) (count : Nat) : Decidable (Fits kind count) :=
  inferInstanceAs (Decidable (_ ∧ (_ ∨ ∀ k ∈ _, _ = k)))

theorem IsLoose.fits {kind : String} (h : IsLoose kind) (count : Nat) : Fits kind count :=
  ⟨h.1, .inr (by simp [h.2])⟩

/-- The nodes that are built of the tokens of a script. -/
inductive Grown : Node → Prop
  | node {kind text : String} {span : Span} {children : List Node} {isNamed : Bool}
    (hkind : Fits kind children.length) (hchildren : ∀ n ∈ children, Grown n) :
    Grown ⟨kind, text, span, children, isNamed, false, false⟩

namespace Grown

variable {root n : Node}

theorem of_mem (h : Grown root) (hn : n ∈ root.preorder) : Grown n := by
  induction h with
  | node hkind hchildren ih =>
    rw [Node.preorder_eq, List.mem_cons, Node.mem_preorderAll] at hn
    rcases hn with rfl | ⟨child, hchild, hn⟩
    · exact .node hkind hchildren
    · exact ih child hchild hn

theorem firstFault?_eq_none (h : Grown root) : root.firstFault? = none := by
  refine Node.firstFault?_eq_none_iff.mpr fun n hn => ?_
  obtain ⟨hkind, -⟩ := h.of_mem hn
  simp [Node.isFaulty, Node.isError, hkind.1]

theorem significant_eq (h : Grown n) : n.significant = n.children := by
  obtain ⟨-, hchildren⟩ := h
  refine List.filter_eq_self.mpr fun child hchild => ?_
  obtain ⟨-, -⟩ := hchildren child hchild
  rfl

theorem isWhole (h : Grown n) (hkind : n.kind ≠ NodeKind.expressionStatement.name) :
    n.IsWhole := by
  intro k hk
  rw [h.significant_eq]
  obtain ⟨hfits, -⟩ := h
  exact (hfits.2.resolve_left hkind) k hk

theorem renamed {kind : String} (h : Grown n) (hkind : IsLoose kind) :
    Grown { n with kind := kind } := by
  obtain ⟨-, hchildren⟩ := h
  exact .node (hkind.fits _) hchildren

end Grown

namespace Parsing

variable {α β : Type} {P : α → Prop} {Q : β → Prop}

/-- What the parser returns, if it does not fail. -/
def Yields (p : Parsing α) (P : α → Prop) : Prop :=
  ∀ reading a after, p.run reading = some (a, after) → P a

theorem yields_pure {a : α} (h : P a) : Yields (pure a) P := by
  rintro reading b after hrun
  obtain ⟨rfl, -⟩ := Prod.mk.inj (Option.some.inj hrun)
  exact h

theorem yields_failure : Yields (failure : Parsing α) P := fun _ _ _ hrun => nomatch hrun

theorem Yields.bind {p : Parsing α} {f : α → Parsing β} (hp : p.Yields P)
    (hf : ∀ a, P a → (f a).Yields Q) : Yields (p >>= f) Q := by
  intro reading b after hrun
  rw [StateT.run_bind] at hrun
  obtain ⟨⟨a, mid⟩, hfirst, hsecond⟩ := Option.bind_eq_some_iff.mp hrun
  exact hf a (hp reading a mid hfirst) mid b after hsecond

theorem yields_failure_then {f : α → Parsing β} : Yields (failure >>= f) Q :=
  Yields.bind (P := fun _ => False) yields_failure fun _ h => h.elim

theorem yields_any (p : Parsing α) : p.Yields fun _ => True := fun _ _ _ _ => trivial

/-- What comes first does not matter to what is returned. -/
theorem yields_then (p : Parsing α) {f : α → Parsing β} (hf : ∀ a, (f a).Yields Q) :
    Yields (p >>= f) Q :=
  (yields_any p).bind fun a _ => hf a

theorem Yields.map {p : Parsing α} {f : α → β} (hp : p.Yields P) (hf : ∀ a, P a → Q (f a)) :
    Yields (f <$> p) Q := by
  intro reading b after hrun
  rw [StateT.run_map] at hrun
  obtain ⟨⟨a, mid⟩, hfirst, hsecond⟩ := Option.map_eq_some_iff.mp hrun
  obtain ⟨rfl, -⟩ := Prod.mk.inj hsecond
  exact hf a (hp reading a mid hfirst)

theorem Yields.orElse {p q : Parsing α} (hp : p.Yields P) (hq : q.Yields P) :
    Yields (p <|> q) P := by
  intro reading a after hrun
  cases hfirst : p.run reading with
  | none =>
    have hsecond : (p <|> q).run reading = q.run reading :=
      congrArg (·.orElse fun _ => q.run reading) hfirst
    exact hq reading a after (hsecond ▸ hrun)
  | some result =>
    have hresult : (p <|> q).run reading = some result :=
      congrArg (·.orElse fun _ => q.run reading) hfirst
    exact hp reading a after (hfirst.trans (hresult.symm.trans hrun))

theorem yields_node {kind : String} {count start : Nat} {children : List Node}
    (hkind : Fits kind count) (hcount : children.length = count)
    (hchildren : ∀ n ∈ children, Grown n) : Yields (node kind start children) Grown :=
  yields_then _ fun _ => yields_pure (.node (hcount ▸ hkind) hchildren)

theorem yields_stub {kind : String} {start : Nat} (hkind : IsLoose kind) :
    Yields (node kind start []) Grown :=
  yields_node (hkind.fits 0) rfl (List.forall_mem_nil _)

theorem yields_wrap {kind : String} {start : Nat} {n : Node} (hkind : IsLoose kind)
    (hn : Grown n) : Yields (node kind start [n]) Grown :=
  yields_node (hkind.fits 1) rfl (List.forall_mem_singleton.mpr hn)

theorem yields_leaf {kind : String} {isNamed : Bool} (hkind : IsLoose kind) :
    Yields (leaf kind isNamed) Grown :=
  yields_then _ fun _ => yields_pure (.node (hkind.fits 0) (List.forall_mem_nil _))

theorem yields_cons {first : Node} {later : Parsing (List Node)} (hfirst : Grown first)
    (hlater : later.Yields fun items => ∀ n ∈ items, Grown n) :
    Yields (do return first :: (← later)) fun items => ∀ n ∈ items, Grown n :=
  hlater.bind fun _ hitems => yields_pure (List.forall_mem_cons.mpr ⟨hfirst, hitems⟩)

theorem yields_name : Yields name Grown := by
  refine yields_then _ fun lexeme => ?_
  split
  · exact yields_leaf (by decide)
  · exact yields_failure

end Parsing

end Scriptlet.Script
