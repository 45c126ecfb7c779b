import Scriptlet.Proofs.Reading.Coupling
import Scriptlet.Proofs.Reading.Simulation

/-! # What a walk does not see

An erasure of a tree lacks the extra nodes, the tokens between statements and between arguments,
and all that hangs below numbers and names. The texts of its nodes may be any, and so may be the
kind of its root and most marks of named nodes. A walk over an erasure has the result and the
events of a walk over the tree.
-/

namespace Scriptlet

namespace Node

/-- The children that an erasure keeps. -/
def shown (n : Node) : List Node :=
  match NodeKind.ofName n.kind with
  | .integer | .float | .identifier => []
  | .argumentList => n.content
  | .module | .expressionStatement | .assignment | .binaryOperator | .call | .other =>
    n.significant

/-- The second node is an erasure of the first one, which is no root. Below an argument list the
nodes that are kept are still marked as named, elsewhere they may be marked or not. -/
inductive ErasesTo : Node → Node → Prop
  | mk {n m : Node} (kind : m.kind = n.kind) (span : m.span = n.span)
      (isExtra : m.isExtra = n.isExtra) (isMissing : m.isMissing = n.isMissing)
      (named : n.kind = NodeKind.argumentList.name → ∀ c ∈ m.children, c.isNamed = true)
      (children : List.Forall₂ ErasesTo n.shown m.children) : ErasesTo n m

structure RootErasesTo (root root' : Node) : Prop where
  span : root'.span = root.span
  isExtra : root'.isExtra = root.isExtra
  isMissing : root'.isMissing = root.isMissing
  named : ∀ c ∈ root'.children, c.isNamed = true
  children : List.Forall₂ ErasesTo root.content root'.children

variable {n m root root' : Node} {ns ms : List Node}

theorem ErasesTo.isExtra_eq (h : n.ErasesTo m) : m.isExtra = n.isExtra := by
  cases h; assumption

theorem isExtra_of_mem_content (h : n ∈ root.content) : n.isExtra = false := by
  have := (List.mem_filter.mp h).2
  simp_all [isContent]

theorem isExtra_of_mem_shown (h : m ∈ n.shown) : m.isExtra = false := by
  unfold shown at h
  split at h
  · cases h
  · cases h
  · cases h
  · exact isExtra_of_mem_content h
  all_goals
    have := (List.mem_filter.mp h).2
    simpa using this

theorem isExtra_of_erased (hns : ∀ n ∈ ns, n.isExtra = false) (h : List.Forall₂ ErasesTo ns ms) :
    ∀ m ∈ ms, m.isExtra = false := by
  induction h with
  | nil => simp
  | @cons n m _ _ hnm _ ih =>
    rw [List.forall_mem_cons] at hns ⊢
    exact ⟨hnm.isExtra_eq.trans hns.1, ih hns.2⟩

theorem significant_eq_children (h : ∀ c ∈ n.children, c.isExtra = false) :
    n.significant = n.children := by
  rw [significant, List.filter_eq_self]
  intro c hc
  simp [h c hc]

theorem content_eq_children (h : ∀ c ∈ n.children, c.isExtra = false)
    (hnamed : ∀ c ∈ n.children, c.isNamed = true) : n.content = n.children := by
  rw [content, List.filter_eq_self]
  intro c hc
  simp [isContent, h c hc, hnamed c hc]

theorem ErasesTo.significant (h : n.ErasesTo m) {s : Shortage} (hk : n.kind = s.kind.name) :
    List.Forall₂ ErasesTo n.significant m.significant := by
  obtain ⟨-, -, -, -, -, hchildren⟩ := h
  rw [significant_eq_children (isExtra_of_erased (fun _ => isExtra_of_mem_shown) hchildren)]
  have hshown : n.shown = n.significant := by
    rw [shown, hk, NodeKind.ofName_name]
    cases s <;> rfl
  rwa [← hshown]

theorem ErasesTo.content (h : n.ErasesTo m) (hk : n.kind = NodeKind.argumentList.name) :
    List.Forall₂ ErasesTo n.content m.content := by
  obtain ⟨-, -, -, -, hnamed, hchildren⟩ := h
  rw [content_eq_children (isExtra_of_erased (fun _ => isExtra_of_mem_shown) hchildren)
    (hnamed hk)]
  have hshown : n.shown = n.content := by rw [shown, hk, NodeKind.ofName_name]
  rwa [← hshown]

theorem RootErasesTo.content (h : root.RootErasesTo root') :
    List.Forall₂ ErasesTo root.content root'.content := by
  have hextra := isExtra_of_erased (fun _ => isExtra_of_mem_content) h.children
  rw [content_eq_children hextra h.named]
  exact h.children

theorem rel_getElem? {α β : Type} {R : α → β → Prop} {as : List α} {bs : List β}
    (h : List.Forall₂ R as bs) (i : Nat) : Option.Rel R as[i]? bs[i]? := by
  induction h generalizing i with
  | nil => exact .none
  | cons hab _ ih =>
    cases i with
    | zero => exact .some hab
    | succ i => exact ih i

theorem ErasesTo.correspond (source : String) :
    Correspond (.moved id) source source ErasesTo where
  kind := by rintro _ _ ⟨⟩; assumption
  span := by rintro _ _ ⟨⟩; assumption
  text := by rintro _ _ ⟨_, hspan⟩ _; exact slice_eq_mapSpan_id hspan
  token := by rintro _ _ _ _ _ _ _ _ ⟨_, hspan⟩; exact slice_eq_mapSpan_id hspan
  part s h hk := rel_getElem? (h.significant hk) s.place
  single h hk := by rw [(h.significant (s := .statement) hk).length_eq]
  content h hk := h.content hk

end Node

namespace Walk

/-- Comments, separators, texts of nodes and stray marks change neither the program nor the refusal
nor the events: a walk over an erasure ends as the walk over the tree and logs the same. -/
theorem program_of_erasure {root root' : Node} (h : root.RootErasesTo root') (source : String) :
    let run (top : Node) := (program source).run (.start (.ofRoot top))
    (run root').1 = (run root).1 ∧ (run root').2.log = (run root).2.log := by
  intro run
  have hreading : root'.toProgram source = root.toProgram source :=
    (Node.ErasesTo.correspond source).toProgram_eq h.content
  rw [result_program, result_program, log_program, log_program, hreading]
  exact ⟨rfl, rfl⟩

/-- The tree of `f(a,1);#b` with its texts. A comment stands in front of the argument list, and
something hangs below the name `a`. -/
def commentedCall : Node :=
  let letter : Node := ⟨"letter", "a", ⟨2, 3⟩, [], true, false, false⟩
  let arguments : List Node :=
    [⟨"(", "(", ⟨1, 2⟩, [], false, false, false⟩,
      ⟨"identifier", "a", ⟨2, 3⟩, [letter], true, false, false⟩,
      ⟨",", ",", ⟨3, 4⟩, [], false, false, false⟩,
      ⟨"integer", "1", ⟨4, 5⟩, [], true, false, false⟩,
      ⟨")", ")", ⟨5, 6⟩, [], false, false, false⟩]
  let call : Node :=
    ⟨"call", "f(a,1)", ⟨0, 6⟩,
      [⟨"identifier", "f", ⟨0, 1⟩, [], true, false, false⟩,
        ⟨"comment", "", ⟨1, 1⟩, [], true, true, false⟩,
        ⟨"argument_list", "(a,1)", ⟨1, 6⟩, arguments, true, false, false⟩],
      true, false, false⟩
  ⟨"module", "f(a,1);#b", ⟨0, 9⟩,
    [⟨"expression_statement", "f(a,1)", ⟨0, 6⟩, [call], true, false, false⟩,
      ⟨";", ";", ⟨6, 7⟩, [], false, false, false⟩,
      ⟨"comment", "#b", ⟨7, 9⟩, [], true, true, false⟩],
    true, false, false⟩

/-- An erasure of it, with other texts, another kind of root, and fewer marks. -/
def erasedCall : Node :=
  let arguments : List Node :=
    [⟨"identifier", "b", ⟨2, 3⟩, [], true, false, false⟩,
      ⟨"integer", "", ⟨4, 5⟩, [], true, false, false⟩]
  let call : Node :=
    ⟨"call", "", ⟨0, 6⟩,
      [⟨"identifier", "g", ⟨0, 1⟩, [], false, false, false⟩,
        ⟨"argument_list", "", ⟨1, 6⟩, arguments, false, false, false⟩],
      false, false, false⟩
  ⟨"program", "", ⟨0, 9⟩, [⟨"expression_statement", "", ⟨0, 6⟩, [call], true, false, false⟩],
    false, false, false⟩

theorem program_of_erasedCall :
    let run (top : Node) := (program "f(a,1);#b").run (.start (.ofRoot top))
    commentedCall.RootErasesTo erasedCall ∧
    (run commentedCall).1 =
      .ok [.evaluate (.call2 "f" (.identifier "a") (.number ⟨0x3ff0000000000000⟩))] ∧
    (run erasedCall).1 = (run commentedCall).1 ∧
    (run erasedCall).2.log = (run commentedCall).2.log := by
  intro run
  have herases : commentedCall.RootErasesTo erasedCall := by
    refine ⟨rfl, rfl, rfl, by decide, .cons ?_ .nil⟩
    refine .mk rfl rfl rfl rfl (by decide) (.cons ?_ .nil)
    refine .mk rfl rfl rfl rfl (by decide) (.cons ?_ (.cons ?_ .nil))
    · exact .mk rfl rfl rfl rfl (by decide) .nil
    · refine .mk rfl rfl rfl rfl (by decide) (.cons ?_ (.cons ?_ .nil))
      · exact .mk rfl rfl rfl rfl (by decide) .nil
      · exact .mk rfl rfl rfl rfl (by decide) .nil
  have hlowered : (run commentedCall).1 =
      .ok [.evaluate (.call2 "f" (.identifier "a") (.number ⟨0x3ff0000000000000⟩))] := by
    decide +kernel
  exact ⟨herases, hlowered, program_of_erasure herases "f(a,1);#b"⟩

end Walk

end Scriptlet
