import Scriptlet.Proofs.Reading.Coupling

/-! # Comments and host texts

A tree is bared by taking away, at every level, the extra nodes below it with all that hangs below
them, and the texts that its nodes carry. A bared tree reads as the tree itself, so neither
comments nor the texts of nodes can change what is read.
-/

namespace Scriptlet

namespace Node

mutual

/-- The tree without the extra nodes below it and without the texts of its nodes. -/
def bare : Node → Node
  | ⟨kind, _, span, children, isNamed, isExtra, isMissing⟩ =>
    ⟨kind, "", span, bareAll children, isNamed, isExtra, isMissing⟩

def bareAll : List Node → List Node
  | [] => []
  | n :: ns => if n.isExtra then bareAll ns else n.bare :: bareAll ns

end

@[simp] theorem kind_bare (n : Node) : n.bare.kind = n.kind := by cases n; rfl
@[simp] theorem span_bare (n : Node) : n.bare.span = n.span := by cases n; rfl
@[simp] theorem isNamed_bare (n : Node) : n.bare.isNamed = n.isNamed := by cases n; rfl
@[simp] theorem isExtra_bare (n : Node) : n.bare.isExtra = n.isExtra := by cases n; rfl
@[simp] theorem isMissing_bare (n : Node) : n.bare.isMissing = n.isMissing := by cases n; rfl

theorem bareAll_eq (ns : List Node) : bareAll ns = (ns.filter (!·.isExtra)).map bare := by
  induction ns with
  | nil => rfl
  | cons n ns ih =>
    rw [bareAll, ih, List.filter_cons]
    cases n.isExtra <;> rfl

theorem children_bare (n : Node) : n.bare.children = n.significant.map bare := by
  rw [significant, ← bareAll_eq]; cases n; rfl

theorem significant_bare (n : Node) : n.bare.significant = n.significant.map bare := by
  rw [significant, children_bare, List.filter_eq_self]
  intro m hm
  obtain ⟨child, hc, rfl⟩ := List.mem_map.mp hm
  rw [isExtra_bare]
  exact (List.mem_filter.mp hc).2

theorem content_bare (n : Node) : n.bare.content = n.content.map bare := by
  have hcontent (m : Node) : m.bare.isContent = m.isContent := by simp [isContent]
  rw [content, children_bare, List.filter_map, significant, List.filter_filter, content]
  congr 1
  refine List.filter_congr fun m _ => ?_
  rw [Function.comp, hcontent, isContent]
  cases m.isExtra <;> simp

/-- The extra nodes of a tree hold all the faults that the bared tree lacks. -/
theorem firstFault?_eq_none_of_bare {n : Node} (h : n.bare.firstFault? = none)
    (hextra : ∀ e ∈ n.preorder, e.isExtra = true → e.firstFault? = none) :
    n.firstFault? = none := by
  induction n using inductionOnHeight with
  | step n ih =>
    rw [firstFault?_eq_none_iff] at h
    refine firstFault?_eq_none_of_children ?_ fun child hc => ?_
    · have := h _ (mem_preorder_self _)
      simpa [isFaulty, isError] using this
    · by_cases he : child.isExtra = true
      · exact hextra child (mem_preorder_of_mem hc (mem_preorder_self child)) he
      · have hs : child ∈ n.significant := List.mem_filter.mpr ⟨hc, by simp [he]⟩
        have hb : child.bare ∈ n.bare.children := by
          rw [children_bare]; exact List.mem_map_of_mem hs
        refine ih child (height_lt_of_mem hc) ?_ fun e hm => hextra e (mem_preorder_of_mem hc hm)
        exact firstFault?_eq_none_iff.mpr fun u hu => h u (mem_preorder_of_mem hb hu)

theorem correspond_bare (source : String) :
    Correspond (.moved id) source source fun n m => m = n.bare := by
  refine .of_map kind_bare span_bare (fun n => slice_eq_mapSpan_id (span_bare n)) (fun n s _ => ?_)
    (fun n _ => ?_) fun n _ => content_bare n
  · rw [significant_bare, List.getElem?_map]
  · rw [significant_bare, List.length_map]

/-- Comments and host texts change neither the program nor the refusal nor the events. -/
theorem toProgram_bare (root : Node) (source : String) :
    root.bare.toProgram source = root.toProgram source := by
  refine (correspond_bare source).toProgram_eq ?_
  rw [content_bare]
  exact forall₂_map root.content

end Node

end Scriptlet
