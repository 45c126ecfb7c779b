import Scriptlet.Proofs.Reading.Coupling
import Scriptlet.Proofs.Reading.Derivation
import Scriptlet.Proofs.Reading.Simulation
import Scriptlet.Proofs.Tree.Rebuild

/-! # Surplus children

An operator, an assignment and a call are lowered from their first significant children. No node of
an accepted tree has fewer than it is made of, but it may have more: these are neither lowered nor
refused, and the tree is lowered as if they were not there. Only an expression statement is refused
for a second child.
-/

namespace Scriptlet

/-- The number of significant children that a node of the kind is made of. -/
def NodeKind.arity? : NodeKind → Option Nat
  | binaryOperator | assignment => some 3
  | call => some 2
  | expressionStatement => some 1
  | module | integer | float | identifier | argumentList | other => none

namespace Node

def arity? (n : Node) : Option Nat := (NodeKind.ofName n.kind).arity?

/-- The node has as many significant children as it is made of. -/
def IsWhole (n : Node) : Prop := ∀ k, n.arity? = some k → n.significant.length = k

/-- The node lacks no part, and if it is an expression statement it holds one child. -/
structure IsComplete (n : Node) : Prop where
  arity_le : ∀ k, n.arity? = some k → k ≤ n.significant.length
  single : n.kind = NodeKind.expressionStatement.name → n.significant.length = 1

/-- The nodes below a node of the kind that are lowered with it. -/
def partsAs (n : Node) : NodeKind → List Node
  | .expressionStatement => n.significant[0]?.toList
  | .assignment => n.significant[2]?.toList
  | .binaryOperator => n.significant[0]?.toList ++ n.significant[2]?.toList
  | .call => n.significant[1]?.toList.flatMap content
  | .module | .integer | .float | .identifier | .argumentList | .other => []

def parts (n : Node) : List Node := n.partsAs (NodeKind.ofName n.kind)

/-- The nodes that are lowered when the root is. -/
inductive Lowers (root : Node) : Node → Prop
  | content {n : Node} : n ∈ root.content → Lowers root n
  | part {n m : Node} : Lowers root n → m ∈ n.parts → Lowers root m

/-- The node stands for a statement, a definition or an expression. -/
inductive Stands (source : String) (n : Node) : Prop
  | stmt {s : Stmt} (h : n.ReadsStmt source s)
  | definition {name : String} {e : Expr} (h : n.Defines source name e)
  | expr {e : Expr} (h : n.Reads source e)

variable {source : String} {n m root : Node}

theorem parts_of_kind {k : NodeKind} (hk : n.kind = k.name) : n.parts = n.partsAs k := by
  rw [parts, hk, NodeKind.ofName_name]

theorem arity?_of_kind {k : NodeKind} (hk : n.kind = k.name) : n.arity? = k.arity? := by
  rw [arity?, hk, NodeKind.ofName_name]

theorem mem_parts (h : m ∈ n.parts) : m ∈ n.children ∨ ∃ c ∈ n.children, m ∈ c.children := by
  unfold parts partsAs at h
  split at h
  · exact .inl (mem_of_significant_getElem? (Option.mem_toList.mp h))
  · exact .inl (mem_of_significant_getElem? (Option.mem_toList.mp h))
  · rcases List.mem_append.mp h with h | h
    · exact .inl (mem_of_significant_getElem? (Option.mem_toList.mp h))
    · exact .inl (mem_of_significant_getElem? (Option.mem_toList.mp h))
  · obtain ⟨list, hl, hm⟩ := List.mem_flatMap.mp h
    exact .inr ⟨list, mem_of_significant_getElem? (Option.mem_toList.mp hl), mem_of_mem_content hm⟩
  all_goals cases h

theorem Defines.stands_part {name : String} {e : Expr} (h : n.Defines source name e)
    (hm : m ∈ n.parts) : m.Stands source := by
  obtain ⟨hk, _, _, _, _, _, hvalue, he⟩ := h
  rw [parts_of_kind hk] at hm
  simp only [partsAs, hvalue, Option.toList_some, List.mem_singleton] at hm
  exact .expr (hm ▸ he)

theorem Reads.stands_part {e : Expr} (h : n.Reads source e) (hm : m ∈ n.parts) :
    m.Stands source := by
  cases h with
  | number hk =>
    rcases hk with hk | hk
    · rw [parts_of_kind hk] at hm; cases hm
    · rw [parts_of_kind hk] at hm; cases hm
  | identifier hk => rw [parts_of_kind hk] at hm; cases hm
  | binary hk hleft _ hright ha _ hb =>
    rw [parts_of_kind hk] at hm
    simp only [partsAs, hleft, hright, Option.toList_some, List.mem_append,
      List.mem_singleton] at hm
    rcases hm with rfl | rfl
    · exact .expr ha
    · exact .expr hb
  | call1 hk _ _ _ hlist _ hc ha =>
    rw [parts_of_kind hk] at hm
    simp only [partsAs, hlist, Option.toList_some, List.flatMap_singleton, hc,
      List.mem_singleton] at hm
    exact .expr (hm ▸ ha)
  | call2 hk _ _ _ hlist _ hc ha hb =>
    rw [parts_of_kind hk] at hm
    simp only [partsAs, hlist, Option.toList_some, List.flatMap_singleton, hc, List.mem_cons,
      List.not_mem_nil, or_false] at hm
    rcases hm with rfl | rfl
    · exact .expr ha
    · exact .expr hb

theorem Stands.part (h : n.Stands source) (hm : m ∈ n.parts) : m.Stands source := by
  cases h with
  | stmt h =>
    cases h with
    | assignment h => exact h.stands_part hm
    | define hk hc h =>
      rw [parts_of_kind hk] at hm
      simp only [partsAs, hc, List.getElem?_cons_zero, Option.toList_some, List.mem_singleton] at hm
      exact .definition (hm ▸ h)
    | evaluate hk hc h =>
      rw [parts_of_kind hk] at hm
      simp only [partsAs, hc, List.getElem?_cons_zero, Option.toList_some, List.mem_singleton] at hm
      exact .expr (hm ▸ h)
  | definition h => exact h.stands_part hm
  | expr h => exact h.stands_part hm

theorem exists_of_forall₂ {α β : Type} {R : α → β → Prop} {as : List α} {bs : List β} {a : α}
    (h : List.Forall₂ R as bs) (ha : a ∈ as) : ∃ b, R a b := by
  induction h with
  | nil => cases ha
  | @cons _ b _ _ hab _ ih =>
    rcases List.mem_cons.mp ha with rfl | ha
    · exact ⟨b, hab⟩
    · exact ih ha

theorem Lowers.stands {p : Program} (hp : List.Forall₂ (ReadsStmt source) root.content p)
    (h : root.Lowers n) : n.Stands source := by
  induction h with
  | content hn =>
    obtain ⟨_, hs⟩ := exists_of_forall₂ hp hn
    exact .stmt hs
  | part _ hm ih => exact ih.part hm

theorem Lowers.mem_preorder (h : root.Lowers n) : n ∈ root.preorder := by
  induction h with
  | content hn => exact mem_preorder_of_mem (mem_of_mem_content hn) (mem_preorder_self _)
  | part _ hm ih =>
    rcases mem_parts hm with hm | ⟨c, hc, hm⟩
    · exact mem_preorder_child ih hm
    · exact mem_preorder_child (mem_preorder_child ih hc) hm

theorem IsComplete.of_kind {k : NodeKind} (hk : n.kind = k.name)
    (harity : ∀ a, k.arity? = some a → a ≤ n.significant.length)
    (hsingle : k = .expressionStatement → n.significant.length = 1) : n.IsComplete where
  arity_le := by rw [arity?_of_kind hk]; exact harity
  single h := hsingle <| by rw [← NodeKind.ofName_name k, ← hk, h, NodeKind.ofName_name]

theorem IsComplete.of_last {k : NodeKind} {i : Nat} (hk : n.kind = k.name)
    (hlast : k.arity? = some (i + 1)) (hne : k ≠ .expressionStatement)
    (h : n.significant[i]? = some m) : n.IsComplete := by
  refine .of_kind hk (fun a ha => ?_) fun he => absurd he hne
  cases hlast.symm.trans ha
  exact (List.getElem?_eq_some_iff.mp h).1

theorem IsComplete.of_single (hk : n.kind = NodeKind.expressionStatement.name)
    (hc : n.significant = [m]) : n.IsComplete := by
  have hone : n.significant.length = 1 := by rw [hc]; rfl
  refine .of_kind hk (fun a ha => ?_) fun _ => hone
  cases ha
  exact Nat.le_of_eq hone.symm

theorem Defines.isComplete {name : String} {e : Expr} (h : n.Defines source name e) :
    n.IsComplete := by
  obtain ⟨hk, _, _, _, _, _, hvalue, _⟩ := h
  exact .of_last hk rfl nofun hvalue

theorem Stands.isComplete (h : n.Stands source) : n.IsComplete := by
  cases h with
  | stmt h =>
    cases h with
    | assignment h => exact h.isComplete
    | define hk hc | evaluate hk hc => exact .of_single hk hc
  | definition h => exact h.isComplete
  | expr h =>
    cases h with
    | number hk => rcases hk with hk | hk <;> exact .of_kind hk nofun nofun
    | identifier hk => exact .of_kind hk nofun nofun
    | binary hk _ _ hright => exact .of_last hk rfl nofun hright
    | call1 hk _ _ _ hlist | call2 hk _ _ _ hlist => exact .of_last hk rfl nofun hlist

def keep : Nat → List Node → List Node
  | _, [] => []
  | 0, n :: ns => if n.isExtra then n :: keep 0 ns else keep 0 ns
  | k + 1, n :: ns => n :: keep (if n.isExtra then k + 1 else k) ns

theorem keep_sublist (k : Nat) (ns : List Node) : (keep k ns).Sublist ns := by
  fun_induction keep k ns with
  | case1 => exact .slnil
  | case2 n ns _ ih => exact ih.cons_cons n
  | case3 n ns _ ih => exact ih.cons n
  | case4 k n ns ih => exact ih.cons_cons n

theorem filter_keep (k : Nat) (ns : List Node) :
    (keep k ns).filter (!·.isExtra) = (ns.filter (!·.isExtra)).take k := by
  fun_induction keep k ns with
  | case1 => simp
  | case2 n ns h ih => simp_all
  | case3 n ns h ih => simp_all
  | case4 k n ns ih => cases h : n.isExtra <;> simp_all

/-- The children without the surplus, unless the node is an expression statement. -/
def kept (n : Node) : List Node :=
  if n.kind = NodeKind.expressionStatement.name then n.children
  else
    match n.arity? with
    | some k => keep k n.children
    | none => n.children

def cut (n : Node) : Node := { n with children := n.kept }

theorem cut_of_kept (h : n.kept = n.children) : n.cut = n := by
  rw [cut, h]
  cases n; rfl

theorem cut_of_kind (h : n.kind = NodeKind.expressionStatement.name) : n.cut = n :=
  cut_of_kept (if_pos h)

theorem cut_of_none (h : n.arity? = none) : n.cut = n :=
  cut_of_kept (by rw [kept, h]; exact ite_self _)

theorem children_cut_subset (n : Node) : n.cut.children ⊆ n.children := by
  unfold cut kept
  split
  · exact List.Subset.refl _
  · split
    next k _ => exact (keep_sublist k n.children).subset
    next => exact List.Subset.refl _

theorem significant_cut {k : Nat} (h : n.arity? = some k)
    (hk : n.kind ≠ NodeKind.expressionStatement.name) :
    n.cut.significant = n.significant.take k := by
  have hkept : n.kept = keep k n.children := by
    rw [kept, if_neg hk, h]
  rw [significant, cut, hkept]
  exact filter_keep k n.children

/-- Nothing that a node is made of is cut off. -/
theorem part_cut {s : Shortage} (hk : n.kind = s.kind.name) :
    n.cut.significant[s.place]? = n.significant[s.place]? := by
  by_cases hstmt : n.kind = NodeKind.expressionStatement.name
  · rw [cut_of_kind hstmt]
  · obtain ⟨k, hs⟩ : ∃ k, s.kind.arity? = some k := by cases s <;> exact ⟨_, rfl⟩
    have hplace : s.place < k := by cases s <;> cases hs <;> decide
    rw [significant_cut ((arity?_of_kind hk).trans hs) hstmt, List.getElem?_take_of_lt hplace]

def trim : Node → Node := rebuild cut

def trimBelow (root : Node) : Node := { root with children := root.children.map trim }

theorem trim_eq (n : Node) : n.trim = n.trimBelow.cut := rebuild_eq cut n

theorem kind_trim (n : Node) : n.trim.kind = n.kind := by rw [trim_eq]; rfl
theorem span_trim (n : Node) : n.trim.span = n.span := by rw [trim_eq]; rfl
theorem isNamed_trim (n : Node) : n.trim.isNamed = n.isNamed := by rw [trim_eq]; rfl
theorem isExtra_trim (n : Node) : n.trim.isExtra = n.isExtra := by rw [trim_eq]; rfl

theorem significant_trimBelow (n : Node) : n.trimBelow.significant = n.significant.map trim := by
  rw [significant, trimBelow, List.filter_map, significant]
  simp [Function.comp_def, isExtra_trim]

theorem content_trimBelow (n : Node) : n.trimBelow.content = n.content.map trim := by
  have hcontent : isContent ∘ trim = isContent := by
    funext m
    simp [isContent, isNamed_trim, isExtra_trim]
  rw [content, trimBelow, List.filter_map, hcontent, content]

theorem correspond_trim (source : String) :
    Correspond (.moved id) source source fun n m => m = n.trim := by
  refine .of_map kind_trim span_trim (fun n => slice_eq_mapSpan_id (span_trim n))
    (fun n s hk => ?_) (fun n hk => ?_) fun n hk => ?_
  · rw [trim_eq, part_cut (n := n.trimBelow) hk, significant_trimBelow, List.getElem?_map]
  · rw [trim_eq, cut_of_kind (n := n.trimBelow) hk, significant_trimBelow, List.length_map]
  · have hlist : n.trimBelow.arity? = none := arity?_of_kind hk
    rw [trim_eq, cut_of_none hlist, content_trimBelow]

theorem toProgram_trimBelow (root : Node) (source : String) :
    root.trimBelow.toProgram source = root.toProgram source := by
  refine (correspond_trim source).toProgram_eq ?_
  rw [content_trimBelow]
  exact forall₂_map root.content

theorem firstFault?_trimBelow (h : root.firstFault? = none) :
    root.trimBelow.firstFault? = none := by
  have hsound := firstFault?_eq_none_iff.mp h
  refine firstFault?_eq_none_of_children (hsound root (mem_preorder_self root)) fun m hm => ?_
  obtain ⟨child, hc, rfl⟩ := List.mem_map.mp hm
  refine firstFault?_rebuild children_cut_subset (fun _ => rfl) ?_
  refine firstFault?_eq_none_iff.mpr fun k hk => ?_
  exact hsound k (mem_preorder_of_mem hc hk)

theorem exists_trim_of_mem (h : m ∈ n.trim.children) : ∃ k : Node, m = k.trim := by
  rw [trim_eq] at h
  obtain ⟨k, -, rfl⟩ := List.mem_map.mp (children_cut_subset _ h)
  exact ⟨k, rfl⟩

theorem Lowers.exists_trim (h : root.trimBelow.Lowers n) : ∃ k : Node, n = k.trim := by
  induction h with
  | content hn =>
    obtain ⟨k, -, rfl⟩ := List.mem_map.mp (mem_of_mem_content hn)
    exact ⟨k, rfl⟩
  | part _ hm ih =>
    obtain ⟨k, rfl⟩ := ih
    rcases mem_parts hm with hm | ⟨c, hc, hm⟩
    · exact exists_trim_of_mem hm
    · obtain ⟨c, rfl⟩ := exists_trim_of_mem hc
      exact exists_trim_of_mem hm

theorem length_significant_trim_le {k : Nat} (h : n.trim.arity? = some k)
    (hk : n.trim.kind ≠ NodeKind.expressionStatement.name) : n.trim.significant.length ≤ k := by
  rw [kind_trim] at hk
  rw [arity?, kind_trim] at h
  rw [trim_eq, significant_cut (n := n.trimBelow) h hk]
  exact List.length_take_le _ _

/-- What is lowered of an accepted tree without surplus children is whole. -/
theorem Lowers.isWhole_trim {p : Program}
    (hp : List.Forall₂ (ReadsStmt source) root.trimBelow.content p)
    (h : root.trimBelow.Lowers n) : n.IsWhole := by
  intro k hk
  have hn := (h.stands hp).isComplete
  by_cases hstmt : n.kind = NodeKind.expressionStatement.name
  · have hone := (arity?_of_kind hstmt).symm.trans hk
    cases hone
    exact hn.single hstmt
  · -- It was trimmed, so it has no more than it is made of.
    obtain ⟨m, rfl⟩ := h.exists_trim
    exact Nat.le_antisymm (length_significant_trim_le hk hstmt) (hn.arity_le k hk)

end Node

/-- No node that is lowered with an accepted tree lacks a part, and its expression statements hold
one child. Without the surplus children of the others it is lowered to the same program with the
same events, and then every node that is lowered is whole. -/
theorem lower_ignores_surplus {root : Node} {source : String} {p : Program}
    (h : (lower root source).result = .ok p) :
    (∀ n, root.Lowers n → n.IsComplete) ∧
    lower root.trimBelow source = lower root source ∧
    ∀ n, root.trimBelow.Lowers n → n.IsWhole := by
  cases hfault : root.firstFault? with
  | some fault => rw [result_lower_of_fault hfault] at h; cases h
  | none =>
    rw [result_lower_of_sound hfault] at h
    have htrim := root.toProgram_trimBelow source
    have hp := Node.result_toProgram_eq_ok.mp h
    have hp' := Node.result_toProgram_eq_ok.mp ((congrArg Report.result htrim).trans h)
    refine ⟨fun n hn => (hn.stands hp).isComplete, ?_, fun n hn => hn.isWhole_trim hp'⟩
    rw [lower_of_sound hfault, lower_of_sound (Node.firstFault?_trimBelow hfault), lowerSound_eq,
      lowerSound_eq, htrim]

/-- A tree of `a=f(1+2)` in which the assignment, the call and the sum each have a name behind what
they are made of. -/
def crowdedAssignment : Node :=
  let name (i : Nat) : Node := ⟨"identifier", "", ⟨i, i + 1⟩, [], true, false, false⟩
  let number (i : Nat) : Node := ⟨"integer", "", ⟨i, i + 1⟩, [], true, false, false⟩
  let token (kind : String) (i : Nat) : Node := ⟨kind, "", ⟨i, i + 1⟩, [], false, false, false⟩
  let sum : Node :=
    ⟨"binary_operator", "", ⟨4, 7⟩, [number 4, token "+" 5, number 6, name 0], true, false, false⟩
  let list : Node :=
    ⟨"argument_list", "", ⟨3, 8⟩, [token "(" 3, sum, token ")" 7], true, false, false⟩
  let call : Node := ⟨"call", "", ⟨2, 8⟩, [name 2, list, name 0], true, false, false⟩
  ⟨"module", "", ⟨0, 8⟩,
    [⟨"assignment", "", ⟨0, 8⟩, [name 0, token "=" 1, call, name 0], true, false, false⟩],
    true, false, false⟩

theorem lower_crowdedAssignment :
    let source := "a=f(1+2)"
    let sum : Expr :=
      .binary .add (.number ⟨0x3ff0000000000000⟩) (.number ⟨0x4000000000000000⟩)
    (lower crowdedAssignment source).result = .ok [.define "a" (.call1 "f" sum)] ∧
    crowdedAssignment.size = 16 ∧ crowdedAssignment.trimBelow.size = 13 ∧
    lower crowdedAssignment.trimBelow source = lower crowdedAssignment source ∧
    ∀ n, crowdedAssignment.trimBelow.Lowers n → n.IsWhole := by
  intro source sum
  have hlower : (lower crowdedAssignment source).result = .ok [.define "a" (.call1 "f" sum)] := by
    decide +kernel
  have hsize : crowdedAssignment.size = 16 ∧ crowdedAssignment.trimBelow.size = 13 := by
    decide +kernel
  exact ⟨hlower, hsize.1, hsize.2, (lower_ignores_surplus hlower).2⟩

/-- The sum of a tree of `1+2 x` with the name behind its operands. -/
def crowdedSum : Node :=
  ⟨"binary_operator", "", ⟨0, 5⟩,
    [⟨"integer", "", ⟨0, 1⟩, [], true, false, false⟩,
      ⟨"+", "", ⟨1, 2⟩, [], false, false, false⟩,
      ⟨"integer", "", ⟨2, 3⟩, [], true, false, false⟩,
      ⟨"identifier", "", ⟨4, 5⟩, [], true, false, false⟩],
    true, false, false⟩

def crowdedSumModule : Node :=
  ⟨"module", "", ⟨0, 5⟩, [⟨"expression_statement", "", ⟨0, 5⟩, [crowdedSum], true, false, false⟩],
    true, false, false⟩

/-- Nodes that are lowered with an accepted tree need not be whole: `1+2 x` is lowered as `1+2`. -/
theorem not_isWhole_of_lowered :
    ¬ ∀ (root : Node) (source : String) (p : Program), (lower root source).result = .ok p →
      ∀ n, root.Lowers n → n.IsWhole := by
  intro hwhole
  have hlower : (lower crowdedSumModule "1+2 x").result = .ok
      [.evaluate (.binary .add (.number ⟨0x3ff0000000000000⟩) (.number ⟨0x4000000000000000⟩))] := by
    decide +kernel
  have hsum : crowdedSumModule.Lowers crowdedSum :=
    .part (.content (List.mem_singleton_self _)) (List.mem_singleton_self _)
  have hlength : crowdedSum.significant.length = 3 := hwhole _ _ _ hlower _ hsum 3 rfl
  exact absurd hlength (by decide)

end Scriptlet
