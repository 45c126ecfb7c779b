import Scriptlet.Proofs.Parsed.Agreement

/-! # Where marks lead

A parser also marks what it dropped without a trace, and the search takes the first mark that it
sees. So in a soundly marked tree it finds the first fault in document order or nothing at all, and
nothing just if some node on the way has a marked child without a fault before the one with the
fault.
-/

namespace Scriptlet.ParseTree

def HoldsFault (t : ParseTree) : Prop := ∃ u ∈ t.preorder, u.isFaulty = true

instance (t : ParseTree) : Decidable t.HoldsFault :=
  inferInstanceAs (Decidable (∃ u ∈ t.preorder, u.isFaulty = true))

/-- One of the children has a fault, but the first that is marked has none. -/
def Misleads (t : ParseTree) : Prop :=
  (∃ u ∈ t.children, u.HoldsFault) ∧ ∃ u ∈ t.children.find? isDamaged, ¬ u.HoldsFault

instance (t : ParseTree) : Decidable t.Misleads := inferInstanceAs (Decidable (_ ∧ _))

variable {t u fault : ParseTree} {ts before after : List ParseTree}

theorem MarksSound.child (h : t.MarksSound) (hu : u ∈ t.children) : u.MarksSound :=
  fun v hv => h v (mem_preorder.mpr (.inr ⟨u, hu, hv⟩))

theorem MarksSound.isDamaged (h : t.MarksSound) (hf : t.HoldsFault) : t.isDamaged = true := by
  obtain ⟨u, hu, hf⟩ := hf
  exact h t (mem_preorder_self t) u hu hf

theorem HoldsFault.of_child (hu : u ∈ t.children) (h : u.HoldsFault) : t.HoldsFault := by
  obtain ⟨v, hv, hf⟩ := h
  exact ⟨v, mem_preorder.mpr (.inr ⟨u, hu, hv⟩), hf⟩

theorem HoldsFault.of_mem_preorder (hu : u ∈ t.preorder) (h : u.HoldsFault) : t.HoldsFault := by
  induction t using inductionOnChildren with
  | step t ih =>
    rcases mem_preorder.mp hu with rfl | ⟨child, hc, hu⟩
    · exact h
    · exact .of_child hc (ih child hc hu)

theorem Misleads.holdsFault (h : t.Misleads) : t.HoldsFault := by
  obtain ⟨⟨u, hu, hf⟩, -⟩ := h
  exact .of_child hu hf

section Clean

variable (hts : ∀ u ∈ preorderAll ts, u.isFaulty = false)
include hts

theorem not_holdsFault_of_mem_preorderAll (hu : u ∈ preorderAll ts) : ¬ u.HoldsFault := by
  intro h
  obtain ⟨t, ht, hu⟩ := mem_preorderAll.mp hu
  obtain ⟨v, hv, hf⟩ := h.of_mem_preorder hu
  have := hts v (mem_preorderAll.mpr ⟨t, ht, hv⟩)
  simp_all

theorem not_holdsFault_of_mem (ht : t ∈ ts) : ¬ t.HoldsFault :=
  not_holdsFault_of_mem_preorderAll hts (mem_preorderAll.mpr ⟨t, ht, mem_preorder_self t⟩)

end Clean

/-! ## The search -/

theorem damageAmong?_eq_bind (ts : List ParseTree) :
    damageAmong? ts = (ts.find? isDamaged).bind damage? := by
  induction ts with
  | nil => rfl
  | cons t ts ih =>
    rw [damageAmong?, List.find?_cons]
    cases t.isDamaged with
    | true => rfl
    | false => exact ih

theorem damage?_of_isFaulty (h : t.isFaulty = true) : t.damage? = some t := by
  rw [damage?_eq, if_pos h]

theorem damage?_of_find? (h : t.isFaulty = false) (hu : t.children.find? isDamaged = some u) :
    t.damage? = u.damage? := by
  rw [damage?_eq, h, damageAmong?_eq_bind, hu]
  rfl

theorem holdsFault_of_damage? (h : t.damage? = some u) : t.HoldsFault := by
  induction t using inductionOnChildren with
  | step t ih =>
    cases hf : t.isFaulty with
    | true => exact ⟨t, mem_preorder_self t, hf⟩
    | false =>
      rw [damage?_eq, hf, damageAmong?_eq_bind] at h
      obtain ⟨child, hc, h⟩ := Option.bind_eq_some_iff.mp h
      have hc := List.mem_of_find?_eq_some hc
      exact .of_child hc (ih child hc h)

theorem damage?_eq_none (h : ¬ t.HoldsFault) : t.damage? = none := by
  cases hd : t.damage? with
  | none => rfl
  | some u => exact absurd (holdsFault_of_damage? hd) h

/-! ## The first fault and the nodes before it -/

theorem exists_split_of_preorderAll (h : preorderAll ts = before ++ fault :: after) :
    ∃ ls c rs front back, ts = ls ++ c :: rs ∧ before = preorderAll ls ++ front ∧
      c.preorder = front ++ fault :: back := by
  induction ts generalizing before with
  | nil => simp [preorderAll] at h
  | cons t ts ih =>
    rw [preorderAll] at h
    rcases List.append_eq_append_iff.mp h with ⟨rest, rfl, hrest⟩ | ⟨rest, ht, hrest⟩
    · obtain ⟨ls, c, rs, front, back, rfl, rfl, hc⟩ := ih hrest
      exact ⟨t :: ls, c, rs, front, back, rfl, by simp [preorderAll], hc⟩
    · cases rest with
      | nil =>
        have hrest : preorderAll ts = [] ++ fault :: after := hrest.symm
        obtain ⟨ls, c, rs, front, back, rfl, hfront, hc⟩ := ih hrest
        refine ⟨t :: ls, c, rs, front, back, rfl, ?_, hc⟩
        simpa [preorderAll, List.append_assoc, ← hfront] using ht.symm
      | cons m rest =>
        obtain ⟨rfl, -⟩ := List.cons.inj hrest
        exact ⟨[], t, ts, before, rest, rfl, rfl, ht⟩

theorem find?_isDamaged_cases (ls rs : List ParseTree) (hd : u.isDamaged = true) :
    (ls ++ u :: rs).find? isDamaged = some u ∨
      ∃ l ∈ ls, (ls ++ u :: rs).find? isDamaged = some l := by
  rw [List.find?_append]
  cases hl : ls.find? isDamaged with
  | some l => exact .inr ⟨l, List.mem_of_find?_eq_some hl, rfl⟩
  | none => simp [hd]

/-- One step of the search: it goes on in the child with the first fault, unless the tree misleads
it into a child without any. -/
theorem MarksSound.damage?_step {ls rs : List ParseTree} (h : t.MarksSound)
    (ht : t.isFaulty = false) (hchildren : t.children = ls ++ u :: rs)
    (hls : ∀ v ∈ preorderAll ls, v.isFaulty = false) (hu : u.HoldsFault) :
    ¬ t.Misleads ∧ t.damage? = u.damage? ∨ t.Misleads ∧ t.damage? = none := by
  have hmem : u ∈ t.children := by simp [hchildren]
  have hdamaged := (h.child hmem).isDamaged hu
  rcases find?_isDamaged_cases ls rs hdamaged with hfind | ⟨l, hl, hfind⟩
  · rw [← hchildren] at hfind
    refine .inl ⟨?_, damage?_of_find? ht hfind⟩
    rintro ⟨-, v, hv, hnone⟩
    rw [hfind] at hv
    exact hnone (Option.mem_some_iff.mp hv ▸ hu)
  · rw [← hchildren] at hfind
    have hnone := not_holdsFault_of_mem hls hl
    refine .inr ⟨⟨⟨u, hmem, hu⟩, l, hfind, hnone⟩, ?_⟩
    rw [damage?_of_find? ht hfind, damage?_eq_none hnone]

/-- With sound marks the search finds the first fault, unless one of the nodes before it misleads
the search: then it finds nothing. -/
theorem MarksSound.damage?_cases (h : t.MarksSound) (hsplit : t.preorder = before ++ fault :: after)
    (hfault : fault.isFaulty = true) (hbefore : ∀ u ∈ before, u.isFaulty = false) :
    (∀ u ∈ before, ¬ u.Misleads) ∧ t.damage? = some fault ∨
      (∃ u ∈ before, u.Misleads) ∧ t.damage? = none := by
  induction t using inductionOnChildren generalizing before after with
  | step t ih =>
    rw [preorder_eq] at hsplit
    cases before with
    | nil =>
      obtain ⟨rfl, -⟩ := List.cons.inj hsplit
      exact .inl ⟨by simp, damage?_of_isFaulty hfault⟩
    | cons first before =>
      obtain ⟨rfl, htail⟩ := List.cons.inj hsplit
      obtain ⟨ht, hbefore⟩ := List.forall_mem_cons.mp hbefore
      obtain ⟨ls, c, rs, front, back, hchildren, rfl, hc⟩ := exists_split_of_preorderAll htail
      -- The fault hangs below `c`, and the children before `c` are free of faults.
      obtain ⟨hls, hfront⟩ := List.forall_mem_append.mp hbefore
      have hmem : c ∈ t.children := by simp [hchildren]
      have hholds : c.HoldsFault := ⟨fault, by simp [hc], hfault⟩
      rcases h.damage?_step ht hchildren hls hholds with ⟨hhere, hd⟩ | ⟨hhere, hd⟩
      · rw [hd]
        rcases ih c hmem (h.child hmem) hc hfront with ⟨hnone, hd⟩ | ⟨⟨u, hu, hm⟩, hd⟩
        · have hleft : ∀ u ∈ preorderAll ls, ¬ u.Misleads :=
            fun u hu hm => not_holdsFault_of_mem_preorderAll hls hu hm.holdsFault
          refine .inl ⟨?_, hd⟩
          exact List.forall_mem_cons.mpr ⟨hhere, List.forall_mem_append.mpr ⟨hleft, hnone⟩⟩
        · exact .inr ⟨⟨u, by simp [hu], hm⟩, hd⟩
      · exact .inr ⟨⟨t, List.mem_cons_self, hhere⟩, hd⟩

/-- A soundly marked tree with a fault is refused at the first fault in document order unless a node
before the fault misleads the search. Then no fault is found, and the tree is refused at its
root. -/
theorem lower_guided (source : String) (h : t.MarksSound)
    (hsplit : t.preorder = before ++ fault :: after) (hfault : fault.isFaulty = true)
    (hbefore : ∀ u ∈ before, u.isFaulty = false) :
    ((∀ u ∈ before, ¬ u.Misleads) →
      t.damage? = some fault ∧
      (t.lower source).result =
        .error (.ofFault fault.isMissing fault.kind fault.span source)) ∧
    ((∃ u ∈ before, u.Misleads) →
      t.damage? = none ∧
      (t.lower source).result = .error (.ofFault false t.kind t.span source)) := by
  have hdamaged : t.isDamaged = true := h.isDamaged ⟨fault, by simp [hsplit], hfault⟩
  rcases h.damage?_cases hsplit hfault hbefore with ⟨hnone, hd⟩ | ⟨⟨u, hu, hm⟩, hd⟩
  · constructor
    · intro _
      exact ⟨hd, result_lower_of_damage hdamaged hd source⟩
    · rintro ⟨u, hu, hm⟩
      exact absurd hm (hnone u hu)
  · constructor
    · intro hnone
      exact absurd hm (hnone u hu)
    · intro _
      exact ⟨hd, by simp [lower, hdamaged, hd, rejectFault]⟩

/-- The head of a statement without a body. The body's mark stands for a token that no node shows.
-/
def bodilessHead : ParseTree :=
  ⟨"match_statement", ⟨0, 8⟩,
    [⟨"match", ⟨0, 5⟩, [], false, false, false, false⟩,
      ⟨"identifier", ⟨6, 7⟩, [], true, false, false, false⟩,
      ⟨":", ⟨7, 8⟩, [], false, false, false, false⟩,
      ⟨"block", ⟨8, 8⟩, [], true, false, false, true⟩],
    true, false, false, true⟩

def misplacedClause : ParseTree :=
  ⟨"ERROR", ⟨13, 22⟩,
    [⟨"for", ⟨13, 16⟩, [], false, false, false, false⟩,
      ⟨"identifier", ⟨17, 18⟩, [], true, false, false, false⟩,
      ⟨"identifier", ⟨19, 20⟩, [], true, false, false, false⟩,
      ⟨"identifier", ⟨21, 22⟩, [], true, false, false, false⟩],
    true, true, false, true⟩

/-- The statement `f(a for b n c)`. -/
def brokenCall : ParseTree :=
  let list : ParseTree :=
    ⟨"argument_list", ⟨10, 23⟩,
      [⟨"(", ⟨10, 11⟩, [], false, false, false, false⟩,
        ⟨"identifier", ⟨11, 12⟩, [], true, false, false, false⟩,
        misplacedClause,
        ⟨")", ⟨22, 23⟩, [], false, false, false, false⟩],
      true, false, false, true⟩
  let call : ParseTree :=
    ⟨"call", ⟨9, 23⟩, [⟨"identifier", ⟨9, 10⟩, [], true, false, false, false⟩, list],
      true, false, false, true⟩
  ⟨"expression_statement", ⟨9, 23⟩, [call], true, false, false, true⟩

/-- The tree of `match x: f(a for b n c)`. -/
def misleadingTree : ParseTree :=
  ⟨"module", ⟨0, 23⟩, [bodilessHead, brokenCall], true, false, false, true⟩

/-- The marks of the tree are sound and its first fault is the misplaced text, but the search finds
no fault, and the tree is refused at its root. -/
theorem fault_missed_misleadingTree :
    misleadingTree.MarksSound ∧ misleadingTree.preorder.find? isFaulty = some misplacedClause ∧
    misleadingTree.damage? = none ∧
    (misleadingTree.lower "match x: f(a for b n c)").result =
      .error (.syntaxError "syntax error near `match x: f(a for b n`" ⟨0, 23⟩) :=
  ⟨by unfold MarksSound; decide, rfl, rfl, by decide +kernel⟩

/-- In one tree the search reaches the fault, in the other the root misleads it. -/
theorem lower_guided_misleadingTree :
    (damagedTree.MarksSound ∧
      (damagedTree.lower "1 $").result = .error (.ofFault false "ERROR" ⟨2, 3⟩ "1 $")) ∧
    (misleadingTree.MarksSound ∧ misleadingTree.Misleads ∧
      (misleadingTree.lower "match x: f(a for b n c)").result =
        .error (.ofFault false "module" ⟨0, 23⟩ "match x: f(a for b n c)")) := by
  have hguided : damagedTree.MarksSound := by unfold MarksSound; decide
  have hmisled : misleadingTree.MarksSound := by unfold MarksSound; decide
  have hmisleads : misleadingTree.Misleads := by decide
  have hfirst : damagedTree.preorder =
      damagedTree.preorder.take 3 ++ ⟨"ERROR", ⟨2, 3⟩, [], true, false, false, true⟩ :: [] := rfl
  have hsecond : misleadingTree.preorder = misleadingTree.preorder.take 12 ++
      misplacedClause :: misleadingTree.preorder.drop 13 := rfl
  have hfound := (lower_guided "1 $" hguided hfirst rfl (by decide)).1 (by decide)
  have hmissed := (lower_guided "match x: f(a for b n c)" hmisled hsecond rfl (by decide)).2
    ⟨misleadingTree, List.mem_cons_self, hmisleads⟩
  exact ⟨⟨hguided, hfound.2⟩, hmisled, hmisleads, hmissed.2⟩

end Scriptlet.ParseTree
