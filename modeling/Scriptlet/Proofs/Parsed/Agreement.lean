import Scriptlet.Proofs.Parsed.Cursor
import Scriptlet.Proofs.Reading.Faithful

/-! # Marked trees and plain trees

A parser's marks lead down one path, a plain tree is searched node by node. With exact marks both
find the same fault, and with sound marks no fault is missed, so a tree is lowered with its marks
as it is without them.
-/

namespace Scriptlet

namespace ParseTree

variable {t u : ParseTree} {ts : List ParseTree}

theorem mem_preorder : u ∈ t.preorder ↔ u = t ∨ ∃ child ∈ t.children, u ∈ child.preorder := by
  rw [preorder_eq, List.mem_cons, mem_preorderAll]

/-- Each node is marked just if it is faulty or has a marked child. -/
def MarksExact (t : ParseTree) : Prop :=
  ∀ u ∈ t.preorder, u.isDamaged = (u.isFaulty || u.children.any isDamaged)

/-- Each node with a faulty node in its subtree is marked. -/
def MarksSound (t : ParseTree) : Prop :=
  ∀ u ∈ t.preorder, ∀ v ∈ u.preorder, v.isFaulty = true → u.isDamaged = true

theorem MarksExact.child (h : t.MarksExact) (hu : u ∈ t.children) : u.MarksExact :=
  fun v hv => h v (mem_preorder.mpr (.inr ⟨u, hu, hv⟩))

theorem MarksExact.isDamaged_iff (h : t.MarksExact) :
    t.isDamaged = true ↔ ∃ u ∈ t.preorder, u.isFaulty = true := by
  induction t using inductionOnChildren with
  | step t ih =>
    rw [h t (mem_preorder_self t), Bool.or_eq_true, List.any_eq_true]
    constructor
    · rintro (hf | ⟨child, hc, hd⟩)
      · exact ⟨t, mem_preorder_self t, hf⟩
      · obtain ⟨u, hu, hf⟩ := (ih child hc (h.child hc)).mp hd
        exact ⟨u, mem_preorder.mpr (.inr ⟨child, hc, hu⟩), hf⟩
    · rintro ⟨u, hu, hf⟩
      rcases mem_preorder.mp hu with rfl | ⟨child, hc, hu⟩
      · exact .inl hf
      · exact .inr ⟨child, hc, (ih child hc (h.child hc)).mpr ⟨u, hu, hf⟩⟩

theorem MarksExact.sound (h : t.MarksExact) : t.MarksSound := by
  induction t using inductionOnChildren with
  | step t ih =>
    intro u hu v hv hf
    rcases mem_preorder.mp hu with rfl | ⟨child, hc, hu⟩
    · exact h.isDamaged_iff.mpr ⟨v, hv, hf⟩
    · exact ih child hc (h.child hc) u hu v hv hf

theorem damage?_eq (t : ParseTree) :
    t.damage? = if t.isFaulty then some t else damageAmong? t.children := by
  cases t; rfl

/-- With exact marks the first marked tree holds the first fault, so nothing is lost by searching
no other. -/
theorem damageAmong?_eq_find? (hm : ∀ u ∈ ts, u.MarksExact)
    (hd : ∀ u ∈ ts, u.damage? = u.preorder.find? isFaulty) :
    damageAmong? ts = (preorderAll ts).find? isFaulty := by
  induction ts with
  | nil => rfl
  | cons t ts ih =>
    have hiff := (hm t List.mem_cons_self).isDamaged_iff
    rw [damageAmong?, preorderAll, List.find?_append]
    by_cases h : t.isDamaged = true
    · obtain ⟨u, hu⟩ := Option.isSome_iff_exists.mp (List.find?_isSome.mpr (hiff.mp h))
      rw [if_pos h, hd t List.mem_cons_self, hu, Option.some_or]
    · have hnone : t.preorder.find? isFaulty = none := by
        rw [List.find?_eq_none]
        exact fun u hu hf => h (hiff.mpr ⟨u, hu, hf⟩)
      rw [if_neg h, hnone, Option.none_or]
      exact ih (fun u hu => hm u (List.mem_cons_of_mem _ hu))
        fun u hu => hd u (List.mem_cons_of_mem _ hu)

theorem MarksExact.damage?_eq_find? (h : t.MarksExact) :
    t.damage? = t.preorder.find? isFaulty := by
  induction t using inductionOnChildren with
  | step t ih =>
    rw [damage?_eq, preorder_eq, List.find?_cons]
    cases t.isFaulty with
    | true => rfl
    | false =>
      exact damageAmong?_eq_find? (fun u hu => h.child hu) fun u hu => ih u hu (h.child hu)

theorem isFaulty_toNode (t : ParseTree) : t.toNode.isFaulty = t.isFaulty := by
  simp [isFaulty, Node.isFaulty, Node.isError]

theorem preorderAll_toNodes (h : ∀ u ∈ ts, u.toNode.preorder = u.preorder.map toNode) :
    Node.preorderAll (ts.map toNode) = (preorderAll ts).map toNode := by
  induction ts with
  | nil => rfl
  | cons t ts ih =>
    rw [List.map_cons, Node.preorderAll, preorderAll, List.map_append, h t List.mem_cons_self,
      ih fun u hu => h u (List.mem_cons_of_mem _ hu)]

theorem preorder_toNode (t : ParseTree) : t.toNode.preorder = t.preorder.map toNode := by
  induction t using inductionOnChildren with
  | step t ih =>
    rw [Node.preorder_eq, preorder_eq, toNode_children, preorderAll_toNodes ih, List.map_cons]

theorem firstFault?_toNode (t : ParseTree) :
    t.toNode.firstFault? = (t.preorder.find? isFaulty).map toNode := by
  rw [Node.firstFault?_eq, preorder_toNode, List.find?_map]
  congr 2
  funext u
  exact isFaulty_toNode u

end ParseTree

def Report.IsSyntaxError {α : Type} (r : Report α) : Prop :=
  ∃ message span, r.result = .error (.syntaxError message span)

theorem not_isSyntaxError_toProgram (root : Node) (source : String) :
    ¬ (root.toProgram source).IsSyntaxError := by
  rintro ⟨message, span, h⟩
  obtain ⟨_, _, _, hfalse⟩ := root.faithful_toProgram source _ h
  exact hfalse

namespace ParseTree

variable {t : ParseTree}

theorem result_lower_of_damage {fault : ParseTree} (h : t.isDamaged = true)
    (hf : t.damage? = some fault) (source : String) :
    (t.lower source).result =
      .error (.ofFault fault.isMissing fault.kind fault.span source) := by
  simp [lower, h, hf, rejectFault]

theorem result_lower_of_unmarked (h : t.isDamaged = false) (source : String) :
    (t.lower source).result = (t.toNode.toProgram source).result := by
  simp [lower, h, lowerSound_ofRoot, result_lowerSound]

theorem isSyntaxError_lower (h : t.isDamaged = true) (source : String) :
    (t.lower source).IsSyntaxError := by
  cases hf : t.damage? with
  | some fault => exact ⟨_, _, result_lower_of_damage h hf source⟩
  | none =>
    refine ⟨(Damage.describe false t.kind t.span source).message, t.span, ?_⟩
    simp [lower, h, hf, rejectFault, Refusal.ofFault]

theorem MarksSound.firstFault?_eq_none (h : t.MarksSound) (hd : t.isDamaged = false) :
    t.toNode.firstFault? = none := by
  rw [firstFault?_toNode, Option.map_eq_none_iff, List.find?_eq_none]
  intro u hu hf
  have := h t (mem_preorder_self t) u hu hf
  simp_all

/-- With exact marks a tree is lowered as it is without them, and the same fault is found. With
sound marks it is so unless the marks make the source refused, and what is refused without them
is refused with them. -/
theorem lower_agrees (t : ParseTree) (source : String) :
    (t.MarksExact →
      t.damage?.map toNode = t.toNode.firstFault? ∧
      (t.lower source).result = (Scriptlet.lower t.toNode source).result) ∧
    (t.MarksSound →
      (¬ (t.lower source).IsSyntaxError →
        (t.lower source).result = (Scriptlet.lower t.toNode source).result) ∧
      ((Scriptlet.lower t.toNode source).IsSyntaxError → (t.lower source).IsSyntaxError)) := by
  have hsound (h : t.MarksSound) (hd : t.isDamaged = false) :
      (t.lower source).result = (Scriptlet.lower t.toNode source).result := by
    rw [result_lower_of_unmarked hd, result_lower_of_sound (h.firstFault?_eq_none hd)]
  refine ⟨fun h => ?_, fun h => ⟨fun hn => ?_, fun hs => ?_⟩⟩
  · have hfind : t.damage?.map toNode = t.toNode.firstFault? := by
      rw [firstFault?_toNode, h.damage?_eq_find?]
    refine ⟨hfind, ?_⟩
    cases hd : t.isDamaged with
    | false => exact hsound h.sound hd
    | true =>
      obtain ⟨u, hu⟩ := Option.isSome_iff_exists.mp (List.find?_isSome.mpr (h.isDamaged_iff.mp hd))
      have hdamage := h.damage?_eq_find?.trans hu
      have hfault : t.toNode.firstFault? = some u.toNode := by rw [← hfind, hdamage]; rfl
      rw [result_lower_of_damage hd hdamage, result_lower_of_fault hfault]
      simp
  · cases hd : t.isDamaged with
    | false => exact hsound h hd
    | true => exact absurd (isSyntaxError_lower hd source) hn
  · cases hd : t.isDamaged with
    | true => exact isSyntaxError_lower hd source
    | false =>
      obtain ⟨message, span, hs⟩ := hs
      rw [result_lower_of_sound (h.firstFault?_eq_none hd)] at hs
      exact absurd ⟨message, span, hs⟩ (not_isSyntaxError_toProgram t.toNode source)

/-- The tree of `1 $`, marked exactly. -/
def damagedTree : ParseTree :=
  ⟨"module", ⟨0, 3⟩,
    [⟨"expression_statement", ⟨0, 1⟩, [⟨"integer", ⟨0, 1⟩, [], true, false, false, false⟩],
        true, false, false, false⟩,
      ⟨"ERROR", ⟨2, 3⟩, [], true, false, false, true⟩],
    true, false, false, true⟩

/-- A tree of `a` with a mark that leads to no fault. -/
def overmarkedTree : ParseTree :=
  ⟨"module", ⟨0, 1⟩,
    [⟨"expression_statement", ⟨0, 1⟩, [⟨"identifier", ⟨0, 1⟩, [], true, false, false, false⟩],
      true, false, false, true⟩],
    true, false, false, false⟩

theorem lower_agrees_damagedTree :
    (damagedTree.MarksExact ∧ damagedTree.damage?.map toNode = damagedTree.toNode.firstFault? ∧
      (damagedTree.lower "1 $").result = (Scriptlet.lower damagedTree.toNode "1 $").result) ∧
    (damagedTree.MarksSound ∧ (Scriptlet.lower damagedTree.toNode "1 $").IsSyntaxError ∧
      (damagedTree.lower "1 $").IsSyntaxError) ∧
    (overmarkedTree.MarksSound ∧ ¬ (overmarkedTree.lower "a").IsSyntaxError ∧
      (overmarkedTree.lower "a").result = (Scriptlet.lower overmarkedTree.toNode "a").result) := by
  have hexact : damagedTree.MarksExact := by unfold MarksExact; decide
  have hsound : damagedTree.MarksSound := by unfold MarksSound; decide
  have hover : overmarkedTree.MarksSound := by unfold MarksSound; decide
  have hrefused : (Scriptlet.lower damagedTree.toNode "1 $").IsSyntaxError :=
    ⟨"syntax error near `$`", ⟨2, 3⟩, by decide +kernel⟩
  have hlowered : (overmarkedTree.lower "a").result = .ok [.evaluate (.identifier "a")] := by
    decide +kernel
  have haccepted : ¬ (overmarkedTree.lower "a").IsSyntaxError := by
    rintro ⟨message, span, h⟩
    rw [hlowered] at h
    cases h
  exact ⟨⟨hexact, (lower_agrees damagedTree "1 $").1 hexact⟩,
    ⟨hsound, hrefused, ((lower_agrees damagedTree "1 $").2 hsound).2 hrefused⟩,
    ⟨hover, haccepted, ((lower_agrees overmarkedTree "a").2 hover).1 haccepted⟩⟩

end ParseTree

end Scriptlet
