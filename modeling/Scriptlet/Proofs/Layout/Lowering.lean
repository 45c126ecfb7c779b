import Scriptlet.Proofs.Layout.Draft
import Scriptlet.Proofs.Reading.Bare
import Scriptlet.Proofs.Reading.Derivation
import Scriptlet.Proofs.Reading.Simulation
import Scriptlet.Proofs.Text.Slice

/-! # Lowering what was laid out

A token is found again at the offsets where it was written, however much is written after it. So
the tree of a layout is lowered to the program that was laid out, whatever stands in the gaps, and
comments in the tree do not change this.
-/

namespace Scriptlet.Layout

/-- What is drawn has the property in every source that continues what is written then. -/
def Draws {α : Type} (x : Drawing α) (P : String → α → Prop) : Prop :=
  ∀ pen, ∃ a more count, x pen = (a, ⟨pen.text ++ more, count⟩) ∧
    ∀ rest, P (pen.text ++ more ++ rest) a

section Rules

variable {α β : Type} {x : Drawing α} {P : String → α → Prop}

theorem draws_pure {a : α} (h : ∀ source, P source a) : Draws (pure a) P :=
  fun pen => ⟨a, "", pen.count, by rw [String.append_empty]; rfl, fun _ => h _⟩

theorem Draws.mono {Q : String → α → Prop} (hx : Draws x P)
    (h : ∀ source a, P source a → Q source a) : Draws x Q := by
  intro pen
  obtain ⟨a, more, count, hrun, ha⟩ := hx pen
  exact ⟨a, more, count, hrun, fun rest => h _ a (ha rest)⟩

/-- What is drawn first keeps its property, since the source is only continued after it. -/
theorem Draws.bind {f : α → Drawing β} {Q : String → β → Prop} (hx : Draws x P)
    (hf : ∀ a, Draws (f a) fun source b => P source a → Q source b) : Draws (x >>= f) Q := by
  intro pen
  obtain ⟨a, first, count, hrun, ha⟩ := hx pen
  obtain ⟨b, second, count', hrun', hb⟩ := hf a ⟨pen.text ++ first, count⟩
  refine ⟨b, first ++ second, count', ?_, fun rest => ?_⟩
  · change f (x pen).1 (x pen).2 = _
    rw [hrun, hrun', String.append_assoc]
  · have hfirst := ha (second ++ rest)
    have hsecond := hb rest
    simp only [String.append_assoc] at hfirst hsecond ⊢
    exact hsecond hfirst

theorem draws_mapM {f : α → Drawing β} {R : α → String → β → Prop} (hf : ∀ a, Draws (f a) (R a))
    (as : List α) :
    Draws (as.mapM f) fun source bs => List.Forall₂ (fun a b => R a source b) as bs := by
  induction as with
  | nil => exact draws_pure fun _ => .nil
  | cons a as ih =>
    rw [List.mapM_cons]
    exact (hf a).bind fun b => ih.bind fun bs => draws_pure fun _ hbs hb => .cons hb hbs

end Rules

/-- A node without faults that is no comment. -/
structure IsProper (n : Node) : Prop where
  isExtra : n.isExtra = false
  firstFault? : n.firstFault? = none

structure IsProperPart (n : Node) : Prop extends IsProper n where
  isNamed : n.isNamed = true

theorem IsProperPart.isContent {n : Node} (h : IsProperPart n) : n.isContent = true := by
  rw [Node.isContent, h.isNamed, h.isExtra]; rfl

structure IsProperMark (n : Node) : Prop extends IsProper n where
  isNamed : n.isNamed = false

theorem IsProperMark.isContent {n : Node} (h : IsProperMark n) : n.isContent = false := by
  rw [Node.isContent, h.isNamed]; rfl

section Nodes

variable {kind : String} {isNamed : Bool} {span : Span}

theorem isProper_tokenNode (hk : kind ≠ Node.errorKind) :
    IsProper (tokenNode kind isNamed span) := by
  refine ⟨rfl, Node.firstFault?_eq_none_of_children ?_ fun m hm => nomatch hm⟩
  simp [Node.isFaulty, Node.isError, tokenNode, hk]

theorem name_ne_errorKind (k : NodeKind) : k.name ≠ Node.errorKind := by cases k <;> decide

variable {k : NodeKind} {children : List Node}

theorem isProperPart_branch (h : ∀ m ∈ children, IsProper m) :
    IsProperPart (branch k children) := by
  refine ⟨⟨rfl, Node.firstFault?_eq_none_of_children ?_ fun m hm => (h m hm).firstFault?⟩, rfl⟩
  simp [Node.isFaulty, Node.isError, branch, name_ne_errorKind]

theorem significant_branch (h : ∀ m ∈ children, IsProper m) :
    (branch k children).significant = children := by
  refine List.filter_eq_self.mpr fun m hm => ?_
  rw [(h m hm).isExtra]; rfl

theorem isProper_callParts {callee : Node} (hc : IsProper callee)
    (h : ∀ m ∈ children, IsProper m) :
    ∀ m ∈ [callee, branch .argumentList children], IsProper m := by
  simp [hc, (isProperPart_branch h).toIsProper]

end Nodes

variable {gap : Nat → String}

theorem draws_token (kind : String) (isNamed : Bool) (text : String) :
    Draws (token gap kind isNamed text) fun source n =>
      ∃ span, n = tokenNode kind isNamed span ∧ span.slice? source = some text := by
  intro pen
  let before := pen.text ++ gap pen.count
  refine ⟨tokenNode kind isNamed ⟨before.utf8ByteSize, (before ++ text).utf8ByteSize⟩,
    gap pen.count ++ text, pen.count + 1, ?_, fun rest => ⟨_, rfl, ?_⟩⟩
  · rw [← String.append_assoc]; rfl
  · rw [← String.append_assoc]; exact Span.slice?_append before text rest

theorem draws_leaf (k : NodeKind) (text : String) :
    Draws (leaf gap k text) fun source n =>
      IsProperPart n ∧ n.kind = k.name ∧ n.span.slice? source = some text := by
  refine (draws_token k.name true text).mono ?_
  rintro source _ ⟨span, rfl, ht⟩
  exact ⟨⟨isProper_tokenNode (name_ne_errorKind k), rfl⟩, rfl, ht⟩

theorem draws_mark {text : String} (h : text ≠ Node.errorKind) :
    Draws (mark gap text) fun source n =>
      IsProperMark n ∧ n.kind = text ∧ n.span.slice? source = some text := by
  refine (draws_token text false text).mono ?_
  rintro source _ ⟨span, rfl, ht⟩
  exact ⟨⟨isProper_tokenNode h, rfl⟩, rfl, ht⟩

theorem draws_draft (d : Draft) :
    Draws (d.draw gap) fun source n => IsProperPart n ∧ n.Reads source d.expr := by
  induction d with
  | number literal =>
    refine (draws_leaf literal.kind literal.text).mono ?_
    rintro source n ⟨hp, hk, ht⟩
    refine ⟨hp, .number ?_ ht literal.readFinite?_text⟩
    rw [hk, Literal.kind]
    cases literal.isFloat
    · exact .inl rfl
    · exact .inr rfl
  | identifier name =>
    refine (draws_leaf .identifier name).mono ?_
    rintro source n ⟨hp, hk, ht⟩
    exact ⟨hp, .identifier hk ht⟩
  | binary op left right ihl ihr =>
    have hop : op.symbol ≠ Node.errorKind := by cases op <;> decide
    refine ihl.bind fun l => (draws_mark hop).bind fun o => ihr.bind fun r =>
      draws_pure fun source => ?_
    rintro ⟨hrp, hr⟩ ⟨hop, -, ho⟩ ⟨hlp, hl⟩
    have hparts : ∀ m ∈ [l, o, r], IsProper m := by
      simp [hlp.toIsProper, hop.toIsProper, hrp.toIsProper]
    have hsig := significant_branch (k := .binaryOperator) hparts
    exact ⟨isProperPart_branch hparts,
      .binary rfl (by rw [hsig]; rfl) (by rw [hsig]; rfl) (by rw [hsig]; rfl) hl ho hr⟩
  | call1 name arg ih =>
    refine (draws_leaf .identifier name).bind fun callee => (draws_mark (by decide)).bind fun o =>
      ih.bind fun a => (draws_mark (by decide)).bind fun c => draws_pure fun source => ?_
    rintro ⟨hc, -, -⟩ ⟨ha, hread⟩ ⟨ho, -, -⟩ ⟨hcallee, hk, ht⟩
    have hparts : ∀ m ∈ [o, a, c], IsProper m := by
      simp [ho.toIsProper, ha.toIsProper, hc.toIsProper]
    have hcontent : (branch .argumentList [o, a, c]).content = [a] := by
      simp [Node.content, branch, ho.isContent, ha.isContent, hc.isContent]
    have hpair := isProper_callParts hcallee.toIsProper hparts
    have hsig := significant_branch (k := .call) hpair
    exact ⟨isProperPart_branch hpair, .call1 rfl (by rw [hsig]; rfl) hk ht (by rw [hsig]; rfl) rfl
      hcontent hread⟩
  | call2 name first second ihf ihs =>
    refine (draws_leaf .identifier name).bind fun callee => (draws_mark (by decide)).bind fun o =>
      ihf.bind fun a => (draws_mark (by decide)).bind fun comma => ihs.bind fun b =>
      (draws_mark (by decide)).bind fun c => draws_pure fun source => ?_
    rintro ⟨hc, -, -⟩ ⟨hb, hread'⟩ ⟨hcomma, -, -⟩ ⟨ha, hread⟩ ⟨ho, -, -⟩ ⟨hcallee, hk, ht⟩
    have hparts : ∀ m ∈ [o, a, comma, b, c], IsProper m := by
      simp [ho.toIsProper, ha.toIsProper, hcomma.toIsProper, hb.toIsProper, hc.toIsProper]
    have hcontent : (branch .argumentList [o, a, comma, b, c]).content = [a, b] := by
      simp [Node.content, branch, ho.isContent, ha.isContent, hcomma.isContent, hb.isContent,
        hc.isContent]
    have hpair := isProper_callParts hcallee.toIsProper hparts
    have hsig := significant_branch (k := .call) hpair
    exact ⟨isProperPart_branch hpair, .call2 rfl (by rw [hsig]; rfl) hk ht (by rw [hsig]; rfl) rfl
      hcontent hread hread'⟩

theorem draws_line (l : Line) :
    Draws (l.draw gap) fun source n => IsProperPart n ∧ n.ReadsStmt source l.stmt := by
  cases l with
  | define name value =>
    refine (draws_leaf .identifier name).bind fun t => (draws_mark (by decide)).bind fun e =>
      (draws_draft value).bind fun v => draws_pure fun source => ?_
    rintro ⟨hv, hread⟩ ⟨he, hek, -⟩ ⟨ht, htk, hname⟩
    have hparts : ∀ m ∈ [t, e, v], IsProper m := by
      simp [ht.toIsProper, he.toIsProper, hv.toIsProper]
    have hsig := significant_branch (k := .assignment) hparts
    have hdefines : (branch .assignment [t, e, v]).Defines source name value.expr :=
      .mk rfl (by rw [hsig]; rfl) htk hname (by rw [hsig]; rfl) hek (by rw [hsig]; rfl) hread
    have hchild : ∀ m ∈ [branch .assignment [t, e, v]], IsProper m := by
      simp [(isProperPart_branch hparts).toIsProper]
    exact ⟨isProperPart_branch hchild, .define rfl (significant_branch hchild) hdefines⟩
  | evaluate value =>
    refine (draws_draft value).bind fun v => draws_pure fun source => ?_
    rintro ⟨hv, hread⟩
    have hchild : ∀ m ∈ [v], IsProper m := by simp [hv.toIsProper]
    exact ⟨isProperPart_branch hchild, .evaluate rfl (significant_branch hchild) hread⟩

theorem forall₂_draw (gap : Nat → String) (lines : List Line) :
    List.Forall₂ (fun n l => IsProperPart n ∧ n.ReadsStmt (draw gap lines).source l.stmt)
      (draw gap lines).tree.children lines := by
  obtain ⟨statements, more, count, hrun, hall⟩ :=
    draws_mapM (f := Line.draw gap) draws_line lines ⟨"", 0⟩
  have hdraw : draw gap lines = ⟨"" ++ more ++ gap count, ⟨NodeKind.module.name, "",
      ⟨0, ("" ++ more ++ gap count).utf8ByteSize⟩, statements, true, false, false⟩⟩ := by
    rw [draw, StateT.run, hrun]; rfl
  rw [hdraw]
  exact (hall (gap count)).flip

theorem isProperPart_of_mem_draw {n : Node} {lines : List Line}
    (h : n ∈ (draw gap lines).tree.children) : IsProperPart n :=
  (List.forall₂_and_left ..|>.mp (forall₂_draw gap lines)).1 n h

theorem firstFault?_draw (gap : Nat → String) (lines : List Line) :
    (draw gap lines).tree.firstFault? = none :=
  Node.firstFault?_eq_none_of_children rfl fun _ h => (isProperPart_of_mem_draw h).firstFault?

theorem result_toProgram_draw (gap : Nat → String) (lines : List Line) :
    ((draw gap lines).tree.toProgram (draw gap lines).source).result =
      .ok (lines.map Line.stmt) := by
  have hcontent : (draw gap lines).tree.content = (draw gap lines).tree.children :=
    List.filter_eq_self.mpr fun n h => (isProperPart_of_mem_draw h).isContent
  rw [Node.result_toProgram_eq_ok, hcontent, List.forall₂_map_right_iff]
  exact (forall₂_draw gap lines).imp fun _ _ h => h.2

/-- A program that is laid out and lowered is the program again, whatever stands in the gaps of
the source, and whatever comments without faults and texts of nodes the tree has besides. -/
theorem lower_draw (gap : Nat → String) (lines : List Line) (tree : Node)
    (hbare : tree.bare = (draw gap lines).tree)
    (hextra : ∀ e ∈ tree.preorder, e.isExtra = true → e.firstFault? = none) :
    (lower tree (draw gap lines).source).result = .ok (lines.map Line.stmt) := by
  have hsound : tree.firstFault? = none := by
    refine Node.firstFault?_eq_none_of_bare ?_ hextra
    rw [hbare, firstFault?_draw]
  rw [result_lower_of_sound hsound, ← Node.toProgram_bare, hbare, result_toProgram_draw]

/-- A line `é + 2`, drawn with a comment before it. -/
def sumLine : Line :=
  .evaluate (.binary .add (.identifier "é")
    (.number ⟨"2", ⟨0x4000000000000000⟩, false, by decide +kernel⟩))

def commentGap : Nat → String
  | 0 => "# ä\n"
  | _ => " "

/-- The tree over `sumLine` with the comment, another one in the sum, and the text of the name. -/
def commentedTree : Node :=
  let comment : Node := ⟨"comment", "# ä", ⟨0, 4⟩, [], true, true, false⟩
  let sum : Node :=
    ⟨"binary_operator", "", ⟨5, 11⟩,
      [⟨"identifier", "é", ⟨5, 7⟩, [], true, false, false⟩, comment,
        ⟨"+", "", ⟨8, 9⟩, [], false, false, false⟩,
        ⟨"integer", "", ⟨10, 11⟩, [], true, false, false⟩],
      true, false, false⟩
  ⟨"module", "", ⟨0, 12⟩,
    [comment, ⟨"expression_statement", "", ⟨5, 11⟩, [sum], true, false, false⟩],
    true, false, false⟩

theorem lower_commentedTree :
    commentedTree.bare = (draw commentGap [sumLine]).tree ∧
    (∀ e ∈ commentedTree.preorder, e.isExtra = true → e.firstFault? = none) ∧
    (lower commentedTree (draw commentGap [sumLine]).source).result = .ok [sumLine.stmt] := by
  have hbare : commentedTree.bare = (draw commentGap [sumLine]).tree := by rfl
  have hextra : ∀ e ∈ commentedTree.preorder, e.isExtra = true → e.firstFault? = none := by
    simp only [Node.firstFault?_eq_none_iff]
    decide
  exact ⟨hbare, hextra, lower_draw commentGap [sumLine] commentedTree hbare hextra⟩

end Scriptlet.Layout
