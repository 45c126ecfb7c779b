import Scriptlet.Proofs.Reading.Coupling
import Scriptlet.Proofs.Reading.Faithful
import Scriptlet.Proofs.Reading.Frame

/-! # What a walk sees of the source

A walk slices the source at numbers and names, and at what stands between the operands of a binary
operator. Two sources that agree there are walked alike, however they differ elsewhere: in the text
of other tokens and comments, between the tokens, and in length.
-/

namespace Scriptlet

namespace Node

/-- Both sources have the same slices, or none, where the tree has a number, a name or an operator
between operands. -/
structure SameTokens (root : Node) (source source' : String) : Prop where
  text : ∀ n ∈ root.preorder, n.kind ∈ textKinds →
    n.span.slice? source' = n.span.slice? source
  operator : ∀ n ∈ root.preorder, n.kind = NodeKind.binaryOperator.name →
    ∀ o ∈ n.significant[1]?, o.span.slice? source' = o.span.slice? source

variable {root : Node} {source source' : String}

theorem slice_of_sources {n : Node} (h : n.span.slice? source' = n.span.slice? source) :
    n.slice source' = (n.slice source).mapSpan id := by
  rw [Report.mapSpan_id, slice, slice, h]

theorem SameTokens.correspond (h : root.SameTokens source source') :
    Correspond (.moved id) source source' fun n m => n = m ∧ n ∈ root.preorder where
  kind := by rintro n _ ⟨rfl, -⟩; rfl
  span := by rintro n _ ⟨rfl, -⟩; rfl
  text := by
    rintro n _ ⟨rfl, hn⟩ hk
    exact slice_of_sources (h.text n hn hk)
  token := by
    rintro n _ o _ ⟨rfl, hn⟩ hk ho - ⟨rfl, -⟩
    exact slice_of_sources (h.operator n hn hk o ho)
  part := by
    rintro n _ s ⟨rfl, hn⟩ -
    cases hm : n.significant[s.place]? with
    | none => exact .none
    | some m => exact .some ⟨rfl, mem_preorder_child hn (mem_of_significant_getElem? hm)⟩
  single := by rintro n _ ⟨rfl, -⟩ -; exact Iff.rfl
  content := by
    rintro n _ ⟨rfl, hn⟩ -
    exact List.forall₂_same.mpr fun m hm => ⟨rfl, mem_preorder_child hn (mem_of_mem_content hm)⟩

theorem SameTokens.toProgram_eq (h : root.SameTokens source source') :
    root.toProgram source' = root.toProgram source := by
  refine h.correspond.toProgram_eq (List.forall₂_same.mpr fun m hm => ⟨rfl, ?_⟩)
  exact mem_preorder_child (mem_preorder_self root) (mem_of_mem_content hm)

end Node

namespace Walk

/-- Over two sources with the same tokens a walk from any place in the tree ends with the same
program or the same refusal, and logs the same. -/
theorem program_of_sameTokens {root : Node} {w : Walker Cursor} {source source' : String}
    (hw : w.cursor.Reachable root) (h : root.SameTokens source source') :
    ((program source').run w).1 = ((program source).run w).1 ∧
    ((program source').run w).2.log = ((program source).run w).2.log := by
  have hreading : w.cursor.root.node.toProgram source' = w.cursor.root.node.toProgram source := by
    rw [hw.root_eq]
    exact h.toProgram_eq
  constructor
  · rw [(follows_program source' w.cursor).result_eq, (follows_program source w.cursor).result_eq,
      hreading]
  · rw [(follows_program source' w.cursor).log_eq, (follows_program source w.cursor).log_eq,
      hreading]

/-- The tree of `a=f(b+1)#c`. -/
def bracketedCall : Node :=
  let name (i : Nat) : Node := ⟨"identifier", "", ⟨i, i + 1⟩, [], true, false, false⟩
  let token (kind : String) (i : Nat) : Node := ⟨kind, "", ⟨i, i + 1⟩, [], false, false, false⟩
  let number : Node := ⟨"integer", "", ⟨6, 7⟩, [], true, false, false⟩
  let sum : Node :=
    ⟨"binary_operator", "", ⟨4, 7⟩, [name 4, token "+" 5, number], true, false, false⟩
  let list : Node :=
    ⟨"argument_list", "", ⟨3, 8⟩, [token "(" 3, sum, token ")" 7], true, false, false⟩
  let call : Node := ⟨"call", "", ⟨2, 8⟩, [name 2, list], true, false, false⟩
  ⟨"module", "", ⟨0, 10⟩,
    [⟨"assignment", "", ⟨0, 8⟩, [name 0, token "=" 1, call], true, false, false⟩,
      ⟨"comment", "", ⟨8, 10⟩, [], true, true, false⟩],
    true, false, false⟩

/-- Another sign of assignment, other brackets and no comment make no difference. -/
theorem program_of_otherBrackets :
    let w : Walker Cursor := .start (.ofRoot bracketedCall)
    w.cursor.Reachable bracketedCall ∧ bracketedCall.SameTokens "a=f(b+1)#c" "a:f[b+1]" ∧
    ((program "a=f(b+1)#c").run w).1 = .ok [.define "a"
      (.call1 "f" (.binary .add (.identifier "b") (.number ⟨0x3ff0000000000000⟩)))] ∧
    ((program "a:f[b+1]").run w).1 = ((program "a=f(b+1)#c").run w).1 ∧
    ((program "a:f[b+1]").run w).2.log = ((program "a=f(b+1)#c").run w).2.log := by
  intro w
  have hw : w.cursor.Reachable bracketedCall := .start
  have htokens : bracketedCall.SameTokens "a=f(b+1)#c" "a:f[b+1]" :=
    ⟨by decide +kernel, by decide +kernel⟩
  have hlowered : ((program "a=f(b+1)#c").run w).1 = .ok [.define "a"
      (.call1 "f" (.binary .add (.identifier "b") (.number ⟨0x3ff0000000000000⟩)))] := by
    decide +kernel
  exact ⟨hw, htokens, hlowered, program_of_sameTokens hw htokens⟩

end Walk

end Scriptlet
