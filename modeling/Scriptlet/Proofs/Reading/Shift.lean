import Scriptlet.Proofs.Reading.Coupling
import Scriptlet.Proofs.Reading.Faithful
import Scriptlet.Proofs.Reading.Program
import Scriptlet.Proofs.Text.Slice
import Scriptlet.Proofs.Tree.Rebuild

/-! # Other text in front and behind

A tree whose spans are moved by the bytes of a text is lowered over this text and the source as
the tree itself over the source: only the places that refusals and events tell are moved. More text
behind the source changes nothing unless the walk is refused for a span outside of the source.
-/

namespace Scriptlet

namespace Node

def mapSpan (f : Span → Span) : Node → Node := rebuild fun n => { n with span := f n.span }

def shift (n : Node) (bytes : Nat) : Node := n.mapSpan (·.shift bytes)

variable (f : Span → Span) (n : Node)

theorem mapSpan_eq :
    n.mapSpan f = { n with span := f n.span, children := n.children.map (mapSpan f) } :=
  rebuild_eq _ n

@[simp] theorem kind_mapSpan : (n.mapSpan f).kind = n.kind := by rw [mapSpan_eq]
@[simp] theorem span_mapSpan : (n.mapSpan f).span = f n.span := by rw [mapSpan_eq]
@[simp] theorem isNamed_mapSpan : (n.mapSpan f).isNamed = n.isNamed := by rw [mapSpan_eq]
@[simp] theorem isExtra_mapSpan : (n.mapSpan f).isExtra = n.isExtra := by rw [mapSpan_eq]
@[simp] theorem isMissing_mapSpan : (n.mapSpan f).isMissing = n.isMissing := by rw [mapSpan_eq]

theorem children_mapSpan : (n.mapSpan f).children = n.children.map (mapSpan f) := by
  rw [mapSpan_eq]

theorem significant_mapSpan : (n.mapSpan f).significant = n.significant.map (mapSpan f) := by
  rw [significant, children_mapSpan, List.filter_map, significant]
  simp [Function.comp_def]

theorem content_mapSpan : (n.mapSpan f).content = n.content.map (mapSpan f) := by
  have hcontent : isContent ∘ mapSpan f = isContent := by
    funext m
    simp [isContent]
  rw [content, children_mapSpan, List.filter_map, hcontent, content]

theorem preorder_mapSpan : (n.mapSpan f).preorder = n.preorder.map (mapSpan f) := by
  induction n using inductionOnHeight with
  | step n ih =>
    have hall (ns : List Node) (hns : ∀ m ∈ ns, m.height < n.height) :
        preorderAll (ns.map (mapSpan f)) = (preorderAll ns).map (mapSpan f) := by
      induction ns with
      | nil => rfl
      | cons m ns ihs =>
        obtain ⟨hm, hns⟩ := List.forall_mem_cons.mp hns
        rw [List.map_cons, preorderAll, preorderAll, ih m hm, ihs hns, List.map_append]
    rw [preorder_eq, preorder_eq, children_mapSpan, hall _ fun m => height_lt_of_mem,
      List.map_cons]

theorem firstFault?_mapSpan : (n.mapSpan f).firstFault? = n.firstFault?.map (mapSpan f) := by
  have hfaulty : isFaulty ∘ mapSpan f = isFaulty := by
    funext m
    simp [isFaulty, isError]
  rw [firstFault?_eq, firstFault?_eq, preorder_mapSpan, List.find?_map, hfaulty]

variable {f n} {source source' : String}

theorem correspond_mapSpan (h : ∀ span : Span, (f span).slice? source' = span.slice? source) :
    Correspond (.moved f) source source' fun n m => m = n.mapSpan f := by
  have hslice (n : Node) : (n.mapSpan f).slice source' = (n.slice source).mapSpan f := by
    rw [slice, slice, span_mapSpan, h]
    cases n.span.slice? source <;> rfl
  refine .of_map (kind_mapSpan f) (span_mapSpan f) hslice (fun n s _ => ?_) (fun n _ => ?_)
    fun n _ => content_mapSpan f n
  · rw [significant_mapSpan, List.getElem?_map]
  · rw [significant_mapSpan, List.length_map]

theorem toProgram_shift (root : Node) (front source : String) :
    (root.shift front.utf8ByteSize).toProgram (front ++ source) =
      (root.toProgram source).mapSpan (·.shift front.utf8ByteSize) := by
  refine (correspond_mapSpan fun span => span.slice?_shift front source).toProgram ?_
  rw [shift, content_mapSpan]
  exact forall₂_map root.content

end Node

namespace Report

variable {α β : Type}

/-- A span outside of the source was met. -/
def IsOutOfBounds (r : Report α) : Prop := ∃ span, r.result = .error (.outOfBounds span)

theorem IsOutOfBounds.bind {x : Report α} (h : x.IsOutOfBounds) (f : α → Report β) :
    (x >>= f).IsOutOfBounds := by
  obtain ⟨span, h⟩ := h
  exact ⟨span, by rw [bind_of_error h]⟩

/-- The second report is the first one unless that met a span outside of the source. -/
def Coupling.inBounds : Coupling id where
  Related x y := x.IsOutOfBounds ∨ y = x
  pure _ := .inr rfl
  refuse _ := .inr (by rw [Refusal.mapSpan_id])
  note _ := .inr (by rw [Event.mapSpan_id])
  bind {_ _ x y f g} hxy hfg := by
    rcases hxy with hx | rfl
    · exact .inl (hx.bind f)
    · cases h : y.result with
      | error r => exact .inr (by rw [bind_of_error h, bind_of_error h])
      | ok a =>
        rcases hfg a h with ⟨span, hf⟩ | hgf
        · exact .inl ⟨span, by rw [bind_of_ok h, hf]⟩
        · exact .inr (by rw [bind_of_ok h, bind_of_ok h, hgf])

end Report

namespace Node

theorem correspond_append (source rest : String) :
    Correspond .inBounds source (source ++ rest) fun n m => m = n := by
  have hslice (n : Node) : Report.Coupling.inBounds.Related (n.slice source)
      (n.slice (source ++ rest)) := by
    unfold slice
    cases h : n.span.slice? source with
    | none => exact .inl ⟨n.span, rfl⟩
    | some text => rw [Span.slice?_append_right h]; exact .inr rfl
  refine .of_map (fun _ => rfl) (fun _ => rfl) hslice (fun n s _ => ?_) (fun _ _ => rfl)
    fun n _ => ?_
  · exact Option.map_id'.symm
  · exact n.content.map_id'.symm

theorem toProgram_append (root : Node) (source rest : String) :
    (root.toProgram source).IsOutOfBounds ∨
      root.toProgram (source ++ rest) = root.toProgram source :=
  (correspond_append source rest).toProgram (List.forall₂_same.mpr fun _ _ => rfl)

end Node

def Damage.shift (bytes : Nat) : Damage → Damage
  | missing kind => missing kind
  | near snippet => near snippet
  | atByte offset => atByte (offset + bytes)

theorem Damage.describe_shift (isMissing : Bool) (kind : String) (span : Span)
    (front source : String) :
    describe isMissing kind (span.shift front.utf8ByteSize) (front ++ source) =
      (describe isMissing kind span source).shift front.utf8ByteSize := by
  unfold describe
  rw [Span.slice?_shift]
  cases isMissing
  · cases (span.slice? source).bind snippet? <;> rfl
  · rfl

/-- The refusal of a source and that of the source with so many bytes in front. The words of a
damage change in its offset only, if it tells one. -/
inductive Refusal.ShiftsTo (bytes : Nat) : Refusal → Refusal → Prop
  | ofDamage (damage : Damage) (span : Span) :
      ShiftsTo bytes (.syntaxError damage.message span)
        (.syntaxError (damage.shift bytes).message (span.shift bytes))
  | ofWalk {r : Refusal} (h : ∀ message span, r ≠ .syntaxError message span) :
      ShiftsTo bytes r (r.mapSpan (·.shift bytes))

/-- With more text in front, and the spans moved by it, a tree is lowered to the same program or
refused in the same way further on; a source is refused in the same words but for an offset that
they tell. With more text behind, the result stays as it is if no span was out of bounds. -/
theorem lower_anywhere (root : Node) (front source rest : String) :
    let bytes := front.utf8ByteSize
    Walk.programOf (front ++ source) (root.shift bytes) =
        (Walk.programOf source root).mapError (·.mapSpan (·.shift bytes)) ∧
    ((∃ p, (lower root source).result = .ok p ∧
        (lower (root.shift bytes) (front ++ source)).result = .ok p) ∨
      ∃ r r', (lower root source).result = .error r ∧
        (lower (root.shift bytes) (front ++ source)).result = .error r' ∧ r.ShiftsTo bytes r') ∧
    ((∀ span, Walk.programOf source root ≠ .error (.outOfBounds span)) →
      Walk.programOf (source ++ rest) root = Walk.programOf source root) := by
  intro bytes
  have hreading := congrArg Report.result (root.toProgram_shift front source)
  rw [Report.result_mapSpan] at hreading
  simp only [Walk.programOf_eq]
  refine ⟨hreading, ?_, fun hin => ?_⟩
  · have hfault := root.firstFault?_mapSpan (·.shift bytes)
    cases h : root.firstFault? with
    | some fault =>
      rw [h] at hfault
      refine .inr ⟨_, _, result_lower_of_fault h source, result_lower_of_fault hfault _, ?_⟩
      rw [Node.isMissing_mapSpan, Node.kind_mapSpan, Node.span_mapSpan, Refusal.ofFault,
        Refusal.ofFault, Damage.describe_shift]
      exact .ofDamage _ _
    | none =>
      have hsound : (root.shift bytes).firstFault? = none := by rw [Node.shift, hfault, h]; rfl
      rw [result_lower_of_sound h, result_lower_of_sound hsound, hreading]
      cases hresult : (root.toProgram source).result with
      | ok p => exact .inl ⟨p, rfl, rfl⟩
      | error r =>
        refine .inr ⟨r, _, rfl, rfl, .ofWalk fun message span heq => ?_⟩
        obtain ⟨_, -, -, hfalse⟩ := root.faithful_toProgram source r hresult
        rw [heq] at hfalse
        exact hfalse
  · rcases root.toProgram_append source rest with ⟨span, hout⟩ | heq
    · exact absurd hout (hin span)
    · rw [heq]

def callWithoutArguments : Node :=
  let callee : Node := ⟨"identifier", "", ⟨0, 1⟩, [], true, false, false⟩
  let list : Node := ⟨"argument_list", "", ⟨1, 3⟩, [], true, false, false⟩
  let call : Node := ⟨"call", "", ⟨0, 3⟩, [callee, list], true, false, false⟩
  ⟨"module", "", ⟨0, 3⟩, [⟨"expression_statement", "", ⟨0, 3⟩, [call], true, false, false⟩],
    true, false, false⟩

/-- The call is refused further on behind `é;`, and in its place in front of more text. -/
theorem lower_anywhere_callWithoutArguments :
    (∀ span, Walk.programOf "f()" callWithoutArguments ≠ .error (.outOfBounds span)) ∧
    Walk.programOf ("é;" ++ "f()") (callWithoutArguments.shift 3) =
      .error (.arityMismatch "f" 0 ⟨3, 6⟩) ∧
    Walk.programOf ("f()" ++ "+1") callWithoutArguments =
      .error (.arityMismatch "f" 0 ⟨0, 3⟩) := by
  have hrefused : Walk.programOf "f()" callWithoutArguments =
      .error (.arityMismatch "f" 0 ⟨0, 3⟩) := by decide +kernel
  have hin : ∀ span, Walk.programOf "f()" callWithoutArguments ≠ .error (.outOfBounds span) := by
    simp [hrefused]
  obtain ⟨hfront, -, hrest⟩ := lower_anywhere callWithoutArguments "é;" "f()" "+1"
  have hbytes : "é;".utf8ByteSize = 3 := by decide +kernel
  rw [hbytes, hrefused] at hfront
  exact ⟨hin, hfront, (hrest hin).trans hrefused⟩

end Scriptlet
