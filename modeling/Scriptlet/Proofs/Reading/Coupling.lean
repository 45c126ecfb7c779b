import Scriptlet.Proofs.Reading.Basic

/-! # Readings side by side

Two trees, each over a source of its own, are read step by step in the same way if their nodes
correspond. A relation between reports that sequences of reports keep then holds between the two
readings, as soon as it holds between the texts that they slice. The places in the one reading may
be those of the other after a move.
-/

namespace Scriptlet

def Refusal.mapSpan (f : Span → Span) : Refusal → Refusal
  | malformedLiteral text span => malformedLiteral text (f span)
  | unsupportedOperator operator span => unsupportedOperator operator (f span)
  | arityMismatch name found span => arityMismatch name found (f span)
  | unsupportedSyntax kind span => unsupportedSyntax kind (f span)
  | syntaxError message span => syntaxError message (f span)
  | malformedNode kind reason span => malformedNode kind reason (f span)
  | outOfBounds span => outOfBounds (f span)
  | grammar message => grammar message

def Event.mapSpan (f : Span → Span) : Event → Event
  | parsing bytes => parsing bytes
  | statement kind span => statement kind (f span)
  | expression kind span => expression kind (f span)
  | operator op => operator op
  | rejected origin refusal => rejected origin (refusal.mapSpan f)
  | lowered origin statements => lowered origin statements

theorem Refusal.mapSpan_id (r : Refusal) : r.mapSpan id = r := by cases r <;> rfl

theorem Event.mapSpan_id (e : Event) : e.mapSpan id = e := by
  cases e with
  | rejected origin refusal => rw [mapSpan, Refusal.mapSpan_id]
  | parsing | statement | expression | operator | lowered => rfl

namespace Report

variable {α β : Type} {move : Span → Span}

/-- A relation between two reports, of which the second tells its places after the move, that holds
of reports in sequence if it holds of each. -/
structure Coupling (move : Span → Span) where
  Related {α : Type} : Report α → Report α → Prop
  pure {α : Type} (a : α) : Related (Pure.pure a) (Pure.pure a)
  refuse {α : Type} (r : Refusal) : Related (Report.refuse r : Report α) (.refuse (r.mapSpan move))
  note (e : Event) : Related (Report.note e) (.note (e.mapSpan move))
  bind {α β : Type} {x y : Report α} {f g : α → Report β} : Related x y →
    (∀ a, x.result = .ok a → Related (f a) (g a)) → Related (x >>= f) (y >>= g)

theorem Coupling.map (C : Coupling move) {x y : Report α} (f : α → β) (h : C.Related x y) :
    C.Related (f <$> x) (f <$> y) := by
  rw [map_eq_pure_bind, map_eq_pure_bind]
  exact C.bind h fun a _ => C.pure (f a)

theorem Coupling.mapM (C : Coupling move) {γ : Type} {f g : γ → Report β} {as bs : List γ}
    (h : List.Forall₂ (fun a b => C.Related (f a) (g b)) as bs) :
    C.Related (as.mapM f) (bs.mapM g) := by
  induction h with
  | nil => exact C.pure []
  | cons hab _ ih =>
    rw [List.mapM_cons, List.mapM_cons]
    exact C.bind hab fun _ _ => C.bind ih fun _ _ => C.pure _

def mapSpan (f : Span → Span) (r : Report α) : Report α :=
  ⟨r.result.mapError (·.mapSpan f), r.events.map (·.mapSpan f)⟩

theorem result_mapSpan (f : Span → Span) (r : Report α) :
    (r.mapSpan f).result = r.result.mapError (·.mapSpan f) := rfl

theorem mapSpan_id (r : Report α) : r.mapSpan id = r := by
  obtain ⟨result, events⟩ := r
  have hevents : events.map (·.mapSpan id) = events := by
    simp [Event.mapSpan_id]
  cases result <;> simp [mapSpan, hevents, Except.mapError, Refusal.mapSpan_id]

theorem mapSpan_bind (move : Span → Span) (x : Report α) (f : α → Report β) :
    (x >>= f).mapSpan move = x.mapSpan move >>= fun a => (f a).mapSpan move := by
  cases h : x.result with
  | ok a =>
    have hx : (x.mapSpan move).result = .ok a := by rw [result_mapSpan, h]; rfl
    rw [bind_of_ok h, bind_of_ok hx]
    simp [mapSpan]
  | error r =>
    have hx : (x.mapSpan move).result = .error (r.mapSpan move) := by rw [result_mapSpan, h]; rfl
    rw [bind_of_error h, bind_of_error hx]
    rfl

/-- The second report is the first one after the move. -/
def Coupling.moved (move : Span → Span) : Coupling move where
  Related x y := y = x.mapSpan move
  pure _ := rfl
  refuse _ := rfl
  note _ := rfl
  bind {_ _ x y f g} hxy hfg := by
    rw [mapSpan_bind, hxy]
    cases h : x.result with
    | ok a =>
      have hx : (x.mapSpan move).result = .ok a := by rw [result_mapSpan, h]; rfl
      rw [bind_of_ok hx, bind_of_ok hx, hfg a h]
    | error r =>
      have hx : (x.mapSpan move).result = .error (r.mapSpan move) := by rw [result_mapSpan, h]; rfl
      rw [bind_of_error hx, bind_of_error hx]

end Report

namespace Node

open Report (Coupling)

variable {move : Span → Span} {C : Coupling move} {source source' : String}
  {R : Node → Node → Prop} {n m : Node}

theorem forall₂_map {g : Node → Node} (ns : List Node) :
    List.Forall₂ (fun n m => m = g n) ns (ns.map g) :=
  List.forall₂_map_right_iff.mpr (List.forall₂_same.mpr fun _ _ => rfl)

theorem slice_eq_mapSpan_id (h : m.span = n.span) :
    m.slice source = (n.slice source).mapSpan id := by
  rw [Report.mapSpan_id, slice, slice, h]

/-- Related nodes are of one kind, and the second has its place after the move. Their parts are
related place by place, and so are the texts that are sliced at them. -/
structure Correspond (C : Coupling move) (source source' : String) (R : Node → Node → Prop) :
    Prop where
  kind {n m : Node} : R n m → m.kind = n.kind
  span {n m : Node} : R n m → m.span = move n.span
  text {n m : Node} : R n m → n.kind ∈ textKinds → C.Related (n.slice source) (m.slice source')
  token {n m o o' : Node} : R n m → n.kind = NodeKind.binaryOperator.name →
    n.significant[1]? = some o → m.significant[1]? = some o' → R o o' →
    C.Related (o.slice source) (o'.slice source')
  part {n m : Node} (s : Shortage) : R n m → n.kind = s.kind.name →
    Option.Rel R n.significant[s.place]? m.significant[s.place]?
  single {n m : Node} : R n m → n.kind = NodeKind.expressionStatement.name →
    (1 < m.significant.length ↔ 1 < n.significant.length)
  content {n m : Node} : R n m → n.kind = NodeKind.argumentList.name →
    List.Forall₂ R n.content m.content

namespace Correspond

/-- A map of nodes that keeps their kinds and texts, and maps their parts. -/
theorem of_map {g : Node → Node} (kind : ∀ n, (g n).kind = n.kind)
    (span : ∀ n, (g n).span = move n.span)
    (slice : ∀ n, C.Related (n.slice source) ((g n).slice source'))
    (part : ∀ n (s : Shortage), n.kind = s.kind.name →
      (g n).significant[s.place]? = n.significant[s.place]?.map g)
    (single : ∀ n, n.kind = NodeKind.expressionStatement.name →
      (g n).significant.length = n.significant.length)
    (content : ∀ n, n.kind = NodeKind.argumentList.name → (g n).content = n.content.map g) :
    Correspond C source source' fun n m => m = g n where
  kind := by rintro n _ rfl; exact kind n
  span := by rintro n _ rfl; exact span n
  text := by rintro n _ rfl _; exact slice n
  token := by rintro _ _ o _ - - - - rfl; exact slice o
  part := by
    rintro n _ s rfl hk
    rw [part n s hk]
    cases n.significant[s.place]? with
    | some c => exact .some rfl
    | none => exact .none
  single := by rintro n _ rfl hk; rw [single n hk]
  content := by rintro n _ rfl hk; rw [content n hk]; exact forall₂_map n.content

variable (hR : Correspond C source source' R)
include hR

theorem part_bind {β : Type} {s : Shortage} {f : { c // c ∈ n.children } → Report β}
    {g : { c // c ∈ m.children } → Report β} (h : R n m) (hk : n.kind = s.kind.name)
    (hfg : ∀ c c', n.significant[s.place]? = some c.1 → m.significant[s.place]? = some c'.1 →
      R c.1 c'.1 → C.Related (f c) (g c')) :
    C.Related (n.part s >>= f) (m.part s >>= g) := by
  have hpart := hR.part s h hk
  cases hn : n.significant[s.place]? with
  | none =>
    cases hm : m.significant[s.place]? with
    | none =>
      rw [part_of_none hn, part_of_none hm, Report.refuse_bind, Report.refuse_bind, hR.span h]
      exact C.refuse _
    | some c' => rw [hn, hm] at hpart; nomatch hpart
  | some c =>
    cases hm : m.significant[s.place]? with
    | none => rw [hn, hm] at hpart; nomatch hpart
    | some c' =>
      rw [hn, hm] at hpart
      obtain hc | _ := hpart
      rw [part_of_some hn, part_of_some hm, pure_bind, pure_bind]
      exact hfg _ _ hn hm hc

theorem unsupported {α : Type} (h : R n m) :
    C.Related (n.unsupported : Report α) m.unsupported := by
  rw [Node.unsupported, Node.unsupported, hR.kind h, hR.span h]
  exact C.refuse _

theorem require {p q : Prop} [Decidable p] [Decidable q] (h : R n m) (hpq : q ↔ p) :
    C.Related (n.require p) (m.require q) := by
  unfold Node.require
  by_cases hp : p
  · rw [if_pos hp, if_pos (hpq.mpr hp)]
    exact C.pure ()
  · rw [if_neg hp, if_neg fun hq => hp (hpq.mp hq)]
    exact hR.unsupported h

theorem expect (h : R n m) (kind : NodeKind) : C.Related (n.expect kind) (m.expect kind) :=
  hR.require h (by rw [hR.kind h])

theorem toNumber (h : R n m) (hk : n.kind = NodeKind.integer.name ∨ n.kind = NodeKind.float.name) :
    C.Related (n.toNumber source) (m.toNumber source') := by
  refine C.bind (hR.text h (by rcases hk with hk | hk <;> simp [textKinds, hk])) fun text _ => ?_
  cases Numeral.readFinite? text with
  | some value => exact C.pure _
  | none => rw [hR.span h]; exact C.refuse _

theorem toOperator {o o' : Node} (h : R n m) (hk : n.kind = NodeKind.binaryOperator.name)
    (ho : n.significant[1]? = some o) (ho' : m.significant[1]? = some o') (hoo' : R o o') :
    C.Related (o.toOperator source) (o'.toOperator source') := by
  refine C.bind (hR.token h hk ho ho' hoo') fun token _ => ?_
  cases BinaryOp.ofSymbol? token with
  | some op => exact C.bind (C.note _) fun _ _ => C.pure op
  | none => rw [hR.span hoo']; exact C.refuse _

section Recursion

variable (ih : ∀ c c', c.height < n.height → R c c' →
  C.Related (c.toExpr source) (c'.toExpr source'))
include ih

theorem toBinary (h : R n m) (hk : n.kind = NodeKind.binaryOperator.name) :
    C.Related (n.toBinary source fun c _ => c.toExpr source)
      (m.toBinary source' fun c _ => c.toExpr source') := by
  refine hR.part_bind h hk fun left left' _ _ hl => ?_
  refine C.bind (ih _ _ (height_lt_of_mem left.2) hl) fun a _ => ?_
  refine hR.part_bind h hk fun operator operator' ho ho' hoo' => ?_
  refine C.bind (hR.toOperator h hk ho ho' hoo') fun op _ => ?_
  refine hR.part_bind h hk fun right right' _ _ hr => ?_
  exact C.bind (ih _ _ (height_lt_of_mem right.2) hr) fun b _ => C.pure _

omit ih in
theorem ofArguments (h : R n m) (name : String) (arguments : List Expr) :
    C.Related (ofArguments name n.span arguments) (Node.ofArguments name m.span arguments) := by
  rw [hR.span h]
  match arguments with
  | [_] | [_, _] => exact C.pure _
  | [] | _ :: _ :: _ :: _ => exact C.refuse _

theorem toCall (h : R n m) (hk : n.kind = NodeKind.call.name) :
    C.Related (n.toCall source fun c _ => c.toExpr source)
      (m.toCall source' fun c _ => c.toExpr source') := by
  refine hR.part_bind h hk fun callee callee' _ _ hc => ?_
  refine C.bind (hR.expect hc _) fun _ hck => ?_
  have hck := (expect_eq_ok (by decide)).mp hck
  refine C.bind (hR.text hc (by simp [textKinds, hck])) fun name _ => ?_
  refine hR.part_bind h hk fun list list' _ _ hl => ?_
  refine C.bind (hR.expect hl _) fun _ hlk => ?_
  have hlk := (expect_eq_ok (by decide)).mp hlk
  rw [mapM_attach _ fun c => c.toExpr source, mapM_attach _ fun c => c.toExpr source']
  refine C.bind (C.mapM ?_) fun arguments _ => hR.ofArguments h name arguments
  have hcontent := (List.forall₂_and_left _ _).mpr
    ⟨fun c hc => height_lt_of_mem_content list.2 hc, hR.content hl hlk⟩
  exact hcontent.imp fun c c' hcc' => ih c c' hcc'.1 hcc'.2

end Recursion

theorem toExpr (h : R n m) : C.Related (n.toExpr source) (m.toExpr source') := by
  induction n using inductionOnHeight generalizing m with
  | step n ih =>
    have hread : ∀ c c', c.height < n.height → R c c' →
        C.Related (c.toExpr source) (c'.toExpr source') := fun c _ hc hcc' => ih c hc hcc'
    rw [Node.toExpr, Node.toExpr, hR.kind h, hR.span h]
    refine C.bind (C.note _) fun _ _ => ?_
    cases hk : NodeKind.ofName n.kind with
    | integer => exact hR.toNumber h (.inl (NodeKind.eq_name_of_ofName hk))
    | float => exact hR.toNumber h (.inr (NodeKind.eq_name_of_ofName hk))
    | identifier =>
      have htext := hR.text h (by simp [textKinds, NodeKind.eq_name_of_ofName hk])
      exact C.bind htext fun name _ => C.pure _
    | binaryOperator => exact hR.toBinary hread h (NodeKind.eq_name_of_ofName hk)
    | call => exact hR.toCall hread h (NodeKind.eq_name_of_ofName hk)
    | module | expressionStatement | assignment | argumentList | other => exact hR.unsupported h

theorem toDefinition (h : R n m) (hk : n.kind = NodeKind.assignment.name) :
    C.Related (n.toDefinition source) (m.toDefinition source') := by
  refine hR.part_bind h hk fun target target' _ _ ht => ?_
  refine C.bind (hR.expect ht _) fun _ htk => ?_
  have htk := (expect_eq_ok (by decide)).mp htk
  refine C.bind (hR.text ht (by simp [textKinds, htk])) fun name _ => ?_
  refine hR.part_bind h hk fun equals equals' _ _ he => ?_
  refine C.bind (hR.require he (by rw [hR.kind he])) fun _ _ => ?_
  refine hR.part_bind h hk fun value value' _ _ hv => ?_
  exact C.bind (hR.toExpr hv) fun e _ => C.pure _

theorem toBody (h : R n m) : C.Related (n.toBody source) (m.toBody source') := by
  unfold Node.toBody
  rw [hR.kind h]
  cases hk : NodeKind.ofName n.kind with
  | assignment => exact hR.toDefinition h (NodeKind.eq_name_of_ofName hk)
  | module | expressionStatement | integer | float | identifier | binaryOperator | call |
      argumentList | other =>
    exact C.map _ (hR.toExpr h)

theorem expectSingle (h : R n m) (hk : n.kind = NodeKind.expressionStatement.name) :
    C.Related n.expectSingle m.expectSingle := by
  have hsingle := hR.single h hk
  unfold Node.expectSingle
  by_cases hn : 1 < n.significant.length
  · rw [if_pos hn, if_pos (hsingle.mpr hn), hR.span h]
    exact C.refuse _
  · rw [if_neg hn, if_neg fun hm => hn (hsingle.mp hm)]
    exact C.pure ()

theorem toEvaluation (h : R n m) (hk : n.kind = NodeKind.expressionStatement.name) :
    C.Related (n.toEvaluation source) (m.toEvaluation source') := by
  refine hR.part_bind h hk fun child child' _ _ hc => ?_
  refine C.bind (hR.toBody hc) fun stmt _ => ?_
  exact C.bind (hR.expectSingle h hk) fun _ _ => C.pure _

theorem toStmt (h : R n m) : C.Related (n.toStmt source) (m.toStmt source') := by
  unfold Node.toStmt
  rw [hR.kind h, hR.span h]
  refine C.bind (C.note _) fun _ _ => ?_
  cases hk : NodeKind.ofName n.kind with
  | assignment => exact hR.toDefinition h (NodeKind.eq_name_of_ofName hk)
  | expressionStatement => exact hR.toEvaluation h (NodeKind.eq_name_of_ofName hk)
  | module | integer | float | identifier | binaryOperator | call | argumentList | other =>
    exact hR.unsupported h

theorem toProgram {root root' : Node} (h : List.Forall₂ R root.content root'.content) :
    C.Related (root.toProgram source) (root'.toProgram source') :=
  C.mapM (h.imp fun _ _ => hR.toStmt)

end Correspond

/-- Roots whose content corresponds place by place are read to the same report. -/
theorem Correspond.toProgram_eq {root root' : Node} (hR : Correspond (.moved id) source source' R)
    (h : List.Forall₂ R root.content root'.content) :
    root'.toProgram source' = root.toProgram source := by
  have hmoved : root'.toProgram source' = (root.toProgram source).mapSpan id := hR.toProgram h
  rw [hmoved, Report.mapSpan_id]

end Node

end Scriptlet
