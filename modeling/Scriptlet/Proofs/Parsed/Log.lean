import Scriptlet.Proofs.Parsed.Agreement
import Scriptlet.Proofs.Reading.Log

/-! # The log of a run

A source is either refused with a single warning, or its tree is walked: then the log holds the
traces of the reading, and a last message if the tree was lowered. A run over a marked tree logs as
one over a plain tree does, in other words.
-/

namespace Scriptlet

def Event.entry (e : Event) : Level × List (String × String) := (e.level, e.fields)

def ParseTree.heading (t : ParseTree) : String × Span := (t.kind, t.span)

/-- The log of a run. A source that is rejected leaves one warning with its refusal, any other one
leaves traces, and then a message with the number of statements if it was lowered. The traces visit
places of the tree in document order, and those of a program tell of all that it has. -/
structure Report.Logs (origin : Origin) (rejects : Prop) (places : List (String × Span))
    (r : Report Program) : Prop where
  rejected : rejects → ∃ refusal, r.result = .error refusal ∧
    r.events = [.rejected origin refusal]
  refused : ¬ rejects → ∀ refusal, r.result = .error refusal → ∀ e ∈ r.events, e.level = .trace
  lowered : ∀ p, r.result = .ok p → ∃ steps, (∀ e ∈ steps, e.level = .trace) ∧
    r.events = steps ++ [.lowered origin p.length]
  warned : (∃ e ∈ r.events, e.level = .warn) ↔ rejects
  visits : (r.events.filterMap Event.visit?).Sublist places
  count : ∀ p, r.result = .ok p → Event.Count r.events p.length (p.map (·.expr.size)).sum
    (p.flatMap (·.expr.operators))

theorem Event.entries_closing (origin origin' : Origin) (result : Except Refusal Program) :
    (closing origin result).map entry = (closing origin' result).map entry := by
  cases result <;> rfl

/-- A run over a tree is rejected for a fault, or it lowers the tree. -/
inductive Report.Run (origin : Origin) (root : Node) (source : String) (rejects : Prop) :
    Report Program → Prop
  | rejected (h : rejects) (message : String) (span : Span) :
      Run origin root source rejects (rejectFault origin (.syntaxError message span))
  | lowered (h : ¬ rejects) :
      Run origin root source rejects (lowerSound origin (Cursor.ofRoot root) source)

namespace Report.Run

variable {origin origin' : Origin} {root : Node} {source : String} {rejects rejects' : Prop}
  {r r' : Report Program}

theorem logs_lowerSound (h : ¬ rejects) :
    (lowerSound origin (Cursor.ofRoot root) source).Logs origin rejects
      (root.preorder.map Node.heading) := by
  obtain ⟨hlevel, hvisits⟩ := root.traces_toProgram source
  have hcount (p : Program) (h : (root.toProgram source).result = .ok p) := Node.count_toProgram h
  rw [lowerSound_eq]
  generalize root.toProgram source = reading at hlevel hvisits hcount ⊢
  obtain ⟨result, events⟩ := reading
  cases result with
  | error refusal =>
    have htrace (e : Event) (he : e ∈ events ++ []) : e.level = .trace :=
      hlevel e (by simpa using he)
    refine ⟨fun hr => absurd hr h, fun _ _ _ => htrace, nofun, iff_of_false ?_ h, ?_, nofun⟩
    · rintro ⟨e, he, hwarn⟩
      exact absurd (hwarn.symm.trans (htrace e he)) (by decide)
    · simpa [Event.closing] using hvisits
  | ok p =>
    have hvisit : [Event.lowered origin p.length].filterMap Event.visit? = [] := rfl
    have hclosing : Event.Count [.lowered origin p.length] 0 0 [] := ⟨rfl, rfl, rfl⟩
    refine ⟨fun hr => absurd hr h, nofun, ?_, iff_of_false ?_ h, ?_, ?_⟩
    · rintro _ ⟨⟩
      exact ⟨events, hlevel, rfl⟩
    · rintro ⟨e, he, hwarn⟩
      rcases List.mem_append.mp he with he | he
      · exact absurd (hwarn.symm.trans (hlevel e he)) (by decide)
      · rw [List.mem_singleton.mp he] at hwarn
        cases hwarn
    · simpa [Event.closing, hvisit] using hvisits
    · rintro _ ⟨⟩
      simpa [Event.closing] using (hcount p rfl).append hclosing

theorem logs (h : Run origin root source rejects r) :
    r.Logs origin rejects (root.preorder.map Node.heading) := by
  cases h with
  | rejected h message span =>
    refine ⟨fun _ => ⟨_, rfl, rfl⟩, fun hn => absurd h hn, nofun, ?_, List.nil_sublist _, nofun⟩
    exact iff_of_true ⟨_, List.mem_singleton_self _, rfl⟩ h
  | lowered h => exact logs_lowerSound h

theorem entries_eq (h : Run origin root source rejects r) (h' : Run origin' root source rejects' r')
    (hresult : r.result = r'.result) : r.events.map Event.entry = r'.events.map Event.entry := by
  -- A reading is never refused as a syntax error, so both runs take the same way.
  have hreading (o : Origin) (message : String) (span : Span) :
      (lowerSound o (Cursor.ofRoot root) source).result ≠ .error (.syntaxError message span) :=
    fun hs => not_isSyntaxError_toProgram root source
      ⟨message, span, (result_lowerSound o root source) ▸ hs⟩
  cases h with
  | rejected =>
    cases h' with
    | rejected => cases hresult; rfl
    | lowered => exact absurd hresult.symm (hreading _ _ _)
  | lowered =>
    cases h' with
    | rejected => exact absurd hresult (hreading _ _ _)
    | lowered =>
      rw [lowerSound_eq, lowerSound_eq]
      simp only [List.map_append, Event.entries_closing origin origin']

end Report.Run

theorem run_lower (root : Node) (source : String) :
    Report.Run .serialized root source (∃ n ∈ root.preorder, n.isFaulty = true)
      (lower root source) := by
  cases h : root.firstFault? with
  | some fault =>
    rw [lower, h]
    rw [Node.firstFault?_eq] at h
    exact .rejected ⟨fault, List.mem_of_find?_eq_some h, List.find?_some h⟩ _ _
  | none =>
    rw [lower_of_sound h]
    exact .lowered (by simpa using Node.firstFault?_eq_none_iff.mp h)

theorem ParseTree.exists_run (tree : ParseTree) (source : String) :
    ∃ report, tree.lower source =
        { report with events := .parsing source.utf8ByteSize :: report.events } ∧
      Report.Run .parsed tree.toNode source (tree.isDamaged = true) report := by
  refine ⟨_, rfl, ?_⟩
  split
  next h =>
    cases tree.damage? with
    | some fault => exact .rejected h _ _
    | none => exact .rejected h _ _
  next h =>
    rw [ParseTree.lowerSound_ofRoot]
    exact .lowered h

theorem ParseTree.headings_toNode (t : ParseTree) :
    t.toNode.preorder.map Node.heading = t.preorder.map heading := by
  have hheading : Node.heading ∘ toNode = heading := by
    funext u
    simp [Node.heading, heading]
  rw [preorder_toNode, List.map_map, hheading]

/-- The marked tree of `a=b+f(1)`. -/
def assignedSum : ParseTree :=
  let name (i : Nat) : ParseTree := ⟨"identifier", ⟨i, i + 1⟩, [], true, false, false, false⟩
  let token (kind : String) (i : Nat) : ParseTree :=
    ⟨kind, ⟨i, i + 1⟩, [], false, false, false, false⟩
  let number : ParseTree := ⟨"integer", ⟨6, 7⟩, [], true, false, false, false⟩
  let list : ParseTree :=
    ⟨"argument_list", ⟨5, 8⟩, [token "(" 5, number, token ")" 7], true, false, false, false⟩
  let call : ParseTree := ⟨"call", ⟨4, 8⟩, [name 4, list], true, false, false, false⟩
  let sum : ParseTree :=
    ⟨"binary_operator", ⟨2, 8⟩, [name 2, token "+" 3, call], true, false, false, false⟩
  ⟨"module", ⟨0, 8⟩,
    [⟨"assignment", ⟨0, 8⟩, [name 0, token "=" 1, sum], true, false, false, false⟩],
    true, false, false, false⟩

end Scriptlet
