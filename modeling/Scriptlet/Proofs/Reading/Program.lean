import Scriptlet.Proofs.Reading.Frame

/-! # Programs from every place

Wherever moves and walks have led, half-way into a refused statement too, the program of the tree
is the same. It is put together from the statements at the places of the root's content, one from
each in order, and it is refused just as the first of them is that is refused.
-/

namespace Scriptlet

theorem Cursor.map_node_contentPlaces (c : Cursor) :
    c.contentPlaces.map Cursor.node = c.node.content := by
  rw [Node.content, ← map_node_childPlaces c, List.filter_map]
  rfl

namespace Walk

def stmtAt (source : String) (c : Cursor) : Except Refusal Stmt := ((stmt source).run (.start c)).1

def programOf (source : String) (root : Node) : Except Refusal Program :=
  ((program source).run (.start (.ofRoot root))).1

variable {root : Node} {w : Walker Cursor} {source : String}

theorem toProgram_eq_mapM_places (source : String) (root : Node) :
    root.toProgram source =
      (Cursor.ofRoot root).contentPlaces.mapM fun c => c.node.toStmt source := by
  have hcontent : (Cursor.ofRoot root).contentPlaces.map Cursor.node = root.content :=
    (Cursor.ofRoot root).map_node_contentPlaces
  rw [Node.toProgram, ← hcontent, List.mapM_map]
  rfl

theorem stmtAt_eq (source : String) (c : Cursor) :
    stmtAt source c = (c.node.toStmt source).result :=
  (follows_stmt source c).result_eq (w := .start c)

theorem programOf_eq (source : String) (root : Node) :
    programOf source root = (root.toProgram source).result :=
  result_program source root

theorem run_program_of_reachable (source : String) (h : w.cursor.Reachable root) :
    ((program source).run w).1 = programOf source root := by
  rw [(follows_program source w.cursor).result_eq, h.root_eq, programOf_eq]
  rfl

theorem programOf_eq_ok {p : Program} : programOf source root = .ok p ↔
    List.Forall₂ (fun c s => stmtAt source c = .ok s) (Cursor.ofRoot root).contentPlaces p := by
  simp only [programOf_eq, toProgram_eq_mapM_places, Report.mapM_eq_ok, stmtAt_eq]

theorem programOf_eq_error {e : Refusal} : programOf source root = .error e ↔
    ∃ before c after, (Cursor.ofRoot root).contentPlaces = before ++ c :: after ∧
      (∀ b ∈ before, ∃ s, stmtAt source b = .ok s) ∧ stmtAt source c = .error e := by
  simp only [programOf_eq, toProgram_eq_mapM_places, Report.mapM_eq_error, stmtAt_eq]

theorem programOf_append {ms ns : List Node} (h : root.children = ms ++ ns) :
    programOf source root = do
      let p ← programOf source { root with children := ms }
      let q ← programOf source { root with children := ns }
      return p ++ q := by
  have hcontent : root.content =
      Node.content { root with children := ms } ++ Node.content { root with children := ns } := by
    rw [Node.content, h, List.filter_append]
    rfl
  simp only [programOf_eq, Node.toProgram, hcontent, List.mapM_append, Report.result_bind]
  rfl

/-- From every cursor that moves and walks lead to, the program is that of the tree. There is a
statement for each place of the root's content, in order, or the refusal of the first place that
is refused. A root whose children are split gives one half's program after the other's. After a
success the cursor is at the root. -/
theorem program_from_reachable (source : String) (h : w.cursor.Reachable root) :
    let run := (program source).run w
    run.1 = programOf source root ∧
    (∀ p, run.1 = .ok p ↔
      List.Forall₂ (fun c s => stmtAt source c = .ok s) (Cursor.ofRoot root).contentPlaces p) ∧
    (∀ e, run.1 = .error e ↔
      ∃ before c after, (Cursor.ofRoot root).contentPlaces = before ++ c :: after ∧
      (∀ b ∈ before, ∃ s, stmtAt source b = .ok s) ∧ stmtAt source c = .error e) ∧
    (∀ ms ns, root.children = ms ++ ns → run.1 = do
      let p ← programOf source { root with children := ms }
      let q ← programOf source { root with children := ns }
      return p ++ q) ∧
    (∀ p, run.1 = .ok p → run.2.cursor = .ofRoot root) := by
  intro run
  have hrun : run.1 = programOf source root := run_program_of_reachable source h
  refine ⟨hrun, ?_, ?_, ?_, ?_⟩
  · intro p; rw [hrun]; exact programOf_eq_ok
  · intro e; rw [hrun]; exact programOf_eq_error
  · intro ms ns hsplit; rw [hrun]; exact programOf_append hsplit
  · intro p hp
    rw [← h.root_eq]
    exact (follows_program source w.cursor).cursor_run hp

/-- The tree of `a` and `f()` on two lines. -/
def nameThenEmptyCall : Node :=
  let callee : Node := ⟨"identifier", "", ⟨2, 3⟩, [], true, false, false⟩
  let list : Node := ⟨"argument_list", "", ⟨3, 5⟩, [], true, false, false⟩
  let call : Node := ⟨"call", "", ⟨2, 5⟩, [callee, list], true, false, false⟩
  let name : Node := ⟨"identifier", "", ⟨0, 1⟩, [], true, false, false⟩
  ⟨"module", "", ⟨0, 5⟩,
    [⟨"expression_statement", "", ⟨0, 1⟩, [name], true, false, false⟩,
      ⟨"\n", "", ⟨1, 2⟩, [], false, false, false⟩,
      ⟨"expression_statement", "", ⟨2, 5⟩, [call], true, false, false⟩],
    true, false, false⟩

/-- A program that was refused left the cursor in the call; from there it is refused again. -/
theorem program_from_refusedCall :
    let w := ((program "a\nf()").run (.start (.ofRoot nameThenEmptyCall))).2
    w.cursor.Reachable nameThenEmptyCall ∧ w.cursor.path.map Prod.snd = [0, 2] ∧
    ((program "a\nf()").run w).1 = programOf "a\nf()" nameThenEmptyCall ∧
    programOf "a\nf()" nameThenEmptyCall = .error (.arityMismatch "f" 0 ⟨2, 5⟩) := by
  intro w
  have hw : w.cursor.Reachable nameThenEmptyCall := .program "a\nf()" .start
  have hplace : w.cursor.path.map Prod.snd = [0, 2] := by decide +kernel
  have hrefused : programOf "a\nf()" nameThenEmptyCall =
      .error (.arityMismatch "f" 0 ⟨2, 5⟩) := by decide +kernel
  exact ⟨hw, hplace, (program_from_reachable "a\nf()" hw).1, hrefused⟩

end Walk

end Scriptlet
