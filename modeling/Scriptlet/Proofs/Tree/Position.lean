import Scriptlet.Tree.Cursor

/-! # Positions below a place

Where the moves of a cursor lead, told by the node that they start from. Below a place the cursor
stands amid the children of its node; the significant children still ahead are a tail of the list
of all significant children, and one step up leads back to the place. Each child has a place of its
own.
-/

namespace Scriptlet.Cursor

variable {c d : Cursor} {i k : Nat} {m : Node}

def child? (c : Cursor) (i : Nat) : Option Cursor :=
  c.node.children[i]?.map fun m => ⟨m, (c.node, i) :: c.path⟩

/-- A place in the subtree at `top`. -/
inductive Below (top : Cursor) : Cursor → Prop
  | here : Below top top
  | child {c d : Cursor} {i : Nat} : c.child? i = some d → Below top c → Below top d

theorem Below.trans {a b c : Cursor} (hab : Below a b) (hbc : Below b c) : Below a c := by
  induction hbc with
  | here => exact hab
  | child h _ ih => exact .child h ih

theorem child?_eq_some_iff :
    c.child? i = some d ↔ c.node.children[i]? = some d.node ∧ d.path = (c.node, i) :: c.path := by
  rcases d with ⟨n, path⟩
  simp only [child?, Option.map_eq_some_iff, Cursor.mk.injEq]
  constructor
  · rintro ⟨m, hm, rfl, rfl⟩; exact ⟨hm, rfl⟩
  · rintro ⟨hm, rfl⟩; exact ⟨n, hm, rfl, rfl⟩

theorem node_mem_of_child? (h : c.child? i = some d) : d.node ∈ c.node.children :=
  List.mem_of_getElem? (child?_eq_some_iff.mp h).1

theorem firstChild?_eq (c : Cursor) : c.firstChild? = c.child? 0 := by
  unfold firstChild? child?
  cases c.node.children <;> rfl

theorem nextSibling?_of_child? (h : c.child? i = some d) : d.nextSibling? = c.child? (i + 1) := by
  simp [nextSibling?, child?, (child?_eq_some_iff.mp h).2]

theorem parent?_of_child? (h : c.child? i = some d) : d.parent? = some c := by
  simp [parent?, (child?_eq_some_iff.mp h).2]

theorem below_of_child? (h : c.child? i = some d) : Below c d :=
  .child h .here

theorem drop_children_of_child? (h : c.child? i = some d) :
    c.node.children.drop i = d.node :: c.node.children.drop (i + 1) := by
  obtain ⟨hi, he⟩ := List.getElem?_eq_some_iff.mp (child?_eq_some_iff.mp h).1
  rw [List.drop_eq_getElem_cons hi, he]

theorem drop_children_of_child?_none (h : c.child? i = none) : c.node.children.drop i = [] := by
  simpa [child?, List.drop_eq_nil_iff] using h

def childPlaces (c : Cursor) : List Cursor :=
  c.node.children.mapIdx fun i m => ⟨m, (c.node, i) :: c.path⟩

def significantPlaces (c : Cursor) : List Cursor := c.childPlaces.filter (!·.node.isExtra)

def contentPlaces (c : Cursor) : List Cursor := c.childPlaces.filter (·.node.isContent)

theorem map_node_childPlaces (c : Cursor) : c.childPlaces.map node = c.node.children := by
  rw [childPlaces, List.mapIdx_eq_zipIdx_map, List.map_map]
  exact List.zipIdx_map_fst 0 c.node.children

theorem map_node_significantPlaces (c : Cursor) :
    c.significantPlaces.map node = c.node.significant := by
  rw [Node.significant, ← map_node_childPlaces c, List.filter_map]
  rfl

theorem getElem?_childPlaces (c : Cursor) (i : Nat) : c.childPlaces[i]? = c.child? i := by
  simp [childPlaces, child?]

theorem drop_childPlaces_of_child? (h : c.child? i = some d) :
    c.childPlaces.drop i = d :: c.childPlaces.drop (i + 1) := by
  rw [← getElem?_childPlaces, List.getElem?_eq_some_iff] at h
  obtain ⟨hi, rfl⟩ := h
  exact List.drop_eq_getElem_cons hi

/-! ## Significant children ahead -/

/-- The places of the children from the `i`th on that are no comments. -/
def placesFrom (c : Cursor) (i : Nat) : List Cursor :=
  (c.childPlaces.drop i).filter (!·.node.isExtra)

theorem placesFrom_zero (c : Cursor) : c.placesFrom 0 = c.significantPlaces := rfl

theorem placesFrom_of_none (h : c.child? i = none) : c.placesFrom i = [] := by
  rw [← getElem?_childPlaces, List.getElem?_eq_none_iff] at h
  simp [placesFrom, List.drop_eq_nil_of_le h]

theorem placesFrom_of_extra (h : c.child? i = some d) (hx : d.node.isExtra = true) :
    c.placesFrom i = c.placesFrom (i + 1) := by
  simp [placesFrom, drop_childPlaces_of_child? h, hx]

theorem placesFrom_of_significant (h : c.child? i = some d) (hx : d.node.isExtra = false) :
    c.placesFrom i = d :: c.placesFrom (i + 1) := by
  simp [placesFrom, drop_childPlaces_of_child? h, hx]

theorem map_node_placesFrom (c : Cursor) (i : Nat) :
    (c.placesFrom i).map node = (c.node.children.drop i).filter (!·.isExtra) := by
  rw [placesFrom, ← map_node_childPlaces c, ← List.map_drop, List.filter_map]
  rfl

/-- From a child the search goes to the first significant place ahead, or else to the last child. -/
theorem nextSignificant_cases (h : c.child? i = some d) :
    (∃ j e, d.nextSignificant = (true, e) ∧ c.child? j = some e ∧
      c.placesFrom (i + 1) = e :: c.placesFrom (j + 1)) ∨
    (∃ e, d.nextSignificant = (false, e) ∧ c.child? (c.node.children.length - 1) = some e ∧
      c.placesFrom (i + 1) = []) := by
  unfold nextSignificant
  fun_induction SyntaxCursor.nextSignificant d generalizing i with
  | case1 d hn =>
    have hn := (nextSibling?_of_child? h).symm.trans hn
    have hlast : c.node.children.length - 1 = i := by
      have hlt := (List.getElem?_eq_some_iff.mp (child?_eq_some_iff.mp h).1).1
      have hle := List.drop_eq_nil_iff.mp (drop_children_of_child?_none hn)
      omega
    exact .inr ⟨d, rfl, by rw [hlast]; exact h, placesFrom_of_none hn⟩
  | case2 d e hn _ hx ih =>
    have hn := (nextSibling?_of_child? h).symm.trans hn
    rw [placesFrom_of_extra hn hx]
    exact ih hn
  | case3 d e hn _ hx =>
    have hn := (nextSibling?_of_child? h).symm.trans hn
    have hx : e.node.isExtra = false := Bool.eq_false_iff.mpr hx
    exact .inl ⟨i + 1, e, rfl, hn, placesFrom_of_significant hn hx⟩

theorem firstSignificant_cases (c : Cursor) :
    (∃ j e, c.firstSignificant = (true, e) ∧ c.child? j = some e ∧
      c.significantPlaces = e :: c.placesFrom (j + 1)) ∨
    (c.firstSignificant = (false, c) ∧ c.significantPlaces = []) := by
  unfold firstSignificant SyntaxCursor.firstSignificant
  rw [syntax_firstChild?, firstChild?_eq, ← placesFrom_zero]
  cases h : c.child? 0 with
  | none => exact .inr ⟨rfl, placesFrom_of_none h⟩
  | some d =>
    cases hx : d.node.isExtra with
    | false => exact .inl ⟨0, d, by simp [hx], h, placesFrom_of_significant h hx⟩
    | true =>
      rw [placesFrom_of_extra h hx]
      rcases nextSignificant_cases h with ⟨j, e, he, hj, hp⟩ | ⟨e, he, hlast, hp⟩
      · exact .inl ⟨j, e, by simp [hx, he], hj, hp⟩
      · exact .inr ⟨by simp [hx, he, parent?_of_child? hlast], hp⟩

/-- `d` stands on a child of the node at `c`, and all but `k` of the significant children of that
node are still ahead. -/
def Amid (c : Cursor) (k : Nat) (d : Cursor) : Prop :=
  ∃ i, c.child? i = some d ∧
    (c.node.children.drop (i + 1)).filter (!·.isExtra) = c.node.significant.drop k

theorem Amid.parent? (h : Amid c k d) : d.parent? = some c :=
  h.elim fun _ h => parent?_of_child? h.1

theorem Amid.below (h : Amid c k d) : Below c d := h.elim fun _ h => below_of_child? h.1

/-- Arriving at a significant child leaves one fewer ahead. -/
theorem amid_of_drop (h : c.child? i = some d)
    (hk : c.node.significant.drop k = (d :: c.placesFrom (i + 1)).map node) :
    c.node.significant[k]? = some d.node ∧ Amid c (k + 1) d := by
  constructor
  · rw [← List.head?_drop, hk]
    rfl
  · refine ⟨i, h, ?_⟩
    rw [← List.tail_drop (i := k), hk, ← map_node_placesFrom]
    rfl

/-- The next significant child of the node at `c` is found if there is one; otherwise the cursor
stays amid the children. -/
theorem Amid.nextSignificant (h : Amid c k d) :
    (∃ e, d.nextSignificant = (true, e) ∧ c.node.significant[k]? = some e.node ∧
      Amid c (k + 1) e) ∨
    (∃ e, d.nextSignificant = (false, e) ∧ c.node.significant[k]? = none ∧ Amid c k e) := by
  obtain ⟨i, hd, hk⟩ := h
  rw [← map_node_placesFrom] at hk
  rcases nextSignificant_cases hd with ⟨j, e, he, hj, hp⟩ | ⟨e, he, hlast, hp⟩
  · rw [hp] at hk
    exact .inl ⟨e, he, amid_of_drop hj hk.symm⟩
  · rw [hp, List.map_nil] at hk
    refine .inr ⟨e, he, ?_, _, hlast, ?_⟩
    · rw [← List.head?_drop, ← hk]
      rfl
    · rw [← hk, List.drop_eq_nil_of_le (by omega)]
      rfl

theorem firstSignificant_spec (c : Cursor) :
    (∃ d, c.firstSignificant = (true, d) ∧ c.node.significant[0]? = some d.node ∧ Amid c 1 d) ∨
    (c.firstSignificant = (false, c) ∧ c.node.significant[0]? = none) := by
  have hplaces := map_node_significantPlaces c
  rcases firstSignificant_cases c with ⟨j, e, he, hj, hp⟩ | ⟨he, hp⟩
  · rw [hp] at hplaces
    exact .inl ⟨e, he, amid_of_drop hj hplaces.symm⟩
  · rw [hp, List.map_nil] at hplaces
    exact .inr ⟨he, by simp [← hplaces]⟩

end Scriptlet.Cursor
