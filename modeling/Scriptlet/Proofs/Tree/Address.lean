import Scriptlet.Proofs.Tree.Position
import Scriptlet.Session

/-! # Addresses

An address tells a place in a tree by the indices of the children that lead there. A cursor stands
at an address if its path consists of these steps, each taken from the node before. Then a move of
the cursor is a move of the address.
-/

namespace Scriptlet

/-- The indices of the children to take from a root, innermost first. -/
abbrev Address := List Nat

namespace Node

/-- The node at an address. -/
def nodeAt? (root : Node) : Address → Option Node
  | [] => some root
  | i :: up => (root.nodeAt? up).bind (·.children[i]?)

def childCount (root : Node) (a : Address) : Nat :=
  ((root.nodeAt? a).map (·.children.length)).getD 0

/-- The first child from the `i`th on that is no extra. -/
def significantFrom? (root : Node) (up : Address) (i : Nat) : Option Address :=
  (root.nodeAt? up).bind fun n =>
    ((n.children.drop i).findIdx? (!·.isExtra)).map fun k => (i + k) :: up

end Node

namespace Address

/-- The address that a move is after, if there is such a place in the tree. -/
def target? (root : Node) (a : Address) : Cursor.Move → Option Address
  | .firstChild => (root.nodeAt? (0 :: a)).map fun _ => 0 :: a
  | .nextSibling =>
    match a with
    | [] => none
    | i :: up => (root.nodeAt? ((i + 1) :: up)).map fun _ => (i + 1) :: up
  | .parent => a.tail?
  | .firstSignificant => root.significantFrom? a 0
  | .nextSignificant =>
    match a with
    | [] => none
    | i :: up => root.significantFrom? up (i + 1)

/-- Where a move ends that has no target: the search among the siblings stops at the last one,
every other move stays. -/
def rest (root : Node) (a : Address) : Cursor.Move → Address
  | .nextSignificant =>
    match a with
    | [] => []
    | _ :: up => (root.childCount up - 1) :: up
  | _ => a

def move (root : Node) (a : Address) (m : Cursor.Move) : Bool × Address :=
  match a.target? root m with
  | some b => (true, b)
  | none => (false, a.rest root m)

end Address

namespace Cursor

/-- The steps lead from the root to the node: every index is that of a child of the parent beside
it, and the outermost parent is the root. -/
inductive Leads (root : Node) : List (Node × Nat) → Node → Prop
  | here : Leads root [] root
  | child {path : List (Node × Nat)} {parent n : Node} {i : Nat} : Leads root path parent →
      parent.children[i]? = some n → Leads root ((parent, i) :: path) n

/-- The cursor is the one that belongs to the address in the tree. -/
structure StandsAt (root : Node) (a : Address) (c : Cursor) : Prop where
  leads : Leads root c.path c.node
  indices : c.path.map Prod.snd = a

variable {root : Node} {a up : Address} {c d : Cursor} {i : Nat}

theorem standsAt_ofRoot (root : Node) : StandsAt root [] (ofRoot root) := ⟨.here, rfl⟩

theorem StandsAt.child (h : StandsAt root a c) (hd : c.child? i = some d) :
    StandsAt root (i :: a) d := by
  obtain ⟨hn, hp⟩ := child?_eq_some_iff.mp hd
  constructor
  · rw [hp]; exact .child h.leads hn
  · rw [hp, List.map_cons, h.indices]

theorem StandsAt.eq_ofRoot (h : StandsAt root [] c) : c = ofRoot root := by
  rcases c with ⟨n, path⟩
  obtain ⟨hl, hi⟩ := h
  cases hl with
  | here => rfl
  | child => simp at hi

/-- A cursor that is not at the root stands at a child of another one. -/
theorem StandsAt.exists_child (h : StandsAt root (i :: up) d) :
    ∃ c, StandsAt root up c ∧ c.child? i = some d := by
  rcases d with ⟨n, path⟩
  obtain ⟨hl, hi⟩ := h
  cases hl with
  | here => simp at hi
  | @child path parent _ j hp hn =>
    obtain ⟨rfl, hup⟩ : j = i ∧ path.map Prod.snd = up := by simpa using hi
    exact ⟨⟨parent, path⟩, ⟨hp, hup⟩, child?_eq_some_iff.mpr ⟨hn, rfl⟩⟩

/-- At an address there is one cursor at most: the node and the parents on its path are those of
the tree. -/
theorem StandsAt.unique (hc : StandsAt root a c) (hd : StandsAt root a d) : c = d := by
  induction a generalizing c d with
  | nil => rw [hc.eq_ofRoot, hd.eq_ofRoot]
  | cons i up ih =>
    obtain ⟨c', hc', hci⟩ := hc.exists_child
    obtain ⟨d', hd', hdi⟩ := hd.exists_child
    rw [ih hc' hd', hdi] at hci
    exact (Option.some.inj hci).symm

theorem StandsAt.nodeAt? (h : StandsAt root a c) : root.nodeAt? a = some c.node := by
  induction a generalizing c with
  | nil => rw [h.eq_ofRoot]; rfl
  | cons i up ih =>
    obtain ⟨p, hp, hi⟩ := h.exists_child
    rw [Node.nodeAt?, ih hp]
    exact (child?_eq_some_iff.mp hi).1

theorem StandsAt.nodeAt?_child (h : StandsAt root a c) (i : Nat) :
    root.nodeAt? (i :: a) = (c.child? i).map Cursor.node := by
  rw [Node.nodeAt?, h.nodeAt?, child?, Option.map_map]
  exact (Option.map_id' ..).symm

theorem StandsAt.root_eq (h : StandsAt root a c) : c.root = ofRoot root := by
  induction a generalizing c with
  | nil => rw [h.eq_ofRoot, root_ofRoot]
  | cons i up ih =>
    obtain ⟨p, hp, hi⟩ := h.exists_child
    rw [root_of_parent? (parent?_of_child? hi), ih hp]

/-- What lies below a place has an address that continues the address of the place. -/
theorem StandsAt.of_below (h : StandsAt root a c) (hd : Below c d) :
    ∃ down, StandsAt root (down ++ a) d := by
  induction hd with
  | here => exact ⟨[], h⟩
  | @child _ _ i hi _ ih =>
    obtain ⟨down, hdown⟩ := ih
    exact ⟨i :: down, hdown.child hi⟩

theorem Below.path_suffix (h : Below c d) : c.path <:+ d.path := by
  induction h with
  | here => exact List.suffix_rfl
  | child hi _ ih =>
    rw [(child?_eq_some_iff.mp hi).2]
    exact ih.trans (List.suffix_cons _ _)

theorem StandsAt.significantFrom?_eq (h : StandsAt root up c) (i : Nat) :
    root.significantFrom? up i = (c.placesFrom i).head?.map fun d => d.path.map Prod.snd := by
  have hchildren : c.node.children.drop i = (c.childPlaces.drop i).map node := by
    rw [List.map_drop, map_node_childPlaces]
  rw [Node.significantFrom?, h.nodeAt?, Option.bind_some, hchildren, List.findIdx?_map, placesFrom,
    List.head?_filter, List.find?_eq_bind_findIdx?_getElem?, Option.map_bind, Option.map_eq_bind]
  apply Option.bind_congr
  intro k hk
  have hlt := (List.findIdx?_eq_some_iff_getElem.mp hk).1
  simp only [Function.comp_apply, List.getElem?_eq_getElem hlt]
  simp [childPlaces, h.indices]

/-- The search among the siblings stops at the first one that is no extra, or at the last one. -/
theorem StandsAt.nextSignificant (h : StandsAt root up c) (hi : c.child? i = some d) :
    (∃ b e, root.significantFrom? up (i + 1) = some b ∧ d.nextSignificant = (true, e) ∧
      StandsAt root b e) ∨
    (∃ e, root.significantFrom? up (i + 1) = none ∧ d.nextSignificant = (false, e) ∧
      c.child? (c.node.children.length - 1) = some e) := by
  rw [h.significantFrom?_eq]
  rcases nextSignificant_cases hi with ⟨j, e, he, hj, hplaces⟩ | ⟨e, he, hlast, hplaces⟩
  · rw [hplaces]
    exact .inl ⟨_, e, rfl, he, (h.child hj).leads, rfl⟩
  · rw [hplaces]
    exact .inr ⟨e, rfl, he, hlast⟩

theorem StandsAt.firstSignificant (h : StandsAt root a c) :
    (∃ b e, root.significantFrom? a 0 = some b ∧ c.firstSignificant = (true, e) ∧
      StandsAt root b e) ∨
    (root.significantFrom? a 0 = none ∧ c.firstSignificant = (false, c)) := by
  rw [h.significantFrom?_eq, placesFrom_zero]
  rcases firstSignificant_cases c with ⟨j, e, he, hj, hplaces⟩ | ⟨he, hplaces⟩
  · rw [hplaces]
    exact .inl ⟨_, e, rfl, he, (h.child hj).leads, rfl⟩
  · rw [hplaces]
    exact .inr ⟨rfl, he⟩

theorem nextSignificant_ofRoot (root : Node) :
    (ofRoot root).nextSignificant = (false, ofRoot root) :=
  SyntaxCursor.nextSignificant_of_none rfl

/-- A move goes to the target of the address if there is one, and else where the address rests. -/
theorem StandsAt.move (h : StandsAt root a c) (m : Move) :
    (∃ b e, a.target? root m = some b ∧ c.move m = (true, e) ∧ StandsAt root b e) ∨
    (∃ e, a.target? root m = none ∧ c.move m = (false, e) ∧ StandsAt root (a.rest root m) e) := by
  cases m with
  | firstChild =>
    simp only [Address.target?, Address.rest, Cursor.move, h.nodeAt?_child, firstChild?_eq]
    cases hi : c.child? 0 with
    | some d => exact .inl ⟨_, d, rfl, rfl, h.child hi⟩
    | none => exact .inr ⟨c, rfl, rfl, h⟩
  | nextSibling =>
    cases a with
    | nil => rw [h.eq_ofRoot]; exact .inr ⟨_, rfl, rfl, standsAt_ofRoot root⟩
    | cons i up =>
      obtain ⟨p, hp, hi⟩ := h.exists_child
      simp only [Address.target?, Address.rest, Cursor.move, hp.nodeAt?_child,
        nextSibling?_of_child? hi]
      cases hn : p.child? (i + 1) with
      | some d => exact .inl ⟨_, d, rfl, rfl, hp.child hn⟩
      | none => exact .inr ⟨c, rfl, rfl, h⟩
  | parent =>
    cases a with
    | nil => rw [h.eq_ofRoot]; exact .inr ⟨_, rfl, rfl, standsAt_ofRoot root⟩
    | cons i up =>
      obtain ⟨p, hp, hi⟩ := h.exists_child
      exact .inl ⟨up, p, rfl, by simp [Cursor.move, parent?_of_child? hi], hp⟩
  | firstSignificant =>
    rcases h.firstSignificant with ⟨b, e, hb, he, hs⟩ | ⟨hb, he⟩
    · exact .inl ⟨b, e, hb, he, hs⟩
    · exact .inr ⟨c, hb, he, h⟩
  | nextSignificant =>
    cases a with
    | nil =>
      rw [h.eq_ofRoot]
      exact .inr ⟨_, rfl, nextSignificant_ofRoot root, standsAt_ofRoot root⟩
    | cons i up =>
      obtain ⟨p, hp, hi⟩ := h.exists_child
      rcases hp.nextSignificant hi with ⟨b, e, hb, he, hs⟩ | ⟨e, hb, he, hlast⟩
      · exact .inl ⟨b, e, hb, he, hs⟩
      · have hcount : root.childCount up = p.node.children.length := by
          simp [Node.childCount, hp.nodeAt?]
        refine .inr ⟨e, hb, he, ?_⟩
        rw [Address.rest, hcount]
        exact hp.child hlast

theorem StandsAt.move_alike (h : StandsAt root a c) (m : Move) :
    (c.move m).1 = (a.move root m).1 ∧ StandsAt root (a.move root m).2 (c.move m).2 := by
  unfold Address.move
  rcases h.move m with ⟨b, e, hb, he, hs⟩ | ⟨e, hb, he, hs⟩
  · rw [hb, he]; exact ⟨rfl, hs⟩
  · rw [hb, he]; exact ⟨rfl, hs⟩

theorem StandsAt.move_found {b : Address} {m : Move} (h : StandsAt root a c)
    (hb : a.target? root m = some b) : (c.move m).1 = true ∧ StandsAt root b (c.move m).2 := by
  have halike := h.move_alike m
  rwa [Address.move, hb] at halike

theorem StandsAt.move_missed {m : Move} (h : StandsAt root a c) (hm : a.target? root m = none) :
    (c.move m).1 = false ∧ StandsAt root (a.rest root m) (c.move m).2 := by
  have halike := h.move_alike m
  rwa [Address.move, hm] at halike

theorem StandsAt.exists_target {m : Move} (h : StandsAt root a c) (hm : (c.move m).1 = true) :
    ∃ b, a.target? root m = some b := by
  cases hb : a.target? root m with
  | some b => exact ⟨b, rfl⟩
  | none => rw [(h.move_missed hb).1] at hm; cases hm

theorem StandsAt.target?_eq_none {m : Move} (h : StandsAt root a c)
    (hm : (c.move m).1 = false) : a.target? root m = none := by
  cases hb : a.target? root m with
  | some b => rw [(h.move_found hb).1] at hm; cases hm
  | none => rfl

section Family

variable {b : Address} {m : Move}

theorem exists_of_significantFrom? (h : root.significantFrom? up i = some b) :
    ∃ j, b = j :: up := by
  obtain ⟨_, -, hk⟩ := Option.bind_eq_some_iff.mp h
  obtain ⟨k, -, rfl⟩ := Option.map_eq_some_iff.mp hk
  exact ⟨i + k, rfl⟩

def Move.IsSibling (m : Move) : Prop := m = .nextSibling ∨ m = .nextSignificant

theorem child_of_target? (hm : m = .firstChild ∨ m = .firstSignificant)
    (hb : Address.target? root a m = some b) : ∃ j, b = j :: a := by
  rcases hm with rfl | rfl
  · obtain ⟨_, -, rfl⟩ := Option.map_eq_some_iff.mp hb
    exact ⟨0, rfl⟩
  · exact exists_of_significantFrom? hb

theorem sibling_of_target? (hm : m.IsSibling)
    (hb : Address.target? root (i :: up) m = some b) : ∃ j, b = j :: up := by
  rcases hm with rfl | rfl
  · obtain ⟨_, -, rfl⟩ := Option.map_eq_some_iff.mp hb
    exact ⟨i + 1, rfl⟩
  · exact exists_of_significantFrom? hb

theorem sibling_rest (hm : m.IsSibling) : ∃ j, Address.rest root (i :: up) m = j :: up := by
  rcases hm with rfl | rfl
  · exact ⟨i, rfl⟩
  · exact ⟨root.childCount up - 1, rfl⟩

end Family

theorem StandsAt.move_sibling (h : StandsAt root (i :: up) d) {m : Move} (hm : m.IsSibling) :
    ∃ j, StandsAt root (j :: up) (d.move m).2 := by
  cases hb : Address.target? root (i :: up) m with
  | some b =>
    obtain ⟨j, rfl⟩ := sibling_of_target? hm hb
    exact ⟨j, (h.move_found hb).2⟩
  | none =>
    obtain ⟨j, hj⟩ : ∃ j, Address.rest root (i :: up) m = j :: up := sibling_rest hm
    exact ⟨j, hj ▸ (h.move_missed hb).2⟩

def moves (c : Cursor) (ms : List Move) : Cursor := ms.foldl (fun d m => (d.move m).2) c

theorem StandsAt.moves_siblings {ms : List Move} (h : StandsAt root (i :: up) d)
    (hms : ∀ m ∈ ms, m.IsSibling) : ∃ j, StandsAt root (j :: up) (d.moves ms) := by
  induction ms generalizing d i with
  | nil => exact ⟨i, h⟩
  | cons m ms ih =>
    obtain ⟨j, hj⟩ := h.move_sibling (hms m List.mem_cons_self)
    exact ih hj fun m hm => hms m (List.mem_cons_of_mem _ hm)

/-- From a child, one step up leads back to the exact cursor from before, however many siblings
were visited in between. -/
theorem StandsAt.parent_moves (h : StandsAt root a c) (hd : StandsAt root (i :: a) d)
    {ms : List Move} (hms : ∀ m ∈ ms, m.IsSibling) : (d.moves ms).move .parent = (true, c) := by
  obtain ⟨j, hj⟩ := hd.moves_siblings hms
  obtain ⟨p, hp, hchild⟩ := hj.exists_child
  rw [hp.unique h] at hchild
  simp [Cursor.move, parent?_of_child? hchild]

end Cursor

end Scriptlet
