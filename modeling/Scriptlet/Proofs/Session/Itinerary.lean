import Scriptlet.Proofs.Reading.Simulation
import Scriptlet.Proofs.Tree.Address

/-! # Sessions as itineraries

A session over a tree does nothing that addresses do not tell: an itinerary keeps the address of
the cursor and the addresses of the saved copies, and gives the replies of the session. So every
cursor that a session holds is the one that belongs to its address.
-/

namespace Scriptlet

open Walk (Follows Same)

section Transcript

variable {σ τ κ ρ : Type}

def transcript (step : σ → κ → ρ × σ) (s : σ) : List κ → List ρ × σ
  | [] => ([], s)
  | k :: ks =>
    let (reply, s) := step s k
    let (replies, s) := transcript step s ks
    (reply :: replies, s)

/-- What each step keeps alike, all of them do. -/
theorem transcript_alike {stepS : σ → κ → ρ × σ} {stepT : τ → κ → ρ × τ} {R : σ → τ → Prop}
    (hstep : ∀ s t k, R s t → (stepS s k).1 = (stepT t k).1 ∧ R (stepS s k).2 (stepT t k).2)
    {s : σ} {t : τ} (h : R s t) (ks : List κ) :
    (transcript stepS s ks).1 = (transcript stepT t ks).1 ∧
      R (transcript stepS s ks).2 (transcript stepT t ks).2 := by
  induction ks generalizing s t with
  | nil => exact ⟨rfl, h⟩
  | cons k ks ih =>
    obtain ⟨hreply, hnext⟩ := hstep s t k h
    obtain ⟨hreplies, hend⟩ := ih hnext
    refine ⟨?_, hend⟩
    change (stepS s k).1 :: _ = (stepT t k).1 :: _
    rw [hreply, hreplies]

end Transcript

/-- The address of the cursor, and those of the saved ones, newest first. -/
structure Itinerary where
  here : Address
  saved : List Address

namespace Itinerary

def start : Itinerary := ⟨[], []⟩

/-- What a command of a session replies, told by the tree and the address alone. -/
def step (root : Node) (source : String) (t : Itinerary) :
    Session.Command → Session.Reply × Itinerary
  | .move m =>
    let (success, a) := t.here.move root m
    (.moved success, { t with here := a })
  | .save => (.saved (t.saved.length + 1), { t with saved := t.here :: t.saved })
  | .restore =>
    match t.saved with
    | [] => (.moved false, t)
    | a :: saved => (.moved true, ⟨a, saved⟩)
  | .text => (.text (node.slice source).result, t)
  | .expr => (.expr (node.toExpr source).result, t)
  | .stmt => (.stmt (node.toStmt source).result, t)
  | .program =>
    let result := (root.toProgram source).result
    (.program result, if result.isOk then { t with here := [] } else t)
  | .node => (.node node, t)
where
  node := (root.nodeAt? t.here).getD root

end Itinerary

/-- The cursor and the saved ones stand at the addresses of the itinerary. -/
structure Session.On (root : Node) (s : Session) (t : Itinerary) : Prop where
  here : Cursor.StandsAt root t.here s.cursor
  saved : List.Forall₂ (Cursor.StandsAt root) t.saved s.saved

namespace Session

variable {root : Node} {s : Session} {t : Itinerary}

theorem on_start (root : Node) : On root (start root) .start := ⟨Cursor.standsAt_ofRoot root, .nil⟩

/-- A walk that follows a report has its result, and leaves the session where it was unless it
succeeds. -/
theorem walk_of_follows {α : Type} {x : Walk Cursor α} {r : Report α} {top e : Cursor}
    (h : Follows top s.cursor x r (Same e)) :
    s.walk x = (r.result, if r.result.isOk then { s with cursor := e } else s) := by
  obtain ⟨d, result, hrun, -, hagree⟩ := h [] 0
  rw [walk, Walker.start, hrun]
  generalize r.result = expected at hagree
  cases hagree with
  | ok h => obtain ⟨rfl, rfl⟩ := h; rfl
  | error => rfl

theorem walk_of_follows_same {α : Type} {x : Walk Cursor α} {r : Report α} {top : Cursor}
    (h : Follows top s.cursor x r (Same s.cursor)) : s.walk x = (r.result, s) := by
  rw [walk_of_follows h]
  split <;> rfl

theorem step_on (source : String) (h : s.On root t) (k : Command) :
    (s.step source k).1 = (t.step root source k).1 ∧
      (s.step source k).2.On root (t.step root source k).2 := by
  have hnode : (root.nodeAt? t.here).getD root = s.cursor.node := by rw [h.here.nodeAt?]; rfl
  cases k with
  | move m =>
    obtain ⟨hfound, hmoved⟩ := h.here.move_alike m
    exact ⟨congrArg Reply.moved hfound, hmoved, h.saved⟩
  | save =>
    refine ⟨?_, h.here, .cons h.here h.saved⟩
    change Reply.saved _ = Reply.saved _
    rw [h.saved.length_eq]
  | restore =>
    rcases s with ⟨c, saved⟩
    rcases t with ⟨a, addresses⟩
    obtain ⟨hhere, hsaved⟩ := h
    cases hsaved with
    | nil => exact ⟨rfl, hhere, .nil⟩
    | cons hlast hsaved => exact ⟨rfl, hlast, hsaved⟩
  | text =>
    simp only [step, Itinerary.step, Itinerary.step.node, hnode,
      walk_of_follows_same (Walk.follows_text .here source)]
    exact ⟨trivial, h⟩
  | expr =>
    simp only [step, Itinerary.step, Itinerary.step.node, hnode,
      walk_of_follows_same (Walk.follows_expr source _)]
    exact ⟨trivial, h⟩
  | stmt =>
    simp only [step, Itinerary.step, Itinerary.step.node, hnode,
      walk_of_follows_same (Walk.follows_stmt source _)]
    exact ⟨trivial, h⟩
  | program =>
    have hwalk := walk_of_follows (Walk.follows_program source s.cursor)
    rw [h.here.root_eq] at hwalk
    simp only [step, Itinerary.step, hwalk]
    refine ⟨rfl, ?_⟩
    change On root (if (root.toProgram source).result.isOk then _ else s) _
    split
    · exact ⟨Cursor.standsAt_ofRoot root, h.saved⟩
    · exact h
  | node =>
    simp only [step, Itinerary.step, Itinerary.step.node, hnode]
    exact ⟨trivial, h⟩

end Session

/-- What is known of a cursor at an address. -/
structure Cursor.Tracks (root : Node) (a : Address) (c : Cursor) : Prop where
  stands : StandsAt root a c
  /-- A move that has a target goes there and says so. -/
  found : ∀ m b, a.target? root m = some b → (c.move m).1 = true ∧ StandsAt root b (c.move m).2
  /-- A move that has none says so. -/
  missed : ∀ m, a.target? root m = none → (c.move m).1 = false
  /-- A move that says so has changed nothing, but for a search among siblings. -/
  unmoved : ∀ m, (c.move m).1 = false → m ≠ .nextSignificant ∨ a = [] → (c.move m).2 = c
  /-- A search among siblings that finds nothing ends at the last of them. -/
  last : ∀ i up, a = i :: up → (c.move .nextSignificant).1 = false →
    StandsAt root ((root.childCount up - 1) :: up) (c.move .nextSignificant).2
  /-- After a move to a child and any moves among the siblings, one step up leads back. -/
  returns : ∀ m siblings, m = .firstChild ∨ m = .firstSignificant → (c.move m).1 = true →
    (∀ m ∈ siblings, Move.IsSibling m) → ((c.move m).2.moves siblings).move .parent = (true, c)

namespace Cursor

variable {root : Node} {a : Address} {c : Cursor}

theorem rest_eq_self {m : Move} (h : m ≠ .nextSignificant ∨ a = []) :
    Address.rest root a m = a := by
  rcases h with h | rfl
  · cases m with
    | nextSignificant => exact absurd rfl h
    | firstChild | nextSibling | parent | firstSignificant => rfl
  · cases m <;> rfl

theorem StandsAt.tracks (h : StandsAt root a c) : Tracks root a c where
  stands := h
  found _ _ hb := h.move_found hb
  missed _ hm := (h.move_missed hm).1
  unmoved m hfalse hm := by
    have hrest := (h.move_missed (h.target?_eq_none hfalse)).2
    rw [rest_eq_self hm] at hrest
    exact hrest.unique h
  last i up ha hfalse := by
    subst ha
    exact (h.move_missed (h.target?_eq_none hfalse)).2
  returns m siblings hm htrue hsiblings := by
    obtain ⟨b, hb⟩ := h.exists_target htrue
    obtain ⟨j, rfl⟩ := child_of_target? hm hb
    exact h.parent_moves (h.move_found hb).2 hsiblings

end Cursor

/-- However long a session goes on, its replies are those of the itinerary, and its cursor and all
its saved ones are the cursors at the addresses there. -/
theorem session_follows_itinerary (root : Node) (source : String)
    (commands : List Session.Command) :
    let session := transcript (fun s k => s.step source k) (Session.start root) commands
    let itinerary := transcript (Itinerary.step root source) .start commands
    session.1 = itinerary.1 ∧ Cursor.Tracks root itinerary.2.here session.2.cursor ∧
      List.Forall₂ (Cursor.Tracks root) itinerary.2.saved session.2.saved := by
  intro session itinerary
  obtain ⟨hreplies, hend⟩ :=
    transcript_alike (R := Session.On root) (fun _ _ k h => Session.step_on source h k)
      (Session.on_start root) commands
  exact ⟨hreplies, hend.here.tracks, hend.saved.imp fun _ _ h => h.tracks⟩

end Scriptlet
