import Scriptlet.Program

/-! # Equality of programs

Equality compares numbers by value: the two zeros are equal, and a NaN equals nothing. So two
programs are equal just if neither of them holds a NaN, at any depth, and they are one and the same
once every negative zero is a positive one.
-/

namespace Scriptlet

/-- The numbers at any depth, from left to right. -/
def Expr.numbers : Expr → List Binary64
  | number value => [value]
  | identifier _ => []
  | binary _ left right => left.numbers ++ right.numbers
  | call1 _ arg => arg.numbers
  | call2 _ first second => first.numbers ++ second.numbers

def Stmt.numbers (s : Stmt) : List Binary64 := s.expr.numbers

def Program.numbers (p : Program) : List Binary64 := p.flatMap Stmt.numbers

def Expr.mapNumbers (f : Binary64 → Binary64) : Expr → Expr
  | number value => number (f value)
  | identifier name => identifier name
  | binary op left right => binary op (left.mapNumbers f) (right.mapNumbers f)
  | call1 name arg => call1 name (arg.mapNumbers f)
  | call2 name first second => call2 name (first.mapNumbers f) (second.mapNumbers f)

def Stmt.mapNumbers (f : Binary64 → Binary64) : Stmt → Stmt
  | define name value => define name (value.mapNumbers f)
  | evaluate value => evaluate (value.mapNumbers f)

def Program.mapNumbers (f : Binary64 → Binary64) (p : Program) : Program :=
  p.map (Stmt.mapNumbers f)

def NaNFree (xs : List Binary64) : Prop := ∀ x ∈ xs, x.isNaN = false

@[simp] theorem nanFree_nil : NaNFree [] := List.forall_mem_nil _

@[simp] theorem nanFree_singleton {x : Binary64} : NaNFree [x] ↔ x.isNaN = false := by
  simp [NaNFree]

@[simp] theorem nanFree_append {xs ys : List Binary64} :
    NaNFree (xs ++ ys) ↔ NaNFree xs ∧ NaNFree ys := List.forall_mem_append

/-! ## Numbers -/

namespace Binary64

def negativeZero : Binary64 := ⟨0x8000000000000000⟩

def unsignZero (x : Binary64) : Binary64 := if x = negativeZero then ⟨0⟩ else x

theorem isZero_iff {x : Binary64} : x.isZero = true ↔ x = ⟨0⟩ ∨ x = negativeZero := by
  rw [isZero, decide_eq_true_iff]
  obtain ⟨bits⟩ := x
  have hlt := bits.toNat_lt
  simp only [magnitude, signBit, negativeZero, mk.injEq, ← UInt64.toNat_inj, UInt64.reduceToNat]
  omega

theorem unsignZero_eq_iff {x y : Binary64} :
    x.unsignZero = y.unsignZero ↔ x = y ∨ (x.isZero = true ∧ y.isZero = true) := by
  simp only [isZero_iff, unsignZero]
  split <;> split <;> simp_all [eq_comm]

theorem beq_iff {x y : Binary64} :
    (x == y) = true ↔ x.isNaN = false ∧ y.isNaN = false ∧ x.unsignZero = y.unsignZero := by
  change x.beq y = true ↔ _
  simp [Binary64.beq, unsignZero_eq_iff, and_assoc]

theorem isNaN_of_isFinite {x : Binary64} (h : x.isFinite = true) : x.isNaN = false := by
  simp only [isFinite, isNaN, decide_eq_true_eq, decide_eq_false_iff_not] at h ⊢
  omega

end Binary64

/-! ## Expressions, statements and programs -/

open Binary64 (unsignZero)

theorem Expr.beq_iff {x y : Expr} :
    (x == y) = true ↔ NaNFree x.numbers ∧ NaNFree y.numbers ∧
      x.mapNumbers unsignZero = y.mapNumbers unsignZero := by
  change x.beq y = true ↔ _
  induction x generalizing y with
  | number value => cases y <;> simp [Expr.beq, numbers, mapNumbers, Binary64.beq_iff]
  | identifier name => cases y <;> simp [Expr.beq, numbers, mapNumbers]
  | binary op left right ihl ihr =>
    cases y <;> simp [Expr.beq, numbers, mapNumbers, ihl, ihr, and_assoc, and_left_comm]
  | call1 name arg ih =>
    cases y <;> simp [Expr.beq, numbers, mapNumbers, ih, and_left_comm]
  | call2 name first second ihf ihs =>
    cases y <;> simp [Expr.beq, numbers, mapNumbers, ihf, ihs, and_assoc, and_left_comm]

example : (Expr.number ⟨0x7FF8000000000000⟩ == .number ⟨0x7FF8000000000000⟩) = false := by decide

theorem Stmt.beq_iff {s t : Stmt} :
    (s == t) = true ↔ NaNFree s.numbers ∧ NaNFree t.numbers ∧
      s.mapNumbers unsignZero = t.mapNumbers unsignZero := by
  change s.beq t = true ↔ _
  cases s <;> cases t <;> simp [Stmt.beq, numbers, expr, mapNumbers, Expr.beq_iff, and_left_comm]

theorem Program.beq_iff {p q : Program} :
    (p == q) = true ↔ NaNFree p.numbers ∧ NaNFree q.numbers ∧
      p.mapNumbers unsignZero = q.mapNumbers unsignZero := by
  unfold numbers mapNumbers
  induction p generalizing q with
  | nil => cases q <;> simp
  | cons s p ih =>
    cases q with
    | nil => simp
    | cons t q => simp [Stmt.beq_iff, ih, and_assoc, and_left_comm]

theorem Expr.beq_self_iff (e : Expr) : (e == e) = true ↔ ∀ x ∈ e.numbers, x.isNaN = false := by
  simp [beq_iff, NaNFree]

theorem Stmt.beq_self_iff (s : Stmt) : (s == s) = true ↔ ∀ x ∈ s.numbers, x.isNaN = false := by
  simp [beq_iff, NaNFree]

theorem Program.beq_self_iff (p : Program) :
    (p == p) = true ↔ ∀ x ∈ p.numbers, x.isNaN = false := by
  simp [beq_iff, NaNFree]

/-! ## A partial equivalence -/

section

variable {α : Type} [BEq α]

/-- Equality on values that hold numbers is symmetric and transitive, and a value equals itself just
if it holds no NaN. Among values without a NaN it is identity up to the signs of zeros. -/
structure ComparesByValue (numbers : α → List Binary64)
    (mapNumbers : (Binary64 → Binary64) → α → α) : Prop where
  symm : ∀ x y : α, (x == y) = true → (y == x) = true
  trans : ∀ x y z : α, (x == y) = true → (y == z) = true → (x == z) = true
  self_iff : ∀ x : α, (x == x) = true ↔ NaNFree (numbers x)
  eq_iff : ∀ x y : α, NaNFree (numbers x) → NaNFree (numbers y) →
    ((x == y) = true ↔ mapNumbers unsignZero x = mapNumbers unsignZero y)
  /-- Values that differ in more than the signs of zeros, NaNs or not, are not equal. -/
  ne_of_unsigned : ∀ x y : α, mapNumbers unsignZero x ≠ mapNumbers unsignZero y → (x == y) = false
  /-- Nor are values that still differ with the same number everywhere in them. -/
  ne_of_shape : ∀ (x y : α) (v : Binary64), mapNumbers (fun _ => v) x ≠ mapNumbers (fun _ => v) y →
    (x == y) = false

variable {numbers : α → List Binary64} {mapNumbers : (Binary64 → Binary64) → α → α}

theorem comparesByValue_of_beq_iff
    (hbeq : ∀ x y : α, (x == y) = true ↔ NaNFree (numbers x) ∧ NaNFree (numbers y) ∧
      mapNumbers unsignZero x = mapNumbers unsignZero y)
    (hmap : ∀ f g x, mapNumbers f (mapNumbers g x) = mapNumbers (f ∘ g) x) :
    ComparesByValue numbers mapNumbers where
  symm x y h := by
    obtain ⟨hx, hy, hxy⟩ := (hbeq x y).mp h
    exact (hbeq y x).mpr ⟨hy, hx, hxy.symm⟩
  trans x y z h h' := by
    obtain ⟨hx, -, hxy⟩ := (hbeq x y).mp h
    obtain ⟨-, hz, hyz⟩ := (hbeq y z).mp h'
    exact (hbeq x z).mpr ⟨hx, hz, hxy.trans hyz⟩
  self_iff x := by simp [hbeq]
  eq_iff x y hx hy := by simp [hbeq, hx, hy]
  ne_of_unsigned x y hne := by
    rw [← Bool.not_eq_true]
    intro h
    exact hne ((hbeq x y).mp h).2.2
  ne_of_shape x y v hne := by
    rw [← Bool.not_eq_true]
    intro h
    apply hne
    -- To put one number everywhere, it does not matter which signs the zeros have.
    have hconst : (fun _ => v) = (fun _ => v) ∘ unsignZero := rfl
    rw [hconst, ← hmap, ← hmap, ((hbeq x y).mp h).2.2]

end

variable {f g : Binary64 → Binary64}

theorem Expr.mapNumbers_mapNumbers (e : Expr) :
    (e.mapNumbers g).mapNumbers f = e.mapNumbers (f ∘ g) := by
  induction e <;> simp_all [mapNumbers]

theorem Stmt.mapNumbers_mapNumbers (s : Stmt) :
    (s.mapNumbers g).mapNumbers f = s.mapNumbers (f ∘ g) := by
  cases s <;> simp [mapNumbers, Expr.mapNumbers_mapNumbers]

theorem Program.mapNumbers_mapNumbers (p : Program) :
    (p.mapNumbers g).mapNumbers f = p.mapNumbers (f ∘ g) := by
  simp [mapNumbers, Stmt.mapNumbers_mapNumbers]

/-- Equality is by value, of expressions, of statements and of programs. -/
theorem equality_by_value :
    ComparesByValue Expr.numbers Expr.mapNumbers ∧ ComparesByValue Stmt.numbers Stmt.mapNumbers ∧
      ComparesByValue Program.numbers Program.mapNumbers :=
  ⟨comparesByValue_of_beq_iff (fun _ _ => Expr.beq_iff) fun _ _ => Expr.mapNumbers_mapNumbers,
    comparesByValue_of_beq_iff (fun _ _ => Stmt.beq_iff) fun _ _ => Stmt.mapNumbers_mapNumbers,
    comparesByValue_of_beq_iff (fun _ _ => Program.beq_iff) fun _ _ =>
      Program.mapNumbers_mapNumbers⟩

end Scriptlet
