import Mathlib.Algebra.Order.Ring.Rat
import Mathlib.Data.Prod.Lex
import Mathlib.Order.BoundedOrder.Lattice
import Mathlib.Tactic.Lemma

/-!
# Extended rationals

The rational numbers with two infinities and a value that is no number, `nan`, the result of the
undefined products `0 * ∞` and sums `∞ - ∞`. In the order `nan` is the greatest value. It is told
when a running sum and the greatest of some values are `nan` (`foldl_add_eq_nan`,
`foldl_max_eq_nan`).
-/

namespace Veidrodelis

/-! ## The least value -/

section
variable {α : Type}

/-- The minimum of a list is below each of its members. -/
lemma foldl_min_le [LinearOrder α] (a : α) (xs : List α) : ∀ x ∈ a :: xs, xs.foldl min a ≤ x := by
  induction xs generalizing a with
  | nil => simp
  | cons b xs ih =>
    intro x mem
    rw [List.foldl_cons]
    rcases List.mem_cons.mp mem with rfl | mem
    · exact (ih (min x b) _ List.mem_cons_self).trans (min_le_left x b)
    · rcases List.mem_cons.mp mem with rfl | mem
      · exact (ih (min a x) _ List.mem_cons_self).trans (min_le_right a x)
      · exact ih (min a b) x (List.mem_cons_of_mem _ mem)

/-- The minimum of a list is one of its members. -/
lemma foldl_min_mem [LinearOrder α] (a : α) (xs : List α) : xs.foldl min a ∈ a :: xs := by
  induction xs generalizing a with
  | nil => exact List.mem_cons_self
  | cons b xs ih =>
    rw [List.foldl_cons]
    rcases List.mem_cons.mp (ih (min a b)) with eq | mem
    · rw [eq]
      rcases min_choice a b with here | here
      · rw [here]
        exact List.mem_cons_self
      · rw [here]
        exact List.mem_cons_of_mem _ List.mem_cons_self
    · exact List.mem_cons_of_mem _ (List.mem_cons_of_mem _ mem)

/-- The least value is told by two facts. -/
lemma foldl_min_eq [LinearOrder α] {a x : α} {xs : List α} (mem : x ∈ a :: xs)
    (least : ∀ y ∈ a :: xs, x ≤ y) : xs.foldl min a = x :=
  le_antisymm (foldl_min_le a xs x mem) (least _ (foldl_min_mem a xs))

end

/-! ## Values -/

inductive ExtRat where
  | fin (q : ℚ)
  | posInf
  | negInf
  | nan
  deriving DecidableEq, Repr

namespace ExtRat

/-- An infinity of a sign. -/
def inf (positive : Bool) : ExtRat := if positive then .posInf else .negInf

def add : ExtRat → ExtRat → ExtRat
  | .fin a, .fin b => .fin (a + b)
  | .nan, _ => .nan
  | _, .nan => .nan
  | .posInf, .negInf => .nan
  | .negInf, .posInf => .nan
  | .posInf, _ => .posInf
  | _, .posInf => .posInf
  | .negInf, _ => .negInf
  | _, .negInf => .negInf

/-- The product of an infinity and a number. -/
def mulInf (positive : Bool) (q : ℚ) : ExtRat :=
    if q = 0 then .nan else inf (positive == decide (0 < q))

def mul : ExtRat → ExtRat → ExtRat
  | .fin a, .fin b => .fin (a * b)
  | .nan, _ => .nan
  | _, .nan => .nan
  | .posInf, .fin q => mulInf true q
  | .negInf, .fin q => mulInf false q
  | .fin q, .posInf => mulInf true q
  | .fin q, .negInf => mulInf false q
  | .posInf, .posInf => .posInf
  | .negInf, .negInf => .posInf
  | .posInf, .negInf => .negInf
  | .negInf, .posInf => .negInf

/-! ## Order -/

/-- The place of a value in the order. -/
def place : ExtRat → ℕ ×ₗ ℚ
  | .negInf => toLex (0, 0)
  | .fin q => toLex (1, q)
  | .posInf => toLex (2, 0)
  | .nan => toLex (3, 0)

/-- A value is known by its place in the order. -/
lemma place_injective : Function.Injective place := by
  intro a b eq
  have eq := congrArg ofLex eq
  cases a <;> cases b <;> simp_all [place]

instance : LinearOrder ExtRat := LinearOrder.lift' place place_injective

instance : OrderTop ExtRat where
  top := .nan
  le_top a := by
    show a.place ≤ ExtRat.nan.place
    cases a <;> simp [place, Prod.Lex.le_iff]

/-- Not-a-number stands above all values. -/
lemma top_eq_nan : (⊤ : ExtRat) = .nan := rfl

/-! ## Sums -/

variable {a b : ExtRat} {xs : List ExtRat}

/-- The values have a sum: none is `nan`, and not both infinities are among them. -/
def Summable (xs : List ExtRat) : Prop := .nan ∉ xs ∧ ¬ (.posInf ∈ xs ∧ .negInf ∈ xs)

instance (xs : List ExtRat) : Decidable (Summable xs) := inferInstanceAs (Decidable (_ ∧ _))

/-- A sum is not a number just where its parts cannot be added. -/
lemma add_eq_nan : a.add b = .nan ↔ ¬ Summable [a, b] := by
  cases a <;> cases b <;> simp [add, Summable]

/-- A defined sum is infinite when a part of it is. -/
lemma add_eq_posInf (defined : a.add b ≠ .nan) : a.add b = .posInf ↔ a = .posInf ∨ b = .posInf := by
  cases a <;> cases b <;> simp [add] at defined ⊢

/-- A defined sum is negatively infinite when a part of it is. -/
lemma add_eq_negInf (defined : a.add b ≠ .nan) : a.add b = .negInf ↔ a = .negInf ∨ b = .negInf := by
  cases a <;> cases b <;> simp [add] at defined ⊢

/-- Zero in front changes no value. -/
lemma zero_add (a : ExtRat) : (ExtRat.fin 0).add a = a := by
  cases a with
  | fin q => rw [add, Rat.zero_add]
  | posInf => rfl
  | negInf => rfl
  | nan => rfl

/-- The first two values can be added first. -/
lemma summable_cons_cons : Summable (a :: b :: xs) ↔ a.add b ≠ .nan ∧ Summable (a.add b :: xs) := by
  by_cases defined : a.add b = .nan
  · refine iff_of_false (fun h => ?_) fun h => h.1 defined
    refine add_eq_nan.mp defined ⟨fun mem => h.1 ?_, fun both => h.2 ⟨?_, ?_⟩⟩
    · exact List.mem_append_left xs mem
    · exact List.mem_append_left xs both.1
    · exact List.mem_append_left xs both.2
  · have parts : Summable [a, b] := by
      rw [add_eq_nan, not_not] at defined
      exact defined
    have posInf := add_eq_posInf defined
    have negInf := add_eq_negInf defined
    simp only [Summable, List.mem_cons, List.not_mem_nil, or_false, not_or] at parts ⊢
    rw [eq_comm (b := a.add b), eq_comm (a := ExtRat.posInf) (b := a.add b),
      eq_comm (a := ExtRat.negInf) (b := a.add b), posInf, negInf]
    grind

/-- A running sum is `nan` exactly when the values have no sum. -/
lemma foldl_add_eq_nan (a : ExtRat) (xs : List ExtRat) :
    xs.foldl add a = .nan ↔ ¬ Summable (a :: xs) := by
  induction xs generalizing a with
  | nil =>
    rw [List.foldl_nil]
    cases a <;> simp [Summable]
  | cons x xs ih =>
    rw [List.foldl_cons, ih, summable_cons_cons]
    by_cases defined : a.add x = .nan
    · simp [defined, Summable]
    · simp [defined]

/-! ## The greatest value -/

/-- A maximum is not a number when a member is none. -/
lemma foldl_max_eq_nan (a : ExtRat) (xs : List ExtRat) :
    xs.foldl max a = .nan ↔ .nan ∈ a :: xs := by
  induction xs generalizing a with
  | nil => simp [eq_comm]
  | cons b xs ih =>
    rw [List.foldl_cons, ih, List.mem_cons, List.mem_cons, List.mem_cons, ← top_eq_nan,
      eq_comm (b := max a b), max_eq_top, or_assoc, eq_comm (b := a), eq_comm (b := b)]

end ExtRat

end Veidrodelis
