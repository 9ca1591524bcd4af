import Veidrodelis.Lib.Binary64

/-!
# Erlang terms

Atoms, numbers, binaries, lists and tuples. Two terms are one when `===` says so; `==` takes an
integer and a float of the same value for equal as well (`LooseEq`). A list ends in any term, as in
`[a | b]`; the elements of a tuple are kept as a list.
-/

namespace Veidrodelis

/-- A type whose values have a second equality, `==`. -/
class LooseEq (α : Type) where
  loosely : α → α → Bool
  loosely_refl : ∀ a, loosely a a = true

/-- A term. A float is kept by its bits. -/
inductive Term where
  | atom (name : String)
  | integer (n : Int)
  | float (bits : Nat)
  | binary (bytes : Bytes)
  | nil
  | cons (head tail : Term)
  | tuple (elements : Term)
  deriving DecidableEq, Repr

namespace Term

/-- A proper list. -/
def ofList : List Term → Term
  | [] => .nil
  | head :: tail => .cons head (ofList tail)

/-- The elements of a proper list. -/
def toList : Term → Option (List Term)
  | .nil => some []
  | .cons head tail => tail.toList.map (head :: ·)
  | _ => none

/-- A list is taken apart as it was built. -/
lemma toList_ofList (items : List Term) : (ofList items).toList = some items := by
  induction items with
  | nil => rfl
  | cons head tail ih => rw [ofList, toList, ih, Option.map_some]

/-- The value of a float is the integer. -/
def floatIs (bits : Nat) (n : Int) : Bool :=
  Binary64.signedNum bits = n * (Binary64.ratio (Binary64.magnitude bits)).2

/-- `==`. -/
def same : Term → Term → Bool
  | .atom a, .atom b => a = b
  | .integer n, .integer m => n = m
  | .integer n, .float bits => floatIs bits n
  | .float bits, .integer n => floatIs bits n
  | .float a, .float b => Binary64.place a = Binary64.place b
  | .binary a, .binary b => a = b
  | .nil, .nil => true
  | .cons head tail, .cons head' tail' => same head head' && same tail tail'
  | .tuple elements, .tuple elements' => same elements elements'
  | _, _ => false

/-- A term is the same as itself. -/
lemma same_refl (t : Term) : same t t = true := by
  induction t with
  | atom name => exact decide_eq_true rfl
  | integer n => exact decide_eq_true rfl
  | float bits => exact decide_eq_true rfl
  | binary bytes => exact decide_eq_true rfl
  | nil => rfl
  | cons head tail head_ih tail_ih => rw [same, head_ih, tail_ih, Bool.and_true]
  | tuple elements ih => rw [same, ih]

instance : LooseEq Term := ⟨same, same_refl⟩

/-- One is a float as well as an integer. -/
example : same (.integer 1) (.float (Binary64.ofInt 1)) = true ∧
    Term.integer 1 ≠ .float (Binary64.ofInt 1) := by decide +kernel

end Term

end Veidrodelis
