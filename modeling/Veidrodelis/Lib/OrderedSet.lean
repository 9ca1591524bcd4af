import Mathlib.Data.List.Nodup
import Mathlib.Tactic.Lemma
import Std.Data.ExtTreeMap.Lemmas

/-!
# Sets in order

A set that is kept in the order of a comparison, as a list: an element is found by its place, and a
range is a part of the list. Elements that compare equal are one element, whichever came first.

A range is given by two bounds. `Bound.crossed` is the condition under which the ordered maps and
sets of Rust's standard library refuse a range: it starts behind its end, or excludes both ends of
one point.
-/

namespace Veidrodelis
open Std

variable {α : Type} {cmp : α → α → Ordering}

/-! ## Bounds -/

/-- One end of a range. -/
inductive Bound (α : Type) where
  | unbounded
  | included (a : α)
  | excluded (a : α)
  deriving DecidableEq, Repr

namespace Bound

/-- The element is not in front of the range that starts here. -/
def admitsFrom (cmp : α → α → Ordering) : Bound α → α → Bool
  | unbounded, _ => true
  | included lower, a => cmp lower a != .gt
  | excluded lower, a => cmp lower a == .lt

/-- The element is not behind the range that ends here. -/
def admitsUpTo (cmp : α → α → Ordering) : Bound α → α → Bool
  | unbounded, _ => true
  | included upper, a => cmp a upper != .gt
  | excluded upper, a => cmp a upper == .lt

/-- The range starts behind its end, or excludes both ends of one point. -/
def crossed (cmp : α → α → Ordering) : Bound α → Bound α → Bool
  | included lower, included upper => cmp lower upper == .gt
  | included lower, excluded upper => cmp lower upper == .gt
  | excluded lower, included upper => cmp lower upper == .gt
  | excluded lower, excluded upper => cmp lower upper != .lt
  | _, _ => false

/-- Nothing lies in a range that is refused. -/
lemma not_admits_of_crossed [TransCmp cmp] {lower upper : Bound α}
    (h : lower.crossed cmp upper = true) (a : α) :
    (lower.admitsFrom cmp a && upper.admitsUpTo cmp a) = false := by
  rw [← Bool.not_eq_true, Bool.and_eq_true]
  rintro ⟨first, last⟩
  have le {l u : α} (from_l : cmp l a ≠ .gt) (to_u : cmp a u ≠ .gt) : cmp l u ≠ .gt := by
    exact Ordering.isLE_iff_ne_gt.mp (TransCmp.isLE_trans (Ordering.isLE_iff_ne_gt.mpr from_l)
      (Ordering.isLE_iff_ne_gt.mpr to_u))
  cases lower with
  | unbounded => cases h
  | included l =>
    cases upper with
    | unbounded => cases h
    | included u =>
      simp only [crossed, admitsFrom, admitsUpTo, bne_iff_ne, beq_iff_eq] at h first last
      exact le first last h
    | excluded u =>
      simp only [crossed, admitsFrom, admitsUpTo, bne_iff_ne, beq_iff_eq] at h first last
      exact le first (by simp [last]) h
  | excluded l =>
    cases upper with
    | unbounded => cases h
    | included u =>
      simp only [crossed, admitsFrom, admitsUpTo, bne_iff_ne, beq_iff_eq] at h first last
      exact le (by simp [first]) last h
    | excluded u =>
      simp only [crossed, admitsFrom, admitsUpTo, bne_iff_ne, beq_iff_eq] at h first last
      exact h (TransCmp.lt_trans first last)

end Bound

/-! ## The set -/

/-- A set in the order of `cmp`. -/
structure OrderedSet (α : Type) (cmp : α → α → Ordering) where
  elems : List α
  ordered : elems.Pairwise fun a b => cmp a b = .lt
  deriving DecidableEq

namespace OrderedSet

/-- The element in its place, unless an equal one is there. -/
def place (cmp : α → α → Ordering) (k : α) : List α → List α
  | [] => [k]
  | a :: as =>
    match cmp k a with
    | .lt => k :: a :: as
    | .eq => a :: as
    | .gt => a :: place cmp k as

/-- What was in the list stays in it. -/
lemma mem_place_of_mem {k a : α} {as : List α} (h : a ∈ as) : a ∈ place cmp k as := by
  induction as with
  | nil => cases h
  | cons b bs ih =>
    unfold place
    cases cmp k b with
    | lt => exact List.mem_cons_of_mem _ h
    | eq => exact h
    | gt =>
      obtain rfl | h := List.mem_cons.mp h
      · exact List.mem_cons_self
      · exact List.mem_cons_of_mem _ (ih h)

/-- The list holds nothing but the placed element and what it held. -/
lemma of_mem_place {k a : α} {as : List α} (h : a ∈ place cmp k as) : a = k ∨ a ∈ as := by
  induction as with
  | nil => exact .inl (List.mem_singleton.mp h)
  | cons b bs ih =>
    unfold place at h
    cases c : cmp k b with
    | lt =>
      rw [c] at h
      exact List.mem_cons.mp h
    | eq =>
      rw [c] at h
      exact .inr h
    | gt =>
      rw [c] at h
      obtain rfl | h := List.mem_cons.mp h
      · exact .inr List.mem_cons_self
      · exact (ih h).imp_right (List.mem_cons_of_mem _)

/-- An element that none of the others is equal to gets its place. -/
lemma mem_place_self {k : α} {as : List α} (fresh : ∀ a ∈ as, cmp k a ≠ .eq) :
    k ∈ place cmp k as := by
  induction as with
  | nil => exact List.mem_singleton.mpr rfl
  | cons b bs ih =>
    have later := ih fun a h => fresh a (List.mem_cons_of_mem _ h)
    unfold place
    cases c : cmp k b with
    | lt => exact List.mem_cons_self
    | eq => exact absurd c (fresh b List.mem_cons_self)
    | gt => exact List.mem_cons_of_mem _ later

/-- An element finds its place in order. -/
lemma place_ordered [TransCmp cmp] {k : α} {as : List α}
    (h : as.Pairwise fun a b => cmp a b = .lt) :
    (place cmp k as).Pairwise fun a b => cmp a b = .lt := by
  induction as with
  | nil => exact List.pairwise_singleton _ _
  | cons b bs ih =>
    obtain ⟨first, rest⟩ := List.pairwise_cons.mp h
    unfold place
    cases c : cmp k b with
    | lt =>
      refine List.pairwise_cons.mpr ⟨fun a ha => ?_, h⟩
      obtain rfl | ha := List.mem_cons.mp ha
      · exact c
      · exact TransCmp.lt_trans c (first a ha)
    | eq => exact h
    | gt =>
      refine List.pairwise_cons.mpr ⟨fun a ha => ?_, ih rest⟩
      obtain rfl | ha := of_mem_place ha
      · exact OrientedCmp.lt_of_gt c
      · exact first a ha

def empty : OrderedSet α cmp := ⟨[], .nil⟩

/-- `insert`: an equal element that is there already stays. -/
def insert [TransCmp cmp] (k : α) (s : OrderedSet α cmp) : OrderedSet α cmp :=
  ⟨place cmp k s.elems, place_ordered s.ordered⟩

/-- `remove`: the element that is equal to the given one. -/
def remove (k : α) (s : OrderedSet α cmp) : OrderedSet α cmp :=
  ⟨s.elems.filter fun a => cmp k a != .eq, s.ordered.filter _⟩

/-- `pop_first`. -/
def popFirst (s : OrderedSet α cmp) : Option (α × OrderedSet α cmp) :=
  s.elems.head?.map fun a => (a, ⟨s.elems.tail, s.ordered.tail⟩)

/-- `pop_last`. -/
def popLast (s : OrderedSet α cmp) : Option (α × OrderedSet α cmp) :=
  s.elems.getLast?.map fun a => (a, ⟨s.elems.dropLast, s.ordered.sublist (List.dropLast_sublist _)⟩)

/-- `range`: the elements between two bounds. -/
def range (lower upper : Bound α) (s : OrderedSet α cmp) : List α :=
  s.elems.filter fun a => lower.admitsFrom cmp a && upper.admitsUpTo cmp a

/-- `range_idx` from one place to another, both included. -/
def rangeIdx (start stop : Nat) (s : OrderedSet α cmp) : List α :=
  (s.elems.take (stop + 1)).drop start

/-- `rank`: how many elements are in front of an element. -/
def rank (k : α) (s : OrderedSet α cmp) : Nat := (s.elems.takeWhile fun a => cmp a k == .lt).length

/-- The empty set has no elements. -/
@[simp] lemma elems_empty : (empty : OrderedSet α cmp).elems = [] := rfl

/-- Removing takes out what compares equal. -/
lemma mem_remove {k a : α} {s : OrderedSet α cmp} :
    a ∈ (s.remove k).elems ↔ a ∈ s.elems ∧ cmp k a ≠ .eq := by
  simp [remove]

/-- Inserting an element that is not there adds just it. -/
lemma mem_insert [TransCmp cmp] {k a : α} {s : OrderedSet α cmp}
    (fresh : ∀ b ∈ s.elems, cmp k b ≠ .eq) : a ∈ (s.insert k).elems ↔ a = k ∨ a ∈ s.elems := by
  constructor
  · exact of_mem_place
  · rintro (rfl | h)
    · exact mem_place_self fresh
    · exact mem_place_of_mem h

/-- The first element stood in front of the others. -/
lemma popFirst_eq_some {a : α} {s t : OrderedSet α cmp} (h : s.popFirst = some (a, t)) :
    s.elems = a :: t.elems := by
  obtain ⟨b, head, eq⟩ := Option.map_eq_some_iff.mp h
  cases eq
  exact (List.eq_cons_of_mem_head? head)

/-- Only an empty set has no first element. -/
lemma popFirst_eq_none {s : OrderedSet α cmp} : s.popFirst = none ↔ s.elems = [] := by
  simp [popFirst]

/-- The last element stood behind the others. -/
lemma popLast_eq_some {a : α} {s t : OrderedSet α cmp} (h : s.popLast = some (a, t)) :
    s.elems = t.elems ++ [a] := by
  obtain ⟨b, last, eq⟩ := Option.map_eq_some_iff.mp h
  cases eq
  exact (List.dropLast_append_getLast? a last).symm

/-- Only an empty set has no last element. -/
lemma popLast_eq_none {s : OrderedSet α cmp} : s.popLast = none ↔ s.elems = [] := by
  simp [popLast]

/-- No element occurs twice. -/
lemma nodup [TransCmp cmp] (s : OrderedSet α cmp) : s.elems.Nodup :=
  s.ordered.imp fun {a b} lt eq => by
    have self : cmp a a = .eq := ReflCmp.compare_self
    rw [← eq, self] at lt
    cases lt

/-- Two sets of the same elements are one. -/
lemma ext_of_mem [TransCmp cmp] {s t : OrderedSet α cmp} (same : ∀ a, a ∈ s.elems ↔ a ∈ t.elems) :
    s = t := by
  have elems : s.elems = t.elems := by
    refine List.Perm.eq_of_pairwise (fun a b _ _ lt gt => ?_) s.ordered t.ordered
      ((List.perm_ext_iff_of_nodup s.nodup t.nodup).mpr same)
    rw [OrientedCmp.gt_of_lt lt] at gt
    cases gt
  cases s
  cases t
  cases elems
  rfl

/-- What is left when an element is popped. -/
structure Pops (pop : OrderedSet α cmp → Option (α × OrderedSet α cmp)) : Prop where
  none_iff : ∀ {s}, pop s = none ↔ s.elems = []
  mem : ∀ {s a t}, pop s = some (a, t) → a ∈ s.elems
  mem_rest : ∀ {s a t b}, pop s = some (a, t) → (b ∈ t.elems ↔ b ∈ s.elems ∧ b ≠ a)

/-- Taking from the front pops the elements. -/
lemma pops_first [TransCmp cmp] : Pops (popFirst : OrderedSet α cmp → _) where
  none_iff := popFirst_eq_none
  mem h := by simp [popFirst_eq_some h]
  mem_rest {s a t b} h := by
    have split := popFirst_eq_some h
    have once := s.nodup
    rw [split, List.nodup_cons] at once
    rw [split, List.mem_cons]
    constructor
    · exact fun later => ⟨.inr later, fun eq => once.1 (eq ▸ later)⟩
    · exact fun ⟨mem, ne⟩ => mem.resolve_left ne

/-- Taking from the back pops the elements. -/
lemma pops_last [TransCmp cmp] : Pops (popLast : OrderedSet α cmp → _) where
  none_iff := popLast_eq_none
  mem h := by simp [popLast_eq_some h]
  mem_rest {s a t b} h := by
    have split := popLast_eq_some h
    have once := s.nodup
    rw [split, List.nodup_append] at once
    rw [split, List.mem_append, List.mem_singleton]
    constructor
    · exact fun earlier => ⟨.inl earlier, once.2.2 b earlier a (List.mem_singleton.mpr rfl)⟩
    · exact fun ⟨mem, ne⟩ => mem.resolve_right ne

/-- The rank of an element is its position. -/
lemma rank_getElem [TransCmp cmp] {s : OrderedSet α cmp} {k : α} {i : Nat}
    {inside : i < s.elems.length} (same : cmp s.elems[i] k = .eq) : s.rank k = i := by
  have split : s.elems = s.elems.take i ++ s.elems[i] :: s.elems.drop (i + 1) := by
    rw [List.getElem_cons_drop, List.take_append_drop]
  have front : ∀ a ∈ s.elems.take i, (cmp a k == .lt) = true := by
    intro a mem
    have ordered := s.ordered
    rw [split, List.pairwise_append] at ordered
    rw [beq_iff_eq]
    exact TransCmp.lt_of_lt_of_eq (ordered.2.2 a mem _ List.mem_cons_self) same
  have here : ¬ (cmp s.elems[i] k == .lt) = true := by simp [same]
  rw [rank, split, List.takeWhile_append_of_pos front, List.takeWhile_cons, if_neg here,
    List.append_nil, List.length_take, Nat.min_eq_left (Nat.le_of_lt inside)]

/-- The rank of a key is the number of smaller elements. -/
lemma rank_eq_countP [TransCmp cmp] (k : α) (s : OrderedSet α cmp) :
    s.rank k = s.elems.countP fun a => cmp a k == .lt := by
  rw [rank, List.countP_eq_length_filter]
  obtain ⟨elems, ordered⟩ := s
  induction elems with
  | nil => rfl
  | cons a as ih =>
    obtain ⟨first, rest⟩ := List.pairwise_cons.mp ordered
    by_cases front : cmp a k = .lt
    · rw [List.takeWhile_cons_of_pos (by simp [front]), List.filter_cons_of_pos (by simp [front])]
      exact congrArg (· + 1) (ih rest)
    · -- the others are not smaller either
      have isNil : as.filter (fun b => cmp b k == .lt) = [] := by
        rw [List.filter_eq_nil_iff]
        intro b mem smaller
        exact front (TransCmp.lt_trans (first b mem) (beq_iff_eq.mp smaller))
      rw [List.takeWhile_cons_of_neg (by simp [front]),
        List.filter_cons_of_neg (by simp [front]), isNil]

/-- A range is part of the set, in its order. -/
lemma range_sublist (lower upper : Bound α) (s : OrderedSet α cmp) :
    (s.range lower upper).Sublist s.elems :=
  List.filter_sublist

/-- A part that leaves out nothing that passes a filter is filtered like the whole. -/
lemma filter_of_sublist [TransCmp cmp] {s : OrderedSet α cmp} {xs : List α} {p : α → Bool}
    (part : xs.Sublist s.elems) (whole : ∀ a ∈ s.elems, p a = true → a ∈ xs) :
    xs.filter p = s.elems.filter p := by
  apply (part.filter p).eq_of_length_le
  apply List.Nodup.length_le_of_subset
  · exact s.nodup.filter p
  · intro a mem
    obtain ⟨inside, passes⟩ := List.mem_filter.mp mem
    exact List.mem_filter.mpr ⟨whole a inside passes, passes⟩

/-- A range of places is part of the set, in its order. -/
lemma rangeIdx_sublist (start stop : Nat) (s : OrderedSet α cmp) :
    (s.rangeIdx start stop).Sublist s.elems :=
  (List.drop_sublist _ _).trans (List.take_sublist _ _)

end OrderedSet

end Veidrodelis
