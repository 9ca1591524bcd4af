import Mathlib.Data.List.Basic
import Mathlib.Tactic.Lemma

/-!
# Slices of a list

A part of a list, from one position to another, both included. A negative position counts from the
end, and a position outside selects nothing there: `slice` is said by the positions of the elements,
`slice_eq` cuts it out of the list.

A page is a part of a list that is given by an offset and a count. A negative count is no limit.
-/

namespace Veidrodelis

variable {α β : Type}

/-- A position, counted from the front. -/
def fromFront (n : Nat) (i : Int) : Int := if i < 0 then n + i else i

/-- The first position of a slice. -/
def sliceStart (n : Nat) (start : Int) : Int := max 0 (fromFront n start)

/-- The last position of a slice. -/
def sliceStop (n : Nat) (stop : Int) : Int := min ((n : Int) - 1) (fromFront n stop)

/-- The elements whose positions lie between two bounds. -/
def between (items : List α) (first last : Int) : List α :=
  (items.zipIdx.filter fun p => first ≤ p.2 ∧ (p.2 : Int) ≤ last).map (·.1)

/-- The elements at the positions of the slice. -/
def slice (items : List α) (start stop : Int) : List α :=
  between items (sliceStart items.length start) (sliceStop items.length stop)

/-- The elements behind an offset, at most so many of them. -/
def page (items : List α) : Option (Int × Int) → List α
  | none => items
  | some (offset, count) =>
    if offset < 0 then []
    else if count < 0 then items.drop offset.toNat
    else (items.drop offset.toNat).take count.toNat

/-- The elements between two places of a list that is counted from `k`. -/
lemma between_from (items : List α) (k a b : Nat) :
    ((items.zipIdx k).filter fun p => (a : Int) ≤ p.2 ∧ (p.2 : Int) < b).map (·.1) =
      (items.drop (a - k)).take (b - max a k) := by
  induction items generalizing k with
  | nil => simp
  | cons item items ih =>
    rw [List.zipIdx_cons, List.filter_cons]
    by_cases early : k < a
    · -- in front of the slice
      rw [if_neg (by simp; omega), ih]
      have front : a - k = (a - (k + 1)) + 1 := by omega
      rw [front, List.drop_succ_cons, Nat.max_eq_left (by omega), Nat.max_eq_left (by omega)]
    · have front : a - k = 0 := by omega
      have later : a - (k + 1) = 0 := by omega
      rw [front, List.drop_zero, Nat.max_eq_right (by omega)]
      by_cases inside : k < b
      · rw [if_pos (by simp; omega), List.map_cons, ih, later, List.drop_zero,
          Nat.max_eq_right (by omega)]
        have size : b - k = (b - (k + 1)) + 1 := by omega
        rw [size, List.take_succ_cons]
      · rw [if_neg (by simp; omega), ih, Nat.max_eq_right (by omega)]
        have isZero : b - k = 0 := by omega
        have later' : b - (k + 1) = 0 := by omega
        rw [isZero, later', List.take_zero, List.take_zero]

/-- What lies between two positions is cut out of the list. -/
lemma between_eq (items : List α) {first last : Int} (h : 0 ≤ first) :
    between items first last = (items.drop first.toNat).take ((last + 1).toNat - first.toNat) := by
  have cut := between_from items 0 first.toNat (last + 1).toNat
  rw [Nat.sub_zero, Nat.max_eq_left (Nat.zero_le _)] at cut
  rw [between, ← cut]
  congr 2
  funext p
  rw [decide_eq_decide]
  omega

/-- A slice in terms of `drop` and `take`. -/
lemma slice_eq (items : List α) (start stop : Int) : slice items start stop =
    (items.drop (sliceStart items.length start).toNat).take
      ((sliceStop items.length stop + 1).toNat - (sliceStart items.length start).toNat) :=
  between_eq items (Int.le_max_left _ _)

/-- From the last element to the first one, the positions are counted from the other end. -/
lemma between_reverse (items : List α) {first last : Int} (front : 0 ≤ first)
    (back : last < items.length) :
    between items.reverse first last =
      (between items (items.length - 1 - last) (items.length - 1 - first)).reverse := by
  rw [between_eq _ front, between_eq _ (by omega), List.drop_reverse, List.take_reverse,
    List.length_take, ← List.drop_take]
  congr 1
  by_cases inside : first ≤ last
  · congr 1
    · omega
    · congr 1
      omega
  · -- nothing is left on either side
    have nowhere : (items.length : Int) - 1 - first < items.length - 1 - last := by omega
    rw [List.drop_eq_nil_of_le, List.drop_eq_nil_of_le]
    · rw [List.length_take]
      omega
    · rw [List.length_take]
      omega

/-- A slice is part of the list, in its order. -/
lemma slice_sublist (items : List α) (start stop : Int) :
    (slice items start stop).Sublist items := by
  rw [slice_eq]
  exact (List.take_sublist _ _).trans (List.drop_sublist _ _)

/-- A slice of images is the images of the slice. -/
lemma slice_map (f : α → β) (items : List α) (start stop : Int) :
    (slice items start stop).map f = slice (items.map f) start stop := by
  rw [slice_eq, slice_eq, List.map_take, List.map_drop, List.length_map]

/-- A slice is empty when its positions are crossed or outside the list. -/
lemma slice_eq_nil {items : List α} {start stop : Int} : slice items start stop = [] ↔
    sliceStop items.length stop < sliceStart items.length start ∨
      items.length ≤ sliceStart items.length start := by
  rw [slice_eq, List.take_eq_nil_iff, List.drop_eq_nil_iff]
  simp only [sliceStart, sliceStop]
  omega

/-- An element of a list without repetitions is in the slice when its position is. -/
lemma mem_between [BEq α] [LawfulBEq α] {items : List α} (nodup : items.Nodup) {first last : Int}
    {item : α} :
    item ∈ between items first last ↔ item ∈ items ∧ first ≤ items.idxOf item ∧
      (items.idxOf item : Int) ≤ last := by
  simp only [between, List.mem_map, List.mem_filter, Prod.exists, List.mem_zipIdx_iff_getElem?,
    decide_eq_true_eq]
  constructor
  · rintro ⟨_, i, ⟨here, inside⟩, rfl⟩
    obtain ⟨lt, rfl⟩ := List.getElem?_eq_some_iff.mp here
    rw [nodup.idxOf_getElem i lt]
    exact ⟨List.getElem_mem lt, inside⟩
  · rintro ⟨mem, inside⟩
    exact ⟨item, items.idxOf item, ⟨List.getElem?_idxOf mem, inside⟩, rfl⟩

end Veidrodelis
