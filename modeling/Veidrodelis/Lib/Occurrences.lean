import Mathlib.Data.List.Basic
import Mathlib.Tactic.Lemma

/-!
# Occurrences of a value

A list without the first or the last occurrences of a value, said by the positions: an occurrence
stays if there are enough of them on its other side. Both are made from one end, element by element
(`withoutFirst_cons`, `withoutLast_eq`).
-/

namespace Veidrodelis

variable {α : Type} [DecidableEq α] [BEq α]

/-- A list without the first `n` occurrences of a value: one stays if `n` of them are in front of
it. -/
def withoutFirst (n : Nat) (value : α) (items : List α) : List α :=
  (items.zipIdx.filter fun p => p.1 ≠ value ∨ n ≤ (items.take p.2).count value).map (·.1)

/-- A list without the last `n` occurrences of a value: one stays if `n` of them are behind it. -/
def withoutLast (n : Nat) (value : α) (items : List α) : List α :=
  (items.zipIdx.filter fun p => p.1 ≠ value ∨ n ≤ (items.drop (p.2 + 1)).count value).map (·.1)

variable {n : Nat} {value : α}

/-- There is nothing to take out of an empty list. -/
@[simp] lemma withoutFirst_nil : withoutFirst n value [] = [] := rfl

/-- The last element goes if it is an occurrence and there are less than may go in front of it. -/
lemma withoutFirst_concat (items : List α) (item : α) : withoutFirst n value (items ++ [item]) =
    withoutFirst n value items ++ if item ≠ value ∨ n ≤ items.count value then [item] else [] := by
  have earlier : items.zipIdx.filter (fun p => p.1 ≠ value ∨
    n ≤ ((items ++ [item]).take p.2).count value) =
      items.zipIdx.filter fun p => p.1 ≠ value ∨ n ≤ (items.take p.2).count value := by
    refine List.filter_congr fun p mem => ?_
    rw [List.take_append_of_le_length (Nat.le_of_lt (List.mem_zipIdx' mem).1)]
  rw [withoutFirst, List.zipIdx_append, List.filter_append, List.map_append, earlier]
  refine congrArg (withoutFirst n value items ++ ·) ?_
  by_cases stays : item ≠ value ∨ n ≤ items.count value
  · simp [stays]
  · simp [stays]

/-- The first element goes if it is an occurrence and there are less than may go behind it. -/
lemma withoutLast_cons (item : α) (items : List α) : withoutLast n value (item :: items) =
    (if item ≠ value ∨ n ≤ items.count value then [item] else []) ++ withoutLast n value items := by
  rw [withoutLast, List.zipIdx_cons', List.filter_cons, List.filter_map]
  simp only [Nat.zero_add, List.drop_succ_cons, List.drop_zero]
  by_cases stays : item ≠ value ∨ n ≤ items.count value
  · rw [if_pos stays, if_pos (decide_eq_true stays), List.map_cons, List.map_map]
    rfl
  · rw [if_neg stays, if_neg (by simpa using stays), List.map_map]
    rfl

/-- The last occurrences are the first ones of the reversed list. -/
lemma withoutLast_eq (items : List α) :
    withoutLast n value items = (withoutFirst n value items.reverse).reverse := by
  induction items with
  | nil => rfl
  | cons item items ih =>
    rw [List.reverse_cons, withoutFirst_concat, List.reverse_append, ← ih, List.count_reverse,
      withoutLast_cons]
    split
    · rfl
    · rfl

variable [LawfulBEq α]

/-- The first element goes if it is an occurrence and one may go. -/
lemma withoutFirst_cons (item : α) (items : List α) : withoutFirst n value (item :: items) =
    if item = value ∧ n ≠ 0 then withoutFirst (n - 1) value items
    else item :: withoutFirst n value items := by
  have later (m : Nat) (same : ∀ i, (n ≤ ((item :: items).take (i + 1)).count value) ↔
      m ≤ (items.take i).count value) :
      ((items.zipIdx 1).filter fun p => p.1 ≠ value ∨
        n ≤ ((item :: items).take p.2).count value).map (·.1) =
        withoutFirst m value items := by
    rw [List.zipIdx_succ, List.filter_map, List.map_map, withoutFirst]
    refine congrArg (fun f => (items.zipIdx.filter f).map Prod.fst) (funext fun p => ?_)
    simp only [Function.comp_apply, same]
  rw [withoutFirst, List.zipIdx_cons, List.filter_cons]
  by_cases here : item = value
  · subst here
    by_cases isZero : n = 0
    · rw [if_pos (by simp [isZero]), if_neg (by simp [isZero]), List.map_cons,
        later n (by simp [isZero])]
    · rw [if_neg (by simp [isZero]), if_pos ⟨rfl, isZero⟩]
      exact later (n - 1) fun i => by
        rw [List.take_succ_cons, List.count_cons_self]
        omega
  · rw [if_pos (by simp [here]), if_neg (by simp [here]), List.map_cons, later n fun i => by
      rw [List.take_succ_cons, List.count_cons_of_ne here]]

/-- As many occurrences go as may go and are there. -/
lemma count_withoutFirst (items : List α) :
    (withoutFirst n value items).count value = items.count value - min n (items.count value) := by
  induction items generalizing n with
  | nil => simp
  | cons item items ih =>
    rw [withoutFirst_cons]
    by_cases here : item = value
    · subst here
      by_cases isZero : n = 0
      · rw [if_neg (by simp [isZero]), List.count_cons_self, List.count_cons_self, ih]
        omega
      · rw [if_pos ⟨rfl, isZero⟩, List.count_cons_self, ih]
        omega
    · rw [if_neg (by simp [here]), List.count_cons_of_ne here, List.count_cons_of_ne here, ih]

/-- At most `n` occurrences are gone. -/
lemma count_withoutLast (items : List α) :
    (withoutLast n value items).count value = items.count value - min n (items.count value) := by
  rw [withoutLast_eq, List.count_reverse, count_withoutFirst, List.count_reverse]

/-- The other elements stay, in their order. -/
lemma filter_withoutFirst (items : List α) :
    (withoutFirst n value items).filter (· ≠ value) = items.filter (· ≠ value) := by
  induction items generalizing n with
  | nil => rfl
  | cons item items ih =>
    rw [withoutFirst_cons]
    by_cases here : item = value
    · subst here
      by_cases isZero : n = 0
      · simpa [isZero] using ih
      · simpa [isZero] using ih
    · rw [if_neg (by simp [here]), List.filter_cons_of_pos (by simp [here]),
        List.filter_cons_of_pos (by simp [here]), ih]

/-- The other elements keep their places. -/
lemma filter_withoutLast (items : List α) :
    (withoutLast n value items).filter (· ≠ value) = items.filter (· ≠ value) := by
  rw [withoutLast_eq, List.filter_reverse, filter_withoutFirst, List.filter_reverse,
    List.reverse_reverse]

end Veidrodelis
