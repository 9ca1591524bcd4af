import Mathlib.Data.List.Basic
import Mathlib.Data.List.TakeDrop
import Mathlib.Tactic.Lemma
import Veidrodelis.Lib.Lz77

/-!
# Objects in memory

The cells of an object, and the accesses of a program that works on it with pointers. An access
outside of the object is undefined, which is `none` here. An object that is filled from the front is
the text that was written and the cells behind it; the lemmas say what the accesses do to the text.
-/

namespace Veidrodelis.Memory
open Lz77

variable {α : Type}

/-- Write a cell. -/
def store (cells : List α) (i : Nat) (a : α) : Option (List α) :=
  if i < cells.length then some (cells.set i a) else none

/-- `*dst++ = *src++`, so many times, from one object to another. -/
def copyFrom (source : List α) : Nat → Nat → Nat → List α → Option (List α)
  | 0, _, _, cells => some cells
  | n + 1, src, dst, cells => do
    let a ← source[src]?
    let cells ← store cells dst a
    copyFrom source n (src + 1) (dst + 1) cells

/-- The same inside of one object. -/
def copyWithin : Nat → Nat → Nat → List α → Option (List α)
  | 0, _, _, cells => some cells
  | n + 1, src, dst, cells => do
    let a ← cells[src]?
    let cells ← store cells dst a
    copyWithin n (src + 1) (dst + 1) cells

/-- `memcpy` inside of one object, undefined when the areas overlap. -/
def memcpy (n src dst : Nat) (cells : List α) : Option (List α) :=
  if src + n ≤ cells.length ∧ dst + n ≤ cells.length ∧ (src + n ≤ dst ∨ dst + n ≤ src) then
    some (cells.take dst ++ (cells.drop src).take n ++ cells.drop (dst + n))
  else none

section
variable {cells cells' text text' rest : List α} {a : α} {n src dst : Nat}

/-- A store inside the cells is made. -/
lemma store_of_lt (inside : src < cells.length) : store cells src a = some (cells.set src a) :=
  if_pos inside

/-- A store behind the text takes the first cell of the rest. -/
lemma store_append (room : 0 < rest.length) :
    store (text ++ rest) text.length a = some (text ++ [a] ++ rest.drop 1) := by
  cases rest with
  | nil => cases room
  | cons b rest =>
    rw [store_of_lt (by rw [List.length_append]; omega), List.set_append_right _ _ (Nat.le_refl _),
      Nat.sub_self, List.set_cons_zero, List.drop_one, List.tail_cons, List.append_assoc,
      List.singleton_append]

/-- A copy from another object writes what stands there. -/
lemma copyFrom_append {source : List α} (there : src + n ≤ source.length) (room : n ≤ rest.length) :
    copyFrom source n src text.length (text ++ rest) =
      some (text ++ (source.drop src).take n ++ rest.drop n) := by
  induction n generalizing src text rest with
  | zero => rw [copyFrom, List.take_zero, List.append_nil, List.drop_zero]
  | succ n ih =>
    have inside : src < source.length := by omega
    rw [copyFrom, List.getElem?_eq_getElem inside, Option.bind_eq_bind, Option.bind_some,
      store_append (by omega), Option.bind_eq_bind, Option.bind_some]
    have room' : n ≤ (rest.drop 1).length := by rw [List.length_drop]; omega
    have next := @ih (text ++ [source[src]]) (rest.drop 1) (src + 1) (by omega) room'
    rw [List.length_append, List.length_singleton] at next
    rw [next, List.drop_drop, List.drop_eq_getElem_cons inside, List.take_succ_cons,
      ← List.append_cons, Nat.add_comm 1]

/-- A copy inside of the object makes of the text what a back reference makes of it. -/
lemma copyWithin_append {distance : Nat} (ext : Extends (.copy distance n) text text')
    (room : n ≤ rest.length) :
    copyWithin n (text.length - distance) text.length (text ++ rest) =
      some (text' ++ rest.drop n) := by
  induction n generalizing text rest with
  | zero =>
    obtain ⟨-, -, rfl⟩ := extends_copy_zero.mp ext
    rw [copyWithin, List.drop_zero]
  | succ n ih =>
    obtain ⟨back, within, a, here, ext⟩ := extends_copy_succ.mp ext
    have read : (text ++ rest)[text.length - distance]? = some a := by
      rw [List.getElem?_append_left (by omega), here]
    rw [copyWithin, read, Option.bind_eq_bind, Option.bind_some,
      store_append (by omega), Option.bind_eq_bind, Option.bind_some]
    have room' : n ≤ (rest.drop 1).length := by rw [List.length_drop]; omega
    have next := ih ext room'
    rw [List.length_append, List.length_singleton, Nat.sub_add_comm within] at next
    rw [next, List.drop_drop, Nat.add_comm 1]

/-- Where the areas are apart, `memcpy` does the same at once. -/
lemma memcpy_append {distance : Nat} (ext : Extends (.copy distance n) text text')
    (apart : n ≤ distance) (room : n ≤ rest.length) :
    memcpy n (text.length - distance) text.length (text ++ rest) = some (text' ++ rest.drop n) := by
  cases ext with
  | @copy _ _ _ more size back within repeats =>
    have source : (text ++ rest).drop (text.length - distance) =
      text.drop (text.length - distance) ++ rest := by
      rw [List.drop_append_of_le_length (by omega)]
    have same : (text.drop (text.length - distance)).take n = more := by
      apply List.ext_getElem?
      intro i
      by_cases inside : i < n
      · have there :=
          repeats (text.length + i) (Nat.le_add_right _ _) (by rw [List.length_append]; omega)
        rw [List.getElem?_append_right (Nat.le_add_right _ _), Nat.add_sub_cancel_left,
          List.getElem?_append_left (by omega)] at there
        rw [List.getElem?_take_of_lt inside, List.getElem?_drop, there]
        congr 1
        omega
      · rw [List.getElem?_eq_none (by rw [List.length_take]; omega),
          List.getElem?_eq_none (by omega)]
    rw [memcpy, if_pos (by rw [List.length_append]; omega), List.take_left', source,
      List.take_append_of_le_length (by rw [List.length_drop]; omega), same, List.drop_append,
      Nat.add_sub_cancel_left,
      List.drop_eq_nil_of_le (Nat.le_add_right _ _), List.nil_append]
    rfl

end

end Veidrodelis.Memory
