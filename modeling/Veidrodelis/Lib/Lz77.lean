import Mathlib.Data.List.Basic
import Mathlib.Tactic.Lemma

/-!
# Texts with back references

A text is written as a list of factors: runs of literals, and copies of what stands a distance back
in the text that is there already. A copy may be longer than its distance; then it repeats what it
wrote itself. `Expands` says which text a list of factors makes of another. There is at most one
(`Expands.unique`), a copy can be made element by element (`extends_copy_succ`), and a text can be
cut wherever it repeats itself (`extends_take`).
-/

namespace Veidrodelis.Lz77

variable {α : Type}

inductive Factor (α : Type) where
  | literal (run : List α)
  | copy (distance length : Nat)
  deriving DecidableEq, Repr

/-- The number of elements that a factor writes. -/
def Factor.size : Factor α → Nat
  | .literal run => run.length
  | .copy _ length => length

/-- From a position on, a text repeats what stands a distance before. -/
def Repeats (text : List α) (distance start : Nat) : Prop :=
  ∀ i, start ≤ i → i < text.length → text[i]? = text[i - distance]?

/-- What a factor makes of a text. -/
inductive Extends : Factor α → List α → List α → Prop where
  | literal (run text : List α) :
      Extends (.literal run) text (text ++ run)
  | copy {distance length : Nat} {text more : List α}
      (size : more.length = length)
      (back : 0 < distance)
      (within : distance ≤ text.length)
      (repeats : Repeats (text ++ more) distance text.length) :
      Extends (.copy distance length) text (text ++ more)

/-- What a list of factors makes of a text. -/
inductive Expands : List (Factor α) → List α → List α → Prop where
  | nil (text : List α) : Expands [] text text
  | cons {factor : Factor α} {factors : List (Factor α)} {text text' text'' : List α}
      (first : Extends factor text text')
      (rest : Expands factors text' text'') :
      Expands (factor :: factors) text text''

/-! ## One factor -/

section
variable {factor : Factor α} {text text' : List α} {distance n : Nat}

/-- A factor makes the text longer by its size. -/
lemma Extends.length (ext : Extends factor text text') :
    text'.length = text.length + factor.size := by
  cases ext with
  | literal run => rw [List.length_append, Factor.size]
  | copy size => rw [List.length_append, size, Factor.size]

/-- A literal is put behind the text. -/
lemma extends_literal {run : List α} : Extends (.literal run) text text' ↔ text' = text ++ run := by
  constructor
  · intro ext
    cases ext
    rfl
  · intro eq
    rw [eq]
    exact .literal run text

/-- A copy of nothing still needs its distance. -/
lemma extends_copy_zero : Extends (.copy distance 0) text text' ↔
    0 < distance ∧ distance ≤ text.length ∧ text' = text := by
  constructor
  · intro ext
    cases ext with
    | copy size back within =>
      rw [List.length_eq_zero_iff.mp size, List.append_nil]
      exact ⟨back, within, rfl⟩
  · rintro ⟨back, within, rfl⟩
    have ext : Extends (.copy distance 0) text' (text' ++ []) := by
      apply Extends.copy List.length_nil back within
      intro i start stop
      rw [List.append_nil] at stop
      exact absurd stop (Nat.not_lt.mpr start)
    rwa [List.append_nil] at ext

/-- A copy takes the element at the distance first, and goes on behind it. -/
lemma extends_copy_succ : Extends (.copy distance (n + 1)) text text' ↔
    0 < distance ∧ distance ≤ text.length ∧ ∃ a, text[text.length - distance]? = some a ∧
      Extends (.copy distance n) (text ++ [a]) text' := by
  constructor
  · intro ext
    cases ext with
    | @copy _ _ _ more size back within repeats =>
      cases more with
      | nil => cases size
      | cons a more =>
        have first := repeats text.length (Nat.le_refl _) (by simp)
        rw [List.getElem?_append_right (Nat.le_refl _), Nat.sub_self, List.getElem?_cons_zero,
          List.getElem?_append_left (by omega)] at first
        refine ⟨back, within, a, first.symm, ?_⟩
        rw [List.append_cons text a more]
        apply Extends.copy (Nat.succ.inj size) back
        · rw [List.length_append]
          exact Nat.le_add_right_of_le within
        · rw [← List.append_cons]
          intro i start stop
          rw [List.length_append, List.length_singleton] at start
          exact repeats i (Nat.le_of_succ_le start) stop
  · rintro ⟨back, within, a, first, ext⟩
    cases ext with
    | @copy _ _ _ more size _ _ repeats =>
      rw [← List.append_cons] at repeats ⊢
      apply Extends.copy (congrArg (· + 1) size) back within
      intro i start stop
      rcases Nat.eq_or_lt_of_le start with rfl | later
      · rw [List.getElem?_append_right (Nat.le_refl _), Nat.sub_self, List.getElem?_cons_zero,
          List.getElem?_append_left (by omega), first]
      · apply repeats i _ stop
        rw [List.length_append, List.length_singleton]
        exact later

/-- A factor extends a text in one way. -/
lemma Extends.unique {other : List α} (ext : Extends factor text text')
    (ext' : Extends factor text other) : text' = other := by
  cases factor with
  | literal run => rw [extends_literal.mp ext, extends_literal.mp ext']
  | copy distance n =>
    induction n generalizing text with
    | zero => rw [(extends_copy_zero.mp ext).2.2, (extends_copy_zero.mp ext').2.2]
    | succ n ih =>
      obtain ⟨-, -, a, here, rest⟩ := extends_copy_succ.mp ext
      obtain ⟨-, -, a', here', rest'⟩ := extends_copy_succ.mp ext'
      rw [here] at here'
      cases here'
      exact ih rest rest'

/-- A text that repeats itself can be cut there. -/
lemma extends_take {p : Nat} (back : 0 < distance) (within : distance ≤ p)
    (fits : p + n ≤ text.length) (agree : ∀ i < n, text[p + i]? = text[p + i - distance]?) :
    Extends (.copy distance n) (text.take p) (text.take (p + n)) := by
  have front : (text.take p).length = p := List.length_take_of_le (by omega)
  rw [List.take_add]
  refine Extends.copy ?_ back ?_ ?_
  · rw [List.length_take, List.length_drop]
    omega
  · rw [front]
    exact within
  · rw [← List.take_add, front]
    intro i start stop
    rw [List.length_take] at stop
    rw [List.getElem?_take_of_lt (by omega), List.getElem?_take_of_lt (by omega)]
    have same := agree (i - p) (by omega)
    rwa [Nat.add_sub_cancel' start] at same

end

/-! ## Lists of factors -/

section
variable {factors factors' : List (Factor α)} {factor : Factor α} {text text' text'' : List α}

/-- No factors leave the text as it is. -/
lemma expands_nil : Expands [] text text' ↔ text' = text := by
  constructor
  · intro exp
    cases exp
    rfl
  · intro eq
    rw [eq]
    exact .nil text

/-- The first factor, and the others from what it made. -/
lemma expands_cons : Expands (factor :: factors) text text'' ↔
    ∃ text', Extends factor text text' ∧ Expands factors text' text'' := by
  constructor
  · intro exp
    cases exp with
    | cons first rest => exact ⟨_, first, rest⟩
  · rintro ⟨text', first, rest⟩
    exact .cons first rest

/-- Two runs of factors one behind the other. -/
lemma Expands.append (front : Expands factors text text') (behind : Expands factors' text' text'') :
    Expands (factors ++ factors') text text'' := by
  induction front with
  | nil => exact behind
  | cons first _ ih => exact .cons first (ih behind)

/-- One factor more at the end. -/
lemma Expands.snoc (front : Expands factors text text') (last : Extends factor text' text'') :
    Expands (factors ++ [factor]) text text'' :=
  front.append (.cons last (.nil text''))

/-- Factors never shorten a text. -/
lemma Expands.length_le (exp : Expands factors text text') : text.length ≤ text'.length := by
  induction exp with
  | nil => exact Nat.le_refl _
  | cons first _ ih => exact Nat.le_trans (first.length ▸ Nat.le_add_right _ _) ih

end

end Veidrodelis.Lz77
