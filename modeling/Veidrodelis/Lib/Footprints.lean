import Mathlib.Data.Set.Lattice
import Mathlib.Order.CompletePartialOrder
import Mathlib.Tactic.Lemma

/-!
# Footprints of operations

What a state holds is looked at place by place. An operation has a footprint (`Footprint`) if its
answer and what it leaves depend only on what is at the places that it reads, and nothing changes
but at the places that it writes.

Operations of which none writes where the other one reads or writes are independent, and it makes no
difference in which order they are done (`Reorders.alike`). When operations are left out that write
at none of some places, and the others stay within these, then nobody who looks there notices
(`filter_alike`).
-/

namespace Veidrodelis

variable {σ ι V α β κ : Type}

/-- Two states hold the same at some places. -/
def Alike (look : σ → ι → V) (places : Set ι) (s t : σ) : Prop := ∀ i ∈ places, look s i = look t i

namespace Alike

variable {look : σ → ι → V} {places places' : Set ι} {s t u : σ}

/-- A state is like itself. -/
lemma refl (s : σ) : Alike look places s s := fun _ _ => rfl

/-- Two states are alike in both directions. -/
lemma symm (h : Alike look places s t) : Alike look places t s := fun i mem => (h i mem).symm

/-- Two states like a third one are alike. -/
lemma trans (h : Alike look places s t) (h' : Alike look places t u) : Alike look places s u :=
  fun i mem => (h i mem).trans (h' i mem)

/-- States that are alike at some places are alike at fewer. -/
lemma mono (h : Alike look places s t) (sub : places' ⊆ places) : Alike look places' s t :=
  fun i mem => h i (sub mem)

end Alike

/-- An operation that reads and writes at some places. -/
structure Footprint (look : σ → ι → V) (reads writes : Set ι) (op : σ → σ × α) : Prop where
  frame : ∀ s, ∀ i ∉ writes, look (op s).1 i = look s i
  answer : ∀ s t, Alike look reads s t → (op s).2 = (op t).2
  effect : ∀ s t, Alike look reads s t → Alike look writes (op s).1 (op t).1

namespace Footprint

variable {look : σ → ι → V} {reads writes reads' writes' : Set ι} {op : σ → σ × α}

/-- States that are alike stay so. -/
lemma alike (h : Footprint look reads writes op) {places : Set ι} (sub : reads ⊆ places) {s t : σ}
    (same : Alike look places s t) : Alike look places (op s).1 (op t).1 := by
  intro i mem
  by_cases written : i ∈ writes
  · exact h.effect s t (same.mono sub) i written
  · rw [h.frame s i written, h.frame t i written]
    exact same i mem

/-- Where nothing is written, nothing is seen of an operation. -/
lemma unseen (h : Footprint look reads writes op) {places : Set ι} (apart : Disjoint writes places)
    (s : σ) : Alike look places (op s).1 s :=
  fun i mem => h.frame s i fun written => Set.disjoint_left.mp apart written mem

/-- More places may be named, if those that are written are read. -/
lemma mono (h : Footprint look reads writes op) (sub : reads ⊆ reads') (sub' : writes ⊆ writes')
    (within : writes' ⊆ reads') : Footprint look reads' writes' op where
  frame s i outside := h.frame s i fun mem => outside (sub' mem)
  answer s t same := h.answer s t (same.mono sub)
  effect _ _ same := (h.alike sub same).mono within

/-- An operation that does nothing. -/
lemma idle (a : α) : Footprint look reads ∅ fun s => (s, a) where
  frame _ _ _ := rfl
  answer _ _ _ := rfl
  effect _ _ _ _ none := none.elim

/-- What is done depends on what is at a place that is read. -/
lemma branch {i : ι} (mem : i ∈ reads)
    (h : ∀ v, ∃ op', Footprint look reads writes op' ∧ ∀ s, look s i = v → op s = op' s) :
    Footprint look reads writes op where
  frame s j outside := by
    obtain ⟨op', local', eq⟩ := h (look s i)
    rw [eq s rfl]
    exact local'.frame s j outside
  answer s t same := by
    obtain ⟨op', local', eq⟩ := h (look s i)
    rw [eq s rfl, eq t (same i mem).symm]
    exact local'.answer s t same
  effect s t same := by
    obtain ⟨op', local', eq⟩ := h (look s i)
    rw [eq s rfl, eq t (same i mem).symm]
    exact local'.effect s t same

/-- One operation behind another one, of which only what it leaves counts. -/
lemma behind {first : σ → σ × β} (h : Footprint look reads writes first)
    (h' : Footprint look reads writes' op) :
    Footprint look reads (writes ∪ writes') fun s => op (first s).1 where
  frame s i outside := by
    obtain ⟨outside, outside'⟩ := not_or.mp outside
    exact (h'.frame _ i outside').trans (h.frame s i outside)
  answer _ _ same := h'.answer _ _ (h.alike (Set.Subset.refl reads) same)
  effect s t same i mem := by
    have stays := h.alike (Set.Subset.refl reads) same
    by_cases last : i ∈ writes'
    · exact h'.effect _ _ stays i last
    · rw [h'.frame _ i last, h'.frame _ i last]
      exact h.effect s t same i (mem.resolve_right last)

/-- Independent operations: what is left does not depend on their order. -/
lemma commute {op' : σ → σ × β} (h : Footprint look reads writes op)
    (h' : Footprint look reads' writes' op') (apart : Disjoint writes reads')
    (apart' : Disjoint writes' reads) (distinct : Disjoint writes writes') (s : σ) :
    Alike look Set.univ (op' (op s).1).1 (op (op' s).1).1 := by
  intro i _
  by_cases written : i ∈ writes
  · have other : i ∉ writes' := Set.disjoint_left.mp distinct written
    rw [h'.frame _ i other]
    exact h.effect _ _ (h'.unseen apart' s).symm i written
  · rw [h.frame _ i written]
    by_cases written' : i ∈ writes'
    · exact h'.effect _ _ (h.unseen apart s) i written'
    · rw [h'.frame _ i written', h'.frame s i written', h.frame s i written]

end Footprint

/-! ## Operations in a row -/

section
variable (op : κ → σ → σ × α)

/-- What operations leave. -/
def performAll (ks : List κ) (s : σ) : σ := ks.foldl (fun s k => (op k s).1) s

/-- What operations answer, each one with its answer. -/
def answers : List κ → σ → List (κ × α)
  | [], _ => []
  | k :: ks, s => (k, (op k s).2) :: answers ks (op k s).1

/-- Operations are performed one part after the other. -/
lemma performAll_append (ks ks' : List κ) (s : σ) :
    performAll op (ks ++ ks') s = performAll op ks' (performAll op ks s) := List.foldl_append

/-- Each operation is answered once, in order. -/
@[simp] lemma map_fst_answers (ks : List κ) (s : σ) : (answers op ks s).map (·.1) = ks := by
  induction ks generalizing s with
  | nil => rfl
  | cons k ks ih => exact congrArg (k :: ·) (ih _)

/-- The second part is answered in the state behind the first. -/
lemma answers_append (ks ks' : List κ) (s : σ) :
    answers op (ks ++ ks') s = answers op ks s ++ answers op ks' (performAll op ks s) := by
  induction ks generalizing s with
  | nil => rfl
  | cons k ks ih => rw [List.cons_append, answers, ih, answers, List.cons_append]; rfl

end

section
variable {look : σ → ι → V} {op : κ → σ → σ × α} {reads writes : κ → Set ι} {places : Set ι}
  {s t : σ}

/-- States that are alike where operations read stay so, and the answers are the same. -/
lemma performAll_alike (h : ∀ k, Footprint look (reads k) (writes k) (op k)) {ks : List κ}
    (sub : ∀ k ∈ ks, reads k ⊆ places) (same : Alike look places s t) :
    Alike look places (performAll op ks s) (performAll op ks t) ∧
      answers op ks s = answers op ks t := by
  induction ks generalizing s t with
  | nil => exact ⟨same, rfl⟩
  | cons k ks ih =>
    obtain ⟨here, later⟩ := List.forall_mem_cons.mp sub
    obtain ⟨stays, rest⟩ := ih later ((h k).alike here same)
    refine ⟨stays, ?_⟩
    rw [answers, answers, rest, (h k).answer s t (same.mono here)]

/-! ## Independent operations -/

/-- None of two operations writes where the other one reads or writes. -/
structure Independent (reads writes : κ → Set ι) (k k' : κ) : Prop where
  apart : Disjoint (writes k) (reads k')
  apart' : Disjoint (writes k') (reads k)
  distinct : Disjoint (writes k) (writes k')

/-- Neighbours that are independent change places, one pair after the other. -/
inductive Reorders (reads writes : κ → Set ι) : List κ → List κ → Prop where
  | refl (ks : List κ) : Reorders reads writes ks ks
  | swap {ks before after : List κ} {k k' : κ} :
    Reorders reads writes ks (before ++ k :: k' :: after) →
    Independent reads writes k k' →
    Reorders reads writes ks (before ++ k' :: k :: after)

/-- What is left and what is answered do not depend on the order. -/
theorem Reorders.alike (h : ∀ k, Footprint look (reads k) (writes k) (op k)) {ks ks' : List κ}
    (reordered : Reorders reads writes ks ks') (s : σ) :
    Alike look Set.univ (performAll op ks s) (performAll op ks' s) ∧
      (answers op ks s).Perm (answers op ks' s) := by
  induction reordered with
  | refl => exact ⟨.refl _, .refl _⟩
  | @swap before after k k' _ independent ih =>
    obtain ⟨stays, permuted⟩ := ih
    obtain ⟨apart, apart', distinct⟩ := independent
    -- the two neighbours
    have pair := (h k).commute (h k') apart apart' distinct (performAll op before s)
    obtain ⟨stays', rest⟩ := performAll_alike h (fun k _ => Set.subset_univ (reads k)) pair
    have first := (h k).answer _ _ ((h k').unseen apart' (performAll op before s))
    have second := (h k').answer _ _ ((h k).unseen apart (performAll op before s))
    rw [performAll_append] at stays
    rw [answers_append] at permuted
    rw [performAll_append, answers_append]
    refine ⟨stays.trans stays', permuted.trans (List.Perm.append_left _ ?_)⟩
    show ((k, _) :: (k', _) :: answers op after _).Perm ((k', _) :: (k, _) :: answers op after _)
    rw [rest, first, second]
    exact List.Perm.swap _ _ _

/-! ## Operations that are left out -/

/-- Who looks only at some places does not notice that operations are left out that write
elsewhere. -/
theorem filter_alike (h : ∀ k, Footprint look (reads k) (writes k) (op k)) {keep : κ → Bool}
    {ks : List κ} (kept : ∀ k ∈ ks, keep k = true → reads k ⊆ places)
    (left : ∀ k ∈ ks, keep k = false → Disjoint (writes k) places) (same : Alike look places s t) :
    Alike look places (performAll op (ks.filter keep) s) (performAll op ks t) ∧
      answers op (ks.filter keep) s = (answers op ks t).filter fun p => keep p.1 := by
  induction ks generalizing s t with
  | nil => exact ⟨same, rfl⟩
  | cons k ks ih =>
    obtain ⟨kept_here, kept_later⟩ := List.forall_mem_cons.mp kept
    obtain ⟨left_here, left_later⟩ := List.forall_mem_cons.mp left
    cases here : keep k with
    | true =>
      obtain ⟨stays, rest⟩ := ih kept_later left_later ((h k).alike (kept_here here) same)
      have answered : (k, (op k s).2) = (k, (op k t).2) := by
        rw [(h k).answer s t (same.mono (kept_here here))]
      rw [List.filter_cons_of_pos here]
      refine ⟨stays, ?_⟩
      show _ :: answers op (ks.filter keep) _ = (_ :: answers op ks _).filter fun p => keep p.1
      rw [List.filter_cons_of_pos (by exact here), rest, answered]
    | false =>
      have skipped : Alike look places s (op k t).1 :=
        same.trans ((h k).unseen (left_here here) t).symm
      have out : ¬ keep k = true := Bool.eq_false_iff.mp here
      rw [List.filter_cons_of_neg out, answers, List.filter_cons_of_neg (by exact out)]
      exact ih kept_later left_later skipped

end

end Veidrodelis
