import Veidrodelis.TsNif.ScoreModel

/-!
# Stored combinations of sorted sets

What Redis defines `ZUNIONSTORE`, `ZINTERSTORE` and `ZDIFFSTORE` to be, over the extended rationals:
a plain set counts as a sorted set of scores one, and an undefined product or sum counts as zero.
The commands refuse plain sets, keep `nan`, and delete the destination before they read the sources;
`ZStore.Harmless` is where that makes no difference.
-/

namespace Veidrodelis.TsNif
open RedisNif (Fault)

/-! ## What the loops find -/

namespace Keyspace

variable {σ : Type}

/-- More scores of a member. -/
def joined (scores : Option (List σ)) : List σ → Option (List σ)
  | [] => scores
  | x :: xs => some (scores.getD [] ++ x :: xs)

/-- Scores are joined one part after the other. -/
lemma joined_append (scores : Option (List σ)) (xs ys : List σ) :
    joined (joined scores xs) ys = joined scores (xs ++ ys) := by
  cases xs with
  | nil => rfl
  | cons x xs =>
    cases ys with
    | nil => rw [List.append_nil, joined]
    | cons y ys => simp [joined]

/-- Erased names are gone, and the others stay. -/
lemma getElem?_foldl_erase (names : List Bytes) (acc : Std.ExtTreeMap Bytes σ compare) (m : Bytes) :
    (names.foldl (fun acc member => acc.erase member) acc)[m]? =
    if m ∈ names then none else acc[m]? := by
  induction names generalizing acc with
  | nil => simp
  | cons name rest ih =>
    rw [List.foldl_cons, ih, Std.ExtTreeMap.getElem?_erase]
    by_cases here : name = m
    · simp [here]
    · have other : ¬ compare name m = .eq := fun eq => here (Std.LawfulEqCmp.eq_of_compare eq)
      simp [other, Ne.symm here]

section
variable [ScoreArith σ]
open ScoreArith

/-- The score of a member of a source: the members of a plain set have score one. -/
def score (s : Keyspace σ) (db : Nat) (key m : Bytes) : Option σ :=
  match s db key with
  | some (.zset entries) => entries[m]?
  | some (.set members) => if m ∈ members then some one else none
  | _ => none

/-- The weighted scores of a member, in the order of the sources. -/
def weighted (s : Keyspace σ) (db : Nat) : List Bytes → List σ → Bytes → List σ
  | [], _, _ => []
  | key :: rest, weights, m =>
    ((s.score db key m).map fun score => mul score (nextWeight weights).1).toList ++
      s.weighted db rest (nextWeight weights).2 m

/-- There is a plain set under the key. -/
def IsSet (s : Keyspace σ) (db : Nat) (key : Bytes) : Prop :=
  ∃ members, s db key = some (.set members)

/-- There is a sorted set under the key, or nothing. -/
def Plain (s : Keyspace σ) (db : Nat) (key : Bytes) : Prop :=
  s db key = none ∨ ∃ entries, s db key = some (.zset entries)

/-- There is something under the key that has no members with scores. -/
def OtherType (s : Keyspace σ) (db : Nat) (key : Bytes) : Prop :=
  ¬ s.Plain db key ∧ ¬ s.IsSet db key

variable {s : Keyspace σ} {db : Nat} {key : Bytes}

/-- A missing key has no scores. -/
lemma score_of_none (missing : s db key = none) (m : Bytes) : s.score db key m = none := by
  rw [score, missing]

/-- The scores of a sorted set. -/
lemma score_of_zset {entries : Std.ExtTreeMap Bytes σ compare}
    (held : s db key = some (.zset entries)) (m : Bytes) : s.score db key m = entries[m]? := by
  rw [score, held]

/-- A union of sorted sets has the weighted scores of all of them. -/
lemma unionFrom_plain {keys : List Bytes} (plain : ∀ k ∈ keys, s.Plain db k)
    (acc : Std.ExtTreeMap Bytes (List σ) compare) (weights : List σ) :
    ∃ r, s.unionFrom db acc keys weights = .ok r ∧
        ∀ m : Bytes, r[m]? = joined acc[m]? (s.weighted db keys weights m) := by
  induction keys generalizing acc weights with
  | nil => exact ⟨acc, rfl, fun m => rfl⟩
  | cons key rest ih =>
    have others : ∀ k ∈ rest, s.Plain db k := fun k mem => plain k (List.mem_cons_of_mem _ mem)
    rcases plain key List.mem_cons_self with missing | ⟨entries, held⟩
    · obtain ⟨r, ok, found⟩ := ih others acc (nextWeight weights).2
      refine ⟨r, ?_, fun m => ?_⟩
      · rw [unionFrom]
        simp only [missing]
        exact ok
      · rw [found, weighted, score_of_none missing]
        rfl
    · obtain ⟨r, ok, found⟩ := ih others (entries.toList.foldl (fun acc p =>
        acc.insert p.1 (acc[p.1]?.getD [] ++ [mul p.2 (nextWeight weights).1])) acc)
          (nextWeight weights).2
      refine ⟨r, ?_, fun m => ?_⟩
      · rw [unionFrom]
        simp only [held]
        exact ok
      · have updated := getElem?_foldl_entries
          (fun _ score scores => scores.getD [] ++ [mul score (nextWeight weights).1]) entries acc m
        rw [found, weighted, score_of_zset held, ← joined_append, updated]
        cases entries[m]? with
        | none => rfl
        | some score => rfl

/-- Anything else stops it. -/
lemma unionFrom_mixed {keys : List Bytes} (mixed : ∃ k ∈ keys, ¬ s.Plain db k)
    (acc : Std.ExtTreeMap Bytes (List σ) compare) (weights : List σ) :
    ∃ fault, s.unionFrom db acc keys weights = .error fault := by
  induction keys generalizing acc weights with
  | nil =>
    obtain ⟨k, mem, -⟩ := mixed
    cases mem
  | cons key rest ih =>
    have later (plain : s.Plain db key) : ∃ k ∈ rest, ¬ s.Plain db k := by
      obtain ⟨k, mem, type⟩ := mixed
      rcases List.mem_cons.mp mem with rfl | mem
      · exact absurd plain type
      · exact ⟨k, mem, type⟩
    rw [unionFrom]
    simp only
    split
    · rename_i entries held
      exact ih (later (.inr ⟨entries, held⟩)) _ _
    · exact ⟨_, rfl⟩
    · rename_i missing
      exact ih (later (.inl missing)) _ _

/-- An intersection has the members that all sorted sets have; a key with anything else leaves
none. -/
lemma interFrom_found {keys : List Bytes} {acc r : Std.ExtTreeMap Bytes (List σ) compare}
    {weights : List σ} (ok : s.interFrom db acc keys weights = .ok r) (m : Bytes) :
    ((∀ k ∈ keys, s.Plain db k ∧ (s.score db k m).isSome) →
      r[m]? = acc[m]?.map fun scores => scores ++ s.weighted db keys weights m) ∧
    (¬ (∀ k ∈ keys, s.Plain db k ∧ (s.score db k m).isSome) → r[m]? = none) := by
  induction keys generalizing acc weights with
  | nil =>
    cases ok
    refine ⟨fun _ => ?_, fun h => absurd (fun k mem => by cases mem) h⟩
    simp [weighted]
  | cons key rest ih =>
    rw [interFrom] at ok
    simp only at ok
    split at ok
    · rename_i entries held
      -- one round keeps the members of the accumulator that this sorted set has
      have step : (acc.filterMap fun member scores =>
          entries[member]?.map fun score => scores ++ [mul score (nextWeight weights).1])[m]? =
          acc[m]?.bind fun scores => entries[m]?.map fun score => scores ++
            [mul score (nextWeight weights).1] :=
        Std.ExtTreeMap.getElem?_filterMap'
      have plain : s.Plain db key := .inr ⟨entries, held⟩
      simp only [List.forall_mem_cons, weighted, score_of_zset held, plain, true_and]
      split at ok
      · -- nothing is left already
        rename_i isEmpty
        cases ok
        rw [Std.ExtTreeMap.isEmpty_iff] at isEmpty
        rw [isEmpty, Std.ExtTreeMap.getElem?_empty] at step
        refine ⟨fun h => ?_, fun _ => Std.ExtTreeMap.getElem?_empty⟩
        obtain ⟨score, here⟩ := Option.isSome_iff_exists.mp h.1
        rw [here] at step ⊢
        rw [Std.ExtTreeMap.getElem?_empty]
        cases scores : acc[m]? with
        | none => rfl
        | some scores' =>
          rw [scores] at step
          cases step
      · obtain ⟨found, missed⟩ := ih ok
        rw [step] at found
        constructor
        · rintro ⟨here, others⟩
          rw [found others]
          obtain ⟨score, here⟩ := Option.isSome_iff_exists.mp here
          rw [here]
          cases acc[m]? with
          | none => rfl
          | some scores => simp
        · intro lacking
          by_cases others : ∀ k ∈ rest, s.Plain db k ∧ (s.score db k m).isSome
          · have absent : entries[m]? = none := by
              rw [← Option.not_isSome_iff_eq_none]
              exact fun here => lacking ⟨here, others⟩
            rw [found others, absent]
            cases acc[m]? with
            | none => rfl
            | some scores => rfl
          · exact missed others
    · cases ok
    · rename_i missing
      cases ok
      refine ⟨fun h => ?_, fun _ => Std.ExtTreeMap.getElem?_empty⟩
      have here := (h key List.mem_cons_self).2
      rw [score_of_none missing] at here
      cases here

/-- The loop of the intersection ends when all sources are plain. -/
lemma interFrom_plain {keys : List Bytes} (plain : ∀ k ∈ keys, s.Plain db k)
    (acc : Std.ExtTreeMap Bytes (List σ) compare) (weights : List σ) :
    ∃ r, s.interFrom db acc keys weights = .ok r := by
  induction keys generalizing acc weights with
  | nil => exact ⟨acc, rfl⟩
  | cons key rest ih =>
    have others : ∀ k ∈ rest, s.Plain db k := fun k mem => plain k (List.mem_cons_of_mem _ mem)
    rw [interFrom]
    rcases plain key List.mem_cons_self with missing | ⟨entries, held⟩
    · simp only [missing]
      exact ⟨_, rfl⟩
    · simp only [held]
      split
      · exact ⟨_, rfl⟩
      · exact ih others _ _

/-- A difference has the members that no other sorted set has. -/
lemma diffFrom_plain {keys : List Bytes} (plain : ∀ k ∈ keys, s.Plain db k)
    (acc : Std.ExtTreeMap Bytes σ compare) :
    ∃ r, s.diffFrom db acc keys = .ok r ∧ ∀ m : Bytes,
      ((∃ k ∈ keys, (s.score db k m).isSome) → r[m]? = none) ∧
      ((¬ ∃ k ∈ keys, (s.score db k m).isSome) → r[m]? = acc[m]?) := by
  induction keys generalizing acc with
  | nil =>
    refine ⟨acc, rfl, fun m => ⟨?_, fun _ => rfl⟩⟩
    rintro ⟨k, mem, -⟩
    cases mem
  | cons key rest ih =>
    have others : ∀ k ∈ rest, s.Plain db k := fun k mem => plain k (List.mem_cons_of_mem _ mem)
    rw [diffFrom]
    simp only [List.mem_cons, exists_eq_or_imp]
    rcases plain key List.mem_cons_self with missing | ⟨entries, held⟩
    · simp only [missing, score_of_none missing]
      obtain ⟨r, ok, found⟩ := ih others acc
      exact ⟨r, ok, fun m => ⟨fun h => (found m).1 (h.resolve_left (by rintro ⟨⟩)),
        fun h => (found m).2 (mt .inr h)⟩⟩
    · simp only [held, score_of_zset held]
      obtain ⟨r, ok, found⟩ :=
        ih others (entries.keys.foldl (fun acc member => acc.erase member) acc)
      refine ⟨r, ok, fun m => ?_⟩
      obtain ⟨removed, kept⟩ := found m
      simp only [getElem?_foldl_erase, Std.ExtTreeMap.mem_keys,
        Std.ExtTreeMap.mem_iff_isSome_getElem?] at kept
      constructor
      · rintro (here | later)
        · by_cases later : ∃ k ∈ rest, (s.score db k m).isSome
          · exact removed later
          · rw [kept later, if_pos here]
        · exact removed later
      · intro nowhere
        rw [not_or] at nowhere
        rw [kept nowhere.2, if_neg nowhere.1]

omit [ScoreArith σ] in
/-- The loop of the difference fails at a source that is not plain. -/
lemma diffFrom_mixed {keys : List Bytes} (mixed : ∃ k ∈ keys, ¬ s.Plain db k)
    (acc : Std.ExtTreeMap Bytes σ compare) : ∃ fault, s.diffFrom db acc keys = .error fault := by
  induction keys generalizing acc with
  | nil =>
    obtain ⟨k, mem, -⟩ := mixed
    cases mem
  | cons key rest ih =>
    have later (plain : s.Plain db key) : ∃ k ∈ rest, ¬ s.Plain db k := by
      obtain ⟨k, mem, type⟩ := mixed
      rcases List.mem_cons.mp mem with rfl | mem
      · exact absurd plain type
      · exact ⟨k, mem, type⟩
    rw [diffFrom]
    split
    · rename_i entries held
      exact ih (later (.inr ⟨entries, held⟩)) _
    · exact ⟨_, rfl⟩
    · rename_i missing
      exact ih (later (.inl missing)) _

/-! ## What is left under the destination -/

/-- The scores that a computation ends with; none if it fails. -/
def kept (x : Except Fault (Std.ExtTreeMap Bytes σ compare)) (m : Bytes) : Option σ :=
  match x with
  | .ok entries => entries[m]?
  | .error _ => none

/-- A slot holds the members of a result with their scores, and it is empty exactly when there are
none. -/
def Holds (slot : Option (Value σ)) (result : Bytes → Option σ) : Prop :=
  match slot with
  | none => ∀ m, result m = none
  | some (.zset entries) => (∀ m : Bytes, entries[m]? = result m) ∧ ∃ m, result m ≠ none
  | _ => False

omit [ScoreArith σ] in
/-- The destination holds what is kept of the computation. -/
lemma holds_iff {destKey : Bytes}
    {compute : Keyspace σ → Except Fault (Std.ExtTreeMap Bytes σ compare)}
    {result : Bytes → Option σ} :
    Holds ((s.storeScores db destKey compute).1 db destKey) result ↔
      ∀ m, kept (compute (s.del db destKey)) m = result m := by
  have gone : (s.del db destKey) db destKey = none := if_pos ⟨rfl, rfl⟩
  rw [storeScores]
  cases compute (s.del db destKey) with
  | error fault =>
    simp only [gone]
    exact forall_congr' fun m => eq_comm
  | ok entries =>
    simp only
    by_cases isEmpty : entries.isEmpty = true
    · rw [if_pos isEmpty, gone]
      rw [Std.ExtTreeMap.isEmpty_iff] at isEmpty
      subst isEmpty
      refine forall_congr' fun m => ?_
      rw [kept, Std.ExtTreeMap.getElem?_empty, eq_comm]
    · have held : ((s.del db destKey).bind db destKey (some (.zset entries))) db destKey =
        some (.zset entries) :=
        if_pos ⟨rfl, rfl⟩
      rw [if_neg isEmpty, held]
      refine and_iff_left_of_imp fun same => ?_
      rw [Std.ExtTreeMap.isEmpty_iff, Std.ExtTreeMap.eq_empty_iff_forall_not_mem,
        not_forall] at isEmpty
      obtain ⟨m, mem⟩ := isEmpty
      rw [not_not, Std.ExtTreeMap.mem_iff_isSome_getElem?, same] at mem
      exact ⟨m, fun nowhere => by rw [nowhere] at mem; cases mem⟩

omit [ScoreArith σ] in
/-- No key but the destination changes. -/
lemma storeScores_others {destKey : Bytes}
    {compute : Keyspace σ → Except Fault (Std.ExtTreeMap Bytes σ compare)} {db' : Nat}
    (other : ¬ (db' = db ∧ key = destKey)) :
    (s.storeScores db destKey compute).1 db' key = s db' key := by
  have deleted : (s.del db destKey) db' key = s db' key := if_neg other
  rw [storeScores]
  split
  · split
    · exact deleted
    · exact (if_neg other).trans deleted
  · exact deleted

/-! ### The computations -/

/-- What is kept of a union. -/
lemma kept_union {sources : List Bytes} (weights : List σ) (aggregate : Aggregate) (m : Bytes) :
    ((∀ k ∈ sources, s.Plain db k) → kept (s.union db sources weights aggregate) m =
      if s.weighted db sources weights m = [] then none
      else some (aggregate.of (s.weighted db sources weights m))) ∧
    ((∃ k ∈ sources, ¬ s.Plain db k) → kept (s.union db sources weights aggregate) m = none) := by
  constructor
  · intro plain
    obtain ⟨r, ok, found⟩ := s.unionFrom_plain plain ∅ weights
    rw [union, ok]
    show (aggregated aggregate r)[m]? = _
    rw [aggregated, Std.ExtTreeMap.getElem?_map, found, Std.ExtTreeMap.getElem?_empty]
    cases s.weighted db sources weights m with
    | nil => rfl
    | cons x xs => rfl
  · intro mixed
    obtain ⟨fault, error⟩ := s.unionFrom_mixed mixed ∅ weights
    rw [union, error]
    rfl

/-- What is kept of an intersection. -/
lemma kept_inter {sources : List Bytes} (nonempty : sources ≠ []) (weights : List σ)
    (aggregate : Aggregate) (m : Bytes) :
    ((∀ k ∈ sources, s.Plain db k ∧ (s.score db k m).isSome) →
      kept (s.inter db sources weights aggregate) m =
      .some (aggregate.of (s.weighted db sources weights m))) ∧
    (¬ (∀ k ∈ sources, s.Plain db k ∧ (s.score db k m).isSome) →
      kept (s.inter db sources weights aggregate) m = none) := by
  obtain ⟨first, rest, rfl⟩ := List.exists_cons_of_ne_nil nonempty
  simp only [List.forall_mem_cons]
  rw [inter]
  simp only
  split
  · rename_i entries held
    have plain : s.Plain db first := .inr ⟨entries, held⟩
    simp only [plain, true_and, score_of_zset held, weighted]
    cases loop : s.interFrom db (entries.map fun _ score => [mul score (nextWeight weights).1]) rest
        (nextWeight weights).2 with
    | error fault =>
      refine ⟨fun h => ?_, fun _ => rfl⟩
      -- over sorted sets alone the loop does not fail
      obtain ⟨r, ok⟩ := s.interFrom_plain (fun k mem => (h.2 k mem).1)
        (entries.map fun _ score => [mul score (nextWeight weights).1]) (nextWeight weights).2
      rw [loop] at ok
      cases ok
    | ok r =>
      obtain ⟨found, missed⟩ := interFrom_found loop m
      have result : kept ((Except.ok r : Except Fault _).map (aggregated aggregate)) m =
        r[m]?.map aggregate.of :=
        Std.ExtTreeMap.getElem?_map
      rw [Std.ExtTreeMap.getElem?_map] at found
      rw [result]
      constructor
      · rintro ⟨here, others⟩
        obtain ⟨score, here⟩ := Option.isSome_iff_exists.mp here
        rw [found others, here]
        rfl
      · intro lacking
        by_cases others : ∀ k ∈ rest, s.Plain db k ∧ (s.score db k m).isSome
        · have absent : entries[m]? = none := by
            rw [← Option.not_isSome_iff_eq_none]
            exact fun here => lacking ⟨here, others⟩
          rw [found others, absent]
          rfl
        · rw [missed others]
          rfl
  · rename_i value type held
    refine ⟨fun h => ?_, fun _ => rfl⟩
    rcases h.1.1 with missing | ⟨entries, held'⟩
    · rw [held] at missing
      cases missing
    · rw [held] at held'
      exact absurd (Option.some.inj held') (type entries)
  · rename_i missing
    refine ⟨fun h => ?_, fun _ => Std.ExtTreeMap.getElem?_empty⟩
    have here := h.1.2
    rw [score_of_none missing] at here
    cases here

/-- What is kept of a difference. -/
lemma kept_diff (first : Bytes) (rest : List Bytes) (m : Bytes) :
    ((∀ k ∈ first :: rest, s.Plain db k) → (¬ ∃ k ∈ rest, (s.score db k m).isSome) →
      kept (s.diff db (first :: rest)) m = s.score db first m) ∧
    ((∃ k ∈ first :: rest, ¬ s.Plain db k) ∨
      (∃ k ∈ rest, (s.score db k m).isSome) ∨ s db first = none →
      kept (s.diff db (first :: rest)) m = none) := by
  rw [diff]
  split
  · rename_i entries held
    have plain : s.Plain db first := .inr ⟨entries, held⟩
    rw [score_of_zset held]
    by_cases others : ∀ k ∈ rest, s.Plain db k
    · obtain ⟨r, ok, found⟩ := s.diffFrom_plain others entries
      obtain ⟨removed, left⟩ := found m
      rw [ok]
      refine ⟨fun _ absent => left absent, ?_⟩
      rintro (⟨k, mem, type⟩ | taken | missing)
      · rcases List.mem_cons.mp mem with rfl | mem
        · exact absurd plain type
        · exact absurd (others k mem) type
      · exact removed taken
      · rw [held] at missing
        cases missing
    · have mixed : ∃ k ∈ rest, ¬ s.Plain db k := by simpa using others
      obtain ⟨fault, error⟩ := s.diffFrom_mixed mixed entries
      rw [error]
      exact ⟨fun all => absurd (fun k mem => all k (List.mem_cons_of_mem _ mem)) others,
        fun _ => rfl⟩
  · rename_i value type held
    refine ⟨fun plain => ?_, fun _ => rfl⟩
    rcases plain first List.mem_cons_self with missing | ⟨entries, held'⟩
    · rw [held] at missing
      cases missing
    · rw [held] at held'
      exact absurd (Option.some.inj held') (type entries)
  · rename_i missing
    rw [score_of_none missing]
    exact ⟨fun _ _ => Std.ExtTreeMap.getElem?_empty, fun _ => Std.ExtTreeMap.getElem?_empty⟩

end

end Keyspace

/-! ## Aggregates -/

/-- An undefined value counts as zero. -/
def orZero (x : ExtRat) : ExtRat := if x = .nan then .fin 0 else x

/-- What is not a number becomes zero. -/
lemma orZero_ne_nan (x : ExtRat) : orZero x ≠ .nan := by
  unfold orZero
  split
  · nofun
  · assumption

/-- A number stays as it is. -/
lemma orZero_of_ne {x : ExtRat} (h : x ≠ .nan) : orZero x = x := if_neg h

namespace Redis

/-- One more score of a member. -/
def combine (aggregate : Aggregate) (score x : ExtRat) : ExtRat :=
  match aggregate with
  | .sum => orZero (score.add x)
  | .min => min score x
  | .max => max score x

/-- The aggregate of the weighted scores of a member, in the order of the sources, as Redis defines
it. -/
def aggregateOf (aggregate : Aggregate) : List ExtRat → ExtRat
  | [] => .fin 0
  | first :: rest => (rest.map orZero).foldl (combine aggregate) (orZero first)

/-- Nothing undefined shows in the aggregate: the sum is defined; no score is `nan`, or it is not
the least one because there is a score that is not positive. -/
def Defined (aggregate : Aggregate) (xs : List ExtRat) : Prop :=
  match aggregate with
  | .sum => ExtRat.Summable xs
  | .min => .nan ∉ xs ∨ ∃ x ∈ xs, x ≤ .fin 0
  | .max => .nan ∉ xs

/-- An aggregate of Redis is a number. -/
lemma aggregateOf_ne_nan (aggregate : Aggregate) (xs : List ExtRat) :
    aggregateOf aggregate xs ≠ .nan := by
  cases xs with
  | nil => nofun
  | cons first rest =>
    suffices running : ∀ score : ExtRat, score ≠ .nan →
      (rest.map orZero).foldl (combine aggregate) score ≠ .nan from
      running _ (orZero_ne_nan first)
    induction rest with
    | nil => exact fun score h => h
    | cons x rest ih =>
      refine fun score h => ih _ ?_
      cases aggregate with
      | sum => exact orZero_ne_nan _
      | min =>
        rcases min_choice score (orZero x) with eq | eq
        · rw [combine, eq]
          exact h
        · rw [combine, eq]
          exact orZero_ne_nan x
      | max =>
        rcases max_choice score (orZero x) with eq | eq
        · rw [combine, eq]
          exact h
        · rw [combine, eq]
          exact orZero_ne_nan x

/-- Numbers stay as they are. -/
lemma map_orZero {xs : List ExtRat} (h : .nan ∉ xs) : xs.map orZero = xs := by
  refine List.map_congr_left (fun x mem => orZero_of_ne ?_) |>.trans (List.map_id xs)
  rintro rfl
  exact h mem

/-! ### The code -/

/-- The sum of the code adds up from zero. -/
lemma of_sum (xs : List ExtRat) : Aggregate.sum.of xs = xs.foldl ExtRat.add (.fin 0) := rfl

/-- The minimum of the code. -/
lemma of_min (x : ExtRat) (xs : List ExtRat) : Aggregate.min.of (x :: xs) = xs.foldl min x := by
  have same : (fun best score : ExtRat => if ScoreArith.cmp score best = .lt then score else best) =
    min := by
    funext best score
    show (if compare score best = .lt then score else best) = min best score
    split
    · rename_i less
      exact (min_eq_right (compare_lt_iff_lt.mp less).le).symm
    · rename_i more
      exact (min_eq_left (not_lt.mp (mt compare_lt_iff_lt.mpr more))).symm
  rw [← same]
  rfl

/-- The maximum of the code. -/
lemma of_max (x : ExtRat) (xs : List ExtRat) : Aggregate.max.of (x :: xs) = xs.foldl max x := by
  have same : (fun best score : ExtRat => if ScoreArith.cmp score best = .lt then best else score) =
    max := by
    funext best score
    show (if compare score best = .lt then best else score) = max best score
    split
    · rename_i less
      exact (max_eq_left (compare_lt_iff_lt.mp less).le).symm
    · rename_i more
      exact (max_eq_right (not_lt.mp (mt compare_lt_iff_lt.mpr more))).symm
  rw [← same]
  rfl

/-- The sum of the code is not a number just where the scores cannot be added. -/
lemma sum_eq_nan (xs : List ExtRat) : Aggregate.sum.of xs = .nan ↔ ¬ ExtRat.Summable xs := by
  rw [of_sum, ExtRat.foldl_add_eq_nan]
  simp [ExtRat.Summable]

/-- Redis adds scores that can be added as the code does. -/
lemma foldl_combine_sum {x : ExtRat} {xs : List ExtRat} (h : ExtRat.Summable (x :: xs)) :
    (xs.map orZero).foldl (combine .sum) x = xs.foldl ExtRat.add x := by
  induction xs generalizing x with
  | nil => rfl
  | cons y xs ih =>
    obtain ⟨defined, rest⟩ := ExtRat.summable_cons_cons.mp h
    have second : y ≠ .nan := by
      rintro rfl
      exact h.1 (List.mem_cons_of_mem _ List.mem_cons_self)
    rw [List.map_cons, List.foldl_cons, List.foldl_cons, combine, orZero_of_ne second,
      orZero_of_ne defined, ih rest]

/-- Where nothing undefined shows, the code computes what Redis defines. -/
lemma of_eq_aggregateOf {aggregate : Aggregate} {xs : List ExtRat} (nonempty : xs ≠ [])
    (defined : Defined aggregate xs) : aggregate.of xs = aggregateOf aggregate xs := by
  obtain ⟨x, xs, rfl⟩ := List.exists_cons_of_ne_nil nonempty
  cases aggregate with
  | sum =>
    have first : x ≠ .nan := by
      rintro rfl
      exact defined.1 List.mem_cons_self
    rw [of_sum, List.foldl_cons, ExtRat.zero_add, aggregateOf, orZero_of_ne first,
      foldl_combine_sum defined]
  | min =>
    rw [of_min]
    show _ = (xs.map orZero).foldl min (orZero x)
    rcases defined with proper | ⟨low, inside, small⟩
    · rw [List.mem_cons, not_or] at proper
      rw [map_orZero proper.2, orZero_of_ne (Ne.symm proper.1)]
    · -- the least value is not positive, so that no zero comes in below it
      have least := foldl_min_le x xs
      have below : xs.foldl min x ≤ .fin 0 := (least low inside).trans small
      have proper : xs.foldl min x ≠ .nan := by
        intro eq
        rw [eq] at below
        exact absurd below (by decide)
      have here : xs.foldl min x ∈ (x :: xs).map orZero :=
        List.mem_map.mpr ⟨_, foldl_min_mem x xs, orZero_of_ne proper⟩
      refine (foldl_min_eq here fun y mem => ?_).symm
      obtain ⟨z, inside, rfl⟩ := List.mem_map.mp (show y ∈ (x :: xs).map orZero from mem)
      rw [orZero]
      split
      · exact below
      · exact least z inside
  | max =>
    rw [of_max]
    show _ = (xs.map orZero).foldl max (orZero x)
    have proper : .nan ∉ x :: xs := defined
    rw [List.mem_cons, not_or] at proper
    rw [map_orZero proper.2, orZero_of_ne (Ne.symm proper.1)]

/-- Otherwise it computes something that Redis does not, also if Redis sees more scores. -/
lemma of_ne_aggregateOf {aggregate : Aggregate} {xs all : List ExtRat} (nonempty : xs ≠ [])
    (undefined : ¬ Defined aggregate xs) (more : ∀ x ∈ xs, x ∈ all) :
    aggregate.of xs ≠ aggregateOf aggregate all := by
  obtain ⟨x, xs, rfl⟩ := List.exists_cons_of_ne_nil nonempty
  cases aggregate with
  | sum =>
    rw [(sum_eq_nan _).mpr undefined]
    exact (aggregateOf_ne_nan _ all).symm
  | min =>
    rw [of_min]
    simp only [Defined, not_or, not_not, not_exists, not_and, not_le] at undefined
    obtain ⟨bad, positive⟩ := undefined
    have above : .fin 0 < xs.foldl min x := positive _ (foldl_min_mem x xs)
    obtain ⟨y, ys, rfl⟩ := List.exists_cons_of_ne_nil (List.ne_nil_of_mem (more _ bad))
    have zero : orZero .nan ∈ (y :: ys).map orZero := List.mem_map_of_mem (more _ bad)
    have below : aggregateOf .min (y :: ys) ≤ .fin 0 :=
      foldl_min_le (orZero y) (ys.map orZero) _ zero
    exact (below.trans_lt above).ne'
  | max =>
    have bad : .nan ∈ x :: xs := not_not.mp undefined
    rw [of_max, (ExtRat.foldl_max_eq_nan x xs).mpr bad]
    exact (aggregateOf_ne_nan _ all).symm

end Redis

/-! ## The commands and their definition -/

/-- A combination of sorted sets. -/
inductive ZStore where
  | union (weights : List ExtRat) (aggregate : Aggregate)
  | inter (weights : List ExtRat) (aggregate : Aggregate)
  | diff

namespace ZStore
open Keyspace

/-- What the command computes. -/
def compute (op : ZStore) (s : Keyspace ExtRat) (db : Nat) (sources : List Bytes) :
    Except Fault (Std.ExtTreeMap Bytes ExtRat compare) :=
  match op with
  | .union weights aggregate => s.union db sources weights aggregate
  | .inter weights aggregate => s.inter db sources weights aggregate
  | .diff => s.diff db sources

/-- `zunionstore`, `zinterstore` or `zdiffstore`. -/
def store (op : ZStore) (s : Keyspace ExtRat) (db : Nat) (destKey : Bytes) (sources : List Bytes) :
    Keyspace ExtRat × Except Fault Unit :=
  match op with
  | .union weights aggregate => s.zunionstore db destKey sources weights aggregate
  | .inter weights aggregate => s.zinterstore db destKey sources weights aggregate
  | .diff => s.zdiffstore db destKey sources

/-- The score of a member in the combination of the sources, as Redis defines it. -/
def result (op : ZStore) (s : Keyspace ExtRat) (db : Nat) (sources : List Bytes) (m : Bytes) :
    Option ExtRat :=
  match op with
  | .union weights aggregate =>
    if s.weighted db sources weights m = [] then none
    else some (Redis.aggregateOf aggregate (s.weighted db sources weights m))
  | .inter weights aggregate =>
    if sources ≠ [] ∧ ∀ k ∈ sources, (s.score db k m).isSome then
      some (Redis.aggregateOf aggregate (s.weighted db sources weights m))
    else none
  | .diff =>
    match sources with
    | [] => none
    | first :: rest => if ∃ k ∈ rest, (s.score db k m).isSome then none else s.score db first m

/-- A command that stores computes behind the deletion. -/
lemma store_eq (op : ZStore) (s : Keyspace ExtRat) (db : Nat) (destKey : Bytes)
    (sources : List Bytes) :
    op.store s db destKey sources = s.storeScores db destKey fun s => op.compute s db sources := by
  cases op with
  | union => rfl
  | inter => rfl
  | diff => rfl

/-- The destination holds the combination of the sources before the command, where all of them have
members with scores; every other key is left as it was. -/
structure Meets (op : ZStore) (s : Keyspace ExtRat) (db : Nat) (destKey : Bytes)
    (sources : List Bytes) :
    Prop where
  stored : (∀ k ∈ sources, ¬ s.OtherType db k) →
    Holds ((op.store s db destKey sources).1 db destKey) (op.result s db sources)
  others : ∀ db' key, ¬ (db' = db ∧ key = destKey) →
    (op.store s db destKey sources).1 db' key = s db' key

/-- Where the command does what Redis defines, although it deletes the destination first, refuses
plain sets and keeps what is undefined. -/
def Harmless (op : ZStore) (s : Keyspace ExtRat) (db : Nat) (destKey : Bytes)
    (sources : List Bytes) : Prop :=
  match op with
  | .union weights aggregate =>
    -- no source has a member, or the sources other than the destination tell the aggregates
    (∀ m, s.weighted db sources weights m = []) ∨
    (∀ k ∈ sources, k ≠ destKey → ¬ s.IsSet db k) ∧
      ∀ m, s.weighted db sources weights m ≠ [] →
        (s.del db destKey).weighted db sources weights m ≠ [] ∧
        Redis.Defined aggregate ((s.del db destKey).weighted db sources weights m) ∧
        Redis.aggregateOf aggregate ((s.del db destKey).weighted db sources weights m) =
          Redis.aggregateOf aggregate (s.weighted db sources weights m)
  | .inter weights aggregate =>
    -- no member is in all sources, or the destination is none of them
    (∀ m, ¬ ∀ k ∈ sources, (s.score db k m).isSome) ∨ sources = [] ∨
    destKey ∉ sources ∧ (∀ k ∈ sources, ¬ s.IsSet db k) ∧
      ∀ m, (∀ k ∈ sources, (s.score db k m).isSome) →
      Redis.Defined aggregate (s.weighted db sources weights m)
  | .diff =>
    match sources with
    | [] => True
    | first :: rest =>
      -- nothing is left, or the destination takes nothing away
      (first = destKey ∨ s.IsSet db first ∨ ∃ k ∈ rest, k ≠ destKey ∧ s.IsSet db k) ∧
        (∀ m, (s.score db first m).isSome → ∃ k ∈ rest, (s.score db k m).isSome) ∨
      first ≠ destKey ∧ ¬ s.IsSet db first ∧ (∀ k ∈ rest, k ≠ destKey → ¬ s.IsSet db k) ∧
        (destKey ∈ rest → ∀ m, (s.score db first m).isSome → (s.score db destKey m).isSome →
          ∃ k ∈ rest, k ≠ destKey ∧ (s.score db k m).isSome)

section
variable {op : ZStore} {s : Keyspace ExtRat} {db : Nat} {destKey key m : Bytes}
  {sources : List Bytes}

/-- A command meets Redis when what is kept is its result. -/
lemma meets_iff : op.Meets s db destKey sources ↔
    ((∀ k ∈ sources, ¬ s.OtherType db k) →
      ∀ m, kept (op.compute (s.del db destKey) db sources) m = op.result s db sources m) := by
  have stored : Holds ((op.store s db destKey sources).1 db destKey) (op.result s db sources) ↔
      ∀ m, kept (op.compute (s.del db destKey) db sources) m = op.result s db sources m := by
    rw [store_eq]
    exact holds_iff
  constructor
  · exact fun h proper => stored.mp (h.stored proper)
  · refine fun h => ⟨fun proper => stored.mpr (h proper), fun db' key other => ?_⟩
    rw [store_eq]
    exact storeScores_others other

/-! ### Without the destination -/

/-- The slots behind the deletion of the destination. -/
lemma slot_del : (s.del db destKey) db key = if key = destKey then none else s db key := by
  rw [Keyspace.del, Keyspace.bind]
  simp

/-- The scores behind the deletion of the destination. -/
lemma score_del : (s.del db destKey).score db key m =
    if key = destKey then none else s.score db key m := by
  by_cases here : key = destKey
  · rw [if_pos here, score_of_none]
    rw [slot_del, if_pos here]
  · rw [if_neg here, Keyspace.score, slot_del, if_neg here]
    rfl

/-- The plain sources behind the deletion of the destination. -/
lemma plain_del (proper : ¬ s.OtherType db key) :
    (s.del db destKey).Plain db key ↔ key = destKey ∨ ¬ s.IsSet db key := by
  have either : s.Plain db key ∨ s.IsSet db key := by
    rw [OtherType, not_and_or, not_not, not_not] at proper
    exact proper
  have apart : s.Plain db key → ¬ s.IsSet db key := by
    rintro (missing | ⟨entries, held⟩) ⟨members, held'⟩
    · rw [missing] at held'
      cases held'
    · rw [held] at held'
      cases held'
  rw [Plain, slot_del]
  by_cases here : key = destKey
  · simp [here]
  · rw [if_neg here, or_iff_right here]
    exact ⟨apart, fun h => either.resolve_right h⟩

/-- All sources are sorted sets, or missing, if none of those that are left is a set. -/
lemma plain_of_sets {keys : List Bytes} (proper : ∀ k ∈ keys, ¬ s.OtherType db k)
    (sets : ∀ k ∈ keys, k ≠ destKey → ¬ s.IsSet db k) :
    ∀ k ∈ keys, (s.del db destKey).Plain db k := by
  intro k mem
  rw [plain_del (proper k mem)]
  by_cases here : k = destKey
  · exact .inl here
  · exact .inr (sets k mem here)

/-- A set stays one behind the deletion of another key. -/
lemma not_plain_of_set (proper : ¬ s.OtherType db key) (other : key ≠ destKey)
    (set : s.IsSet db key) : ¬ (s.del db destKey).Plain db key := by
  rw [plain_del proper]
  rintro (here | nowhere)
  · exact other here
  · exact nowhere set

/-- The weighted scores of the other sources are among all of them. -/
lemma weighted_del {x : ExtRat} (weights : List ExtRat)
    (mem : x ∈ (s.del db destKey).weighted db sources weights m) :
    x ∈ s.weighted db sources weights m := by
  induction sources generalizing weights with
  | nil => cases mem
  | cons key rest ih =>
    rw [weighted, List.mem_append] at mem ⊢
    refine mem.imp (fun here => ?_) (ih _)
    rw [score_del] at here
    split at here
    · cases here
    · exact here

/-- Where the destination is no source, the sources are the same without it. -/
lemma weighted_unaliased (free : destKey ∉ sources) (weights : List ExtRat) :
    (s.del db destKey).weighted db sources weights m = s.weighted db sources weights m := by
  induction sources generalizing weights with
  | nil => rfl
  | cons key rest ih =>
    rw [List.mem_cons, not_or] at free
    rw [weighted, weighted, ih free.2, score_del, if_neg (Ne.symm free.1)]

/-! ### Each command -/

/-- The union meets Redis just where the deletion is harmless. -/
lemma union_iff {weights : List ExtRat} {aggregate : Aggregate}
    (proper : ∀ k ∈ sources, ¬ s.OtherType db k) :
    (∀ m, kept ((ZStore.union weights aggregate).compute (s.del db destKey) db sources) m =
      (ZStore.union weights aggregate).result s db sources m) ↔
      (ZStore.union weights aggregate).Harmless s db destKey sources := by
  simp only [compute, result, Harmless]
  have empty_del {m : Bytes} (isEmpty : s.weighted db sources weights m = []) :
      (s.del db destKey).weighted db sources weights m = [] := by
    rw [List.eq_nil_iff_forall_not_mem]
    intro x mem
    have inside := weighted_del weights mem
    rw [isEmpty] at inside
    cases inside
  by_cases sets : ∀ k ∈ sources, k ≠ destKey → ¬ s.IsSet db k
  · have plain : ∀ k ∈ sources, (s.del db destKey).Plain db k := plain_of_sets proper sets
    have found (m : Bytes) :=
      (@kept_union _ _ (s.del db destKey) db sources weights aggregate m).1 plain
    simp only [found]
    constructor
    · intro same
      refine .inr ⟨sets, fun m filled => ?_⟩
      have here := same m
      rw [if_neg filled] at here
      split at here
      · cases here
      · rename_i others
        have equal := Option.some.inj here
        have defined : Redis.Defined aggregate
          ((s.del db destKey).weighted db sources weights m) := by
          by_contra undefined
          exact Redis.of_ne_aggregateOf others undefined
            (fun x mem => weighted_del weights mem) equal
        exact ⟨others, defined, (Redis.of_eq_aggregateOf others defined).symm.trans equal⟩
    · rintro (isEmpty | ⟨-, told⟩) m
      · rw [if_pos (isEmpty m), if_pos (empty_del (isEmpty m))]
      · by_cases isNil : s.weighted db sources weights m = []
        · rw [if_pos isNil, if_pos (empty_del isNil)]
        · obtain ⟨others, defined, equal⟩ := told m isNil
          rw [if_neg isNil, if_neg others, Redis.of_eq_aggregateOf others defined, equal]
  · -- a set is left among the sources, and nothing is stored
    have mixed : ∃ k ∈ sources, ¬ (s.del db destKey).Plain db k := by
      simp only [not_forall, not_not] at sets
      obtain ⟨k, mem, other, set⟩ := sets
      exact ⟨k, mem, not_plain_of_set (proper k mem) other set⟩
    have lost (m : Bytes) :=
      (@kept_union _ _ (s.del db destKey) db sources weights aggregate m).2 mixed
    simp only [lost, sets, false_and, or_false]
    refine forall_congr' fun m => ?_
    constructor
    · intro nowhere
      by_contra some
      rw [if_neg some] at nowhere
      cases nowhere
    · intro isEmpty
      rw [if_pos isEmpty]

/-- The intersection meets Redis just where the deletion is harmless. -/
lemma inter_iff {weights : List ExtRat} {aggregate : Aggregate}
    (proper : ∀ k ∈ sources, ¬ s.OtherType db k) :
    (∀ m, kept ((ZStore.inter weights aggregate).compute (s.del db destKey) db sources) m =
      (ZStore.inter weights aggregate).result s db sources m) ↔
      (ZStore.inter weights aggregate).Harmless s db destKey sources := by
  simp only [compute, result, Harmless]
  by_cases isNil : sources = []
  · subst isNil
    refine iff_of_true (fun m => ?_) (.inr (.inl rfl))
    rw [if_neg fun h => h.1 rfl]
    exact Std.ExtTreeMap.getElem?_empty
  · have found (m : Bytes) :=
      @kept_inter _ _ (s.del db destKey) db sources isNil weights aggregate m
    -- nothing is stored: then nothing may be in all sources
    have nothing (lost : ∀ m, ¬ ∀ k ∈ sources, (s.del db destKey).Plain db k ∧
        ((s.del db destKey).score db k m).isSome) :
        (∀ m, kept ((s.del db destKey).inter db sources weights aggregate) m =
          if sources ≠ [] ∧ ∀ k ∈ sources, (s.score db k m).isSome then
            Option.some (Redis.aggregateOf aggregate (s.weighted db sources weights m)) else none) ↔
        ∀ m, ¬ ∀ k ∈ sources, (s.score db k m).isSome := by
      refine forall_congr' fun m => ?_
      rw [(found m).2 (lost m)]
      constructor
      · intro nowhere common
        rw [if_pos ⟨isNil, common⟩] at nowhere
        cases nowhere
      · intro nowhere'
        rw [if_neg fun h => nowhere' h.2]
    -- the destination is one of the sources: it is deleted first, and then nothing is common
    by_cases aliased : destKey ∈ sources
    · rw [nothing]
      · simp only [isNil, aliased, not_true_eq_false, false_and, or_false]
      · intro m all
        have here := (all destKey aliased).2
        rw [score_del, if_pos rfl] at here
        cases here
    · -- a set among the sources ends the loop of the command
      by_cases sets : ∀ k ∈ sources, ¬ s.IsSet db k
      · have common (m : Bytes) : (∀ k ∈ sources, (s.del db destKey).Plain db k ∧
            ((s.del db destKey).score db k m).isSome) ↔ ∀ k ∈ sources, (s.score db k m).isSome := by
          refine forall_congr' fun k => forall_congr' fun mem => ?_
          have other : k ≠ destKey := by
            rintro rfl
            exact aliased mem
          rw [plain_del (proper k mem), score_del, if_neg other]
          exact and_iff_right (.inr (sets k mem))
        simp only [common, weighted_unaliased aliased] at found
        have filled (m : Bytes) (all : ∀ k ∈ sources, (s.score db k m).isSome) :
            s.weighted db sources weights m ≠ [] := by
          obtain ⟨first, rest, rfl⟩ := List.exists_cons_of_ne_nil isNil
          obtain ⟨score, here⟩ := Option.isSome_iff_exists.mp (all first List.mem_cons_self)
          rw [weighted, here]
          nofun
        simp only [isNil, aliased, not_false_eq_true, true_and, false_or, ne_eq]
        constructor
        · intro same
          refine .inr ⟨sets, fun m all => ?_⟩
          have equal := same m
          rw [(found m).1 all, if_pos all] at equal
          by_contra undefined
          exact Redis.of_ne_aggregateOf (filled m all) undefined
            (fun x mem => mem) (Option.some.inj equal)
        · rintro (given | ⟨-, defined⟩) m
          · rw [if_neg (given m), (found m).2 (given m)]
          · by_cases all : ∀ k ∈ sources, (s.score db k m).isSome
            · rw [(found m).1 all, if_pos all,
                Redis.of_eq_aggregateOf (filled m all) (defined m all)]
            · rw [if_neg all, (found m).2 all]
      · rw [nothing]
        · simp only [isNil, sets, false_and, and_false, or_false]
        · intro m all
          refine sets fun k mem set => ?_
          have other : k ≠ destKey := fun here => aliased (here ▸ mem)
          exact not_plain_of_set (proper k mem) other set (all k mem).1

/-- Nothing is stored if the first source is the destination, or a source that is left is a set. -/
lemma diff_lost {first : Bytes} {rest : List Bytes}
    (proper : ∀ k ∈ first :: rest, ¬ s.OtherType db k)
    (stops : first = destKey ∨ s.IsSet db first ∨ ∃ k ∈ rest, k ≠ destKey ∧ s.IsSet db k)
    (m : Bytes) : kept ((s.del db destKey).diff db (first :: rest)) m = none := by
  apply (kept_diff first rest m).2
  by_cases here : first = destKey
  · refine .inr (.inr ?_)
    rw [slot_del, if_pos here]
  · refine .inl ?_
    rcases stops.resolve_left here with set | ⟨k, mem, other, set⟩
    · exact ⟨first, List.mem_cons_self, not_plain_of_set (proper first List.mem_cons_self) here set⟩
    · have inside := List.mem_cons_of_mem first mem
      exact ⟨k, inside, not_plain_of_set (proper k inside) other set⟩

/-- Otherwise a member of the first source is stored if no source that is left has it. -/
lemma diff_stored {first : Bytes} {rest : List Bytes}
    (proper : ∀ k ∈ first :: rest, ¬ s.OtherType db k) (other : first ≠ destKey)
    (set : ¬ s.IsSet db first) (sets : ∀ k ∈ rest, k ≠ destKey → ¬ s.IsSet db k) (m : Bytes) :
    kept ((s.del db destKey).diff db (first :: rest)) m =
      if ∃ k ∈ rest, k ≠ destKey ∧ (s.score db k m).isSome then none else s.score db first m := by
  have plain : ∀ k ∈ first :: rest, (s.del db destKey).Plain db k := by
    refine plain_of_sets proper fun k mem here => ?_
    rcases List.mem_cons.mp mem with rfl | mem
    · exact set
    · exact sets k mem here
  have taken : (∃ k ∈ rest, ((s.del db destKey).score db k m).isSome) ↔
      ∃ k ∈ rest, k ≠ destKey ∧ (s.score db k m).isSome := by
    refine exists_congr fun k => and_congr_right fun _ => ?_
    rw [score_del]
    by_cases here : k = destKey
    · simp [here]
    · simp [here]
  split
  · rename_i gone
    exact (kept_diff first rest m).2 (.inr (.inl (taken.mpr gone)))
  · rename_i alone
    rw [(kept_diff first rest m).1 plain (mt taken.mp alone), score_del, if_neg other]

/-- The difference meets Redis just where the deletion is harmless. -/
lemma diff_iff (proper : ∀ k ∈ sources, ¬ s.OtherType db k) :
    (∀ m, kept (ZStore.diff.compute (s.del db destKey) db sources) m =
      ZStore.diff.result s db sources m) ↔ ZStore.diff.Harmless s db destKey sources := by
  cases sources with
  | nil => exact iff_of_true (fun m => Std.ExtTreeMap.getElem?_empty) trivial
  | cons first rest =>
    simp only [compute, result, Harmless]
    -- the difference ends with nothing, or is taken from all sources but the destination
    by_cases stops : first = destKey ∨ s.IsSet db first ∨ ∃ k ∈ rest, k ≠ destKey ∧ s.IsSet db k
    · have lost (m : Bytes) := diff_lost proper stops m
      have apart : ¬ (first ≠ destKey ∧ ¬ s.IsSet db first ∧
        (∀ k ∈ rest, k ≠ destKey → ¬ s.IsSet db k) ∧
          (destKey ∈ rest → ∀ m, (s.score db first m).isSome → (s.score db destKey m).isSome →
            ∃ k ∈ rest, k ≠ destKey ∧ (s.score db k m).isSome)) := by
        rintro ⟨other, proper, nowhere, -⟩
        rcases stops with here | set | ⟨k, mem, different, set⟩
        · exact other here
        · exact proper set
        · exact nowhere k mem different set
      rw [or_iff_left apart, and_iff_right stops]
      refine forall_congr' fun m => ?_
      rw [lost m]
      constructor
      · intro nowhere' has
        by_contra alone
        rw [if_neg alone] at nowhere'
        rw [← nowhere'] at has
        cases has
      · intro taken
        split
        · rfl
        · rename_i alone
          exact (Option.not_isSome_iff_eq_none.mp (mt taken alone)).symm
    · simp only [not_or, not_exists, not_and] at stops
      obtain ⟨other, set, sets⟩ := stops
      have stored (m : Bytes) := diff_stored proper other set sets m
      have apart : ¬ ((first = destKey ∨ s.IsSet db first ∨ ∃ k ∈ rest, k ≠
        destKey ∧ s.IsSet db k) ∧
          ∀ m, (s.score db first m).isSome → ∃ k ∈ rest, (s.score db k m).isSome) := by
        rintro ⟨here | set' | ⟨k, mem, different, set'⟩, -⟩
        · exact other here
        · exact set set'
        · exact sets k mem different set'
      rw [or_iff_right apart, and_iff_right other, and_iff_right set, and_iff_right sets]
      constructor
      · intro same aliased m has dest
        by_contra alone
        have here := same m
        rw [stored, if_neg alone, if_pos ⟨destKey, aliased, dest⟩] at here
        rw [here] at has
        cases has
      · intro covered m
        rw [stored]
        by_cases alone : ∃ k ∈ rest, k ≠ destKey ∧ (s.score db k m).isSome
        · obtain ⟨k, mem, different, has⟩ := alone
          rw [if_pos ⟨k, mem, different, has⟩, if_pos ⟨k, mem, has⟩]
        · rw [if_neg alone]
          split
          · rename_i gone
            obtain ⟨k, mem, has⟩ := gone
            by_cases here : k = destKey
            · subst here
              exact Option.not_isSome_iff_eq_none.mp fun filled => alone (covered mem m filled has)
            · exact absurd ⟨k, mem, here, has⟩ alone
          · rfl

end

/-- In every keyspace, with every destination, all sources, weights and aggregates: the command
stores what Redis defines exactly when a source has a value that is no set of either kind (then
there is no definition) or the command is harmless. -/
theorem storesScores (op : ZStore) (s : Keyspace ExtRat) (db : Nat) (destKey : Bytes)
    (sources : List Bytes) :
    op.Meets s db destKey sources ↔ (∃ k ∈ sources, s.OtherType db k) ∨
      op.Harmless s db destKey sources := by
  rw [meets_iff]
  by_cases other : ∃ k ∈ sources, s.OtherType db k
  · refine iff_of_true (fun proper => ?_) (.inl other)
    obtain ⟨k, mem, type⟩ := other
    exact absurd type (proper k mem)
  · have proper : ∀ k ∈ sources, ¬ s.OtherType db k := fun k mem type => other ⟨k, mem, type⟩
    rw [or_iff_right other]
    have each : (∀ m, kept (op.compute (s.del db destKey) db sources) m =
      op.result s db sources m) ↔
        op.Harmless s db destKey sources := by
      cases op with
      | union weights aggregate => exact union_iff proper
      | inter weights aggregate => exact inter_iff proper
      | diff => exact diff_iff proper
    rw [← each]
    exact ⟨fun h => h proper, fun h _ => h⟩

/-- A sorted set `a` with one member. -/
def oneMember : Keyspace ExtRat :=
  Keyspace.bind (fun _ _ => none) 0 (ascii "a")
    (some (.zset (Std.ExtTreeMap.ofList [(ascii "m", .fin 2)] compare)))

/-- `ZUNIONSTORE a 1 a` loses the member. -/
theorem storesScores_aliased :
    ¬ (ZStore.union [] .sum).Meets oneMember 0 (ascii "a") [ascii "a"] := by
  intro h
  have lost := meets_iff.mp h (by
    rintro k mem ⟨type, -⟩
    cases List.mem_singleton.mp mem
    exact type (.inr ⟨_, rfl⟩)) (ascii "m")
  exact absurd lost (by decide +kernel)

end ZStore

end Veidrodelis.TsNif
