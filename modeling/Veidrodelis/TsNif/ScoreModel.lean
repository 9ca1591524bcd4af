import Veidrodelis.Lib.ExtendedRational
import Veidrodelis.TsNif.DualIndex

/-!
# The combinations of sorted sets over any scores

`ZUNIONSTORE`, `ZINTERSTORE` and `ZDIFFSTORE` again, over scores of any arithmetic (`ScoreArith`)
and over a keyspace that keeps a sorted set by its entries alone. Over the numbers of the machine
they are the commands of the storage (`view_zunionstore`, `view_zinterstore`, `view_zdiffstore`);
over `ExtRat` nothing is rounded.
-/

namespace Veidrodelis.TsNif
open RedisNif (Fault)
open StorageValue (zsets)

/-! ## Scores -/

/-- The arithmetic that the commands need of the scores. -/
class ScoreArith (σ : Type) where
  zero : σ
  one : σ
  add : σ → σ → σ
  mul : σ → σ → σ
  cmp : σ → σ → Ordering

/-- The numbers of the machine. -/
instance : ScoreArith Score := ⟨emptySum, Binary64.ofInt 1, Binary64.add, Binary64.mul, Score.cmp⟩

instance : ScoreArith ExtRat := ⟨.fin 0, .fin 1, .add, .mul, compare⟩

/-! ## Keyspaces -/

/-- A value, with the entries of a sorted set. -/
inductive Value (σ : Type) where
  | string (value : Bytes)
  | list (items : List Bytes)
  | hash (fields : Std.ExtTreeMap Bytes Bytes compare)
  | set (members : Std.ExtTreeSet Bytes compare)
  | zset (entries : Std.ExtTreeMap Bytes σ compare)

/-- What is bound to the keys of all databases. -/
abbrev Keyspace (σ : Type) := Nat → Bytes → Option (Value σ)

namespace Keyspace

variable {σ : Type}

/-- Bind a key to a value or to none. -/
def bind (s : Keyspace σ) (db : Nat) (key : Bytes) (slot : Option (Value σ)) : Keyspace σ :=
  fun db' key' =>
  if db' = db ∧ key' = key then slot else s db' key'

/-- The key is deleted. -/
def del (s : Keyspace σ) (db : Nat) (key : Bytes) : Keyspace σ := s.bind db key none

end Keyspace

/-! ## The commands -/

section Commands
variable {σ : Type} [ScoreArith σ]
open ScoreArith

/-- `scores.iter().sum()`, `min()` or `max()`. -/
def Aggregate.of (aggregate : Aggregate) (scores : List σ) : σ :=
  match aggregate, scores with
  | .sum, scores => scores.foldl add zero
  | .min, first :: rest =>
    rest.foldl (fun best score => if cmp score best = .lt then score else best) first
  | .max, first :: rest =>
    rest.foldl (fun best score => if cmp score best = .lt then best else score) first
  | _, [] => zero

namespace Keyspace

/-- The next weight, and those of the source keys behind it. -/
def nextWeight : List σ → σ × List σ
  | [] => (one, [])
  | weight :: weights => (weight, weights)

/-- The loop of `zunionstore`. -/
def unionFrom (s : Keyspace σ) (db : Nat) (acc : Std.ExtTreeMap Bytes (List σ) compare) :
    List Bytes → List σ → Except Fault (Std.ExtTreeMap Bytes (List σ) compare)
  | [], _ => .ok acc
  | sourceKey :: rest, weights =>
    let (weight, weights) := nextWeight weights
    match s db sourceKey with
    | some (.zset entries) =>
      let acc := entries.toList.foldl (fun acc (member, score) =>
        acc.insert member (acc[member]?.getD [] ++ [mul score weight])) acc
      unionFrom s db acc rest weights
    | some _ => wrongType
    | none => unionFrom s db acc rest weights

/-- The loop of `zinterstore`. -/
def interFrom (s : Keyspace σ) (db : Nat) (acc : Std.ExtTreeMap Bytes (List σ) compare) :
    List Bytes → List σ → Except Fault (Std.ExtTreeMap Bytes (List σ) compare)
  | [], _ => .ok acc
  | sourceKey :: rest, weights =>
    let (weight, weights) := nextWeight weights
    match s db sourceKey with
    | some (.zset entries) =>
      let acc := acc.filterMap fun member scores =>
        entries[member]?.map fun score => scores ++ [mul score weight]
      if acc.isEmpty then .ok ∅ else interFrom s db acc rest weights
    | some _ => wrongType
    | none => .ok ∅

/-- The loop of `zdiffstore`. -/
def diffFrom (s : Keyspace σ) (db : Nat) (acc : Std.ExtTreeMap Bytes σ compare) :
    List Bytes → Except Fault (Std.ExtTreeMap Bytes σ compare)
  | [] => .ok acc
  | sourceKey :: rest =>
    match s db sourceKey with
    | some (.zset entries) =>
      diffFrom s db (entries.keys.foldl (fun acc member => acc.erase member) acc) rest
    | some _ => wrongType
    | none => diffFrom s db acc rest

/-- The entries of the new sorted set. -/
def aggregated (aggregate : Aggregate) (scores : Std.ExtTreeMap Bytes (List σ) compare) :
    Std.ExtTreeMap Bytes σ compare :=
  scores.map fun _ scores => aggregate.of scores

/-- What `zunionstore` computes. -/
def union (s : Keyspace σ) (db : Nat) (sourceKeys : List Bytes) (weights : List σ)
    (aggregate : Aggregate) : Except Fault (Std.ExtTreeMap Bytes σ compare) :=
  (s.unionFrom db ∅ sourceKeys weights).map (aggregated aggregate)

/-- What `zinterstore` computes. -/
def inter (s : Keyspace σ) (db : Nat) (sourceKeys : List Bytes) (weights : List σ)
    (aggregate : Aggregate) : Except Fault (Std.ExtTreeMap Bytes σ compare) :=
  match sourceKeys with
  | [] => .ok ∅
  | first :: rest =>
    let (weight, weights) := nextWeight weights
    match s db first with
    | some (.zset entries) =>
      (s.interFrom db (entries.map fun _ score => [mul score weight]) rest weights).map
        (aggregated aggregate)
    | some _ => wrongType
    | none => .ok ∅

/-- What `zdiffstore` computes. -/
def diff (s : Keyspace σ) (db : Nat) (sourceKeys : List Bytes) :
    Except Fault (Std.ExtTreeMap Bytes σ compare) :=
  match sourceKeys with
  | [] => .ok ∅
  | first :: rest =>
    match s db first with
    | some (.zset entries) => s.diffFrom db entries rest
    | some _ => wrongType
    | none => .ok ∅

/-- The destination is deleted first, and bound to the result if it is not empty. -/
def storeScores (s : Keyspace σ) (db : Nat) (destKey : Bytes)
    (compute : Keyspace σ → Except Fault (Std.ExtTreeMap Bytes σ compare)) :
    Keyspace σ × Except Fault Unit :=
  match compute (s.del db destKey) with
  | .ok entries =>
    (if entries.isEmpty then s.del db destKey else (s.del db destKey).bind db
      destKey (some (.zset entries)),
      .ok ())
  | .error fault => (s.del db destKey, .error fault)

/-- `zunionstore`. -/
def zunionstore (s : Keyspace σ) (db : Nat) (destKey : Bytes) (sourceKeys : List Bytes)
    (weights : List σ) (aggregate : Aggregate) : Keyspace σ × Except Fault Unit :=
  s.storeScores db destKey fun s => s.union db sourceKeys weights aggregate

/-- `zinterstore`. -/
def zinterstore (s : Keyspace σ) (db : Nat) (destKey : Bytes) (sourceKeys : List Bytes)
    (weights : List σ) (aggregate : Aggregate) : Keyspace σ × Except Fault Unit :=
  s.storeScores db destKey fun s => s.inter db sourceKeys weights aggregate

/-- `zdiffstore`. -/
def zdiffstore (s : Keyspace σ) (db : Nat) (destKey : Bytes) (sourceKeys : List Bytes) :
    Keyspace σ × Except Fault Unit :=
  s.storeScores db destKey fun s => s.diff db sourceKeys

end Keyspace

end Commands

/-! ## The storage as a keyspace -/

/-- A value of the storage. -/
def StorageValue.view : StorageValue → Value Score
  | .string value => .string value
  | .set members => .set members
  | .list items => .list items
  | .hash fields => .hash fields
  | .zset z => .zset z.entries

/-- The storage, with the sorted sets by their entries. -/
def StorageInner.view (s : StorageInner) : Keyspace Score :=
  fun db key => (s.lookup db key).map StorageValue.view

/-- The view of a storage without a key. -/
lemma view_del (s : StorageInner) (db : Nat) (key : Bytes) :
    (s.del db key).view = s.view.del db key := by
  funext db' key'
  rw [StorageInner.view, StorageInner.lookup_del, Keyspace.del, Keyspace.bind]
  split
  · rfl
  · rfl

/-- The view of a storage with a value. -/
lemma view_put (s : StorageInner) (db : Nat) (key : Bytes) (value : StorageValue) :
    (s.put db key value).view = s.view.bind db key (some value.view) := by
  funext db' key'
  rw [StorageInner.view, StorageInner.lookup_put, Keyspace.bind]
  split
  · rfl
  · rfl

/-! ### Sorted sets that are made of their members -/

section Updates
variable {α β : Type}

/-- Every key of a list without repetitions is updated once. -/
lemma getElem?_foldl_update (f : Bytes → β → Option α → α) {items : List (Bytes × β)}
    (names : (items.map (·.1)).Nodup) (acc : Std.ExtTreeMap Bytes α compare) (m : Bytes) :
    (∀ b, (m, b) ∈ items →
      (items.foldl (fun acc p => acc.insert p.1 (f p.1 p.2 acc[p.1]?)) acc)[m]? =
      some (f m b acc[m]?)) ∧
    ((∀ b, (m, b) ∉ items) →
      (items.foldl (fun acc p => acc.insert p.1 (f p.1 p.2 acc[p.1]?)) acc)[m]? = acc[m]?) := by
  induction items generalizing acc with
  | nil => exact ⟨nofun, fun _ => rfl⟩
  | cons first rest ih =>
    rw [List.map_cons, List.nodup_cons] at names
    obtain ⟨found, missed⟩ := ih names.2 (acc.insert first.1 (f first.1 first.2 acc[first.1]?))
    rw [List.foldl_cons]
    constructor
    · intro b mem
      rcases List.mem_cons.mp mem with rfl | mem
      · rw [missed fun b' mem' => names.1 (List.mem_map.mpr ⟨_, mem', rfl⟩),
          Std.ExtTreeMap.getElem?_insert_self]
      · have other : first.1 ≠ m := by
          rintro rfl
          exact names.1 (List.mem_map.mpr ⟨_, mem, rfl⟩)
        rw [found b mem, Std.ExtTreeMap.getElem?_insert, if_neg]
        exact fun eq => other (Std.LawfulEqCmp.eq_of_compare eq)
    · intro nowhere
      have other : first.1 ≠ m := by
        rintro rfl
        exact nowhere first.2 List.mem_cons_self
      rw [missed fun b mem => nowhere b (List.mem_cons_of_mem _ mem),
        Std.ExtTreeMap.getElem?_insert, if_neg]
      exact fun eq => other (Std.LawfulEqCmp.eq_of_compare eq)

/-- Every entry of a map updates another map once. -/
lemma getElem?_foldl_entries (f : Bytes → β → Option α → α)
    (entries : Std.ExtTreeMap Bytes β compare) (acc : Std.ExtTreeMap Bytes α compare) (m : Bytes) :
    (entries.toList.foldl (fun acc p => acc.insert p.1 (f p.1 p.2 acc[p.1]?)) acc)[m]? =
      match entries[m]? with
      | some b => some (f m b acc[m]?)
      | none => acc[m]? := by
  obtain ⟨found, missed⟩ := getElem?_foldl_update f (ZSet.names_toList entries) acc m
  split
  · rename_i b here
    exact found b (Std.ExtTreeMap.mem_toList_iff_getElem?_eq_some.mpr here)
  · rename_i nowhere
    refine missed fun b mem => ?_
    rw [Std.ExtTreeMap.mem_toList_iff_getElem?_eq_some, nowhere] at mem
    cases mem

end Updates

/-- The entries are inserted one after the other. -/
lemma entries_foldl (members : List (Bytes × Score)) : (ZSet.ofMembers members).entries =
    members.foldl (fun acc p => acc.insert p.1 p.2) ∅ := by
  have inserts (z : ZSet) : (members.foldl (fun z p => z.insert p.2 p.1) z).entries =
      members.foldl (fun acc p => acc.insert p.1 p.2) z.entries := by
    induction members generalizing z with
    | nil => rfl
    | cons first rest ih => exact ih _
  exact inserts .new

/-- A sorted set made of entries has these entries. -/
lemma entries_ofMembers (entries : Std.ExtTreeMap Bytes Score compare) :
    (ZSet.ofMembers entries.toList).entries = entries := by
  apply Std.ExtTreeMap.ext_getElem?
  intro m
  rw [entries_foldl]
  refine (getElem?_foldl_entries (fun _ score _ => score) entries ∅ m).trans ?_
  split
  · rename_i score here
    exact here.symm
  · rename_i nowhere
    rw [nowhere]
    exact Std.ExtTreeMap.getElem?_empty

/-! ### The commands are the same -/

/-- The next weight is the same in the view. -/
lemma nextWeight_view (weights : List Score) :
    Keyspace.nextWeight weights = nextWeight weights := by
  cases weights with
  | nil => rfl
  | cons weight weights => rfl

/-- Scores are aggregated the same in the view. -/
lemma aggregate_view (aggregate : Aggregate) (scores : List Score) :
    aggregate.apply scores = aggregate.of scores := by
  cases aggregate with
  | sum => rfl
  | min =>
    cases scores with
    | nil => rfl
    | cons first rest => rfl
  | max =>
    cases scores with
    | nil => rfl
    | cons first rest => rfl

/-- Aggregated members are the same in the view. -/
lemma aggregated_view (aggregate : Aggregate) (scores : WeightedScores) :
    (aggregated aggregate scores).entries = Keyspace.aggregated aggregate scores := by
  have members : aggregated aggregate scores =
      ZSet.ofMembers (Keyspace.aggregated aggregate scores).toList := by
    rw [aggregated, Keyspace.aggregated, Std.ExtTreeMap.toList_map]
    congr 2
    funext p
    exact congrArg (Prod.mk p.1) (aggregate_view aggregate p.2)
  rw [members, entries_ofMembers]

section
variable (s : StorageInner) (db : Nat)

/-- The loop of the union is the same in the view. -/
lemma unionFrom_view (acc : WeightedScores) (keys : List Bytes) (weights : List Score) :
    s.view.unionFrom db acc keys weights = zunionFrom s db acc keys weights := by
  induction keys generalizing acc weights with
  | nil => rfl
  | cons key rest ih =>
    rw [Keyspace.unionFrom, zunionFrom, nextWeight_view]
    simp only [StorageInner.view]
    cases s.lookup db key with
    | none => exact ih _ _
    | some value =>
      cases value with
      | zset z => exact ih _ _
      | _ => rfl

/-- The loop of the intersection is the same in the view. -/
lemma interFrom_view (acc : WeightedScores) (keys : List Bytes) (weights : List Score) :
    s.view.interFrom db acc keys weights = zinterFrom s db acc keys weights := by
  induction keys generalizing acc weights with
  | nil => rfl
  | cons key rest ih =>
    rw [Keyspace.interFrom, zinterFrom, nextWeight_view]
    simp only [StorageInner.view]
    cases s.lookup db key with
    | none => rfl
    | some value =>
      cases value with
      | zset z =>
        refine ite_congr rfl (fun _ => rfl) fun _ => ?_
        exact ih _ _
      | _ => rfl

/-- The loop of the difference is the same in the view. -/
lemma diffFrom_view (acc : Std.ExtTreeMap Bytes Score compare) (keys : List Bytes) :
    s.view.diffFrom db acc keys = zdiffFrom s db acc keys := by
  induction keys generalizing acc with
  | nil => rfl
  | cons key rest ih =>
    rw [Keyspace.diffFrom, zdiffFrom]
    simp only [StorageInner.view]
    cases s.lookup db key with
    | none => exact ih _
    | some value =>
      cases value with
      | zset z => exact ih _
      | _ => rfl

variable (destKey : Bytes) (sourceKeys : List Bytes)

/-- A command that stores is the same in the view if its computation is. -/
lemma view_storeResult {compute : StorageInner → Except Fault ZSet}
    {compute' : Keyspace Score → Except Fault (Std.ExtTreeMap Bytes Score compare)}
    (same : ∀ s : StorageInner, compute' s.view = (compute s).map (·.entries)) :
    ((storeResult zsets db destKey compute s).1.view, (storeResult zsets db destKey compute s).2) =
      s.view.storeScores db destKey compute' := by
  rw [Keyspace.storeScores, ← view_del, same, storeResult]
  cases compute (s.del db destKey) with
  | error fault => rfl
  | ok z =>
    simp only [Except.map]
    by_cases isEmpty : z.entries.isEmpty = true
    · have gone : zsets.isEmpty z = true := isEmpty
      rw [if_pos gone, if_pos isEmpty]
    · have filled : ¬ zsets.isEmpty z = true := isEmpty
      rw [if_neg filled, if_neg isEmpty, view_put]
      rfl

/-- On the entries, the commands of the storage are those over the numbers of the machine. -/
theorem view_zunionstore (weights : List Score) (aggregate : Aggregate) :
    ((zunionstore db destKey sourceKeys weights aggregate s).1.view,
      (zunionstore db destKey sourceKeys weights aggregate s).2) =
      s.view.zunionstore db destKey sourceKeys weights aggregate := by
  refine view_storeResult s db destKey fun s => ?_
  rw [Keyspace.union, unionFrom_view]
  cases zunionFrom s db ∅ sourceKeys weights with
  | error fault => rfl
  | ok scores => exact congrArg Except.ok (aggregated_view aggregate scores).symm

/-- `ZINTERSTORE` is the same in the view. -/
theorem view_zinterstore (weights : List Score) (aggregate : Aggregate) :
    ((zinterstore db destKey sourceKeys weights aggregate s).1.view,
      (zinterstore db destKey sourceKeys weights aggregate s).2) =
      s.view.zinterstore db destKey sourceKeys weights aggregate := by
  refine view_storeResult s db destKey fun s => ?_
  cases sourceKeys with
  | nil => rfl
  | cons first rest =>
    rw [Keyspace.inter, nextWeight_view]
    simp only
    rw [StorageInner.view]
    cases s.lookup db first with
    | none => rfl
    | some value =>
      cases value with
      | zset z =>
        simp only [Option.map_some, StorageValue.view]
        have loop :=
          interFrom_view s db (z.entries.map
          fun _ score => [Binary64.mul score (nextWeight weights).1])
          rest (nextWeight weights).2
        refine (congrArg (Except.map (Keyspace.aggregated aggregate)) loop).trans ?_
        cases zinterFrom s db
          (z.entries.map fun _ score => [Binary64.mul score (nextWeight weights).1]) rest
            (nextWeight weights).2 with
        | error fault => rfl
        | ok scores => exact congrArg Except.ok (aggregated_view aggregate scores).symm
      | _ => rfl

/-- `ZDIFFSTORE` is the same in the view. -/
theorem view_zdiffstore :
    ((zdiffstore db destKey sourceKeys s).1.view, (zdiffstore db destKey sourceKeys s).2) =
      s.view.zdiffstore db destKey sourceKeys := by
  refine view_storeResult s db destKey fun s => ?_
  cases sourceKeys with
  | nil => rfl
  | cons first rest =>
    rw [Keyspace.diff]
    simp only
    rw [StorageInner.view]
    cases s.lookup db first with
    | none => rfl
    | some value =>
      cases value with
      | zset z =>
        simp only [Option.map_some, StorageValue.view]
        refine (diffFrom_view s db z.entries rest).trans ?_
        cases zdiffFrom s db z.entries rest with
        | error fault => rfl
        | ok entries => exact congrArg Except.ok (entries_ofMembers entries).symm
      | _ => rfl

end

end Veidrodelis.TsNif
