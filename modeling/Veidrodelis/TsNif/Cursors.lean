import Veidrodelis.Lib.Pages
import Veidrodelis.TsNif.ZSets

/-!
# Cursors

The keys of a database, the members of a set, the fields of a hash and the members of a sorted set
are read batch by batch: a caller asks for the first ones and then, with the last one that it has,
for the next ones. The four structures are one collection here (`Collection.read`), whose batches
are pages of its elements (`Collection.reads`).
-/

namespace Veidrodelis.TsNif
open RedisNif (Fault)
open StorageValue (hashes sets zsets)

/-! ## Collections -/

/-- What is read with a cursor in a database. -/
inductive Collection where
  | keys
  | members (key : Bytes)
  | fields (key : Bytes)
  | scored (key : Bytes)

/-- Forwards, by `first` and `next`, or backwards, by `last` and `prev`. -/
inductive Direction where
  | forwards
  | backwards
  deriving DecidableEq

/-- The order in which the elements are visited, which is the order of the bytes or its reverse. -/
def Direction.Before : Direction → Bytes → Bytes → Prop
  | .forwards, a, b => compare a b = .lt
  | .backwards, a, b => compare b a = .lt

/-- The elements in the order in which they are visited. -/
def Direction.arrange (direction : Direction) (elems : List Bytes) : List Bytes :=
  match direction with
  | .forwards => elems
  | .backwards => elems.reverse

namespace Collection

/-- A batch without or with a cursor: the names of what is returned. -/
def read (s : StorageInner) (db count : Nat) (collection : Collection) (direction : Direction)
    (cursor : Option Bytes) : Except Fault (List Bytes) :=
  match collection with
  | keys =>
    match direction, cursor with
    | .forwards, none => .ok (s.first db count)
    | .forwards, some last => .ok (s.next db last count)
    | .backwards, none => .ok (s.last db count)
    | .backwards, some last => .ok (s.prev db last count)
  | members key =>
    match direction, cursor with
    | .forwards, none => sfirst s db key count
    | .forwards, some last => snext s db key last count
    | .backwards, none => slast s db key count
    | .backwards, some last => sprev s db key last count
  | fields key =>
    Except.map (List.map Prod.fst) <|
      match direction, cursor with
      | .forwards, none => hfirst s db key count
      | .forwards, some last => hnext s db key last count
      | .backwards, none => hlast s db key count
      | .backwards, some last => hprev s db key last count
  | scored key =>
    Except.map (List.map Prod.snd) <|
      match direction, cursor with
      | .forwards, none => zfirst s db key count
      | .forwards, some last => znext s db key last count
      | .backwards, none => zlast s db key count
      | .backwards, some last => zprev s db key last count

/-- The key is not bound to a value of another type. -/
def Typed (s : StorageInner) (db : Nat) : Collection → Prop
  | keys => True
  | members key => ∀ value ∈ s.lookup db key, ∃ members, value = .set members
  | fields key => ∀ value ∈ s.lookup db key, ∃ fields, value = .hash fields
  | scored key => ∀ value ∈ s.lookup db key, ∃ z, value = .zset z

/-- An element is in the collection. -/
def Holds (s : StorageInner) (db : Nat) : Collection → Bytes → Prop
  | keys, name => s.lookup db name ≠ none
  | members key, name => ∃ members, s.lookup db key = some (.set members) ∧ name ∈ members
  | fields key, name => ∃ fields, s.lookup db key = some (.hash fields) ∧ name ∈ fields
  | scored key, name => ∃ z, s.lookup db key = some (.zset z) ∧ name ∈ z.entries

end Collection

/-! ## Batches are pages -/

instance (direction : Direction) : DecidableRel direction.Before := fun a b =>
  match direction with
  | .forwards => inferInstanceAs (Decidable (compare a b = .lt))
  | .backwards => inferInstanceAs (Decidable (compare b a = .lt))

instance (direction : Direction) : IsStrictOrder Bytes direction.Before where
  irrefl a before := by
    have same : compare a a = .eq := Std.ReflCmp.compare_self
    cases direction with
    | forwards => cases same.symm.trans before
    | backwards => cases same.symm.trans before
  trans a b c front back := by
    cases direction with
    | forwards => exact Std.TransCmp.lt_trans front back
    | backwards => exact Std.TransCmp.lt_trans back front

section
variable {ι : Type} (name : ι → Bytes) (entries : List ι) (count : Nat)

/-- What is taken from the entries of an ordered map, without or with a cursor. -/
def batchEntries (direction : Direction) (cursor : Option Bytes) : List ι :=
  match direction, cursor with
  | .forwards, none => entries
  | .forwards, some last => rangeBy name (.excluded last) .unbounded entries
  | .backwards, none => entries.reverse
  | .backwards, some last => (rangeBy name .unbounded (.excluded last) entries).reverse

/-- The batches of the entries are the pages of their names. -/
lemma map_take_batchEntries (direction : Direction) (cursor : Option Bytes) :
    ((batchEntries name entries direction cursor).take count).map name =
      pageBehind direction.Before count cursor (direction.arrange (entries.map name)) := by
  -- both take as many; it remains what they take them from
  rw [List.map_take]
  refine congrArg (List.take count) ?_
  have ranged {p : ι → Bool} {q : Bytes → Bool} (entries : List ι) (same : ∀ e, p e = q (name e)) :
      (entries.filter p).map name = (entries.map name).filter q := by
    rw [List.filter_map]
    exact congrArg (List.map name) (List.filter_congr fun e _ => same e)
  have everything (names : List Bytes) : leftBehind direction.Before none names = names :=
    List.filter_eq_self.mpr fun b _ => decide_eq_true nofun
  cases cursor with
  | none =>
    rw [everything]
    cases direction with
    | forwards => rfl
    | backwards => exact List.map_reverse
  | some last =>
    have behind (name : Bytes) : Behind direction.Before (some last) name ↔
      direction.Before last name :=
      ⟨fun behind => behind last rfl, fun before cursor isLast => Option.some.inj isLast ▸ before⟩
    cases direction with
    | forwards =>
      refine ranged entries fun e => ?_
      rw [Bool.eq_iff_iff, decide_eq_true_eq, behind]
      simp [Bound.admitsFrom, Bound.admitsUpTo, Direction.Before]
    | backwards =>
      show (rangeBy name .unbounded (.excluded last) entries).reverse.map name =
        leftBehind Direction.backwards.Before (some last) (entries.map name).reverse
      rw [List.map_reverse, leftBehind, List.filter_reverse]
      refine congrArg List.reverse (ranged entries fun e => ?_)
      rw [Bool.eq_iff_iff, decide_eq_true_eq, behind]
      simp [Bound.admitsFrom, Bound.admitsUpTo, Direction.Before]

end

/-- The names of the entries of the container that is there, if any. -/
def Container.names {α : Type} (c : Container α) (names : α → List Bytes) (slot : Slot) :
    List Bytes :=
  match slot.bind c.unwrap with
  | some a => names a
  | none => []

section
variable {α : Type} {c : Container α} {names : α → List Bytes} {slot : Slot}

/-- A name is listed when the slot's container has it. -/
lemma mem_names {name : Bytes} :
    name ∈ c.names names slot ↔ ∃ a, slot = some (c.wrap a) ∧ name ∈ names a := by
  rw [Container.names]
  constructor
  · intro mem
    cases found : slot.bind c.unwrap with
    | none =>
      rw [found] at mem
      cases mem
    | some a =>
      rw [found] at mem
      obtain ⟨value, bound, unwrapped⟩ := Option.bind_eq_some_iff.mp found
      rw [c.unwrap_eq_some.mp unwrapped] at bound
      exact ⟨a, bound, mem⟩
  · rintro ⟨a, rfl, mem⟩
    rw [Option.bind_some, c.unwrap_wrap]
    exact mem

/-- The names of a slot are in the order of its container. -/
lemma names_ordered {r : Bytes → Bytes → Prop} (ordered : ∀ a, (names a).Pairwise r) :
    (c.names names slot).Pairwise r := by
  rw [Container.names]
  cases slot.bind c.unwrap with
  | none => exact .nil
  | some a => exact ordered a

/-- The batches of a container are the pages of the names of its entries, under which its items are
returned. -/
lemma map_readItems {ι ο : Type} (c : Container α) (entries : α → List ι) (entryName : ι → Bytes)
    (item : ι → ο) (itemName : ο → Bytes) (named : ∀ e, itemName (item e) = entryName e)
    {s : StorageInner} {db count : Nat} {key : Bytes} (positive : 1 ≤ count)
    (typed : ∀ value ∈ s.lookup db key, ∃ a, value = c.wrap a) (direction : Direction)
    (cursor : Option Bytes) :
    (readItems c (fun a => batchEntries entryName (entries a) direction cursor) item s db
      key count).map
        (List.map itemName) =
      .ok (pageBehind direction.Before count cursor
        (direction.arrange (c.names (fun a => (entries a).map entryName) (s.lookup db key)))) := by
  rw [readItems, if_neg (by omega)]
  cases bound : s.lookup db key with
  | none =>
    refine congrArg Except.ok ?_
    cases direction with
    | forwards => exact List.take_nil.symm
    | backwards => exact List.take_nil.symm
  | some value =>
    obtain ⟨a, rfl⟩ := typed value bound
    have names : c.names (fun a => (entries a).map entryName) (some (c.wrap a)) =
      (entries a).map entryName := by
      rw [Container.names, Option.bind_some, c.unwrap_wrap]
    have shown : itemName ∘ item = entryName := funext named
    simp only [c.unwrap_wrap]
    rw [names, ← map_take_batchEntries, Except.map, List.map_map, shown]

end

namespace Collection

/-- The elements in order. -/
def elems (s : StorageInner) (db : Nat) : Collection → List Bytes
  | keys => ((s.map[db]?).getD ∅).toList.map Prod.fst
  | members key => sets.names (fun members => members.toList.map id) (s.lookup db key)
  | fields key => hashes.names (fun fields => fields.toList.map Prod.fst) (s.lookup db key)
  | scored key => zsets.names (fun z => z.entries.toList.map Prod.fst) (s.lookup db key)

variable {s : StorageInner} {db count : Nat}

/-- The elements of a collection are in order. -/
lemma elems_ordered (collection : Collection) :
    (collection.elems s db).Pairwise (Direction.Before .forwards) := by
  have map {β : Type} (m : Std.ExtTreeMap Bytes β compare) :
      (m.toList.map Prod.fst).Pairwise (Direction.Before .forwards) := by
    rw [Std.ExtTreeMap.map_fst_toList_eq_keys]
    exact Std.ExtTreeMap.ordered_keys
  cases collection with
  | keys => exact map _
  | members key =>
    refine names_ordered fun members => ?_
    rw [List.map_id]
    exact Std.ExtTreeSet.ordered_toList
  | fields key => exact names_ordered fun fields => map fields
  | scored key => exact names_ordered fun z => map z.entries

/-- The elements of a collection are what it holds. -/
lemma mem_elems {collection : Collection} {name : Bytes} :
    name ∈ collection.elems s db ↔ collection.Holds s db name := by
  have map {β : Type} (m : Std.ExtTreeMap Bytes β compare) : name ∈ m.toList.map Prod.fst ↔
    name ∈ m := by
    rw [Std.ExtTreeMap.map_fst_toList_eq_keys, Std.ExtTreeMap.mem_keys]
  cases collection with
  | keys =>
    rw [elems, map, Holds, StorageInner.lookup]
    cases s.map[db]? with
    | none => simp
    | some dbMap => simp
  | members key =>
    refine mem_names.trans (exists_congr fun members => and_congr_right fun _ => ?_)
    rw [List.map_id, Std.ExtTreeSet.mem_toList]
  | fields key =>
    exact mem_names.trans (exists_congr fun fields => and_congr_right fun _ => map fields)
  | scored key =>
    exact mem_names.trans (exists_congr fun z => and_congr_right fun _ => map z.entries)

/-- The batches of the keys. -/
lemma readKeys_eq (positive : 1 ≤ count) (direction : Direction) (cursor : Option Bytes) :
    readKeys (fun dbMap => batchEntries Prod.fst dbMap.toList direction cursor) s db count =
      pageBehind direction.Before count cursor (direction.arrange (keys.elems s db)) := by
  rw [readKeys, if_neg (by omega), elems]
  cases s.map[db]? with
  | none =>
    cases direction with
    | forwards => exact List.take_nil.symm
    | backwards => exact List.take_nil.symm
  | some dbMap => exact map_take_batchEntries Prod.fst dbMap.toList count direction cursor

/-- Whatever the collection, a batch is a page of its elements in the order of the visit. -/
lemma read_eq {collection : Collection} (typed : collection.Typed s db) (positive : 1 ≤ count)
    (direction : Direction) (cursor : Option Bytes) :
    collection.read s db count direction cursor =
      .ok (pageBehind direction.Before count cursor
      (direction.arrange (collection.elems s db))) := by
  cases collection with
  | keys =>
    refine Eq.trans ?_ (congrArg Except.ok (readKeys_eq positive direction cursor))
    cases direction with
    | forwards => cases cursor <;> rfl
    | backwards => cases cursor <;> rfl
  | members key =>
    have same (result : Except Fault (List Bytes)) : result.map (List.map id) = result := by
      rw [List.map_id_fun]
      cases result with
      | ok items => rfl
      | error fault => rfl
    have batch := map_readItems sets (fun members => members.toList) id id id
      (fun _ => rfl) positive typed direction
      cursor
    rw [same] at batch
    refine Eq.trans ?_ batch
    cases direction with
    | forwards => cases cursor <;> rfl
    | backwards => cases cursor <;> rfl
  | fields key =>
    refine Eq.trans ?_ (map_readItems hashes
      (fun fields => fields.toList) Prod.fst id Prod.fst (fun _ => rfl)
      positive typed direction cursor)
    cases direction with
    | forwards => cases cursor <;> rfl
    | backwards => cases cursor <;> rfl
  | scored key =>
    refine Eq.trans ?_ (map_readItems zsets
      (fun z => z.entries.toList) Prod.fst Prod.swap Prod.snd (fun _ => rfl)
      positive typed direction cursor)
    cases direction with
    | forwards => cases cursor <;> rfl
    | backwards => cases cursor <;> rfl

/-- What a caller gets who asks for the first batch and then for the next ones until one is empty,
at most `fuel` batches. A state of the storage for each call. -/
def visitAll (states : Nat → StorageInner) (db count : Nat) (collection : Collection)
    (direction : Direction) (fuel : Nat) : Option (Except Fault (List Bytes)) :=
  visit (fun i => collection.read (states i) db count direction) fuel 0 none

/-- Arranged elements are in the order of the direction. -/
lemma arrange_ordered (collection : Collection) (direction : Direction) :
    (direction.arrange (collection.elems s db)).Pairwise direction.Before := by
  cases direction with
  | forwards => exact elems_ordered collection
  | backwards => exact List.pairwise_reverse.mpr (elems_ordered collection)

/-- To arrange elements loses none. -/
lemma mem_arrange {direction : Direction} {elems : List Bytes} {name : Bytes} :
    name ∈ direction.arrange elems ↔ name ∈ elems := by
  cases direction with
  | forwards => exact Iff.rfl
  | backwards => exact List.mem_reverse

/-- The batches that a caller asks for are pages. -/
lemma readsPages {states : Nat → StorageInner} {collection : Collection}
    (typed : ∀ i, collection.Typed (states i) db) (positive : 1 ≤ count) (direction : Direction) :
    ReadsPages direction.Before count (fun i => direction.arrange (collection.elems (states i) db))
      fun i => collection.read (states i) db count direction where
  positive := positive
  ordered _ := arrange_ordered collection direction
  reads i := read_eq (typed i) positive direction

end Collection

/-! ## The whole visit -/

/-- A collection is visited completely, batch by batch: in a storage that does not change, and in
one in which elements are deleted between the calls. -/
structure VisitsAll (collection : Collection) (db count : Nat) : Prop where
  undisturbed : ∀ s, collection.Typed s db → ∃ elems : List Bytes,
    elems.Pairwise (fun a b => compare a b = .lt) ∧
    (∀ name, name ∈ elems ↔ collection.Holds s db name) ∧
    ∀ fuel, elems.length < fuel →
      collection.visitAll (fun _ => s) db count .forwards fuel = some (.ok elems) ∧
      collection.visitAll (fun _ => s) db count .backwards fuel = some (.ok elems.reverse)
  deleted : ∀ (states : Nat → StorageInner) (direction : Direction),
    (∀ i, collection.Typed (states i) db) →
    (∀ i name, collection.Holds (states (i + 1)) db name → collection.Holds (states i) db name) →
    ∃ calls visited,
      (∀ fuel, collection.visitAll states db count direction fuel =
        if calls ≤ fuel then some (.ok visited) else none) ∧
      visited.Pairwise direction.Before ∧
      (∀ name ∈ visited, ∃ i < calls, collection.Holds (states i) db name) ∧
      ∀ name, (∀ i < calls, collection.Holds (states i) db name) → visited.count name = 1

/-- Every collection is visited completely, with batches of any size. -/
theorem visitsAll (collection : Collection) (db : Nat) {count : Nat} (positive : 1 ≤ count) :
    VisitsAll collection db count := by
  refine ⟨fun s typed => ?_, fun states direction typed shrinks => ?_⟩
  · refine ⟨collection.elems s db, collection.elems_ordered,
      fun name => Collection.mem_elems, fun fuel enough => ?_⟩
    have reads (direction : Direction) :=
      @Collection.readsPages db count (fun _ => s) collection (fun _ => typed)
      positive direction
    have again : ((collection.elems s db).reverse).length < fuel := by rwa [List.length_reverse]
    exact ⟨(reads .forwards).visit_eq enough, (reads .backwards).visit_eq again⟩
  · have reads := Collection.readsPages typed positive direction
    have nothingNew (i : Nat) : direction.arrange (collection.elems (states (i + 1)) db) ⊆
        direction.arrange (collection.elems (states i) db) := by
      intro name mem
      rw [Collection.mem_arrange, Collection.mem_elems] at mem ⊢
      exact shrinks i name mem
    obtain ⟨visited, done⟩ := reads.ends nothingNew (Nat.lt_succ_self _)
    obtain ⟨calls, _, visits⟩ := reads.visits done
    refine ⟨calls, visited, visits.stops, visits.ordered, fun name mem => ?_,
      fun name throughout => ?_⟩
    · obtain ⟨i, _, lt, mem⟩ := visits.present name mem
      exact ⟨i, by omega, Collection.mem_elems.mp (Collection.mem_arrange.mp mem)⟩
    · refine List.count_eq_one_of_mem visits.ordered.nodup
        (visits.complete name nofun fun i _ lt => ?_)
      exact Collection.mem_arrange.mpr (Collection.mem_elems.mpr (throughout i (by omega)))

/-- Two members at a time. The cursor is deleted before the second batch is asked for. -/
theorem visitsAll_three :
    let states : Nat → StorageInner := fun i =>
      StorageInner.new.put 0 (ascii "k")
        (.set (if i = 0 then {ascii "a", ascii "b", ascii "c"} else {ascii "a", ascii "c"}))
    VisitsAll (.members (ascii "k")) 0 2 ∧
      Collection.visitAll states 0 2 (.members (ascii "k")) .forwards 3 =
        some (.ok [ascii "a", ascii "b", ascii "c"]) :=
  ⟨visitsAll _ 0 (by decide), by decide +kernel⟩

end Veidrodelis.TsNif
