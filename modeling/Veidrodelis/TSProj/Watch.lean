import Veidrodelis.RedisStream.Callback
import Veidrodelis.TsNif.PrefixTree
import Veidrodelis.TsNif.Storage

/-!
# Watches

`lib/veidrodelis/ts/watch.ex`: which process watches which key, or which prefix of keys, in which
database. The watches are kept by key and by process; those of prefixes also in a tree, by an
integer that stands for the process. What the maps and the tree have to do with one another is
`Watch.Linked`; every operation keeps it, so a lookup misses none of the watches that are
registered.
-/

namespace Veidrodelis
open RedisStream (Reason)
open TsNif (PrefixWatchTree decodeU64 decodeU64_eq_some)

/-- A process. -/
abbrev Pid := Nat

/-- The term that a watch carries: `nil`, `false`, or any other. -/
inductive Ref where
  | nil
  | no
  | term (t : Nat)
  deriving DecidableEq, Repr

/-- What `if` takes for true. -/
def Ref.truthy : Ref → Bool
  | .term _ => true
  | _ => false

/-- `System.unique_integer([:positive])`: what the runtime answers to each call. -/
class Runtime where
  uniqueInteger : Nat → Int
  injective : Function.Injective uniqueInteger

/-! ## Registrations by database and key -/

/-- `%{db => %{value => %{pid => ref}}}`. -/
abbrev DbMap := Std.ExtTreeMap Bytes (Std.ExtTreeMap Pid Ref compare) compare

@[inherit_doc DbMap]
abbrev Registrations := Std.ExtTreeMap Int DbMap compare

namespace Registrations

/-- `get_in(map, [db, value])`. -/
def pids (m : Registrations) (db : Int) (value : Bytes) : Std.ExtTreeMap Pid Ref compare :=
  (m[db]?.bind fun dbMap => dbMap[value]?).getD ∅

/-- The term under which the process is registered. -/
def refOf (m : Registrations) (db : Int) (value : Bytes) (pid : Pid) : Option Ref :=
  (m.pids db value)[pid]?

/-- `if get_in(map, [db, value, pid])`. -/
def registered (m : Registrations) (db : Int) (value : Bytes) (pid : Pid) : Bool :=
  (m.refOf db value pid).any Ref.truthy

/-- The nested `Map.update`. -/
def put (m : Registrations) (db : Int) (value : Bytes) (pid : Pid) (ref : Ref) : Registrations :=
  m.insert db ((m[db]?.getD ∅).insert value ((m.pids db value).insert pid ref))

/-- `delete_pid_from_db_value`. It is only called with a database that is there. -/
def deletePid (m : Registrations) (db : Int) (value : Bytes) (pid : Pid) : Registrations :=
  match m[db]? with
  | none => m
  | some dbMap =>
    let pidMap := (dbMap[value]?.getD ∅).erase pid
    if pidMap.isEmpty then
      let dbMap := dbMap.erase value
      if dbMap.isEmpty then m.erase db else m.insert db dbMap
    else m.insert db (dbMap.insert value pidMap)

/-- All pids and terms of a database. -/
def watchers (dbMap : DbMap) : List (Pid × Ref) :=
  dbMap.toList.flatMap fun (_, pidMap) => pidMap.toList

/-- Nothing is registered at the start. -/
lemma refOf_empty (db : Int) (value : Bytes) (pid : Pid) :
    refOf (∅ : Registrations) db value pid = none := by
  simp [refOf, pids]

/-- A registration is found in its place. -/
lemma pids_put (m : Registrations) (db db' : Int) (value value' : Bytes) (pid : Pid) (ref : Ref) :
    (m.put db value pid ref).pids db' value' =
      if db' = db ∧ value' = value then (m.pids db value).insert pid ref
        else m.pids db' value' := by
  rw [pids, put, Std.ExtTreeMap.getElem?_insert]
  by_cases same : db' = db
  · subst same
    by_cases here : value' = value
    · subst here
      simp
    · cases e : m[db']? with
      | none => simp [pids, e, here, Ne.symm here]
      | some dbMap => simp [pids, e, Std.ExtTreeMap.getElem?_insert, here, Ne.symm here]
  · simp [pids, same, Ne.symm same]

/-- A registration is found with its reference. -/
lemma refOf_put (m : Registrations) (db db' : Int) (value value' : Bytes) (pid pid' : Pid)
    (ref : Ref) :
    (m.put db value pid ref).refOf db' value' pid' =
      if db' = db ∧ value' = value ∧ pid' = pid then some ref else m.refOf db' value' pid' := by
  rw [refOf, pids_put]
  by_cases here : db' = db ∧ value' = value
  · obtain ⟨rfl, rfl⟩ := here
    by_cases same : pid' = pid
    · subst same
      simp
    · simp [refOf, same, Ne.symm same, Std.ExtTreeMap.getElem?_insert]
  · rw [if_neg here, if_neg fun h => here ⟨h.1, h.2.1⟩]
    rfl

/-- A registration is taken from its place. -/
lemma pids_deletePid (m : Registrations) (db db' : Int) (value value' : Bytes) (pid : Pid) :
    (m.deletePid db value pid).pids db' value' =
      if db' = db ∧ value' = value then (m.pids db value).erase pid else m.pids db' value' := by
  unfold deletePid
  cases e : m[db]? with
  | none =>
    by_cases here : db' = db ∧ value' = value
    · obtain ⟨rfl, rfl⟩ := here
      simp [pids, e]
    · rw [if_neg here]
  | some dbMap =>
    have there : m.pids db value = dbMap[value]?.getD ∅ := by simp [pids, e]
    simp only [← there]
    -- what is left of the database: without the value if nobody is left
    suffices rest : ∀ dbMap' : DbMap, (∀ value', dbMap'[value']?.getD ∅ =
        if value' = value then (m.pids db value).erase pid else dbMap[value']?.getD ∅) →
        (pids (m.insert db dbMap') db' value' =
          if db' = db ∧ value' = value then (m.pids db value).erase pid else m.pids db' value') ∧
        (dbMap'.isEmpty = true → pids (m.erase db) db' value' =
          if db' = db ∧ value' = value then (m.pids db value).erase pid else m.pids db' value') by
      split
      · rename_i nobody
        obtain ⟨kept, dropped⟩ := rest (dbMap.erase value) (by
          intro value'
          rw [Std.ExtTreeMap.isEmpty_iff] at nobody
          rw [Std.ExtTreeMap.getElem?_erase]
          by_cases here : value' = value
          · simp [here, nobody]
          · simp [here, Ne.symm here])
        split
        · rename_i isEmpty
          exact dropped isEmpty
        · exact kept
      · exact (rest (dbMap.insert value ((m.pids db value).erase pid)) (by
          intro value'
          rw [Std.ExtTreeMap.getElem?_insert]
          by_cases here : value' = value
          · simp [here]
          · simp [here, Ne.symm here])).1
    intro dbMap' left
    by_cases same : db' = db
    · subst same
      constructor
      · have := left value'
        simpa [pids, e] using this
      · intro isEmpty'
        rw [Std.ExtTreeMap.isEmpty_iff] at isEmpty'
        have := left value'
        simpa [pids, e, isEmpty'] using this
    · constructor
      · simp [pids, same, Ne.symm same, Std.ExtTreeMap.getElem?_insert]
      · simp [pids, same, Ne.symm same, Std.ExtTreeMap.getElem?_erase]

/-- A registration that is gone is not found. -/
lemma refOf_deletePid (m : Registrations) (db db' : Int) (value value' : Bytes) (pid pid' : Pid) :
    (m.deletePid db value pid).refOf db' value' pid' =
      if db' = db ∧ value' = value ∧ pid' = pid then none else m.refOf db' value' pid' := by
  rw [refOf, pids_deletePid]
  by_cases here : db' = db ∧ value' = value
  · obtain ⟨rfl, rfl⟩ := here
    by_cases same : pid' = pid
    · subst same
      simp
    · simp [refOf, same, Ne.symm same, Std.ExtTreeMap.getElem?_erase]
  · rw [if_neg here, if_neg fun h => here ⟨h.1, h.2.1⟩]
    rfl

/-- The watchers of a database are those of its values. -/
lemma mem_watchers (dbMap : DbMap) (pid : Pid) (ref : Ref) :
    (pid, ref) ∈ watchers dbMap ↔ ∃ (value : Bytes) (pidMap : Std.ExtTreeMap Pid Ref compare),
      dbMap[value]? = some pidMap ∧ pidMap[pid]? = some ref := by
  unfold watchers
  simp only [List.mem_flatMap, Prod.exists, Std.ExtTreeMap.mem_toList_iff_getElem?_eq_some]

/-- The watchers of a database are registered there. -/
lemma mem_watchers_getElem (m : Registrations) (db : Int) (pid : Pid) (ref : Ref) :
    (pid, ref) ∈ watchers (m[db]?.getD ∅) ↔ ∃ value, m.refOf db value pid = some ref := by
  rw [mem_watchers]
  cases e : m[db]? with
  | none => simp [refOf, pids, e]
  | some dbMap =>
    simp only [Option.getD_some, refOf, pids, e, Option.bind_some]
    constructor
    · rintro ⟨value, pidMap, here, held⟩
      exact ⟨value, by simpa [here] using held⟩
    · rintro ⟨value, held⟩
      cases here : dbMap[value]? with
      | none => simp [here] at held
      | some pidMap => exact ⟨value, pidMap, here, by simpa [here] using held⟩

end Registrations

/-! ## The watch storage -/

/-- `Vdr.TS.Watch`. The sets of keys are lists without repetitions. -/
structure Watch where
  keyToPids : Registrations
  pidToKeys : Std.ExtTreeMap Pid (List (Int × Bytes)) compare
  prefixTree : PrefixWatchTree
  prefixToPids : Registrations
  pidToPrefixes : Std.ExtTreeMap Pid (List (Int × Bytes)) compare
  pidByIdx : Std.ExtTreeMap Int Pid compare
  idxByPid : Std.ExtTreeMap Pid Int compare
  /-- How many integers the runtime was asked for. -/
  issued : Nat

namespace Watch

/-- `create`. -/
def create : Watch := ⟨∅, ∅, .create, ∅, ∅, ∅, ∅, 0⟩

/-- `Map.update(pids, pid, MapSet.new([value]), &MapSet.put(&1, value))`. -/
def noteValue (pids : Std.ExtTreeMap Pid (List (Int × Bytes)) compare) (pid : Pid)
    (value : Int × Bytes) : Std.ExtTreeMap Pid (List (Int × Bytes)) compare :=
  pids.insert pid ((pids[pid]?.getD []).insert value)

/-- The removal of a value from the set of a process, which goes with its last value; and how many
are left. -/
def dropValue (pids : Std.ExtTreeMap Pid (List (Int × Bytes)) compare) (pid : Pid)
    (value : Int × Bytes) : Std.ExtTreeMap Pid (List (Int × Bytes)) compare × Nat :=
  match pids[pid]? with
  | none => (pids.insert pid [], 0)
  | some values =>
    let values := values.filter (· ≠ value)
    if values = [] then (pids.erase pid, 0) else (pids.insert pid values, values.length)

/-- `add`. -/
def add (watch : Watch) (pid : Pid) (db : Int) (key : Bytes) (ref : Ref) : Except Reason Watch :=
  if watch.keyToPids.registered db key pid then .error (.text "already_registered")
  else .ok { watch with
    keyToPids := watch.keyToPids.put db key pid ref
    pidToKeys := noteValue watch.pidToKeys pid (db, key) }

/-- `ensure_pid_idx`. -/
def ensurePidIdx [Runtime] (watch : Watch) (pid : Pid) : Int × Watch :=
  match watch.idxByPid[pid]? with
  | some idx => (idx, watch)
  | none =>
    let idx := Runtime.uniqueInteger watch.issued
    (idx, { watch with
      pidByIdx := watch.pidByIdx.insert idx pid
      idxByPid := watch.idxByPid.insert pid idx
      issued := watch.issued + 1 })

/-- `add_prefix`. -/
def addPrefix [Runtime] (watch : Watch) (pid : Pid) (db : Int) (pre : Bytes) (ref : Ref) :
    Except Reason Watch :=
  if watch.prefixToPids.registered db pre pid then .error (.text "already_registered")
  else
    let (idx, watch) := ensurePidIdx watch pid
    match decodeU64 db with
    | none => .error .raised
    | some treeDb => .ok { watch with
        prefixTree := watch.prefixTree.insert treeDb pre idx
        prefixToPids := watch.prefixToPids.put db pre pid ref
        pidToPrefixes := noteValue watch.pidToPrefixes pid (db, pre) }

/-- `exact_watch_count`, and `prefix_watch_count`. -/
def watchCount (pids : Std.ExtTreeMap Pid (List (Int × Bytes)) compare) (pid : Pid) : Nat :=
  (pids[pid]?.getD []).length

/-- `delete`, with the number of watches that the process has left. -/
def delete (watch : Watch) (pid : Pid) (db : Int) (key : Bytes) : Except Reason (Watch × Nat) :=
  if watch.keyToPids.registered db key pid then
    let dropped := dropValue watch.pidToKeys pid (db, key)
    .ok ({ watch with keyToPids := watch.keyToPids.deletePid db key pid, pidToKeys := dropped.1 },
      dropped.2 + watchCount watch.pidToPrefixes pid)
  else .error (.text "not_found")

/-- `delete_prefix`. A process without an index, or a database that the tree does not take,
raises. -/
def deletePrefix (watch : Watch) (pid : Pid) (db : Int) (pre : Bytes) :
    Except Reason (Watch × Nat) :=
  if watch.prefixToPids.registered db pre pid then
    match watch.idxByPid[pid]?, decodeU64 db with
    | some idx, some treeDb =>
      let dropped := dropValue watch.pidToPrefixes pid (db, pre)
      let left := { watch with
        prefixTree := watch.prefixTree.delete treeDb pre idx
        prefixToPids := watch.prefixToPids.deletePid db pre pid }
      let left :=
        if dropped.2 = 0 then { left with
          pidToPrefixes := dropped.1.erase pid
          pidByIdx := watch.pidByIdx.erase idx
          idxByPid := watch.idxByPid.erase pid }
        else { left with pidToPrefixes := dropped.1 }
      .ok (left, watchCount watch.pidToKeys pid + dropped.2)
    | _, _ => .error .raised
  else .error (.text "not_found")

/-- The removal of the prefixes of a process from the tree. -/
def deleteFromTree (tree : PrefixWatchTree) (idx : Option Int) (values : List (Int × Bytes)) :
    PrefixWatchTree :=
  values.foldl (fun tree (db, pre) =>
    match idx, decodeU64 db with
    | some idx, some treeDb => tree.delete treeDb pre idx
    | _, _ => tree) tree

/-- `delete_all`. -/
def deleteAll (watch : Watch) (pid : Pid) : Watch :=
  let dbKeys := watch.pidToKeys[pid]?.getD []
  let dbPrefixes := watch.pidToPrefixes[pid]?.getD []
  let idx := watch.idxByPid[pid]?
  { watch with
    keyToPids := dbKeys.foldl (fun m (db, key) => m.deletePid db key pid) watch.keyToPids
    pidToKeys := watch.pidToKeys.erase pid
    prefixTree := deleteFromTree watch.prefixTree idx dbPrefixes
    prefixToPids := dbPrefixes.foldl (fun m (db, pre) => m.deletePid db pre pid) watch.prefixToPids
    pidToPrefixes := watch.pidToPrefixes.erase pid
    pidByIdx := match idx with
      | some idx => watch.pidByIdx.erase idx
      | none => watch.pidByIdx
    idxByPid := watch.idxByPid.erase pid }

/-- `lookup`. -/
def lookup (watch : Watch) (db : Int) (key : Bytes) : List (Ref × Pid) :=
  (watch.keyToPids.pids db key).toList.map fun (pid, ref) => (ref, pid)

/-- The watches of prefixes of the key that a process has: the term `nil` counts as none. -/
def prefixRefs (watch : Watch) (db : Int) (key : Bytes) (pid : Pid) : List (Ref × Pid) :=
  (watch.pidToPrefixes[pid]?.getD []).flatMap fun (db', pre) =>
    if db' = db ∧ pre <+: key then
      match watch.prefixToPids.refOf db pre pid with
      | none => []
      | some .nil => []
      | some ref => [(ref, pid)]
    else []

/-- `lookup_prefix`: the tree raises on a database that it does not take. -/
def lookupPrefix (watch : Watch) (db : Int) (key : Bytes) : Except Reason (List (Ref × Pid)) :=
  match decodeU64 db with
  | none => .error .raised
  | some treeDb => .ok ((watch.prefixTree.lookup treeDb key).flatMap fun idx =>
      match watch.pidByIdx[idx]? with
      | none => []
      | some pid => watch.prefixRefs db key pid).eraseDups

/-- `all_watchers`. -/
def allWatchers (watch : Watch) : List (Pid × Ref) :=
  (watch.keyToPids.toList.flatMap (fun (_, dbMap) => Registrations.watchers dbMap) ++
    watch.prefixToPids.toList.flatMap fun (_, dbMap) => Registrations.watchers dbMap).eraseDups

/-- `lookup_by_db`. -/
def lookupByDb (watch : Watch) (db : Int) : List (Ref × Pid) :=
  ((Registrations.watchers (watch.keyToPids[db]?.getD ∅) ++
    Registrations.watchers (watch.prefixToPids[db]?.getD ∅)).map
      fun (pid, ref) => (ref, pid)).eraseDups

/-! ## How the maps and the tree are linked -/

/-- The watches by key and by process are the same ones, every process with watches of prefixes has
an index of its own, and the tree holds the index of each of these watches, and nothing else. -/
structure Linked [Runtime] (watch : Watch) : Prop where
  keys : ∀ db key pid, (watch.keyToPids.refOf db key pid).isSome ↔
    (db, key) ∈ watch.pidToKeys[pid]?.getD []
  prefixes : ∀ db pre pid, (watch.prefixToPids.refOf db pre pid).isSome ↔
    (db, pre) ∈ watch.pidToPrefixes[pid]?.getD []
  index : ∀ (idx : Int) (pid : Pid), watch.pidByIdx[idx]? = some pid ↔
    watch.idxByPid[pid]? = some idx
  issued : ∀ (pid : Pid) idx, watch.idxByPid[pid]? = some idx →
    ∃ n < watch.issued, Runtime.uniqueInteger n = idx
  indexed : ∀ db pre pid, (watch.prefixToPids.refOf db pre pid).isSome →
    (watch.idxByPid[pid]?).isSome ∧ (decodeU64 db).isSome
  tree : ∀ (db : Nat) pre idx, watch.prefixTree.Holds db pre idx ↔
    ∃ pid : Pid, watch.idxByPid[pid]? = some idx ∧ (watch.prefixToPids.refOf db pre pid).isSome

section Sets
variable (pids : Std.ExtTreeMap Pid (List (Int × Bytes)) compare) (pid pid' : Pid)
  (value value' : Int × Bytes)

/-- A value is noted for its process. -/
lemma mem_noteValue : value' ∈ (noteValue pids pid value)[pid']?.getD [] ↔
    pid' = pid ∧ value' = value ∨ value' ∈ pids[pid']?.getD [] := by
  rw [noteValue, Std.ExtTreeMap.getElem?_insert]
  by_cases same : pid' = pid
  · subst same
    simp
  · simp [same, Ne.symm same]

/-- A value is dropped from those of its process. -/
lemma getElem_dropValue : (dropValue pids pid value).1[pid']?.getD [] =
    if pid' = pid then (pids[pid]?.getD []).filter (· ≠ value) else pids[pid']?.getD [] := by
  unfold dropValue
  by_cases same : pid' = pid
  · subst same
    cases e : pids[pid']? with
    | none => simp
    | some values =>
      simp only
      split
      · rename_i gone
        rw [if_pos trivial, Option.getD_some, gone, Std.ExtTreeMap.getElem?_erase_self]
        rfl
      · simp
  · cases e : pids[pid]? with
    | none => simp [same, Ne.symm same, Std.ExtTreeMap.getElem?_insert]
    | some values =>
      simp only
      split
      · simp [Ne.symm same, Std.ExtTreeMap.getElem?_erase]
      · simp [Ne.symm same, Std.ExtTreeMap.getElem?_insert]

/-- A value that is dropped is no longer noted. -/
lemma mem_dropValue : value' ∈ (dropValue pids pid value).1[pid']?.getD [] ↔
    value' ∈ pids[pid']?.getD [] ∧ ¬ (pid' = pid ∧ value' = value) := by
  rw [getElem_dropValue]
  by_cases same : pid' = pid
  · subst same
    simp
  · simp [same]

/-- The count is that of the values that are left. -/
lemma dropValue_count :
    (dropValue pids pid value).2 = ((dropValue pids pid value).1[pid]?.getD []).length := by
  rw [getElem_dropValue, if_pos rfl]
  unfold dropValue
  cases e : pids[pid]? with
  | none => simp
  | some values =>
    simp only
    split
    · rename_i gone
      rw [Option.getD_some, gone]
      rfl
    · rfl

end Sets

/-! ### Removals -/

/-- The watches of a process are removed one after the other. -/
lemma refOf_deletePids (m : Registrations) (values : List (Int × Bytes)) (pid : Pid) (db' : Int)
    (value' : Bytes) (pid' : Pid) :
    (values.foldl (fun m (db, value) => m.deletePid db value pid) m).refOf db' value' pid' =
      if pid' = pid ∧ (db', value') ∈ values then none else m.refOf db' value' pid' := by
  induction values generalizing m with
  | nil => simp
  | cons first rest ih =>
    obtain ⟨db, value⟩ := first
    rw [List.foldl_cons, ih, Registrations.refOf_deletePid]
    by_cases same : pid' = pid
    · by_cases here : db' = db ∧ value' = value
      · simp [same, here]
      · by_cases later : (db', value') ∈ rest
        · simp [same, later]
        · simp [same, later, here]
    · simp [same]

/-- The tree holds what it held, without the prefixes of the index. -/
lemma holds_deleteFromTree (tree : PrefixWatchTree) {idx : Option Int} {values : List (Int × Bytes)}
    (valid : ∀ p ∈ values, (decodeU64 p.1).isSome) (db' : Nat) (pre' : Bytes) (idx' : Int) :
    (deleteFromTree tree idx values).Holds db' pre' idx' ↔
      tree.Holds db' pre' idx' ∧ ¬ (idx = some idx' ∧ ((db' : Int), pre') ∈ values) := by
  unfold deleteFromTree
  induction values generalizing tree with
  | nil => simp
  | cons first rest ih =>
    obtain ⟨db, pre⟩ := first
    rw [List.foldl_cons, ih _ fun p mem => valid p (List.mem_cons_of_mem _ mem)]
    obtain ⟨n, here⟩ := Option.isSome_iff_exists.mp (valid (db, pre) List.mem_cons_self)
    simp only at here
    obtain ⟨rfl, -⟩ := decodeU64_eq_some.mp here
    cases idx with
    | none => simp
    | some idx =>
      simp only [here, PrefixWatchTree.holds_delete, Option.some.injEq, List.mem_cons,
        Prod.mk.injEq, Int.natCast_inj]
      constructor
      · rintro ⟨⟨h, other⟩, later⟩
        refine ⟨h, ?_⟩
        rintro ⟨rfl, ⟨rfl, rfl⟩ | mem⟩
        · exact other ⟨rfl, rfl, rfl⟩
        · exact later ⟨rfl, mem⟩
      · rintro ⟨h, nowhere⟩
        refine ⟨⟨h, ?_⟩, ?_⟩
        · rintro ⟨rfl, rfl, rfl⟩
          exact nowhere ⟨rfl, .inl ⟨rfl, rfl⟩⟩
        · rintro ⟨rfl, mem⟩
          exact nowhere ⟨rfl, .inr mem⟩

/-- What `delete_all` leaves of the watches by value: those of the other processes. -/
lemma refOf_deleteAll {m : Registrations} {pids : Std.ExtTreeMap Pid (List (Int × Bytes)) compare}
    (same : ∀ db value pid, (m.refOf db value pid).isSome ↔ (db, value) ∈ pids[pid]?.getD [])
    (pid : Pid) (db' : Int) (value' : Bytes) (pid' : Pid) :
    ((pids[pid]?.getD []).foldl (fun m (db, value) => m.deletePid db value pid) m).refOf
      db' value' pid' =
      if pid' = pid then none else m.refOf db' value' pid' := by
  rw [refOf_deletePids]
  by_cases here : pid' = pid
  · subst here
    by_cases mem : (db', value') ∈ pids[pid']?.getD []
    · simp [mem]
    · have absent : m.refOf db' value' pid' = none := by
        rwa [← same, Bool.not_eq_true, Option.isSome_eq_false_iff, Option.isNone_iff_eq_none] at mem
      simp [absent]
  · simp [here]

/-! ### The operations -/

section Linked
variable [Runtime] {watch watch' : Watch} {pid : Pid} {db : Int} {value : Bytes} {ref : Ref}
  {count : Nat}

/-- Empty tables are linked. -/
lemma create_linked : create.Linked where
  keys db key pid := by simp [create, Registrations.refOf_empty]
  prefixes db pre pid := by simp [create, Registrations.refOf_empty]
  index idx pid := by simp [create]
  issued pid idx h := by simp [create] at h
  indexed db pre pid h := by simp [create, Registrations.refOf_empty] at h
  tree db pre idx := by simp [create, PrefixWatchTree.not_holds_create]

/-- A new watch keeps the tables linked. -/
lemma add_linked (linked : watch.Linked) (h : watch.add pid db value ref = .ok watch') :
    watch'.Linked := by
  unfold add at h
  split at h
  · cases h
  · cases h
    refine { linked with keys := fun db' key' pid' => ?_ }
    rw [Registrations.refOf_put, mem_noteValue, ← linked.keys]
    by_cases here : db' = db ∧ key' = value ∧ pid' = pid
    · simp [here]
    · rw [if_neg here]
      constructor
      · exact .inr
      · rintro (⟨rfl, eq⟩ | h)
        · exact absurd ⟨(Prod.mk.inj eq).1, (Prod.mk.inj eq).2, rfl⟩ here
        · exact h

/-- An integer that was not issued yet stands for no process. -/
lemma fresh_index (linked : watch.Linked) (pid : Pid) :
    watch.idxByPid[pid]? ≠ some (Runtime.uniqueInteger watch.issued) := by
  intro eq
  obtain ⟨n, lt, same⟩ := linked.issued pid _ eq
  exact absurd (Runtime.injective same) (Nat.ne_of_lt lt)

/-- An index for a process keeps the tables linked. -/
lemma ensurePidIdx_linked (linked : watch.Linked) (pid : Pid) :
    (watch.ensurePidIdx pid).2.Linked ∧
      (watch.ensurePidIdx pid).2.idxByPid[pid]? = some (watch.ensurePidIdx pid).1 := by
  unfold ensurePidIdx
  cases e : watch.idxByPid[pid]? with
  | some idx => exact ⟨linked, e⟩
  | none =>
    -- a new index, which no process has
    have fresh := fresh_index linked
    refine ⟨{ linked with index := ?_, issued := ?_, indexed := ?_, tree := ?_ }, by simp⟩
    · intro idx pid'
      rw [Std.ExtTreeMap.getElem?_insert, Std.ExtTreeMap.getElem?_insert]
      simp only [Std.LawfulEqCmp.compare_eq_iff_eq]
      by_cases same : Runtime.uniqueInteger watch.issued = idx
      · subst same
        by_cases here : pid = pid'
        · simp [here]
        · simpa [here] using fresh pid'
      · by_cases here : pid = pid'
        · subst here
          have other := linked.index idx pid
          rw [e] at other
          simpa [same] using other
        · simpa [same, here] using linked.index idx pid'
    · intro pid' idx h
      rw [Std.ExtTreeMap.getElem?_insert] at h
      split at h
      · exact ⟨watch.issued, Nat.lt_succ_self _, Option.some.inj h⟩
      · obtain ⟨n, lt, same⟩ := linked.issued pid' idx h
        exact ⟨n, Nat.lt_succ_of_lt lt, same⟩
    · intro db pre pid' h
      obtain ⟨has, valid⟩ := linked.indexed db pre pid' h
      refine ⟨?_, valid⟩
      rw [Std.ExtTreeMap.getElem?_insert]
      split
      · rfl
      · exact has
    · intro db pre idx
      rw [linked.tree]
      constructor
      · rintro ⟨pid', here, h⟩
        refine ⟨pid', ?_, h⟩
        rw [Std.ExtTreeMap.getElem?_insert, if_neg, here]
        intro eq
        rw [Std.LawfulEqCmp.compare_eq_iff_eq] at eq
        subst eq
        rw [e] at here
        cases here
      · rintro ⟨pid', here, h⟩
        rw [Std.ExtTreeMap.getElem?_insert] at here
        split at here
        · rename_i eq
          rw [Std.LawfulEqCmp.compare_eq_iff_eq] at eq
          subst eq
          obtain ⟨has, _⟩ := linked.indexed _ _ _ h
          rw [e] at has
          cases has
        · exact ⟨pid', here, h⟩

/-- Two processes have different indexes. -/
lemma index_inj (linked : watch.Linked) {pid pid' : Pid} {idx : Int}
    (h : watch.idxByPid[pid]? = some idx) (h' : watch.idxByPid[pid']? = some idx) : pid' = pid := by
  rw [← linked.index] at h h'
  rw [h] at h'
  exact (Option.some.inj h').symm

/-- A new prefix watch keeps the tables linked. -/
lemma addPrefix_linked (linked : watch.Linked) (h : watch.addPrefix pid db value ref = .ok watch') :
    watch'.Linked := by
  unfold addPrefix at h
  split at h
  · cases h
  · obtain ⟨linked, index⟩ := ensurePidIdx_linked linked pid
    obtain ⟨idx, watch⟩ := watch.ensurePidIdx pid
    simp only at h linked index
    cases valid : decodeU64 db with
    | none =>
      rw [valid] at h
      cases h
    | some n =>
      rw [valid] at h
      cases h
      obtain ⟨rfl, _⟩ := decodeU64_eq_some.mp valid
      refine { linked with prefixes := ?_, indexed := ?_, tree := ?_ }
      · intro db' pre' pid'
        rw [Registrations.refOf_put, mem_noteValue, ← linked.prefixes]
        by_cases here : db' = n ∧ pre' = value ∧ pid' = pid
        · simp [here]
        · rw [if_neg here]
          constructor
          · exact .inr
          · rintro (⟨rfl, eq⟩ | h)
            · exact absurd ⟨(Prod.mk.inj eq).1, (Prod.mk.inj eq).2, rfl⟩ here
            · exact h
      · intro db' pre' pid' h
        rw [Registrations.refOf_put] at h
        split at h
        · rename_i here
          obtain ⟨rfl, rfl, rfl⟩ := here
          exact ⟨by rw [index]; rfl, by rw [valid]; rfl⟩
        · exact linked.indexed db' pre' pid' h
      · -- the tree keeps its nodes and gets the one of this watch
        intro db' pre' idx'
        rw [PrefixWatchTree.holds_insert, linked.tree]
        constructor
        · rintro (⟨rfl, rfl, rfl⟩ | ⟨pid', here, h⟩)
          · exact ⟨pid, index, by simp [Registrations.refOf_put]⟩
          · refine ⟨pid', here, ?_⟩
            rw [Registrations.refOf_put]
            split
            · rfl
            · exact h
        · rintro ⟨pid', here, h⟩
          rw [Registrations.refOf_put] at h
          split at h
          · rename_i same
            obtain ⟨eq, rfl, rfl⟩ := same
            rw [index] at here
            exact .inl ⟨Int.ofNat.inj eq, rfl, (Option.some.inj here).symm⟩
          · exact .inr ⟨pid', here, h⟩

/-- A deleted watch leaves the tables linked. -/
lemma delete_linked (linked : watch.Linked) (h : watch.delete pid db value = .ok (watch', count)) :
    watch'.Linked := by
  unfold delete at h
  split at h
  · cases h
    refine { linked with keys := fun db' key' pid' => ?_ }
    rw [Registrations.refOf_deletePid, mem_dropValue, ← linked.keys]
    by_cases here : db' = db ∧ key' = value ∧ pid' = pid
    · simp [here]
    · rw [if_neg here]
      refine ⟨fun h => ⟨h, ?_⟩, fun h => h.1⟩
      rintro ⟨rfl, eq⟩
      exact here ⟨(Prod.mk.inj eq).1, (Prod.mk.inj eq).2, rfl⟩
  · cases h

/-- A process gives up its index. -/
lemma index_erase (linked : watch.Linked) {idx : Int} (index : watch.idxByPid[pid]? = some idx)
    (idx' : Int) (pid' : Pid) :
    (watch.pidByIdx.erase idx)[idx']? = some pid' ↔
      (watch.idxByPid.erase pid)[pid']? = some idx' := by
  rw [Std.ExtTreeMap.getElem?_erase, Std.ExtTreeMap.getElem?_erase]
  simp only [Std.LawfulEqCmp.compare_eq_iff_eq]
  by_cases here : pid = pid'
  · subst here
    by_cases same : idx = idx'
    · simp [same]
    · have other := linked.index idx' pid
      rw [index] at other
      simpa [same] using other
  · by_cases same : idx = idx'
    · subst same
      simpa [here] using fun h => here (index_inj linked h index)
    · simpa [same, here] using linked.index idx' pid'

/-- The tree goes with the registrations. -/
lemma tree_delete (linked : watch.Linked) {idx : Int} {n : Nat}
    (index : watch.idxByPid[pid]? = some idx) (db' : Nat) (pre' : Bytes) (idx' : Int) :
    (watch.prefixTree.delete n value idx).Holds db' pre' idx' ↔
      ∃ pid' : Pid, watch.idxByPid[pid']? = some idx' ∧
      ((watch.prefixToPids.deletePid n value pid).refOf db' pre' pid').isSome := by
  rw [PrefixWatchTree.holds_delete, linked.tree]
  constructor
  · rintro ⟨⟨pid', here, h⟩, other⟩
    refine ⟨pid', here, ?_⟩
    rw [Registrations.refOf_deletePid, if_neg, h]
    rintro ⟨eq, rfl, rfl⟩
    rw [index] at here
    exact other ⟨Int.ofNat.inj eq, rfl, (Option.some.inj here).symm⟩
  · rintro ⟨pid', here, h⟩
    rw [Registrations.refOf_deletePid] at h
    split at h
    · cases h
    · rename_i other
      refine ⟨⟨pid', here, h⟩, ?_⟩
      rintro ⟨rfl, rfl, rfl⟩
      exact other ⟨rfl, rfl, index_inj linked index here⟩

/-- A deleted prefix watch leaves the tables linked. -/
lemma deletePrefix_linked (linked : watch.Linked)
    (h : watch.deletePrefix pid db value = .ok (watch', count)) : watch'.Linked := by
  unfold deletePrefix at h
  split at h
  · cases index : watch.idxByPid[pid]? with
    | none =>
      rw [index] at h
      cases h
    | some idx =>
      cases valid : decodeU64 db with
      | none =>
        rw [index, valid] at h
        cases h
      | some n =>
        rw [index, valid] at h
        simp only [Except.ok.injEq, Prod.mk.injEq] at h
        obtain ⟨rfl, -⟩ := decodeU64_eq_some.mp valid
        obtain ⟨rfl, -⟩ := h
        -- both maps lose this watch and no other
        have prefixes (db' : Int) (pre' : Bytes) (pid' : Pid) :
            ((watch.prefixToPids.deletePid n value pid).refOf db' pre' pid').isSome ↔
              (db', pre') ∈ (dropValue watch.pidToPrefixes pid (n, value)).1[pid']?.getD [] := by
          rw [Registrations.refOf_deletePid, mem_dropValue, ← linked.prefixes]
          by_cases here : db' = n ∧ pre' = value ∧ pid' = pid
          · simp [here]
          · rw [if_neg here]
            refine ⟨fun h => ⟨h, ?_⟩, fun h => h.1⟩
            rintro ⟨rfl, eq⟩
            exact here ⟨(Prod.mk.inj eq).1, (Prod.mk.inj eq).2, rfl⟩
        have kept (db' : Int) (pre' : Bytes) (pid' : Pid)
            (h : ((watch.prefixToPids.deletePid n value pid).refOf db' pre' pid').isSome) :
            (watch.prefixToPids.refOf db' pre' pid').isSome := by
          rw [Registrations.refOf_deletePid] at h
          split at h
          · cases h
          · exact h
        have tree (db' : Nat) (pre' : Bytes) (idx' : Int) :=
            @tree_delete _ watch pid value linked idx n index db' pre' idx'
        split
        · rename_i gone
          -- no watch of a prefix is left to the process
          have nobody (db' : Int) (pre' : Bytes) :
              ¬ ((watch.prefixToPids.deletePid n value pid).refOf db' pre' pid).isSome := by
            rw [dropValue_count, List.length_eq_zero_iff] at gone
            rw [prefixes, gone]
            exact List.not_mem_nil
          refine { linked with
            prefixes := ?_, index := ?_, issued := ?_, indexed := ?_, tree := ?_ }
          · intro db' pre' pid'
            rw [Std.ExtTreeMap.getElem?_erase]
            by_cases here : pid = pid'
            · subst here
              simpa using nobody db' pre'
            · simpa [here] using prefixes db' pre' pid'
          · exact index_erase linked index
          · intro pid' idx' h
            rw [Std.ExtTreeMap.getElem?_erase] at h
            split at h
            · cases h
            · exact linked.issued pid' idx' h
          · intro db' pre' pid' h
            obtain ⟨has, valid⟩ := linked.indexed db' pre' pid' (kept db' pre' pid' h)
            refine ⟨?_, valid⟩
            rw [Std.ExtTreeMap.getElem?_erase]
            split
            · rename_i eq
              rw [Std.LawfulEqCmp.compare_eq_iff_eq] at eq
              subst eq
              exact absurd h (nobody db' pre')
            · exact has
          · intro db' pre' idx'
            refine (tree db' pre' idx').trans ⟨?_, ?_⟩
            · rintro ⟨pid', here, h⟩
              refine ⟨pid', ?_, h⟩
              rw [Std.ExtTreeMap.getElem?_erase, if_neg, here]
              intro eq
              rw [Std.LawfulEqCmp.compare_eq_iff_eq] at eq
              subst eq
              exact nobody _ _ h
            · rintro ⟨pid', here, h⟩
              rw [Std.ExtTreeMap.getElem?_erase] at here
              split at here
              · cases here
              · exact ⟨pid', here, h⟩
        · -- another prefix is left, so the process keeps its index
          exact { linked with
            prefixes
            indexed := fun db' pre' pid' h => linked.indexed db' pre' pid' (kept db' pre' pid' h)
            tree }
  · cases h

/-- A process without watches leaves the tables linked. -/
lemma deleteAll_linked (linked : watch.Linked) (pid : Pid) : (watch.deleteAll pid).Linked := by
  have others (m : Registrations) (pids : Std.ExtTreeMap Pid (List (Int × Bytes)) compare)
      (same : ∀ db value pid, (m.refOf db value pid).isSome ↔ (db, value) ∈ pids[pid]?.getD [])
      (db' : Int) (value' : Bytes) (pid' : Pid) :
      (((pids[pid]?.getD []).foldl (fun m (db, value) => m.deletePid db value pid) m).refOf
        db' value' pid').isSome ↔ (db', value') ∈ (pids.erase pid)[pid']?.getD [] := by
    rw [refOf_deleteAll same, Std.ExtTreeMap.getElem?_erase]
    by_cases here : pid' = pid
    · simp [here]
    · simpa [here, Ne.symm here] using same db' value' pid'
  have left (db' : Int) (pre' : Bytes) (pid' : Pid) :
      (((watch.pidToPrefixes[pid]?.getD []).foldl (fun m (db, pre) => m.deletePid db pre pid)
        watch.prefixToPids).refOf db' pre' pid').isSome ↔
        pid' ≠ pid ∧ (watch.prefixToPids.refOf db' pre' pid').isSome := by
    rw [refOf_deleteAll linked.prefixes]
    by_cases here : pid' = pid
    · simp [here]
    · simp [here]
  have valid : ∀ p ∈ watch.pidToPrefixes[pid]?.getD [], (decodeU64 p.1).isSome := fun p mem =>
    (linked.indexed p.1 p.2 pid ((linked.prefixes _ _ _).mpr mem)).2
  have erased (pid' : Pid) : (watch.idxByPid.erase pid)[pid']? =
      if pid' = pid then none else watch.idxByPid[pid']? := by
    rw [Std.ExtTreeMap.getElem?_erase]
    by_cases here : pid' = pid
    · simp [here]
    · simp [here, Ne.symm here]
  refine {
    keys := others _ _ linked.keys
    prefixes := others _ _ linked.prefixes
    index := ?_
    issued := ?_
    indexed := ?_
    tree := ?_ }
  · intro idx' pid'
    unfold deleteAll
    cases index : watch.idxByPid[pid]? with
    | some idx => exact index_erase linked index idx' pid'
    | none =>
      simp only
      rw [erased, linked.index]
      split
      · rename_i here
        simp [here, index]
      · rfl
  · intro pid' idx' h
    rw [deleteAll, erased] at h
    split at h
    · cases h
    · exact linked.issued pid' idx' h
  · intro db' pre' pid' h
    obtain ⟨other, held⟩ := (left db' pre' pid').mp h
    rw [deleteAll, erased, if_neg other]
    exact linked.indexed db' pre' pid' held
  · intro db' pre' idx'
    rw [deleteAll, holds_deleteFromTree _ valid, linked.tree]
    simp only [erased, left]
    constructor
    · rintro ⟨⟨pid', here, held⟩, kept⟩
      have other : pid' ≠ pid := by
        rintro rfl
        exact kept ⟨here, (linked.prefixes _ _ _).mp held⟩
      exact ⟨pid', by rw [if_neg other, here], other, held⟩
    · -- an index is never shared, so nothing of another process is taken out of the tree
      rintro ⟨pid', here, other, held⟩
      rw [if_neg other] at here
      refine ⟨⟨pid', here, held⟩, ?_⟩
      rintro ⟨own, -⟩
      exact other (index_inj linked own here)

end Linked

/-! ## What the lookups find -/

section Lookups
variable {watch : Watch} {pid : Pid} {ref : Ref}

/-- The watchers of a key are registered for it. -/
lemma mem_lookup (db : Int) (key : Bytes) :
    (ref, pid) ∈ watch.lookup db key ↔ watch.keyToPids.refOf db key pid = some ref := by
  simp [lookup, Registrations.refOf, Std.ExtTreeMap.mem_toList_iff_getElem?_eq_some]

/-- The prefix watches of a process that match the key. -/
lemma mem_prefixRefs (db : Int) (key : Bytes) {pid' : Pid} :
    (ref, pid) ∈ watch.prefixRefs db key pid' ↔ pid = pid' ∧ ref ≠ .nil ∧
      ∃ pre, (db, pre) ∈ watch.pidToPrefixes[pid']?.getD [] ∧ pre <+: key ∧
        watch.prefixToPids.refOf db pre pid' = some ref := by
  unfold prefixRefs
  simp only [List.mem_flatMap, Prod.exists]
  constructor
  · rintro ⟨db', pre, mem, found⟩
    split at found
    · rename_i here
      obtain ⟨rfl, sub⟩ := here
      split at found
      · cases found
      · cases found
      · rename_i ref' known e
        obtain ⟨rfl, rfl⟩ := Prod.mk.inj (List.mem_singleton.mp found)
        exact ⟨rfl, known, pre, mem, sub, e⟩
    · cases found
  · rintro ⟨rfl, known, pre, mem, sub, e⟩
    refine ⟨db, pre, mem, ?_⟩
    rw [if_pos ⟨rfl, sub⟩, e]
    cases ref with
    | nil => exact absurd rfl known
    | no => exact List.mem_singleton.mpr rfl
    | term t => exact List.mem_singleton.mpr rfl

/-- A lookup finds the watches of all prefixes of the key, except those that carry `nil`. -/
lemma mem_lookupPrefix [Runtime] (linked : watch.Linked) {db : Nat} (small : db < 2 ^ 64)
    (key : Bytes) :
    ∃ found, watch.lookupPrefix db key = .ok found ∧ ∀ ref pid, (ref, pid) ∈ found ↔ ref ≠ .nil ∧
      ∃ pre, pre <+: key ∧ watch.prefixToPids.refOf db pre pid = some ref := by
  have valid : decodeU64 db = some db := if_pos small
  unfold lookupPrefix
  rw [valid]
  refine ⟨_, rfl, fun ref pid => ?_⟩
  rw [List.mem_eraseDups, List.mem_flatMap]
  constructor
  · rintro ⟨idx, -, found⟩
    split at found
    · cases found
    · obtain ⟨rfl, known, pre, -, sub, e⟩ := (mem_prefixRefs db key).mp found
      exact ⟨known, pre, sub, e⟩
  · rintro ⟨known, pre, sub, e⟩
    have held : (watch.prefixToPids.refOf db pre pid).isSome := by rw [e]; rfl
    obtain ⟨has, -⟩ := linked.indexed db pre pid held
    obtain ⟨idx, index⟩ := Option.isSome_iff_exists.mp has
    refine ⟨idx, ?_, ?_⟩
    · exact (watch.prefixTree.mem_lookup db key idx).mpr ⟨pre, sub, (linked.tree db pre idx).mpr
        ⟨pid, index, held⟩⟩
    · rw [(linked.index idx pid).mpr index]
      exact (mem_prefixRefs db key).mpr ⟨rfl, known, pre, (linked.prefixes _ _ _).mp held, sub, e⟩

/-- The watchers of a database are registered in it. -/
lemma mem_lookupByDb (db : Int) : (ref, pid) ∈ watch.lookupByDb db ↔
    (∃ key, watch.keyToPids.refOf db key pid = some ref) ∨
      ∃ pre, watch.prefixToPids.refOf db pre pid = some ref := by
  unfold lookupByDb
  rw [List.mem_eraseDups, List.mem_map]
  simp only [List.mem_append, Prod.exists, Prod.mk.injEq, ← Registrations.mem_watchers_getElem]
  constructor
  · rintro ⟨pid', ref', found, rfl, rfl⟩
    exact found
  · exact fun found => ⟨pid, ref, found, rfl, rfl⟩

/-- All watchers are registered somewhere. -/
lemma mem_allWatchers : (pid, ref) ∈ watch.allWatchers ↔
    (∃ db key, watch.keyToPids.refOf db key pid = some ref) ∨
      ∃ db pre, watch.prefixToPids.refOf db pre pid = some ref := by
  have all (m : Registrations) : (pid, ref) ∈ m.toList.flatMap
    (fun (_, dbMap) => Registrations.watchers dbMap) ↔
      ∃ db value, m.refOf db value pid = some ref := by
    simp only [List.mem_flatMap, Prod.exists, Std.ExtTreeMap.mem_toList_iff_getElem?_eq_some]
    constructor
    · rintro ⟨db, dbMap, e, found⟩
      obtain ⟨value, held⟩ :=
        (Registrations.mem_watchers_getElem m db pid ref).mp (by rw [e]; exact found)
      exact ⟨db, value, held⟩
    · rintro ⟨db, value, held⟩
      have found := (Registrations.mem_watchers_getElem m db pid ref).mpr ⟨value, held⟩
      cases e : m[db]? with
      | none => simp [e, Registrations.watchers] at found
      | some dbMap => exact ⟨db, dbMap, e, by rwa [e] at found⟩
  rw [allWatchers, List.mem_eraseDups, List.mem_append, all, all]

end Lookups

end Watch

end Veidrodelis
