import Veidrodelis.Lib.Footprints
import Veidrodelis.TsNif.Footprint
import Veidrodelis.TsNif.WritePanics

/-!
# Where commands read and write

Each command has its footprint in the storage (`execute_footprint`): what it answers and what it
leaves depends only on what the keys are bound to that it reads, and no key changes but those that
it writes. So the rules for footprints hold of batches: commands that have nothing to do with each
other may change places.
-/

namespace Veidrodelis.TsNif
open RedisNif (Fault)
open RedisStream (Command)

/-- What a key of a database is bound to. -/
def slotAt (s : StorageInner) (p : Nat × Bytes) : Slot := s.lookup p.1 p.2

/-- Some keys of a database. -/
def keysOf (db : Nat) (keys : List Bytes) : Set (Nat × Bytes) := {p | p.1 = db ∧ p.2 ∈ keys}

section
variable {db : Nat} {keys keys' : List Bytes} {s t : StorageInner}

/-- More keys of a database are more places. -/
lemma keysOf_mono (sub : keys ⊆ keys') : keysOf db keys ⊆ keysOf db keys' :=
  fun _ mem => ⟨mem.1, sub mem.2⟩

/-- A key is among its places. -/
lemma mem_keysOf {key : Bytes} (mem : key ∈ keys) : (db, key) ∈ keysOf db keys := ⟨rfl, mem⟩

/-- The first key, or one of the others. -/
lemma keysOf_cons (key : Bytes) : keysOf db (key :: keys) = keysOf db [key] ∪ keysOf db keys := by
  ext p
  simp [keysOf, and_or_left]

/-- A place outside of a key is another one. -/
lemma not_mem_keysOf_singleton {key : Bytes} {p : Nat × Bytes} (outside : p ∉ keysOf db [key]) :
    ¬ (p.1 = db ∧ p.2 = key) :=
  fun same => outside ⟨same.1, List.mem_singleton.mpr same.2⟩

/-- Storages that are alike at keys bind them alike. -/
lemma lookup_alike (same : Alike slotAt (keysOf db keys) s t) {key : Bytes} (mem : key ∈ keys) :
    s.lookup db key = t.lookup db key :=
  same (db, key) (mem_keysOf mem)

end

/-! ## What commands read and write -/

/-- The keys of its own database that decide what a command does. -/
def keysRead : Command → List Bytes
  | .copy source destination _ => [source, destination]
  | .rename oldKey newKey | .renamenx oldKey newKey => [oldKey, newKey]
  | .append key _ | .setrange key _ _ | .incr key | .incrby key _ | .decr key
  | .decrby key _ => [key]
  | .lpush key _ | .rpush key _ | .lpushx key _ | .rpushx key _ | .lpop key | .lpopCount key _
  | .rpop key
  | .rpopCount key _ | .lrem key _ _ | .ltrim key _ _ | .lset key _ _ | .linsert key _ _ _ => [key]
  | .rpoplpush source destination | .lmove source destination _ _
  | .smove source destination _ => [source, destination]
  | .sadd key _ | .srem key _ => [key]
  | .sunionstore _ sources | .sinterstore _ sources | .sdiffstore _ sources
  | .zdiffstore _ sources => sources
  | .hset key _ _ | .hmset key _ | .hsetnx key _ _ | .hincrby key _ _ | .hincrbyfloat key _ _
  | .hdel key _
  | .hgetdel key _ | .hsetex key _ _ => [key]
  | .zadd key _ _ | .zincrby key _ _ | .zrem key _ | .zpopmax key _ | .zpopmin key _
  | .zremrangebyrank key _ _
  | .zremrangebyscore key _ _ | .zremrangebylex key _ _ => [key]
  -- their arguments may be refused, and then the destination stays
  | .zunionstore destination sources _ _
  | .zinterstore destination sources _ _ => destination :: sources
  | .zrangestore destination source _ _ _ => [destination, source]
  | _ => []

/-- The keys of its own database that a command may bind or remove. -/
def keysWritten : Command → List Bytes
  | .set key _ | .setnx key _ | .getset key _ | .getdel key => [key]
  | .mset pairs | .msetex pairs | .msetnx pairs => pairs.map (·.1)
  | .del keys => keys
  | .copy _ destination _ => [destination]
  | .sunionstore destination _ | .sinterstore destination _ | .sdiffstore destination _
  | .zdiffstore destination _
  | .zunionstore destination _ _ _ | .zinterstore destination _ _ _
  | .zrangestore destination _ _ _ _ => [destination]
  | command => keysRead command

/-- What decides what a command does in a database. -/
def reads (db : Nat) : Command → Set (Nat × Bytes)
  | .moveKey key targetDb => {p | p.2 = key ∧ (p.1 = db ∨ p.1 = targetDb)}
  | .swapdb db1 db2 => {p | p.1 = db1 ∨ p.1 = db2}
  | command => keysOf db (keysRead command)

/-- What a command may change in a database. -/
def writes (db : Nat) : Command → Set (Nat × Bytes)
  | .moveKey key targetDb => {p | p.2 = key ∧ (p.1 = db ∨ p.1 = targetDb)}
  | .swapdb db1 db2 => {p | p.1 = db1 ∨ p.1 = db2}
  | .flushall => Set.univ
  | .flushdb => {p | p.1 = db}
  | command => keysOf db (keysWritten command)

/-! ## The footprints of the operations -/

/-- An operation that reads and writes some keys of a database. -/
abbrev Op.Local (db : Nat) (read written : List Bytes) (op : Op) : Prop :=
  Footprint slotAt (keysOf db read) (keysOf db written) op

namespace Op.Local

section
variable {db : Nat} {read written read' written' : List Bytes} {op op' : Op}

/-- A footprint may be widened. -/
lemma widen (h : Op.Local db read written op) (sub : read ⊆ read') (sub' : written ⊆ written')
    (within : written' ⊆ read') : Op.Local db read' written' op :=
  h.mono (keysOf_mono sub) (keysOf_mono sub') (keysOf_mono within)

/-- An operation that does nothing has every footprint. -/
lemma idle (r : Except Fault Unit) (within : written ⊆ read) :
    Op.Local db read written fun s => (s, r) :=
  (Footprint.idle r).mono (Set.Subset.refl _) (Set.empty_subset _) (keysOf_mono within)

/-- An operation has a footprint if it has it for every argument that decodes. -/
lemma decoded {α : Type} {arg : Option α} {msg : String} {op : α → Op} (within : written ⊆ read)
    (h : ∀ a, Op.Local db read written (op a)) : Op.Local db read written (decoded arg msg op) := by
  cases arg with
  | none => exact idle _ within
  | some a => exact h a

/-- An operation on a slot reads and writes its key. -/
lemma atKey (key : Bytes) (op : SlotOp) : Op.Local db [key] [key] (atKey db key op) where
  frame s _ outside := lookup_atKey_ne (not_mem_keysOf_singleton outside) op s
  answer s t same := by
    show (op (s.lookup db key)).2 = (op (t.lookup db key)).2
    rw [lookup_alike same (List.mem_singleton_self key)]
  effect s t same p mem := by
    obtain ⟨db', key'⟩ := p
    obtain ⟨rfl, here⟩ := mem
    obtain rfl := List.mem_singleton.mp here
    show (TsNif.atKey _ _ op s).1.lookup _ _ = (TsNif.atKey _ _ op t).1.lookup _ _
    rw [lookup_atKey, lookup_atKey, lookup_alike same here]

/-- To bind a key nothing has to be read. -/
lemma bind (key : Bytes) (slot : Slot) (r : Except Fault Unit) :
    Op.Local db read [key] fun s => (s.store db key slot, r) where
  frame s p outside := by
    show (s.store db key slot).lookup p.1 p.2 = _
    rw [StorageInner.lookup_store, if_neg (not_mem_keysOf_singleton outside)]
    rfl
  answer _ _ _ := rfl
  effect s t _ p mem := by
    obtain ⟨db', key'⟩ := p
    obtain ⟨rfl, here⟩ := mem
    obtain rfl := List.mem_singleton.mp here
    show (s.store _ _ slot).lookup _ _ = (t.store _ _ slot).lookup _ _
    rw [StorageInner.lookup_store, StorageInner.lookup_store, if_pos ⟨rfl, rfl⟩, if_pos ⟨rfl, rfl⟩]

/-- The same, and go on. -/
lemma bindThen (key : Bytes) (slot : Slot) (h : Op.Local db read written op) :
    Op.Local db read (key :: written) fun s => op (s.store db key slot) := by
  have both := (bind key slot (.ok ()) : Op.Local db read [key] _).behind h
  rwa [← keysOf_cons] at both

/-- What is done depends on what a key is bound to. -/
lemma branch {key : Bytes} (mem : key ∈ read)
    (h : ∀ slot, ∃ op', Op.Local db read written op' ∧ ∀ s, s.lookup db key = slot → op s = op' s) :
    Op.Local db read written op :=
  Footprint.branch (mem_keysOf mem) h

end

variable (db : Nat)

/-! ### Whole values -/

/-- `SET` writes its key and reads nothing. -/
lemma set (key value : Bytes) : Op.Local db [] [key] (set db key value) :=
  bind key (some (.string value)) (.ok ())

/-- `MSET` writes its keys and reads nothing. -/
lemma mset (pairs : List (Bytes × Bytes)) : Op.Local db [] (pairs.map (·.1)) (mset db pairs) := by
  induction pairs with
  | nil => exact idle _ (List.Subset.refl _)
  | cons pair pairs ih => exact bindThen pair.1 (some (.string pair.2)) ih

/-- `DEL` and `UNLINK` write their keys and read nothing. -/
lemma delAll (keys : List Bytes) : Op.Local db [] keys (delAll db keys) := by
  induction keys with
  | nil => exact idle _ (List.Subset.refl _)
  | cons key keys ih => exact bindThen key none ih

/-- `RENAME` reads and writes its two keys. -/
lemma rename (oldKey newKey : Bytes) :
    Op.Local db [oldKey, newKey] [oldKey, newKey] (rename db oldKey newKey) := by
  refine branch (List.mem_cons_self : oldKey ∈ [oldKey, newKey]) fun slot => ?_
  cases slot with
  | none =>
    exact ⟨_, idle (.ok ()) (List.Subset.refl _), fun s vacant => by rw [TsNif.rename, vacant]⟩
  | some value =>
    refine ⟨_, bindThen oldKey none (bind newKey (some value) (.ok ())), fun s bound => ?_⟩
    rw [TsNif.rename, bound]
    rfl

/-- `RENAMENX` reads and writes its two keys. -/
lemma renamenx (oldKey newKey : Bytes) :
    Op.Local db [oldKey, newKey] [oldKey, newKey] (renamenx db oldKey newKey) := by
  refine branch (List.mem_cons_of_mem _ (List.mem_singleton_self newKey)) fun slot => ?_
  cases slot with
  | none => exact ⟨_, rename db oldKey newKey, fun s vacant => by rw [TsNif.renamenx, vacant]; rfl⟩
  | some value =>
    exact ⟨_, idle (.ok ()) (List.Subset.refl _), fun s bound => by rw [TsNif.renamenx, bound]; rfl⟩

/-- `COPY` reads its two keys and writes the second. -/
lemma copyKey (source destination : Bytes) (replace : Bool) :
    Op.Local db [source, destination] [destination] (copyKey db source destination replace) := by
  have within : [destination] ⊆ [source, destination] := by simp
  refine branch (List.mem_cons_self : source ∈ [source, destination]) fun slot => ?_
  cases slot with
  | none =>
    refine ⟨_, idle (.ok ()) within, fun s vacant => ?_⟩
    rw [TsNif.copyKey, vacant]
    split
    · rfl
    · rfl
  | some value =>
    refine ⟨fun s => if !replace && (s.lookup db destination).isSome then (s, .ok ())
      else (s.put db destination value.clone, .ok ()), ?_,
      fun s bound => by rw [TsNif.copyKey, bound]⟩
    refine branch (within (List.mem_singleton_self destination)) fun slot => ?_
    cases kept : !replace && slot.isSome with
    | true => exact ⟨_, idle (.ok ()) within, fun s bound => by rw [bound, if_pos kept]⟩
    | false =>
      refine ⟨_, bind destination (some value.clone) (.ok ()), fun s bound => ?_⟩
      rw [bound, if_neg (Bool.not_eq_true _ ▸ kept)]
      rfl

/-! ### Moves of elements -/

/-- `LMOVE` and `RPOPLPUSH` read and write their two keys. -/
lemma lmove (source destination : Bytes) (wherefrom whereto : Side) :
    Op.Local db [source, destination] [source, destination]
      (lmove db source destination wherefrom whereto) := by
  have here : [source] ⊆ [source, destination] := by simp
  have there : [destination] ⊆ [source, destination] := by simp
  by_cases rotates : source = destination
  · obtain ⟨op, eq⟩ : ∃ op, TsNif.lmove db source destination wherefrom whereto =
      TsNif.atKey db source op :=
      ⟨_, funext fun s => by rw [TsNif.lmove, if_pos rotates]⟩
    rw [eq]
    exact (atKey source op).widen here here (List.Subset.refl _)
  · refine branch (List.mem_cons_self : source ∈ [source, destination]) fun slot => ?_
    have refused (value : StorageValue) (type : StorageValue.lists.unwrap value = none) :
        ∀ s, s.lookup db source = some value →
          TsNif.lmove db source destination wherefrom whereto s = (s, wrongType) := by
      intro s bound
      rw [TsNif.lmove, if_neg rotates, bound]
      cases value with
      | list items => cases type
      | _ => rfl
    cases StorageValue.lists.view slot with
    | vacant =>
      exact ⟨_, idle (.ok ()) (List.Subset.refl _),
        fun s vacant => by rw [TsNif.lmove, if_neg rotates, vacant]⟩
    | other type => exact ⟨_, idle wrongType (List.Subset.refl _), refused _ type⟩
    | held items =>
      cases taken : takeEnd wherefrom items with
      | none =>
        refine ⟨_, idle (.ok ()) (List.Subset.refl _), fun s bound => ?_⟩
        rw [TsNif.lmove, if_neg rotates, bound]
        simp only [StorageValue.lists, taken]
      | some pair =>
        obtain ⟨popped, rest⟩ := pair
        have push : Op.Local db [destination] [destination] _ :=
          atKey destination (StorageValue.lists.orInsert
            fun items => (pushEnd whereto popped items, .ok ()))
        refine ⟨_, bindThen source (StorageValue.lists.unlessEmpty rest)
          (push.widen there (List.Subset.refl _) there),
          fun s bound => ?_⟩
        rw [TsNif.lmove, if_neg rotates, bound]
        simp only [StorageValue.lists, taken]

/-- `SMOVE` reads and writes its two keys. -/
lemma smove (source destination member : Bytes) :
    Op.Local db [source, destination] [source, destination]
      (smove db source destination member) := by
  have there : [destination] ⊆ [source, destination] := by simp
  refine branch (List.mem_cons_self : source ∈ [source, destination]) fun slot => ?_
  cases StorageValue.sets.view slot with
  | vacant =>
    exact ⟨_, idle (.ok ()) (List.Subset.refl _), fun s vacant => by rw [TsNif.smove, vacant]⟩
  | @other value type =>
    refine ⟨_, idle wrongType (List.Subset.refl _), fun s bound => ?_⟩
    rw [TsNif.smove, bound]
    cases value with
    | set members => cases type
    | _ => rfl
  | held members =>
    by_cases mem : member ∈ members
    · have push : Op.Local db [destination] [destination] _ :=
        atKey destination (StorageValue.sets.orInsert
          fun members => (members.insert member, .ok ()))
      refine ⟨_, bindThen source (StorageValue.sets.unlessEmpty (members.erase member))
        (push.widen there (List.Subset.refl _) there), fun s bound => ?_⟩
      rw [TsNif.smove, bound]
      simp only [StorageValue.sets, if_pos mem]
    · refine ⟨_, idle (.ok ()) (List.Subset.refl _), fun s bound => ?_⟩
      rw [TsNif.smove, bound]
      simp only [StorageValue.sets, if_neg mem]

/-! ### Stored results -/

/-- The destination is deleted, so it is not read by itself. -/
lemma storeResult {α : Type} {sources : List Bytes} (c : Container α) (destination : Bytes)
    {compute : StorageInner → Except Fault α}
    (same : ∀ s t, Alike slotAt (keysOf db sources) s t → compute s = compute t) :
    Op.Local db sources [destination] (storeResult c db destination compute) := by
  have computed (s t : StorageInner) (alike : Alike slotAt (keysOf db sources) s t) :
      compute (s.del db destination) = compute (t.del db destination) := by
    have gone : Op.Local db sources [destination] fun s => (s.store db destination none, .ok ()) :=
      bind destination none (.ok ())
    exact same _ _ (gone.alike (Set.Subset.refl _) alike)
  refine ⟨fun s p outside => ?_, fun s t alike => ?_, fun s t alike p mem => ?_⟩
  · apply storeResult_within c db destination compute s p.1 p.2
    intro there mem
    exact outside ⟨there, mem⟩
  · rw [TsNif.storeResult, TsNif.storeResult, computed s t alike]
    cases compute (t.del db destination) with
    | error fault => rfl
    | ok a => rfl
  · obtain ⟨db', key⟩ := p
    obtain ⟨rfl, here⟩ := mem
    obtain rfl := List.mem_singleton.mp here
    show (TsNif.storeResult c _ _ compute s).1.lookup _ _ =
      (TsNif.storeResult c _ _ compute t).1.lookup _ _
    rw [lookup_storeResult, lookup_storeResult, computed s t alike]

end Op.Local

/-! ## What is computed from the sources -/

section
variable {db : Nat} {sources : List Bytes} {s t : StorageInner}

/-- Storages alike at keys are alike at the first and at the others. -/
lemma alike_tail {key : Bytes} (same : Alike slotAt (keysOf db (key :: sources)) s t) :
    s.lookup db key = t.lookup db key ∧ Alike slotAt (keysOf db sources) s t :=
  ⟨lookup_alike same List.mem_cons_self, same.mono (keysOf_mono (List.subset_cons_self _ _))⟩

/-- The union depends on its sources only. -/
lemma unionFrom_alike (same : Alike slotAt (keysOf db sources) s t)
    (acc : Std.ExtTreeSet Bytes compare) :
    unionFrom s db acc sources = unionFrom t db acc sources := by
  induction sources generalizing acc with
  | nil => rfl
  | cons key rest ih =>
    obtain ⟨here, later⟩ := alike_tail same
    simp only [unionFrom, here, ih later]

/-- The intersection depends on its sources only. -/
lemma interFrom_alike (same : Alike slotAt (keysOf db sources) s t)
    (acc : Std.ExtTreeSet Bytes compare) :
    interFrom s db acc sources = interFrom t db acc sources := by
  induction sources generalizing acc with
  | nil => rfl
  | cons key rest ih =>
    obtain ⟨here, later⟩ := alike_tail same
    simp only [interFrom, here, ih later]

/-- The difference depends on its sources only. -/
lemma diffFrom_alike (same : Alike slotAt (keysOf db sources) s t)
    (acc : Std.ExtTreeSet Bytes compare) :
    diffFrom s db acc sources = diffFrom t db acc sources := by
  induction sources generalizing acc with
  | nil => rfl
  | cons key rest ih =>
    obtain ⟨here, later⟩ := alike_tail same
    simp only [diffFrom, here, ih later]

/-- The intersection with its first source depends on the sources only. -/
lemma fromFirst_inter_alike (same : Alike slotAt (keysOf db sources) s t) :
    fromFirst s db (interFrom s db) sources = fromFirst t db (interFrom t db) sources := by
  cases sources with
  | nil => rfl
  | cons first rest =>
    obtain ⟨here, later⟩ := alike_tail same
    simp only [fromFirst, here, interFrom_alike later]

/-- The difference from its first source depends on the sources only. -/
lemma fromFirst_diff_alike (same : Alike slotAt (keysOf db sources) s t) :
    fromFirst s db (diffFrom s db) sources = fromFirst t db (diffFrom t db) sources := by
  cases sources with
  | nil => rfl
  | cons first rest =>
    obtain ⟨here, later⟩ := alike_tail same
    simp only [fromFirst, here, diffFrom_alike later]

/-- The union of sorted sets depends on its sources only. -/
lemma zunionFrom_alike (same : Alike slotAt (keysOf db sources) s t) (acc : WeightedScores)
    (weights : List Score) :
    zunionFrom s db acc sources weights = zunionFrom t db acc sources weights := by
  induction sources generalizing acc weights with
  | nil => rfl
  | cons key rest ih =>
    obtain ⟨here, later⟩ := alike_tail same
    simp only [zunionFrom, here, ih later]

/-- The intersection of sorted sets depends on its sources only. -/
lemma zinterFrom_alike (same : Alike slotAt (keysOf db sources) s t) (acc : WeightedScores)
    (weights : List Score) :
    zinterFrom s db acc sources weights = zinterFrom t db acc sources weights := by
  induction sources generalizing acc weights with
  | nil => rfl
  | cons key rest ih =>
    obtain ⟨here, later⟩ := alike_tail same
    simp only [zinterFrom, here, ih later]

/-- The difference of sorted sets depends on its sources only. -/
lemma zdiffFrom_alike (same : Alike slotAt (keysOf db sources) s t)
    (acc : Std.ExtTreeMap Bytes Score compare) :
    zdiffFrom s db acc sources = zdiffFrom t db acc sources := by
  induction sources generalizing acc with
  | nil => rfl
  | cons key rest ih =>
    obtain ⟨here, later⟩ := alike_tail same
    simp only [zdiffFrom, here, ih later]

end

/-! ## The footprints of the commands -/

namespace Op.Local

variable (db : Nat)

/-- `SUNIONSTORE` reads its sources and writes its destination. -/
lemma sunionstore (destination : Bytes) (sources : List Bytes) :
    Op.Local db sources [destination] (sunionstore db destination sources) :=
  storeResult db StorageValue.sets destination fun _ _ same => unionFrom_alike same ∅

/-- `SINTERSTORE` reads its sources and writes its destination. -/
lemma sinterstore (destination : Bytes) (sources : List Bytes) :
    Op.Local db sources [destination] (sinterstore db destination sources) :=
  storeResult db StorageValue.sets destination fun _ _ same => fromFirst_inter_alike same

/-- `SDIFFSTORE` reads its sources and writes its destination. -/
lemma sdiffstore (destination : Bytes) (sources : List Bytes) :
    Op.Local db sources [destination] (sdiffstore db destination sources) :=
  storeResult db StorageValue.sets destination fun _ _ same => fromFirst_diff_alike same

/-- `ZUNIONSTORE` reads its sources and writes its destination. -/
lemma zunionstore (destination : Bytes) (sources : List Bytes) (weights : List Score)
    (aggregate : Aggregate) :
    Op.Local db sources [destination] (zunionstore db destination sources weights aggregate) := by
  refine storeResult db StorageValue.zsets destination fun s t same => ?_
  rw [zunionFrom_alike same]

/-- `ZINTERSTORE` reads its sources and writes its destination. -/
lemma zinterstore (destination : Bytes) (sources : List Bytes) (weights : List Score)
    (aggregate : Aggregate) :
    Op.Local db sources [destination] (zinterstore db destination sources weights aggregate) := by
  refine storeResult db StorageValue.zsets destination fun s t same => ?_
  cases sources with
  | nil => rfl
  | cons first rest =>
    obtain ⟨here, later⟩ := alike_tail same
    simp only [here, zinterFrom_alike later]

/-- `ZDIFFSTORE` reads its sources and writes its destination. -/
lemma zdiffstore (destination : Bytes) (sources : List Bytes) :
    Op.Local db sources [destination] (zdiffstore db destination sources) := by
  refine storeResult db StorageValue.zsets destination fun s t same => ?_
  cases sources with
  | nil => rfl
  | cons first rest =>
    obtain ⟨here, later⟩ := alike_tail same
    simp only [here, zdiffFrom_alike later]

/-- `ZRANGESTORE` reads its source and writes its destination. -/
lemma zrangestore [Indexset] (destination source minStr maxStr : Bytes) (options : RangeOptions) :
    Op.Local db [source] [destination]
      (zrangestore db destination source minStr maxStr options) := by
  refine storeResult db StorageValue.zsets destination fun s t same => ?_
  simp only [lookup_alike same (List.mem_singleton_self source)]

end Op.Local

section
variable (db : Nat)

/-- `MOVE` works in two databases. -/
lemma moveKey_footprint (targetDb : Nat) (key : Bytes) :
    Footprint slotAt {p | p.2 = key ∧ (p.1 = db ∨ p.1 = targetDb)} {p | p.2 = key ∧
      (p.1 = db ∨ p.1 = targetDb)} (moveKey db targetDb key) := by
  have here : (db, key) ∈ {p : Nat × Bytes | p.2 = key ∧ (p.1 = db ∨ p.1 = targetDb)} :=
    ⟨rfl, .inl rfl⟩
  refine Footprint.branch here fun slot => ?_
  have taken : keysOf db [key] ⊆ {p | p.2 = key ∧ (p.1 = db ∨ p.1 = targetDb)} :=
    fun p mem => ⟨List.mem_singleton.mp mem.2, .inl mem.1⟩
  have put : keysOf targetDb [key] ⊆ {p | p.2 = key ∧ (p.1 = db ∨ p.1 = targetDb)} :=
    fun p mem => ⟨List.mem_singleton.mp mem.2, .inr mem.1⟩
  cases slot with
  | none =>
    exact ⟨_, (Footprint.idle (.ok ())).mono (Set.Subset.refl _)
      (Set.empty_subset _) (Set.Subset.refl _),
      fun s vacant => by rw [moveKey, show s.lookup db key = none from vacant]⟩
  | some value =>
    have remove : Op.Local db [key] [key] fun s => (s.store db key none, .ok ()) :=
      Op.Local.bind key none (.ok ())
    have place : Op.Local targetDb [key] [key]
      fun s => (s.store targetDb key (some value), .ok ()) :=
      Op.Local.bind key (some value) (.ok ())
    have both :=
      (remove.mono taken taken (Set.Subset.refl _)).behind (place.mono put put (Set.Subset.refl _))
    rw [Set.union_self] at both
    refine ⟨_, both, fun s bound => ?_⟩
    rw [moveKey, show s.lookup db key = some value from bound]
    rfl

/-- `SWAPDB` reads and writes two databases. -/
lemma swapdb_footprint (db1 db2 : Nat) :
    Footprint slotAt {p | p.1 = db1 ∨ p.1 = db2} {p | p.1 = db1 ∨ p.1 = db2} (swapdb db1 db2) where
  frame s p outside := by
    obtain ⟨first, second⟩ := not_or.mp outside
    exact swapdb_outside first second p.2
  answer _ _ _ := rfl
  effect s t same p mem := by
    show (swapdb db1 db2 s).1.lookup p.1 p.2 = (swapdb db1 db2 t).1.lookup p.1 p.2
    rw [lookup_swapdb, lookup_swapdb]
    by_cases first : p.1 = db1
    · rw [if_pos first]
      exact same (db2, p.2) (.inr rfl)
    · rw [if_neg first, if_pos (mem.resolve_left first)]
      exact same (db1, p.2) (.inl rfl)

/-- `FLUSHALL` writes everything and reads nothing. -/
lemma flushall_footprint (read : Set (Nat × Bytes)) : Footprint slotAt read Set.univ flushall where
  frame _ _ outside := absurd (Set.mem_univ _) outside
  answer _ _ _ := rfl
  effect _ _ _ _ _ := rfl

/-- `FLUSHDB` writes its database and reads nothing. -/
lemma flushdb_footprint (read : Set (Nat × Bytes)) : Footprint slotAt read {p | p.1 = db}
    (flushdb db) where
  frame s p outside := flushdb_outside outside p.2
  answer _ _ _ := rfl
  effect s t _ p mem := by
    show (flushdb db s).1.lookup p.1 p.2 = (flushdb db t).1.lookup p.1 p.2
    rw [lookup_flushdb, lookup_flushdb, if_pos (show p.1 = db from mem),
      if_pos (show p.1 = db from mem)]

end

/-- Each command has its footprint in its database. -/
theorem dispatch_footprint [Indexset] (db : Nat) (command : Command) :
    Footprint slotAt (reads db command) (writes db command) (dispatch db command) := by
  have numbered {α : Type} {arg : Option α} {msg : String} {key : Bytes} (op : α → SlotOp) :
      Op.Local db [key] [key] (decoded arg msg fun a => atKey db key (op a)) :=
    Op.Local.decoded (List.Subset.refl _) fun a => Op.Local.atKey key (op a)
  have nothing {r : Except Fault Unit} : Op.Local db [] [] fun s => (s, r) :=
    Op.Local.idle r (List.Subset.refl _)
  -- a `STORE` command whose arguments are decoded
  have stored {α : Type} {arg : Option α} {msg : String} {destination : Bytes}
    {sources : List Bytes} {op : α → Op}
    (h : ∀ a, Op.Local db sources [destination] (op a)) :
      Op.Local db (destination :: sources) [destination] (decoded arg msg op) := by
    have within : [destination] ⊆ destination :: sources := by simp
    exact Op.Local.decoded within
      fun a => (h a).widen (List.subset_cons_self _ _) (List.Subset.refl _) within
  cases command with
  | set => exact Op.Local.set _ _ _
  | del => exact Op.Local.delAll _ _
  | mset => exact Op.Local.mset _ _
  | msetex => exact Op.Local.mset _ _
  | pexpireat => exact nothing
  | persist => exact nothing
  | copy => exact Op.Local.copyKey _ _ _ _
  | rename => exact Op.Local.rename _ _ _
  | renamenx => exact Op.Local.renamenx _ _ _
  | moveKey key target =>
    rw [dispatch]
    cases decoded_ : decodeU64 target with
    | none =>
      exact (Footprint.idle _).mono (Set.Subset.refl _) (Set.empty_subset _) (Set.Subset.refl _)
    | some targetDb =>
      obtain ⟨rfl, -⟩ := decodeU64_eq_some.mp decoded_
      have local_ := moveKey_footprint db targetDb key
      simp only [reads, writes, Int.natCast_inj]
      exact local_
  | append =>
    rw [dispatch]
    exact Op.Local.atKey _ _
  | setrange => exact numbered _
  | incr =>
    rw [dispatch]
    exact Op.Local.atKey _ _
  | incrby => exact numbered _
  | decr =>
    rw [dispatch]
    exact Op.Local.atKey _ _
  | decrby => exact numbered _
  | setnx => exact Op.Local.set _ _ _
  | msetnx => exact Op.Local.mset _ _
  | getset => exact Op.Local.set _ _ _
  | getdel => exact Op.Local.delAll _ _
  | sadd =>
    rw [dispatch]
    exact Op.Local.atKey _ _
  | srem =>
    rw [dispatch]
    exact Op.Local.atKey _ _
  | smove => exact Op.Local.smove _ _ _ _
  | sunionstore => exact Op.Local.sunionstore _ _ _
  | sinterstore => exact Op.Local.sinterstore _ _ _
  | sdiffstore => exact Op.Local.sdiffstore _ _ _
  | lpush =>
    rw [dispatch]
    exact Op.Local.atKey _ _
  | rpush =>
    rw [dispatch]
    exact Op.Local.atKey _ _
  | lpop =>
    rw [dispatch]
    exact Op.Local.atKey _ _
  | rpop =>
    rw [dispatch]
    exact Op.Local.atKey _ _
  | lset => exact numbered _
  | rpoplpush =>
    rw [dispatch, rpoplpush_eq]
    exact Op.Local.lmove _ _ _ _ _
  | lpopCount => exact numbered _
  | rpopCount => exact numbered _
  | lmove => exact Op.Local.lmove _ _ _ _ _
  | lpushx =>
    rw [dispatch]
    exact Op.Local.atKey _ _
  | rpushx =>
    rw [dispatch]
    exact Op.Local.atKey _ _
  | lrem => exact numbered _
  | ltrim => exact numbered _
  | linsert =>
    rw [dispatch]
    exact Op.Local.atKey _ _
  | hset =>
    rw [dispatch]
    exact Op.Local.atKey _ _
  | hmset =>
    rw [dispatch]
    exact Op.Local.atKey _ _
  | hdel =>
    rw [dispatch]
    exact Op.Local.atKey _ _
  | hgetdel =>
    rw [dispatch]
    exact Op.Local.atKey _ _
  | hsetnx =>
    rw [dispatch]
    exact Op.Local.atKey _ _
  | hincrby => exact numbered _
  | hincrbyfloat => exact numbered _
  | hsetex =>
    rw [dispatch]
    exact Op.Local.atKey _ _
  | zadd =>
    rw [dispatch]
    exact Op.Local.atKey _ _
  | zrem =>
    rw [dispatch]
    exact Op.Local.atKey _ _
  | zpopmax => exact numbered _
  | zpopmin => exact numbered _
  | zremrangebyrank => exact numbered _
  | zremrangebyscore => exact numbered _
  | zremrangebylex =>
    rw [dispatch]
    exact Op.Local.atKey _ _
  | zunionstore => exact stored fun _ => Op.Local.zunionstore _ _ _ _ _
  | zinterstore => exact stored fun _ => Op.Local.zinterstore _ _ _ _ _
  | zdiffstore => exact Op.Local.zdiffstore _ _ _
  | zrangestore => exact stored fun _ => Op.Local.zrangestore _ _ _ _ _ _
  | zincrby => exact numbered _
  | flushall => exact flushall_footprint _
  | flushdb => exact flushdb_footprint db _
  | swapdb db1 db2 =>
    rw [dispatch]
    cases first : decodeU64 db1 with
    | none =>
      exact (Footprint.idle _).mono (Set.Subset.refl _) (Set.empty_subset _) (Set.Subset.refl _)
    | some n1 =>
      cases second : decodeU64 db2 with
      | none =>
        exact (Footprint.idle _).mono (Set.Subset.refl _) (Set.empty_subset _) (Set.Subset.refl _)
      | some n2 =>
        obtain ⟨rfl, -⟩ := decodeU64_eq_some.mp first
        obtain ⟨rfl, -⟩ := decodeU64_eq_some.mp second
        have local_ := swapdb_footprint n1 n2
        simp only [reads, writes, Int.natCast_inj]
        exact local_
  | setbit => exact nothing
  | hpexpireat => exact nothing
  | hpersist => exact nothing
  | generic => exact nothing

/-! ## Batches -/

/-- What decides what a call does; a number that is too large for a database is refused. -/
def readsOf (call : Nat × Command) : Set (Nat × Bytes) :=
  {p | call.1 < 2 ^ 64 ∧ p ∈ reads call.1 call.2}

/-- What a call may change. -/
def writesOf (call : Nat × Command) : Set (Nat × Bytes) :=
  {p | call.1 < 2 ^ 64 ∧ p ∈ writes call.1 call.2}

/-- Each call has its footprint. -/
theorem execute_footprint [Indexset] (call : Nat × Command) :
    Footprint slotAt (readsOf call) (writesOf call) (execute call.1 call.2) := by
  obtain ⟨db, command⟩ := call
  by_cases small : db < 2 ^ 64
  · have eq : execute db command = dispatch db command := execute_of_lt small command
    have read : readsOf (db, command) = reads db command :=
      Set.ext fun _ => ⟨And.right, And.intro small⟩
    have written : writesOf (db, command) = writes db command :=
      Set.ext fun _ => ⟨And.right, And.intro small⟩
    rw [eq, read, written]
    exact dispatch_footprint db command
  · have eq : execute db command =
      fun s => (s, .error (.err "Database index must be an unsigned integer")) :=
      funext (execute_of_ge small command)
    have written : writesOf (db, command) = ∅ :=
      Set.eq_empty_of_forall_notMem fun _ mem => small mem.1
    rw [eq, written]
    exact Footprint.idle _

section
variable [Indexset] {batch batch' : List (Nat × Command)} {s t : StorageInner}

/-- A batch performs its calls one after the other. -/
lemma executeAll_eq (batch : List (Nat × Command)) (s : StorageInner) :
    executeAll batch s = performAll (fun call => execute call.1 call.2) batch s := by
  induction batch generalizing s with
  | nil => rfl
  | cons call rest ih => exact ih _

/-- What a batch answers are the answers of its commands, if none of them panics. -/
lemma tx_eq_ok {results : List (Except Fault Unit)} : (tx batch s).2 = .ok results ↔
    (∀ answer ∈ answers (fun call => execute call.1 call.2) batch s, ¬ Panicked answer.2) ∧
      (answers (fun call => execute call.1 call.2) batch s).map (·.2) = results := by
  induction batch generalizing s results with
  | nil => exact ⟨fun ok => ⟨List.forall_mem_nil _, Except.ok.inj ok⟩,
    fun h => congrArg Except.ok h.2⟩
  | cons call rest ih =>
    obtain ⟨db, command⟩ := call
    rw [answers, List.forall_mem_cons, List.map_cons]
    by_cases panics : Panicked (execute db command s).2
    · obtain ⟨msg, eq⟩ := tx_of_panicked rest panics
      rw [eq]
      exact iff_of_false (by rintro ⟨⟩) fun h => h.1.1 panics
    · rw [tx_of_not_panicked rest panics]
      constructor
      · intro ok
        cases later : (tx rest (execute db command s).1).2 with
        | error fault =>
          rw [later] at ok
          cases ok
        | ok results' =>
          rw [later] at ok
          cases ok
          obtain ⟨calm, same⟩ := ih.mp later
          exact ⟨⟨panics, calm⟩, congrArg _ same⟩
      · rintro ⟨⟨-, calm⟩, rfl⟩
        rw [ih.mpr ⟨calm, rfl⟩]
        rfl

/-- In a batch that returns, commands may change places that have nothing to do with each other: of
two neighbours none writes what the other one reads or writes. Then the batch returns too, every
command has the same result, and every key is bound to the same value afterwards. -/
theorem tx_reorders (reordered : Reorders readsOf writesOf batch batch')
    {results : List (Except Fault Unit)} (returned : (tx batch s).2 = .ok results) :
    ∃ results', (tx batch' s).2 = .ok results' ∧ (batch.zip results).Perm (batch'.zip results') ∧
      (tx batch s).1.Same (tx batch' s).1 := by
  obtain ⟨stays, permuted⟩ := reordered.alike execute_footprint s
  obtain ⟨calm, rfl⟩ := tx_eq_ok.mp returned
  have returned' := tx_eq_ok.mpr ⟨fun answer mem => calm answer (permuted.mem_iff.mpr mem), rfl⟩
  refine ⟨_, returned', ?_, ?_⟩
  · rw [← List.zip_of_prod (map_fst_answers _ batch s) rfl, ← List.zip_of_prod
      (map_fst_answers _ batch' s) rfl]
    exact permuted
  · have returns : Returns batch s := (ok_iff_returns batch s).mp ⟨_, returned⟩
    have returns' : Returns batch' s := (ok_iff_returns batch' s).mp ⟨_, returned'⟩
    rw [tx_storage returns, tx_storage returns', executeAll_eq, executeAll_eq]
    exact fun db key => (stays (db, key) (Set.mem_univ _)).symm

end

/-- `SUNIONSTORE d s` and `INCR n` change places behind `SADD s m`. -/
theorem tx_reorders_apart : ∃ results',
    (@tx (.exact false) [(0, .sadd (ascii "s") [ascii "m"]), (0, .incr (ascii "n")),
      (0, .sunionstore (ascii "d") [ascii "s"])] .new).2 = .ok results' ∧
    (List.zip [((0 : Nat), Command.sadd (ascii "s") [ascii "m"]),
      (0, .sunionstore (ascii "d") [ascii "s"]),
      (0, .incr (ascii "n"))] [.ok (), .ok (), .ok ()]).Perm
        (List.zip [(0, .sadd (ascii "s") [ascii "m"]), (0, .incr (ascii "n")),
          (0, .sunionstore (ascii "d") [ascii "s"])] results') ∧
    (@tx (.exact false) [(0, .sadd (ascii "s") [ascii "m"]),
      (0, .sunionstore (ascii "d") [ascii "s"]),
      (0, .incr (ascii "n"))] .new).1.Same (@tx (.exact false) [(0, .sadd (ascii "s") [ascii "m"]),
        (0, .incr (ascii "n")), (0, .sunionstore (ascii "d") [ascii "s"])] .new).1 := by
  have differ {p : Nat × Bytes} {key key' : Bytes} (other : key ≠ key') (mem : p.2 ∈ [key])
    (mem' : p.2 ∈ [key']) :
      False := other ((List.mem_singleton.mp mem).symm.trans (List.mem_singleton.mp mem'))
  have independent : Independent readsOf writesOf (0, .sunionstore (ascii "d") [ascii "s"])
    (0, .incr (ascii "n")) := by
    refine ⟨Set.disjoint_left.mpr ?_, Set.disjoint_left.mpr ?_, Set.disjoint_left.mpr ?_⟩
    · rintro p ⟨-, -, mem⟩ ⟨-, -, mem'⟩
      exact differ (by decide) mem mem'
    · rintro p ⟨-, -, mem⟩ ⟨-, -, mem'⟩
      exact differ (by decide) mem mem'
    · rintro p ⟨-, -, mem⟩ ⟨-, -, mem'⟩
      exact differ (by decide) mem mem'
  exact @tx_reorders (.exact false) _ _ .new (@Reorders.swap _ _ readsOf writesOf _
    [(0, .sadd (ascii "s") [ascii "m"])] [] _ _ (.refl _) independent) _ rfl

end Veidrodelis.TsNif
