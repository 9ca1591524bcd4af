import Veidrodelis.TsNif.ZSet

/-!
# The storage

`native/vdr_ts_nif/src/storage`: the data types and what the commands on one key share. A command on
one key is a function of what is bound to the key (`SlotOp`), and `atKey` performs it on the
storage. That a database with no keys has a map or none makes no difference to any function.

Most commands work on a container: on the one that is there, if any (`existing`), or on a new one if
there is none (`orInsert`); a value of another type is refused.
-/

namespace Veidrodelis.TsNif
open RedisNif (Fault)

/-! ## Maps -/

section
variable {α β : Type} {cmp : α → α → Ordering} [Std.TransCmp cmp] [Std.LawfulEqCmp cmp]
variable {m : Std.ExtTreeMap α β cmp} {a : α}

/-- Binding a key to the value that it has changes nothing. -/
lemma insert_of_getElem? {b : β} (h : m[a]? = some b) : m.insert a b = m := by
  apply Std.ExtTreeMap.ext_getElem?
  intro k
  rw [Std.ExtTreeMap.getElem?_insert]
  split
  · rename_i eq
    rw [← h, Std.LawfulEqCmp.eq_of_compare eq]
  · rfl

/-- Removing a key that is not there changes nothing. -/
lemma erase_of_getElem? (h : m[a]? = none) : m.erase a = m := by
  apply Std.ExtTreeMap.ext_getElem?
  intro k
  rw [Std.ExtTreeMap.getElem?_erase]
  split
  · rename_i eq
    rw [← h, Std.LawfulEqCmp.eq_of_compare eq]
  · rfl

/-- The last one of two bindings of a key counts. -/
lemma insert_insert_self (m : Std.ExtTreeMap α β cmp) (a : α) (b b' : β) :
    (m.insert a b).insert a b' = m.insert a b' := by
  apply Std.ExtTreeMap.ext_getElem?
  intro k
  simp only [Std.ExtTreeMap.getElem?_insert]
  split
  · rfl
  · rfl

/-- To insert a key needs no erasing before. -/
lemma insert_erase_self (m : Std.ExtTreeMap α β cmp) (a : α) (b : β) :
    (m.erase a).insert a b = m.insert a b := by
  apply Std.ExtTreeMap.ext_getElem?
  intro k
  simp only [Std.ExtTreeMap.getElem?_insert, Std.ExtTreeMap.getElem?_erase]
  split
  · rfl
  · rfl

/-- To erase a key undoes its insertion. -/
lemma erase_insert_self (m : Std.ExtTreeMap α β cmp) (a : α) (b : β) :
    (m.insert a b).erase a = m.erase a := by
  apply Std.ExtTreeMap.ext_getElem?
  intro k
  simp only [Std.ExtTreeMap.getElem?_insert, Std.ExtTreeMap.getElem?_erase]
  split
  · rfl
  · rfl

end

/-- `StorageValue`. -/
inductive StorageValue where
  | string (value : Bytes)
  | set (members : Std.ExtTreeSet Bytes compare)
  | list (items : List Bytes)
  | hash (fields : Std.ExtTreeMap Bytes Bytes compare)
  | zset (zset : ZSet)
  deriving DecidableEq

/-- `StorageInner`, without the Lua VM. -/
structure StorageInner where
  map : Std.ExtTreeMap Nat (Std.ExtTreeMap Bytes StorageValue compare) compare
  deriving DecidableEq

/-- What is bound to a key. -/
abbrev Slot := Option StorageValue

namespace StorageInner

/-- `new`. -/
def new : StorageInner := ⟨∅⟩

/-- `self.map.get(&db)`, and the key in it. -/
def lookup (s : StorageInner) (db : Nat) (key : Bytes) : Slot :=
  s.map[db]?.bind fun dbMap => dbMap[key]?

/-- `self.map.entry(db).or_default()`, and the insert of the key. -/
def put (s : StorageInner) (db : Nat) (key : Bytes) (value : StorageValue) : StorageInner :=
  ⟨s.map.insert db ((s.map[db]?.getD ∅).insert key value)⟩

/-- `del`. -/
def del (s : StorageInner) (db : Nat) (key : Bytes) : StorageInner :=
  match s.map[db]? with
  | some dbMap => ⟨s.map.insert db (dbMap.erase key)⟩
  | none => s

/-- Bind the key to a value or to none. -/
def store (s : StorageInner) (db : Nat) (key : Bytes) : Slot → StorageInner
  | some value => s.put db key value
  | none => s.del db key

/-- A new storage holds nothing. -/
@[simp] lemma lookup_new (db : Nat) (key : Bytes) : new.lookup db key = none := by
  simp [lookup, new]

/-- A value that was put is found. -/
lemma lookup_put (s : StorageInner) (db db' : Nat) (key key' : Bytes) (value : StorageValue) :
    (s.put db key value).lookup db' key' =
      if db' = db ∧ key' = key then some value else s.lookup db' key' := by
  rw [lookup, put, Std.ExtTreeMap.getElem?_insert]
  by_cases d : db' = db
  · subst d
    by_cases k : key' = key
    · subst k
      simp
    · cases e : s.map[db']? with
      | none => simp [lookup, e, k, Ne.symm k]
      | some dbMap => simp [lookup, e, Std.ExtTreeMap.getElem?_insert, k, Ne.symm k]
  · simp [lookup, d, Ne.symm d]

/-- A key that was deleted is not found. -/
lemma lookup_del (s : StorageInner) (db db' : Nat) (key key' : Bytes) :
    (s.del db key).lookup db' key' = if db' = db ∧ key' = key then none else s.lookup db' key' := by
  rw [del]
  cases e : s.map[db]? with
  | none =>
    by_cases d : db' = db
    · subst d
      simp [lookup, e]
    · simp [d]
  | some dbMap =>
    by_cases d : db' = db
    · subst d
      by_cases k : key' = key
      · subst k
        simp [lookup]
      · simp [lookup, e, Std.ExtTreeMap.getElem?_erase, k, Ne.symm k]
    · simp [lookup, Std.ExtTreeMap.getElem?_insert, d, Ne.symm d]

/-- A slot that was stored is found. -/
lemma lookup_store (s : StorageInner) (db db' : Nat) (key key' : Bytes) (slot : Slot) :
    (s.store db key slot).lookup db' key' =
      if db' = db ∧ key' = key then slot else s.lookup db' key' := by
  cases slot with
  | none => exact lookup_del s db db' key key'
  | some value => exact lookup_put s db db' key key' value

/-- Binding a key to what it is bound to changes nothing. -/
lemma store_lookup (s : StorageInner) (db : Nat) (key : Bytes) :
    s.store db key (s.lookup db key) = s := by
  rw [lookup]
  cases inDb : s.map[db]? with
  | none =>
    show s.del db key = s
    rw [del, inDb]
  | some dbMap =>
    rw [Option.bind_some]
    cases bound : dbMap[key]? with
    | none =>
      show s.del db key = s
      rw [del, inDb]
      show StorageInner.mk _ = s
      rw [erase_of_getElem? bound, insert_of_getElem? inDb]
    | some value =>
      show s.put db key value = s
      rw [put, inDb, Option.getD_some, insert_of_getElem? bound, insert_of_getElem? inDb]

/-- The later one of two bindings counts, also for the maps of the databases, unless a key is bound
in a database without a map and removed again. -/
lemma store_store {s : StorageInner} {db : Nat} {key : Bytes} {slot slot' : Slot}
    (kept : slot' ≠ none ∨ slot = none ∨ s.lookup db key ≠ none) :
    (s.store db key slot).store db key slot' = s.store db key slot' := by
  cases slot' with
  | some value' =>
    cases slot with
    | some value =>
      show (s.put db key value).put db key value' = s.put db key value'
      rw [put, put, put, Std.ExtTreeMap.getElem?_insert_self, Option.getD_some, insert_insert_self,
        insert_insert_self]
    | none =>
      show (s.del db key).put db key value' = s.put db key value'
      rw [del]
      cases inDb : s.map[db]? with
      | none => rfl
      | some dbMap =>
        rw [put, put, Std.ExtTreeMap.getElem?_insert_self, inDb, Option.getD_some, Option.getD_some,
          insert_erase_self, insert_insert_self]
  | none =>
    cases slot with
    | some value =>
      -- here the database must have had the key, or its empty map would be left behind
      have bound : s.lookup db key ≠ none := by
        rcases kept with gone | gone | bound
        · exact absurd rfl gone
        · cases gone
        · exact bound
      show (s.put db key value).del db key = s.del db key
      cases inDb : s.map[db]? with
      | none =>
        rw [lookup, inDb] at bound
        exact absurd rfl bound
      | some dbMap =>
        rw [del, put, del, Std.ExtTreeMap.getElem?_insert_self, inDb]
        simp only [Option.getD_some, erase_insert_self, insert_insert_self]
    | none =>
      have gone : (s.store db key none).lookup db key = none := by
        rw [lookup_store, if_pos ⟨rfl, rfl⟩]
      have again := store_lookup (s.store db key none) db key
      rwa [gone] at again

/-- Every key is bound to the same value. -/
def Same (s s' : StorageInner) : Prop := ∀ db key, s'.lookup db key = s.lookup db key

/-- A storage is the same as itself. -/
lemma Same.refl (s : StorageInner) : s.Same s := fun _ _ => rfl

/-- To store what is there changes nothing. -/
lemma store_same {s : StorageInner} {db : Nat} {key : Bytes} :
    s.Same (s.store db key (s.lookup db key)) := by
  intro db' key'
  rw [lookup_store]
  split
  · rename_i here
    rw [here.1, here.2]
  · rfl

end StorageInner

/-- `decode::<u64>`, and `decode::<usize>`. -/
def decodeU64 : Int → Option Nat
  | .ofNat n => if n < 2 ^ 64 then some n else none
  | .negSucc _ => none

/-- An integer decodes as `u64` when it fits. -/
lemma decodeU64_eq_some {i : Int} {n : Nat} : decodeU64 i = some n ↔ i = n ∧ n < 2 ^ 64 := by
  cases i with
  | ofNat k =>
    rw [decodeU64]
    split
    · rw [Option.some.injEq, Int.ofNat_eq_natCast, Int.natCast_inj]
      exact ⟨fun eq => ⟨eq, eq ▸ ‹_›⟩, fun h => h.1⟩
    · rename_i large
      refine iff_of_false nofun ?_
      rintro ⟨eq, small⟩
      rw [Int.ofNat_eq_natCast, Int.natCast_inj] at eq
      exact large (eq ▸ small)
  | negSucc k =>
    refine iff_of_false nofun ?_
    rintro ⟨eq, -⟩
    cases eq

/-! ## Operations -/

/-- An operation of the storage: the storage afterwards, and `Ok`, `Err` or a panic. -/
abbrev Op := StorageInner → StorageInner × Except Fault Unit

/-- The same on what is bound to one key. -/
abbrev SlotOp := Slot → Slot × Except Fault Unit

/-- Perform an operation on one key. -/
def atKey (db : Nat) (key : Bytes) (op : SlotOp) : Op := fun s =>
  let (slot, result) := op (s.lookup db key)
  (s.store db key slot, result)

/-- An operation at a key leaves its slot there. -/
lemma lookup_atKey (db : Nat) (key : Bytes) (op : SlotOp) (s : StorageInner) :
    (atKey db key op s).1.lookup db key = (op (s.lookup db key)).1 := by
  rw [atKey, StorageInner.lookup_store, if_pos ⟨rfl, rfl⟩]

/-- Only what an operation does to what is there counts. -/
lemma atKey_congr {op op' : SlotOp} {s : StorageInner} {db : Nat} {key : Bytes}
    (same : op (s.lookup db key) = op' (s.lookup db key)) :
    atKey db key op s = atKey db key op' s := by
  rw [atKey, atKey, same]

/-- Other keys are not touched. -/
lemma lookup_atKey_ne {db db' : Nat} {key key' : Bytes} (other : ¬ (db' = db ∧ key' = key))
    (op : SlotOp) (s : StorageInner) :
    (atKey db key op s).1.lookup db' key' = s.lookup db' key' := by
  rw [atKey, StorageInner.lookup_store, if_neg other]

def wrongType {α : Type} : Except Fault α :=
  .error (.err "WRONGTYPE Operation against a key holding the wrong kind of value")

/-! ## Containers -/

/-- A type of containers that a key can be bound to. -/
structure Container (α : Type) where
  wrap : α → StorageValue
  unwrap : StorageValue → Option α
  new : α
  isEmpty : α → Bool
  unwrap_eq_some : ∀ {value a}, unwrap value = some a ↔ value = wrap a

def StorageValue.lists : Container (List Bytes) where
  wrap := .list
  unwrap | .list items => some items | _ => none
  new := []
  isEmpty := List.isEmpty
  unwrap_eq_some {value a} := by cases value <;> simp

def StorageValue.sets : Container (Std.ExtTreeSet Bytes compare) where
  wrap := .set
  unwrap | .set members => some members | _ => none
  new := ∅
  isEmpty := Std.ExtTreeSet.isEmpty
  unwrap_eq_some {value a} := by cases value <;> simp

def StorageValue.hashes : Container (Std.ExtTreeMap Bytes Bytes compare) where
  wrap := .hash
  unwrap | .hash fields => some fields | _ => none
  new := ∅
  isEmpty := Std.ExtTreeMap.isEmpty
  unwrap_eq_some {value a} := by cases value <;> simp

def StorageValue.zsets : Container ZSet where
  wrap := .zset
  unwrap | .zset z => some z | _ => none
  new := ZSet.new
  isEmpty := ZSet.isEmpty
  unwrap_eq_some {value a} := by cases value <;> simp

namespace Container

variable {α : Type}

/-- The slot of a container from which elements were removed: the key goes with the last one. -/
def unlessEmpty (c : Container α) (a : α) : Slot :=
  if c.isEmpty a then none else some (c.wrap a)

/-- Work on the container that is there; nothing is done if there is none. -/
def existing (c : Container α) (f : α → Slot × Except Fault Unit) : SlotOp
  | none => (none, .ok ())
  | some value =>
    match c.unwrap value with
    | some a => f a
    | none => (some value, wrongType)

/-- Work on the container that is there, or on a new one. -/
def orInsert (c : Container α) (f : α → α × Except Fault Unit) : SlotOp
  | none =>
    let (a, result) := f c.new
    (some (c.wrap a), result)
  | some value =>
    match c.unwrap value with
    | some a =>
      let (a, result) := f a
      (some (c.wrap a), result)
    | none => (some value, wrongType)

/-- What a slot is to a type of containers: empty, one of them, or of another type. -/
inductive View (c : Container α) : Slot → Prop where
  | vacant : View c none
  | held (a : α) : View c (some (c.wrap a))
  | other {value : StorageValue} (type : c.unwrap value = none) : View c (some value)

/-- A slot is vacant, holds the container or another type. -/
lemma view (c : Container α) (slot : Slot) : c.View slot := by
  cases slot with
  | none => exact .vacant
  | some value =>
    cases e : c.unwrap value with
    | none => exact .other e
    | some a =>
      rw [c.unwrap_eq_some.mp e]
      exact .held a

/-- A container is unwrapped as it was wrapped. -/
@[simp] lemma unwrap_wrap (c : Container α) (a : α) : c.unwrap (c.wrap a) = some a :=
  c.unwrap_eq_some.mpr rfl

variable {c : Container α} {value : StorageValue} {a : α}

/-- An empty container is not kept. -/
lemma unlessEmpty_of_empty (isEmpty : c.isEmpty a = true) : c.unlessEmpty a = none := by
  rw [unlessEmpty, if_pos isEmpty]

/-- A filled container is kept. -/
lemma unlessEmpty_of_filled (filled : c.isEmpty a = false) : c.unlessEmpty a = some (c.wrap a) := by
  rw [unlessEmpty, filled]
  rfl

/-- Only an empty container is not kept. -/
lemma unlessEmpty_eq_none : c.unlessEmpty a = none ↔ c.isEmpty a = true := by
  cases isEmpty : c.isEmpty a with
  | true => exact iff_of_true (unlessEmpty_of_empty isEmpty) rfl
  | false =>
    rw [unlessEmpty_of_filled isEmpty]
    exact iff_of_false nofun nofun

section
variable {f : α → Slot × Except Fault Unit}

/-- Nothing happens at a vacant key. -/
@[simp] lemma existing_none : c.existing f none = (none, .ok ()) := rfl

/-- The operation is done on the container. -/
@[simp] lemma existing_wrap : c.existing f (some (c.wrap a)) = f a := by simp [existing]

/-- Another type is refused. -/
lemma existing_other (type : c.unwrap value = none) :
    c.existing f (some value) = (some value, wrongType) := by
  simp [existing, type]

end

section
variable {f : α → α × Except Fault Unit}

/-- The operation is done on a new container. -/
@[simp] lemma orInsert_none : c.orInsert f none = (some (c.wrap (f c.new).1), (f c.new).2) := rfl

/-- The operation is done on the container. -/
@[simp] lemma orInsert_wrap :
    c.orInsert f (some (c.wrap a)) = (some (c.wrap (f a).1), (f a).2) := by
  simp [orInsert]

/-- Another type is refused. -/
lemma orInsert_other (type : c.unwrap value = none) :
    c.orInsert f (some value) = (some value, wrongType) := by
  simp [orInsert, type]

end

end Container

/-! ## Reads -/

/-- `range`, on the entries of an ordered map or set. -/
def rangeBy {ι : Type} (name : ι → Bytes) (lower upper : Bound Bytes) (entries : List ι) : List ι :=
  entries.filter fun entry => lower.admitsFrom compare (name entry) &&
    upper.admitsUpTo compare (name entry)

/-- The skeleton of `first`, `last`, `next` and `prev`, after which entries of the database are
taken. -/
def readKeys (entries : Std.ExtTreeMap Bytes StorageValue compare → List (Bytes × StorageValue))
    (s : StorageInner) (db count : Nat) : List Bytes :=
  if count = 0 then []
  else
    match s.map[db]? with
    | none => []
    | some dbMap => ((entries dbMap).take count).map fun (key, _) => key

/-- The same for the reads of a container, after which entries of it are taken and what is returned
for each. -/
def readItems {α ι ο : Type} (c : Container α) (entries : α → List ι) (item : ι → ο)
    (s : StorageInner) (db : Nat) (key : Bytes) (count : Nat) : Except Fault (List ο) :=
  if count = 0 then .ok []
  else
    match s.lookup db key with
    | none => .ok []
    | some value =>
      match c.unwrap value with
      | some a => .ok (((entries a).take count).map item)
      | none => wrongType

namespace StorageInner

/-- `first`. -/
def first (s : StorageInner) (db count : Nat) : List Bytes :=
  readKeys (fun dbMap => dbMap.toList) s db count

/-- `last`. -/
def last (s : StorageInner) (db count : Nat) : List Bytes :=
  readKeys (fun dbMap => dbMap.toList.reverse) s db count

/-- `next`. -/
def next (s : StorageInner) (db : Nat) (key : Bytes) (count : Nat) : List Bytes :=
  readKeys (fun dbMap => rangeBy Prod.fst (.excluded key) .unbounded dbMap.toList) s db count

/-- `prev`. -/
def prev (s : StorageInner) (db : Nat) (key : Bytes) (count : Nat) : List Bytes :=
  readKeys (fun dbMap => (rangeBy Prod.fst .unbounded (.excluded key) dbMap.toList).reverse) s db
    count

end StorageInner

end Veidrodelis.TsNif
