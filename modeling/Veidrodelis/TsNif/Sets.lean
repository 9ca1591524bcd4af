import Veidrodelis.TsNif.Lists

/-!
# Sets

`native/vdr_ts_nif/src/storage/sets.rs`.
-/

namespace Veidrodelis.TsNif
open RedisNif (Fault)
open StorageValue (sets)

/-! ## One set -/

/-- `sadd`. -/
def sadd (newMembers : List Bytes) : SlotOp :=
  sets.orInsert fun members =>
    (newMembers.foldl (fun members m => members.insert m) members, .ok ())

/-- `srem`. -/
def srem (oldMembers : List Bytes) : SlotOp :=
  sets.existing fun members =>
    (sets.unlessEmpty (oldMembers.foldl (fun members m => members.erase m) members), .ok ())

/-- `smove`. The member is taken before the type of the destination is looked at. -/
def smove (db : Nat) (sourceKey destKey member : Bytes) : Op := fun s =>
  match s.lookup db sourceKey with
  | none => (s, .ok ())
  | some (.set members) =>
    if member ∈ members then
      atKey db destKey (sets.orInsert fun members => (members.insert member, .ok ()))
        (s.store db sourceKey (sets.unlessEmpty (members.erase member)))
    else (s, .ok ())
  | some _ => (s, wrongType)

/-! ## Stored combinations -/

/-- The loop of `sunionstore`, and of `sunion`. -/
def unionFrom (s : StorageInner) (db : Nat) (acc : Std.ExtTreeSet Bytes compare) :
    List Bytes → Except Fault (Std.ExtTreeSet Bytes compare)
  | [] => .ok acc
  | sourceKey :: rest =>
    match s.lookup db sourceKey with
    | some (.set members) => unionFrom s db (acc ∪ members) rest
    | some _ => wrongType
    | none => unionFrom s db acc rest

/-- The loop of `sinterstore`, and of `sinter`: a missing set ends it. -/
def interFrom (s : StorageInner) (db : Nat) (acc : Std.ExtTreeSet Bytes compare) :
    List Bytes → Except Fault (Std.ExtTreeSet Bytes compare)
  | [] => .ok acc
  | sourceKey :: rest =>
    match s.lookup db sourceKey with
    | some (.set members) => interFrom s db (acc ∩ members) rest
    | some _ => wrongType
    | none => .ok ∅

/-- The loop of `sdiffstore`, and of `sdiff`. -/
def diffFrom (s : StorageInner) (db : Nat) (acc : Std.ExtTreeSet Bytes compare) :
    List Bytes → Except Fault (Std.ExtTreeSet Bytes compare)
  | [] => .ok acc
  | sourceKey :: rest =>
    match s.lookup db sourceKey with
    | some (.set members) => diffFrom s db (acc \ members) rest
    | some _ => wrongType
    | none => diffFrom s db acc rest

/-- The first set of an intersection or a difference, and the loop over the others. -/
def fromFirst (s : StorageInner) (db : Nat)
    (loop : Std.ExtTreeSet Bytes compare → List Bytes →
      Except Fault (Std.ExtTreeSet Bytes compare)) :
    List Bytes → Except Fault (Std.ExtTreeSet Bytes compare)
  | [] => .ok ∅
  | first :: rest =>
    match s.lookup db first with
    | some (.set members) => loop members rest
    | some _ => wrongType
    | none => loop ∅ rest

/-- The skeleton of the `STORE` commands: the destination is deleted first, and bound to the result
if it is not empty. -/
def storeResult {α : Type} (c : Container α) (db : Nat) (destKey : Bytes)
    (compute : StorageInner → Except Fault α) : Op := fun s =>
  let s := s.del db destKey
  match compute s with
  | .ok a => (if c.isEmpty a then s else s.put db destKey (c.wrap a), .ok ())
  | .error fault => (s, .error fault)

/-- What a `STORE` command finds at a source: the destination is gone. -/
def StorageInner.source (s : StorageInner) (db : Nat) (destKey key : Bytes) : Slot :=
  if key = destKey then none else s.lookup db key

/-- A source behind the deletion of the destination. -/
lemma lookup_source (s : StorageInner) (db : Nat) (destKey key : Bytes) :
    (s.del db destKey).lookup db key = s.source db destKey key := by
  rw [StorageInner.lookup_del, StorageInner.source]
  simp

/-- What is left at the destination: what was computed, or nothing. -/
lemma lookup_storeResult {α : Type} (c : Container α) (db : Nat) (destKey : Bytes)
    (compute : StorageInner → Except Fault α) (s : StorageInner) :
    (storeResult c db destKey compute s).1.lookup db destKey =
      match compute (s.del db destKey) with
      | .ok a => c.unlessEmpty a
      | .error _ => none := by
  have gone : (s.del db destKey).lookup db destKey = none := by
    rw [StorageInner.lookup_del, if_pos ⟨rfl, rfl⟩]
  simp only [storeResult]
  cases compute (s.del db destKey) with
  | error fault => exact gone
  | ok a =>
    simp only [Container.unlessEmpty]
    split
    · exact gone
    · rw [StorageInner.lookup_put, if_pos ⟨rfl, rfl⟩]

/-- `sunionstore`. -/
def sunionstore (db : Nat) (destKey : Bytes) (sourceKeys : List Bytes) : Op :=
  storeResult sets db destKey fun s => unionFrom s db ∅ sourceKeys

/-- `sinterstore`. -/
def sinterstore (db : Nat) (destKey : Bytes) (sourceKeys : List Bytes) : Op :=
  storeResult sets db destKey fun s => fromFirst s db (interFrom s db) sourceKeys

/-- `sdiffstore`. -/
def sdiffstore (db : Nat) (destKey : Bytes) (sourceKeys : List Bytes) : Op :=
  storeResult sets db destKey fun s => fromFirst s db (diffFrom s db) sourceKeys

/-! ## Reads -/

/-- `smembers`. -/
def smembers (s : StorageInner) (db : Nat) (key : Bytes) : Except Fault (List Bytes) :=
  match s.lookup db key with
  | none => .ok []
  | some (.set members) => .ok members.toList
  | some _ => wrongType

/-- `sunion`. -/
def sunion (s : StorageInner) (db : Nat) (sourceKeys : List Bytes) : Except Fault (List Bytes) :=
  (unionFrom s db ∅ sourceKeys).map (·.toList)

/-- `sinter`. -/
def sinter (s : StorageInner) (db : Nat) (sourceKeys : List Bytes) : Except Fault (List Bytes) :=
  (fromFirst s db (interFrom s db) sourceKeys).map (·.toList)

/-- `sdiff`. -/
def sdiff (s : StorageInner) (db : Nat) (sourceKeys : List Bytes) : Except Fault (List Bytes) :=
  (fromFirst s db (diffFrom s db) sourceKeys).map (·.toList)

/-- `sfirst`. -/
def sfirst (s : StorageInner) (db : Nat) (key : Bytes) (count : Nat) : Except Fault (List Bytes) :=
  readItems sets (fun members => members.toList) id s db key count

/-- `slast`. -/
def slast (s : StorageInner) (db : Nat) (key : Bytes) (count : Nat) : Except Fault (List Bytes) :=
  readItems sets (fun members => members.toList.reverse) id s db key count

/-- `snext`. -/
def snext (s : StorageInner) (db : Nat) (key member : Bytes) (count : Nat) :
    Except Fault (List Bytes) :=
  readItems sets (fun members => rangeBy id (.excluded member) .unbounded members.toList) id
    s db key count

/-- `sprev`. -/
def sprev (s : StorageInner) (db : Nat) (key member : Bytes) (count : Nat) :
    Except Fault (List Bytes) :=
  readItems sets (fun members => (rangeBy id .unbounded (.excluded member) members.toList).reverse)
    id s db key count

end Veidrodelis.TsNif
