import Veidrodelis.TsNif.Storage

/-!
# Strings and keys

`native/vdr_ts_nif/src/storage/strings.rs`: the commands on strings, and those that take whole
values from key to key and from database to database.
-/

namespace Veidrodelis.TsNif
open RedisNif (Fault isizeMax usizeSize)

/-! ## Numbers -/

/-- The numbers of an `i64`. -/
def inI64 (i : Int) : Bool := -2 ^ 63 ≤ i && i < 2 ^ 63

/-- `str::parse::<i64>`; what is not UTF-8 is no number. -/
def parseI64 (text : Bytes) : Option Int := (Bytes.parseInt text).filter inI64

/-! ## Whole values -/

/-- `set`. -/
def set (db : Nat) (key value : Bytes) : Op := fun s => (s.put db key (.string value), .ok ())

/-- `mset`. -/
def mset (db : Nat) (pairs : List (Bytes × Bytes)) : Op := fun s =>
  (pairs.foldl (fun s (key, value) => s.put db key (.string value)) s, .ok ())

/-- The loop of `DEL` around `del`. -/
def delAll (db : Nat) (keys : List Bytes) : Op := fun s =>
  (keys.foldl (fun s key => s.del db key) s, .ok ())

/-- `rename`. -/
def rename (db : Nat) (oldKey newKey : Bytes) : Op := fun s =>
  match s.lookup db oldKey with
  | none => (s, .ok ())
  | some value => ((s.del db oldKey).put db newKey value, .ok ())

/-- `renamenx`. -/
def renamenx (db : Nat) (oldKey newKey : Bytes) : Op := fun s =>
  if (s.lookup db newKey).isSome then (s, .ok ())
  else rename db oldKey newKey s

/-- `move_key`. -/
def moveKey (sourceDb destDb : Nat) (key : Bytes) : Op := fun s =>
  match s.lookup sourceDb key with
  | none => (s, .ok ())
  | some value => ((s.del sourceDb key).put destDb key value, .ok ())

/-- `clone` of a value: a sorted set is rebuilt. -/
def StorageValue.clone : StorageValue → StorageValue
  | .zset z => .zset z.clone
  | value => value

/-- `copy_key`. -/
def copyKey (db : Nat) (source destination : Bytes) (replace : Bool) : Op := fun s =>
  if !replace && (s.lookup db destination).isSome then (s, .ok ())
  else
    match s.lookup db source with
    | none => (s, .ok ())
    | some value => (s.put db destination value.clone, .ok ())

/-- `flushall`. -/
def flushall : Op := fun _ => (⟨∅⟩, .ok ())

/-- `flushdb`. -/
def flushdb (db : Nat) : Op := fun s => (⟨s.map.erase db⟩, .ok ())

/-- `swapdb`. -/
def swapdb (db1 db2 : Nat) : Op := fun s =>
  let content1 := s.map[db1]?
  let map := s.map.erase db1
  let content2 := map[db2]?
  let map := map.erase db2
  let map := match content1 with
    | some c1 => map.insert db2 c1
    | none => map
  let map := match content2 with
    | some c2 => map.insert db1 c2
    | none => map
  (⟨map⟩, .ok ())

/-- `FLUSHDB` leaves the other databases. -/
lemma lookup_flushdb (s : StorageInner) (db db' : Nat) (key : Bytes) :
    (flushdb db s).1.lookup db' key = if db' = db then none else s.lookup db' key := by
  rw [flushdb, StorageInner.lookup, Std.ExtTreeMap.getElem?_erase]
  by_cases d : db' = db
  · simp [d]
  · simp [d, Ne.symm d, StorageInner.lookup]

/-- The databases change places. -/
lemma lookup_swapdb (s : StorageInner) (db1 db2 db : Nat) (key : Bytes) :
    (swapdb db1 db2 s).1.lookup db key =
      s.lookup (if db = db1 then db2 else if db = db2 then db1 else db) key := by
  suffices maps : (swapdb db1 db2 s).1.map[db]? =
      s.map[if db = db1 then db2 else if db = db2 then db1 else db]? by
    rw [StorageInner.lookup, maps, StorageInner.lookup]
  unfold swapdb
  simp only [Std.ExtTreeMap.getElem?_erase, Std.LawfulEqCmp.compare_eq_iff_eq]
  by_cases same : db1 = db2
  · subst same
    cases first : s.map[db1]? with
    | none => grind
    | some c1 => grind
  · cases first : s.map[db1]? with
    | none => cases second : s.map[db2]? <;> grind
    | some c1 => cases second : s.map[db2]? <;> grind

/-! ## Strings -/

/-- `append`. -/
def append (value : Bytes) : SlotOp
  | some (.string existing) => (some (.string (existing ++ value)), .ok ())
  | some other => (some other, wrongType)
  | none => (some (.string value), .ok ())

/-- What `setrange` makes of the bytes of a string: the vector is extended with zero bytes if it is
too short, and a part of it is overwritten. -/
def overwrite (offset : Nat) (value bytes : Bytes) : Except Fault Bytes :=
  let endPos := offset + value.length
  if usizeSize ≤ endPos then .error (.panic "attempt to add with overflow")
  else if bytes.length < endPos ∧ isizeMax < endPos then .error (.panic "capacity overflow")
  else
    let bytes := bytes ++ List.replicate (endPos - bytes.length) 0
    .ok (bytes.take offset ++ value ++ bytes.drop endPos)

/-- `setrange`. -/
def setrange (offset : Nat) (value : Bytes) : SlotOp
  | some (.string existing) =>
    match overwrite offset value existing with
    | .ok bytes => (some (.string bytes), .ok ())
    | .error fault => (some (.string existing), .error fault)
  | some other => (some other, wrongType)
  | none =>
    match overwrite offset value [] with
    | .ok bytes => (some (.string bytes), .ok ())
    | .error fault => (none, .error fault)

/-- The skeleton of the commands on a number: the new value of a number that is there, the value if
there is none, and what is answered when it is out of range. -/
def bump (overflow : String) (next : Int → Int) (fresh : Int) : SlotOp
  | some (.string existing) =>
    match parseI64 existing with
    | none => (some (.string existing), .error (.err "value is not an integer or out of range"))
    | some current =>
      if inI64 (next current) then (some (.string (Bytes.intText (next current))), .ok ())
      else (some (.string existing), .error (.err overflow))
  | some other => (some other, wrongType)
  | none =>
    if inI64 fresh then (some (.string (Bytes.intText fresh)), .ok ())
    else (none, .error (.err overflow))

/-- `incr`. -/
def incr : SlotOp := bump "increment would overflow" (· + 1) 1

/-- `incrby`. -/
def incrby (increment : Int) : SlotOp := bump "increment would overflow" (· + increment) increment

/-- `decr`. -/
def decr : SlotOp := bump "decrement would overflow" (· - 1) (-1)

/-- `decrby`. -/
def decrby (decrement : Int) : SlotOp :=
    bump "decrement would overflow" (· - decrement) (-decrement)

end Veidrodelis.TsNif
