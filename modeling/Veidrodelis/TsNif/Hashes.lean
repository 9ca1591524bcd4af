import Veidrodelis.TsNif.Sets

/-!
# Hashes

`native/vdr_ts_nif/src/storage/hashes.rs`.
-/

namespace Veidrodelis.TsNif
open RedisNif (Fault)
open StorageValue (hashes)

/-- Set fields one after the other. -/
def insertFields (fields : Std.ExtTreeMap Bytes Bytes compare) (pairs : List (Bytes × Bytes)) :
    Std.ExtTreeMap Bytes Bytes compare :=
  pairs.foldl (fun fields (field, value) => fields.insert field value) fields

/-- `hset`. -/
def hset (field value : Bytes) : SlotOp :=
  hashes.orInsert fun fields => (fields.insert field value, .ok ())

/-- `hmset`. -/
def hmset (pairs : List (Bytes × Bytes)) : SlotOp :=
  hashes.orInsert fun fields => (insertFields fields pairs, .ok ())

/-- `hdel`. -/
def hdel (names : List Bytes) : SlotOp :=
  hashes.existing fun fields =>
    (hashes.unlessEmpty (names.foldl (fun fields field => fields.erase field) fields), .ok ())

/-- `hsetnx`. -/
def hsetnx (field value : Bytes) : SlotOp :=
  hashes.orInsert fun fields =>
    (if field ∈ fields then fields else fields.insert field value, .ok ())

/-- `hincrby`. -/
def hincrby (field : Bytes) (delta : Int) : SlotOp :=
  let refused : Except Fault Unit :=
    .error (.err "ERR hash value is not an integer or out of range")
  hashes.orInsert fun fields =>
    match (match fields[field]? with
      | some existing => parseI64 existing
      | none => some 0) with
    | none => (fields, refused)
    | some current =>
      if inI64 (current + delta) then (fields.insert field (Bytes.intText (current + delta)),
        .ok ())
      else (fields, refused)

/-- `hincrbyfloat`. -/
def hincrbyfloat (field : Bytes) (delta : Nat) : SlotOp :=
  hashes.orInsert fun fields =>
    match (match fields[field]? with
      | some existing => Binary64.parse existing
      | none => some 0) with
    | none => (fields, .error (.err "ERR hash value is not a float"))
    | some current => (fields.insert field (Binary64.display (Binary64.add current delta)), .ok ())

/-- `HSetEXMode`. -/
inductive HSetEXMode where
  | nx
  | xx
  deriving DecidableEq, Repr

/-- `hsetex`. -/
def hsetex (mode : Option HSetEXMode) (pairs : List (Bytes × Bytes)) : SlotOp :=
  hashes.orInsert fun fields =>
    let admitted := match mode with
      | none => true
      | some .nx => pairs.all fun (field, _) => !(fields.contains field)
      | some .xx => pairs.all fun (field, _) => fields.contains field
    (if admitted then insertFields fields pairs else fields, .ok ())

/-! ## Reads -/

/-- `hfirst`. -/
def hfirst (s : StorageInner) (db : Nat) (key : Bytes) (count : Nat) :
    Except Fault (List (Bytes × Bytes)) :=
  readItems hashes (fun fields => fields.toList) id s db key count

/-- `hlast`. -/
def hlast (s : StorageInner) (db : Nat) (key : Bytes) (count : Nat) :
    Except Fault (List (Bytes × Bytes)) :=
  readItems hashes (fun fields => fields.toList.reverse) id s db key count

/-- `hnext`. -/
def hnext (s : StorageInner) (db : Nat) (key field : Bytes) (count : Nat) :
    Except Fault (List (Bytes × Bytes)) :=
  readItems hashes (fun fields => rangeBy Prod.fst (.excluded field) .unbounded fields.toList) id
    s db key count

/-- `hprev`. -/
def hprev (s : StorageInner) (db : Nat) (key field : Bytes) (count : Nat) :
    Except Fault (List (Bytes × Bytes)) :=
  readItems hashes
    (fun fields => (rangeBy Prod.fst .unbounded (.excluded field) fields.toList).reverse) id
    s db key count

end Veidrodelis.TsNif
