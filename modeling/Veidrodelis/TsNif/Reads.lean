import Veidrodelis.TsNif.ZSets

/-!
# Reads of a storage

The functions of `native/vdr_ts_nif/src/storage` that read one value, besides those that stand with
the commands on its type. A key that is not there is read like an empty container; a value of
another type is refused.

`srandmember` and `hrandfield` draw from a generator of the crate `rand`, whose source is not part
of the repository: what it promises is in `Dice`.
-/

namespace Veidrodelis.TsNif
open RedisNif (Fault isizeMax)
open StorageValue (hashes lists sets zsets)

/-- The skeleton of the reads of one container: what is read in it, and what is answered if there is
none. -/
def readOf {α ο : Type} (c : Container α) (missing : ο) (read : α → ο) (s : StorageInner) (db : Nat)
    (key : Bytes) : Except Fault ο :=
  match s.lookup db key with
  | none => .ok missing
  | some value =>
    match c.unwrap value with
    | some a => .ok (read a)
    | none => wrongType

/-! ## Strings and lists -/

/-- `get`. -/
def get (s : StorageInner) (db : Nat) (key : Bytes) : Except Fault (Option Bytes) :=
  match s.lookup db key with
  | some (.string value) => .ok (some value)
  | some _ => wrongType
  | none => .ok none

/-- `llen`. -/
def llen : StorageInner → Nat → Bytes → Except Fault Nat := readOf lists 0 List.length

/-! ## Sets -/

/-- `sismember`. -/
def sismember (s : StorageInner) (db : Nat) (key member : Bytes) : Except Fault Bool :=
  readOf sets false (fun members => members.contains member) s db key

/-- `scard`. -/
def scard : StorageInner → Nat → Bytes → Except Fault Nat :=
  readOf sets 0 fun members => members.size

/-- `smismember`. -/
def smismember (s : StorageInner) (db : Nat) (key : Bytes) (asked : List Bytes) :
    Except Fault (List Bool) :=
  readOf sets (List.replicate asked.length false)
    (fun members => asked.map fun member => members.contains member)
    s db key

/-- `sintercard`. -/
def sintercard (s : StorageInner) (db : Nat) (sourceKeys : List Bytes) : Except Fault Nat :=
  (fromFirst s db (interFrom s db) sourceKeys).map (·.size)

/-! ## Hashes -/

/-- `hget`. -/
def hget (s : StorageInner) (db : Nat) (key field : Bytes) : Except Fault (Option Bytes) :=
  readOf hashes none (fun fields => fields[field]?) s db key

/-- `hmget`. -/
def hmget (s : StorageInner) (db : Nat) (key : Bytes) (asked : List Bytes) :
    Except Fault (List (Option Bytes)) :=
  readOf hashes (List.replicate asked.length none)
    (fun fields => asked.map fun field => fields[field]?) s db key

/-- `hgetall`. -/
def hgetall : StorageInner → Nat → Bytes → Except Fault (List (Bytes × Bytes)) :=
  readOf hashes [] fun fields => fields.toList

/-- `hkeys`. -/
def hkeys : StorageInner → Nat → Bytes → Except Fault (List Bytes) :=
  readOf hashes [] fun fields => fields.keys

/-- `hvals`. -/
def hvals : StorageInner → Nat → Bytes → Except Fault (List Bytes) :=
  readOf hashes [] fun fields => fields.values

/-- `hlen`. -/
def hlen : StorageInner → Nat → Bytes → Except Fault Nat :=
  readOf hashes 0 fun fields => fields.size

/-- `hexists`. -/
def hexists (s : StorageInner) (db : Nat) (key field : Bytes) : Except Fault Bool :=
  readOf hashes false (fun fields => fields.contains field) s db key

/-- `hstrlen`. -/
def hstrlen (s : StorageInner) (db : Nat) (key field : Bytes) : Except Fault Nat :=
  readOf hashes 0 (fun fields => (fields[field]?.map List.length).getD 0) s db key

/-! ## Sorted sets -/

/-- `zcard`. -/
def zcard : StorageInner → Nat → Bytes → Except Fault Nat := readOf zsets 0 ZSet.len

/-! ## Random elements -/

/-- What a generator draws: an element at every turn, an order, and so many elements at different
positions. -/
structure Dice where
  choose {α : Type} (turn : Nat) (items : List α) (nonempty : items ≠ []) : {a : α // a ∈ items}
  shuffle {α : Type} (items : List α) : {shuffled : List α // shuffled.Perm items}
  sample {α : Type} (items : List α) (n : Nat) : {drawn : List α // drawn.Subperm items ∧
    drawn.length = min n items.length}

/-- A generator that always draws from the front. -/
def Dice.front : Dice where
  choose _ items some := ⟨items.head some, List.head_mem some⟩
  shuffle items := ⟨items, .refl items⟩
  sample items n := ⟨items.take n, (List.take_sublist n items).subperm, List.length_take⟩

/-- So many elements, at one position or another; the vector is allocated before. -/
def Dice.chooseMany {α : Type} (dice : Dice) (items : List α) (nonempty : items ≠ [])
    (count size : Nat) : Except Fault (List α) :=
  if isizeMax < count * size then .error (.panic "capacity overflow")
  else .ok ((List.range count).map fun turn => dice.choose turn items nonempty)

/-- What `srandmember` draws from the members; a `Bytes` has 8 bytes. -/
def drawMembers (dice : Dice) (count : Int) (members : List Bytes) : Except Fault (List Bytes) :=
  if some : members = [] then .ok []
  else if count = 0 then .ok []
  else if 0 < count then .ok ((dice.shuffle members).val.take (min count.toNat members.length))
  else dice.chooseMany members some count.natAbs 8

/-- `srandmember`. -/
def srandmember (dice : Dice) (s : StorageInner) (db : Nat) (key : Bytes) (count : Int) :
    Except Fault (List Bytes) :=
  match s.lookup db key with
  | none => .ok []
  | some (.set members) => drawMembers dice count members.toList
  | some _ => wrongType

/-- What `hrandfield` draws from the fields; a pair of a field and maybe its value has 16 bytes. -/
def drawFields (dice : Dice) (count : Int) (fields : List (Bytes × Bytes)) :
    Except Fault (List (Bytes × Bytes)) :=
  if some : fields = [] then .ok []
  else if count = 1 then .ok [dice.choose 0 fields some]
  else if 1 < count then .ok (dice.sample fields (min count.toNat fields.length)).val
  else if count < 0 then
    if -count < 2 ^ 63 then dice.chooseMany fields some count.natAbs 16
    else .error (.panic "attempt to negate with overflow")
  else .ok []

/-- `hrandfield`. -/
def hrandfield (dice : Dice) (s : StorageInner) (db : Nat) (key : Bytes) (count : Int)
    (withValues : Bool) : Except Fault (List (Bytes × Option Bytes)) :=
  match s.lookup db key with
  | none => .ok []
  | some (.hash fields) => (drawFields dice count fields.toList).map fun drawn =>
    drawn.map fun (field, value) => (field, if withValues then some value else none)
  | some _ => wrongType

end Veidrodelis.TsNif
