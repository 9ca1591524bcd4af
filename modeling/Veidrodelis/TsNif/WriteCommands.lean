import Veidrodelis.RedisStream.CommandParser

/-!
# Execution of command tuples

`native/vdr_ts_nif/src/write_commands.rs` and the NIF `tx` of `lib.rs`: the arguments of a tuple are
decoded, the operation of the storage is performed, and the results of a batch are collected. A
panic ends the batch; the storage keeps what was done until then, and the mutex is taken although it
is poisoned.
-/

namespace Veidrodelis.TsNif
open RedisNif (Fault)
open RedisStream (BoundTerm Command ScoreTerm)

/-! ## Decoding -/

/-- `decode::<i64>`. -/
def decodeI64 (i : Int) : Option Int := if inI64 i then some i else none

/-- An integer that decodes as `i64` fits. -/
lemma decodeI64_fits {i j : Int} (h : decodeI64 i = some j) : inI64 j := by
  unfold decodeI64 at h
  split at h
  · rename_i fits
    exact Option.some.inj h ▸ fits
  · cases h

/-- `decode::<f64>`: atoms are no floats. -/
def decodeF64 : ScoreTerm → Option Score
  | .float bits => some bits
  | _ => none

/-- `decode_score`. -/
def decodeScore : ScoreTerm → Score
  | .float bits => bits
  | .posInf => Binary64.infBits
  | .negInf => Binary64.withSign true Binary64.infBits
  | .nan => Binary64.nanBits

/-- `decode_score_bound`. -/
def decodeScoreBound : Bound BoundTerm → Option (Bound Score)
  | .unbounded => some .unbounded
  | .included (.float bits) => some (.included bits)
  | .excluded (.float bits) => some (.excluded bits)
  | _ => none

/-- `decode::<String>`. -/
def decodeString (text : Bytes) : Option Bytes := if Bytes.validUtf8 text then some text else none

/-- The loop over the options of `handle_zrangestore`. -/
def rangeOptions (options : RangeOptions) : List Bytes → RangeOptions
  | [] => options
  | word :: rest =>
    if word = ascii "BYSCORE" then rangeOptions { options with byScore := true } rest
    else if word = ascii "BYLEX" then rangeOptions { options with byLex := true } rest
    else if word = ascii "REV" then rangeOptions { options with rev := true } rest
    else if word = ascii "LIMIT" then
      match rest with
      | offset :: count :: rest' =>
        match parseI64 offset, parseI64 count with
        | some offset, some count =>
          rangeOptions { options with limit := some (offset, count) } rest'
        | _, _ => rangeOptions options (offset :: count :: rest')
      | rest => rangeOptions options rest
    else rangeOptions options rest

/-- An argument that does not decode: `Err`, and nothing is done. -/
def decoded {α : Type} (arg : Option α) (msg : String) (op : α → Op) : Op :=
  match arg with
  | some a => op a
  | none => fun s => (s, .error (.err msg))

/-! ## The handlers -/

/-- The commands that the storage accepts and ignores. -/
def ignored : Op := fun s => (s, .ok ())

/-- The commands that it does not know. -/
def unknown : Op := fun s => (s, .error (.err "Unknown write command"))

def countError (name : String) : String :=
  name ++ " requires 2 arguments: key must be a binary, count must be an integer"

/-- `handle_zunionstore` and `handle_zinterstore`. -/
def zstore (name : String) (op : List Score → Op) (weights : List ScoreTerm) : Op :=
  decoded (weights.mapM decodeF64) (name ++ " requires 4 arguments: dest_key must be a binary, " ++
    "source_keys must be a list of binaries, weights must be a list of floats, " ++
    "aggregate must be an atom") op

/-- `handle_zrangestore`. -/
def handleZrangestore [Indexset] (db : Nat) (destKey sourceKey min max : Bytes)
    (options : List Bytes) : Op :=
  decoded (do
      let min ← decodeString min
      let max ← decodeString max
      let options ← options.mapM decodeString
      return (min, max, options))
    ("ZRANGESTORE requires 5 arguments: dest_key and source_key must be binaries, min_str and max_str " ++
      "must be strings, options must be a list of strings")
    fun (min, max, options) =>
      zrangestore db destKey sourceKey min max (rangeOptions ⟨false, false, false, none⟩ options)

/-- `dispatch_write_command`. -/
def dispatch [Indexset] (db : Nat) : Command → Op
  | .set key value => set db key value
  | .del keys => delAll db keys
  | .mset pairs => mset db pairs
  | .msetex pairs => mset db pairs
  | .pexpireat _ _ => ignored
  | .persist _ => ignored
  | .copy source destination replace => copyKey db source destination replace
  | .rename oldKey newKey => rename db oldKey newKey
  | .renamenx oldKey newKey => renamenx db oldKey newKey
  | .moveKey key targetDb =>
    decoded (decodeU64 targetDb)
      "MOVE requires 2 arguments: key must be a binary, target_db must be an integer"
      fun targetDb => moveKey db targetDb key
  | .append key value => atKey db key (append value)
  | .setrange key offset value =>
    decoded (decodeU64 offset)
      "SETRANGE requires 3 arguments: key and value must be binaries, offset must be an integer"
      fun offset => atKey db key (setrange offset value)
  | .incr key => atKey db key incr
  | .incrby key increment =>
    decoded (decodeI64 increment)
      "INCRBY requires 2 arguments: key must be a binary, increment must be an integer"
      fun increment => atKey db key (incrby increment)
  | .decr key => atKey db key decr
  | .decrby key decrement =>
    decoded (decodeI64 decrement)
      "DECRBY requires 2 arguments: key must be a binary, decrement must be an integer"
      fun decrement => atKey db key (decrby decrement)
  | .setnx key value => set db key value
  | .msetnx pairs => mset db pairs
  | .getset key value => set db key value
  | .getdel key => delAll db [key]
  | .sadd key members => atKey db key (sadd members)
  | .srem key members => atKey db key (srem members)
  | .smove source destination member => smove db source destination member
  | .sunionstore destination sources => sunionstore db destination sources
  | .sinterstore destination sources => sinterstore db destination sources
  | .sdiffstore destination sources => sdiffstore db destination sources
  | .lpush key values => atKey db key (lpush values)
  | .rpush key values => atKey db key (rpush values)
  | .lpop key => atKey db key lpop
  | .rpop key => atKey db key rpop
  | .lset key index value =>
    decoded (decodeI64 index)
      "LSET requires 3 arguments: key and value must be binaries, index must be an integer"
      fun index => atKey db key (lset index value)
  | .rpoplpush source destination => rpoplpush db source destination
  | .lpopCount key count =>
    decoded (decodeU64 count) (countError "LPOP") fun count => atKey db key (lpopCount count)
  | .rpopCount key count =>
    decoded (decodeU64 count) (countError "RPOP") fun count => atKey db key (rpopCount count)
  | .lmove source destination wherefrom whereto => lmove db source destination wherefrom whereto
  | .lpushx key values => atKey db key (lpushx values)
  | .rpushx key values => atKey db key (rpushx values)
  | .lrem key count value =>
    decoded (decodeI64 count)
      "LREM requires 3 arguments: key and value must be binaries, count must be an integer"
      fun count => atKey db key (lrem count value)
  | .ltrim key start stop =>
    decoded (do return (← decodeI64 start, ← decodeI64 stop))
      "LTRIM requires 3 arguments: key must be a binary, start and stop must be integers"
      fun (start, stop) => atKey db key (ltrim start stop)
  | .linsert key before pivot element => atKey db key (linsert before pivot element)
  | .hset key field value => atKey db key (hset field value)
  | .hmset key fields => atKey db key (hmset fields)
  | .hdel key fields => atKey db key (hdel fields)
  | .hgetdel key fields => atKey db key (hdel fields)
  | .hsetnx key field value => atKey db key (hsetnx field value)
  | .hincrby key field increment =>
    decoded (decodeI64 increment)
      "HINCRBY requires 3 arguments: key and field must be binaries, delta must be an integer"
      fun increment => atKey db key (hincrby field increment)
  | .hincrbyfloat key field increment =>
    decoded (decodeF64 increment)
      "HINCRBYFLOAT requires 3 arguments: key and field must be binaries, delta must be a float"
      fun increment => atKey db key (hincrbyfloat field increment)
  | .hsetex key mode fields => atKey db key (hsetex mode fields)
  | .zadd key members options =>
    atKey db key (zadd (members.map fun (score, member) => (decodeScore score, member)) options)
  | .zrem key members => atKey db key (zrem members)
  | .zpopmax key count =>
    decoded (decodeU64 count) (countError "ZPOPMAX") fun count => atKey db key (zpopmax count)
  | .zpopmin key count =>
    decoded (decodeU64 count) (countError "ZPOPMIN") fun count => atKey db key (zpopmin count)
  | .zremrangebyrank key start stop =>
    decoded (do return (← decodeI64 start, ← decodeI64 stop))
      "ZREMRANGEBYRANK requires 3 arguments: key must be a binary, start and stop must be integers"
      fun (start, stop) => atKey db key (zremrangebyrank start stop)
  | .zremrangebyscore key min max =>
    decoded (do return (← decodeScoreBound min, ← decodeScoreBound max))
      ("ZREMRANGEBYSCORE min and max must be valid score bounds " ++
        "(:unbounded, \x7b:included, score\x7d, or \x7b:excluded, score\x7d)")
      fun (min, max) => atKey db key (zremrangebyscore min max)
  | .zremrangebylex key min max => atKey db key (zremrangebylex min max)
  | .zunionstore destination sources weights aggregate =>
    zstore "ZUNIONSTORE"
      (fun weights => zunionstore db destination sources weights aggregate) weights
  | .zinterstore destination sources weights aggregate =>
    zstore "ZINTERSTORE"
      (fun weights => zinterstore db destination sources weights aggregate) weights
  | .zdiffstore destination sources => zdiffstore db destination sources
  | .zrangestore destination source min max options =>
    handleZrangestore db destination source min max options
  | .zincrby key increment member =>
    decoded (decodeF64 increment)
      "ZINCRBY requires 3 arguments: key and member must be binaries, delta must be a float"
      fun increment => atKey db key (zincrby increment member)
  | .flushall => flushall
  | .flushdb => flushdb db
  | .swapdb db1 db2 =>
    decoded (do return (← decodeU64 db1, ← decodeU64 db2))
      "SWAPDB requires 2 arguments: db1 and db2 must be integers"
      fun (db1, db2) => swapdb db1 db2
  | .setbit _ _ _ => unknown
  | .hpexpireat _ _ _ _ => unknown
  | .hpersist _ _ => unknown
  | .generic _ => unknown

/-- `execute`. -/
def execute [Indexset] (db : Nat) (command : Command) : Op :=
  decoded (decodeU64 db) "Database index must be an unsigned integer" fun db => dispatch db command

/-- In a database of 64 bits a command is dispatched. -/
lemma execute_of_lt [Indexset] {db : Nat} (small : db < 2 ^ 64) (command : Command) :
    execute db command = dispatch db command := by
  have here : decodeU64 db = some db := if_pos small
  rw [execute, here, decoded]

/-- In no other database a command is performed. -/
lemma execute_of_ge [Indexset] {db : Nat} (large : ¬ db < 2 ^ 64) (command : Command)
    (s : StorageInner) :
    execute db command s = (s, .error (.err "Database index must be an unsigned integer")) := by
  have gone : decodeU64 db = none := if_neg large
  rw [execute, gone, decoded]

/-- The storage after some commands. -/
def executeAll [Indexset] : List (Nat × Command) → StorageInner → StorageInner
  | [], s => s
  | (db, command) :: rest, s => executeAll rest (execute db command s).1

/-- Batches are executed one after the other. -/
lemma executeAll_append [Indexset] (before after : List (Nat × Command)) (s : StorageInner) :
    executeAll (before ++ after) s = executeAll after (executeAll before s) := by
  induction before generalizing s with
  | nil => rfl
  | cons first rest ih =>
    obtain ⟨db, command⟩ := first
    rw [List.cons_append, executeAll, executeAll]
    exact ih _

/-- The NIF `tx`: the storage afterwards, and the results of the commands or the panic. -/
def tx [Indexset] : List (Nat × Command) → StorageInner →
    StorageInner × Except Fault (List (Except Fault Unit))
  | [], s => (s, .ok [])
  | (db, command) :: rest, s =>
    match execute db command s with
    | (s, .error (.panic msg)) => (s, .error (.panic msg))
    | (s, result) =>
      let (s, results) := tx rest s
      (s, results.map (result :: ·))

end Veidrodelis.TsNif
