import Veidrodelis.Lib.Terms
import Veidrodelis.TsNif.WriteCommands

/-!
# Command tuples as terms

What `command_parser.ex` builds and `write_commands.rs` takes apart: a command is a tuple of an atom
and of arguments, and `dispatch_write_command` finds the handler of the atom, which decodes the
arguments one by one. `dispatch_tuple` says that nothing is lost on the way: a tuple either decodes
and is performed as the command it stands for, or is refused with the message of its handler, and
which of the two is `Command.decodes`.
-/

namespace Veidrodelis.TsNif
open RedisNif (Fault)
open RedisStream (BoundTerm Command HExpireCondition ScoreTerm)

/-! ## Tuples -/

namespace CommandTuple

/-- A tuple of terms. -/
def tupleOf (elements : List Term) : Term := .tuple (Term.ofList elements)

/-- A list of binaries. -/
def binaries (items : List Bytes) : Term := Term.ofList (items.map .binary)

/-- A list of pairs of binaries. -/
def binaryPairs (pairs : List (Bytes × Bytes)) : Term :=
  Term.ofList (pairs.map fun (a, b) => tupleOf [.binary a, .binary b])

/-- `true` and `false` are atoms. -/
def boolean (b : Bool) : Term := .atom (if b then "true" else "false")

def score : ScoreTerm → Term
  | .float bits => .float bits
  | .posInf => .atom "pos_inf"
  | .negInf => .atom "neg_inf"
  | .nan => .atom "nan"

def boundScore : BoundTerm → Term
  | .float bits => .float bits
  | .infinity => .atom "infinity"
  | .negInfinity => .atom "neg_infinity"

/-- `:unbounded`, or a tuple of `:included` or `:excluded` and a value. -/
def bound {α : Type} (value : α → Term) : Bound α → Term
  | .unbounded => .atom "unbounded"
  | .included a => tupleOf [.atom "included", value a]
  | .excluded a => tupleOf [.atom "excluded", value a]

def side : Side → Term
  | .left => .atom "left"
  | .right => .atom "right"

def zaddOption : ZAddOption → Term
  | .nx => .atom "nx"
  | .xx => .atom "xx"
  | .gt => .atom "gt"
  | .lt => .atom "lt"
  | .ch => .atom "ch"
  | .incr => .atom "incr"

def aggregate : Aggregate → Term
  | .sum => .atom "sum"
  | .min => .atom "min"
  | .max => .atom "max"

def hsetexMode : Option HSetEXMode → Term
  | none => .atom "nil"
  | some .nx => .atom "nx"
  | some .xx => .atom "xx"

def hexpireCondition : Option HExpireCondition → Term
  | none => .atom "nil"
  | some .nx => .atom "nx"
  | some .xx => .atom "xx"
  | some .gt => .atom "gt"
  | some .lt => .atom "lt"

end CommandTuple

open CommandTuple in
/-- The atom in front and the arguments behind it. -/
def commandTerms : Command → String × List Term
  | .set key value => ("set", [.binary key, .binary value])
  | .mset pairs => ("mset", [binaryPairs pairs])
  | .msetex pairs => ("msetex", [binaryPairs pairs])
  | .msetnx pairs => ("msetnx", [binaryPairs pairs])
  | .append key value => ("append", [.binary key, .binary value])
  | .setrange key offset value => ("setrange", [.binary key, .integer offset, .binary value])
  | .setbit key offset value => ("setbit", [.binary key, .integer offset, .integer value])
  | .incr key => ("incr", [.binary key])
  | .incrby key increment => ("incrby", [.binary key, .integer increment])
  | .decr key => ("decr", [.binary key])
  | .decrby key decrement => ("decrby", [.binary key, .integer decrement])
  | .setnx key value => ("setnx", [.binary key, .binary value])
  | .getset key value => ("getset", [.binary key, .binary value])
  | .getdel key => ("getdel", [.binary key])
  | .lpush key values => ("lpush", [.binary key, binaries values])
  | .rpush key values => ("rpush", [.binary key, binaries values])
  | .lpushx key values => ("lpushx", [.binary key, binaries values])
  | .rpushx key values => ("rpushx", [.binary key, binaries values])
  | .lpop key => ("lpop", [.binary key])
  | .lpopCount key count => ("lpop_count", [.binary key, .integer count])
  | .rpop key => ("rpop", [.binary key])
  | .rpopCount key count => ("rpop_count", [.binary key, .integer count])
  | .lrem key count value => ("lrem", [.binary key, .integer count, .binary value])
  | .ltrim key start stop => ("ltrim", [.binary key, .integer start, .integer stop])
  | .lset key index value => ("lset", [.binary key, .integer index, .binary value])
  | .linsert key before pivot element =>
    ("linsert", [.binary key, .atom (if before then "before" else "after"),
      .binary pivot, .binary element])
  | .rpoplpush source destination => ("rpoplpush", [.binary source, .binary destination])
  | .lmove source destination wherefrom whereto =>
    ("lmove", [.binary source, .binary destination, side wherefrom, side whereto])
  | .sadd key members => ("sadd", [.binary key, binaries members])
  | .srem key members => ("srem", [.binary key, binaries members])
  | .smove source destination member =>
    ("smove", [.binary source, .binary destination, .binary member])
  | .sinterstore destination sources => ("sinterstore", [.binary destination, binaries sources])
  | .sunionstore destination sources => ("sunionstore", [.binary destination, binaries sources])
  | .sdiffstore destination sources => ("sdiffstore", [.binary destination, binaries sources])
  | .zadd key members options =>
    ("zadd", [.binary key,
      Term.ofList (members.map fun (s, member) => tupleOf [score s, .binary member]),
      Term.ofList (options.map zaddOption)])
  | .zincrby key increment member => ("zincrby", [.binary key, score increment, .binary member])
  | .zrem key members => ("zrem", [.binary key, binaries members])
  | .zpopmax key count => ("zpopmax", [.binary key, .integer count])
  | .zpopmin key count => ("zpopmin", [.binary key, .integer count])
  | .zremrangebyrank key start stop =>
    ("zremrangebyrank", [.binary key, .integer start, .integer stop])
  | .zremrangebyscore key min max =>
    ("zremrangebyscore", [.binary key, bound boundScore min, bound boundScore max])
  | .zremrangebylex key min max =>
    ("zremrangebylex", [.binary key, bound .binary min, bound .binary max])
  | .zrangestore destination source min max options =>
    ("zrangestore", [.binary destination, .binary source, .binary min,
      .binary max, binaries options])
  | .zunionstore destination sources weights agg =>
    ("zunionstore", [.binary destination, binaries sources,
      Term.ofList (weights.map score), aggregate agg])
  | .zinterstore destination sources weights agg =>
    ("zinterstore", [.binary destination, binaries sources,
      Term.ofList (weights.map score), aggregate agg])
  | .zdiffstore destination sources => ("zdiffstore", [.binary destination, binaries sources])
  | .hset key field value => ("hset", [.binary key, .binary field, .binary value])
  | .hmset key fields => ("hmset", [.binary key, binaryPairs fields])
  | .hsetnx key field value => ("hsetnx", [.binary key, .binary field, .binary value])
  | .hincrby key field increment => ("hincrby", [.binary key, .binary field, .integer increment])
  | .hincrbyfloat key field increment =>
    ("hincrbyfloat", [.binary key, .binary field, score increment])
  | .hdel key fields => ("hdel", [.binary key, binaries fields])
  | .hgetdel key fields => ("hgetdel", [.binary key, binaries fields])
  | .hpexpireat key timestamp condition fields =>
    ("hpexpireat", [.binary key, .integer timestamp, hexpireCondition condition, binaries fields])
  | .hpersist key fields => ("hpersist", [.binary key, binaries fields])
  | .hsetex key mode fields => ("hsetex", [.binary key, hsetexMode mode, binaryPairs fields])
  | .del keys => ("del", [binaries keys])
  | .copy source destination replace =>
    ("copy", [.binary source, .binary destination, boolean replace])
  | .rename oldKey newKey => ("rename", [.binary oldKey, .binary newKey])
  | .renamenx oldKey newKey => ("renamenx", [.binary oldKey, .binary newKey])
  | .moveKey key targetDb => ("move_key", [.binary key, .integer targetDb])
  | .pexpireat key timestamp => ("pexpireat", [.binary key, .integer timestamp])
  | .persist key => ("persist", [.binary key])
  | .flushall => ("flushall", [])
  | .flushdb => ("flushdb", [])
  | .swapdb db1 db2 => ("swapdb", [.integer db1, .integer db2])
  | .generic args => ("generic", [binaries args])

/-- The tuple that stands for a command. -/
def commandTuple (command : Command) : Term :=
  CommandTuple.tupleOf (.atom (commandTerms command).1 :: (commandTerms command).2)

/-! ## Decoding -/

namespace WriteCommands

variable {α β : Type}

/-- `decode::<Binary>`. -/
def decodeBinary : Term → Option Bytes
  | .binary bytes => some bytes
  | _ => none

/-- `decode::<Atom>`. -/
def decodeAtom : Term → Option String
  | .atom name => some name
  | _ => none

/-- `decode::<bool>`. -/
def decodeBool : Term → Option Bool
  | .atom name => if name = "true" then some true else if name = "false" then some false else none
  | _ => none

/-- `decode` of a machine integer. -/
def decodeInteger (fits : Int → Option α) : Term → Option α
  | .integer n => fits n
  | _ => none

/-- `decode::<f64>`: an integer of 64 bits is taken for a float, too. -/
def decodeFloat : Term → Option Score
  | .float bits => some bits
  | .integer n => (decodeI64 n).map Binary64.ofInt
  | _ => none

/-- `decode::<String>`. -/
def decodeText (term : Term) : Option Bytes := (decodeBinary term).bind decodeString

/-- The items of a list, up to the first one that does not decode. The iterator panics at a tail
that is no list. -/
def decodeItems (decode : Term → Option α) : Term → Except Fault (Option (List α))
  | .nil => .ok (some [])
  | .cons head tail =>
    match decode head with
    | some a => (decodeItems decode tail).map (Option.map (a :: ·))
    | none => .ok none
  | _ => .error (.panic "list is not proper")

/-- `decode::<Vec<_>>`. -/
def decodeVec (decode : Term → Option α) : Term → Except Fault (Option (List α))
  | .nil => decodeItems decode .nil
  | .cons head tail => decodeItems decode (.cons head tail)
  | _ => .ok none

/-- Both of two results. -/
def pair (x : Option α) (y : Option β) : Option (α × β) := do return (← x, ← y)

/-- `decode` of a pair. -/
def decodePair (first : Term → Option α) (second : Term → Option β) : Term → Option (α × β)
  | .tuple elements =>
    match elements.toList with
    | some [a, b] => pair (first a) (second b)
    | _ => none
  | _ => none

/-- `decode_score`: the atoms first. -/
def decodeScore : Term → Option Score
  | .atom name =>
    if name = "pos_inf" then some Binary64.infBits
    else if name = "neg_inf" then some (Binary64.withSign true Binary64.infBits)
    else if name = "nan" then some Binary64.nanBits
    else none
  | term => decodeFloat term

/-- `decode_score_bound` and `decode_lex_bound`. -/
def decodeBound (value : Term → Option α) (term : Term) : Option (Bound α) :=
  if decodeAtom term = some "unbounded" then some .unbounded
  else
    match decodePair decodeAtom value term with
    | some (kind, a) =>
      if kind = "included" then some (.included a)
      else if kind = "excluded" then some (.excluded a)
      else none
    | none => none

/-! ## Handlers -/

/-- What a handler makes of its arguments: an operation, or the message with which it refuses them.
An argument that is missing panics, and a list that ends in another term. -/
abbrev Handled := Except Fault Op

def refuse {γ : Type} (msg : String) : Except Fault γ := .error (.err msg)

/-- `args[i].decode()`. -/
def arg (i : Nat) (decode : Term → Option α) (args : List Term) : Except Fault (Option α) :=
  match args[i]? with
  | some term => .ok (decode term)
  | none => .error (.panic "index out of bounds")

/-- The same for a list. -/
def vecArg (i : Nat) (decode : Term → Option α) (args : List Term) :
    Except Fault (Option (List α)) :=
  match args[i]? with
  | some term => decodeVec decode term
  | none => .error (.panic "index out of bounds")

/-- Two arguments are decoded, whether the first one decodes or not. -/
def both (first : List Term → Except Fault (Option α))
    (second : List Term → Except Fault (Option β)) (args : List Term) :
    Except Fault (Option (α × β)) := do
  let a ← first args
  let b ← second args
  return pair a b

/-- The skeleton of the handlers. -/
def handler (decode : List Term → Except Fault (Option α)) (msg : String) (op : α → Op)
    (args : List Term) :
    Handled := do
  match ← decode args with
  | some a => return op a
  | none => refuse msg

def binaryArg (i : Nat) : List Term → Except Fault (Option Bytes) := arg i decodeBinary

def binariesArg (i : Nat) : List Term → Except Fault (Option (List Bytes)) := vecArg i decodeBinary

def pairsArg (i : Nat) : List Term → Except Fault (Option (List (Bytes × Bytes))) :=
  vecArg i (decodePair decodeBinary decodeBinary)

def u64Arg (i : Nat) : List Term → Except Fault (Option Nat) := arg i (decodeInteger decodeU64)

def i64Arg (i : Nat) : List Term → Except Fault (Option Int) := arg i (decodeInteger decodeI64)

variable (db : Nat)

def handleSet := handler (both (binaryArg 0) (binaryArg 1))
  "SET requires 2 arguments: key and value must be binaries" fun (key, value) => set db key value

def handleDel := handler (binariesArg 0) "DEL requires 1 argument: keys must be a list of binaries"
  fun keys => delAll db keys

def handleMset := handler (pairsArg 0)
  "MSET requires 1 argument: pairs must be a list of \x7bkey, value\x7d tuples"
    fun pairs => mset db pairs

def handleMsetex := handleMset db

def handlePexpireat : Handled := .ok ignored

def handlePersist : Handled := .ok ignored

def handleCopy := handler (both (binaryArg 0) (both (binaryArg 1) (arg 2 decodeBool)))
  "COPY requires 3 arguments: source and destination must be binaries, replace must be a boolean"
  fun (source, destination, replace) => copyKey db source destination replace

def handleRename := handler (both (binaryArg 0) (binaryArg 1))
  "RENAME requires 2 arguments: old_key and new_key must be binaries"
  fun (oldKey, newKey) => rename db oldKey newKey

def handleRenamenx := handler (both (binaryArg 0) (binaryArg 1))
  "RENAMENX requires 2 arguments: old_key and new_key must be binaries"
  fun (oldKey, newKey) => renamenx db oldKey newKey

def handleMoveKey := handler (both (binaryArg 0) (u64Arg 1))
  "MOVE requires 2 arguments: key must be a binary, target_db must be an integer"
  fun (key, targetDb) => moveKey db targetDb key

def handleAppend := handler (both (binaryArg 0) (binaryArg 1))
  "APPEND requires 2 arguments: key and value must be binaries"
  fun (key, value) => atKey db key (append value)

def handleSetrange := handler (both (binaryArg 0) (both (u64Arg 1) (binaryArg 2)))
  "SETRANGE requires 3 arguments: key and value must be binaries, offset must be an integer"
  fun (key, offset, value) => atKey db key (setrange offset value)

def handleIncr := handler (binaryArg 0) "INCR requires 1 argument: key must be a binary"
  fun key => atKey db key incr

def handleIncrby := handler (both (binaryArg 0) (i64Arg 1))
  "INCRBY requires 2 arguments: key must be a binary, increment must be an integer"
  fun (key, increment) => atKey db key (incrby increment)

def handleDecr := handler (binaryArg 0) "DECR requires 1 argument: key must be a binary"
  fun key => atKey db key decr

def handleDecrby := handler (both (binaryArg 0) (i64Arg 1))
  "DECRBY requires 2 arguments: key must be a binary, decrement must be an integer"
  fun (key, decrement) => atKey db key (decrby decrement)

def handleSetnx := handler (both (binaryArg 0) (binaryArg 1))
  "SETNX requires 2 arguments: key and value must be binaries" fun (key, value) => set db key value

def handleMsetnx := handler (pairsArg 0)
  "MSETNX requires 1 argument: pairs must be a list of \x7bkey, value\x7d tuples"
    fun pairs => mset db pairs

def handleGetset := handler (both (binaryArg 0) (binaryArg 1))
  "GETSET requires 2 arguments: key and value must be binaries" fun (key, value) => set db key value

def handleGetdel := handler (binaryArg 0) "GETDEL requires 1 argument: key must be a binary"
  fun key => delAll db [key]

def handleSadd := handler (both (binaryArg 0) (binariesArg 1))
  "SADD requires 2 arguments: key must be a binary, members must be a list of binaries"
  fun (key, members) => atKey db key (sadd members)

def handleSrem := handler (both (binaryArg 0) (binariesArg 1))
  "SREM requires 2 arguments: key must be a binary, members must be a list of binaries"
  fun (key, members) => atKey db key (srem members)

def handleSmove := handler (both (binaryArg 0) (both (binaryArg 1) (binaryArg 2)))
  "SMOVE requires 3 arguments: source_key, dest_key, and member must be binaries"
  fun (sourceKey, destKey, member) => smove db sourceKey destKey member

def handleSunionstore := handler (both (binaryArg 0) (binariesArg 1))
  "SUNIONSTORE requires 2 arguments: dest_key must be a binary, source_keys must be a list of binaries"
  fun (destKey, sourceKeys) => sunionstore db destKey sourceKeys

def handleSinterstore := handler (both (binaryArg 0) (binariesArg 1))
  "SINTERSTORE requires 2 arguments: dest_key must be a binary, source_keys must be a list of binaries"
  fun (destKey, sourceKeys) => sinterstore db destKey sourceKeys

def handleSdiffstore := handler (both (binaryArg 0) (binariesArg 1))
  "SDIFFSTORE requires 2 arguments: dest_key must be a binary, source_keys must be a list of binaries"
  fun (destKey, sourceKeys) => sdiffstore db destKey sourceKeys

def handleLpush := handler (both (binaryArg 0) (binariesArg 1))
  "LPUSH requires 2 arguments: key must be a binary, values must be a list of binaries"
  fun (key, values) => atKey db key (lpush values)

def handleRpush := handler (both (binaryArg 0) (binariesArg 1))
  "RPUSH requires 2 arguments: key must be a binary, values must be a list of binaries"
  fun (key, values) => atKey db key (rpush values)

def handleLpop := handler (binaryArg 0) "LPOP requires 1 argument: key must be a binary"
  fun key => atKey db key lpop

def handleRpop := handler (binaryArg 0) "RPOP requires 1 argument: key must be a binary"
  fun key => atKey db key rpop

def handleLset := handler (both (binaryArg 0) (both (i64Arg 1) (binaryArg 2)))
  "LSET requires 3 arguments: key and value must be binaries, index must be an integer"
  fun (key, index, value) => atKey db key (lset index value)

def handleRpoplpush := handler (both (binaryArg 0) (binaryArg 1))
  "RPOPLPUSH requires 2 arguments: source_key and dest_key must be binaries"
  fun (sourceKey, destKey) => rpoplpush db sourceKey destKey

def handleLpopCount := handler (both (binaryArg 0) (u64Arg 1))
  "LPOP requires 2 arguments: key must be a binary, count must be an integer"
  fun (key, count) => atKey db key (lpopCount count)

def handleRpopCount := handler (both (binaryArg 0) (u64Arg 1))
  "RPOP requires 2 arguments: key must be a binary, count must be an integer"
  fun (key, count) => atKey db key (rpopCount count)

/-- Every other atom is the right end. -/
def sideOf (name : String) : Side := if name = "left" then .left else .right

def handleLmove := handler
  (both (binaryArg 0) (both (binaryArg 1) (both (arg 2 decodeAtom) (arg 3 decodeAtom))))
  ("LMOVE requires 4 arguments: source_key and dest_key must be binaries, " ++
    "wherefrom and whereto must be atoms")
  fun (sourceKey, destKey, wherefrom, whereto) => lmove db sourceKey destKey (sideOf wherefrom)
    (sideOf whereto)

def handleLpushx := handler (both (binaryArg 0) (binariesArg 1))
  "LPUSHX requires 2 arguments: key must be a binary, values must be a list of binaries"
  fun (key, values) => atKey db key (lpushx values)

def handleRpushx := handler (both (binaryArg 0) (binariesArg 1))
  "RPUSHX requires 2 arguments: key must be a binary, values must be a list of binaries"
  fun (key, values) => atKey db key (rpushx values)

def handleLrem := handler (both (binaryArg 0) (both (i64Arg 1) (binaryArg 2)))
  "LREM requires 3 arguments: key and value must be binaries, count must be an integer"
  fun (key, count, value) => atKey db key (lrem count value)

def handleLtrim := handler (both (binaryArg 0) (both (i64Arg 1) (i64Arg 2)))
  "LTRIM requires 3 arguments: key must be a binary, start and stop must be integers"
  fun (key, start, stop) => atKey db key (ltrim start stop)

/-- The direction is looked at after all arguments are decoded. -/
def handleLinsert (args : List Term) : Handled := do
  match ← both (binaryArg 0) (both (arg 1 decodeAtom) (both (binaryArg 2) (binaryArg 3))) args with
  | some (key, direction, pivot, value) =>
    if direction = "before" then return atKey db key (linsert true pivot value)
    else if direction = "after" then return atKey db key (linsert false pivot value)
    else refuse "LINSERT direction must be :before or :after"
  | none =>
    refuse "LINSERT requires 4 arguments: key, pivot, and value must be binaries, direction must be an atom"

def handleHset := handler (both (binaryArg 0) (both (binaryArg 1) (binaryArg 2)))
  "HSET requires 3 arguments: key, field, and value must be binaries"
  fun (key, field, value) => atKey db key (hset field value)

def handleHmset := handler (both (binaryArg 0) (pairsArg 1))
  "HMSET requires 2 arguments: key must be a binary, fields must be a list of \x7bfield, value\x7d tuples"
  fun (key, fields) => atKey db key (hmset fields)

def handleHdel := handler (both (binaryArg 0) (binariesArg 1))
  "HDEL requires 2 arguments: key must be a binary, fields must be a list of binaries"
  fun (key, fields) => atKey db key (hdel fields)

def handleHgetdel := handleHdel db

def handleHsetnx := handler (both (binaryArg 0) (both (binaryArg 1) (binaryArg 2)))
  "HSETNX requires 3 arguments: key, field, and value must be binaries"
  fun (key, field, value) => atKey db key (hsetnx field value)

def handleHincrby := handler (both (binaryArg 0) (both (binaryArg 1) (i64Arg 2)))
  "HINCRBY requires 3 arguments: key and field must be binaries, delta must be an integer"
  fun (key, field, delta) => atKey db key (hincrby field delta)

def handleHincrbyfloat := handler (both (binaryArg 0) (both (binaryArg 1) (arg 2 decodeFloat)))
  "HINCRBYFLOAT requires 3 arguments: key and field must be binaries, delta must be a float"
  fun (key, field, delta) => atKey db key (hincrbyfloat field delta)

/-- An atom that is no mode is none. -/
def hsetexModeOf (name : String) : Option HSetEXMode :=
  if name = "nil" then none else if name = "nx" then some .nx
    else if name = "xx" then some .xx else none

/-- The mode is decoded after the others. -/
def handleHsetex (args : List Term) : Handled := do
  match ← both (binaryArg 0) (pairsArg 2) args with
  | some (key, fields) =>
    match ← arg 1 decodeAtom args with
    | some name => return atKey db key (hsetex (hsetexModeOf name) fields)
    | none => refuse "HSETEX mode must be an atom (:nil, :nx, or :xx)"
  | none =>
    refuse ("HSETEX requires 3 arguments: key must be a binary, mode must be an atom, " ++
      "fields must be a list of \x7bfield, value\x7d tuples")

/-- Other atoms are left out. -/
def zaddOptionOf (name : String) : Option ZAddOption :=
  if name = "nx" then some .nx
  else if name = "xx" then some .xx
  else if name = "gt" then some .gt
  else if name = "lt" then some .lt
  else if name = "ch" then some .ch
  else if name = "incr" then some .incr
  else none

/-- Options that do not decode are none. -/
def handleZadd (args : List Term) : Handled := do
  match ← binaryArg 0 args with
  | some key =>
    match (← vecArg 1 some args).bind
      fun terms => terms.mapM (decodePair decodeScore decodeBinary) with
    | some members =>
      let options ← if args.length = 3 then vecArg 2 decodeAtom args else pure (some [])
      return atKey db key (zadd members ((options.getD []).filterMap zaddOptionOf))
    | none => refuse "ZADD members must be a list of \x7bscore, member\x7d tuples"
  | none => refuse "ZADD requires at least 2 arguments: key must be a binary"

def handleZrem := handler (both (binaryArg 0) (binariesArg 1))
  "ZREM requires 2 arguments: key must be a binary, members must be a list of binaries"
  fun (key, members) => atKey db key (zrem members)

def handleZpopmax := handler (both (binaryArg 0) (u64Arg 1))
  "ZPOPMAX requires 2 arguments: key must be a binary, count must be an integer"
  fun (key, count) => atKey db key (zpopmax count)

def handleZpopmin := handler (both (binaryArg 0) (u64Arg 1))
  "ZPOPMIN requires 2 arguments: key must be a binary, count must be an integer"
  fun (key, count) => atKey db key (zpopmin count)

def handleZremrangebyrank := handler (both (binaryArg 0) (both (i64Arg 1) (i64Arg 2)))
  "ZREMRANGEBYRANK requires 3 arguments: key must be a binary, start and stop must be integers"
  fun (key, start, stop) => atKey db key (zremrangebyrank start stop)

/-- The key is decoded before the bounds. -/
def handleZremrangebyscore [Indexset] (args : List Term) : Handled := do
  match ← binaryArg 0 args with
  | some key =>
    handler (both (arg 1 (decodeBound decodeFloat)) (arg 2 (decodeBound decodeFloat)))
      ("ZREMRANGEBYSCORE min and max must be valid score bounds " ++
        "(:unbounded, \x7b:included, score\x7d, or \x7b:excluded, score\x7d)")
      (fun (min, max) => atKey db key (zremrangebyscore min max)) args
  | none => refuse "ZREMRANGEBYSCORE requires 3 arguments: key must be a binary"

def handleZremrangebylex (args : List Term) : Handled := do
  match ← binaryArg 0 args with
  | some key =>
    handler (both (arg 1 (decodeBound decodeBinary)) (arg 2 (decodeBound decodeBinary)))
      ("ZREMRANGEBYLEX min and max must be valid lex bounds " ++
        "(:unbounded, \x7b:included, value\x7d, or \x7b:excluded, value\x7d)")
      (fun (min, max) => atKey db key (zremrangebylex min max)) args
  | none => refuse "ZREMRANGEBYLEX requires 3 arguments: key must be a binary"

/-- `handle_zunionstore` and `handle_zinterstore`: the mode is looked at after all arguments are
decoded. -/
def handleZstore (name : String) (op : Bytes → List Bytes → List Score → Aggregate → Op)
    (args : List Term) :
    Handled := do
  match ← both (binaryArg 0) (both (binariesArg 1)
      (both (vecArg 2 decodeFloat) (arg 3 decodeAtom))) args with
  | some (destKey, sourceKeys, weights, mode) =>
    if mode = "sum" then return op destKey sourceKeys weights .sum
    else if mode = "min" then return op destKey sourceKeys weights .min
    else if mode = "max" then return op destKey sourceKeys weights .max
    else refuse (name ++ " aggregate must be :sum, :min, or :max")
  | none =>
    refuse (name ++ " requires 4 arguments: dest_key must be a binary, " ++
      "source_keys must be a list of binaries, weights must be a list of floats, " ++
      "aggregate must be an atom")

def handleZunionstore := handleZstore "ZUNIONSTORE" (zunionstore db)

def handleZinterstore := handleZstore "ZINTERSTORE" (zinterstore db)

def handleZdiffstore := handler (both (binaryArg 0) (binariesArg 1))
  "ZDIFFSTORE requires 2 arguments: dest_key must be a binary, source_keys must be a list of binaries"
  fun (destKey, sourceKeys) => zdiffstore db destKey sourceKeys

def handleZrangestore [Indexset] := handler (both (binaryArg 0) (both (binaryArg 1)
    (both (arg 2 decodeText) (both (arg 3 decodeText) (vecArg 4 decodeText)))))
  ("ZRANGESTORE requires 5 arguments: dest_key and source_key must be binaries, min_str and max_str " ++
    "must be strings, options must be a list of strings")
  fun (destKey, sourceKey, min, max, options) =>
    zrangestore db destKey sourceKey min max (rangeOptions ⟨false, false, false, none⟩ options)

def handleZincrby := handler (both (binaryArg 0) (both (arg 1 decodeFloat) (binaryArg 2)))
  "ZINCRBY requires 3 arguments: key and member must be binaries, delta must be a float"
  fun (key, delta, member) => atKey db key (zincrby delta member)

def handleFlushall : Handled := .ok flushall

def handleFlushdb : Handled := .ok (flushdb db)

def handleSwapdb := handler (both (u64Arg 0) (u64Arg 1))
  "SWAPDB requires 2 arguments: db1 and db2 must be integers" fun (db1, db2) => swapdb db1 db2

/-- `dispatch_write_command`. -/
def dispatchWriteCommand [Indexset] (name : String) (args : List Term) : Handled :=
  if name = "set" then handleSet db args
  else if name = "del" then handleDel db args
  else if name = "mset" then handleMset db args
  else if name = "msetex" then handleMsetex db args
  else if name = "pexpireat" then handlePexpireat
  else if name = "persist" then handlePersist
  else if name = "copy" then handleCopy db args
  else if name = "rename" then handleRename db args
  else if name = "renamenx" then handleRenamenx db args
  else if name = "move_key" then handleMoveKey db args
  else if name = "append" then handleAppend db args
  else if name = "setrange" then handleSetrange db args
  else if name = "incr" then handleIncr db args
  else if name = "incrby" then handleIncrby db args
  else if name = "decr" then handleDecr db args
  else if name = "decrby" then handleDecrby db args
  else if name = "setnx" then handleSetnx db args
  else if name = "msetnx" then handleMsetnx db args
  else if name = "getset" then handleGetset db args
  else if name = "getdel" then handleGetdel db args
  else if name = "sadd" then handleSadd db args
  else if name = "srem" then handleSrem db args
  else if name = "smove" then handleSmove db args
  else if name = "sunionstore" then handleSunionstore db args
  else if name = "sinterstore" then handleSinterstore db args
  else if name = "sdiffstore" then handleSdiffstore db args
  else if name = "lpush" then handleLpush db args
  else if name = "rpush" then handleRpush db args
  else if name = "lpop" then handleLpop db args
  else if name = "rpop" then handleRpop db args
  else if name = "lset" then handleLset db args
  else if name = "rpoplpush" then handleRpoplpush db args
  else if name = "lpop_count" then handleLpopCount db args
  else if name = "rpop_count" then handleRpopCount db args
  else if name = "lmove" then handleLmove db args
  else if name = "lpushx" then handleLpushx db args
  else if name = "rpushx" then handleRpushx db args
  else if name = "lrem" then handleLrem db args
  else if name = "ltrim" then handleLtrim db args
  else if name = "linsert" then handleLinsert db args
  else if name = "hset" then handleHset db args
  else if name = "hmset" then handleHmset db args
  else if name = "hdel" then handleHdel db args
  else if name = "hgetdel" then handleHgetdel db args
  else if name = "hsetnx" then handleHsetnx db args
  else if name = "hincrby" then handleHincrby db args
  else if name = "hincrbyfloat" then handleHincrbyfloat db args
  else if name = "hsetex" then handleHsetex db args
  else if name = "zadd" then handleZadd db args
  else if name = "zrem" then handleZrem db args
  else if name = "zpopmax" then handleZpopmax db args
  else if name = "zpopmin" then handleZpopmin db args
  else if name = "zremrangebyrank" then handleZremrangebyrank db args
  else if name = "zremrangebyscore" then handleZremrangebyscore db args
  else if name = "zremrangebylex" then handleZremrangebylex db args
  else if name = "zunionstore" then handleZunionstore db args
  else if name = "zinterstore" then handleZinterstore db args
  else if name = "zdiffstore" then handleZdiffstore db args
  else if name = "zrangestore" then handleZrangestore db args
  else if name = "zincrby" then handleZincrby db args
  else if name = "flushall" then handleFlushall
  else if name = "flushdb" then handleFlushdb db
  else if name = "swapdb" then handleSwapdb args
  else refuse "Unknown write command"

/-- An operation is performed, and a refusal is the answer. -/
def perform : Handled → Op
  | .ok op => op
  | .error fault => fun s => (s, .error fault)

/-- `tuple::get_tuple`. -/
def getTuple : Term → Option (List Term)
  | .tuple elements => elements.toList
  | _ => none

/-- `execute`: the database and the command tuple. -/
def executeTerm [Indexset] (command : Term) : Op :=
  match getTuple command with
  | none => perform (refuse "Command must be a tuple")
  | some [dbTerm, inner] =>
    match decodeInteger decodeU64 dbTerm with
    | none => perform (refuse "Database index must be an unsigned integer")
    | some db =>
      match getTuple inner with
      | none => perform (refuse "Inner command must be a tuple")
      | some [] => perform (refuse "Command tuple cannot be empty")
      | some (name :: args) =>
        match decodeAtom name with
        | none => perform (refuse "Command name must be an atom")
        | some name => perform (dispatchWriteCommand db name args)
  | some _ => perform (refuse ("Command tuple must have exactly 2 elements: " ++
      "\x7bdb, \x7bcommand_atom, ...\x7d\x7d"))

end WriteCommands

/-! ## Tuples are performed as their commands -/

/-- Whether all arguments of a command decode. -/
def decodes : Command → Bool
  | .moveKey _ targetDb => (decodeU64 targetDb).isSome
  | .setrange _ offset _ => (decodeU64 offset).isSome
  | .incrby _ increment => (decodeI64 increment).isSome
  | .decrby _ decrement => (decodeI64 decrement).isSome
  | .lset _ index _ => (decodeI64 index).isSome
  | .lpopCount _ count => (decodeU64 count).isSome
  | .rpopCount _ count => (decodeU64 count).isSome
  | .lrem _ count _ => (decodeI64 count).isSome
  | .ltrim _ start stop => (decodeI64 start).isSome && (decodeI64 stop).isSome
  | .hincrby _ _ increment => (decodeI64 increment).isSome
  | .hincrbyfloat _ _ increment => (decodeF64 increment).isSome
  | .zpopmax _ count => (decodeU64 count).isSome
  | .zpopmin _ count => (decodeU64 count).isSome
  | .zremrangebyrank _ start stop => (decodeI64 start).isSome && (decodeI64 stop).isSome
  | .zremrangebyscore _ min max => (decodeScoreBound min).isSome && (decodeScoreBound max).isSome
  | .zunionstore _ _ weights _ => (weights.mapM decodeF64).isSome
  | .zinterstore _ _ weights _ => (weights.mapM decodeF64).isSome
  | .zrangestore _ _ min max options =>
    (decodeString min).isSome && (decodeString max).isSome && (options.mapM decodeString).isSome
  | .zincrby _ increment _ => (decodeF64 increment).isSome
  | .swapdb db1 db2 => (decodeU64 db1).isSome && (decodeU64 db2).isSome
  | .setbit _ _ _ => false
  | .hpexpireat _ _ _ _ => false
  | .hpersist _ _ => false
  | .generic _ => false
  | _ => true

namespace WriteCommands

variable {α β γ : Type}

/-- A tuple is performed as its command, or refused as its command is. -/
inductive Faithful (op : Op) : Bool → Handled → Prop where
  | performed : Faithful op true (.ok op)
  | refused {msg : String} (same : op = fun s => (s, .error (.err msg))) :
    Faithful op false (refuse msg)

/-- A handler that performs what it decodes is faithful to the decoded operation. -/
lemma faithful_decoded {x : Option α} {msg : String} {op : α → Op} {r : Handled}
    (h : r = match x with | some a => .ok (op a) | none => refuse msg) :
      Faithful (decoded x msg op) x.isSome r := by
  rw [h]
  cases x with
  | none => exact .refused rfl
  | some a => exact .performed

/-- A handler that performs the operation is faithful to it. -/
lemma faithful_performed {op : Op} {r : Handled} (h : r = .ok op) : Faithful op true r :=
  h ▸ .performed

/-- Two arguments decode together when each of them does. -/
lemma isSome_and (x : Option α) (y : Option β) :
    (x.isSome && y.isSome) = (pair x y).isSome := by
  cases x with
  | none => rfl
  | some a =>
    cases y with
    | none => rfl
    | some b => rfl

section

variable {d : Term → Option α} {d' : Term → Option β} {d'' : Term → Option γ} {msg : String}

/-- Arguments that decode are performed. -/
lemma handler_ok {decode : List Term → Except Fault (Option α)} {op : α → Op} {args : List Term}
    {a : α} (h : decode args = .ok (some a)) : handler decode msg op args = .ok (op a) := by
  rw [handler, h]
  rfl

/-- A handler of two arguments performs both or refuses. -/
lemma handler_two {op : α × β → Op} (t t' : Term) (rest : List Term) :
    handler (both (arg 0 d) (arg 1 d')) msg op (t :: t' :: rest) =
      match d t, d' t' with | some a, some b => .ok (op (a, b)) | _, _ => refuse msg := by
  show handler (fun _ => .ok (pair (d t) (d' t'))) msg op [] = _
  cases d t with
  | none => rfl
  | some a =>
    cases d' t' with
    | none => rfl
    | some b => rfl

/-- A handler of three arguments performs all of them or refuses. -/
lemma handler_three {op : α × β × γ → Op} (t t' t'' : Term) (rest : List Term) :
    handler (both (arg 0 d) (both (arg 1 d') (arg 2 d''))) msg op (t :: t' :: t'' :: rest) =
      match d t, d' t', d'' t'' with
      | some a, some b, some c => .ok (op (a, b, c))
      | _, _, _ => refuse msg := by
  show handler (fun _ => .ok (pair (d t) (pair (d' t') (d'' t'')))) msg op [] = _
  cases d t with
  | none => cases d' t' <;> cases d'' t'' <;> rfl
  | some a =>
    cases d' t' with
    | none => rfl
    | some b =>
      cases d'' t'' with
      | none => rfl
      | some c => rfl

end

/-! ### Shapes of argument lists -/

section

variable {d : Term → Option α} {d' : Term → Option β} {msg : String} {op' : Op} {t t' : Term}
  {key : Bytes} {decodable : Bool}

/-- A list is the only argument. -/
lemma performed_only {op : List α → Op} {items : List α} (h : decodeVec d t = .ok (some items))
    (same : op items = op') : Faithful op' true (handler (vecArg 0 d) msg op [t]) := by
  apply faithful_performed
  rw [← same]
  exact handler_ok h

/-- A list stands behind the key. -/
lemma performed_list {op : Bytes × List α → Op} {items : List α}
    (h : decodeVec d t = .ok (some items)) (same : op (key, items) = op') :
    Faithful op' true (handler (both (arg 0 decodeBinary) (vecArg 1 d)) msg
      op [.binary key, t]) := by
  have list : vecArg 1 d [.binary key, t] = .ok (some items) := h
  apply faithful_performed
  rw [← same]
  apply handler_ok
  rw [both, list]
  rfl

/-- The second of two arguments may not decode. -/
lemma decoded_last {op : Bytes × α → Op} (same : (decoded (d t) msg fun a => op (key, a)) = op')
    (decode : (d t).isSome = decodable) :
    Faithful op' decodable
      (handler (both (arg 0 decodeBinary) (arg 1 d)) msg op [.binary key, t]) := by
  rw [← same, ← decode]
  apply faithful_decoded
  rw [handler_two]
  cases d t with
  | none => rfl
  | some _ => rfl

/-- The second of three arguments may not decode. -/
lemma decoded_second {op : Bytes × α × Bytes → Op} {value : Bytes}
    (same : (decoded (d t) msg fun a => op (key, a, value)) = op')
    (decode : (d t).isSome = decodable) :
    Faithful op' decodable
      (handler (both (arg 0 decodeBinary) (both (arg 1 d) (arg 2 decodeBinary))) msg op
      [.binary key, t, .binary value]) := by
  rw [← same, ← decode]
  apply faithful_decoded
  rw [handler_three]
  cases d t with
  | none => rfl
  | some _ => rfl

/-- The third of three arguments may not decode. -/
lemma decoded_third {op : Bytes × Bytes × α → Op} {field : Bytes}
    (same : (decoded (d t) msg fun a => op (key, field, a)) = op')
    (decode : (d t).isSome = decodable) :
    Faithful op' decodable
      (handler (both (arg 0 decodeBinary) (both (arg 1 decodeBinary) (arg 2 d))) msg op
      [.binary key, .binary field, t]) := by
  rw [← same, ← decode]
  apply faithful_decoded
  rw [handler_three]
  cases d t with
  | none => rfl
  | some _ => rfl

/-- The two bounds of a range may not decode. -/
lemma decoded_range {op : Bytes × α × β → Op}
    (same : (decoded (pair (d t) (d' t')) msg fun p => op (key, p.1, p.2)) = op')
    (decode : ((d t).isSome && (d' t').isSome) = decodable) :
    Faithful op' decodable (handler (both (arg 0 decodeBinary) (both (arg 1 d) (arg 2 d'))) msg op
      [.binary key, t, t']) := by
  rw [← same, ← decode, isSome_and]
  apply faithful_decoded
  rw [handler_three]
  cases d t with
  | none => rfl
  | some _ =>
    cases d' t' with
    | none => rfl
    | some _ => rfl

/-- Two arguments at any places may not decode. -/
lemma decoded_two {op : α × β → Op} {args : List Term} {i j : Nat} (here : args[i]? = some t)
    (there : args[j]? = some t') (same : decoded (pair (d t) (d' t')) msg op = op')
    (decode : ((d t).isSome && (d' t').isSome) = decodable) :
    Faithful op' decodable (handler (both (arg i d) (arg j d')) msg op args) := by
  rw [← same, ← decode, isSome_and]
  apply faithful_decoded
  have first : arg i d args = .ok (d t) := by rw [arg, here]
  have second : arg j d' args = .ok (d' t') := by rw [arg, there]
  rw [handler, both, first, second]
  cases d t with
  | none => rfl
  | some _ =>
    cases d' t' with
    | none => rfl
    | some _ => rfl

end

/-- A proper list is a list. -/
lemma decodeVec_ofList (decode : Term → Option α) (items : List Term) :
    decodeVec decode (Term.ofList items) = decodeItems decode (Term.ofList items) := by
  cases items with
  | nil => rfl
  | cons head tail => rfl

/-- A list of encoded values decodes value by value. -/
lemma decodeVec_map (decode : Term → Option β) (encode : α → Term) (items : List α) :
    decodeVec decode (Term.ofList (items.map encode)) =
      .ok (items.mapM fun a => decode (encode a)) := by
  rw [decodeVec_ofList]
  induction items with
  | nil => rfl
  | cons a items ih =>
    rw [List.map_cons, Term.ofList, decodeItems, List.mapM_cons, ih]
    cases decode (encode a) with
    | none => rfl
    | some b =>
      cases items.mapM fun a => decode (encode a) with
      | none => rfl
      | some rest => rfl

/-- A list whose items are all there is there. -/
lemma mapM_some (items : List α) : items.mapM some = some items := by
  induction items with
  | nil => rfl
  | cons a items ih =>
    rw [List.mapM_cons, ih]
    rfl

/-- A list of terms decodes as terms. -/
lemma decode_terms (items : List Term) : decodeVec some (Term.ofList items) = .ok (some items) := by
  have decoded := decodeVec_map some id items
  rw [List.map_id] at decoded
  rw [decoded]
  exact congrArg Except.ok (mapM_some items)

/-- A list of binaries decodes. -/
lemma decode_binaries (items : List Bytes) :
    decodeVec decodeBinary (CommandTuple.binaries items) = .ok (some items) :=
  (decodeVec_map _ _ _).trans (congrArg Except.ok (mapM_some items))

/-- A list of pairs of binaries decodes. -/
lemma decode_binaryPairs (pairs : List (Bytes × Bytes)) :
    decodeVec (decodePair decodeBinary decodeBinary) (CommandTuple.binaryPairs pairs) =
      .ok (some pairs) :=
  (decodeVec_map _ _ _).trans (congrArg Except.ok (mapM_some pairs))

/-- A score decodes as its 64 bits. -/
lemma decode_score (s : ScoreTerm) : decodeFloat (CommandTuple.score s) = decodeF64 s := by
  cases s with
  | float bits => rfl
  | posInf => rfl
  | negInf => rfl
  | nan => rfl

/-- A list of weights decodes when each of them does. -/
lemma decode_weights (weights : List ScoreTerm) :
    decodeVec decodeFloat (Term.ofList (weights.map CommandTuple.score)) =
      .ok (weights.mapM decodeF64) := by
  rw [decodeVec_map]
  exact congrArg (fun f => Except.ok (weights.mapM f)) (funext decode_score)

/-- Scored members decode, a score that is no float as zero. -/
lemma decode_members (members : List (ScoreTerm × Bytes)) :
    (members.map fun (s, member) => CommandTuple.tupleOf
      [CommandTuple.score s, .binary member]).mapM
        (decodePair decodeScore decodeBinary) =
      some (members.map fun (s, member) => (TsNif.decodeScore s, member)) := by
  have each (p : ScoreTerm × Bytes) : decodePair decodeScore decodeBinary
      (CommandTuple.tupleOf [CommandTuple.score p.1, .binary p.2]) =
      some (TsNif.decodeScore p.1, p.2) := by
    obtain ⟨s, member⟩ := p
    cases s with
    | float bits => rfl
    | posInf => rfl
    | negInf => rfl
    | nan => rfl
  induction members with
  | nil => rfl
  | cons p members ih =>
    rw [List.map_cons, List.mapM_cons, each, ih]
    rfl

/-- The options of `ZADD` decode by their names. -/
lemma decode_options (options : List ZAddOption) : ∃ names,
    decodeVec decodeAtom (Term.ofList (options.map CommandTuple.zaddOption)) = .ok (some names) ∧
      names.filterMap zaddOptionOf = options := by
  have each : ∃ names, options.mapM (fun option => decodeAtom (CommandTuple.zaddOption option)) =
    some names ∧
      names.filterMap zaddOptionOf = options := by
    induction options with
    | nil => exact ⟨[], rfl, rfl⟩
    | cons option options ih =>
      obtain ⟨names, eq, same⟩ := ih
      have first : ∃ name, decodeAtom (CommandTuple.zaddOption option) = some name ∧
          zaddOptionOf name = some option := by
        cases option with
        | nx => exact ⟨_, rfl, rfl⟩
        | xx => exact ⟨_, rfl, rfl⟩
        | gt => exact ⟨_, rfl, rfl⟩
        | lt => exact ⟨_, rfl, rfl⟩
        | ch => exact ⟨_, rfl, rfl⟩
        | incr => exact ⟨_, rfl, rfl⟩
      obtain ⟨name, here, back⟩ := first
      refine ⟨name :: names, ?_, ?_⟩
      · rw [List.mapM_cons, here, eq]
        rfl
      · rw [List.filterMap_cons, back, same]
  obtain ⟨names, eq, same⟩ := each
  exact ⟨names, (decodeVec_map _ _ _).trans (congrArg Except.ok eq), same⟩

/-- The bound of a score range decodes when its score does. -/
lemma decode_scoreBound (b : Bound BoundTerm) :
    decodeBound decodeFloat (CommandTuple.bound CommandTuple.boundScore b) =
      decodeScoreBound b := by
  cases b with
  | unbounded => rfl
  | included s =>
    cases s with
    | float bits => rfl
    | infinity => rfl
    | negInfinity => rfl
  | excluded s =>
    cases s with
    | float bits => rfl
    | infinity => rfl
    | negInfinity => rfl

/-- The bound of a range of names decodes. -/
lemma decode_lexBound (b : Bound Bytes) :
    decodeBound decodeBinary (CommandTuple.bound .binary b) = some b := by
  cases b with
  | unbounded => rfl
  | included name => rfl
  | excluded name => rfl

/-- `ZUNIONSTORE` and `ZINTERSTORE` fail to decode only at their weights. -/
lemma decoded_zstore {name : String} {op : Bytes → List Bytes → List Score → Aggregate → Op}
    (destKey : Bytes) (sourceKeys : List Bytes) (weights : List ScoreTerm) (aggregate : Aggregate) :
    Faithful (zstore name (fun weights => op destKey sourceKeys weights aggregate) weights)
      (weights.mapM decodeF64).isSome
      (handleZstore name op [.binary destKey, CommandTuple.binaries sourceKeys,
        Term.ofList (weights.map CommandTuple.score), CommandTuple.aggregate aggregate]) := by
  apply faithful_decoded
  let args := [.binary destKey, CommandTuple.binaries sourceKeys,
    Term.ofList (weights.map CommandTuple.score), CommandTuple.aggregate aggregate]
  have sources : binariesArg 1 args = .ok (some sourceKeys) := decode_binaries sourceKeys
  have floats : vecArg 2 decodeFloat args = .ok (weights.mapM decodeF64) := decode_weights weights
  have decoded : both (binaryArg 0) (both (binariesArg 1)
      (both (vecArg 2 decodeFloat) (arg 3 decodeAtom))) args =
      .ok (pair (some destKey) (pair (some sourceKeys)
        (pair (weights.mapM decodeF64) (decodeAtom (CommandTuple.aggregate aggregate))))) := by
    rw [both, both, both, sources, floats]
    rfl
  rw [handleZstore, decoded]
  cases weights.mapM decodeF64 with
  | none => rfl
  | some weights =>
    cases aggregate with
    | sum => rfl
    | min => rfl
    | max => rfl

variable [Indexset] (db : Nat)

/-- With a key in front, the bounds decide what `ZREMRANGEBYSCORE` does. -/
lemma handleZremrangebyscore_eq (key : Bytes) (t t' : Term) :
    handleZremrangebyscore db [.binary key, t, t'] =
    handler (both (arg 1 (decodeBound decodeFloat)) (arg 2 (decodeBound decodeFloat)))
      ("ZREMRANGEBYSCORE min and max must be valid score bounds " ++
        "(:unbounded, \x7b:included, score\x7d, or \x7b:excluded, score\x7d)")
      (fun (min, max) => atKey db key (zremrangebyscore min max)) [.binary key, t, t'] := rfl

omit [Indexset] in
/-- The parsed members and options of `ZADD` are performed. -/
lemma handleZadd_eq (key : Bytes) (members : List (ScoreTerm × Bytes)) (options : List ZAddOption) :
    handleZadd db [.binary key,
        Term.ofList (members.map
          fun (s, member) => CommandTuple.tupleOf [CommandTuple.score s, .binary member]),
        Term.ofList (options.map CommandTuple.zaddOption)] =
      .ok (atKey db key (zadd (members.map fun (s, member) => (TsNif.decodeScore s, member))
        options)) := by
  obtain ⟨names, decoded, same⟩ := decode_options options
  let tuples :=
    members.map fun (s, member) => CommandTuple.tupleOf [CommandTuple.score s, .binary member]
  let args := [.binary key, Term.ofList tuples, Term.ofList (options.map CommandTuple.zaddOption)]
  have terms : vecArg 1 some args = .ok (some tuples) := decode_terms tuples
  have atoms : vecArg 2 decodeAtom args = .ok (some names) := decoded
  have pairs : tuples.mapM (decodePair decodeScore decodeBinary) =
      some (members.map fun (s, member) => (TsNif.decodeScore s, member)) := decode_members members
  show handleZadd db args = _
  have first : binaryArg 0 args = .ok (some key) := rfl
  rw [handleZadd, first, terms]
  show (match tuples.mapM (decodePair decodeScore decodeBinary) with
    | some members => do
      let options ← vecArg 2 decodeAtom args
      return atKey db key (zadd members ((options.getD []).filterMap zaddOptionOf))
    | none => refuse _) = _
  rw [pairs, ← same, atoms]
  rfl

omit [Indexset] in
/-- With a key in front, the bounds decide what `ZREMRANGEBYLEX` does. -/
lemma handleZremrangebylex_eq (key : Bytes) (t t' : Term) :
    handleZremrangebylex db [.binary key, t, t'] =
    handler (both (arg 1 (decodeBound decodeBinary)) (arg 2 (decodeBound decodeBinary)))
      ("ZREMRANGEBYLEX min and max must be valid lex bounds " ++
        "(:unbounded, \x7b:included, value\x7d, or \x7b:excluded, value\x7d)")
      (fun (min, max) => atKey db key (zremrangebylex min max)) [.binary key, t, t'] := rfl

/-- A command tuple is performed as its command when all of its arguments decode, and is refused
otherwise. -/
theorem dispatch_tuple (command : Command) : Faithful (dispatch db command) (decodes command)
    (dispatchWriteCommand db (commandTerms command).1 (commandTerms command).2) := by
  cases command with
  | set => exact .performed
  | mset pairs => exact performed_only (decode_binaryPairs _) rfl
  | msetex pairs => exact performed_only (decode_binaryPairs _) rfl
  | msetnx pairs => exact performed_only (decode_binaryPairs _) rfl
  | append => exact .performed
  | setrange => exact decoded_second rfl rfl
  | setbit => exact .refused rfl
  | incr => exact .performed
  | incrby => exact decoded_last rfl rfl
  | decr => exact .performed
  | decrby => exact decoded_last rfl rfl
  | setnx => exact .performed
  | getset => exact .performed
  | getdel => exact .performed
  | lpush => exact performed_list (decode_binaries _) rfl
  | rpush => exact performed_list (decode_binaries _) rfl
  | lpushx => exact performed_list (decode_binaries _) rfl
  | rpushx => exact performed_list (decode_binaries _) rfl
  | lpop => exact .performed
  | lpopCount => exact decoded_last rfl rfl
  | rpop => exact .performed
  | rpopCount => exact decoded_last rfl rfl
  | lrem => exact decoded_second rfl rfl
  | ltrim => exact decoded_range rfl rfl
  | lset => exact decoded_second rfl rfl
  | linsert key before pivot element =>
    cases before with
    | true => exact .performed
    | false => exact .performed
  | rpoplpush => exact .performed
  | lmove source destination wherefrom whereto =>
    cases wherefrom with
    | left =>
      cases whereto with
      | left => exact .performed
      | right => exact .performed
    | right =>
      cases whereto with
      | left => exact .performed
      | right => exact .performed
  | sadd => exact performed_list (decode_binaries _) rfl
  | srem => exact performed_list (decode_binaries _) rfl
  | smove => exact .performed
  | sinterstore => exact performed_list (decode_binaries _) rfl
  | sunionstore => exact performed_list (decode_binaries _) rfl
  | sdiffstore => exact performed_list (decode_binaries _) rfl
  | zadd key members options =>
    apply faithful_performed
    exact handleZadd_eq db key members options
  | zincrby key increment member =>
    apply decoded_second
    · rw [decode_score]
      rfl
    · rw [decode_score]
      rfl
  | zrem => exact performed_list (decode_binaries _) rfl
  | zpopmax => exact decoded_last rfl rfl
  | zpopmin => exact decoded_last rfl rfl
  | zremrangebyrank => exact decoded_range rfl rfl
  | zremrangebyscore key min max =>
    show Faithful _ _ (handleZremrangebyscore db [.binary key,
      CommandTuple.bound CommandTuple.boundScore min,
      CommandTuple.bound CommandTuple.boundScore max])
    rw [handleZremrangebyscore_eq]
    apply decoded_two rfl rfl
    · rw [decode_scoreBound, decode_scoreBound]
      rfl
    · rw [decode_scoreBound, decode_scoreBound]
      rfl
  | zremrangebylex key min max =>
    show Faithful _ _ (handleZremrangebylex db [.binary key, CommandTuple.bound .binary min,
      CommandTuple.bound .binary max])
    rw [handleZremrangebylex_eq]
    apply decoded_two rfl rfl
    · rw [decode_lexBound, decode_lexBound]
      rfl
    · rw [decode_lexBound, decode_lexBound]
      rfl
  | zrangestore destination source min max options =>
    have texts : decodeVec decodeText (CommandTuple.binaries options) =
      .ok (options.mapM decodeString) :=
      decodeVec_map _ _ _
    let args := [.binary destination, .binary source, .binary min, .binary max,
      CommandTuple.binaries options]
    have last : vecArg 4 decodeText args = .ok (options.mapM decodeString) := texts
    have arguments : both (binaryArg 0) (both (binaryArg 1)
        (both (arg 2 decodeText) (both (arg 3 decodeText) (vecArg 4 decodeText)))) args =
        .ok (pair (some destination) (pair (some source)
          (pair (decodeString min) (pair (decodeString max) (options.mapM decodeString))))) := by
      rw [both, both, both, both, last]
      rfl
    show Faithful _ ((decodeString min).isSome && (decodeString max).isSome &&
      (options.mapM decodeString).isSome)
      (handleZrangestore db args)
    rw [handleZrangestore, handler, arguments]
    show Faithful (decoded _ _ _) _ _
    cases decodeString min with
    | none => exact .refused rfl
    | some min =>
      cases decodeString max with
      | none => exact .refused rfl
      | some max =>
        cases options.mapM decodeString with
        | none => exact .refused rfl
        | some options => exact .performed
  | zunionstore => exact decoded_zstore _ _ _ _
  | zinterstore => exact decoded_zstore _ _ _ _
  | zdiffstore => exact performed_list (decode_binaries _) rfl
  | hset => exact .performed
  | hmset => exact performed_list (decode_binaryPairs _) rfl
  | hsetnx => exact .performed
  | hincrby => exact decoded_third rfl rfl
  | hincrbyfloat key field increment =>
    apply decoded_third
    · rw [decode_score]
      rfl
    · rw [decode_score]
      rfl
  | hdel => exact performed_list (decode_binaries _) rfl
  | hgetdel => exact performed_list (decode_binaries _) rfl
  | hpexpireat => exact .refused rfl
  | hpersist => exact .refused rfl
  | hsetex key mode fields =>
    let args := [.binary key, CommandTuple.hsetexMode mode, CommandTuple.binaryPairs fields]
    have last : pairsArg 2 args = .ok (some fields) := decode_binaryPairs fields
    have arguments : both (binaryArg 0) (pairsArg 2) args = .ok (some (key, fields)) := by
      rw [both, last]
      rfl
    apply faithful_performed
    show handleHsetex db args = _
    rw [handleHsetex, arguments]
    cases mode with
    | none => rfl
    | some mode =>
      cases mode with
      | nx => rfl
      | xx => rfl
  | del => exact performed_only (decode_binaries _) rfl
  | copy source destination replace =>
    cases replace with
    | true => exact .performed
    | false => exact .performed
  | rename => exact .performed
  | renamenx => exact .performed
  | moveKey => exact decoded_last rfl rfl
  | pexpireat => exact .performed
  | persist => exact .performed
  | flushall => exact .performed
  | flushdb => exact .performed
  | swapdb => exact decoded_two rfl rfl rfl rfl
  | generic => exact .refused rfl


omit [Indexset] in
/-- A faithful handler performs what is decodable. -/
lemma faithful_ok {op : Op} {decodable : Bool} {r : Handled} (h : Faithful op decodable r) :
    (∃ op', r = .ok op') ↔ decodable = true := by
  cases h with
  | performed => exact iff_of_true ⟨op, rfl⟩ rfl
  | refused => exact iff_of_false nofun Bool.false_ne_true

omit [Indexset] in
/-- What is refused is not performed. -/
lemma faithful_refused {op : Op} {r : Handled} (h : Faithful op false r) :
    ∃ msg, op = fun s => (s, .error (.err msg)) := by
  cases h with
  | refused same => exact ⟨_, same⟩

omit [Indexset] in
/-- What a faithful handler performs is the operation. -/
lemma perform_faithful {op : Op} {decodable : Bool} {r : Handled} (h : Faithful op decodable r) :
    perform r = op := by
  cases h with
  | performed => rfl
  | refused same => exact same.symm

/-- The NIF does with the terms what `execute` does with the command. -/
theorem executeTerm_eq (command : Command) :
    executeTerm (CommandTuple.tupleOf [.integer db, commandTuple command]) =
      execute db command := by
  have outer : getTuple (CommandTuple.tupleOf [.integer db, commandTuple command]) =
      some [.integer db, commandTuple command] := Term.toList_ofList _
  have inner : getTuple (commandTuple command) =
      some (.atom (commandTerms command).1 :: (commandTerms command).2) := Term.toList_ofList _
  rw [executeTerm, outer, execute]
  simp only [decodeInteger]
  cases decodeU64 db with
  | none => rfl
  | some db =>
    simp only [inner, decodeAtom]
    exact perform_faithful (dispatch_tuple db command)

end WriteCommands

end Veidrodelis.TsNif
