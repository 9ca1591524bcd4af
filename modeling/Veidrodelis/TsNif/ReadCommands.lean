import Veidrodelis.TsNif.CommandTuples
import Veidrodelis.TsNif.Reads

/-!
# Read commands

`native/vdr_ts_nif/src/read_commands.rs` and the NIF `read_tx_commands` of `lib.rs`: a tuple of an
atom and arguments is decoded, a value is read in the storage, and the answer is encoded. A handler
is kept in two parts: what it makes of its arguments (a `ReadCommand`, or a refusal), and what it
answers (`ReadCommand.answer`).

A score that is not finite has no term: the call raises, as it does on a panic.
-/

namespace Veidrodelis.TsNif
open RedisNif (Fault)

/-- What is asked for, with arguments that are decoded. -/
inductive ReadCommand where
  | get (key : Bytes)
  | first (count : Nat)
  | last (count : Nat)
  | next (key : Bytes) (count : Nat)
  | prev (key : Bytes) (count : Nat)
  | smembers (key : Bytes)
  | sismember (key member : Bytes)
  | scard (key : Bytes)
  | sfirst (key : Bytes) (count : Nat)
  | slast (key : Bytes) (count : Nat)
  | snext (key member : Bytes) (count : Nat)
  | sprev (key member : Bytes) (count : Nat)
  | smismember (key : Bytes) (members : List Bytes)
  | srandmember (key : Bytes) (count : Int)
  | sunion (keys : List Bytes)
  | sinter (keys : List Bytes)
  | sdiff (keys : List Bytes)
  | sintercard (keys : List Bytes)
  | llen (key : Bytes)
  | lrange (key : Bytes) (start stop : Int)
  | hget (key field : Bytes)
  | hmget (key : Bytes) (fields : List Bytes)
  | hgetall (key : Bytes)
  | hkeys (key : Bytes)
  | hvals (key : Bytes)
  | hlen (key : Bytes)
  | hexists (key field : Bytes)
  | hfirst (key : Bytes) (count : Nat)
  | hlast (key : Bytes) (count : Nat)
  | hnext (key field : Bytes) (count : Nat)
  | hprev (key field : Bytes) (count : Nat)
  | hstrlen (key field : Bytes)
  | hrandfield (key : Bytes) (count : Int) (withValues : Bool)
  | zscore (key member : Bytes)
  | zcard (key : Bytes)
  | zrange (key : Bytes) (start stop : Int) (withScores : Bool)
  | zrangebyscore (key : Bytes) (min max : Score) (withScores : Bool)
  | zrank (key member : Bytes)
  | zrevrank (key member : Bytes)
  | zcount (key : Bytes) (min max : Score)
  | zfirst (key : Bytes) (count : Nat)
  | zlast (key : Bytes) (count : Nat)
  | znext (key member : Bytes) (count : Nat)
  | zprev (key member : Bytes) (count : Nat)
  deriving DecidableEq, Repr

namespace ReadCommands
open CommandTuple (binaries binaryPairs boolean tupleOf)
open WriteCommands (arg binariesArg binaryArg both decodeAtom decodeBool decodeFloat decodeInteger
  decodeVec getTuple
  i64Arg refuse u64Arg)

/-! ## Handlers -/

/-- The skeleton of the handlers: the number of arguments is checked, then they are decoded. -/
def handler {α : Type} (arity : Nat) (countMsg : String)
    (decode : List Term → Except Fault (Option α)) (msg : String) (command : α → ReadCommand)
    (args : List Term) : Except Fault ReadCommand :=
  if args.length ≠ arity then refuse countMsg
  else do
    match ← decode args with
    | some a => return command a
    | none => refuse msg

/-- `usize::try_from` takes every count. -/
def countArg (i : Nat) : List Term → Except Fault (Option Nat) := u64Arg i

def boolArg (i : Nat) : List Term → Except Fault (Option Bool) := arg i decodeBool

def floatArg (i : Nat) : List Term → Except Fault (Option Score) := arg i decodeFloat

def handleGet :=
    handler 1 "GET requires exactly 1 argument: key" (binaryArg 0) "GET key must be a binary" .get

def handleFirst := handler 1 "FIRST requires exactly 1 argument: count" (countArg 0)
  "FIRST count must be a non-negative integer" .first

def handleLast := handler 1 "LAST requires exactly 1 argument: count" (countArg 0)
  "LAST count must be a non-negative integer" .last

def handleNext :=
    handler 2 "NEXT requires exactly 2 arguments: key, count" (both (binaryArg 0) (countArg 1))
  "NEXT key must be a binary, count must be a non-negative integer"
    fun (key, count) => .next key count

def handlePrev :=
    handler 2 "PREV requires exactly 2 arguments: key, count" (both (binaryArg 0) (countArg 1))
  "PREV key must be a binary, count must be a non-negative integer"
    fun (key, count) => .prev key count

def handleSmembers := handler 1 "SMEMBERS requires exactly 1 argument: key" (binaryArg 0)
  "SMEMBERS key must be a binary" .smembers

def handleSismember := handler 2 "SISMEMBER requires exactly 2 arguments: key, member"
  (both (binaryArg 0) (binaryArg 1)) "SISMEMBER key and member must be binaries"
  fun (key, member) => .sismember key member

def handleScard :=
    handler 1 "SCARD requires exactly 1 argument: key" (binaryArg 0)
    "SCARD key must be a binary" .scard

def handleSfirst :=
    handler 2 "SFIRST requires exactly 2 arguments: key, count" (both (binaryArg 0) (countArg 1))
  "SFIRST key must be a binary, count must be a non-negative integer"
    fun (key, count) => .sfirst key count

def handleSlast :=
    handler 2 "SLAST requires exactly 2 arguments: key, count" (both (binaryArg 0) (countArg 1))
  "SLAST key must be a binary, count must be a non-negative integer"
    fun (key, count) => .slast key count

def handleSnext := handler 3 "SNEXT requires exactly 3 arguments: key, member, count"
  (both (binaryArg 0) (both (binaryArg 1) (countArg 2)))
  "SNEXT key and member must be binaries, count must be a non-negative integer"
  fun (key, member, count) => .snext key member count

def handleSprev := handler 3 "SPREV requires exactly 3 arguments: key, member, count"
  (both (binaryArg 0) (both (binaryArg 1) (countArg 2)))
  "SPREV key and member must be binaries, count must be a non-negative integer"
  fun (key, member, count) => .sprev key member count

def handleSmismember := handler 2 "SMISMEMBER requires exactly 2 arguments: key, members"
  (both (binaryArg 0) (binariesArg 1))
    "SMISMEMBER key must be a binary and members must be a list of binaries"
  fun (key, members) => .smismember key members

def handleSrandmember := handler 2 "SRANDMEMBER requires exactly 2 arguments: key, count"
  (both (binaryArg 0) (i64Arg 1)) "SRANDMEMBER key must be a binary and count must be an integer"
  fun (key, count) => .srandmember key count

def handleSunion := handler 1 "SUNION requires exactly 1 argument: keys" (binariesArg 0)
  "SUNION keys must be a list of binaries" .sunion

def handleSinter := handler 1 "SINTER requires exactly 1 argument: keys" (binariesArg 0)
  "SINTER keys must be a list of binaries" .sinter

def handleSdiff := handler 1 "SDIFF requires exactly 1 argument: keys" (binariesArg 0)
  "SDIFF keys must be a list of binaries" .sdiff

def handleSintercard := handler 1 "SINTERCARD requires exactly 1 argument: keys" (binariesArg 0)
  "SINTERCARD keys must be a list of binaries" .sintercard

def handleLlen :=
    handler 1 "LLEN requires exactly 1 argument: key" (binaryArg 0)
    "LLEN key must be a binary" .llen

def handleLrange := handler 3 "LRANGE requires exactly 3 arguments: key, start, stop"
  (both (binaryArg 0) (both (i64Arg 1) (i64Arg 2)))
    "LRANGE key must be a binary, start and stop must be integers"
  fun (key, start, stop) => .lrange key start stop

def handleHget :=
    handler 2 "HGET requires exactly 2 arguments: key, field" (both (binaryArg 0) (binaryArg 1))
  "HGET key and field must be binaries" fun (key, field) => .hget key field

def handleHmget :=
    handler 2 "HMGET requires exactly 2 arguments: key, fields" (both (binaryArg 0) (binariesArg 1))
  "HMGET key must be a binary and fields must be a list of binaries"
    fun (key, fields) => .hmget key fields

def handleHgetall := handler 1 "HGETALL requires exactly 1 argument: key" (binaryArg 0)
  "HGETALL key must be a binary" .hgetall

def handleHkeys :=
    handler 1 "HKEYS requires exactly 1 argument: key" (binaryArg 0)
    "HKEYS key must be a binary" .hkeys

def handleHvals :=
    handler 1 "HVALS requires exactly 1 argument: key" (binaryArg 0)
    "HVALS key must be a binary" .hvals

def handleHlen :=
    handler 1 "HLEN requires exactly 1 argument: key" (binaryArg 0)
    "HLEN key must be a binary" .hlen

def handleHexists :=
    handler 2 "HEXISTS requires exactly 2 arguments: key, field" (both (binaryArg 0) (binaryArg 1))
  "HEXISTS key and field must be binaries" fun (key, field) => .hexists key field

def handleHfirst :=
    handler 2 "HFIRST requires exactly 2 arguments: key, count" (both (binaryArg 0) (countArg 1))
  "HFIRST key must be a binary, count must be a non-negative integer"
    fun (key, count) => .hfirst key count

def handleHlast :=
    handler 2 "HLAST requires exactly 2 arguments: key, count" (both (binaryArg 0) (countArg 1))
  "HLAST key must be a binary, count must be a non-negative integer"
    fun (key, count) => .hlast key count

def handleHnext := handler 3 "HNEXT requires exactly 3 arguments: key, field, count"
  (both (binaryArg 0) (both (binaryArg 1) (countArg 2)))
  "HNEXT key and field must be binaries, count must be a non-negative integer"
  fun (key, field, count) => .hnext key field count

def handleHprev := handler 3 "HPREV requires exactly 3 arguments: key, field, count"
  (both (binaryArg 0) (both (binaryArg 1) (countArg 2)))
  "HPREV key and field must be binaries, count must be a non-negative integer"
  fun (key, field, count) => .hprev key field count

def handleHstrlen :=
    handler 2 "HSTRLEN requires exactly 2 arguments: key, field" (both (binaryArg 0) (binaryArg 1))
  "HSTRLEN key and field must be binaries" fun (key, field) => .hstrlen key field

def handleHrandfield := handler 3 "HRANDFIELD requires exactly 3 arguments: key, count, with_values"
  (both (binaryArg 0) (both (i64Arg 1) (boolArg 2)))
  "HRANDFIELD key must be a binary, count must be an integer, with_values must be a boolean"
  fun (key, count, withValues) => .hrandfield key count withValues

def handleZscore :=
    handler 2 "ZSCORE requires exactly 2 arguments: key, member" (both (binaryArg 0) (binaryArg 1))
  "ZSCORE key and member must be binaries" fun (key, member) => .zscore key member

def handleZcard :=
    handler 1 "ZCARD requires exactly 1 argument: key" (binaryArg 0)
    "ZCARD key must be a binary" .zcard

def handleZrange := handler 4 "ZRANGE requires exactly 4 arguments: key, start, stop, with_scores"
  (both (binaryArg 0) (both (i64Arg 1) (both (i64Arg 2) (boolArg 3))))
  "ZRANGE key must be a binary, start and stop must be integers, with_scores must be a boolean"
  fun (key, start, stop, withScores) => .zrange key start stop withScores

def handleZrangebyscore :=
    handler 4 "ZRANGEBYSCORE requires exactly 4 arguments: key, min, max, with_scores"
  (both (binaryArg 0) (both (floatArg 1) (both (floatArg 2) (boolArg 3))))
  "ZRANGEBYSCORE key must be a binary, min and max must be floats, with_scores must be a boolean"
  fun (key, min, max, withScores) => .zrangebyscore key min max withScores

def handleZrank :=
    handler 2 "ZRANK requires exactly 2 arguments: key, member" (both (binaryArg 0) (binaryArg 1))
  "ZRANK key and member must be binaries" fun (key, member) => .zrank key member

def handleZrevrank := handler 2 "ZREVRANK requires exactly 2 arguments: key, member"
  (both (binaryArg 0) (binaryArg 1)) "ZREVRANK key and member must be binaries"
  fun (key, member) => .zrevrank key member

def handleZcount := handler 3 "ZCOUNT requires exactly 3 arguments: key, min, max"
  (both (binaryArg 0) (both (floatArg 1) (floatArg 2)))
    "ZCOUNT key must be a binary, min and max must be floats"
  fun (key, min, max) => .zcount key min max

def handleZfirst :=
    handler 2 "ZFIRST requires exactly 2 arguments: key, count" (both (binaryArg 0) (countArg 1))
  "ZFIRST key must be a binary, count must be a non-negative integer"
    fun (key, count) => .zfirst key count

def handleZlast :=
    handler 2 "ZLAST requires exactly 2 arguments: key, count" (both (binaryArg 0) (countArg 1))
  "ZLAST key must be a binary, count must be a non-negative integer"
    fun (key, count) => .zlast key count

def handleZnext := handler 3 "ZNEXT requires exactly 3 arguments: key, member, count"
  (both (binaryArg 0) (both (binaryArg 1) (countArg 2)))
  "ZNEXT key and member must be binaries, count must be a non-negative integer"
  fun (key, member, count) => .znext key member count

def handleZprev := handler 3 "ZPREV requires exactly 3 arguments: key, member, count"
  (both (binaryArg 0) (both (binaryArg 1) (countArg 2)))
  "ZPREV key and member must be binaries, count must be a non-negative integer"
  fun (key, member, count) => .zprev key member count

/-- The handler that `dispatch_read_command` finds. -/
def handlerOf (name : String) (args : List Term) : Except Fault ReadCommand :=
  if name = "get" then handleGet args
  else if name = "first" then handleFirst args
  else if name = "last" then handleLast args
  else if name = "next" then handleNext args
  else if name = "prev" then handlePrev args
  else if name = "smembers" then handleSmembers args
  else if name = "sismember" then handleSismember args
  else if name = "scard" then handleScard args
  else if name = "sfirst" then handleSfirst args
  else if name = "slast" then handleSlast args
  else if name = "snext" then handleSnext args
  else if name = "sprev" then handleSprev args
  else if name = "smismember" then handleSmismember args
  else if name = "srandmember" then handleSrandmember args
  else if name = "sunion" then handleSunion args
  else if name = "sinter" then handleSinter args
  else if name = "sdiff" then handleSdiff args
  else if name = "sintercard" then handleSintercard args
  else if name = "llen" then handleLlen args
  else if name = "lrange" then handleLrange args
  else if name = "hget" then handleHget args
  else if name = "hmget" then handleHmget args
  else if name = "hgetall" then handleHgetall args
  else if name = "hkeys" then handleHkeys args
  else if name = "hvals" then handleHvals args
  else if name = "hlen" then handleHlen args
  else if name = "hexists" then handleHexists args
  else if name = "hfirst" then handleHfirst args
  else if name = "hlast" then handleHlast args
  else if name = "hnext" then handleHnext args
  else if name = "hprev" then handleHprev args
  else if name = "hstrlen" then handleHstrlen args
  else if name = "hrandfield" then handleHrandfield args
  else if name = "zscore" then handleZscore args
  else if name = "zcard" then handleZcard args
  else if name = "zrange" then handleZrange args
  else if name = "zrangebyscore" then handleZrangebyscore args
  else if name = "zrank" then handleZrank args
  else if name = "zrevrank" then handleZrevrank args
  else if name = "zcount" then handleZcount args
  else if name = "zfirst" then handleZfirst args
  else if name = "zlast" then handleZlast args
  else if name = "znext" then handleZnext args
  else if name = "zprev" then handleZprev args
  else refuse "Unknown read command"

/-! ## Encoding -/

def okTerm (value : Term) : Term := tupleOf [.atom "ok", value]

/-- `encode_error`. -/
def encodeError (msg : String) : Term := tupleOf [.atom "error", .binary (ascii msg)]

def nilAtom : Term := .atom "nil"

def integer (n : Nat) : Term := .integer n

/-- `Some` and `None`. -/
def optional {α : Type} (encode : α → Term) : Option α → Term
  | some a => encode a
  | none => nilAtom

/-- The score of a double; there is no term for infinities and for what is not a number. -/
def float (score : Score) : Except Fault Term :=
  if Binary64.magnitude score < Binary64.infBits then .ok (.float score)
    else .error (.panic "badarg")

def optionalFloat : Option Score → Except Fault Term
  | some score => float score
  | none => .ok nilAtom

/-- A member, with its score if there is one. -/
def scoredMember : Bytes × Option Score → Except Fault Term
  | (member, some score) => do return tupleOf [.binary member, ← float score]
  | (member, none) => .ok (.binary member)

/-- A score and its member. -/
def scoreFirst : Score × Bytes → Except Fault Term
  | (score, member) => do return tupleOf [← float score, .binary member]

/-- A field, with its value if there is one. -/
def fieldTerm : Bytes × Option Bytes → Term
  | (field, some value) => tupleOf [.binary field, .binary value]
  | (field, none) => .binary field

/-- A list of terms. -/
def listOf {α : Type} (encode : α → Except Fault Term) (items : List α) : Except Fault Term :=
  (items.mapM encode).map Term.ofList

/-- `Ok` is encoded, and every `Err` has the same text. -/
def answered {α : Type} (encode : α → Except Fault Term) : Except Fault α → Except Fault Term
  | .ok a => (encode a).map okTerm
  | .error (.err _) => refuse "WRONGTYPE: Operation against a key holding the wrong kind of value"
  | .error (.panic msg) => .error (.panic msg)

/-- The same, where every value has a term. -/
def plainly {α : Type} (encode : α → Term) : Except Fault α → Except Fault Term :=
  answered fun a => .ok (encode a)

end ReadCommands

open ReadCommands CommandTuple in
/-- What the handler of a command answers, behind the decoding of its arguments. -/
def ReadCommand.answer [Indexset] (dice : Dice) (s : StorageInner) (db : Nat) : ReadCommand →
    Except Fault Term
  | .get key => plainly (optional .binary) (TsNif.get s db key)
  | .first count => .ok (okTerm (binaries (s.first db count)))
  | .last count => .ok (okTerm (binaries (s.last db count)))
  | .next key count => .ok (okTerm (binaries (s.next db key count)))
  | .prev key count => .ok (okTerm (binaries (s.prev db key count)))
  | .smembers key => plainly binaries (TsNif.smembers s db key)
  | .sismember key member => plainly boolean (TsNif.sismember s db key member)
  | .scard key => plainly integer (TsNif.scard s db key)
  | .sfirst key count => plainly binaries (TsNif.sfirst s db key count)
  | .slast key count => plainly binaries (TsNif.slast s db key count)
  | .snext key member count => plainly binaries (TsNif.snext s db key member count)
  | .sprev key member count => plainly binaries (TsNif.sprev s db key member count)
  | .smismember key members =>
    plainly (fun found => Term.ofList (found.map boolean)) (TsNif.smismember s db key members)
  | .srandmember key count => plainly binaries (TsNif.srandmember dice s db key count)
  | .sunion keys => plainly binaries (TsNif.sunion s db keys)
  | .sinter keys => plainly binaries (TsNif.sinter s db keys)
  | .sdiff keys => plainly binaries (TsNif.sdiff s db keys)
  | .sintercard keys => plainly integer (TsNif.sintercard s db keys)
  | .llen key => plainly integer (TsNif.llen s db key)
  | .lrange key start stop => plainly binaries (TsNif.lrange s db key start stop)
  | .hget key field => plainly (optional .binary) (TsNif.hget s db key field)
  | .hmget key fields =>
    plainly (fun values => Term.ofList (values.map (optional .binary)))
      (TsNif.hmget s db key fields)
  | .hgetall key => plainly binaryPairs (TsNif.hgetall s db key)
  | .hkeys key => plainly binaries (TsNif.hkeys s db key)
  | .hvals key => plainly binaries (TsNif.hvals s db key)
  | .hlen key => plainly integer (TsNif.hlen s db key)
  | .hexists key field => plainly boolean (TsNif.hexists s db key field)
  | .hfirst key count => plainly binaryPairs (TsNif.hfirst s db key count)
  | .hlast key count => plainly binaryPairs (TsNif.hlast s db key count)
  | .hnext key field count => plainly binaryPairs (TsNif.hnext s db key field count)
  | .hprev key field count => plainly binaryPairs (TsNif.hprev s db key field count)
  | .hstrlen key field => plainly integer (TsNif.hstrlen s db key field)
  | .hrandfield key count withValues =>
    plainly (fun fields => Term.ofList (fields.map fieldTerm))
      (TsNif.hrandfield dice s db key count withValues)
  | .zscore key member => answered optionalFloat (TsNif.zscore s db key member)
  | .zcard key => plainly integer (TsNif.zcard s db key)
  | .zrange key start stop withScores =>
    answered (listOf scoredMember) (TsNif.zrange s db key start stop withScores)
  | .zrangebyscore key min max withScores =>
    answered (listOf scoredMember) (TsNif.zrangebyscore s db key min max withScores)
  | .zrank key member => plainly (optional integer) (TsNif.zrank s db key member)
  | .zrevrank key member => plainly (optional integer) (TsNif.zrevrank s db key member)
  | .zcount key min max => plainly integer (TsNif.zcount s db key min max)
  | .zfirst key count => answered (listOf scoreFirst) (TsNif.zfirst s db key count)
  | .zlast key count => answered (listOf scoreFirst) (TsNif.zlast s db key count)
  | .znext key member count => answered (listOf scoreFirst) (TsNif.znext s db key member count)
  | .zprev key member count => answered (listOf scoreFirst) (TsNif.zprev s db key member count)

namespace ReadCommands
open CommandTuple (binaries binaryPairs boolean tupleOf)
open WriteCommands (decodeAtom decodeInteger decodeVec getTuple)

/-- `dispatch_read_command`. -/
def dispatchReadCommand [Indexset] (dice : Dice) (s : StorageInner) (db : Nat) (name : String)
    (args : List Term) :
    Except Fault Term := do
  let command ← handlerOf name args
  command.answer dice s db

/-- A refusal is an answer, too. -/
def orError : Except Fault Term → Except Fault Term
  | .error (.err msg) => .ok (encodeError msg)
  | result => result

/-- `execute`: a panic goes through. -/
def execute [Indexset] (dice : Dice) (s : StorageInner) (db : Nat) (cmdTerm : Term) :
    Except Fault Term :=
  match getTuple cmdTerm with
  | none => .ok (encodeError "Invalid command tuple")
  | some [] => .ok (encodeError "Empty command tuple")
  | some (first :: args) =>
    match decodeAtom first with
    | none => .ok (encodeError "Invalid command atom")
    | some name => orError (dispatchReadCommand dice s db name args)

/-- The loop of `read_tx_commands`; every command has its own generator. -/
def executeAll [Indexset] (dice : Nat → Dice) (s : StorageInner) (db : Nat) : List Term →
    Except Fault (List Term)
  | [] => .ok []
  | cmdTerm :: rest => do
    let result ← execute (dice 0) s db cmdTerm
    let results ← executeAll (fun i => dice (i + 1)) s db rest
    return result :: results

/-- `read_tx_commands`: arguments that do not decode raise. -/
def readTxCommands [Indexset] (dice : Nat → Dice) (s : StorageInner) (db commands : Term) :
    Except Fault Term :=
  match decodeInteger decodeU64 db with
  | some db => do
    match ← decodeVec some commands with
    | some commands =>
      let results ← executeAll dice s db commands
      return okTerm (Term.ofList results)
    | none => .error (.panic "badarg")
  | none => .error (.panic "badarg")

end ReadCommands

end Veidrodelis.TsNif
