import Veidrodelis.RedisNif.Replica
import Veidrodelis.TsNif.ZSets

/-!
# Command tuples

`lib/veidrodelis/redis_stream/command_parser.ex`: the tuples that stand for commands, and `parse`,
which makes one of the arguments of a replicated command. The names are compared as they are;
options in any case.

Where `parse` raises it returns nothing here. `String.slice` takes a whole grapheme off the front of
a bound; which code points continue a grapheme is a parameter (`Graphemes`).
-/

namespace Veidrodelis.RedisStream
open RedisNif.ReplicaParser (toUppercase)
open TsNif (Aggregate HSetEXMode Side ZAddOption)

/-- The code points that never start a grapheme. -/
class Graphemes where
  continues : Nat → Bool

/-! ## Tuples -/

/-- A score in a tuple: a float, by its bits, or an atom. -/
inductive ScoreTerm where
  | float (bits : Nat)
  | posInf
  | negInf
  | nan
  deriving DecidableEq, Repr

/-- The score of a bound. -/
inductive BoundTerm where
  | float (bits : Nat)
  | infinity
  | negInfinity
  deriving DecidableEq, Repr

/-- The condition of a hash field expiration. -/
inductive HExpireCondition where
  | nx | xx | gt | lt
  deriving DecidableEq, Repr

/-- The command tuples: those that `parse` returns, and `hset`, `hincrbyfloat`, `getset` and
`getdel`, which only the storage knows. -/
inductive Command where
  | set (key value : Bytes)
  | mset (pairs : List (Bytes × Bytes))
  | msetex (pairs : List (Bytes × Bytes))
  | msetnx (pairs : List (Bytes × Bytes))
  | append (key value : Bytes)
  | setrange (key : Bytes) (offset : Int) (value : Bytes)
  | setbit (key : Bytes) (offset value : Int)
  | incr (key : Bytes)
  | incrby (key : Bytes) (increment : Int)
  | decr (key : Bytes)
  | decrby (key : Bytes) (decrement : Int)
  | setnx (key value : Bytes)
  | getset (key value : Bytes)
  | getdel (key : Bytes)
  | lpush (key : Bytes) (values : List Bytes)
  | rpush (key : Bytes) (values : List Bytes)
  | lpushx (key : Bytes) (values : List Bytes)
  | rpushx (key : Bytes) (values : List Bytes)
  | lpop (key : Bytes)
  | lpopCount (key : Bytes) (count : Int)
  | rpop (key : Bytes)
  | rpopCount (key : Bytes) (count : Int)
  | lrem (key : Bytes) (count : Int) (value : Bytes)
  | ltrim (key : Bytes) (start stop : Int)
  | lset (key : Bytes) (index : Int) (value : Bytes)
  | linsert (key : Bytes) (before : Bool) (pivot element : Bytes)
  | rpoplpush (source destination : Bytes)
  | lmove (source destination : Bytes) (wherefrom whereto : Side)
  | sadd (key : Bytes) (members : List Bytes)
  | srem (key : Bytes) (members : List Bytes)
  | smove (source destination member : Bytes)
  | sinterstore (destination : Bytes) (sources : List Bytes)
  | sunionstore (destination : Bytes) (sources : List Bytes)
  | sdiffstore (destination : Bytes) (sources : List Bytes)
  | zadd (key : Bytes) (members : List (ScoreTerm × Bytes)) (options : List ZAddOption)
  | zincrby (key : Bytes) (increment : ScoreTerm) (member : Bytes)
  | zrem (key : Bytes) (members : List Bytes)
  | zpopmax (key : Bytes) (count : Int)
  | zpopmin (key : Bytes) (count : Int)
  | zremrangebyrank (key : Bytes) (start stop : Int)
  | zremrangebyscore (key : Bytes) (min max : Bound BoundTerm)
  | zremrangebylex (key : Bytes) (min max : Bound Bytes)
  | zrangestore (destination source min max : Bytes) (options : List Bytes)
  | zunionstore (destination : Bytes) (sources : List Bytes) (weights : List ScoreTerm)
      (aggregate : Aggregate)
  | zinterstore (destination : Bytes) (sources : List Bytes) (weights : List ScoreTerm)
      (aggregate : Aggregate)
  | zdiffstore (destination : Bytes) (sources : List Bytes)
  | hset (key field value : Bytes)
  | hmset (key : Bytes) (fields : List (Bytes × Bytes))
  | hsetnx (key field value : Bytes)
  | hincrby (key field : Bytes) (increment : Int)
  | hincrbyfloat (key field : Bytes) (increment : ScoreTerm)
  | hdel (key : Bytes) (fields : List Bytes)
  | hgetdel (key : Bytes) (fields : List Bytes)
  | hpexpireat (key : Bytes) (timestamp : Int) (condition : Option HExpireCondition)
      (fields : List Bytes)
  | hpersist (key : Bytes) (fields : List Bytes)
  | hsetex (key : Bytes) (mode : Option HSetEXMode) (fields : List (Bytes × Bytes))
  | del (keys : List Bytes)
  | copy (source destination : Bytes) (replace : Bool)
  | rename (oldKey newKey : Bytes)
  | renamenx (oldKey newKey : Bytes)
  | moveKey (key : Bytes) (targetDb : Int)
  | pexpireat (key : Bytes) (timestamp : Int)
  | persist (key : Bytes)
  | flushall
  | flushdb
  | swapdb (db1 db2 : Int)
  | generic (args : List Bytes)
  deriving DecidableEq, Repr

namespace CommandParser

/-- What `parse` returns, if it does not raise: the tuple and the affected keys. -/
abbrev Parsed := Option (Command × List Bytes)

/-! ## Numbers -/

/-- What `Float.parse` returns. -/
inductive FloatParse where
  | float (bits : Nat)
  | failed
  | raised
  deriving DecidableEq, Repr

/-- The exponent at the front of a text: `e` or `E`, an optional sign, and digits. -/
def exponentOf : Bytes → Option Int
  | marker :: rest =>
    let (negative, rest) := Binary64.splitSign rest
    let digits := rest.takeWhile Bytes.isDigit
    if (marker = 101 ∨ marker = 69) ∧ digits ≠ [] then
      some (if negative then -(Bytes.digitsValue digits : Int) else Bytes.digitsValue digits)
    else none
  | [] => none

/-- `Float.parse`: digits, a point only with a digit behind it, and an exponent; the rest of the
text is ignored. A number that is too large raises, unless it has an exponent. -/
def floatParse (text : Bytes) : FloatParse :=
  let (negative, unsigned) := Binary64.splitSign text
  let whole := unsigned.takeWhile Bytes.isDigit
  let rest := unsigned.dropWhile Bytes.isDigit
  let fraction := match rest with
    | 46 :: tail => tail.takeWhile Bytes.isDigit
    | _ => []
  let rest := if fraction = [] then rest else rest.drop (fraction.length + 1)
  let exponent := exponentOf rest
  if whole = [] then .failed
  else
    let mag := Binary64.ofDecimal (Bytes.digitsValue (whole ++ fraction))
      (exponent.getD 0 - fraction.length)
    if mag = Binary64.infBits then if exponent.isSome then .failed else .raised
    else .float (Binary64.withSign negative mag)

/-- `Integer.parse`, as a float. -/
def integerParse (text : Bytes) : Nat :=
  let (negative, unsigned) := Binary64.splitSign text
  Binary64.ofInt (if negative then -(Bytes.digitsValue (unsigned.takeWhile Bytes.isDigit) : Int)
    else Bytes.digitsValue (unsigned.takeWhile Bytes.isDigit))

/-- `parse_float`. -/
def parseFloat (text : Bytes) : Option ScoreTerm :=
  if text = ascii "inf" ∨ text = ascii "+inf" then some .posInf
  else if text = ascii "-inf" then some .negInf
  else if text = ascii "nan" then some .nan
  else
    match floatParse text with
    | .float bits => some (.float bits)
    | .failed =>
      if Binary64.magnitude (integerParse text) = Binary64.infBits then none
      else some (.float (integerParse text))
    | .raised => none

/-- `parse_score_to_float`. -/
def parseScoreToFloat (text : Bytes) : Option BoundTerm :=
  if text = ascii "-inf" then some .negInfinity
  else if text = ascii "+inf" ∨ text = ascii "inf" then some .infinity
  else
    match floatParse text with
    | .float bits => some (.float bits)
    | _ => none

/-- The code point at the front of a text, and its length. -/
def codePoint (text : Bytes) : Option (Nat × Nat) :=
  match text with
  | [] => none
  | first :: _ =>
    let len := if first < 0x80 then 1 else if first < 0xE0 then 2 else if first < 0xF0 then 3 else 4
    let lead := if len = 1 then first.toNat else first.toNat % 2 ^ (7 - len)
    if len ≤ text.length ∧ Bytes.validUtf8 (text.take len) then
      some (((text.take len).drop 1).foldl (fun acc b => acc * 64 + b.toNat % 64) lead, len)
    else none

/-- The text behind the code points that continue the grapheme in front of it; so many bytes are
known to belong to it. -/
def dropContinuing [Graphemes] : Nat → Bytes → Bytes
  | _, [] => []
  | known + 1, _ :: rest => dropContinuing known rest
  | 0, first :: rest =>
    match codePoint (first :: rest) with
    | some (c, len) =>
      if Graphemes.continues c then dropContinuing (len - 1) rest else first :: rest
    | none => first :: rest

/-- `String.slice(str, 1..-1//1)` of a text that starts with an ASCII character. -/
def sliceRest [Graphemes] (text : Bytes) : Bytes := dropContinuing 0 (text.drop 1)

/-- `parse_score_bound`. -/
def parseScoreBound [Graphemes] (text : Bytes) : Option (Bound BoundTerm) :=
  if (ascii "(").isPrefixOf text then (parseScoreToFloat (sliceRest text)).map .excluded
  else (parseScoreToFloat text).map fun score =>
    if score = .negInfinity ∨ score = .infinity then .unbounded else .included score

/-- `parse_lex_bound`. -/
def parseLexBound [Graphemes] (text : Bytes) : Bound Bytes :=
  if text = ascii "-" ∨ text = ascii "+" then .unbounded
  else if (ascii "[").isPrefixOf text then .included (sliceRest text)
  else if (ascii "(").isPrefixOf text then .excluded (sliceRest text)
  else .included text

/-! ## Arguments -/

/-- `parse_pairs`. -/
def parsePairs : List Bytes → Option (List (Bytes × Bytes))
  | [] => some []
  | [_] => none
  | k :: v :: rest => (parsePairs rest).map ((k, v) :: ·)

/-- `Enum.split(args, count)`, its first part. -/
def splitFront (args : List Bytes) (count : Int) : List Bytes :=
  if 0 ≤ count then args.take count.toNat else args.take (args.length - (-count).toNat)

/-- `extract_zadd_options`. -/
def extractZaddOptions : List Bytes → List ZAddOption × List Bytes
  | [] => ([], [])
  | arg :: rest =>
    let word := toUppercase arg
    let (options, others) := extractZaddOptions rest
    if word = ascii "NX" then (.nx :: options, others)
    else if word = ascii "XX" then (.xx :: options, others)
    else if word = ascii "GT" then (.gt :: options, others)
    else if word = ascii "LT" then (.lt :: options, others)
    else if word = ascii "CH" then (.ch :: options, others)
    else if word = ascii "INCR" then (.incr :: options, others)
    else ([], arg :: rest)

/-- `parse_score_member_pairs`. -/
def parseScoreMemberPairs : List Bytes → Option (List (ScoreTerm × Bytes))
  | [] => some []
  | [_] => none
  | score :: member :: rest => do
    let score ← parseFloat score
    let others ← parseScoreMemberPairs rest
    return (score, member) :: others

/-- The mode behind `AGGREGATE` in `parse_zstore_command`. -/
def parseAggregate : List Bytes → Option Aggregate
  | keyword :: mode :: _ =>
    if keyword = ascii "AGGREGATE" then
      if toUppercase mode = ascii "SUM" then some .sum
      else if toUppercase mode = ascii "MIN" then some .min
      else if toUppercase mode = ascii "MAX" then some .max
      else none
    else some .sum
  | _ => some .sum

/-- `parse_zstore_command`: the source keys, the weights and the mode. -/
def parseZstore (args : List Bytes) : Option (List Bytes × List ScoreTerm × Aggregate) := do
  let isOption := fun arg => decide (arg = ascii "WEIGHTS" ∨ arg = ascii "AGGREGATE")
  let sources := args.takeWhile fun arg => !isOption arg
  match args.dropWhile fun arg => !isOption arg with
  | keyword :: rest =>
    if keyword = ascii "WEIGHTS" then
      let weights ← (rest.takeWhile (· ≠ ascii "AGGREGATE")).mapM parseFloat
      let aggregate ← parseAggregate (rest.dropWhile (· ≠ ascii "AGGREGATE"))
      return (sources, weights, aggregate)
    else
      let aggregate ← parseAggregate (keyword :: rest)
      return (sources, sources.map fun _ => .float (Binary64.ofInt 1), aggregate)
  | [] => return (sources, sources.map fun _ => .float (Binary64.ofInt 1), .sum)

/-- `extract_hexpire_fields`. -/
def extractHexpireFields : List Bytes → List Bytes
  | keyword :: _ :: fields => if keyword = ascii "FIELDS" then fields else []
  | _ => []

/-- `extract_hexpire_condition`. -/
def extractHexpireCondition : List Bytes → Option HExpireCondition × List Bytes
  | [] => (none, [])
  | arg :: rest =>
    let word := toUppercase arg
    if word = ascii "NX" then (some .nx, rest)
    else if word = ascii "XX" then (some .xx, rest)
    else if word = ascii "GT" then (some .gt, rest)
    else if word = ascii "LT" then (some .lt, rest)
    else (none, arg :: rest)

/-- `extract_hsetex_options`. -/
def extractHsetexOptions (mode : Option HSetEXMode) : List Bytes → Option HSetEXMode × List Bytes
  | [] => (mode, [])
  | arg :: rest =>
    let word := toUppercase arg
    if word = ascii "FNX" then extractHsetexOptions (some .nx) rest
    else if word = ascii "FXX" then extractHsetexOptions (some .xx) rest
    else if word = ascii "NX" ∨ word = ascii "XX" ∨ word = ascii "KEEPTTL" then
      extractHsetexOptions mode rest
    else if word = ascii "PXAT" then
      match rest with
      | [] => (mode, [])
      | _ :: rest => extractHsetexOptions mode rest
    else (mode, arg :: rest)

/-- `parse_hsetex`. -/
def parseHsetex (key : Bytes) (args : List Bytes) : Parsed :=
  match extractHsetexOptions none args with
  | (mode, keyword :: _ :: fieldValueArgs) =>
    if keyword = ascii "FIELDS" then
      (parsePairs fieldValueArgs).map fun fields => (.hsetex key mode fields, [key])
    else some (.generic (ascii "HSETEX" :: key :: args), [])
  | _ => some (.generic (ascii "HSETEX" :: key :: args), [])

/-! ## The clauses -/

/-- A command on one key. -/
def one (command : Command) (key : Bytes) : Parsed := some (command, [key])

/-- The clauses of strings. -/
def parseString (name : Bytes) (args : List Bytes) (otherwise : Parsed) : Parsed :=
  if name = ascii "SET" then
    match args with
    | key :: value :: _ => one (.set key value) key
    | _ => otherwise
  else if name = ascii "MSET" then
    (parsePairs args).map fun pairs => (.mset pairs, pairs.map (·.1))
  else if name = ascii "MSETEX" then
    match args with
    | numkeys :: args => do
      let numkeys ← Bytes.parseInt numkeys
      let pairs ← parsePairs (splitFront args (numkeys * 2))
      return (.msetex pairs, pairs.map (·.1))
    | _ => otherwise
  else if name = ascii "APPEND" then
    match args with
    | [key, value] => one (.append key value) key
    | _ => otherwise
  else if name = ascii "SETRANGE" then
    match args with
    | [key, offset, value] =>
      (Bytes.parseInt offset).bind fun offset => one (.setrange key offset value) key
    | _ => otherwise
  else if name = ascii "SETBIT" then
    match args with
    | [key, offset, value] => do
      let value ← Bytes.parseInt value
      let offset ← Bytes.parseInt offset
      one (.setbit key offset value) key
    | _ => otherwise
  else if name = ascii "INCR" then
    match args with
    | [key] => one (.incr key) key
    | _ => otherwise
  else if name = ascii "INCRBY" then
    match args with
    | [key, increment] =>
      (Bytes.parseInt increment).bind fun increment => one (.incrby key increment) key
    | _ => otherwise
  else if name = ascii "DECR" then
    match args with
    | [key] => one (.decr key) key
    | _ => otherwise
  else if name = ascii "DECRBY" then
    match args with
    | [key, decrement] =>
      (Bytes.parseInt decrement).bind fun decrement => one (.decrby key decrement) key
    | _ => otherwise
  else if name = ascii "SETNX" then
    match args with
    | [key, value] => one (.setnx key value) key
    | _ => otherwise
  else if name = ascii "MSETNX" then
    (parsePairs args).map fun pairs => (.msetnx pairs, pairs.map (·.1))
  else otherwise

/-- The end of a list that a word names. -/
def parseSide (word : Bytes) : Option Side :=
  if toUppercase word = ascii "LEFT" then some .left
  else if toUppercase word = ascii "RIGHT" then some .right
  else none

/-- The clauses of lists. -/
def parseList (name : Bytes) (args : List Bytes) (otherwise : Parsed) : Parsed :=
  if name = ascii "LPUSH" then
    match args with
    | key :: values => one (.lpush key values) key
    | _ => otherwise
  else if name = ascii "RPUSH" then
    match args with
    | key :: values => one (.rpush key values) key
    | _ => otherwise
  else if name = ascii "LPUSHX" then
    match args with
    | key :: values => one (.lpushx key values) key
    | _ => otherwise
  else if name = ascii "RPUSHX" then
    match args with
    | key :: values => one (.rpushx key values) key
    | _ => otherwise
  else if name = ascii "LPOP" then
    match args with
    | [key] => one (.lpop key) key
    | [key, count] => (Bytes.parseInt count).bind fun count => one (.lpopCount key count) key
    | _ => otherwise
  else if name = ascii "RPOP" then
    match args with
    | [key] => one (.rpop key) key
    | [key, count] => (Bytes.parseInt count).bind fun count => one (.rpopCount key count) key
    | _ => otherwise
  else if name = ascii "LREM" then
    match args with
    | [key, count, value] =>
      (Bytes.parseInt count).bind fun count => one (.lrem key count value) key
    | _ => otherwise
  else if name = ascii "LTRIM" then
    match args with
    | [key, start, stop] => do
      let start ← Bytes.parseInt start
      let stop ← Bytes.parseInt stop
      one (.ltrim key start stop) key
    | _ => otherwise
  else if name = ascii "LSET" then
    match args with
    | [key, index, value] =>
      (Bytes.parseInt index).bind fun index => one (.lset key index value) key
    | _ => otherwise
  else if name = ascii "LINSERT" then
    match args with
    | [key, word, pivot, element] =>
      if toUppercase word = ascii "BEFORE" then one (.linsert key true pivot element) key
      else if toUppercase word = ascii "AFTER" then one (.linsert key false pivot element) key
      else none
    | _ => otherwise
  else if name = ascii "RPOPLPUSH" then
    match args with
    | [source, destination] => some (.rpoplpush source destination, [source, destination])
    | _ => otherwise
  else if name = ascii "LMOVE" then
    match args with
    | [source, destination, wherefrom, whereto] => do
      let wherefrom ← parseSide wherefrom
      let whereto ← parseSide whereto
      return (.lmove source destination wherefrom whereto, [source, destination])
    | _ => otherwise
  else otherwise

/-- The clauses of sets. -/
def parseSet (name : Bytes) (args : List Bytes) (otherwise : Parsed) : Parsed :=
  if name = ascii "SADD" then
    match args with
    | key :: members => one (.sadd key members) key
    | _ => otherwise
  else if name = ascii "SREM" then
    match args with
    | key :: members => one (.srem key members) key
    | _ => otherwise
  else if name = ascii "SMOVE" then
    match args with
    | [source, destination, member] =>
      some (.smove source destination member, [source, destination])
    | _ => otherwise
  else if name = ascii "SINTERSTORE" then
    match args with
    | destination :: sources => some (.sinterstore destination sources, destination :: sources)
    | _ => otherwise
  else if name = ascii "SUNIONSTORE" then
    match args with
    | destination :: sources => some (.sunionstore destination sources, destination :: sources)
    | _ => otherwise
  else if name = ascii "SDIFFSTORE" then
    match args with
    | destination :: sources => some (.sdiffstore destination sources, destination :: sources)
    | _ => otherwise
  else otherwise

/-- The clauses of sorted sets. -/
def parseZset [Graphemes] (name : Bytes) (args : List Bytes) (otherwise : Parsed) : Parsed :=
  if name = ascii "ZADD" then
    match args with
    | key :: args =>
      let (options, rest) := extractZaddOptions args
      (parseScoreMemberPairs rest).bind fun members => one (.zadd key members options) key
    | _ => otherwise
  else if name = ascii "ZINCRBY" then
    match args with
    | [key, increment, member] =>
      (parseFloat increment).bind fun increment => one (.zincrby key increment member) key
    | _ => otherwise
  else if name = ascii "ZREM" then
    match args with
    | key :: members => one (.zrem key members) key
    | _ => otherwise
  else if name = ascii "ZPOPMAX" then
    match args with
    | [key] => one (.zpopmax key 1) key
    | [key, count] => (Bytes.parseInt count).bind fun count => one (.zpopmax key count) key
    | _ => otherwise
  else if name = ascii "ZPOPMIN" then
    match args with
    | [key] => one (.zpopmin key 1) key
    | [key, count] => (Bytes.parseInt count).bind fun count => one (.zpopmin key count) key
    | _ => otherwise
  else if name = ascii "ZREMRANGEBYRANK" then
    match args with
    | [key, start, stop] => do
      let start ← Bytes.parseInt start
      let stop ← Bytes.parseInt stop
      one (.zremrangebyrank key start stop) key
    | _ => otherwise
  else if name = ascii "ZREMRANGEBYSCORE" then
    match args with
    | [key, min, max] => do
      let min ← parseScoreBound min
      let max ← parseScoreBound max
      one (.zremrangebyscore key min max) key
    | _ => otherwise
  else if name = ascii "ZREMRANGEBYLEX" then
    match args with
    | [key, min, max] => one (.zremrangebylex key (parseLexBound min) (parseLexBound max)) key
    | _ => otherwise
  else if name = ascii "ZRANGESTORE" then
    match args with
    | destination :: source :: min :: max :: options =>
      some (.zrangestore destination source min max (options.map toUppercase),
        [destination, source])
    | _ => otherwise
  else if name = ascii "ZUNIONSTORE" then
    match args with
    | destination :: _ :: rest => do
      let (sources, weights, aggregate) ← parseZstore rest
      return (.zunionstore destination sources weights aggregate, destination :: sources)
    | _ => otherwise
  else if name = ascii "ZINTERSTORE" then
    match args with
    | destination :: _ :: rest => do
      let (sources, weights, aggregate) ← parseZstore rest
      return (.zinterstore destination sources weights aggregate, destination :: sources)
    | _ => otherwise
  else if name = ascii "ZDIFFSTORE" then
    match args with
    | destination :: _ :: sources => some (.zdiffstore destination sources, destination :: sources)
    | _ => otherwise
  else otherwise

/-- The clauses of hashes. -/
def parseHash (name : Bytes) (args : List Bytes) (otherwise : Parsed) : Parsed :=
  if name = ascii "HSET" ∨ name = ascii "HMSET" then
    match args with
    | key :: args => (parsePairs args).bind fun fields => one (.hmset key fields) key
    | _ => otherwise
  else if name = ascii "HSETNX" then
    match args with
    | [key, field, value] => one (.hsetnx key field value) key
    | _ => otherwise
  else if name = ascii "HINCRBY" then
    match args with
    | [key, field, increment] =>
      (Bytes.parseInt increment).bind fun increment => one (.hincrby key field increment) key
    | _ => otherwise
  else if name = ascii "HDEL" then
    match args with
    | key :: fields => one (.hdel key fields) key
    | _ => otherwise
  else if name = ascii "HGETDEL" then
    match args with
    | key :: rest => one (.hgetdel key (extractHexpireFields rest)) key
    | _ => otherwise
  else if name = ascii "HPEXPIREAT" then
    match args with
    | key :: timestamp :: rest =>
      let (condition, rest) := extractHexpireCondition rest
      (Bytes.parseInt timestamp).bind fun timestamp =>
        one (.hpexpireat key timestamp condition (extractHexpireFields rest)) key
    | _ => otherwise
  else if name = ascii "HPERSIST" then
    match args with
    | key :: rest => one (.hpersist key (extractHexpireFields (extractHexpireCondition rest).2)) key
    | _ => otherwise
  else if name = ascii "HSETEX" then
    match args with
    | key :: args => parseHsetex key args
    | _ => otherwise
  else otherwise

/-- The clauses of keys and databases. -/
def parseKey (name : Bytes) (args : List Bytes) (otherwise : Parsed) : Parsed :=
  if name = ascii "DEL" ∨ name = ascii "UNLINK" then some (.del args, args)
  else if name = ascii "COPY" then
    match args with
    | source :: destination :: options =>
      let replace := decide (ascii "REPLACE" ∈ options.map toUppercase)
      some (.copy source destination replace, [source, destination])
    | _ => otherwise
  else if name = ascii "RENAME" then
    match args with
    | [oldKey, newKey] => some (.rename oldKey newKey, [oldKey, newKey])
    | _ => otherwise
  else if name = ascii "RENAMENX" then
    match args with
    | [oldKey, newKey] => some (.renamenx oldKey newKey, [oldKey, newKey])
    | _ => otherwise
  else if name = ascii "MOVE" then
    match args with
    | [key, targetDb] =>
      (Bytes.parseInt targetDb).bind fun targetDb => one (.moveKey key targetDb) key
    | _ => otherwise
  else if name = ascii "PEXPIREAT" then
    match args with
    | [key, timestamp] =>
      (Bytes.parseInt timestamp).bind fun timestamp => one (.pexpireat key timestamp) key
    | _ => otherwise
  else if name = ascii "PERSIST" then
    match args with
    | [key] => one (.persist key) key
    | _ => otherwise
  else if name = ascii "FLUSHALL" then some (.flushall, [])
  else if name = ascii "FLUSHDB" then some (.flushdb, [])
  else if name = ascii "SWAPDB" then
    match args with
    | [db1, db2] => do
      let db1 ← Bytes.parseInt db1
      let db2 ← Bytes.parseInt db2
      return (.swapdb db1 db2, [])
    | _ => otherwise
  else otherwise

/-- `parse`. -/
def parse [Graphemes] : List Bytes → Parsed
  | [] => some (.generic [], [])
  | name :: args =>
    parseString name args <| parseList name args <| parseSet name args <| parseZset name args <|
      parseHash name args <| parseKey name args <| some (.generic (name :: args), [])

end CommandParser

end Veidrodelis.RedisStream
