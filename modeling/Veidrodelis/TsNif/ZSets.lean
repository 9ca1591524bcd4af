import Veidrodelis.TsNif.Hashes

/-!
# Commands on sorted sets

`native/vdr_ts_nif/src/storage/zsets.rs`.
-/

namespace Veidrodelis.TsNif
open RedisNif (Fault)
open StorageValue (zsets)

/-! ## One sorted set -/

/-- `zadd`. The options are checked before the key is looked at. -/
def zadd (members : List (Score × Bytes)) (options : List ZAddOption) : SlotOp := fun slot =>
  let flags := ZSet.ZAddFlags.ofOptions options
  if flags.nx ∧ flags.xx then
    (slot, .error (.err "ERR NX and XX options at the same time are not compatible"))
  else if (flags.gt ∨ flags.lt) ∧ flags.nx then
    (slot, .error (.err "ERR GT, LT, and/or NX options at the same time are not compatible"))
  else if flags.incr ∧ members.length ≠ 1 then
    (slot, .error (.err "ERR INCR option supports a single increment-element pair"))
  else zsets.orInsert (fun z => (z.add flags members, .ok ())) slot

/-- `zrem`. -/
def zrem (members : List Bytes) : SlotOp :=
  zsets.existing fun z => (zsets.unlessEmpty (members.foldl ZSet.removeMember z), .ok ())

/-- `zincrby`. -/
def zincrby (delta : Score) (member : Bytes) : SlotOp :=
  zsets.orInsert fun z => (z.incrBy delta member, .ok ())

/-- The key goes with the last member, unless the command panics. -/
def afterRemoval : ZSet × Except Fault Unit → Slot × Except Fault Unit
  | (z, .ok ()) => (zsets.unlessEmpty z, .ok ())
  | (z, .error fault) => (some (.zset z), .error fault)

/-- `zpopmax`. -/
def zpopmax (count : Nat) : SlotOp :=
  zsets.existing fun z => afterRemoval (z.popWith OrderedSet.popLast count)

/-- `zpopmin`. -/
def zpopmin (count : Nat) : SlotOp :=
  zsets.existing fun z => afterRemoval (z.popWith OrderedSet.popFirst count)

/-- Collect members and remove them. -/
def removeRange (z : ZSet) (collected : Except Fault (List (Bytes × Score))) :
    Slot × Except Fault Unit :=
  match collected with
  | .ok members => (zsets.unlessEmpty (z.removeAll members), .ok ())
  | .error fault => (some (.zset z), .error fault)

/-- `zremrangebyrank`. -/
def zremrangebyrank (start stop : Int) : SlotOp :=
  zsets.existing fun z =>
    if z.len = 0 then (some (.zset z), .ok ())
    else
      let startPos := position z.len start
      let stopPos := position z.len stop
      if stopPos < startPos then (some (.zset z), .ok ())
      else removeRange z (z.rankRange startPos stopPos)

/-- `zrange`. -/
def zrange (s : StorageInner) (db : Nat) (key : Bytes) (start stop : Int) (withScores : Bool) :
    Except Fault (List (Bytes × Option Score)) :=
  match s.lookup db key with
  | none => .ok []
  | some (.zset z) =>
    if z.len = 0 then .ok []
    else
      let startPos := position z.len start
      let stopPos := position z.len stop
      if stopPos < startPos ∨ z.len ≤ startPos then .ok []
      else (z.rankRange startPos stopPos).map fun members =>
        members.map fun (member, score) => (member, if withScores then some score else none)
  | some _ => wrongType

/-- `zrank`. -/
def zrank (s : StorageInner) (db : Nat) (key member : Bytes) : Except Fault (Option Nat) :=
  match s.lookup db key with
  | none => .ok none
  | some (.zset z) => .ok (z.entries[member]?.map fun score => z.index.rank (.ref score member))
  | some _ => wrongType

/-- `zrevrank`. -/
def zrevrank (s : StorageInner) (db : Nat) (key member : Bytes) : Except Fault (Option Nat) :=
  match s.lookup db key with
  | none => .ok none
  | some (.zset z) =>
    match z.entries[member]? with
    | none => .ok none
    | some score =>
      let rank := z.index.rank (.ref score member)
      if rank + 1 ≤ z.len then .ok (some (z.len - 1 - rank))
      else .error (.panic "attempt to subtract with overflow")
  | some _ => wrongType

/-- `zrangebyscore`. -/
def zrangebyscore [Indexset] (s : StorageInner) (db : Nat) (key : Bytes) (min max : Score)
    (withScores : Bool) : Except Fault (List (Bytes × Option Score)) :=
  match s.lookup db key with
  | none => .ok []
  | some (.zset z) =>
    (z.scoreRange (.included min) (.included max)).map fun members =>
      members.map fun (member, score) => (member, if withScores then some score else none)
  | some _ => wrongType

/-- `zcount`. -/
def zcount (s : StorageInner) (db : Nat) (key : Bytes) (min max : Score) : Except Fault Nat :=
  match s.lookup db key with
  | none => .ok 0
  | some (.zset z) =>
    let minRank := z.index.rank (.minScoreKey min)
    let maxRank := z.index.rank (.maxScoreKey max)
    .ok (if maxRank < minRank then 0 else maxRank - minRank)
  | some _ => wrongType

/-- `zscore`. -/
def zscore (s : StorageInner) (db : Nat) (key member : Bytes) : Except Fault (Option Score) :=
  match s.lookup db key with
  | none => .ok none
  | some (.zset z) => .ok z.entries[member]?
  | some _ => wrongType

/-- `zfirst`. -/
def zfirst (s : StorageInner) (db : Nat) (key : Bytes) (count : Nat) :
    Except Fault (List (Score × Bytes)) :=
  readItems zsets (fun z => z.entries.toList) Prod.swap s db key count

/-- `zlast`. -/
def zlast (s : StorageInner) (db : Nat) (key : Bytes) (count : Nat) :
    Except Fault (List (Score × Bytes)) :=
  readItems zsets (fun z => z.entries.toList.reverse) Prod.swap s db key count

/-- `znext`. -/
def znext (s : StorageInner) (db : Nat) (key member : Bytes) (count : Nat) :
    Except Fault (List (Score × Bytes)) :=
  readItems zsets (fun z => rangeBy Prod.fst (.excluded member) .unbounded z.entries.toList)
    Prod.swap s db key count

/-- `zprev`. -/
def zprev (s : StorageInner) (db : Nat) (key member : Bytes) (count : Nat) :
    Except Fault (List (Score × Bytes)) :=
  readItems zsets
    (fun z => (rangeBy Prod.fst .unbounded (.excluded member) z.entries.toList).reverse)
    Prod.swap s db key count

/-- `zremrangebyscore`. -/
def zremrangebyscore [Indexset] (min max : Bound Score) : SlotOp :=
  zsets.existing fun z => removeRange z (z.scoreRange min max)

/-- `zremrangebylex`. -/
def zremrangebylex (min max : Bound Bytes) : SlotOp :=
  zsets.existing fun z => removeRange z (z.lexRange min max)

/-! ## Stored combinations -/

/-- The weighted scores of each member, in the order of the source keys. -/
abbrev WeightedScores := Std.ExtTreeMap Bytes (List Score) compare

/-- `-0.0`, the sum of no floats. -/
def emptySum : Score := Binary64.withSign true 0

/-- `scores.iter().sum()`, `min()` or `max()`: the first one of equal minima, the last one of equal
maxima. -/
def Aggregate.apply (aggregate : Aggregate) (scores : List Score) : Score :=
  match aggregate, scores with
  | .sum, scores => scores.foldl Binary64.add emptySum
  | .min, first :: rest =>
    rest.foldl (fun best score => if Score.cmp score best = .lt then score else best) first
  | .max, first :: rest =>
    rest.foldl (fun best score => if Score.cmp score best = .lt then best else score) first
  | _, [] => emptySum

/-- The sorted set of the aggregated scores. -/
def aggregated (aggregate : Aggregate) (scores : WeightedScores) : ZSet :=
  ZSet.ofMembers (scores.toList.map fun (member, scores) => (member, aggregate.apply scores))

/-- `*weights.get(i).unwrap_or(&1.0)`, and the weights of the source keys behind it. -/
def nextWeight : List Score → Score × List Score
  | [] => (Binary64.ofInt 1, [])
  | weight :: weights => (weight, weights)

/-- The loop of `zunionstore`. -/
def zunionFrom (s : StorageInner) (db : Nat) (acc : WeightedScores) :
    List Bytes → List Score → Except Fault WeightedScores
  | [], _ => .ok acc
  | sourceKey :: rest, weights =>
    let (weight, weights) := nextWeight weights
    match s.lookup db sourceKey with
    | some (.zset z) =>
      let acc := z.entries.toList.foldl (fun acc (member, score) =>
        acc.insert member (acc[member]?.getD [] ++ [Binary64.mul score weight])) acc
      zunionFrom s db acc rest weights
    | some _ => wrongType
    | none => zunionFrom s db acc rest weights

/-- `zunionstore`. -/
def zunionstore (db : Nat) (destKey : Bytes) (sourceKeys : List Bytes) (weights : List Score)
    (aggregate : Aggregate) : Op :=
  storeResult zsets db destKey fun s =>
    (zunionFrom s db ∅ sourceKeys weights).map (aggregated aggregate)

/-- The loop of `zinterstore`: it ends when a sorted set is missing or nothing is left. -/
def zinterFrom (s : StorageInner) (db : Nat) (acc : WeightedScores) :
    List Bytes → List Score → Except Fault WeightedScores
  | [], _ => .ok acc
  | sourceKey :: rest, weights =>
    let (weight, weights) := nextWeight weights
    match s.lookup db sourceKey with
    | some (.zset z) =>
      let acc := acc.filterMap fun member scores =>
        z.entries[member]?.map fun score => scores ++ [Binary64.mul score weight]
      if acc.isEmpty then .ok ∅ else zinterFrom s db acc rest weights
    | some _ => wrongType
    | none => .ok ∅

/-- `zinterstore`. -/
def zinterstore (db : Nat) (destKey : Bytes) (sourceKeys : List Bytes) (weights : List Score)
    (aggregate : Aggregate) : Op :=
  storeResult zsets db destKey fun s =>
    match sourceKeys with
    | [] => .ok ZSet.new
    | first :: rest =>
      let (weight, weights) := nextWeight weights
      match s.lookup db first with
      | some (.zset z) =>
        let acc : WeightedScores := z.entries.map fun _ score => [Binary64.mul score weight]
        (zinterFrom s db acc rest weights).map (aggregated aggregate)
      | some _ => wrongType
      | none => .ok ZSet.new

/-- The loop of `zdiffstore`. -/
def zdiffFrom (s : StorageInner) (db : Nat) (acc : Std.ExtTreeMap Bytes Score compare) :
    List Bytes → Except Fault (Std.ExtTreeMap Bytes Score compare)
  | [] => .ok acc
  | sourceKey :: rest =>
    match s.lookup db sourceKey with
    | some (.zset z) =>
      zdiffFrom s db (z.entries.keys.foldl (fun acc member => acc.erase member) acc) rest
    | some _ => wrongType
    | none => zdiffFrom s db acc rest

/-- `zdiffstore`. -/
def zdiffstore (db : Nat) (destKey : Bytes) (sourceKeys : List Bytes) : Op :=
  storeResult zsets db destKey fun s =>
    match sourceKeys with
    | [] => .ok ZSet.new
    | first :: rest =>
      match s.lookup db first with
      | some (.zset z) =>
        (zdiffFrom s db z.entries rest).map fun acc => ZSet.ofMembers acc.toList
      | some _ => wrongType
      | none => .ok ZSet.new

/-! ## Stored ranges -/

/-- `strip_prefix` of one character. -/
def stripByte (b : UInt8) : Bytes → Option Bytes
  | [] => none
  | first :: rest => if first = b then some rest else none

/-- `str::parse::<f64>` of a bound. -/
def parseScore (text : Bytes) : Except Fault Score :=
  match Binary64.parse text with
  | some score => .ok score
  | none => .error (.err "invalid score")

/-- `parse_score_bound`. -/
def parseScoreBound (text : Bytes) : Except Fault (Bound Score) :=
  if text = ascii "-inf" ∨ text = ascii "+inf" then .ok .unbounded
  else
    match stripByte 40 text with
    | some stripped => (parseScore stripped).map .excluded
    | none => (parseScore text).map .included

/-- `parse_lex_bound`. -/
def parseLexBound (text : Bytes) : Except Fault (Bound Bytes) :=
  if text = ascii "-" ∨ text = ascii "+" then .ok .unbounded
  else
    match stripByte 91 text, stripByte 40 text with
    | some stripped, _ => .ok (.included stripped)
    | none, some stripped => .ok (.excluded stripped)
    | none, none => .error (.err "invalid lex bound")

/-- `apply_limit`. -/
def applyLimit (items : List (Bytes × Score)) : Option (Int × Int) → List (Bytes × Score)
  | some (offset, count) => (items.drop (max offset 0).toNat).take (max count 0).toNat
  | none => items

/-- The options of `zrangestore`. -/
structure RangeOptions where
  byScore : Bool
  byLex : Bool
  rev : Bool
  limit : Option (Int × Int)
  deriving DecidableEq, Repr

/-- The ranks of `zrangestore` in a sorted set of the given length. -/
def rankStart (len : Nat) (minRank : Int) : Nat :=
  if minRank < 0 then (max (len + minRank) 0).toNat else (min minRank len).toNat

@[inherit_doc rankStart]
def rankStop (len : Nat) (maxRank : Int) : Nat :=
  if maxRank < 0 then (max (len + maxRank) 0).toNat else (min maxRank (len - 1)).toNat

/-- The members that `zrangestore` collects, before they are reversed and limited. -/
def collectRange [Indexset] (z : ZSet) (minStr maxStr : Bytes) (options : RangeOptions) :
    Except Fault (List (Bytes × Score)) :=
  if options.byLex then do
    let minBound ← parseLexBound minStr
    let maxBound ← parseLexBound maxStr
    z.lexRange minBound maxBound
  else if options.byScore then do
    let minBound ← parseScoreBound minStr
    let maxBound ← parseScoreBound maxStr
    z.scoreRange minBound maxBound
  else
    match parseI64 minStr, parseI64 maxStr with
    | none, _ => .error (.err "invalid min rank")
    | some _, none => .error (.err "invalid max rank")
    | some minRank, some maxRank =>
      let start := rankStart z.len minRank
      let stop := rankStop z.len maxRank
      if start ≤ stop ∧ start < z.len then z.rankRange start stop else .ok []

/-- `zrangestore`. -/
def zrangestore [Indexset] (db : Nat) (destKey sourceKey minStr maxStr : Bytes)
    (options : RangeOptions) : Op :=
  storeResult zsets db destKey fun s =>
    match s.lookup db sourceKey with
    | some (.zset z) =>
      if z.isEmpty then .ok ZSet.new
      else (collectRange z minStr maxStr options).map fun collected =>
        ZSet.ofMembers (applyLimit
          (if options.rev then collected.reverse else collected) options.limit)
    | some _ => wrongType
    | none => .ok ZSet.new

end Veidrodelis.TsNif
