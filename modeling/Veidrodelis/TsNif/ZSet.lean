import Veidrodelis.Lib.Binary64
import Veidrodelis.Lib.OrderedSet
import Veidrodelis.RedisNif.Buffer

/-!
# Sorted sets

`native/vdr_ts_nif/src/storage/zset_index.rs` and the type `ZSet` of `storage/types.rs`: a sorted
set is kept twice, as an index in the order of the scores and as a map from the members to their
scores. The operations here are the loops of `storage/zsets.rs` on one sorted set.

The index is an `indexset::BTreeSet`, whose source is not part of the repository. It is a set
ordered by `Ord`; what is left open is its `range` (`Indexset`).
-/

namespace Veidrodelis.TsNif
open RedisNif (Fault isizeMax usizeSize)

/-- The panic of `unreachable!`. -/
def unreachable : Fault := .panic "internal error: entered unreachable code"

/-! ## Scores -/

/-- `OrderedFloat<f64>`, by its bits. -/
abbrev Score := Nat

/-- `Ord` of `OrderedFloat`. -/
def Score.cmp : Score → Score → Ordering := compareOn Binary64.place

instance : Std.TransCmp Score.cmp := inferInstanceAs (Std.TransCmp (compareOn _))

/-- Whether a score lies between two bounds. -/
def scoreInRange (score : Score) (min max : Bound Score) : Bool :=
  min.admitsFrom Score.cmp score && max.admitsUpTo Score.cmp score

/-! ## Keys of the index -/

/-- `ZSetIndexKey`: the elements of the index, and what they are looked up by. -/
inductive ZSetIndexKey where
  | key (score : Score) (entry : Bytes)
  | minScoreKey (score : Score)
  | maxScoreKey (score : Score)
  | ref (score : Score) (entry : Bytes)
  deriving DecidableEq, Repr

namespace ZSetIndexKey

def score : ZSetIndexKey → Score
  | key score _ => score
  | minScoreKey score => score
  | maxScoreKey score => score
  | ref score _ => score

/-- Where a key stands among those of its score: the bounds are around the elements. -/
def side : ZSetIndexKey → Nat
  | minScoreKey _ => 0
  | key _ _ => 1
  | ref _ _ => 1
  | maxScoreKey _ => 2

def entry : ZSetIndexKey → Bytes
  | key _ entry => entry
  | ref _ entry => entry
  | minScoreKey _ => []
  | maxScoreKey _ => []

/-- `Ord`. Two keys of which none is an element are never compared (`unreachable!`); here they are
ordered like the others. -/
def cmp : ZSetIndexKey → ZSetIndexKey → Ordering :=
  compareLex (compareOn fun k => Binary64.place k.score)
    (compareLex (compareOn side) (compareOn entry))

instance : Std.TransCmp cmp := inferInstanceAs (Std.TransCmp (compareLex _ _))

/-- `unwrap_key`. -/
def unwrapKey : ZSetIndexKey → Except Fault (Score × Bytes)
  | key score entry => .ok (score, entry)
  | _ => .error unreachable

end ZSetIndexKey

/-! ## Sorted sets -/

abbrev ZSetIndex := OrderedSet ZSetIndexKey ZSetIndexKey.cmp

/-- `range` of the index: it yields elements in their order, and at least those between the bounds.
Where the ordered maps of the standard library refuse the bounds, it may panic. -/
class Indexset where
  refusesCrossed : Bool
  range : Bound ZSetIndexKey → Bound ZSetIndexKey → ZSetIndex → List ZSetIndexKey
  sublist : ∀ lower upper index, (range lower upper index).Sublist index.elems
  covers : ∀ lower upper index, OrderedSet.range lower upper index ⊆ range lower upper index

/-- A `range` that yields the elements between the bounds and no others. -/
@[reducible]
def Indexset.exact (refusesCrossed : Bool) : Indexset where
  refusesCrossed := refusesCrossed
  range := OrderedSet.range
  sublist := OrderedSet.range_sublist
  covers _ _ _ := List.Subset.refl _

/-- `ZSet`. -/
structure ZSet where
  index : ZSetIndex
  entries : Std.ExtTreeMap Bytes Score compare
  deriving DecidableEq

/-- `ZAddOption`. -/
inductive ZAddOption where
  | nx | xx | gt | lt | ch | incr
  deriving DecidableEq, Repr

/-- `Aggregate`. -/
inductive Aggregate where
  | sum | min | max
  deriving DecidableEq, Repr

/-- A position of `LTRIM`, `LRANGE` and `ZREMRANGEBYRANK` in a container of the given length, which
is not empty. A negative position counts from the end. -/
def position (len : Nat) (i : Int) : Nat :=
  if i < 0 then (max (len + i) 0).toNat else (max (min i (len - 1)) 0).toNat

namespace ZSet

/-- `new`. -/
def new : ZSet := ⟨.empty, ∅⟩

/-- `is_empty`. -/
def isEmpty (z : ZSet) : Bool := z.entries.isEmpty

/-- `len`. -/
def len (z : ZSet) : Nat := z.entries.size

/-- The two inserts of a member with its score. -/
def insert (z : ZSet) (score : Score) (member : Bytes) : ZSet :=
  ⟨OrderedSet.insert (.key score member) z.index, z.entries.insert member score⟩

/-- The two removals of a member that has the given score. -/
def forget (z : ZSet) (member : Bytes) (score : Score) : ZSet :=
  ⟨z.index.remove (.ref score member), z.entries.erase member⟩

/-- A new sorted set of the given members, one after the other. -/
def ofMembers (members : List (Bytes × Score)) : ZSet :=
  members.foldl (fun z (member, score) => z.insert score member) new

/-- `clone`: rebuilt from the entries. -/
def clone (z : ZSet) : ZSet := ofMembers z.entries.toList

/-- The flags that the options of `zadd` set. -/
structure ZAddFlags where
  nx : Bool
  xx : Bool
  gt : Bool
  lt : Bool
  incr : Bool
  deriving DecidableEq, Repr

def ZAddFlags.ofOptions (options : List ZAddOption) : ZAddFlags where
  nx := .nx ∈ options
  xx := .xx ∈ options
  gt := .gt ∈ options
  lt := .lt ∈ options
  incr := .incr ∈ options

/-- One turn of the loop of `zadd`. -/
def addMember (flags : ZAddFlags) (z : ZSet) (score : Score) (member : Bytes) : ZSet :=
  let oldScore := z.entries[member]?
  if flags.nx && oldScore.isSome then z
  else if flags.xx && oldScore.isNone then z
  else
    let finalScore := if flags.incr then Binary64.add (oldScore.getD 0) score else score
    match oldScore with
    | some oldScore =>
      if flags.gt && Score.cmp finalScore oldScore != .gt then z
      else if flags.lt && Score.cmp finalScore oldScore != .lt then z
      else { z with index := z.index.remove (.ref oldScore member) }.insert finalScore member
    | none => z.insert finalScore member

/-- The loop of `zadd`. -/
def add (flags : ZAddFlags) (z : ZSet) (members : List (Score × Bytes)) : ZSet :=
  members.foldl (fun z (score, member) => z.addMember flags score member) z

/-- What `zincrby` does. -/
def incrBy (z : ZSet) (delta : Score) (member : Bytes) : ZSet :=
  let oldScore := z.entries[member]?.getD 0
  let newScore := Binary64.add oldScore delta
  if Score.cmp oldScore 0 ≠ .eq ∨ member ∈ z.entries then
    { z with index := z.index.remove (.ref oldScore member) }.insert newScore member
  else z.insert newScore member

/-- One turn of the loop of `zrem`. -/
def removeMember (z : ZSet) (member : Bytes) : ZSet :=
  match z.entries[member]? with
  | some score => z.forget member score
  | none => z

/-- The loop that removes the collected members. -/
def removeAll (z : ZSet) (members : List (Bytes × Score)) : ZSet :=
  members.foldl (fun z (member, score) => z.forget member score) z

/-- The loop of `zpopmax` and `zpopmin`: `pop` is `pop_last` or `pop_first`. -/
def popWith (pop : ZSetIndex → Option (ZSetIndexKey × ZSetIndex)) :
    Nat → ZSet → ZSet × Except Fault Unit
  | 0, z => (z, .ok ())
  | count + 1, z =>
    match pop z.index with
    | some (indexKey, index) =>
      match indexKey.unwrapKey with
      | .ok (_, entry) => popWith pop count ⟨index, z.entries.erase entry⟩
      | .error fault => ({ z with index }, .error fault)
    | none => (z, .ok ())

/-- The members that some keys of the index stand for. -/
def membersOf (keys : List ZSetIndexKey) : Except Fault (List (Bytes × Score)) :=
  keys.mapM fun indexKey => do
    let (score, entry) ← indexKey.unwrapKey
    return (entry, score)

/-- A key of the index is read as a member. -/
lemma membersOf_key (score : Score) (entry : Bytes) (keys : List ZSetIndexKey) :
    membersOf (.key score entry :: keys) = (membersOf keys).map ((entry, score) :: ·) := by
  rw [membersOf, List.mapM_cons, ← membersOf]
  cases membersOf keys <;> rfl

/-- `range_idx`, and the members in it. -/
def rankRange (z : ZSet) (start stop : Nat) : Except Fault (List (Bytes × Score)) :=
  membersOf (z.index.rangeIdx start stop)

/-- The boundary keys of a score range. -/
def minKey : Bound Score → Bound ZSetIndexKey
  | .unbounded => .unbounded
  | .included score => .included (.minScoreKey score)
  | .excluded score => .included (.minScoreKey score)

@[inherit_doc minKey]
def maxKey : Bound Score → Bound ZSetIndexKey
  | .unbounded => .unbounded
  | .included score => .included (.maxScoreKey score)
  | .excluded score => .included (.maxScoreKey score)

/-- `range` on the index, and those members in it whose scores lie between the bounds. -/
def scoreRange [Indexset] (z : ZSet) (min max : Bound Score) :
    Except Fault (List (Bytes × Score)) :=
  if Indexset.refusesCrossed && (minKey min).crossed ZSetIndexKey.cmp (maxKey max) then
    .error (.panic "range start is greater than range end")
  else do
    let members ← membersOf (Indexset.range (minKey min) (maxKey max) z.index)
    return members.filter fun (_, score) => scoreInRange score min max

/-- How a `BTreeMap` refuses crossed bounds. -/
def crossedMessage : Bound Bytes → Bound Bytes → String
  | .excluded start, .excluded stop =>
    if start = stop then "range start and end are equal and excluded in BTreeMap"
    else "range start is greater than range end in BTreeMap"
  | _, _ => "range start is greater than range end in BTreeMap"

/-- `range` on the entries, which are a `BTreeMap`. -/
def lexRange (z : ZSet) (min max : Bound Bytes) : Except Fault (List (Bytes × Score)) :=
  if min.crossed compare max then .error (.panic (crossedMessage min max))
  else .ok (z.entries.toList.filter fun (member, _) =>
    min.admitsFrom compare member && max.admitsUpTo compare member)

end ZSet

end Veidrodelis.TsNif
