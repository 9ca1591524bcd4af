import Veidrodelis.TsNif.Strings

/-!
# Lists

`native/vdr_ts_nif/src/storage/lists.rs`.
-/

namespace Veidrodelis.TsNif
open RedisNif (Fault)
open StorageValue (lists)

/-! ## One list -/

/-- `lpush`: each value becomes the new head. -/
def lpush (values : List Bytes) : SlotOp :=
  lists.orInsert fun items => (values.foldl (fun items value => value :: items) items, .ok ())

/-- `rpush`. -/
def rpush (values : List Bytes) : SlotOp :=
  lists.orInsert fun items => (items ++ values, .ok ())

/-- `lpushx`. -/
def lpushx (values : List Bytes) : SlotOp :=
  lists.existing fun items =>
    (some (.list (values.foldl (fun items value => value :: items) items)), .ok ())

/-- `rpushx`. -/
def rpushx (values : List Bytes) : SlotOp :=
  lists.existing fun items => (some (.list (items ++ values)), .ok ())

/-- `lpop_count`. -/
def lpopCount (count : Nat) : SlotOp :=
  lists.existing fun items => (lists.unlessEmpty (items.drop (min count items.length)), .ok ())

/-- `rpop_count`. -/
def rpopCount (count : Nat) : SlotOp :=
  lists.existing fun items =>
    (lists.unlessEmpty (items.take (items.length - min count items.length)), .ok ())

/-- `lpop`. -/
def lpop : SlotOp := lists.existing fun items => (lists.unlessEmpty (items.drop 1), .ok ())

/-- `rpop`. -/
def rpop : SlotOp := lists.existing fun items => (lists.unlessEmpty items.dropLast, .ok ())

/-- The loop of `lrem`: what is not removed is pushed to a new list. -/
def removeLoop (push : Bytes → List Bytes → List Bytes) (maxRemove : Nat) (value : Bytes) :
    Nat → List Bytes → List Bytes → List Bytes
  | _, newList, [] => newList
  | removed, newList, item :: items =>
    if removed < maxRemove ∧
      item = value then removeLoop push maxRemove value (removed + 1) newList items
    else removeLoop push maxRemove value removed (push item newList) items

/-- `lrem`. From the tail, the list is gone through in reverse, and what is left is pushed to the
front; the number of elements is the negation of an `i64`. -/
def lrem (count : Int) (value : Bytes) : SlotOp :=
  lists.existing fun items =>
    if count = 0 then (lists.unlessEmpty (items.filter (· ≠ value)), .ok ())
    else if 0 < count then
      (lists.unlessEmpty (removeLoop
        (fun item newList => newList ++ [item]) count.toNat value 0 [] items), .ok ())
    else if inI64 (-count) then
      (lists.unlessEmpty (removeLoop List.cons (-count).toNat value 0 [] items.reverse), .ok ())
    else (some (.list items), .error (.panic "attempt to negate with overflow"))

/-- `ltrim`. -/
def ltrim (start stop : Int) : SlotOp :=
  lists.existing fun items =>
    if items = [] then (some (.list items), .ok ())
    else
      let startPos := position items.length start
      let stopPos := position items.length stop
      if stopPos < startPos ∨ items.length ≤ startPos then (none, .ok ())
      else (lists.unlessEmpty ((items.drop startPos).take (stopPos - startPos + 1)), .ok ())

/-- `lrange`. -/
def lrange (s : StorageInner) (db : Nat) (key : Bytes) (start stop : Int) :
    Except Fault (List Bytes) :=
  match s.lookup db key with
  | none => .ok []
  | some (.list items) =>
    if items = [] then .ok []
    else
      let startPos := position items.length start
      let stopPos := position items.length stop
      if stopPos < startPos ∨ items.length ≤ startPos then .ok []
      else .ok ((items.drop startPos).take (stopPos - startPos + 1))
  | some _ => wrongType

/-- The loop of `linsert`. -/
def insertAt (before : Bool) (pivot value : Bytes) : List Bytes → List Bytes
  | [] => []
  | item :: items =>
    if item = pivot then
      if before then value :: item :: items else item :: value :: items
    else item :: insertAt before pivot value items

/-- `linsert`. -/
def linsert (before : Bool) (pivot value : Bytes) : SlotOp :=
  lists.existing fun items => (some (.list (insertAt before pivot value items)), .ok ())

/-- `lset`. -/
def lset (index : Int) (value : Bytes) : SlotOp :=
  lists.existing fun items =>
    let pos := if index < 0 then items.length + index else index
    if 0 ≤ pos ∧ pos < items.length then (some (.list (items.set pos.toNat value)), .ok ())
    else (some (.list items), .ok ())

/-! ## From one list to another -/

/-- An end of a list. -/
inductive Side where
  | left
  | right
  deriving DecidableEq, Repr

/-- The element at an end, and the others. -/
def takeEnd : Side → List Bytes → Option (Bytes × List Bytes)
  | .left, [] => none
  | .left, item :: items => some (item, items)
  | .right, items => items.getLast?.map fun item => (item, items.dropLast)

/-- Only from an empty list nothing is taken. -/
lemma takeEnd_eq_none {side : Side} {items : List Bytes} :
    takeEnd side items = none ↔ items = [] := by
  cases side with
  | left =>
    cases items with
    | nil => exact iff_of_true rfl rfl
    | cons first later => exact iff_of_false nofun nofun
  | right => simp [takeEnd]

/-- Push an element to an end. -/
def pushEnd : Side → Bytes → List Bytes → List Bytes
  | .left, item, items => item :: items
  | .right, item, items => items ++ [item]

/-- `lmove`. The element is taken before the type of the destination is looked at. -/
def lmove (db : Nat) (sourceKey destKey : Bytes) (wherefrom whereto : Side) : Op := fun s =>
  if sourceKey = destKey then
    atKey db sourceKey (lists.existing fun items =>
      match takeEnd wherefrom items with
      | some (popped, rest) => (some (.list (pushEnd whereto popped rest)), .ok ())
      | none => (some (.list items), .ok ())) s
  else
    match s.lookup db sourceKey with
    | none => (s, .ok ())
    | some (.list items) =>
      match takeEnd wherefrom items with
      | none => (s, .ok ())
      | some (popped, rest) =>
        atKey db destKey (lists.orInsert fun items => (pushEnd whereto popped items, .ok ()))
          (s.store db sourceKey (lists.unlessEmpty rest))
    | some _ => (s, wrongType)

/-- `rpoplpush`. -/
def rpoplpush (db : Nat) (sourceKey destKey : Bytes) : Op := fun s =>
  if sourceKey = destKey then
    atKey db sourceKey (lists.existing fun items =>
      match items.getLast? with
      | some popped => (some (.list (popped :: items.dropLast)), .ok ())
      | none => (some (.list items), .ok ())) s
  else
    match s.lookup db sourceKey with
    | none => (s, .ok ())
    | some (.list items) =>
      match items.getLast? with
      | none => (s, .ok ())
      | some popped =>
        atKey db destKey (lists.orInsert fun items => (popped :: items, .ok ()))
          (s.store db sourceKey (lists.unlessEmpty items.dropLast))
    | some _ => (s, wrongType)

/-- `rpoplpush` does what `lmove` does from the right to the left. -/
lemma rpoplpush_eq (db : Nat) (sourceKey destKey : Bytes) :
    rpoplpush db sourceKey destKey = lmove db sourceKey destKey .right .left := by
  funext s
  unfold rpoplpush lmove
  by_cases rotates : sourceKey = destKey
  · rw [if_pos rotates, if_pos rotates]
    refine congrArg (fun f => atKey db sourceKey (lists.existing f) s) (funext fun items => ?_)
    cases e : items.getLast? with
    | none => simp [takeEnd, e]
    | some popped => simp [takeEnd, pushEnd, e]
  · rw [if_neg rotates, if_neg rotates]
    cases s.lookup db sourceKey with
    | none => rfl
    | some value =>
      cases value with
      | list items =>
        cases e : items.getLast? with
        | none => simp [takeEnd, e]
        | some popped => simp [takeEnd, pushEnd, e]
      | _ => rfl

end Veidrodelis.TsNif
