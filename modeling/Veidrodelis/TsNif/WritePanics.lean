import Veidrodelis.TsNif.WriteCommands

/-!
# Panics of write commands

`overreaches`, on the storage before a command, is when its execution panics: an offset or a length
that no vector has, the negation of the least `i64`, a range whose bounds are crossed, and an index
that holds something that is no element (which no storage made by commands has). A batch ends in a
result for every command exactly when none of them overreaches at its turn (`tx_returns`).
-/

namespace Veidrodelis.TsNif
open RedisNif (Fault isizeMax usizeSize)
open RedisStream (Command ScoreTerm)
open StorageValue (lists sets hashes zsets)

/-- The result is a panic. -/
def Panicked {α : Type} (r : Except Fault α) : Prop := ∃ msg, r = .error (.panic msg)

/-- A success is no panic. -/
@[simp] lemma not_panicked_ok {α : Type} (a : α) : ¬ Panicked (.ok a : Except Fault α) := nofun

/-- An error with a message is no panic. -/
@[simp] lemma not_panicked_err {α : Type} (msg : String) :
    ¬ Panicked (.error (.err msg) : Except Fault α) := nofun

/-- A wrong type is no panic. -/
@[simp] lemma not_panicked_wrongType {α : Type} : ¬ Panicked (wrongType : Except Fault α) := nofun

/-- A panic is one. -/
@[simp] lemma panicked_panic {α : Type} (msg : String) :
    Panicked (.error (.panic msg) : Except Fault α) := ⟨msg, rfl⟩

/-- A panic is one whatever the computation would have ended with. -/
lemma panicked_error {α β : Type} (fault : Fault) :
    Panicked (.error fault : Except Fault α) ↔ Panicked (.error fault : Except Fault β) := by
  constructor
  · exact fun ⟨msg, eq⟩ => ⟨msg, congrArg Except.error (Except.error.inj eq)⟩
  · exact fun ⟨msg, eq⟩ => ⟨msg, congrArg Except.error (Except.error.inj eq)⟩

/-- A function of a result changes no panic. -/
@[simp] lemma panicked_map {α β : Type} {r : Except Fault α} {f : α → β} :
    Panicked (r.map f) ↔ Panicked r := by
  cases r with
  | ok a => exact iff_of_false (not_panicked_ok _) (not_panicked_ok _)
  | error fault => exact panicked_error fault

/-! ## Commands that never panic -/

/-- The operation does not panic on any slot. -/
def SlotOp.Calm (op : SlotOp) : Prop := ∀ slot, ¬ Panicked (op slot).2

def Op.Calm (op : Op) : Prop := ∀ s, ¬ Panicked (op s).2

/-- An operation that always succeeds never panics. -/
lemma calm_of_ok {op : Op} (h : ∀ s, (op s).2 = .ok ()) : op.Calm :=
  fun s panicked => not_panicked_ok () ((h s) ▸ panicked)

/-- An operation never panics if it does not for any argument that decodes. -/
lemma decoded_calm {α : Type} {arg : Option α} {msg : String} {op : α → Op} (h : ∀ a, (op a).Calm) :
    (decoded arg msg op).Calm := by
  cases arg with
  | none => exact fun _ => not_panicked_err msg
  | some a => exact h a

/-- An operation on a slot that never panics does not at a key. -/
lemma atKey_calm {op : SlotOp} (h : op.Calm) (db : Nat) (key : Bytes) : (atKey db key op).Calm :=
  fun s => h (s.lookup db key)

namespace Container

variable {α : Type} {c : Container α}

/-- An operation on a container that is there never panics if it does not on any. -/
lemma existing_calm {f : α → Slot × Except Fault Unit} (h : ∀ a, ¬ Panicked (f a).2) :
    (c.existing f).Calm := by
  intro slot
  cases c.view slot with
  | vacant => exact not_panicked_ok _
  | held a =>
    rw [existing_wrap]
    exact h a
  | other type =>
    rw [existing_other type]
    exact not_panicked_wrongType

/-- An operation on a container that is created never panics if it does not on any. -/
lemma orInsert_calm {f : α → α × Except Fault Unit} (h : ∀ a, ¬ Panicked (f a).2) :
    (c.orInsert f).Calm := by
  intro slot
  cases c.view slot with
  | vacant => exact h c.new
  | held a =>
    rw [orInsert_wrap]
    exact h a
  | other type =>
    rw [orInsert_other type]
    exact not_panicked_wrongType

/-- The slot holds a container that is so and so. -/
def holds (c : Container α) (slot : Slot) (p : α → Bool) : Bool :=
  match slot with
  | some value => (c.unwrap value).any p
  | none => false

/-- Work on the container that is there panics as the work itself does. -/
lemma panicked_existing {f : α → Slot × Except Fault Unit} {p : α → Bool}
    (h : ∀ a, Panicked (f a).2 ↔ p a = true) (slot : Slot) :
    Panicked (c.existing f slot).2 ↔ c.holds slot p = true := by
  cases c.view slot with
  | vacant => exact iff_of_false (not_panicked_ok _) Bool.false_ne_true
  | held a =>
    rw [existing_wrap, holds, unwrap_wrap]
    exact h a
  | other type =>
    rw [existing_other type, holds, type]
    exact iff_of_false not_panicked_wrongType Bool.false_ne_true

end Container

/-- `APPEND` never panics. -/
lemma append_calm (value : Bytes) : (append value).Calm
  | none => not_panicked_ok _
  | some (.string _) => not_panicked_ok _
  | some (.set _) => not_panicked_wrongType
  | some (.list _) => not_panicked_wrongType
  | some (.hash _) => not_panicked_wrongType
  | some (.zset _) => not_panicked_wrongType

/-- The commands that count never panic. -/
lemma bump_calm (overflow : String) (next : Int → Int) (fresh : Int) :
    (bump overflow next fresh).Calm := by
  intro slot
  match slot with
  | none =>
    rw [bump]
    split
    · exact not_panicked_ok _
    · exact not_panicked_err _
  | some (.string existing) =>
    rw [bump]
    split
    · exact not_panicked_err _
    · split
      · exact not_panicked_ok _
      · exact not_panicked_err _
  | some (.set _) => exact not_panicked_wrongType
  | some (.list _) => exact not_panicked_wrongType
  | some (.hash _) => exact not_panicked_wrongType
  | some (.zset _) => exact not_panicked_wrongType

/-- `LTRIM` never panics. -/
lemma ltrim_calm (start stop : Int) : (ltrim start stop).Calm := by
  apply Container.existing_calm
  intro items
  simp only
  split_ifs <;> exact not_panicked_ok _

/-- `LSET` never panics. -/
lemma lset_calm (index : Int) (value : Bytes) : (lset index value).Calm := by
  apply Container.existing_calm
  intro items
  simp only
  split_ifs <;> exact not_panicked_ok _

/-- `HINCRBY` never panics. -/
lemma hincrby_calm (field : Bytes) (delta : Int) : (hincrby field delta).Calm := by
  apply Container.orInsert_calm
  intro fields
  split
  · exact not_panicked_err _
  · split
    · exact not_panicked_ok _
    · exact not_panicked_err _

/-- `HINCRBYFLOAT` never panics. -/
lemma hincrbyfloat_calm (field : Bytes) (delta : Nat) : (hincrbyfloat field delta).Calm := by
  apply Container.orInsert_calm
  intro fields
  split
  · exact not_panicked_err _
  · exact not_panicked_ok _

/-- `ZADD` never panics. -/
lemma zadd_calm (members : List (Score × Bytes)) (options : List ZAddOption) :
    (zadd members options).Calm := by
  intro slot
  unfold zadd
  simp only
  split_ifs
  · exact not_panicked_err _
  · exact not_panicked_err _
  · exact not_panicked_err _
  · exact Container.orInsert_calm (fun _ => not_panicked_ok _) slot

/-- `RENAME` never panics. -/
lemma rename_calm (db : Nat) (oldKey newKey : Bytes) : (rename db oldKey newKey).Calm := by
  intro s
  unfold rename
  split <;> exact not_panicked_ok _

/-- `RENAMENX` never panics. -/
lemma renamenx_calm (db : Nat) (oldKey newKey : Bytes) : (renamenx db oldKey newKey).Calm := by
  intro s
  unfold renamenx
  split
  · exact not_panicked_ok _
  · exact rename_calm db oldKey newKey s

/-- `MOVE` never panics. -/
lemma moveKey_calm (sourceDb destDb : Nat) (key : Bytes) : (moveKey sourceDb destDb key).Calm := by
  intro s
  unfold moveKey
  split <;> exact not_panicked_ok _

/-- `COPY` never panics. -/
lemma copyKey_calm (db : Nat) (source destination : Bytes) (replace : Bool) :
    (copyKey db source destination replace).Calm := by
  intro s
  unfold copyKey
  split
  · exact not_panicked_ok _
  · split <;> exact not_panicked_ok _

/-- `SMOVE` never panics. -/
lemma smove_calm (db : Nat) (sourceKey destKey member : Bytes) :
    (smove db sourceKey destKey member).Calm := by
  intro s
  unfold smove
  split
  · exact not_panicked_ok _
  · split
    · exact atKey_calm (Container.orInsert_calm fun _ => not_panicked_ok _) _ _ _
    · exact not_panicked_ok _
  · exact not_panicked_wrongType

/-- `LMOVE` and `RPOPLPUSH` never panic. -/
lemma lmove_calm (db : Nat) (sourceKey destKey : Bytes) (wherefrom whereto : Side) :
    (lmove db sourceKey destKey wherefrom whereto).Calm := by
  intro s
  unfold lmove
  split
  · refine atKey_calm (Container.existing_calm fun items => ?_) _ _ _
    split <;> exact not_panicked_ok _
  · split
    · exact not_panicked_ok _
    · split
      · exact not_panicked_ok _
      · exact atKey_calm (Container.orInsert_calm fun _ => not_panicked_ok _) _ _ _
    · exact not_panicked_wrongType

/-! ### Stored combinations -/

/-- A command that stores panics when its computation does. -/
lemma panicked_storeResult {α : Type} {c : Container α} {compute : StorageInner → Except Fault α}
    (s : StorageInner) (db : Nat) (destKey : Bytes) :
    Panicked (storeResult c db destKey compute s).2 ↔ Panicked (compute (s.del db destKey)) := by
  unfold storeResult
  simp only
  cases compute (s.del db destKey) with
  | ok a => exact iff_of_false (not_panicked_ok _) (not_panicked_ok _)
  | error fault => exact panicked_error fault

section
variable (s : StorageInner) (db : Nat)

/-- The loop of the union never panics. -/
lemma unionFrom_calm (acc : Std.ExtTreeSet Bytes compare) (keys : List Bytes) :
    ¬ Panicked (unionFrom s db acc keys) := by
  induction keys generalizing acc with
  | nil => exact not_panicked_ok _
  | cons key rest ih =>
    rw [unionFrom]
    split
    · exact ih _
    · exact not_panicked_wrongType
    · exact ih _

/-- The loop of the intersection never panics. -/
lemma interFrom_calm (acc : Std.ExtTreeSet Bytes compare) (keys : List Bytes) :
    ¬ Panicked (interFrom s db acc keys) := by
  induction keys generalizing acc with
  | nil => exact not_panicked_ok _
  | cons key rest ih =>
    rw [interFrom]
    split
    · exact ih _
    · exact not_panicked_wrongType
    · exact not_panicked_ok _

/-- The loop of the difference never panics. -/
lemma diffFrom_calm (acc : Std.ExtTreeSet Bytes compare) (keys : List Bytes) :
    ¬ Panicked (diffFrom s db acc keys) := by
  induction keys generalizing acc with
  | nil => exact not_panicked_ok _
  | cons key rest ih =>
    rw [diffFrom]
    split
    · exact ih _
    · exact not_panicked_wrongType
    · exact ih _

/-- A loop that starts with the first source never panics if it does not from any. -/
lemma fromFirst_calm
    {loop : Std.ExtTreeSet Bytes compare → List Bytes → Except Fault (Std.ExtTreeSet Bytes compare)}
    (h : ∀ acc keys, ¬ Panicked (loop acc keys)) (keys : List Bytes) :
    ¬ Panicked (fromFirst s db loop keys) := by
  cases keys with
  | nil => exact not_panicked_ok _
  | cons key rest =>
    rw [fromFirst]
    split
    · exact h _ _
    · exact not_panicked_wrongType
    · exact h _ _

/-- The loop of `ZUNIONSTORE` never panics. -/
lemma zunionFrom_calm (acc : WeightedScores) (keys : List Bytes) (weights : List Score) :
    ¬ Panicked (zunionFrom s db acc keys weights) := by
  induction keys generalizing acc weights with
  | nil => exact not_panicked_ok _
  | cons key rest ih =>
    rw [zunionFrom]
    simp only
    split
    · exact ih _ _
    · exact not_panicked_wrongType
    · exact ih _ _

/-- The loop of `ZINTERSTORE` never panics. -/
lemma zinterFrom_calm (acc : WeightedScores) (keys : List Bytes) (weights : List Score) :
    ¬ Panicked (zinterFrom s db acc keys weights) := by
  induction keys generalizing acc weights with
  | nil => exact not_panicked_ok _
  | cons key rest ih =>
    rw [zinterFrom]
    simp only
    split
    · split
      · exact not_panicked_ok _
      · exact ih _ _
    · exact not_panicked_wrongType
    · exact not_panicked_ok _

/-- The loop of `ZDIFFSTORE` never panics. -/
lemma zdiffFrom_calm (acc : Std.ExtTreeMap Bytes Score compare) (keys : List Bytes) :
    ¬ Panicked (zdiffFrom s db acc keys) := by
  induction keys generalizing acc with
  | nil => exact not_panicked_ok _
  | cons key rest ih =>
    rw [zdiffFrom]
    split
    · exact ih _
    · exact not_panicked_wrongType
    · exact ih _

end

/-- A command that stores never panics if its computation does not. -/
lemma storeResult_calm {α : Type} {c : Container α} {compute : StorageInner → Except Fault α}
    (h : ∀ s, ¬ Panicked (compute s)) (db : Nat) (destKey : Bytes) :
    (storeResult c db destKey compute).Calm :=
  fun s panicked => h _ ((panicked_storeResult s db destKey).mp panicked)

/-- `ZUNIONSTORE` never panics. -/
lemma zunionstore_calm (db : Nat) (destKey : Bytes) (keys : List Bytes) (weights : List Score)
    (aggregate : Aggregate) : (zunionstore db destKey keys weights aggregate).Calm := by
  apply storeResult_calm
  intro s
  rw [panicked_map]
  exact zunionFrom_calm s db _ _ _

/-- `ZINTERSTORE` never panics. -/
lemma zinterstore_calm (db : Nat) (destKey : Bytes) (keys : List Bytes) (weights : List Score)
    (aggregate : Aggregate) : (zinterstore db destKey keys weights aggregate).Calm := by
  apply storeResult_calm
  intro s
  cases keys with
  | nil => exact not_panicked_ok _
  | cons first rest =>
    simp only
    split
    · rw [panicked_map]
      exact zinterFrom_calm s db _ _ _
    · exact not_panicked_wrongType
    · exact not_panicked_ok _

/-- `ZDIFFSTORE` never panics. -/
lemma zdiffstore_calm (db : Nat) (destKey : Bytes) (keys : List Bytes) :
    (zdiffstore db destKey keys).Calm := by
  apply storeResult_calm
  intro s
  split
  · exact not_panicked_ok _
  · split
    · rw [panicked_map]
      exact zdiffFrom_calm s db _ _
    · exact not_panicked_wrongType
    · exact not_panicked_ok _

/-! ## Commands that panic -/

/-- `SETRANGE` past what a vector can hold. -/
def exceeds (offset : Nat) (value bytes : Bytes) : Bool :=
  usizeSize ≤ offset + value.length ||
    (bytes.length < offset + value.length && isizeMax < offset + value.length)

/-- To overwrite bytes panics when a vector cannot hold them. -/
lemma panicked_overwrite (offset : Nat) (value bytes : Bytes) :
    Panicked (overwrite offset value bytes) ↔ exceeds offset value bytes := by
  unfold overwrite exceeds
  simp only
  split_ifs with beyond capacity
  · simp [beyond]
  · simp [capacity]
  · simp only [not_panicked_ok, false_iff, Bool.not_eq_true, Bool.or_eq_false_iff]
    constructor
    · simpa using beyond
    · simpa using capacity

/-- The same on a string, or on no string. -/
def exceedsSlot (offset : Nat) (value : Bytes) : Slot → Bool
  | some (.string existing) => exceeds offset value existing
  | none => exceeds offset value []
  | _ => false

/-- `SETRANGE` panics when a vector cannot hold the string. -/
lemma panicked_setrange (offset : Nat) (value : Bytes) (slot : Slot) :
    Panicked (setrange offset value slot).2 ↔ exceedsSlot offset value slot := by
  match slot with
  | none =>
    rw [setrange, exceedsSlot, ← panicked_overwrite]
    cases overwrite offset value [] with
    | ok bytes => exact iff_of_false (not_panicked_ok _) (not_panicked_ok _)
    | error fault => exact panicked_error fault
  | some (.string existing) =>
    rw [setrange, exceedsSlot, ← panicked_overwrite]
    cases overwrite offset value existing with
    | ok bytes => exact iff_of_false (not_panicked_ok _) (not_panicked_ok _)
    | error fault => exact panicked_error fault
  | some (.set _) => exact iff_of_false not_panicked_wrongType Bool.false_ne_true
  | some (.list _) => exact iff_of_false not_panicked_wrongType Bool.false_ne_true
  | some (.hash _) => exact iff_of_false not_panicked_wrongType Bool.false_ne_true
  | some (.zset _) => exact iff_of_false not_panicked_wrongType Bool.false_ne_true

/-- The only `i64` whose negation is none is the least one. -/
lemma panicked_lrem {count : Int} (fits : inI64 count) (value : Bytes) (slot : Slot) :
    Panicked (lrem count value slot).2 ↔ lists.holds slot (fun _ => count == -2 ^ 63) := by
  apply Container.panicked_existing
  intro items
  simp only [inI64, Bool.and_eq_true, decide_eq_true_eq] at fits
  split_ifs with zero positive negated
  · simp [zero]
  · have : count ≠ -2 ^ 63 := by omega
    simpa using this
  · simp only [inI64, Bool.and_eq_true, decide_eq_true_eq] at negated
    have : count ≠ -2 ^ 63 := by omega
    simpa using this
  · simp only [inI64, Bool.and_eq_true, decide_eq_true_eq] at negated
    have : count = -2 ^ 63 := by omega
    simpa using this

/-- Some of the keys are no elements. -/
def foreign (keys : List ZSetIndexKey) : Bool :=
  keys.any fun
    | .key _ _ => false
    | _ => true

/-- To read members off the index panics at a key that is none. -/
lemma panicked_membersOf (keys : List ZSetIndexKey) :
    Panicked (ZSet.membersOf keys) ↔ foreign keys := by
  unfold foreign
  induction keys with
  | nil => exact iff_of_false (not_panicked_ok _) Bool.false_ne_true
  | cons k keys ih =>
    rw [List.any_cons]
    cases k with
    | key score entry =>
      rw [Bool.false_or, ← ih, ZSet.membersOf_key]
      cases ZSet.membersOf keys with
      | ok members => exact iff_of_false (not_panicked_ok _) (not_panicked_ok _)
      | error fault => exact panicked_error fault
    | minScoreKey => exact iff_of_true (panicked_panic _) rfl
    | maxScoreKey => exact iff_of_true (panicked_panic _) rfl
    | ref => exact iff_of_true (panicked_panic _) rfl

/-- Elements are popped from the front of a queue. -/
lemma panicked_popWith {pop : ZSetIndex → Option (ZSetIndexKey × ZSetIndex)}
    {queue : ZSetIndex → List ZSetIndexKey} (last : ∀ s, pop s = none → queue s = [])
    (next : ∀ s k t, pop s = some (k, t) → queue s = k :: queue t) (count : Nat) (z : ZSet) :
    Panicked (z.popWith pop count).2 ↔ foreign ((queue z.index).take count) := by
  induction count generalizing z with
  | zero => exact iff_of_false (not_panicked_ok _) Bool.false_ne_true
  | succ count ih =>
    rw [ZSet.popWith]
    cases popped : pop z.index with
    | none =>
      rw [last _ popped]
      exact iff_of_false (not_panicked_ok _) Bool.false_ne_true
    | some p =>
      obtain ⟨k, index⟩ := p
      rw [next _ _ _ popped, List.take_succ_cons]
      cases k with
      | key score entry => exact ih _
      | minScoreKey => exact iff_of_true (panicked_panic _) rfl
      | maxScoreKey => exact iff_of_true (panicked_panic _) rfl
      | ref => exact iff_of_true (panicked_panic _) rfl

/-- To drop an empty sorted set adds no panic. -/
lemma panicked_afterRemoval (r : ZSet × Except Fault Unit) :
    Panicked (afterRemoval r).2 ↔ Panicked r.2 := by
  obtain ⟨z, result⟩ := r
  cases result with
  | ok => exact iff_of_false (not_panicked_ok _) (not_panicked_ok _)
  | error fault => exact Iff.rfl

/-- To remove a range panics when its collection does. -/
lemma panicked_removeRange (z : ZSet) (collected : Except Fault (List (Bytes × Score))) :
    Panicked (removeRange z collected).2 ↔ Panicked collected := by
  cases collected with
  | ok members => exact iff_of_false (not_panicked_ok _) (not_panicked_ok _)
  | error fault => exact panicked_error fault

/-- `ZPOPMIN` panics when one of the first keys is no member. -/
lemma panicked_zpopmin (count : Nat) (slot : Slot) :
    Panicked (zpopmin count slot).2 ↔
      zsets.holds slot (fun z => foreign (z.index.elems.take count)) := by
  apply Container.panicked_existing
  intro z
  rw [panicked_afterRemoval]
  apply panicked_popWith
  · exact fun s => OrderedSet.popFirst_eq_none.mp
  · exact fun s k t => OrderedSet.popFirst_eq_some

/-- `ZPOPMAX` panics when one of the last keys is no member. -/
lemma panicked_zpopmax (count : Nat) (slot : Slot) :
    Panicked (zpopmax count slot).2 ↔
      zsets.holds slot (fun z => foreign (z.index.elems.reverse.take count)) := by
  apply Container.panicked_existing
  intro z
  rw [panicked_afterRemoval]
  have last (s : ZSetIndex) (popped : s.popLast = none) : s.elems.reverse = [] :=
    List.reverse_eq_nil_iff.mpr (OrderedSet.popLast_eq_none.mp popped)
  have next (s : ZSetIndex) (k : ZSetIndexKey) (t : ZSetIndex) (popped : s.popLast = some (k, t)) :
      s.elems.reverse = k :: t.elems.reverse := by
    rw [OrderedSet.popLast_eq_some popped]
    simp
  exact panicked_popWith last next count z

/-- The keys in a range of ranks that is no empty one. -/
lemma panicked_rankRange (z : ZSet) (start stop : Nat) :
    Panicked (z.rankRange start stop) ↔ foreign (z.index.rangeIdx start stop) :=
  panicked_membersOf _

/-- A range of ranks meets something that is no element. -/
def overreachesRanks (z : ZSet) (start stop : Int) : Bool :=
  z.len != 0 && (position z.len start ≤ position z.len stop &&
    foreign (z.index.rangeIdx (position z.len start) (position z.len stop)))

/-- `ZREMRANGEBYRANK` panics when a key in the range is no member. -/
lemma panicked_zremrangebyrank (start stop : Int) (slot : Slot) :
    Panicked (zremrangebyrank start stop slot).2 ↔
      zsets.holds slot (fun z => overreachesRanks z start stop) := by
  apply Container.panicked_existing
  intro z
  unfold overreachesRanks
  simp only
  split_ifs with isEmpty crossed
  · simp [isEmpty]
  · simp [crossed]
  · rw [panicked_removeRange, panicked_rankRange]
    have ordered : position z.len start ≤ position z.len stop := Nat.le_of_not_lt crossed
    simp [isEmpty, ordered]

/-- A range of scores that the index refuses, or in which it holds something that is no element. -/
def overreachesScores [Indexset] (min max : Bound Score) (z : ZSet) : Bool :=
  (Indexset.refusesCrossed && (ZSet.minKey min).crossed ZSetIndexKey.cmp (ZSet.maxKey max)) ||
    foreign (Indexset.range (ZSet.minKey min) (ZSet.maxKey max) z.index)

/-- A range of scores panics when it is crossed or a key in it is no member. -/
lemma panicked_scoreRange [Indexset] (min max : Bound Score) (z : ZSet) :
    Panicked (z.scoreRange min max) ↔ overreachesScores min max z := by
  unfold ZSet.scoreRange overreachesScores
  split_ifs with refused
  · simp [refused]
  · rw [Bool.eq_false_iff.mpr refused, Bool.false_or, ← panicked_membersOf]
    cases ZSet.membersOf (Indexset.range (ZSet.minKey min) (ZSet.maxKey max) z.index) with
    | ok members => exact iff_of_false (not_panicked_ok _) (not_panicked_ok _)
    | error fault => exact panicked_error fault

/-- A range of names panics when it is crossed. -/
lemma panicked_lexRange (min max : Bound Bytes) (z : ZSet) :
    Panicked (z.lexRange min max) ↔ min.crossed compare max = true := by
  unfold ZSet.lexRange
  split_ifs with refused
  · exact iff_of_true (panicked_panic _) refused
  · exact iff_of_false (not_panicked_ok _) refused

/-- Two bounds of `ZRANGESTORE` parse, and the range between them is one that panics. -/
def overreachesBounds {α : Type} (parse : Bytes → Except Fault α) (crossed : α → α → Bool)
    (minStr maxStr : Bytes) : Bool :=
  match parse minStr, parse maxStr with
  | .ok min, .ok max => crossed min max
  | _, _ => false

/-- A range between parsed bounds panics when both parse and the range does. -/
lemma panicked_bounds {α β : Type} {parse : Bytes → Except Fault α} {range : α → α → Except Fault β}
    {crossed : α → α → Bool} (silent : ∀ text, ¬ Panicked (parse text))
    (h : ∀ a b, Panicked (range a b) ↔ crossed a b) (minStr maxStr : Bytes) :
    Panicked (do
      let minBound ← parse minStr
      let maxBound ← parse maxStr
      range minBound maxBound) ↔ overreachesBounds parse crossed minStr maxStr := by
  have first := silent minStr
  have second := silent maxStr
  unfold overreachesBounds
  cases e : parse minStr with
  | error fault =>
    rw [e] at first
    exact iff_of_false (fun panicked => first ((panicked_error fault).mp panicked)) (by simp)
  | ok minBound =>
    cases e' : parse maxStr with
    | error fault =>
      rw [e'] at second
      exact iff_of_false (fun panicked => second ((panicked_error fault).mp panicked)) (by simp)
    | ok maxBound => exact h minBound maxBound

/-- The parser of name bounds never panics. -/
lemma parseLexBound_calm (text : Bytes) : ¬ Panicked (parseLexBound text) := by
  unfold parseLexBound
  split
  · exact not_panicked_ok _
  · split
    · exact not_panicked_ok _
    · exact not_panicked_ok _
    · exact not_panicked_err _

/-- The parser of score bounds never panics. -/
lemma parseScoreBound_calm (text : Bytes) : ¬ Panicked (parseScoreBound text) := by
  unfold parseScoreBound parseScore
  split
  · exact not_panicked_ok _
  · split
    · rw [panicked_map]
      split
      · exact not_panicked_ok _
      · exact not_panicked_err _
    · rw [panicked_map]
      split
      · exact not_panicked_ok _
      · exact not_panicked_err _

/-- The range that `ZRANGESTORE` collects is one that panics. -/
def overreachesRange [Indexset] (minStr maxStr : Bytes) (options : RangeOptions) (z : ZSet) :
    Bool :=
  if options.byLex then
    overreachesBounds parseLexBound (fun min max => min.crossed compare max) minStr maxStr
  else if options.byScore then
    overreachesBounds parseScoreBound (fun min max => overreachesScores min max z) minStr maxStr
  else
    match parseI64 minStr, parseI64 maxStr with
    | some minRank, some maxRank =>
      let start := rankStart z.len minRank
      let stop := rankStop z.len maxRank
      decide (start ≤ stop ∧ start < z.len) && foreign (z.index.rangeIdx start stop)
    | _, _ => false

/-- The range of `ZRANGESTORE` panics where it overreaches. -/
lemma panicked_collectRange [Indexset] (minStr maxStr : Bytes) (options : RangeOptions) (z : ZSet) :
    Panicked (collectRange z minStr maxStr options) ↔ overreachesRange minStr maxStr options z := by
  unfold collectRange overreachesRange
  split
  · exact panicked_bounds parseLexBound_calm (fun min max => panicked_lexRange min max z) _ _
  · split
    · exact panicked_bounds parseScoreBound_calm (fun min max => panicked_scoreRange min max z) _ _
    · cases parseI64 minStr with
      | none => exact iff_of_false (not_panicked_err _) (by simp)
      | some minRank =>
        cases parseI64 maxStr with
        | none => exact iff_of_false (not_panicked_err _) (by simp)
        | some maxRank =>
          simp only
          split_ifs with ordered
          · rw [panicked_rankRange, decide_eq_true ordered, Bool.true_and]
          · rw [decide_eq_false ordered, Bool.false_and]
            exact iff_of_false (not_panicked_ok _) Bool.false_ne_true

/-- `ZRANGESTORE` panics where its range overreaches. -/
lemma panicked_zrangestore [Indexset] (s : StorageInner) (db : Nat)
    (destKey sourceKey minStr maxStr : Bytes) (options : RangeOptions) :
    Panicked (zrangestore db destKey sourceKey minStr maxStr options s).2 ↔
      zsets.holds (s.source db destKey sourceKey) fun z => !z.isEmpty &&
      overreachesRange minStr maxStr options z := by
  refine (panicked_storeResult s db destKey).trans ?_
  rw [lookup_source]
  cases s.source db destKey sourceKey with
  | none => exact iff_of_false (not_panicked_ok _) Bool.false_ne_true
  | some value =>
    cases value with
    | zset z =>
      simp only [Container.holds, zsets, Option.any_some]
      cases z.isEmpty with
      | true => simp
      | false => simpa using panicked_collectRange minStr maxStr options z
    | string => exact iff_of_false not_panicked_wrongType Bool.false_ne_true
    | list => exact iff_of_false not_panicked_wrongType Bool.false_ne_true
    | set => exact iff_of_false not_panicked_wrongType Bool.false_ne_true
    | hash => exact iff_of_false not_panicked_wrongType Bool.false_ne_true

/-! ## All commands -/

/-- When a command panics. -/
def StorageInner.overreaches [Indexset] (s : StorageInner) (db : Nat) : Command → Bool
  | .setrange key offset value =>
    (decodeU64 offset).any fun offset => exceedsSlot offset value (s.lookup db key)
  | .lrem key count _ =>
    (decodeI64 count).any fun count => lists.holds (s.lookup db key) fun _ => count == -2 ^ 63
  | .zpopmax key count =>
    (decodeU64 count).any fun count => zsets.holds (s.lookup db key)
      fun z => foreign (z.index.elems.reverse.take count)
  | .zpopmin key count =>
    (decodeU64 count).any fun count => zsets.holds (s.lookup db key)
      fun z => foreign (z.index.elems.take count)
  | .zremrangebyrank key start stop =>
    (do return (← decodeI64 start, ← decodeI64 stop) : Option (Int × Int)).any fun (start, stop) =>
      zsets.holds (s.lookup db key) fun z => overreachesRanks z start stop
  | .zremrangebyscore key min max =>
    (do return (← decodeScoreBound min, ← decodeScoreBound max) : Option
      (Bound Score × Bound Score)).any
      fun (min, max) => zsets.holds (s.lookup db key) (overreachesScores min max)
  | .zremrangebylex key min max => zsets.holds (s.lookup db key) fun _ => min.crossed compare max
  | .zrangestore destination source min max options =>
    (do return (← decodeString min, ← decodeString max, ← options.mapM decodeString) :
      Option (Bytes × Bytes × List Bytes)).any fun (min, max, options) =>
        zsets.holds (s.source db destination source) fun z => !z.isEmpty &&
          overreachesRange min max (rangeOptions ⟨false, false, false, none⟩ options) z
  | _ => false

/-- An operation panics when its argument decodes and it does so for it. -/
lemma panicked_decoded {α : Type} {arg : Option α} {msg : String} {op : α → Op} {s : StorageInner}
    {p : α → Bool} (h : ∀ a, arg = some a → (Panicked (op a s).2 ↔ p a = true)) :
    Panicked (decoded arg msg op s).2 ↔ arg.any p = true := by
  cases arg with
  | none => exact iff_of_false (not_panicked_err _) Bool.false_ne_true
  | some a => exact h a rfl

/-- What is written out for all commands: most of them never panic, and the others when
`overreaches` says so. -/
lemma panicked_dispatch [Indexset] (s : StorageInner) (db : Nat) (command : Command) :
    Panicked (dispatch db command s).2 ↔ s.overreaches db command = true := by
  have never {op : Op} (h : op.Calm) : Panicked (op s).2 ↔ false = true :=
    iff_of_false (h s) Bool.false_ne_true
  cases command with
  | set => exact never (calm_of_ok fun _ => rfl)
  | del => exact never (calm_of_ok fun _ => rfl)
  | mset => exact never (calm_of_ok fun _ => rfl)
  | msetex => exact never (calm_of_ok fun _ => rfl)
  | pexpireat => exact never (calm_of_ok fun _ => rfl)
  | persist => exact never (calm_of_ok fun _ => rfl)
  | copy => exact never (copyKey_calm _ _ _ _)
  | rename => exact never (rename_calm _ _ _)
  | renamenx => exact never (renamenx_calm _ _ _)
  | moveKey => exact never (decoded_calm fun _ => moveKey_calm _ _ _)
  | append => exact never (atKey_calm (append_calm _) _ _)
  | setrange => exact panicked_decoded fun offset _ => panicked_setrange offset _ _
  | incr => exact never (atKey_calm (bump_calm _ _ _) _ _)
  | incrby => exact never (decoded_calm fun _ => atKey_calm (bump_calm _ _ _) _ _)
  | decr => exact never (atKey_calm (bump_calm _ _ _) _ _)
  | decrby => exact never (decoded_calm fun _ => atKey_calm (bump_calm _ _ _) _ _)
  | setnx => exact never (calm_of_ok fun _ => rfl)
  | msetnx => exact never (calm_of_ok fun _ => rfl)
  | getset => exact never (calm_of_ok fun _ => rfl)
  | getdel => exact never (calm_of_ok fun _ => rfl)
  | sadd => exact never (atKey_calm (Container.orInsert_calm fun _ => not_panicked_ok _) _ _)
  | srem => exact never (atKey_calm (Container.existing_calm fun _ => not_panicked_ok _) _ _)
  | smove => exact never (smove_calm _ _ _ _)
  | sunionstore => exact never (storeResult_calm (fun s => unionFrom_calm s _ _ _) _ _)
  | sinterstore =>
    exact never (storeResult_calm (fun s => fromFirst_calm s _ (interFrom_calm s _) _) _ _)
  | sdiffstore =>
    exact never (storeResult_calm (fun s => fromFirst_calm s _ (diffFrom_calm s _) _) _ _)
  | lpush => exact never (atKey_calm (Container.orInsert_calm fun _ => not_panicked_ok _) _ _)
  | rpush => exact never (atKey_calm (Container.orInsert_calm fun _ => not_panicked_ok _) _ _)
  | lpop => exact never (atKey_calm (Container.existing_calm fun _ => not_panicked_ok _) _ _)
  | rpop => exact never (atKey_calm (Container.existing_calm fun _ => not_panicked_ok _) _ _)
  | lset => exact never (decoded_calm fun _ => atKey_calm (lset_calm _ _) _ _)
  | rpoplpush =>
    rw [dispatch, rpoplpush_eq]
    exact never (lmove_calm _ _ _ _ _)
  | lpopCount =>
    exact never (decoded_calm
      fun _ => atKey_calm (Container.existing_calm fun _ => not_panicked_ok _) _ _)
  | rpopCount =>
    exact never (decoded_calm
      fun _ => atKey_calm (Container.existing_calm fun _ => not_panicked_ok _) _ _)
  | lmove => exact never (lmove_calm _ _ _ _ _)
  | lpushx => exact never (atKey_calm (Container.existing_calm fun _ => not_panicked_ok _) _ _)
  | rpushx => exact never (atKey_calm (Container.existing_calm fun _ => not_panicked_ok _) _ _)
  | lrem => exact panicked_decoded fun count here => panicked_lrem (decodeI64_fits here) _ _
  | ltrim => exact never (decoded_calm fun _ => atKey_calm (ltrim_calm _ _) _ _)
  | linsert => exact never (atKey_calm (Container.existing_calm fun _ => not_panicked_ok _) _ _)
  | hset => exact never (atKey_calm (Container.orInsert_calm fun _ => not_panicked_ok _) _ _)
  | hmset => exact never (atKey_calm (Container.orInsert_calm fun _ => not_panicked_ok _) _ _)
  | hdel => exact never (atKey_calm (Container.existing_calm fun _ => not_panicked_ok _) _ _)
  | hgetdel => exact never (atKey_calm (Container.existing_calm fun _ => not_panicked_ok _) _ _)
  | hsetnx => exact never (atKey_calm (Container.orInsert_calm fun _ => not_panicked_ok _) _ _)
  | hincrby => exact never (decoded_calm fun _ => atKey_calm (hincrby_calm _ _) _ _)
  | hincrbyfloat => exact never (decoded_calm fun _ => atKey_calm (hincrbyfloat_calm _ _) _ _)
  | hsetex => exact never (atKey_calm (Container.orInsert_calm fun _ => not_panicked_ok _) _ _)
  | zadd => exact never (atKey_calm (zadd_calm _ _) _ _)
  | zrem => exact never (atKey_calm (Container.existing_calm fun _ => not_panicked_ok _) _ _)
  | zpopmax => exact panicked_decoded fun count _ => panicked_zpopmax count _
  | zpopmin => exact panicked_decoded fun count _ => panicked_zpopmin count _
  | zremrangebyrank =>
    exact panicked_decoded fun (start, stop) _ => panicked_zremrangebyrank start stop _
  | zremrangebyscore key min max =>
    refine panicked_decoded fun (min, max) _ => ?_
    apply Container.panicked_existing
    intro z
    rw [panicked_removeRange, panicked_scoreRange]
  | zremrangebylex key min max =>
    apply Container.panicked_existing
    intro z
    rw [panicked_removeRange, panicked_lexRange]
  | zunionstore => exact never (decoded_calm fun _ => zunionstore_calm _ _ _ _ _)
  | zinterstore => exact never (decoded_calm fun _ => zinterstore_calm _ _ _ _ _)
  | zdiffstore => exact never (zdiffstore_calm _ _ _)
  | zrangestore =>
    exact panicked_decoded fun (min, max, options) _ => panicked_zrangestore s db _ _ min max _
  | zincrby =>
    exact never (decoded_calm
      fun _ => atKey_calm (Container.orInsert_calm fun _ => not_panicked_ok _) _ _)
  | flushall => exact never (calm_of_ok fun _ => rfl)
  | flushdb => exact never (calm_of_ok fun _ => rfl)
  | swapdb => exact never (decoded_calm fun _ => calm_of_ok fun _ => rfl)
  | setbit => exact never fun _ => not_panicked_err _
  | hpexpireat => exact never fun _ => not_panicked_err _
  | hpersist => exact never fun _ => not_panicked_err _
  | generic => exact never fun _ => not_panicked_err _

/-- A call panics just where its command overreaches. -/
lemma panicked_execute [Indexset] (s : StorageInner) (db : Nat) (command : Command) :
    Panicked (execute db command s).2 ↔ db < 2 ^ 64 ∧ s.overreaches db command = true := by
  by_cases small : db < 2 ^ 64
  · rw [execute_of_lt small, panicked_dispatch]
    exact ⟨fun h => ⟨small, h⟩, fun h => h.2⟩
  · rw [execute_of_ge small]
    exact iff_of_false (not_panicked_err _) fun h => small h.1

/-! ## Batches -/

/-- The batch ends in a result for each of its commands. -/
def Returns [Indexset] (batch : List (Nat × Command)) (s : StorageInner) : Prop :=
  ∃ results, (tx batch s).2 = .ok results ∧ results.length = batch.length

section
variable [Indexset] {s : StorageInner} {db : Nat} {command : Command} (rest : List (Nat × Command))

/-- A call that panics ends the batch. -/
lemma tx_of_panicked (h : Panicked (execute db command s).2) :
    ∃ msg, tx ((db, command) :: rest) s = ((execute db command s).1, .error (.panic msg)) := by
  obtain ⟨msg, panics⟩ := h
  use msg
  rw [tx]
  cases e : execute db command s with
  | mk s' result =>
    rw [e] at panics
    obtain rfl : result = .error (.panic msg) := panics
    rfl

/-- Behind a call that returns the batch goes on. -/
lemma tx_of_not_panicked (h : ¬ Panicked (execute db command s).2) :
    tx ((db, command) :: rest) s = ((tx rest (execute db command s).1).1,
      (tx rest (execute db command s).1).2.map ((execute db command s).2 :: ·)) := by
  rw [tx]
  cases e : execute db command s with
  | mk s' result =>
    rw [e] at h
    match result, h with
    | .ok (), _ => rfl
    | .error (.err msg), _ => rfl
    | .error (.panic msg), h => exact absurd (panicked_panic msg) h

/-- A batch with a panic does not return. -/
lemma not_returns_of_panicked (h : Panicked (execute db command s).2) :
    ¬ Returns ((db, command) :: rest) s := by
  obtain ⟨msg, eq⟩ := tx_of_panicked rest h
  rintro ⟨results, ok, _⟩
  rw [eq] at ok
  cases ok

/-- A batch returns when the calls behind a first one that returns do. -/
lemma returns_cons (h : ¬ Panicked (execute db command s).2) :
    Returns ((db, command) :: rest) s ↔ Returns rest (execute db command s).1 := by
  unfold Returns
  rw [tx_of_not_panicked rest h]
  cases (tx rest (execute db command s).1).2 with
  | error fault => exact iff_of_false nofun nofun
  | ok results =>
    constructor
    · rintro ⟨_, eq, len⟩
      obtain rfl := Except.ok.inj eq
      exact ⟨results, rfl, Nat.succ.inj len⟩
    · rintro ⟨_, eq, len⟩
      obtain rfl := Except.ok.inj eq
      exact ⟨_, rfl, congrArg (· + 1) len⟩

end

/-- A batch that ends in results ends in one for each command. -/
lemma ok_iff_returns [Indexset] (batch : List (Nat × Command)) (s : StorageInner) :
    (∃ results, (tx batch s).2 = .ok results) ↔ Returns batch s := by
  refine ⟨?_, fun ⟨results, eq, _⟩ => ⟨results, eq⟩⟩
  induction batch generalizing s with
  | nil => exact fun _ => ⟨[], rfl, rfl⟩
  | cons first batch ih =>
    obtain ⟨db, command⟩ := first
    rintro ⟨results, eq⟩
    by_cases panics : Panicked (execute db command s).2
    · obtain ⟨msg, panic⟩ := tx_of_panicked batch panics
      rw [panic] at eq
      cases eq
    · apply (returns_cons _ panics).mpr
      apply ih
      rw [tx_of_not_panicked batch panics] at eq
      cases e : (tx batch (execute db command s).1).2 with
      | error fault =>
        rw [e] at eq
        cases eq
      | ok results => exact ⟨results, rfl⟩

/-- Two batches return if and only if one of them and the other after it do. -/
lemma returns_append [Indexset] (batch rest : List (Nat × Command)) (s : StorageInner) :
    Returns (batch ++ rest) s ↔ Returns batch s ∧ Returns rest (executeAll batch s) := by
  induction batch generalizing s with
  | nil => exact ⟨fun h => ⟨⟨[], rfl, rfl⟩, h⟩, fun h => h.2⟩
  | cons first batch ih =>
    obtain ⟨db, command⟩ := first
    rw [List.cons_append]
    by_cases panics : Panicked (execute db command s).2
    · apply iff_of_false (not_returns_of_panicked _ panics)
      exact fun h => not_returns_of_panicked _ panics h.1
    · rw [returns_cons _ panics, returns_cons _ panics, ih]
      rfl

/-- The storage after a batch that returns. -/
lemma tx_storage [Indexset] {batch : List (Nat × Command)} {s : StorageInner}
    (h : Returns batch s) :
    (tx batch s).1 = executeAll batch s := by
  induction batch generalizing s with
  | nil => rfl
  | cons first batch ih =>
    obtain ⟨db, command⟩ := first
    by_cases panics : Panicked (execute db command s).2
    · exact absurd h (not_returns_of_panicked _ panics)
    · rw [executeAll, tx_of_not_panicked batch panics]
      exact ih ((returns_cons _ panics).mp h)

/-- A batch behind one that returns. -/
lemma tx_append [Indexset] {batch : List (Nat × Command)} {s : StorageInner} (h : Returns batch s)
    (rest : List (Nat × Command)) :
    (tx (batch ++ rest) s).1 = (tx rest (executeAll batch s)).1 := by
  induction batch generalizing s with
  | nil => rfl
  | cons first batch ih =>
    obtain ⟨db, command⟩ := first
    by_cases panics : Panicked (execute db command s).2
    · exact absurd h (not_returns_of_panicked _ panics)
    · rw [List.cons_append, executeAll, tx_of_not_panicked _ panics]
      exact ih ((returns_cons _ panics).mp h)

/-- None of the commands overreaches at its turn. -/
def Careful [Indexset] (batch : List (Nat × Command)) (s : StorageInner) : Prop :=
  ∀ before db command after, before ++ (db, command) :: after = batch →
    ¬ (db < 2 ^ 64 ∧ (executeAll before s).overreaches db command = true)

/-- A batch returns just where each call is careful. -/
lemma returns_iff_careful [Indexset] (batch : List (Nat × Command)) (s : StorageInner) :
    Returns batch s ↔ Careful batch s := by
  induction batch generalizing s with
  | nil => exact iff_of_true ⟨[], rfl, rfl⟩ fun before db command after eq => by simp at eq
  | cons first rest ih =>
    obtain ⟨db, command⟩ := first
    have here := panicked_execute s db command
    by_cases panics : Panicked (execute db command s).2
    · apply iff_of_false (not_returns_of_panicked rest panics)
      exact fun careful => careful [] db command rest rfl (here.mp panics)
    · rw [returns_cons rest panics, ih]
      constructor
      · intro careful before db' command' after eq
        cases before with
        | nil =>
          obtain ⟨eq, -⟩ := List.cons.inj eq
          cases eq
          exact fun h => panics (here.mpr h)
        | cons head before =>
          obtain ⟨eq, eq'⟩ := List.cons.inj eq
          cases eq
          exact careful before db' command' after eq'
      · intro careful before db' command' after eq
        exact careful ((db, command) :: before) db' command' after (by rw [← eq, List.cons_append])

/-- A batch ends in a result for each of its commands, exactly when none of them overreaches at its
turn. -/
theorem tx_returns [Indexset] (batch : List (Nat × Command)) (s : StorageInner) :
    (∃ results, (tx batch s).2 = .ok results ∧ results.length = batch.length) ↔
      ∀ before db command after, before ++ (db, command) :: after = batch →
        ¬ (db < 2 ^ 64 ∧ (executeAll before s).overreaches db command = true) :=
  returns_iff_careful batch s

/-- `ZADD k 1 m` and `ZREMRANGEBYLEX k [b [a` in one batch: the range of the entries is refused. -/
theorem zremrangebylex_panics :
    @RedisStream.CommandParser.parse ⟨fun _ => false⟩
      [ascii "ZREMRANGEBYLEX", ascii "k", ascii "[b", ascii "[a"] =
        some (Command.zremrangebylex (ascii "k") (.included (ascii "b")) (.included (ascii "a")),
          [ascii "k"]) ∧
    (@tx (.exact false) [(0, .zadd (ascii "k") [(.float (Binary64.ofInt 1), ascii "m")] []),
      (0, .zremrangebylex (ascii "k") (.included (ascii "b")) (.included (ascii "a")))] .new).2 =
        .error (.panic "range start is greater than range end in BTreeMap") := by
  decide +kernel

end Veidrodelis.TsNif
