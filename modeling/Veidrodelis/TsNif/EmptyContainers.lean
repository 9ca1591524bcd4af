import Veidrodelis.TsNif.DualIndex

/-!
# Empty containers

A key is dropped with the last element of its container, but the commands that create a container
bind it to the key before they know whether anything is put into it. `leavesEmpty` is when nothing
is: an empty container is then left at a key that was free. It is the only way in which one comes to
be (`emptyContainers`).
-/

namespace Veidrodelis.TsNif
open RedisNif (Fault)
open RedisStream (Command)
open StorageValue (lists sets hashes zsets)

/-- The value is a container without elements. -/
def StorageValue.holdsNothing : StorageValue → Bool
  | .string _ => false
  | .set members => members.isEmpty
  | .list items => items.isEmpty
  | .hash fields => fields.isEmpty
  | .zset z => z.isEmpty

/-- No empty container is in the slot. -/
def Slot.Filled (slot : Slot) : Prop := ∀ value, slot = some value → value.holdsNothing = false

/-- No key is bound to an empty container. -/
def StorageInner.Filled (s : StorageInner) : Prop := ∀ db key, Slot.Filled (s.lookup db key)

/-- A vacant slot holds no empty container. -/
lemma none_filled : Slot.Filled none := nofun

/-- A slot that holds something holds no empty container. -/
lemma some_filled {value : StorageValue} (h : value.holdsNothing = false) :
    Slot.Filled (some value) :=
  fun _ eq => Option.some.inj eq ▸ h

/-! ## One key -/

/-- The operation leaves no empty container. -/
def SlotOp.Fills (op : SlotOp) : Prop :=
  ∀ slot, Slot.Consistent slot → Slot.Filled slot → Slot.Filled (op slot).1

namespace Container

variable {α : Type} {c : Container α}

/-- A container that is kept unless it is empty is not. -/
lemma unlessEmpty_filled (same : ∀ a, (c.wrap a).holdsNothing = c.isEmpty a) (a : α) :
    Slot.Filled (c.unlessEmpty a) := by
  unfold unlessEmpty
  split
  · exact none_filled
  · rename_i full
    exact some_filled ((same a).trans (Bool.eq_false_iff.mpr full))

/-- An operation on a container that is there leaves none empty, if it does so on each. -/
lemma existing_fills (same : ∀ a, (c.wrap a).holdsNothing = c.isEmpty a)
    {f : α → Slot × Except Fault Unit}
    (h : ∀ a, (c.wrap a).Consistent → c.isEmpty a = false → Slot.Filled (f a).1) :
    (c.existing f).Fills := by
  intro slot consistent filled
  cases c.view slot with
  | vacant => exact none_filled
  | held a =>
    rw [existing_wrap]
    exact h a consistent ((same a).symm.trans (filled _ rfl))
  | other type =>
    rw [existing_other type]
    exact filled

/-- The key is dropped with the last element. -/
lemma existing_drops (same : ∀ a, (c.wrap a).holdsNothing = c.isEmpty a) (f : α → α) :
    (c.existing fun a => (c.unlessEmpty (f a), .ok ())).Fills :=
  existing_fills same fun a _ _ => unlessEmpty_filled same (f a)

/-- A container that is there is extended; if there is none, it depends on what is put into the new
one. -/
lemma orInsert_filled (same : ∀ a, (c.wrap a).holdsNothing = c.isEmpty a)
    {f : α → α × Except Fault Unit} (kept : ∀ a, c.isEmpty a = false → c.isEmpty (f a).1 = false)
    {slot : Slot} (filled : Slot.Filled slot) :
    Slot.Filled (c.orInsert f slot).1 ↔ ¬ (slot = none ∧ c.isEmpty (f c.new).1 = true) := by
  cases c.view slot with
  | vacant =>
    rw [orInsert_none, Slot.Filled]
    simp [same]
  | held a =>
    rw [orInsert_wrap]
    apply iff_of_true
    · exact some_filled ((same _).trans (kept a ((same a).symm.trans (filled _ rfl))))
    · exact fun h => nomatch h.1
  | other type =>
    rw [orInsert_other type]
    exact iff_of_true filled fun h => nomatch h.1

/-- An operation on a container that is created leaves none empty, if it does so on each. -/
lemma orInsert_fills (same : ∀ a, (c.wrap a).holdsNothing = c.isEmpty a)
    {f : α → α × Except Fault Unit} (new : c.isEmpty (f c.new).1 = false)
    (kept : ∀ a, c.isEmpty a = false → c.isEmpty (f a).1 = false) : (c.orInsert f).Fills := by
  intro slot _ filled
  rw [orInsert_filled same kept filled, new]
  exact fun h => nomatch h.2

end Container

/-- `APPEND` leaves no empty container. -/
lemma append_fills (value : Bytes) : (append value).Fills := by
  intro slot _ filled
  match slot with
  | none => exact some_filled rfl
  | some (.string _) => exact some_filled rfl
  | some (.set _) => exact filled
  | some (.list _) => exact filled
  | some (.hash _) => exact filled
  | some (.zset _) => exact filled

/-- `SETRANGE` leaves no empty container. -/
lemma setrange_fills (offset : Nat) (value : Bytes) : (setrange offset value).Fills := by
  intro slot _ filled
  match slot with
  | none =>
    rw [setrange]
    cases overwrite offset value [] with
    | ok bytes => exact some_filled rfl
    | error fault => exact none_filled
  | some (.string existing) =>
    rw [setrange]
    cases overwrite offset value existing with
    | ok bytes => exact some_filled rfl
    | error fault => exact some_filled rfl
  | some (.set _) => exact filled
  | some (.list _) => exact filled
  | some (.hash _) => exact filled
  | some (.zset _) => exact filled

/-- The commands that count leave no empty container. -/
lemma bump_fills (overflow : String) (next : Int → Int) (fresh : Int) :
    (bump overflow next fresh).Fills := by
  intro slot _ filled
  match slot with
  | none =>
    rw [bump]
    split
    · exact some_filled rfl
    · exact none_filled
  | some (.string existing) =>
    rw [bump]
    split
    · exact some_filled rfl
    · split
      · exact some_filled rfl
      · exact some_filled rfl
  | some (.set _) => exact filled
  | some (.list _) => exact filled
  | some (.hash _) => exact filled
  | some (.zset _) => exact filled

/-! ### Lists -/

/-- A list holds nothing when it is empty. -/
lemma lists_same (items : List Bytes) : (lists.wrap items).holdsNothing = lists.isEmpty items := rfl

/-- A list with a length is not empty. -/
lemma isEmpty_of_length {items : List Bytes} (h : 0 < items.length) :
    lists.isEmpty items = false := by
  cases items with
  | nil => cases h
  | cons => rfl

/-- A list that is not empty has a length. -/
lemma length_of_isEmpty {items : List Bytes} (h : lists.isEmpty items = false) :
    0 < items.length := by
  cases items with
  | nil => cases h
  | cons => exact Nat.succ_pos _

/-- A list that does not become shorter. -/
lemma longer_filled {items items' : List Bytes} (full : lists.isEmpty items = false)
    (longer : items.length ≤ items'.length) : Slot.Filled (some (.list items')) :=
  some_filled (isEmpty_of_length ((length_of_isEmpty full).trans_le longer))

/-- A list grows by what is pushed. -/
lemma length_pushed (values items : List Bytes) :
    (values.foldl (fun items value => value :: items) items).length =
      items.length + values.length := by
  induction values generalizing items with
  | nil => rfl
  | cons value rest ih =>
    rw [List.foldl_cons, ih, List.length_cons, List.length_cons]
    omega

/-- `LREM` leaves no empty container. -/
lemma lrem_fills (count : Int) (value : Bytes) : (lrem count value).Fills := by
  apply Container.existing_fills lists_same
  intro items _ full
  split_ifs
  · exact Container.unlessEmpty_filled lists_same _
  · exact Container.unlessEmpty_filled lists_same _
  · exact Container.unlessEmpty_filled lists_same _
  · exact some_filled full

/-- `LTRIM` leaves no empty container. -/
lemma ltrim_fills (start stop : Int) : (ltrim start stop).Fills := by
  apply Container.existing_fills lists_same
  intro items _ full
  simp only
  split_ifs
  · exact some_filled full
  · exact none_filled
  · exact Container.unlessEmpty_filled lists_same _

/-- `LSET` leaves no empty container. -/
lemma lset_fills (index : Int) (value : Bytes) : (lset index value).Fills := by
  apply Container.existing_fills lists_same
  intro items _ full
  simp only
  split_ifs
  · exact longer_filled full (by simp)
  · exact some_filled full
  · exact longer_filled full (by simp)
  · exact some_filled full

/-- A list that is inserted into does not become shorter. -/
lemma length_insertAt (before : Bool) (pivot value : Bytes) (items : List Bytes) :
    items.length ≤ (insertAt before pivot value items).length := by
  induction items with
  | nil => exact Nat.le_refl _
  | cons item items ih =>
    rw [insertAt]
    split_ifs
    · simp
    · simp
    · simpa using ih

/-- `LINSERT` leaves no empty container. -/
lemma linsert_fills (before : Bool) (pivot value : Bytes) : (linsert before pivot value).Fills :=
  Container.existing_fills lists_same
    fun items _ full => longer_filled full (length_insertAt _ _ _ items)

/-- `LPUSHX` leaves no empty container. -/
lemma lpushx_fills (values : List Bytes) : (lpushx values).Fills :=
  Container.existing_fills lists_same fun items _ full => longer_filled full (by simp)

/-- `RPUSHX` leaves no empty container. -/
lemma rpushx_fills (values : List Bytes) : (rpushx values).Fills :=
  Container.existing_fills lists_same fun items _ full => longer_filled full (by simp)

/-! ### Sets and hashes -/

/-- A set holds nothing when it is empty. -/
lemma sets_same (members : Std.ExtTreeSet Bytes compare) :
    (sets.wrap members).holdsNothing = sets.isEmpty members := rfl

/-- A hash holds nothing when it is empty. -/
lemma hashes_same (fields : Std.ExtTreeMap Bytes Bytes compare) :
    (hashes.wrap fields).holdsNothing = hashes.isEmpty fields := rfl

/-- A container that elements are put into one after the other is empty only if it was and there are
none. -/
lemma isEmpty_foldl {α β : Type} {isEmpty : α → Bool} {put : α → β → α}
    (full : ∀ a b, isEmpty (put a b) = false) (elements : List β) (a : α) :
    isEmpty (elements.foldl put a) = (isEmpty a && elements.isEmpty) := by
  induction elements generalizing a with
  | nil => simp
  | cons first rest ih =>
    rw [List.foldl_cons, ih, full]
    simp

/-- A set is empty when nothing was in it and nothing was added. -/
lemma isEmpty_inserted (members : Std.ExtTreeSet Bytes compare) (newMembers : List Bytes) :
    sets.isEmpty (newMembers.foldl (fun members m => members.insert m) members) =
      (sets.isEmpty members && newMembers.isEmpty) :=
  isEmpty_foldl (by simp [sets]) newMembers members

/-- A hash is empty when nothing was in it and nothing was added. -/
lemma isEmpty_insertFields (fields : Std.ExtTreeMap Bytes Bytes compare)
    (pairs : List (Bytes × Bytes)) :
    hashes.isEmpty (insertFields fields pairs) = (hashes.isEmpty fields && pairs.isEmpty) :=
  isEmpty_foldl (by simp [hashes]) pairs fields

/-- `HSET` leaves no empty container. -/
lemma hset_fills (field value : Bytes) : (hset field value).Fills :=
  Container.orInsert_fills hashes_same (by simp [hashes]) (by simp [hashes])

/-- `HSETNX` leaves no empty container. -/
lemma hsetnx_fills (field value : Bytes) : (hsetnx field value).Fills := by
  apply Container.orInsert_fills hashes_same
  · simp [hashes]
  · intro fields full
    simp only
    split
    · exact full
    · simp [hashes]

/-- `HINCRBY` leaves no empty container. -/
lemma hincrby_fills (field : Bytes) {delta : Int} (fits : inI64 delta) :
    (hincrby field delta).Fills := by
  apply Container.orInsert_fills hashes_same
  · simp [hashes, fits]
  · intro fields full
    split
    · exact full
    · split
      · simp [hashes]
      · exact full

/-- `HINCRBYFLOAT` leaves no empty container. -/
lemma hincrbyfloat_fills (field : Bytes) (delta : Nat) : (hincrbyfloat field delta).Fills := by
  apply Container.orInsert_fills hashes_same
  · simp [hashes]
  · intro fields full
    split
    · exact full
    · simp [hashes]

/-- `HSETEX` puts nothing into a new hash. -/
def putsNothing (mode : Option HSetEXMode) (pairs : List (Bytes × Bytes)) : Bool :=
  pairs.isEmpty || mode == some .xx

/-- `HSETEX` leaves an empty hash just at a vacant key where it puts nothing. -/
lemma hsetex_filled (mode : Option HSetEXMode) (pairs : List (Bytes × Bytes)) {slot : Slot}
    (filled : Slot.Filled slot) :
    Slot.Filled (hsetex mode pairs slot).1 ↔ ¬ (slot = none ∧ putsNothing mode pairs = true) := by
  have written (admitted : Bool) (fields : Std.ExtTreeMap Bytes Bytes compare) :
      hashes.isEmpty (if admitted then insertFields fields pairs else fields) =
        (hashes.isEmpty fields && (pairs.isEmpty || !admitted)) := by
    cases admitted with
    | true => simpa using isEmpty_insertFields fields pairs
    | false => simp
  have kept (admitted : Std.ExtTreeMap Bytes Bytes compare → Bool) :
      ∀ fields, hashes.isEmpty fields = false →
        hashes.isEmpty (if admitted fields then insertFields fields pairs else fields) = false := by
    intro fields full
    rw [written, full, Bool.false_and]
  match mode with
  | none =>
    refine (Container.orInsert_filled hashes_same (kept fun _ => true) filled).trans ?_
    rw [written]
    simp [putsNothing, hashes]
  | some .nx =>
    refine (Container.orInsert_filled hashes_same
      (kept fun fields => pairs.all fun p => !(fields.contains p.1)) filled).trans ?_
    rw [written]
    simp [putsNothing, hashes]
  | some .xx =>
    refine (Container.orInsert_filled hashes_same
      (kept fun fields => pairs.all fun p => fields.contains p.1) filled).trans ?_
    rw [written]
    cases pairs <;> simp [putsNothing, hashes]

/-! ### Sorted sets -/

/-- A sorted set holds nothing when it is empty. -/
lemma zsets_same (z : ZSet) : (zsets.wrap z).holdsNothing = zsets.isEmpty z := rfl

/-- A sorted set with a member is not empty. -/
lemma isEmpty_insert (z : ZSet) (score : Score) (member : Bytes) :
    (z.insert score member).isEmpty = false := by
  simp [ZSet.isEmpty, ZSet.insert]

/-- A member is not added to an empty sorted set just under `XX`. -/
lemma isEmpty_addMember (flags : ZSet.ZAddFlags) (z : ZSet) (score : Score) (member : Bytes) :
    (z.addMember flags score member).isEmpty = (z.isEmpty && flags.xx) := by
  unfold ZSet.addMember
  cases old : z.entries[member]? with
  | none =>
    cases flags.xx with
    | true => simp
    | false => simp [isEmpty_insert]
  | some oldScore =>
    have full : z.isEmpty = false := by
      rw [ZSet.isEmpty, Std.ExtTreeMap.isEmpty_eq_false_iff]
      intro isEmpty
      simp [isEmpty] at old
    simp only
    split_ifs <;> simp [full, isEmpty_insert]

/-- No members are added to an empty sorted set just under `XX`, or when there are none. -/
lemma isEmpty_add (flags : ZSet.ZAddFlags) (z : ZSet) (members : List (Score × Bytes)) :
    (z.add flags members).isEmpty = (z.isEmpty && (members.isEmpty || flags.xx)) := by
  unfold ZSet.add
  induction members generalizing z with
  | nil => simp
  | cons first rest ih =>
    rw [List.foldl_cons, ih, isEmpty_addMember]
    cases flags.xx <;> simp

/-- `ZADD` is accepted, and puts nothing into a new sorted set. -/
def addsNothing (count : Nat) (options : List ZAddOption) : Bool :=
  let flags := ZSet.ZAddFlags.ofOptions options
  if flags.nx ∧ flags.xx then false
  else if (flags.gt ∨ flags.lt) ∧ flags.nx then false
  else if flags.incr ∧ count ≠ 1 then false
  else count == 0 || flags.xx

/-- `ZADD` leaves an empty sorted set just at a vacant key where it adds nothing. -/
lemma zadd_filled (members : List (Score × Bytes)) (options : List ZAddOption) {slot : Slot}
    (filled : Slot.Filled slot) :
    Slot.Filled (zadd members options slot).1 ↔
      ¬ (slot = none ∧ addsNothing members.length options = true) := by
  unfold zadd addsNothing
  generalize ZSet.ZAddFlags.ofOptions options = flags
  simp only
  split_ifs
  · exact iff_of_true filled (by simp)
  · exact iff_of_true filled (by simp)
  · exact iff_of_true filled (by simp)
  · have kept : ∀ z, zsets.isEmpty z = false → zsets.isEmpty (z.add flags members) = false := by
      intro z full
      exact (isEmpty_add flags z members).trans
        (by rw [show z.isEmpty = false from full, Bool.false_and])
    refine (Container.orInsert_filled zsets_same kept filled).trans ?_
    have new : zsets.isEmpty (zsets.new.add flags members) = (members.isEmpty || flags.xx) := by
      refine (isEmpty_add flags ZSet.new members).trans ?_
      simp [ZSet.isEmpty, ZSet.new]
    rw [new]
    cases members <;> simp

/-- `ZINCRBY` leaves no empty container. -/
lemma zincrby_fills (delta : Score) (member : Bytes) : (zincrby delta member).Fills := by
  have inserted (z : ZSet) : zsets.isEmpty (z.incrBy delta member) = false := by
    unfold ZSet.incrBy
    simp only
    split
    · exact isEmpty_insert _ _ _
    · exact isEmpty_insert _ _ _
  exact Container.orInsert_fills zsets_same (inserted _) fun z _ => inserted z

/-- `ZPOPMIN` and `ZPOPMAX` leave no empty container. -/
lemma zpop_fills {pop : ZSetIndex → Option (ZSetIndexKey × ZSetIndex)} (pops : OrderedSet.Pops pop)
    (count : Nat) : (zsets.existing fun z => afterRemoval (z.popWith pop count)).Fills := by
  apply Container.existing_fills zsets_same
  intro z hz _
  obtain ⟨kept, result⟩ := ZSet.popWith_consistent pops count hz
  rw [show z.popWith pop count = ((z.popWith pop count).1, .ok ()) from Prod.ext rfl result]
  exact Container.unlessEmpty_filled zsets_same _

/-- To remove a range leaves no empty sorted set. -/
lemma removeRange_filled {z : ZSet} (full : z.isEmpty = false)
    (collected : Except Fault (List (Bytes × Score))) :
    Slot.Filled (removeRange z collected).1 := by
  cases collected with
  | ok members => exact Container.unlessEmpty_filled zsets_same _
  | error fault => exact some_filled full

/-- `ZREMRANGEBYRANK` leaves no empty container. -/
lemma zremrangebyrank_fills (start stop : Int) : (zremrangebyrank start stop).Fills := by
  apply Container.existing_fills zsets_same
  intro z _ full
  simp only
  split_ifs
  · exact some_filled full
  · exact some_filled full
  · exact removeRange_filled full _

/-- `ZREMRANGEBYSCORE` leaves no empty container. -/
lemma zremrangebyscore_fills [Indexset] (min max : Bound Score) :
    (zremrangebyscore min max).Fills :=
  Container.existing_fills zsets_same fun _ _ full => removeRange_filled full _

/-- `ZREMRANGEBYLEX` leaves no empty container. -/
lemma zremrangebylex_fills (min max : Bound Bytes) : (zremrangebylex min max).Fills :=
  Container.existing_fills zsets_same fun _ _ full => removeRange_filled full _

/-! ## The storage -/

/-- The operation leaves no empty container. -/
def Op.Fills (op : Op) (s : StorageInner) : Prop := s.Consistent → s.Filled → (op s).1.Filled

section
variable {s : StorageInner}

/-- To store a filled slot keeps the storage filled. -/
lemma store_filled {slot : Slot} (filled : s.Filled) (h : Slot.Filled slot) (db : Nat)
    (key : Bytes) :
    (s.store db key slot).Filled := by
  intro db' key'
  rw [StorageInner.lookup_store]
  split
  · exact h
  · exact filled db' key'

/-- To put a value that holds something keeps the storage filled. -/
lemma put_filled {value : StorageValue} (filled : s.Filled) (h : value.holdsNothing = false)
    (db : Nat) (key : Bytes) : (s.put db key value).Filled :=
  store_filled filled (some_filled h) db key

/-- To delete a key keeps the storage filled. -/
lemma del_filled (filled : s.Filled) (db : Nat) (key : Bytes) : (s.del db key).Filled :=
  store_filled filled none_filled db key

/-- An operation that does nothing leaves no empty container. -/
lemma idle_fills (r : Except Fault Unit) : Op.Fills (fun s => (s, r)) s := fun _ filled => filled

/-- An operation leaves none empty if it does so for every argument that decodes. -/
lemma decoded_fills {α : Type} {arg : Option α} {msg : String} {op : α → Op}
    (h : ∀ a, arg = some a → (op a).Fills s) : (decoded arg msg op).Fills s := by
  cases arg with
  | none => exact idle_fills _
  | some a => exact h a rfl

/-- Only the key that an operation works on matters. -/
lemma atKey_filled (op : SlotOp) (db : Nat) (key : Bytes) (filled : s.Filled) :
    (atKey db key op s).1.Filled ↔ Slot.Filled (op (s.lookup db key)).1 := by
  constructor
  · intro h
    have here := h db key
    rwa [atKey, StorageInner.lookup_store, if_pos ⟨rfl, rfl⟩] at here
  · exact fun h => store_filled filled h db key

/-- An operation on a slot leaves none empty at a key. -/
lemma atKey_fills {op : SlotOp} (h : op.Fills) (db : Nat) (key : Bytes) :
    (atKey db key op).Fills s :=
  fun consistent filled => (atKey_filled op db key filled).mpr
    (h _ (consistent db key) (filled db key))

/-- `MSET` leaves no empty container. -/
lemma mset_fills (db : Nat) (pairs : List (Bytes × Bytes)) : (mset db pairs).Fills s := by
  rintro - filled
  unfold mset
  simp only
  induction pairs generalizing s with
  | nil => exact filled
  | cons pair rest ih =>
    obtain ⟨key, value⟩ := pair
    apply ih
    have named : (StorageValue.string value).holdsNothing = false := rfl
    exact put_filled filled named _ _

/-- `DEL` and `UNLINK` leave no empty container. -/
lemma delAll_fills (db : Nat) (keys : List Bytes) : (delAll db keys).Fills s := by
  rintro - filled
  unfold delAll
  simp only
  induction keys generalizing s with
  | nil => exact filled
  | cons key rest ih => exact ih (del_filled filled db key)

/-- `RENAME` leaves no empty container. -/
lemma rename_fills (db : Nat) (oldKey newKey : Bytes) : (rename db oldKey newKey).Fills s := by
  intro _ filled
  unfold rename
  cases e : s.lookup db oldKey with
  | none => exact filled
  | some value => exact put_filled (del_filled filled _ _) (filled _ _ _ e) _ _

/-- `RENAMENX` leaves no empty container. -/
lemma renamenx_fills (db : Nat) (oldKey newKey : Bytes) : (renamenx db oldKey newKey).Fills s := by
  intro consistent filled
  unfold renamenx
  split
  · exact filled
  · exact rename_fills db oldKey newKey consistent filled

/-- `MOVE` leaves no empty container. -/
lemma moveKey_fills (sourceDb destDb : Nat) (key : Bytes) :
    (moveKey sourceDb destDb key).Fills s := by
  intro _ filled
  unfold moveKey
  cases e : s.lookup sourceDb key with
  | none => exact filled
  | some value => exact put_filled (del_filled filled _ _) (filled _ _ _ e) _ _

/-- A sorted set is empty when it is made of no members. -/
lemma isEmpty_ofMembers (members : List (Bytes × Score)) :
    (ZSet.ofMembers members).isEmpty = members.isEmpty := by
  refine (isEmpty_foldl ?_ members ZSet.new).trans ?_
  · exact fun z p => isEmpty_insert z p.2 p.1
  · simp [ZSet.isEmpty, ZSet.new]

/-- A clone holds something when its original does. -/
lemma clone_filled {value : StorageValue} (h : value.holdsNothing = false) :
    value.clone.holdsNothing = false := by
  cases value with
  | zset z =>
    refine (isEmpty_ofMembers z.entries.toList).trans ?_
    rw [Std.ExtTreeMap.isEmpty_toList]
    exact h
  | string => exact h
  | set => exact h
  | list => exact h
  | hash => exact h

/-- `COPY` leaves no empty container. -/
lemma copyKey_fills (db : Nat) (source destination : Bytes) (replace : Bool) :
    (copyKey db source destination replace).Fills s := by
  intro _ filled
  unfold copyKey
  split
  · exact filled
  · cases e : s.lookup db source with
    | none => exact filled
    | some value => exact put_filled filled (clone_filled (filled _ _ _ e)) _ _

/-- `FLUSHALL` leaves no empty container. -/
lemma flushall_fills : flushall.Fills s := by
  intro _ _ db key
  simpa [flushall, StorageInner.lookup] using none_filled

/-- `FLUSHDB` leaves no empty container. -/
lemma flushdb_fills (db : Nat) : (flushdb db).Fills s := by
  intro _ filled db' key
  rw [lookup_flushdb]
  split
  · exact none_filled
  · exact filled db' key

/-- `SWAPDB` leaves no empty container. -/
lemma swapdb_fills (db1 db2 : Nat) : (swapdb db1 db2).Fills s := by
  intro _ filled db key
  rw [lookup_swapdb]
  exact filled _ key

/-- `SMOVE` leaves no empty container. -/
lemma smove_fills (db : Nat) (sourceKey destKey member : Bytes) :
    (smove db sourceKey destKey member).Fills s := by
  intro consistent filled
  unfold smove
  split
  · exact filled
  · split
    · apply atKey_fills (Container.orInsert_fills sets_same (by simp [sets]) (by simp [sets]))
      · exact store_consistent consistent (Container.unlessEmpty_consistent (sets_plain _)) _ _
      · exact store_filled filled (Container.unlessEmpty_filled sets_same _) _ _
    · exact filled
  · exact filled

/-- A list grows by the item that is pushed. -/
lemma length_pushEnd (side : Side) (item : Bytes) (items : List Bytes) :
    (pushEnd side item items).length = items.length + 1 := by
  cases side with
  | left => rfl
  | right => exact List.length_append

/-- `LMOVE` and `RPOPLPUSH` leave no empty container. -/
lemma lmove_fills (db : Nat) (sourceKey destKey : Bytes) (wherefrom whereto : Side) :
    (lmove db sourceKey destKey wherefrom whereto).Fills s := by
  have pushed (item : Bytes) (items : List Bytes) :
      lists.isEmpty (pushEnd whereto item items) = false :=
    isEmpty_of_length (by rw [length_pushEnd]; exact Nat.succ_pos _)
  intro consistent filled
  unfold lmove
  split
  · refine atKey_fills ?_ _ _ consistent filled
    apply Container.existing_fills lists_same
    intro items _ full
    split
    · exact some_filled (pushed _ _)
    · exact some_filled full
  · split
    · exact filled
    · split
      · exact filled
      · apply atKey_fills (Container.orInsert_fills lists_same (pushed _ _) fun _ _ => pushed _ _)
        · exact store_consistent consistent (Container.unlessEmpty_consistent (lists_plain _)) _ _
        · exact store_filled filled (Container.unlessEmpty_filled lists_same _) _ _
    · exact filled

/-- A command that stores leaves no empty container. -/
lemma storeResult_fills {α : Type} {c : Container α}
    (same : ∀ a, (c.wrap a).holdsNothing = c.isEmpty a) (db : Nat) (destKey : Bytes)
    (compute : StorageInner → Except Fault α) : (storeResult c db destKey compute).Fills s := by
  intro _ filled
  have deleted := del_filled filled db destKey
  unfold storeResult
  simp only
  split
  · split
    · exact deleted
    · rename_i full
      exact put_filled deleted ((same _).trans (Bool.eq_false_iff.mpr full)) _ _
  · exact deleted

/-! ## All commands -/

/-- When a command leaves an empty container: the key is free, and nothing is put into the container
that is bound to it. -/
def StorageInner.leavesEmpty (s : StorageInner) (db : Nat) : Command → Bool
  | .lpush key values => (s.lookup db key).isNone && values.isEmpty
  | .rpush key values => (s.lookup db key).isNone && values.isEmpty
  | .sadd key members => (s.lookup db key).isNone && members.isEmpty
  | .hmset key fields => (s.lookup db key).isNone && fields.isEmpty
  | .hsetex key mode fields => (s.lookup db key).isNone && putsNothing mode fields
  | .zadd key members options => (s.lookup db key).isNone && addsNothing members.length options
  | _ => false

/-- An operation on one key that leaves an empty container exactly when the key is free and so
on. -/
lemma atKey_filled_iff {op : SlotOp} {db : Nat} {key : Bytes} {nothing : Bool} (filled : s.Filled)
    (h : ∀ slot, Slot.Filled slot → (Slot.Filled (op slot).1 ↔ ¬ (slot = none ∧ nothing = true))) :
    (atKey db key op s).1.Filled ↔ ((s.lookup db key).isNone && nothing) = false := by
  rw [atKey_filled op db key filled, h _ (filled db key)]
  cases s.lookup db key <;> simp

/-- A command leaves an empty container just where its predicate says so. -/
lemma dispatch_filled [Indexset] (consistent : s.Consistent) (filled : s.Filled) (db : Nat)
    (command : Command) :
    (dispatch db command s).1.Filled ↔ s.leavesEmpty db command = false := by
  have always {op : Op} (h : op.Fills s) : (op s).1.Filled ↔ false = false :=
    iff_of_true (h consistent filled) rfl
  cases command with
  | set => exact always fun _ filled => put_filled filled (by exact rfl) _ _
  | del => exact always (delAll_fills _ _)
  | mset => exact always (mset_fills _ _)
  | msetex => exact always (mset_fills _ _)
  | pexpireat => exact always (idle_fills _)
  | persist => exact always (idle_fills _)
  | copy => exact always (copyKey_fills _ _ _ _)
  | rename => exact always (rename_fills _ _ _)
  | renamenx => exact always (renamenx_fills _ _ _)
  | moveKey => exact always (decoded_fills fun _ _ => moveKey_fills _ _ _)
  | append => exact always (atKey_fills (append_fills _) _ _)
  | setrange => exact always (decoded_fills fun _ _ => atKey_fills (setrange_fills _ _) _ _)
  | incr => exact always (atKey_fills (bump_fills _ _ _) _ _)
  | incrby => exact always (decoded_fills fun _ _ => atKey_fills (bump_fills _ _ _) _ _)
  | decr => exact always (atKey_fills (bump_fills _ _ _) _ _)
  | decrby => exact always (decoded_fills fun _ _ => atKey_fills (bump_fills _ _ _) _ _)
  | setnx => exact always fun _ filled => put_filled filled (by exact rfl) _ _
  | msetnx => exact always (mset_fills _ _)
  | getset => exact always fun _ filled => put_filled filled (by exact rfl) _ _
  | getdel => exact always (delAll_fills _ _)
  | sadd key members =>
    apply atKey_filled_iff filled
    intro slot held
    refine (Container.orInsert_filled sets_same ?_ held).trans ?_
    · intro a full
      rw [isEmpty_inserted, full, Bool.false_and]
    · rw [isEmpty_inserted]
      simp [sets]
  | srem => exact always (atKey_fills (Container.existing_drops sets_same _) _ _)
  | smove => exact always (smove_fills _ _ _ _)
  | sunionstore => exact always (storeResult_fills sets_same _ _ _)
  | sinterstore => exact always (storeResult_fills sets_same _ _ _)
  | sdiffstore => exact always (storeResult_fills sets_same _ _ _)
  | lpush key values =>
    apply atKey_filled_iff filled
    intro slot held
    refine (Container.orInsert_filled lists_same ?_ held).trans ?_
    · intro items full
      apply isEmpty_of_length
      rw [length_pushed]
      have := length_of_isEmpty full
      omega
    · cases values with
      | nil => simp [lists]
      | cons value rest =>
        have full : lists.isEmpty
          ((value :: rest).foldl (fun items value => value :: items) lists.new) =
            false := isEmpty_of_length (by rw [length_pushed]; simp)
        simp only [full]
        simp
  | rpush key values =>
    apply atKey_filled_iff filled
    intro slot held
    refine (Container.orInsert_filled lists_same ?_ held).trans ?_
    · intro items full
      apply isEmpty_of_length
      have := length_of_isEmpty full
      rw [List.length_append]
      omega
    · simp [lists]
  | lpop => exact always (atKey_fills (Container.existing_drops lists_same _) _ _)
  | rpop => exact always (atKey_fills (Container.existing_drops lists_same _) _ _)
  | lset => exact always (decoded_fills fun _ _ => atKey_fills (lset_fills _ _) _ _)
  | rpoplpush =>
    rw [dispatch, rpoplpush_eq]
    exact always (lmove_fills _ _ _ _ _)
  | lpopCount =>
    exact always (decoded_fills fun _ _ => atKey_fills (Container.existing_drops lists_same _) _ _)
  | rpopCount =>
    exact always (decoded_fills fun _ _ => atKey_fills (Container.existing_drops lists_same _) _ _)
  | lmove => exact always (lmove_fills _ _ _ _ _)
  | lpushx => exact always (atKey_fills (lpushx_fills _) _ _)
  | rpushx => exact always (atKey_fills (rpushx_fills _) _ _)
  | lrem => exact always (decoded_fills fun _ _ => atKey_fills (lrem_fills _ _) _ _)
  | ltrim => exact always (decoded_fills fun _ _ => atKey_fills (ltrim_fills _ _) _ _)
  | linsert => exact always (atKey_fills (linsert_fills _ _ _) _ _)
  | hset => exact always (atKey_fills (hset_fills _ _) _ _)
  | hmset key fields =>
    apply atKey_filled_iff filled
    intro slot held
    refine (Container.orInsert_filled hashes_same ?_ held).trans ?_
    · intro a full
      rw [isEmpty_insertFields, full, Bool.false_and]
    · rw [isEmpty_insertFields]
      simp [hashes]
  | hdel => exact always (atKey_fills (Container.existing_drops hashes_same _) _ _)
  | hgetdel => exact always (atKey_fills (Container.existing_drops hashes_same _) _ _)
  | hsetnx => exact always (atKey_fills (hsetnx_fills _ _) _ _)
  | hincrby =>
    exact always (decoded_fills
      fun _ here => atKey_fills (hincrby_fills _ (decodeI64_fits here)) _ _)
  | hincrbyfloat => exact always (decoded_fills fun _ _ => atKey_fills (hincrbyfloat_fills _ _) _ _)
  | hsetex key mode fields =>
    exact atKey_filled_iff filled fun slot held => hsetex_filled mode fields held
  | zadd key members options =>
    refine atKey_filled_iff filled fun slot held => (zadd_filled _ options held).trans ?_
    rw [List.length_map]
  | zrem => exact always (atKey_fills (Container.existing_drops zsets_same _) _ _)
  | zpopmax =>
    exact always (decoded_fills fun _ _ => atKey_fills (zpop_fills OrderedSet.pops_last _) _ _)
  | zpopmin =>
    exact always (decoded_fills fun _ _ => atKey_fills (zpop_fills OrderedSet.pops_first _) _ _)
  | zremrangebyrank =>
    exact always (decoded_fills fun _ _ => atKey_fills (zremrangebyrank_fills _ _) _ _)
  | zremrangebyscore =>
    exact always (decoded_fills fun _ _ => atKey_fills (zremrangebyscore_fills _ _) _ _)
  | zremrangebylex => exact always (atKey_fills (zremrangebylex_fills _ _) _ _)
  | zunionstore => exact always (decoded_fills fun _ _ => storeResult_fills zsets_same _ _ _)
  | zinterstore => exact always (decoded_fills fun _ _ => storeResult_fills zsets_same _ _ _)
  | zdiffstore => exact always (storeResult_fills zsets_same _ _ _)
  | zrangestore => exact always (decoded_fills fun _ _ => storeResult_fills zsets_same _ _ _)
  | zincrby => exact always (decoded_fills fun _ _ => atKey_fills (zincrby_fills _ _) _ _)
  | flushall => exact always flushall_fills
  | flushdb => exact always (flushdb_fills _)
  | swapdb => exact always (decoded_fills fun _ _ => swapdb_fills _ _)
  | setbit => exact always (idle_fills _)
  | hpexpireat => exact always (idle_fills _)
  | hpersist => exact always (idle_fills _)
  | generic => exact always (idle_fills _)

end

/-- A call leaves an empty container just in a database of 64 bits where its command does. -/
lemma execute_filled [Indexset] {s : StorageInner} (consistent : s.Consistent) (filled : s.Filled)
    (db : Nat) (command : Command) :
    (execute db command s).1.Filled ↔ ¬ (db < 2 ^ 64 ∧ s.leavesEmpty db command = true) := by
  by_cases small : db < 2 ^ 64
  · rw [execute_of_lt small, dispatch_filled consistent filled, Bool.eq_false_iff]
    exact ⟨fun h both => h both.2, fun h leaves => h ⟨small, leaves⟩⟩
  · rw [execute_of_ge small]
    exact iff_of_true filled fun h => small h.1

/-- In a run of commands from the empty storage no key is ever bound to an empty container, exactly
when no command at its turn puts nothing into a container that it creates. -/
theorem emptyContainers [Indexset] (commands : List (Nat × Command)) :
    (∀ before after, before ++ after = commands → ∀ db key value,
      (executeAll before .new).lookup db key = some value → value.holdsNothing = false) ↔
    ∀ before db command after, before ++ (db, command) :: after = commands →
      ¬ (db < 2 ^ 64 ∧ (executeAll before .new).leavesEmpty db command = true) := by
  have step (before : List (Nat × Command)) (filled : (executeAll before .new).Filled) (db : Nat)
      (command : Command) : (executeAll (before ++ [(db, command)]) .new).Filled ↔
        ¬ (db < 2 ^ 64 ∧ (executeAll before .new).leavesEmpty db command = true) := by
    rw [executeAll_append]
    exact execute_filled (executeAll_consistent before new_consistent) filled db command
  constructor
  · intro reached before db command after eq
    apply (step before (reached before _ eq) db command).mp
    exact reached _ after (by rw [← eq, List.append_assoc, List.singleton_append])
  · intro careful before
    -- from the first command to the last one, as far as the run has come
    induction before using List.reverseRecOn with
    | nil =>
      intro _ _ db key value eq
      rw [executeAll, StorageInner.lookup_new] at eq
      cases eq
    | append_singleton before last ih =>
      obtain ⟨db, command⟩ := last
      intro after eq
      rw [List.append_assoc, List.singleton_append] at eq
      exact (step before (ih _ eq) db command).mpr (careful before db command after eq)

/-- `ZADD k XX 1 m` on the empty storage: the key is bound to a sorted set without members. -/
theorem zadd_leavesEmpty :
    @RedisStream.CommandParser.parse ⟨fun _ => false⟩
      [ascii "ZADD", ascii "k", ascii "XX", ascii "1", ascii "m"] =
        some (Command.zadd (ascii "k") [(.float (Binary64.ofInt 1), ascii "m")] [.xx],
        [ascii "k"]) ∧
    (@execute (.exact true) 0 (.zadd (ascii "k") [(.float (Binary64.ofInt 1), ascii "m")] [.xx])
      .new).1.lookup 0
      (ascii "k") = some (.zset .new) ∧
    StorageValue.holdsNothing (.zset .new) = true := by
  decide +kernel

end Veidrodelis.TsNif
