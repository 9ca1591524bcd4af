import Veidrodelis.TsNif.WriteCommands

/-!
# What a refused command leaves behind

Most commands look at everything that can make them fail before they change anything: when they
answer `Err`, every key is as it was (`KeepsOnError`). Three take an element before they look at the
type of the destination, and the `STORE` commands delete the destination before they look at the
sources. When this loses something is stated by `losesOnError`, on the storage before the command;
`errorAtomicity` says that a command loses something in an error exactly then.
-/

namespace Veidrodelis.TsNif
open RedisNif (Fault)
open RedisStream (Command ScoreTerm)
open StorageValue (lists sets hashes zsets)

/-- The result is `Err`. -/
def Refused {α : Type} (r : Except Fault α) : Prop := ∃ msg, r = .error (.err msg)

/-- A success is not refused. -/
@[simp] lemma not_refused_ok {α : Type} (a : α) : ¬ Refused (.ok a : Except Fault α) := nofun

/-- A panic is not a refusal. -/
@[simp] lemma not_refused_panic {α : Type} (msg : String) :
    ¬ Refused (.error (.panic msg) : Except Fault α) := nofun

/-- An error with a message is a refusal. -/
@[simp] lemma refused_err {α : Type} (msg : String) :
    Refused (.error (.err msg) : Except Fault α) :=
  ⟨msg, rfl⟩

/-- A wrong type is a refusal. -/
@[simp] lemma refused_wrongType {α : Type} : Refused (wrongType : Except Fault α) := ⟨_, rfl⟩

/-- A fault is one whatever the computation would have ended with. -/
lemma refused_error {α β : Type} (fault : Fault) :
    Refused (.error fault : Except Fault α) ↔ Refused (.error fault : Except Fault β) := by
  constructor
  · exact fun ⟨msg, eq⟩ => ⟨msg, congrArg Except.error (Except.error.inj eq)⟩
  · exact fun ⟨msg, eq⟩ => ⟨msg, congrArg Except.error (Except.error.inj eq)⟩

/-- A function of a result changes no refusal. -/
@[simp] lemma refused_map {α β : Type} {r : Except Fault α} {f : α → β} :
    Refused (r.map f) ↔ Refused r := by
  cases r with
  | ok a => exact iff_of_false (not_refused_ok _) (not_refused_ok _)
  | error fault => exact refused_error fault

/-- If the operation is refused, every key is bound to what it was. -/
def Op.KeepsOnError (op : Op) (s : StorageInner) : Prop := Refused (op s).2 → s.Same (op s).1

def SlotOp.KeepsOnError (op : SlotOp) : Prop := ∀ slot, Refused (op slot).2 → (op slot).1 = slot

/-! ## Commands that look before they change anything -/

section
variable {s : StorageInner}

/-- An operation that is not refused. -/
lemma done_keeps {op : Op} (h : (op s).2 = .ok ()) : op.KeepsOnError s := by
  intro refused
  rw [h] at refused
  exact absurd refused (not_refused_ok _)

/-- An operation that does nothing keeps the storage. -/
lemma idle_keeps (r : Except Fault Unit) : Op.KeepsOnError (fun s => (s, r)) s :=
  fun _ => .refl s

/-- An operation keeps the storage if it does for every argument that decodes. -/
lemma decoded_keeps {α : Type} {arg : Option α} {msg : String} {op : α → Op}
    (h : ∀ a, arg = some a → (op a).KeepsOnError s) : (decoded arg msg op).KeepsOnError s := by
  cases arg with
  | none => exact idle_keeps _
  | some a => exact h a rfl

/-- An operation that keeps its slot keeps the storage. -/
lemma atKey_keeps {op : SlotOp} (h : op.KeepsOnError) (db : Nat) (key : Bytes) :
    (atKey db key op).KeepsOnError s := by
  intro refused
  have kept := h _ refused
  unfold atKey
  simp only [kept]
  exact StorageInner.store_same

end

namespace Container

variable {α : Type} {c : Container α}

/-- An operation on a container that is there keeps the slot, if it keeps each container. -/
lemma existing_keeps {f : α → Slot × Except Fault Unit}
    (h : ∀ a, Refused (f a).2 → (f a).1 = some (c.wrap a)) : (c.existing f).KeepsOnError := by
  intro slot
  cases c.view slot with
  | vacant => exact fun _ => rfl
  | held a =>
    rw [existing_wrap]
    exact h a
  | other type =>
    rw [existing_other type]
    exact fun _ => rfl

/-- Nothing is refused on the container that is there. -/
lemma existing_done {f : α → Slot × Except Fault Unit} (h : ∀ a, (f a).2 = .ok ()) :
    (c.existing f).KeepsOnError :=
  existing_keeps fun a refused => absurd refused (by rw [h a]; exact not_refused_ok _)

/-- An operation on a container that is created keeps the slot, if it keeps each container. -/
lemma orInsert_keeps {f : α → α × Except Fault Unit} (new : ¬ Refused (f c.new).2)
    (h : ∀ a, Refused (f a).2 → (f a).1 = a) : (c.orInsert f).KeepsOnError := by
  intro slot
  cases c.view slot with
  | vacant => exact fun refused => absurd refused new
  | held a =>
    rw [orInsert_wrap]
    exact fun refused => congrArg (some ∘ c.wrap) (h a refused)
  | other type =>
    rw [orInsert_other type]
    exact fun _ => rfl

/-- An operation that is never refused keeps the slot. -/
lemma orInsert_done {f : α → α × Except Fault Unit} (h : ∀ a, (f a).2 = .ok ()) :
    (c.orInsert f).KeepsOnError :=
  orInsert_keeps (by rw [h c.new]; exact not_refused_ok _)
    fun a refused => absurd refused (by rw [h a]; exact not_refused_ok _)

end Container

/-- A refused `APPEND` keeps the slot. -/
lemma append_keeps (value : Bytes) : (append value).KeepsOnError
  | none, refused => absurd refused (not_refused_ok _)
  | some (.string _), refused => absurd refused (not_refused_ok _)
  | some (.set _), _ => rfl
  | some (.list _), _ => rfl
  | some (.hash _), _ => rfl
  | some (.zset _), _ => rfl

/-- A refused `SETRANGE` keeps the slot. -/
lemma setrange_keeps (offset : Nat) (value : Bytes) : (setrange offset value).KeepsOnError := by
  intro slot
  match slot with
  | none =>
    rw [setrange]
    cases overwrite offset value [] with
    | ok bytes => exact fun refused => absurd refused (not_refused_ok _)
    | error fault => exact fun _ => rfl
  | some (.string existing) =>
    rw [setrange]
    cases overwrite offset value existing with
    | ok bytes => exact fun refused => absurd refused (not_refused_ok _)
    | error fault => exact fun _ => rfl
  | some (.set _) => exact fun _ => rfl
  | some (.list _) => exact fun _ => rfl
  | some (.hash _) => exact fun _ => rfl
  | some (.zset _) => exact fun _ => rfl

/-- A refused command that counts keeps the slot. -/
lemma bump_keeps (overflow : String) (next : Int → Int) (fresh : Int) :
    (bump overflow next fresh).KeepsOnError := by
  intro slot
  match slot with
  | none =>
    rw [bump]
    split
    · exact fun refused => absurd refused (not_refused_ok _)
    · exact fun _ => rfl
  | some (.string existing) =>
    rw [bump]
    split
    · exact fun _ => rfl
    · split
      · exact fun refused => absurd refused (not_refused_ok _)
      · exact fun _ => rfl
  | some (.set _) => exact fun _ => rfl
  | some (.list _) => exact fun _ => rfl
  | some (.hash _) => exact fun _ => rfl
  | some (.zset _) => exact fun _ => rfl

/-- A refused `LREM` keeps the slot. -/
lemma lrem_keeps (count : Int) (value : Bytes) : (lrem count value).KeepsOnError := by
  apply Container.existing_keeps
  intro items
  split_ifs
  · exact fun refused => absurd refused (not_refused_ok _)
  · exact fun refused => absurd refused (not_refused_ok _)
  · exact fun refused => absurd refused (not_refused_ok _)
  · exact fun _ => rfl

/-- A refused `LTRIM` keeps the slot. -/
lemma ltrim_done (start stop : Int) : (ltrim start stop).KeepsOnError := by
  apply Container.existing_done
  intro items
  simp only
  split_ifs <;> rfl

/-- A refused `LSET` keeps the slot. -/
lemma lset_done (index : Int) (value : Bytes) : (lset index value).KeepsOnError := by
  apply Container.existing_done
  intro items
  simp only
  split_ifs <;> rfl

/-- A field that is not there counts as zero, so a new hash never refuses a number that fits. -/
lemma hincrby_keeps (field : Bytes) {delta : Int} (fits : inI64 delta) :
    (hincrby field delta).KeepsOnError := by
  apply Container.orInsert_keeps
  · simp [hashes, fits]
  · intro fields
    split
    · exact fun _ => rfl
    · split
      · exact fun refused => absurd refused (not_refused_ok _)
      · exact fun _ => rfl

/-- A refused `HINCRBYFLOAT` keeps the slot. -/
lemma hincrbyfloat_keeps (field : Bytes) (delta : Nat) :
    (hincrbyfloat field delta).KeepsOnError := by
  apply Container.orInsert_keeps
  · simp [hashes]
  · intro fields
    split
    · exact fun _ => rfl
    · exact fun refused => absurd refused (not_refused_ok _)

/-- A refused `ZADD` keeps the slot. -/
lemma zadd_keeps (members : List (Score × Bytes)) (options : List ZAddOption) :
    (zadd members options).KeepsOnError := by
  have added : (zsets.orInsert
    fun z => (z.add (.ofOptions options) members, .ok ())).KeepsOnError :=
    Container.orInsert_done fun _ => rfl
  intro slot
  unfold zadd
  simp only
  split_ifs
  · exact fun _ => rfl
  · exact fun _ => rfl
  · exact fun _ => rfl
  · exact added slot

/-- To pop members is never refused. -/
lemma popWith_not_refused {pop : ZSetIndex → Option (ZSetIndexKey × ZSetIndex)} (count : Nat)
    (z : ZSet) : ¬ Refused (z.popWith pop count).2 := by
  induction count generalizing z with
  | zero => exact not_refused_ok _
  | succ count ih =>
    rw [ZSet.popWith]
    cases pop z.index with
    | none => exact not_refused_ok _
    | some popped =>
      obtain ⟨k, index⟩ := popped
      cases k with
      | key score entry => exact ih _
      | minScoreKey => exact not_refused_panic _
      | maxScoreKey => exact not_refused_panic _
      | ref => exact not_refused_panic _

/-- To drop an empty sorted set is no refusal. -/
lemma afterRemoval_not_refused {r : ZSet × Except Fault Unit} (h : ¬ Refused r.2) :
    ¬ Refused (afterRemoval r).2 := by
  obtain ⟨z, result⟩ := r
  cases result with
  | ok => exact not_refused_ok _
  | error fault => exact h

/-- A refused `ZPOPMIN` or `ZPOPMAX` keeps the slot. -/
lemma zpop_keeps (pop : ZSetIndex → Option (ZSetIndexKey × ZSetIndex)) (count : Nat) :
    (zsets.existing fun z => afterRemoval (z.popWith pop count)).KeepsOnError := by
  apply Container.existing_keeps
  intro z refused
  exact absurd refused (afterRemoval_not_refused (popWith_not_refused count z))

/-- A refused range keeps the sorted set. -/
lemma removeRange_keeps (z : ZSet) (collected : Except Fault (List (Bytes × Score))) :
    Refused (removeRange z collected).2 → (removeRange z collected).1 = some (.zset z) := by
  cases collected with
  | ok members => exact fun refused => absurd refused (not_refused_ok _)
  | error fault => exact fun _ => rfl

/-- A refused `ZREMRANGEBYRANK` keeps the slot. -/
lemma zremrangebyrank_keeps (start stop : Int) : (zremrangebyrank start stop).KeepsOnError := by
  apply Container.existing_keeps
  intro z
  simp only
  split_ifs
  · exact fun _ => rfl
  · exact fun _ => rfl
  · exact removeRange_keeps z _

/-- A refused `ZREMRANGEBYSCORE` keeps the slot. -/
lemma zremrangebyscore_keeps [Indexset] (min max : Bound Score) :
    (zremrangebyscore min max).KeepsOnError :=
  Container.existing_keeps fun z => removeRange_keeps z _

/-- A refused `ZREMRANGEBYLEX` keeps the slot. -/
lemma zremrangebylex_keeps (min max : Bound Bytes) : (zremrangebylex min max).KeepsOnError :=
  Container.existing_keeps fun z => removeRange_keeps z _

/-- `RENAME` is never refused. -/
lemma rename_done (db : Nat) (oldKey newKey : Bytes) (s : StorageInner) :
    (rename db oldKey newKey s).2 = .ok () := by
  unfold rename
  split <;> rfl

/-- `RENAMENX` is never refused. -/
lemma renamenx_done (db : Nat) (oldKey newKey : Bytes) (s : StorageInner) :
    (renamenx db oldKey newKey s).2 = .ok () := by
  unfold renamenx
  split
  · rfl
  · exact rename_done db oldKey newKey s

/-- `MOVE` is never refused. -/
lemma moveKey_done (sourceDb destDb : Nat) (key : Bytes) (s : StorageInner) :
    (moveKey sourceDb destDb key s).2 = .ok () := by
  unfold moveKey
  split <;> rfl

/-- `COPY` is never refused. -/
lemma copyKey_done (db : Nat) (source destination : Bytes) (replace : Bool) (s : StorageInner) :
    (copyKey db source destination replace s).2 = .ok () := by
  unfold copyKey
  split
  · rfl
  · split <;> rfl

/-! ## Commands that take an element first -/

/-- What is in the slot is of another type. -/
def Container.isOther {α : Type} (c : Container α) : Slot → Bool
  | some value => (c.unwrap value).isNone
  | none => false

section
variable {α : Type} {c : Container α}

/-- A container is of its own type. -/
@[simp] lemma Container.isOther_wrap (a : α) : c.isOther (some (c.wrap a)) = false := by
  simp [Container.isOther]

/-- A container that is kept unless it is empty is of its own type. -/
lemma Container.isOther_unlessEmpty (a : α) : c.isOther (c.unlessEmpty a) = false := by
  unfold Container.unlessEmpty
  split
  · rfl
  · exact c.isOther_wrap a

/-- An operation on a container is refused at a key of another type. -/
lemma Container.refused_orInsert {f : α → α} {slot : Slot} :
    Refused (c.orInsert (fun a => (f a, .ok ())) slot).2 ↔ c.isOther slot := by
  cases c.view slot with
  | vacant => exact iff_of_false (not_refused_ok _) Bool.false_ne_true
  | held a =>
    rw [orInsert_wrap, isOther_wrap]
    exact iff_of_false (not_refused_ok _) Bool.false_ne_true
  | other type =>
    rw [orInsert_other type]
    exact iff_of_true refused_wrongType (by rw [isOther, type]; rfl)

/-- An element is taken from one key and then given to another one. -/
lemma taken_keeps {s : StorageInner} {db : Nat} {source destination : Bytes} {rest : Slot}
    {f : α → α} (taken : rest ≠ s.lookup db source) (own : c.isOther rest = false) :
    (Refused (atKey db destination (c.orInsert fun a => (f a, .ok ())) (s.store db source rest)).2 →
      s.Same (atKey db destination (c.orInsert fun a => (f a, .ok ()))
        (s.store db source rest)).1) ↔
      (source != destination && c.isOther (s.lookup db destination)) = false := by
  have there : (s.store db source rest).lookup db destination =
      if destination = source then rest else s.lookup db destination := by
    simp [StorageInner.lookup_store]
  have result : Refused (atKey db destination (c.orInsert fun a => (f a, .ok ()))
      (s.store db source rest)).2 ↔ c.isOther ((s.store db source rest).lookup db destination) :=
    c.refused_orInsert
  rw [result, there]
  by_cases same : destination = source
  · rw [if_pos same, own, same]
    simp
  · have differ : (source != destination) = true := by simpa using Ne.symm same
    rw [if_neg same, differ, Bool.true_and]
    constructor
    · intro keeps
      apply Bool.eq_false_iff.mpr
      intro other
      have kept := keeps other db source
      rw [atKey, StorageInner.lookup_store, if_neg (fun h => same h.2.symm),
        StorageInner.lookup_store, if_pos ⟨rfl, rfl⟩] at kept
      exact taken kept
    · intro fits refused
      rw [fits] at refused
      cases refused

end

/-- `SMOVE` finds the member, and a destination of another type. -/
def losesMember (s : StorageInner) (db : Nat) (sourceKey destKey member : Bytes) : Bool :=
  (match s.lookup db sourceKey with
    | some (.set members) => members.contains member
    | _ => false) &&
    (sourceKey != destKey && sets.isOther (s.lookup db destKey))

/-- `LMOVE` and `RPOPLPUSH` find an element, and a destination of another type. -/
def losesItem (s : StorageInner) (db : Nat) (sourceKey destKey : Bytes) : Bool :=
  (match s.lookup db sourceKey with
    | some (.list items) => !items.isEmpty
    | _ => false) &&
    (sourceKey != destKey && lists.isOther (s.lookup db destKey))

/-- A refused `SMOVE` keeps the storage just where it loses no member. -/
lemma smove_keeps (s : StorageInner) (db : Nat) (sourceKey destKey member : Bytes) :
    (smove db sourceKey destKey member).KeepsOnError s ↔
      losesMember s db sourceKey destKey member = false := by
  unfold Op.KeepsOnError smove losesMember
  cases e : s.lookup db sourceKey with
  | none => exact iff_of_true (fun _ => .refl s) rfl
  | some value =>
    cases value with
    | set members =>
      simp only
      by_cases mem : member ∈ members
      · rw [if_pos mem, Std.ExtTreeSet.contains_iff_mem.mpr mem, Bool.true_and]
        refine taken_keeps ?_ (Container.isOther_unlessEmpty _)
        rw [e, Container.unlessEmpty]
        split
        · rintro ⟨⟩
        · intro eq
          have same : members.erase member = members := StorageValue.set.inj (Option.some.inj eq)
          rw [← same] at mem
          simp at mem
      · rw [if_neg mem]
        exact iff_of_true (fun _ => .refl s) (by simp [mem])
    | string => exact iff_of_true (fun _ => .refl s) rfl
    | list => exact iff_of_true (fun _ => .refl s) rfl
    | hash => exact iff_of_true (fun _ => .refl s) rfl
    | zset => exact iff_of_true (fun _ => .refl s) rfl

/-- A list without one item is shorter by it. -/
lemma takeEnd_length {side : Side} {items rest : List Bytes} {item : Bytes}
    (h : takeEnd side items = some (item, rest)) : items.length = rest.length + 1 := by
  cases side with
  | left =>
    cases items with
    | nil => cases h
    | cons => cases h; rfl
  | right =>
    obtain ⟨last, isLast, eq⟩ := Option.map_eq_some_iff.mp h
    cases eq
    have nonempty : items ≠ [] := by
      rintro rfl
      cases isLast
    rw [List.length_dropLast]
    have := List.length_pos_of_ne_nil nonempty
    omega

/-- A refused `LMOVE` or `RPOPLPUSH` keeps the storage just where it loses no item. -/
lemma lmove_keeps (s : StorageInner) (db : Nat) (sourceKey destKey : Bytes)
    (wherefrom whereto : Side) :
    (lmove db sourceKey destKey wherefrom whereto).KeepsOnError s ↔
      losesItem s db sourceKey destKey = false := by
  unfold Op.KeepsOnError lmove losesItem
  by_cases same : sourceKey = destKey
  · simp only [if_pos same]
    refine iff_of_true (atKey_keeps (Container.existing_done fun items => ?_) db sourceKey)
      (by simp [same])
    split <;> rfl
  · simp only [if_neg same]
    cases e : s.lookup db sourceKey with
    | none => exact iff_of_true (fun _ => .refl s) rfl
    | some value =>
      cases value with
      | list items =>
        simp only
        cases taken : takeEnd wherefrom items with
        | none =>
          obtain rfl := takeEnd_eq_none.mp taken
          exact iff_of_true (fun _ => .refl s) rfl
        | some popped =>
          obtain ⟨item, rest⟩ := popped
          have len := takeEnd_length taken
          have nonempty : (!items.isEmpty) = true := by
            cases items with
            | nil => cases len
            | cons => rfl
          rw [nonempty, Bool.true_and]
          -- the list is not empty, so it is another one without the element
          refine taken_keeps ?_ (Container.isOther_unlessEmpty _)
          rw [e, Container.unlessEmpty]
          split
          · rintro ⟨⟩
          · intro eq
            have same : rest = items := StorageValue.list.inj (Option.some.inj eq)
            rw [same] at len
            omega
      | string => exact iff_of_true (fun _ => .refl s) rfl
      | set => exact iff_of_true (fun _ => .refl s) rfl
      | hash => exact iff_of_true (fun _ => .refl s) rfl
      | zset => exact iff_of_true (fun _ => .refl s) rfl

/-! ## Commands that delete their destination first -/

/-- A refused command that stores keeps the storage just where the destination was vacant. -/
lemma storeResult_keeps {α : Type} {c : Container α} {compute : StorageInner → Except Fault α}
    (s : StorageInner) (db : Nat) (destKey : Bytes) {fails : Bool}
    (h : Refused (compute (s.del db destKey)) ↔ fails) :
    (storeResult c db destKey compute).KeepsOnError s ↔
      ((s.lookup db destKey).isSome && fails) = false := by
  unfold Op.KeepsOnError storeResult
  simp only
  cases e : compute (s.del db destKey) with
  | ok a =>
    rw [e] at h
    have fine : fails = false := Bool.eq_false_iff.mpr fun f => not_refused_ok a (h.mpr f)
    exact iff_of_true (fun refused => absurd refused (not_refused_ok _)) (by simp [fine])
  | error fault =>
    rw [e] at h
    have refused : Refused (.error fault : Except Fault Unit) ↔ fails := by
      rw [← h]
      exact refused_error fault
    simp only [refused]
    constructor
    · intro keeps
      cases f : fails with
      | false => simp
      | true =>
        -- the destination is deleted in front of the error, so it must have been missing
        have kept := keeps f db destKey
        rw [StorageInner.lookup_del, if_pos ⟨rfl, rfl⟩] at kept
        rw [← kept]
        rfl
    · intro fine f
      rw [f, Bool.and_true, Option.isSome_eq_false_iff, Option.isNone_iff_eq_none] at fine
      intro db' key'
      rw [StorageInner.lookup_del]
      split
      · rename_i here
        rw [here.1, here.2, fine]
      · rfl

/-- A loop over the sources that ends at a missing one meets a value of another type. -/
def Container.meetsOther {α : Type} (c : Container α) : List Slot → Bool
  | [] => false
  | none :: _ => false
  | some value :: rest => c.isOther (some value) || c.meetsOther rest

section
variable (s : StorageInner) (db : Nat)

/-- The union is refused when a source is of another type. -/
lemma refused_unionFrom (acc : Std.ExtTreeSet Bytes compare) (keys : List Bytes) :
    Refused (unionFrom s db acc keys) ↔ (keys.map (s.lookup db)).any sets.isOther := by
  induction keys generalizing acc with
  | nil => exact iff_of_false (not_refused_ok _) Bool.false_ne_true
  | cons key rest ih =>
    rw [unionFrom, List.map_cons, List.any_cons]
    cases e : s.lookup db key with
    | none => simpa [Container.isOther] using ih acc
    | some value => cases value <;> simp [Container.isOther, sets, ih]

/-- The difference is refused when a source is of another type. -/
lemma refused_diffFrom (acc : Std.ExtTreeSet Bytes compare) (keys : List Bytes) :
    Refused (diffFrom s db acc keys) ↔ (keys.map (s.lookup db)).any sets.isOther := by
  induction keys generalizing acc with
  | nil => exact iff_of_false (not_refused_ok _) Bool.false_ne_true
  | cons key rest ih =>
    rw [diffFrom, List.map_cons, List.any_cons]
    cases e : s.lookup db key with
    | none => simpa [Container.isOther] using ih acc
    | some value => cases value <;> simp [Container.isOther, sets, ih]

/-- The intersection is refused when it meets a source of another type. -/
lemma refused_interFrom (acc : Std.ExtTreeSet Bytes compare) (keys : List Bytes) :
    Refused (interFrom s db acc keys) ↔ sets.meetsOther (keys.map (s.lookup db)) := by
  induction keys generalizing acc with
  | nil => exact iff_of_false (not_refused_ok _) Bool.false_ne_true
  | cons key rest ih =>
    rw [interFrom, List.map_cons]
    cases e : s.lookup db key with
    | none => simp [Container.meetsOther]
    | some value => cases value <;> simp [Container.meetsOther, Container.isOther, sets, ih]

/-- The difference of sorted sets is refused when a source is of another type. -/
lemma refused_zdiffFrom (acc : Std.ExtTreeMap Bytes Score compare) (keys : List Bytes) :
    Refused (zdiffFrom s db acc keys) ↔ (keys.map (s.lookup db)).any zsets.isOther := by
  induction keys generalizing acc with
  | nil => exact iff_of_false (not_refused_ok _) Bool.false_ne_true
  | cons key rest ih =>
    rw [zdiffFrom, List.map_cons, List.any_cons]
    cases e : s.lookup db key with
    | none => simpa [Container.isOther] using ih acc
    | some value => cases value <;> simp [Container.isOther, zsets, ih]

/-- The union of sorted sets is refused when a source is of another type. -/
lemma refused_zunionFrom (acc : WeightedScores) (keys : List Bytes) (weights : List Score) :
    Refused (zunionFrom s db acc keys weights) ↔ (keys.map (s.lookup db)).any zsets.isOther := by
  induction keys generalizing acc weights with
  | nil => exact iff_of_false (not_refused_ok _) Bool.false_ne_true
  | cons key rest ih =>
    rw [zunionFrom, List.map_cons, List.any_cons]
    cases e : s.lookup db key with
    | none => simpa [Container.isOther] using ih acc _
    | some value => cases value <;> simp [Container.isOther, zsets, ih]

/-- The loop of `zinterstore` meets a value of another type while the sorted sets until there still
have a member in common. -/
def meetsOtherZSet (common : List Bytes) : List Slot → Bool
  | some (.zset z) :: rest =>
    let common := common.filter fun member => z.entries.contains member
    !common.isEmpty && meetsOtherZSet common rest
  | some _ :: _ => true
  | none :: _ => false
  | [] => false

/-- The members that a sorted set has in common with those so far. -/
lemma common_filterMap {acc : WeightedScores} {common : List Bytes}
    (same : ∀ member, member ∈ common ↔ member ∈ acc) (z : ZSet) (weight : Score) (member : Bytes) :
    member ∈ common.filter (fun member => z.entries.contains member) ↔
      member ∈ acc.filterMap fun member scores =>
        z.entries[member]?.map fun score => scores ++ [Binary64.mul score weight] := by
  rw [List.mem_filter, same, Std.ExtTreeMap.mem_filterMap]
  constructor
  · rintro ⟨mem, held⟩
    exact ⟨mem, by simpa using held⟩
  · rintro ⟨mem, held⟩
    exact ⟨mem, by simpa using held⟩

/-- Scores of the same members are empty together. -/
lemma isEmpty_of_mem {acc : WeightedScores} {common : List Bytes}
    (same : ∀ member, member ∈ common ↔ member ∈ acc) : acc.isEmpty = common.isEmpty := by
  rw [← Std.ExtTreeMap.isEmpty_keys, Bool.eq_iff_iff, List.isEmpty_iff, List.isEmpty_iff,
    List.eq_nil_iff_forall_not_mem, List.eq_nil_iff_forall_not_mem]
  simp [same]

/-- The intersection of sorted sets is refused when it meets a source of another type. -/
lemma refused_zinterFrom {acc : WeightedScores} {common : List Bytes}
    (same : ∀ member, member ∈ common ↔ member ∈ acc) (keys : List Bytes) (weights : List Score) :
    Refused (zinterFrom s db acc keys weights) ↔
      meetsOtherZSet common (keys.map (s.lookup db)) := by
  induction keys generalizing acc common weights with
  | nil => exact iff_of_false (not_refused_ok _) Bool.false_ne_true
  | cons key rest ih =>
    rw [zinterFrom, List.map_cons]
    cases e : s.lookup db key with
    | none => simp [meetsOtherZSet]
    | some value =>
      cases value with
      | zset z =>
        rw [meetsOtherZSet]
        simp only
        have kept := common_filterMap same z (nextWeight weights).1
        rw [isEmpty_of_mem kept]
        cases isEmpty : (common.filter fun member => z.entries.contains member).isEmpty with
        | true => simp
        | false => simpa using ih kept _
      | string => simp [meetsOtherZSet]
      | list => simp [meetsOtherZSet]
      | set => simp [meetsOtherZSet]
      | hash => simp [meetsOtherZSet]

end

/-! ### Stored ranges -/

/-- A bound of `ZRANGESTORE` does not parse. -/
def malformed (options : RangeOptions) (minStr maxStr : Bytes) : Bool :=
  if options.byLex then !(parseLexBound minStr).isOk || !(parseLexBound maxStr).isOk
  else if options.byScore then !(parseScoreBound minStr).isOk || !(parseScoreBound maxStr).isOk
  else (parseI64 minStr).isNone || (parseI64 maxStr).isNone

/-- A name bound is refused when it does not parse. -/
lemma refused_parseLexBound (text : Bytes) :
    Refused (parseLexBound text) ↔ !(parseLexBound text).isOk := by
  unfold parseLexBound
  split
  · simp [Except.isOk, Except.toBool]
  · split <;> simp [Except.isOk, Except.toBool]

/-- A score bound is refused when it does not parse. -/
lemma refused_parseScoreBound (text : Bytes) :
    Refused (parseScoreBound text) ↔ !(parseScoreBound text).isOk := by
  unfold parseScoreBound parseScore
  split
  · simp [Except.isOk, Except.toBool]
  · split
    · split <;> simp [Except.isOk, Except.toBool, Except.map]
    · split <;> simp [Except.isOk, Except.toBool, Except.map]

/-- Two bounds are parsed and then members collected, which is never refused. -/
lemma refused_bounds {α β : Type} {parse : Bytes → Except Fault α} {range : α → α → Except Fault β}
    (only : ∀ text, Refused (parse text) ↔ !(parse text).isOk)
    (never : ∀ a b, ¬ Refused (range a b)) (minStr maxStr : Bytes) :
    Refused (do
      let minBound ← parse minStr
      let maxBound ← parse maxStr
      range minBound maxBound) ↔ !(parse minStr).isOk || !(parse maxStr).isOk := by
  have first := only minStr
  have second := only maxStr
  cases e : parse minStr with
  | error fault =>
    rw [e] at first
    exact iff_of_true ((refused_error fault).mp (first.mpr rfl))
      (by simp [Except.isOk, Except.toBool])
  | ok minBound =>
    cases e' : parse maxStr with
    | error fault =>
      rw [e'] at second
      exact iff_of_true ((refused_error fault).mp (second.mpr rfl))
        (by simp [Except.isOk, Except.toBool])
    | ok maxBound => exact iff_of_false (never _ _) (by simp [Except.isOk, Except.toBool])

/-- To read members off the index is never refused. -/
lemma membersOf_not_refused (keys : List ZSetIndexKey) : ¬ Refused (ZSet.membersOf keys) := by
  induction keys with
  | nil => exact not_refused_ok _
  | cons k keys ih =>
    cases k with
    | key score entry =>
      rw [ZSet.membersOf_key]
      cases e : ZSet.membersOf keys with
      | ok members => exact not_refused_ok _
      | error fault =>
        rw [e] at ih
        exact fun refused => ih ((refused_error fault).mp refused)
    | minScoreKey => exact not_refused_panic _
    | maxScoreKey => exact not_refused_panic _
    | ref => exact not_refused_panic _

/-- A range of scores is never refused. -/
lemma scoreRange_not_refused [Indexset] (z : ZSet) (min max : Bound Score) :
    ¬ Refused (z.scoreRange min max) := by
  unfold ZSet.scoreRange
  split
  · exact not_refused_panic _
  · have silent :=
      membersOf_not_refused (Indexset.range (ZSet.minKey min) (ZSet.maxKey max) z.index)
    cases e : ZSet.membersOf (Indexset.range (ZSet.minKey min) (ZSet.maxKey max) z.index) with
    | ok members => exact not_refused_ok _
    | error fault =>
      rw [e] at silent
      exact fun refused => silent ((refused_error fault).mp refused)

/-- A range of names is never refused. -/
lemma lexRange_not_refused (z : ZSet) (min max : Bound Bytes) : ¬ Refused (z.lexRange min max) := by
  unfold ZSet.lexRange
  split
  · exact not_refused_panic _
  · exact not_refused_ok _

/-- A range of ranks is never refused. -/
lemma ranks_not_refused (z : ZSet) (start stop : Nat) :
    ¬ Refused (if start ≤ stop ∧ start < z.len then z.rankRange start stop else .ok []) := by
  split
  · exact membersOf_not_refused _
  · exact not_refused_ok _

/-- The range of `ZRANGESTORE` is refused when a bound is malformed. -/
lemma refused_collectRange [Indexset] (z : ZSet) (minStr maxStr : Bytes) (options : RangeOptions) :
    Refused (collectRange z minStr maxStr options) ↔ malformed options minStr maxStr := by
  unfold collectRange malformed
  split
  · exact refused_bounds refused_parseLexBound (lexRange_not_refused z) _ _
  · split
    · exact refused_bounds refused_parseScoreBound (scoreRange_not_refused z) _ _
    · cases parseI64 minStr with
      | none => exact iff_of_true (refused_err _) rfl
      | some minRank =>
        cases parseI64 maxStr with
        | none => exact iff_of_true (refused_err _) rfl
        | some maxRank =>
          refine iff_of_false ?_ (by simp)
          exact ranks_not_refused z _ _

/-- `ZRANGESTORE` finds a value of another type, or a member and a bound that does not parse. -/
def refusesRange (slot : Slot) (minStr maxStr : Bytes) (options : RangeOptions) : Bool :=
  match slot with
  | some (.zset z) => !z.isEmpty && malformed options minStr maxStr
  | some _ => true
  | none => false

/-- A refused `ZRANGESTORE` keeps the storage just where the destination was vacant. -/
lemma zrangestore_keeps [Indexset] (s : StorageInner) (db : Nat)
    (destKey sourceKey minStr maxStr : Bytes) (options : RangeOptions) :
    (zrangestore db destKey sourceKey minStr maxStr options).KeepsOnError s ↔
      ((s.lookup db destKey).isSome && refusesRange (s.source db destKey sourceKey) minStr
      maxStr options) = false := by
  apply storeResult_keeps
  rw [lookup_source]
  cases s.source db destKey sourceKey with
  | none => simp [refusesRange]
  | some value =>
    cases value with
    | zset z =>
      simp only [refusesRange]
      cases isEmpty : z.isEmpty with
      | true => simp
      | false => simpa using refused_collectRange z minStr maxStr options
    | string => simp [refusesRange]
    | list => simp [refusesRange]
    | set => simp [refusesRange]
    | hash => simp [refusesRange]

/-! ## All commands -/

/-- When a command loses something in an error: an element that was taken already, or the
destination that was deleted already. -/
def StorageInner.losesOnError (s : StorageInner) (db : Nat) : Command → Bool
  | .smove source destination member => losesMember s db source destination member
  | .rpoplpush source destination => losesItem s db source destination
  | .lmove source destination _ _ => losesItem s db source destination
  | .sunionstore destination sources =>
    (s.lookup db destination).isSome && (sources.map (s.source db destination)).any sets.isOther
  | .sdiffstore destination sources =>
    (s.lookup db destination).isSome && (sources.map (s.source db destination)).any sets.isOther
  | .sinterstore destination sources =>
    (s.lookup db destination).isSome &&
      match sources.map (s.source db destination) with
      | first :: rest => sets.isOther first || sets.meetsOther rest
      | [] => false
  | .zunionstore destination sources weights _ =>
    (weights.mapM decodeF64).isSome && ((s.lookup db destination).isSome &&
      (sources.map (s.source db destination)).any zsets.isOther)
  | .zinterstore destination sources weights _ =>
    (weights.mapM decodeF64).isSome && ((s.lookup db destination).isSome &&
      match sources.map (s.source db destination) with
      | some (.zset z) :: rest => meetsOtherZSet z.entries.keys rest
      | some _ :: _ => true
      | _ => false)
  | .zdiffstore destination sources =>
    (s.lookup db destination).isSome &&
      match sources.map (s.source db destination) with
      | some (.zset _) :: rest => rest.any zsets.isOther
      | some _ :: _ => true
      | _ => false
  | .zrangestore destination source min max options =>
    match decodeString min, decodeString max, options.mapM decodeString with
    | some min, some max, some options =>
      (s.lookup db destination).isSome && refusesRange (s.source db destination source) min max
        (rangeOptions ⟨false, false, false, none⟩ options)
    | _, _, _ => false
  | _ => false

/-- The sources behind the deletion of the destination. -/
lemma map_source (s : StorageInner) (db : Nat) (destKey : Bytes) (keys : List Bytes) :
    keys.map ((s.del db destKey).lookup db) = keys.map (s.source db destKey) :=
  List.map_congr_left fun key _ => lookup_source s db destKey key

section
variable (s : StorageInner) (db : Nat) (destKey : Bytes) (keys : List Bytes)

/-- A refused `SUNIONSTORE` keeps the storage just where nothing is lost. -/
lemma sunionstore_keeps : (sunionstore db destKey keys).KeepsOnError s ↔
    s.losesOnError db (.sunionstore destKey keys) = false := by
  apply storeResult_keeps
  rw [refused_unionFrom, map_source]

/-- A refused `SDIFFSTORE` keeps the storage just where nothing is lost. -/
lemma sdiffstore_keeps : (sdiffstore db destKey keys).KeepsOnError s ↔
    s.losesOnError db (.sdiffstore destKey keys) = false := by
  apply storeResult_keeps
  rw [← map_source]
  cases keys with
  | nil => simp [fromFirst]
  | cons first rest =>
    rw [fromFirst, List.map_cons, List.any_cons]
    cases (s.del db destKey).lookup db first with
    | none => simp [Container.isOther, refused_diffFrom]
    | some value => cases value <;> simp [Container.isOther, sets, refused_diffFrom]

/-- A refused `SINTERSTORE` keeps the storage just where nothing is lost. -/
lemma sinterstore_keeps : (sinterstore db destKey keys).KeepsOnError s ↔
    s.losesOnError db (.sinterstore destKey keys) = false := by
  apply storeResult_keeps
  rw [← map_source]
  cases keys with
  | nil => simp [fromFirst]
  | cons first rest =>
    rw [fromFirst, List.map_cons]
    cases (s.del db destKey).lookup db first with
    | none => simp [Container.isOther, refused_interFrom]
    | some value => cases value <;> simp [Container.isOther, sets, refused_interFrom]

/-- A refused `ZDIFFSTORE` keeps the storage just where nothing is lost. -/
lemma zdiffstore_keeps : (zdiffstore db destKey keys).KeepsOnError s ↔
    s.losesOnError db (.zdiffstore destKey keys) = false := by
  apply storeResult_keeps
  rw [← map_source]
  cases keys with
  | nil => simp
  | cons first rest =>
    rw [List.map_cons]
    simp only
    cases (s.del db destKey).lookup db first with
    | none => simp
    | some value => cases value <;> simp [refused_zdiffFrom]

variable {weights : List ScoreTerm} {decodedWeights : List Score} (aggregate : Aggregate)

/-- A refused `ZUNIONSTORE` keeps the storage just where nothing is lost. -/
lemma zunionstore_keeps (here : weights.mapM decodeF64 = some decodedWeights) :
    (zunionstore db destKey keys decodedWeights aggregate).KeepsOnError s ↔
      s.losesOnError db (.zunionstore destKey keys weights aggregate) = false := by
  rw [StorageInner.losesOnError, here, Option.isSome_some, Bool.true_and]
  apply storeResult_keeps
  rw [refused_map, refused_zunionFrom, map_source]

/-- A refused `ZINTERSTORE` keeps the storage just where nothing is lost. -/
lemma zinterstore_keeps (here : weights.mapM decodeF64 = some decodedWeights) :
    (zinterstore db destKey keys decodedWeights aggregate).KeepsOnError s ↔
      s.losesOnError db (.zinterstore destKey keys weights aggregate) = false := by
  rw [StorageInner.losesOnError, here, Option.isSome_some, Bool.true_and]
  apply storeResult_keeps
  rw [← map_source]
  cases keys with
  | nil => simp
  | cons first rest =>
    rw [List.map_cons]
    simp only
    cases (s.del db destKey).lookup db first with
    | none => simp
    | some value =>
      cases value with
      | zset z =>
        simp only
        rw [refused_map]
        apply refused_zinterFrom
        simp
      | string => simp
      | list => simp
      | set => simp
      | hash => simp

end

/-- A command that is ignored keeps the storage. -/
lemma ignored_keeps {s : StorageInner} : ignored.KeepsOnError s := idle_keeps _

/-- A command that is unknown keeps the storage. -/
lemma unknown_keeps {s : StorageInner} : unknown.KeepsOnError s := idle_keeps _

/-- What is written out for all commands: most of them never lose anything, and the others when
`losesOnError` says so. -/
lemma dispatch_keeps [Indexset] (s : StorageInner) (db : Nat) (command : Command) :
    (dispatch db command).KeepsOnError s ↔ s.losesOnError db command = false := by
  have always {op : Op} (h : op.KeepsOnError s) : op.KeepsOnError s ↔ false = false :=
    iff_of_true h rfl
  cases command with
  | set => exact always (done_keeps rfl)
  | del => exact always (done_keeps rfl)
  | mset => exact always (done_keeps rfl)
  | msetex => exact always (done_keeps rfl)
  | pexpireat => exact always ignored_keeps
  | persist => exact always ignored_keeps
  | copy => exact always (done_keeps (copyKey_done _ _ _ _ _))
  | rename => exact always (done_keeps (rename_done _ _ _ _))
  | renamenx => exact always (done_keeps (renamenx_done _ _ _ _))
  | moveKey => exact always (decoded_keeps fun _ _ => done_keeps (moveKey_done _ _ _ _))
  | append => exact always (atKey_keeps (append_keeps _) _ _)
  | setrange => exact always (decoded_keeps fun _ _ => atKey_keeps (setrange_keeps _ _) _ _)
  | incr => exact always (atKey_keeps (bump_keeps _ _ _) _ _)
  | incrby => exact always (decoded_keeps fun _ _ => atKey_keeps (bump_keeps _ _ _) _ _)
  | decr => exact always (atKey_keeps (bump_keeps _ _ _) _ _)
  | decrby => exact always (decoded_keeps fun _ _ => atKey_keeps (bump_keeps _ _ _) _ _)
  | setnx => exact always (done_keeps rfl)
  | msetnx => exact always (done_keeps rfl)
  | getset => exact always (done_keeps rfl)
  | getdel => exact always (done_keeps rfl)
  | sadd => exact always (atKey_keeps (Container.orInsert_done fun _ => rfl) _ _)
  | srem => exact always (atKey_keeps (Container.existing_done fun _ => rfl) _ _)
  | smove => exact smove_keeps _ _ _ _ _
  | sunionstore => exact sunionstore_keeps _ _ _ _
  | sinterstore => exact sinterstore_keeps _ _ _ _
  | sdiffstore => exact sdiffstore_keeps _ _ _ _
  | lpush => exact always (atKey_keeps (Container.orInsert_done fun _ => rfl) _ _)
  | rpush => exact always (atKey_keeps (Container.orInsert_done fun _ => rfl) _ _)
  | lpop => exact always (atKey_keeps (Container.existing_done fun _ => rfl) _ _)
  | rpop => exact always (atKey_keeps (Container.existing_done fun _ => rfl) _ _)
  | lset => exact always (decoded_keeps fun _ _ => atKey_keeps (lset_done _ _) _ _)
  | rpoplpush =>
    rw [dispatch, rpoplpush_eq]
    exact lmove_keeps _ _ _ _ _ _
  | lpopCount =>
    exact always (decoded_keeps fun _ _ => atKey_keeps (Container.existing_done fun _ => rfl) _ _)
  | rpopCount =>
    exact always (decoded_keeps fun _ _ => atKey_keeps (Container.existing_done fun _ => rfl) _ _)
  | lmove => exact lmove_keeps _ _ _ _ _ _
  | lpushx => exact always (atKey_keeps (Container.existing_done fun _ => rfl) _ _)
  | rpushx => exact always (atKey_keeps (Container.existing_done fun _ => rfl) _ _)
  | lrem => exact always (decoded_keeps fun _ _ => atKey_keeps (lrem_keeps _ _) _ _)
  | ltrim => exact always (decoded_keeps fun _ _ => atKey_keeps (ltrim_done _ _) _ _)
  | linsert => exact always (atKey_keeps (Container.existing_done fun _ => rfl) _ _)
  | hset => exact always (atKey_keeps (Container.orInsert_done fun _ => rfl) _ _)
  | hmset => exact always (atKey_keeps (Container.orInsert_done fun _ => rfl) _ _)
  | hdel => exact always (atKey_keeps (Container.existing_done fun _ => rfl) _ _)
  | hgetdel => exact always (atKey_keeps (Container.existing_done fun _ => rfl) _ _)
  | hsetnx => exact always (atKey_keeps (Container.orInsert_done fun _ => rfl) _ _)
  | hincrby =>
    exact always (decoded_keeps
      fun _ here => atKey_keeps (hincrby_keeps _ (decodeI64_fits here)) _ _)
  | hincrbyfloat => exact always (decoded_keeps fun _ _ => atKey_keeps (hincrbyfloat_keeps _ _) _ _)
  | hsetex => exact always (atKey_keeps (Container.orInsert_done fun _ => rfl) _ _)
  | zadd => exact always (atKey_keeps (zadd_keeps _ _) _ _)
  | zrem => exact always (atKey_keeps (Container.existing_done fun _ => rfl) _ _)
  | zpopmax => exact always (decoded_keeps fun _ _ => atKey_keeps (zpop_keeps _ _) _ _)
  | zpopmin => exact always (decoded_keeps fun _ _ => atKey_keeps (zpop_keeps _ _) _ _)
  | zremrangebyrank =>
    exact always (decoded_keeps fun _ _ => atKey_keeps (zremrangebyrank_keeps _ _) _ _)
  | zremrangebyscore =>
    exact always (decoded_keeps fun _ _ => atKey_keeps (zremrangebyscore_keeps _ _) _ _)
  | zremrangebylex => exact always (atKey_keeps (zremrangebylex_keeps _ _) _ _)
  | zunionstore destination sources weights aggregate =>
    rw [dispatch, zstore]
    cases here : weights.mapM decodeF64 with
    | none => exact iff_of_true (idle_keeps _) (by simp [StorageInner.losesOnError, here])
    | some decodedWeights => exact zunionstore_keeps _ _ _ _ aggregate here
  | zinterstore destination sources weights aggregate =>
    rw [dispatch, zstore]
    cases here : weights.mapM decodeF64 with
    | none => exact iff_of_true (idle_keeps _) (by simp [StorageInner.losesOnError, here])
    | some decodedWeights => exact zinterstore_keeps _ _ _ _ aggregate here
  | zdiffstore => exact zdiffstore_keeps _ _ _ _
  | zrangestore destination source min max options =>
    rw [dispatch, handleZrangestore, StorageInner.losesOnError]
    cases decodeString min with
    | none => exact iff_of_true (idle_keeps _) rfl
    | some min =>
      cases decodeString max with
      | none => exact iff_of_true (idle_keeps _) rfl
      | some max =>
        cases options.mapM decodeString with
        | none => exact iff_of_true (idle_keeps _) rfl
        | some options => exact zrangestore_keeps _ _ _ _ _ _ _
  | zincrby =>
    exact always (decoded_keeps fun _ _ => atKey_keeps (Container.orInsert_done fun _ => rfl) _ _)
  | flushall => exact always (done_keeps rfl)
  | flushdb => exact always (done_keeps rfl)
  | swapdb => exact always (decoded_keeps fun _ _ => done_keeps rfl)
  | setbit => exact always unknown_keeps
  | hpexpireat => exact always unknown_keeps
  | hpersist => exact always unknown_keeps
  | generic => exact always unknown_keeps

/-- A command that answers `Err` leaves every key of every database as it was, exactly when it does
not lose something in the error. -/
theorem errorAtomicity [Indexset] (s : StorageInner) (db : Nat) (command : Command) :
    ((∃ msg, (execute db command s).2 = .error (.err msg)) →
      ∀ db' key, (execute db command s).1.lookup db' key = s.lookup db' key) ↔
      ¬ (db < 2 ^ 64 ∧ s.losesOnError db command = true) := by
  by_cases small : db < 2 ^ 64
  · rw [execute_of_lt small]
    refine (dispatch_keeps s db command).trans ?_
    rw [Bool.eq_false_iff]
    exact ⟨fun keeps h => keeps h.2, fun h loses => h ⟨small, loses⟩⟩
  · rw [execute_of_ge small]
    exact iff_of_true (fun _ _ _ => rfl) fun h => small h.1

/-- A set, and a string where `SMOVE` is to put its member. -/
def setAndString : StorageInner :=
  (StorageInner.new.put 0 (ascii "src") (.set {ascii "m"})).put 0 (ascii "dst")
    (.string (ascii "v"))

/-- `SMOVE src dst m`, when `dst` is a string: `Err`, and the member is in no set any more. -/
theorem smove_loses :
    @RedisStream.CommandParser.parse ⟨fun _ => false⟩
      [ascii "SMOVE", ascii "src", ascii "dst", ascii "m"] =
        some (Command.smove (ascii "src") (ascii "dst") (ascii "m"), [ascii "src", ascii "dst"]) ∧
    (@execute (.exact true) 0 (.smove (ascii "src") (ascii "dst") (ascii "m")) setAndString).2 =
      wrongType ∧
    setAndString.lookup 0 (ascii "src") = some (.set {ascii "m"}) ∧
    (@execute (.exact true) 0
      (.smove (ascii "src") (ascii "dst") (ascii "m")) setAndString).1.lookup 0
      (ascii "src") = none := by
  decide +kernel

end Veidrodelis.TsNif
