import Veidrodelis.TsNif.WriteCommands

/-!
# The two sides of a sorted set

`ZSet.Consistent`: the index of a sorted set holds exactly the members with the scores that the
entries give them. Every command keeps it (`dispatch_consistent`), so it holds in every storage that
commands make out of the empty one (`dualIndex`).
-/

namespace Veidrodelis.TsNif
open RedisNif (Fault)
open RedisStream (Command)

namespace ZSet

/-- The index holds the members with their scores, and nothing else. -/
def Consistent (z : ZSet) : Prop :=
  ∀ k, k ∈ z.index.elems ↔ ∃ member score, z.entries[member]? = some score ∧ k = .key score member

/-! ## Keys -/

/-- Keys compare equal when they have the same place. -/
lemma cmp_eq {k k' : ZSetIndexKey} : k.cmp k' = .eq ↔
    Binary64.place k.score = Binary64.place k'.score ∧ k.side = k'.side ∧ k.entry = k'.entry := by
  rw [ZSetIndexKey.cmp, compareLex_eq_eq, compareLex_eq_eq]
  simp only [compareOn, Std.LawfulEqCmp.compare_eq_iff_eq]

/-- A borrowed key compares equal to the same score and member. -/
lemma ref_cmp_key {score score' : Score} {member member' : Bytes} :
    (ZSetIndexKey.ref score member).cmp (.key score' member') = .eq ↔
      Binary64.place score = Binary64.place score' ∧ member = member' := by
  simp [cmp_eq, ZSetIndexKey.score, ZSetIndexKey.side, ZSetIndexKey.entry]

/-- Keys compare equal with the same score and member. -/
lemma key_cmp_key {score score' : Score} {member member' : Bytes} :
    (ZSetIndexKey.key score member).cmp (.key score' member') = .eq ↔
      Binary64.place score = Binary64.place score' ∧ member = member' := by
  simp [cmp_eq, ZSetIndexKey.score, ZSetIndexKey.side, ZSetIndexKey.entry]

variable {z : ZSet} {score old : Score} {member : Bytes}

/-! ## Single members -/

/-- An empty sorted set is consistent. -/
lemma new_consistent : new.Consistent := by
  intro k
  simp [new, OrderedSet.elems_empty]

/-- A new member. -/
lemma insert_consistent (h : z.Consistent) (absent : z.entries[member]? = none) :
    (z.insert score member).Consistent := by
  have fresh : ∀ k ∈ z.index.elems, (ZSetIndexKey.key score member).cmp k ≠ .eq := by
    intro k mem eq
    obtain ⟨member', score', entry, rfl⟩ := (h k).mp mem
    rw [← (key_cmp_key.mp eq).2, absent] at entry
    cases entry
  intro k
  rw [insert, OrderedSet.mem_insert fresh, h k]
  simp only [Std.ExtTreeMap.getElem?_insert, Std.LawfulEqCmp.compare_eq_iff_eq]
  constructor
  · rintro (rfl | ⟨member', score', entry, rfl⟩)
    · exact ⟨member, score, by simp⟩
    · refine ⟨member', score', ?_, rfl⟩
      have other : member ≠ member' := by
        rintro rfl
        rw [absent] at entry
        cases entry
      rw [if_neg other, entry]
  · rintro ⟨member', score', entry, rfl⟩
    split at entry
    · rename_i same
      obtain rfl := Option.some.inj entry
      exact .inl (by rw [same])
    · exact .inr ⟨member', score', entry, rfl⟩

/-- A member goes, if it is there at all. -/
lemma forget_consistent (h : z.Consistent)
    (known : ∀ other, z.entries[member]? = some other → other = score) :
    (z.forget member score).Consistent := by
  intro k
  rw [forget, OrderedSet.mem_remove, h k]
  simp only [Std.ExtTreeMap.getElem?_erase, Std.LawfulEqCmp.compare_eq_iff_eq]
  constructor
  · rintro ⟨⟨member', score', entry, rfl⟩, ne⟩
    refine ⟨member', score', ?_, rfl⟩
    have other : member ≠ member' := by
      rintro rfl
      exact ne (ref_cmp_key.mpr ⟨by rw [known _ entry], rfl⟩)
    rw [if_neg other, entry]
  · rintro ⟨member', score', entry, rfl⟩
    split at entry
    · cases entry
    · rename_i other
      exact ⟨⟨member', score', entry, rfl⟩, fun eq => other (ref_cmp_key.mp eq).2⟩

/-- A new score for a member is a removal and an insert. -/
lemma replace_eq : { z with index := z.index.remove (.ref old member) }.insert score member =
    (z.forget member old).insert score member := by
  have entries : z.entries.insert member score = (z.entries.erase member).insert member score := by
    apply Std.ExtTreeMap.ext_getElem?
    intro other
    simp only [Std.ExtTreeMap.getElem?_insert, Std.ExtTreeMap.getElem?_erase]
    split <;> rfl
  simp only [insert, forget, entries]

/-- A member that gets another score moves in the index. -/
lemma replace_consistent (h : z.Consistent) (present : z.entries[member]? = some old) :
    ({ z with index := z.index.remove (.ref old member) }.insert score member).Consistent := by
  rw [replace_eq]
  apply insert_consistent
  · apply forget_consistent h
    intro other entry
    rw [present] at entry
    exact (Option.some.inj entry).symm
  · simp [forget]

/-- To add a member keeps map and index consistent. -/
lemma addMember_consistent (flags : ZAddFlags) (h : z.Consistent) :
    (z.addMember flags score member).Consistent := by
  unfold addMember
  cases present : z.entries[member]? with
  | none =>
    have added := fun score => @insert_consistent z score member h present
    simp only
    split_ifs
    · exact h
    · exact h
    · exact added _
    · exact added _
  | some old =>
    have replaced := fun score => @replace_consistent z score old member h present
    simp only
    split_ifs
    · exact h
    · exact h
    · exact h
    · exact h
    · exact replaced _
    · exact h
    · exact h
    · exact replaced _

/-- To add members keeps map and index consistent. -/
lemma add_consistent (flags : ZAddFlags) (members : List (Score × Bytes)) (h : z.Consistent) :
    (z.add flags members).Consistent := by
  unfold add
  induction members generalizing z with
  | nil => exact h
  | cons first rest ih => exact ih (addMember_consistent flags h)

/-- To increment a score keeps map and index consistent. -/
lemma incrBy_consistent (h : z.Consistent) : (z.incrBy score member).Consistent := by
  unfold incrBy
  cases present : z.entries[member]? with
  | none =>
    have absent : member ∉ z.entries := by simpa using present
    have zero : Score.cmp 0 0 = .eq := Std.ReflCmp.compare_self
    simp only [Option.getD_none, zero, ne_eq, not_true_eq_false, absent, or_self, if_false]
    exact insert_consistent h present
  | some old =>
    have there : member ∈ z.entries :=
      Std.ExtTreeMap.mem_iff_isSome_getElem?.mpr (by simp [present])
    simp only [Option.getD_some, there, or_true, if_true]
    exact replace_consistent h present

/-- To remove a member keeps map and index consistent. -/
lemma removeMember_consistent (h : z.Consistent) : (z.removeMember member).Consistent := by
  unfold removeMember
  cases present : z.entries[member]? with
  | none => exact h
  | some score =>
    apply forget_consistent h
    intro other entry
    rw [present] at entry
    exact (Option.some.inj entry).symm

/-! ## Many members -/

/-- To remove members keeps map and index consistent. -/
lemma removeMembers_consistent (members : List Bytes) (h : z.Consistent) :
    (members.foldl removeMember z).Consistent := by
  induction members generalizing z with
  | nil => exact h
  | cons first rest ih => exact ih (removeMember_consistent h)

/-- Members that were collected from the sorted set are removed with the scores they have. -/
lemma removeAll_consistent {members : List (Bytes × Score)} (h : z.Consistent)
    (collected : ∀ p ∈ members, ∀ other, z.entries[p.1]? = some other → other = p.2) :
    (z.removeAll members).Consistent := by
  unfold removeAll
  induction members generalizing z with
  | nil => exact h
  | cons first rest ih =>
    apply ih
    · exact forget_consistent h (collected first List.mem_cons_self)
    · intro p mem other entry
      apply collected p (List.mem_cons_of_mem _ mem)
      simp only [forget, Std.ExtTreeMap.getElem?_erase] at entry
      split at entry
      · cases entry
      · exact entry

/-- What is popped from the index goes out of the map, too. -/
lemma pop_consistent {pop : ZSetIndex → Option (ZSetIndexKey × ZSetIndex)}
    (pops : OrderedSet.Pops pop) {index : ZSetIndex} (h : z.Consistent)
    (popped : pop z.index = some (.key score member, index)) :
    (ZSet.mk index (z.entries.erase member)).Consistent := by
  obtain ⟨_, _, entry, same⟩ := (h _).mp (pops.mem popped)
  cases same
  intro k'
  rw [pops.mem_rest popped, h k']
  simp only [Std.ExtTreeMap.getElem?_erase, Std.LawfulEqCmp.compare_eq_iff_eq]
  constructor
  · rintro ⟨⟨member', score', entry', rfl⟩, ne⟩
    refine ⟨member', score', ?_, rfl⟩
    have other : member ≠ member' := by
      rintro rfl
      rw [entry] at entry'
      exact ne (by rw [Option.some.inj entry'])
    rw [if_neg other, entry']
  · rintro ⟨member', score', entry', rfl⟩
    split at entry'
    · cases entry'
    · rename_i other
      refine ⟨⟨member', score', entry', rfl⟩, fun eq => other ?_⟩
      exact (ZSetIndexKey.key.inj eq).2.symm

/-- To pop members keeps map and index consistent, and never fails. -/
lemma popWith_consistent {pop : ZSetIndex → Option (ZSetIndexKey × ZSetIndex)}
    (pops : OrderedSet.Pops pop) (count : Nat) (h : z.Consistent) :
    (z.popWith pop count).1.Consistent ∧ (z.popWith pop count).2 = .ok () := by
  induction count generalizing z with
  | zero => exact ⟨h, rfl⟩
  | succ count ih =>
    rw [popWith]
    cases popped : pop z.index with
    | none => exact ⟨h, rfl⟩
    | some p =>
      obtain ⟨k, index⟩ := p
      obtain ⟨member, score, _, rfl⟩ := (h k).mp (pops.mem popped)
      exact ih (pop_consistent pops h popped)

/-- A sorted set made of members with different names. -/
lemma ofMembers_consistent {members : List (Bytes × Score)} (names : (members.map (·.1)).Nodup) :
    (ofMembers members).Consistent := by
  suffices step : ∀ z : ZSet, z.Consistent → (∀ p ∈ members, z.entries[p.1]? = none) →
      (members.foldl (fun z p => z.insert p.2 p.1) z).Consistent from
    step new new_consistent fun p _ => by simp [new]
  induction members with
  | nil => exact fun z h _ => h
  | cons first rest ih =>
    intro z h absent
    rw [List.map_cons, List.nodup_cons] at names
    apply ih names.2
    · exact insert_consistent h (absent first List.mem_cons_self)
    · intro p mem
      have other : first.1 ≠ p.1 := fun eq => names.1 (eq ▸ List.mem_map_of_mem mem)
      simp only [insert, Std.ExtTreeMap.getElem?_insert, Std.LawfulEqCmp.compare_eq_iff_eq,
        if_neg other]
      exact absent p (List.mem_cons_of_mem _ mem)

/-- The names in a map are different. -/
lemma names_toList {α : Type} (entries : Std.ExtTreeMap Bytes α compare) :
    (entries.toList.map (·.1)).Nodup := by
  rw [List.nodup_iff_pairwise_ne, List.pairwise_map]
  exact entries.ordered_keys_toList.imp fun lt eq => by simp [eq, Std.ReflCmp.compare_self] at lt

/-- A clone is consistent, whatever it was made of. -/
lemma clone_consistent (z : ZSet) : z.clone.Consistent :=
  ofMembers_consistent (names_toList z.entries)

/-! ## Ranges -/

/-- Keys out of the index are elements, and the members they stand for have their scores. -/
lemma membersOf_consistent {keys : List ZSetIndexKey} (h : z.Consistent)
    (inside : ∀ k ∈ keys, k ∈ z.index.elems) :
    ∃ members, membersOf keys = .ok members ∧ members.map (·.1) = keys.map (·.entry) ∧
      ∀ p ∈ members, z.entries[p.1]? = some p.2 := by
  unfold membersOf
  induction keys with
  | nil => exact ⟨[], rfl, rfl, by simp⟩
  | cons k keys ih =>
    obtain ⟨member, score, entry, rfl⟩ := (h k).mp (inside k List.mem_cons_self)
    obtain ⟨members, eq, names, scores⟩ := ih fun k mem => inside k (List.mem_cons_of_mem _ mem)
    refine ⟨(member, score) :: members, ?_, ?_, ?_⟩
    · rw [List.mapM_cons, eq]
      rfl
    · rw [List.map_cons, List.map_cons, names]
      rfl
    · intro p mem
      obtain rfl | mem := List.mem_cons.mp mem
      · exact entry
      · exact scores p mem

/-- The names in the index are different. -/
lemma names_index (h : z.Consistent) : (z.index.elems.map (·.entry)).Nodup := by
  rw [List.nodup_iff_pairwise_ne, List.pairwise_map]
  apply z.index.ordered.imp_of_mem
  intro k k' mem mem' lt eq
  obtain ⟨member, score, entry, rfl⟩ := (h k).mp mem
  obtain ⟨member', score', entry', rfl⟩ := (h k').mp mem'
  obtain rfl : member = member' := eq
  rw [entry] at entry'
  obtain rfl := Option.some.inj entry'
  have self : (ZSetIndexKey.key score member).cmp (.key score member) = .eq :=
    Std.ReflCmp.compare_self
  rw [self] at lt
  cases lt

/-- The members that a range of the index collects: their names are different, and they have their
scores. -/
structure Collected (z : ZSet) (members : List (Bytes × Score)) : Prop where
  names : (members.map (·.1)).Nodup
  scores : ∀ p ∈ members, z.entries[p.1]? = some p.2

/-- Collected members have their scores in the map. -/
lemma Collected.known {members : List (Bytes × Score)} (c : Collected z members) :
    ∀ p ∈ members, ∀ other, z.entries[p.1]? = some other → other = p.2 := by
  intro p mem other entry
  rw [c.scores p mem] at entry
  exact (Option.some.inj entry).symm

/-- Part of the index are members with their scores. -/
lemma collected_sublist {keys : List ZSetIndexKey} (h : z.Consistent)
    (inside : keys.Sublist z.index.elems) :
    ∃ members, membersOf keys = .ok members ∧ Collected z members := by
  obtain ⟨members, eq, names, scores⟩ := membersOf_consistent h fun k mem => inside.subset mem
  refine ⟨members, eq, ?_, scores⟩
  rw [names]
  exact (names_index h).sublist (inside.map _)

/-- A range of ranks collects members. -/
lemma rankRange_collected (h : z.Consistent) (start stop : Nat) :
    ∃ members, z.rankRange start stop = .ok members ∧ Collected z members :=
  collected_sublist h (OrderedSet.rangeIdx_sublist start stop z.index)

/-- A range of scores collects members, or panics when it is crossed. -/
lemma scoreRange_collected [Indexset] (h : z.Consistent) (min max : Bound Score) :
    z.scoreRange min max = .error (.panic "range start is greater than range end") ∨
      ∃ members, z.scoreRange min max = .ok members ∧ Collected z members := by
  unfold scoreRange
  split
  · exact .inl rfl
  · obtain ⟨members, eq, names, scores⟩ := collected_sublist h
      (Indexset.sublist (minKey min) (maxKey max) z.index)
    refine .inr ⟨_, by rw [eq]; rfl, ?_, ?_⟩
    · exact names.sublist (List.filter_sublist.map _)
    · exact fun p mem => scores p (List.mem_of_mem_filter mem)

/-- Crossed bounds are refused with a text of their own. -/
lemma crossedMessage_ne (min max : Bound Bytes) :
    (.panic (crossedMessage min max) : Fault) ≠ unreachable := by
  unfold crossedMessage
  split
  · split
    · simp [unreachable]
    · simp [unreachable]
  · simp [unreachable]

/-- A range of names collects members, or panics when it is crossed. -/
lemma lexRange_collected (min max : Bound Bytes) :
    z.lexRange min max = .error (.panic (crossedMessage min max)) ∨
      ∃ members, z.lexRange min max = .ok members ∧ Collected z members := by
  unfold lexRange
  split
  · exact .inl rfl
  · refine .inr ⟨_, rfl, ?_, ?_⟩
    · exact (names_toList z.entries).sublist (List.filter_sublist.map _)
    · intro p mem
      exact Std.ExtTreeMap.mem_toList_iff_getElem?_eq_some.mp (List.mem_of_mem_filter mem)

/-- The index is as long as the map. -/
lemma length_index (h : z.Consistent) : z.index.elems.length = z.entries.size := by
  rw [← Std.ExtTreeMap.length_toList, ← List.length_map (f := fun p : Bytes × Score =>
    ZSetIndexKey.key p.2 p.1)]
  apply List.Perm.length_eq
  rw [List.perm_ext_iff_of_nodup z.index.nodup]
  · intro k
    rw [h k, List.mem_map]
    constructor
    · rintro ⟨member, score, entry, rfl⟩
      exact ⟨(member, score), Std.ExtTreeMap.mem_toList_iff_getElem?_eq_some.mpr entry, rfl⟩
    · rintro ⟨p, mem, rfl⟩
      exact ⟨p.1, p.2, Std.ExtTreeMap.mem_toList_iff_getElem?_eq_some.mp mem, rfl⟩
  · apply List.Nodup.of_map (·.entry)
    rw [List.map_map]
    exact names_toList z.entries

end ZSet

/-! ## Values -/

/-- A value whose index, if it has one, is consistent. -/
def StorageValue.Consistent : StorageValue → Prop
  | .zset z => z.Consistent
  | _ => True

def Slot.Consistent : Slot → Prop
  | some value => value.Consistent
  | none => True

def StorageInner.Consistent (s : StorageInner) : Prop :=
  ∀ db key, Slot.Consistent (s.lookup db key)

/-- A consistent slot, and no branch that is `unreachable!` was taken. -/
def SoundSlot (r : Slot × Except Fault Unit) : Prop :=
  Slot.Consistent r.1 ∧ r.2 ≠ .error unreachable

def SlotOp.Sound (op : SlotOp) : Prop := ∀ slot, Slot.Consistent slot → SoundSlot (op slot)

def Op.Sound (op : Op) : Prop :=
  ∀ s : StorageInner, s.Consistent → (op s).1.Consistent ∧ (op s).2 ≠ .error unreachable

/-- A success took no unreachable branch. -/
lemma ok_sound : (.ok () : Except Fault Unit) ≠ .error unreachable := nofun

/-- A wrong type is no unreachable branch. -/
lemma wrongType_sound : (wrongType : Except Fault Unit) ≠ .error unreachable := by
  simp [wrongType, unreachable]

/-- An error with a message is no unreachable branch. -/
lemma err_sound (msg : String) : (.error (.err msg) : Except Fault Unit) ≠ .error unreachable := by
  simp [unreachable]

/-- An operation that does nothing. -/
lemma idle_sound {r : Except Fault Unit} (h : r ≠ .error unreachable) : Op.Sound fun s => (s, r) :=
  fun _ hs => ⟨hs, h⟩

/-- An operation is sound if it is for every argument that decodes. -/
lemma decoded_sound {α : Type} {arg : Option α} {msg : String} {op : α → Op}
    (h : ∀ a, Op.Sound (op a)) : Op.Sound (decoded arg msg op) := by
  cases arg with
  | none => exact idle_sound (err_sound msg)
  | some a => exact h a

section Storage
variable {s : StorageInner} {slot : Slot}

/-- A new storage is consistent. -/
lemma new_consistent : StorageInner.new.Consistent := by
  intro db key
  rw [StorageInner.lookup_new]
  trivial

/-- To store a consistent slot keeps the storage consistent. -/
lemma store_consistent (hs : s.Consistent) (h : Slot.Consistent slot) (db : Nat) (key : Bytes) :
    (s.store db key slot).Consistent := by
  intro db' key'
  rw [StorageInner.lookup_store]
  split
  · exact h
  · exact hs db' key'

/-- To put a consistent value keeps the storage consistent. -/
lemma put_consistent {value : StorageValue} (hs : s.Consistent) (h : value.Consistent) (db : Nat)
    (key : Bytes) : (s.put db key value).Consistent :=
  store_consistent hs (show Slot.Consistent (some value) from h) db key

/-- To delete a key keeps the storage consistent. -/
lemma del_consistent (hs : s.Consistent) (db : Nat) (key : Bytes) : (s.del db key).Consistent :=
  store_consistent hs (show Slot.Consistent none from trivial) db key

/-- What a consistent storage holds is consistent. -/
lemma lookup_consistent {db : Nat} {key : Bytes} {value : StorageValue} (hs : s.Consistent)
    (e : s.lookup db key = some value) : value.Consistent := by
  have here := hs db key
  rwa [e] at here

end Storage

/-- A sound operation on a slot is sound at a key. -/
lemma atKey_sound {op : SlotOp} (h : op.Sound) (db : Nat) (key : Bytes) :
    (atKey db key op).Sound := by
  intro s hs
  obtain ⟨kept, result⟩ := h (s.lookup db key) (hs db key)
  exact ⟨store_consistent hs kept db key, result⟩

namespace Container

variable {α : Type} {c : Container α}

/-- An operation on a container that is there is sound if it is on every container. -/
lemma existing_sound {f : α → Slot × Except Fault Unit}
    (h : ∀ a, (c.wrap a).Consistent → SoundSlot (f a)) : (c.existing f).Sound := by
  intro slot hs
  cases c.view slot with
  | vacant => exact ⟨trivial, ok_sound⟩
  | held a =>
    rw [existing_wrap]
    exact h a hs
  | other type =>
    rw [existing_other type]
    exact ⟨hs, wrongType_sound⟩

/-- An operation on a container that is created is sound if it is on every container. -/
lemma orInsert_sound {f : α → α × Except Fault Unit} (new : (c.wrap c.new).Consistent)
    (h : ∀ a, (c.wrap a).Consistent → (c.wrap (f a).1).Consistent ∧ (f a).2 ≠ .error unreachable) :
    (c.orInsert f).Sound := by
  intro slot hs
  cases c.view slot with
  | vacant => exact h c.new new
  | held a =>
    rw [orInsert_wrap]
    exact h a hs
  | other type =>
    rw [orInsert_other type]
    exact ⟨hs, wrongType_sound⟩

/-- A container that is kept unless it is empty is consistent. -/
lemma unlessEmpty_consistent {a : α} (h : (c.wrap a).Consistent) :
    Slot.Consistent (c.unlessEmpty a) := by
  unfold unlessEmpty
  split
  · trivial
  · exact h

end Container

open StorageValue (lists sets hashes zsets)

/-! ## Commands on one key -/

/-- To keep a consistent value is sound. -/
lemma keep_sound {value : StorageValue} (h : value.Consistent) : SoundSlot (some value, .ok ()) :=
  ⟨h, ok_sound⟩

/-- To keep a container unless it is empty is sound. -/
lemma unlessEmpty_sound {α : Type} {c : Container α} {a : α} (h : (c.wrap a).Consistent) :
    SoundSlot (c.unlessEmpty a, .ok ()) :=
  ⟨Container.unlessEmpty_consistent h, ok_sound⟩

/-- `APPEND` is sound. -/
lemma append_sound (value : Bytes) : (append value).Sound := by
  intro slot hs
  match slot with
  | none => exact keep_sound trivial
  | some (.string _) => exact keep_sound trivial
  | some (.set _) => exact ⟨trivial, wrongType_sound⟩
  | some (.list _) => exact ⟨trivial, wrongType_sound⟩
  | some (.hash _) => exact ⟨trivial, wrongType_sound⟩
  | some (.zset _) => exact ⟨hs, wrongType_sound⟩

/-- The bytes of `SETRANGE` take no unreachable branch. -/
lemma overwrite_sound (offset : Nat) (value bytes : Bytes) :
    overwrite offset value bytes ≠ .error unreachable := by
  unfold overwrite
  simp only
  split_ifs
  · simp [unreachable]
  · simp [unreachable]
  · nofun

/-- `SETRANGE` is sound. -/
lemma setrange_sound (offset : Nat) (value : Bytes) : (setrange offset value).Sound := by
  intro slot hs
  have written := overwrite_sound offset value
  match slot with
  | none =>
    rw [setrange]
    cases e : overwrite offset value [] with
    | ok bytes => exact keep_sound trivial
    | error fault => exact ⟨trivial, fun eq => written [] (by rw [e, Except.error.inj eq])⟩
  | some (.string existing) =>
    rw [setrange]
    cases e : overwrite offset value existing with
    | ok bytes => exact keep_sound trivial
    | error fault => exact ⟨trivial, fun eq => written existing (by rw [e, Except.error.inj eq])⟩
  | some (.set _) => exact ⟨trivial, wrongType_sound⟩
  | some (.list _) => exact ⟨trivial, wrongType_sound⟩
  | some (.hash _) => exact ⟨trivial, wrongType_sound⟩
  | some (.zset _) => exact ⟨hs, wrongType_sound⟩

/-- The commands that count are sound. -/
lemma bump_sound (overflow : String) (next : Int → Int) (fresh : Int) :
    (bump overflow next fresh).Sound := by
  intro slot hs
  match slot with
  | none =>
    rw [bump]
    split
    · exact keep_sound trivial
    · exact ⟨trivial, err_sound _⟩
  | some (.string existing) =>
    rw [bump]
    cases parseI64 existing with
    | none => exact ⟨trivial, err_sound _⟩
    | some current =>
      simp only
      split
      · exact keep_sound trivial
      · exact ⟨trivial, err_sound _⟩
  | some (.set _) => exact ⟨trivial, wrongType_sound⟩
  | some (.list _) => exact ⟨trivial, wrongType_sound⟩
  | some (.hash _) => exact ⟨trivial, wrongType_sound⟩
  | some (.zset _) => exact ⟨hs, wrongType_sound⟩

/-- A list, set or hash that is created or extended. -/
lemma orInsert_plain {α : Type} {c : Container α} (plain : ∀ a, (c.wrap a).Consistent) (f : α → α) :
    (c.orInsert fun a => (f a, .ok ())).Sound :=
  Container.orInsert_sound (plain _) fun _ _ => ⟨plain _, ok_sound⟩

/-- A list, set or hash from which something is removed. -/
lemma existing_plain {α : Type} {c : Container α} (plain : ∀ a, (c.wrap a).Consistent) (f : α → α) :
    (c.existing fun a => (c.unlessEmpty (f a), .ok ())).Sound :=
  Container.existing_sound fun _ _ => unlessEmpty_sound (plain _)

/-- Every list is consistent. -/
lemma lists_plain (items : List Bytes) : (lists.wrap items).Consistent := trivial

/-- Every set is consistent. -/
lemma sets_plain (members : Std.ExtTreeSet Bytes compare) : (sets.wrap members).Consistent :=
  trivial

/-- Every hash is consistent. -/
lemma hashes_plain (fields : Std.ExtTreeMap Bytes Bytes compare) :
    (hashes.wrap fields).Consistent := trivial

/-- `LREM` is sound. -/
lemma lrem_sound (count : Int) (value : Bytes) : (lrem count value).Sound := by
  apply Container.existing_sound
  intro items _
  split_ifs
  · exact unlessEmpty_sound trivial
  · exact unlessEmpty_sound trivial
  · exact unlessEmpty_sound trivial
  · exact ⟨trivial, by simp [unreachable]⟩

/-- `LTRIM` is sound. -/
lemma ltrim_sound (start stop : Int) : (ltrim start stop).Sound := by
  apply Container.existing_sound
  intro items _
  simp only
  split_ifs
  · exact keep_sound trivial
  · exact ⟨trivial, ok_sound⟩
  · exact unlessEmpty_sound trivial

/-- `LSET` is sound. -/
lemma lset_sound (index : Int) (value : Bytes) : (lset index value).Sound := by
  apply Container.existing_sound
  intro items _
  simp only
  split_ifs
  · exact keep_sound (lists_plain _)
  · exact keep_sound (lists_plain _)
  · exact keep_sound (lists_plain _)
  · exact keep_sound (lists_plain _)

/-- `HINCRBY` is sound. -/
lemma hincrby_sound (field : Bytes) (delta : Int) : (hincrby field delta).Sound := by
  apply Container.orInsert_sound (hashes_plain _)
  intro fields _
  refine ⟨trivial, ?_⟩
  split
  · exact err_sound _
  · split
    · exact ok_sound
    · exact err_sound _

/-- `HINCRBYFLOAT` is sound. -/
lemma hincrbyfloat_sound (field : Bytes) (delta : Nat) : (hincrbyfloat field delta).Sound := by
  apply Container.orInsert_sound (hashes_plain _)
  intro fields _
  refine ⟨trivial, ?_⟩
  split
  · exact err_sound _
  · exact ok_sound

/-- `ZADD` is sound. -/
lemma zadd_sound (members : List (Score × Bytes)) (options : List ZAddOption) :
    (zadd members options).Sound := by
  have added : (zsets.orInsert fun z => (z.add (.ofOptions options) members, .ok ())).Sound :=
    Container.orInsert_sound ZSet.new_consistent fun z hz => ⟨ZSet.add_consistent _ _ hz, ok_sound⟩
  intro slot hs
  unfold zadd
  simp only
  split_ifs
  · exact ⟨hs, err_sound _⟩
  · exact ⟨hs, err_sound _⟩
  · exact ⟨hs, err_sound _⟩
  · exact added slot hs

/-- `ZREM` is sound. -/
lemma zrem_sound (members : List Bytes) : (zrem members).Sound :=
  Container.existing_sound fun _ hz => unlessEmpty_sound (ZSet.removeMembers_consistent members hz)

/-- `ZINCRBY` is sound. -/
lemma zincrby_sound (delta : Score) (member : Bytes) : (zincrby delta member).Sound :=
  Container.orInsert_sound ZSet.new_consistent fun _ hz =>
    ⟨ZSet.incrBy_consistent hz, ok_sound⟩

/-- `ZPOPMIN` and `ZPOPMAX` are sound. -/
lemma zpop_sound {pop : ZSetIndex → Option (ZSetIndexKey × ZSetIndex)} (pops : OrderedSet.Pops pop)
    (count : Nat) : (zsets.existing fun z => afterRemoval (z.popWith pop count)).Sound := by
  apply Container.existing_sound
  intro z hz
  obtain ⟨kept, result⟩ := ZSet.popWith_consistent pops count hz
  rw [show z.popWith pop count = ((z.popWith pop count).1, .ok ()) from Prod.ext rfl result]
  exact unlessEmpty_sound kept

/-- The removal of the members that were collected. -/
lemma removeRange_sound {z : ZSet} (hz : z.Consistent) {members : List (Bytes × Score)}
    (collected : ZSet.Collected z members) : SoundSlot (removeRange z (.ok members)) :=
  unlessEmpty_sound (ZSet.removeAll_consistent hz collected.known)

/-- A range that is refused changes nothing. -/
lemma removeRange_refused {z : ZSet} (hz : z.Consistent) {fault : Fault} (h : fault ≠ unreachable) :
    SoundSlot (removeRange z (.error fault)) :=
  ⟨hz, fun eq => h (Except.error.inj eq)⟩

/-- `ZREMRANGEBYRANK` is sound. -/
lemma zremrangebyrank_sound (start stop : Int) : (zremrangebyrank start stop).Sound := by
  apply Container.existing_sound
  intro z hz
  simp only
  split_ifs
  · exact keep_sound hz
  · exact keep_sound hz
  · obtain ⟨members, eq, collected⟩ := ZSet.rankRange_collected hz (position z.len start)
      (position z.len stop)
    rw [eq]
    exact removeRange_sound hz collected

/-- `ZREMRANGEBYSCORE` is sound. -/
lemma zremrangebyscore_sound [Indexset] (min max : Bound Score) :
    (zremrangebyscore min max).Sound := by
  apply Container.existing_sound
  intro z hz
  obtain refused | ⟨members, eq, collected⟩ := ZSet.scoreRange_collected hz min max
  · rw [refused]
    exact removeRange_refused hz (by simp [unreachable])
  · rw [eq]
    exact removeRange_sound hz collected

/-- `ZREMRANGEBYLEX` is sound. -/
lemma zremrangebylex_sound (min max : Bound Bytes) : (zremrangebylex min max).Sound := by
  apply Container.existing_sound
  intro z hz
  obtain refused | ⟨members, eq, collected⟩ := @ZSet.lexRange_collected z min max
  · rw [refused]
    exact removeRange_refused hz (ZSet.crossedMessage_ne min max)
  · rw [eq]
    exact removeRange_sound hz collected

/-! ## Commands on several keys -/

/-- `MSET` is sound. -/
lemma mset_sound (db : Nat) (pairs : List (Bytes × Bytes)) : (mset db pairs).Sound := by
  intro s hs
  refine ⟨?_, ok_sound⟩
  unfold mset
  simp only
  induction pairs generalizing s with
  | nil => exact hs
  | cons pair rest ih => exact ih _ (put_consistent hs (by exact trivial) _ _)

/-- `DEL` and `UNLINK` are sound. -/
lemma delAll_sound (db : Nat) (keys : List Bytes) : (delAll db keys).Sound := by
  intro s hs
  refine ⟨?_, ok_sound⟩
  unfold delAll
  simp only
  induction keys generalizing s with
  | nil => exact hs
  | cons key rest ih => exact ih _ (del_consistent hs _ _)

/-- `RENAME` is sound. -/
lemma rename_sound (db : Nat) (oldKey newKey : Bytes) : (rename db oldKey newKey).Sound := by
  intro s hs
  unfold rename
  cases e : s.lookup db oldKey with
  | none => exact ⟨hs, ok_sound⟩
  | some value =>
    exact ⟨put_consistent (del_consistent hs _ _) (lookup_consistent hs e) _ _, ok_sound⟩

/-- `RENAMENX` is sound. -/
lemma renamenx_sound (db : Nat) (oldKey newKey : Bytes) : (renamenx db oldKey newKey).Sound := by
  intro s hs
  unfold renamenx
  split
  · exact ⟨hs, ok_sound⟩
  · exact rename_sound db oldKey newKey s hs

/-- `MOVE` is sound. -/
lemma moveKey_sound (sourceDb destDb : Nat) (key : Bytes) :
    (moveKey sourceDb destDb key).Sound := by
  intro s hs
  unfold moveKey
  cases e : s.lookup sourceDb key with
  | none => exact ⟨hs, ok_sound⟩
  | some value =>
    exact ⟨put_consistent (del_consistent hs _ _) (lookup_consistent hs e) _ _, ok_sound⟩

/-- A clone of a consistent value is consistent. -/
lemma clone_consistent {value : StorageValue} (h : value.Consistent) : value.clone.Consistent := by
  cases value with
  | zset z => exact ZSet.clone_consistent z
  | string => exact h
  | set => exact h
  | list => exact h
  | hash => exact h

/-- `COPY` is sound. -/
lemma copyKey_sound (db : Nat) (source destination : Bytes) (replace : Bool) :
    (copyKey db source destination replace).Sound := by
  intro s hs
  unfold copyKey
  split
  · exact ⟨hs, ok_sound⟩
  · cases e : s.lookup db source with
    | none => exact ⟨hs, ok_sound⟩
    | some value =>
      exact ⟨put_consistent hs (clone_consistent (lookup_consistent hs e)) _ _, ok_sound⟩

/-- `FLUSHALL` is sound. -/
lemma flushall_sound : flushall.Sound := by
  intro s _
  refine ⟨fun db key => ?_, ok_sound⟩
  simp [flushall, StorageInner.lookup, Slot.Consistent]

/-- `FLUSHDB` is sound. -/
lemma flushdb_sound (db : Nat) : (flushdb db).Sound := by
  intro s hs
  refine ⟨fun db' key => ?_, ok_sound⟩
  rw [lookup_flushdb]
  split
  · trivial
  · exact hs db' key

/-- `SWAPDB` is sound. -/
lemma swapdb_sound (db1 db2 : Nat) : (swapdb db1 db2).Sound := by
  intro s hs
  refine ⟨fun db key => ?_, ok_sound⟩
  rw [lookup_swapdb]
  exact hs _ key

/-- `LMOVE` and `RPOPLPUSH` are sound. -/
lemma lmove_sound (db : Nat) (sourceKey destKey : Bytes) (wherefrom whereto : Side) :
    (lmove db sourceKey destKey wherefrom whereto).Sound := by
  intro s hs
  unfold lmove
  split
  · apply atKey_sound _ _ _ _ hs
    apply Container.existing_sound
    intro items _
    split
    · exact keep_sound (lists_plain _)
    · exact keep_sound (lists_plain _)
  · split
    · exact ⟨hs, ok_sound⟩
    · split
      · exact ⟨hs, ok_sound⟩
      · apply atKey_sound (orInsert_plain lists_plain _)
        exact store_consistent hs (Container.unlessEmpty_consistent (lists_plain _)) _ _
    · exact ⟨hs, wrongType_sound⟩

/-- `SMOVE` is sound. -/
lemma smove_sound (db : Nat) (sourceKey destKey member : Bytes) :
    (smove db sourceKey destKey member).Sound := by
  intro s hs
  unfold smove
  split
  · exact ⟨hs, ok_sound⟩
  · split
    · apply atKey_sound (orInsert_plain sets_plain _)
      exact store_consistent hs (Container.unlessEmpty_consistent (sets_plain _)) _ _
    · exact ⟨hs, ok_sound⟩
  · exact ⟨hs, wrongType_sound⟩

/-- A container that a computation ends with, if it ends with one. -/
def SoundResult {α : Type} (c : Container α) (r : Except Fault α) : Prop :=
  (∀ a, r = .ok a → (c.wrap a).Consistent) ∧ r ≠ .error unreachable

/-- A command that stores is sound if its computation is. -/
lemma storeResult_sound {α : Type} {c : Container α} {compute : StorageInner → Except Fault α}
    (h : ∀ s : StorageInner, s.Consistent → SoundResult c (compute s)) (db : Nat)
    (destKey : Bytes) :
    (storeResult c db destKey compute).Sound := by
  intro s hs
  have deleted := del_consistent hs db destKey
  obtain ⟨kept, result⟩ := h _ deleted
  unfold storeResult
  cases e : compute (s.del db destKey) with
  | error fault =>
    simp only [e]
    rw [e] at result
    exact ⟨deleted, fun eq => result (congrArg Except.error (Except.error.inj eq))⟩
  | ok a =>
    simp only [e]
    refine ⟨?_, ok_sound⟩
    split
    · exact deleted
    · exact put_consistent deleted (kept a e) _ _

/-- A wrong type is a sound result. -/
lemma soundResult_wrongType {α : Type} (c : Container α) : SoundResult c wrongType :=
  ⟨nofun, by simp [wrongType, unreachable]⟩

/-- A consistent container is a sound result. -/
lemma soundResult_ok {α : Type} {c : Container α} {a : α} (h : (c.wrap a).Consistent) :
    SoundResult c (.ok a) :=
  ⟨fun _ eq => Except.ok.inj eq ▸ h, nofun⟩

section
variable (s : StorageInner) (db : Nat)

/-- The loop of `SUNIONSTORE` ends with a sound result. -/
lemma unionFrom_sound (acc : Std.ExtTreeSet Bytes compare) (keys : List Bytes) :
    SoundResult sets (unionFrom s db acc keys) := by
  induction keys generalizing acc with
  | nil => exact soundResult_ok (sets_plain _)
  | cons key rest ih =>
    unfold unionFrom
    split
    · exact ih _
    · exact soundResult_wrongType _
    · exact ih _

/-- The loop of `SINTERSTORE` ends with a sound result. -/
lemma interFrom_sound (acc : Std.ExtTreeSet Bytes compare) (keys : List Bytes) :
    SoundResult sets (interFrom s db acc keys) := by
  induction keys generalizing acc with
  | nil => exact soundResult_ok (sets_plain _)
  | cons key rest ih =>
    unfold interFrom
    split
    · exact ih _
    · exact soundResult_wrongType _
    · exact soundResult_ok (sets_plain _)

/-- The loop of `SDIFFSTORE` ends with a sound result. -/
lemma diffFrom_sound (acc : Std.ExtTreeSet Bytes compare) (keys : List Bytes) :
    SoundResult sets (diffFrom s db acc keys) := by
  induction keys generalizing acc with
  | nil => exact soundResult_ok (sets_plain _)
  | cons key rest ih =>
    unfold diffFrom
    split
    · exact ih _
    · exact soundResult_wrongType _
    · exact ih _

/-- A loop that starts with the first source ends with a sound result. -/
lemma fromFirst_sound
    {loop : Std.ExtTreeSet Bytes compare → List Bytes → Except Fault (Std.ExtTreeSet Bytes compare)}
    (h : ∀ acc keys, SoundResult sets (loop acc keys)) (keys : List Bytes) :
    SoundResult sets (fromFirst s db loop keys) := by
  cases keys with
  | nil => exact soundResult_ok (sets_plain _)
  | cons key rest =>
    rw [fromFirst]
    split
    · exact h _ _
    · exact soundResult_wrongType _
    · exact h _ _

/-- Aggregated scores are a consistent sorted set. -/
lemma aggregated_consistent (aggregate : Aggregate) (scores : WeightedScores) :
    (aggregated aggregate scores).Consistent := by
  apply ZSet.ofMembers_consistent
  rw [List.map_map]
  exact ZSet.names_toList scores

/-- An empty sorted set is a sound result. -/
lemma new_sound : SoundResult zsets (.ok ZSet.new) := soundResult_ok ZSet.new_consistent

/-- A sorted set made of what a computation ends with. -/
lemma map_sound {α : Type} {r : Except Fault α} {f : α → ZSet} (silent : r ≠ .error unreachable)
    (h : ∀ a, r = .ok a → (f a).Consistent) : SoundResult zsets (r.map f) := by
  cases r with
  | error fault => exact ⟨nofun, fun eq => silent (congrArg Except.error (Except.error.inj eq))⟩
  | ok a => exact soundResult_ok (h a rfl)

/-- The loop of `ZUNIONSTORE` takes no unreachable branch. -/
lemma zunionFrom_silent (acc : WeightedScores) (keys : List Bytes) (weights : List Score) :
    zunionFrom s db acc keys weights ≠ .error unreachable := by
  induction keys generalizing acc weights with
  | nil => nofun
  | cons key rest ih =>
    rw [zunionFrom]
    simp only
    split
    · exact ih _ _
    · simp [wrongType, unreachable]
    · exact ih _ _

/-- The loop of `ZINTERSTORE` takes no unreachable branch. -/
lemma zinterFrom_silent (acc : WeightedScores) (keys : List Bytes) (weights : List Score) :
    zinterFrom s db acc keys weights ≠ .error unreachable := by
  induction keys generalizing acc weights with
  | nil => nofun
  | cons key rest ih =>
    rw [zinterFrom]
    simp only
    split
    · split
      · nofun
      · exact ih _ _
    · simp [wrongType, unreachable]
    · nofun

/-- The loop of `ZDIFFSTORE` takes no unreachable branch. -/
lemma zdiffFrom_silent (acc : Std.ExtTreeMap Bytes Score compare) (keys : List Bytes) :
    zdiffFrom s db acc keys ≠ .error unreachable := by
  induction keys generalizing acc with
  | nil => nofun
  | cons key rest ih =>
    unfold zdiffFrom
    split
    · exact ih _
    · simp [wrongType, unreachable]
    · exact ih _

end

/-- `ZUNIONSTORE` is sound. -/
lemma zunionstore_sound (db : Nat) (destKey : Bytes) (keys : List Bytes) (weights : List Score)
    (aggregate : Aggregate) : (zunionstore db destKey keys weights aggregate).Sound := by
  apply storeResult_sound
  intro s _
  exact map_sound (zunionFrom_silent s db _ _ _)
    fun scores _ => aggregated_consistent aggregate scores

/-- `ZINTERSTORE` is sound. -/
lemma zinterstore_sound (db : Nat) (destKey : Bytes) (keys : List Bytes) (weights : List Score)
    (aggregate : Aggregate) : (zinterstore db destKey keys weights aggregate).Sound := by
  apply storeResult_sound
  intro s _
  cases keys with
  | nil => exact new_sound
  | cons first rest =>
    simp only
    split
    · exact map_sound (zinterFrom_silent s db _ _ _)
        fun scores _ => aggregated_consistent aggregate scores
    · exact soundResult_wrongType _
    · exact new_sound

/-- `ZDIFFSTORE` is sound. -/
lemma zdiffstore_sound (db : Nat) (destKey : Bytes) (keys : List Bytes) :
    (zdiffstore db destKey keys).Sound := by
  apply storeResult_sound
  intro s _
  split
  · exact new_sound
  · split
    · exact map_sound (zdiffFrom_silent s db _ _) fun acc _ =>
        ZSet.ofMembers_consistent (ZSet.names_toList acc)
    · exact soundResult_wrongType _
    · exact new_sound

/-- The parser of name bounds takes no unreachable branch. -/
lemma parseLexBound_silent (text : Bytes) : parseLexBound text ≠ .error unreachable := by
  unfold parseLexBound
  split
  · nofun
  · split
    · nofun
    · nofun
    · simp [unreachable]

/-- The parser of scores takes no unreachable branch. -/
lemma parseScore_silent (text : Bytes) : parseScore text ≠ .error unreachable := by
  unfold parseScore
  split
  · nofun
  · simp [unreachable]

/-- The parser of score bounds takes no unreachable branch. -/
lemma parseScoreBound_silent (text : Bytes) : parseScoreBound text ≠ .error unreachable := by
  have map_silent {β : Type} (r : Except Fault Score) (f : Score → β) (h : r ≠ .error unreachable) :
      r.map f ≠ .error unreachable := by
    cases r with
    | error fault => exact fun eq => h (congrArg Except.error (Except.error.inj eq))
    | ok score => nofun
  unfold parseScoreBound
  split
  · nofun
  · split
    · exact map_silent _ _ (parseScore_silent _)
    · exact map_silent _ _ (parseScore_silent _)

/-- Members collected from a sorted set, or a fault that is no `unreachable!`. -/
def Collects (z : ZSet) (r : Except Fault (List (Bytes × Score))) : Prop :=
  r ≠ .error unreachable ∧ ∀ members, r = .ok members → ZSet.Collected z members

/-- Behind what takes no unreachable branch members are collected. -/
lemma collects_bind {z : ZSet} {α : Type} {r : Except Fault α}
    {f : α → Except Fault (List (Bytes × Score))} (silent : r ≠ .error unreachable)
    (h : ∀ a, Collects z (f a)) : Collects z (r >>= f) := by
  cases r with
  | error fault => exact ⟨fun eq => silent (congrArg Except.error (Except.error.inj eq)), nofun⟩
  | ok a => exact h a

/-- A range that is crossed or collects members collects them. -/
lemma collects_of_collected {z : ZSet} {r : Except Fault (List (Bytes × Score))} {msg : String}
    (other : (.panic msg : Fault) ≠ unreachable)
    (h : r = .error (.panic msg) ∨ ∃ members, r = .ok members ∧ ZSet.Collected z members) :
    Collects z r := by
  obtain rfl | ⟨members, rfl, collected⟩ := h
  · exact ⟨fun eq => other (Except.error.inj eq), nofun⟩
  · exact ⟨nofun, fun _ eq => Except.ok.inj eq ▸ collected⟩

/-- A range of ranks collects members, an empty one none. -/
lemma ranks_collected {z : ZSet} (hz : z.Consistent) (start stop : Nat) :
    Collects z (if start ≤ stop ∧ start < z.len then z.rankRange start stop else .ok []) := by
  split
  · obtain ⟨members, eq, collected⟩ := ZSet.rankRange_collected hz start stop
    rw [eq]
    exact ⟨nofun, fun _ eq => Except.ok.inj eq ▸ collected⟩
  · exact ⟨nofun, fun _ eq => Except.ok.inj eq ▸ ⟨List.nodup_nil, by simp⟩⟩

/-- The members that a stored range collects. -/
lemma collectRange_sound [Indexset] {z : ZSet} (hz : z.Consistent) (minStr maxStr : Bytes)
    (options : RangeOptions) : Collects z (collectRange z minStr maxStr options) := by
  unfold collectRange
  split
  · apply collects_bind (parseLexBound_silent _)
    intro minBound
    apply collects_bind (parseLexBound_silent _)
    intro maxBound
    exact collects_of_collected (ZSet.crossedMessage_ne minBound maxBound)
      (ZSet.lexRange_collected minBound maxBound)
  · split
    · apply collects_bind (parseScoreBound_silent _)
      intro minBound
      apply collects_bind (parseScoreBound_silent _)
      intro maxBound
      exact collects_of_collected (by simp [unreachable])
        (ZSet.scoreRange_collected hz minBound maxBound)
    · split
      · exact ⟨by simp [unreachable], nofun⟩
      · exact ⟨by simp [unreachable], nofun⟩
      · exact ranks_collected hz _ _

/-- A limit takes part of the members. -/
lemma applyLimit_sublist (items : List (Bytes × Score)) (limit : Option (Int × Int)) :
    (applyLimit items limit).Sublist items := by
  cases limit with
  | none => exact List.Sublist.refl _
  | some bounds => exact (List.take_sublist _ _).trans (List.drop_sublist _ _)

/-- The names stay different when the members are reversed and limited. -/
lemma names_limited {items : List (Bytes × Score)} (names : (items.map (·.1)).Nodup)
    (options : RangeOptions) :
    ((applyLimit (if options.rev then items.reverse else items) options.limit).map
      (·.1)).Nodup := by
  refine List.Nodup.sublist ((applyLimit_sublist _ _).map _) ?_
  split
  · rw [List.map_reverse]
    exact List.nodup_reverse.mpr names
  · exact names

/-- `ZRANGESTORE` is sound. -/
lemma zrangestore_sound [Indexset] (db : Nat) (destKey sourceKey minStr maxStr : Bytes)
    (options : RangeOptions) : (zrangestore db destKey sourceKey minStr maxStr options).Sound := by
  apply storeResult_sound
  intro s hs
  split
  · rename_i z e
    have hz : z.Consistent := lookup_consistent hs e
    split
    · exact new_sound
    · obtain ⟨silent, collected⟩ := collectRange_sound hz minStr maxStr options
      apply map_sound silent
      intro members eq
      exact ZSet.ofMembers_consistent (names_limited (collected members eq).names options)
  · exact soundResult_wrongType _
  · exact new_sound

/-! ## All commands -/

/-- A command that is ignored is sound. -/
lemma ignored_sound : ignored.Sound := idle_sound ok_sound

/-- A command that is unknown is sound. -/
lemma unknown_sound : unknown.Sound := idle_sound (err_sound _)

/-- Every command keeps the sorted sets consistent and takes no branch that is `unreachable!`. -/
lemma dispatch_sound [Indexset] (db : Nat) (command : Command) : (dispatch db command).Sound := by
  cases command with
  | set key value => exact fun s hs => ⟨put_consistent hs (by exact trivial) _ _, ok_sound⟩
  | del keys => exact delAll_sound _ _
  | mset pairs => exact mset_sound _ _
  | msetex pairs => exact mset_sound _ _
  | pexpireat => exact ignored_sound
  | persist => exact ignored_sound
  | copy => exact copyKey_sound _ _ _ _
  | rename => exact rename_sound _ _ _
  | renamenx => exact renamenx_sound _ _ _
  | moveKey => exact decoded_sound fun _ => moveKey_sound _ _ _
  | append => exact atKey_sound (append_sound _) _ _
  | setrange => exact decoded_sound fun _ => atKey_sound (setrange_sound _ _) _ _
  | incr => exact atKey_sound (bump_sound _ _ _) _ _
  | incrby => exact decoded_sound fun _ => atKey_sound (bump_sound _ _ _) _ _
  | decr => exact atKey_sound (bump_sound _ _ _) _ _
  | decrby => exact decoded_sound fun _ => atKey_sound (bump_sound _ _ _) _ _
  | setnx key value => exact fun s hs => ⟨put_consistent hs (by exact trivial) _ _, ok_sound⟩
  | msetnx pairs => exact mset_sound _ _
  | getset key value => exact fun s hs => ⟨put_consistent hs (by exact trivial) _ _, ok_sound⟩
  | getdel key => exact delAll_sound _ _
  | sadd => exact atKey_sound (orInsert_plain sets_plain _) _ _
  | srem => exact atKey_sound (existing_plain sets_plain _) _ _
  | smove => exact smove_sound _ _ _ _
  | sunionstore => exact storeResult_sound (fun s _ => unionFrom_sound s _ _ _) _ _
  | sinterstore =>
    exact storeResult_sound (fun s _ => fromFirst_sound s _ (interFrom_sound s _) _) _ _
  | sdiffstore =>
    exact storeResult_sound (fun s _ => fromFirst_sound s _ (diffFrom_sound s _) _) _ _
  | lpush => exact atKey_sound (orInsert_plain lists_plain _) _ _
  | rpush => exact atKey_sound (orInsert_plain lists_plain _) _ _
  | lpop => exact atKey_sound (existing_plain lists_plain _) _ _
  | rpop => exact atKey_sound (existing_plain lists_plain _) _ _
  | lset => exact decoded_sound fun _ => atKey_sound (lset_sound _ _) _ _
  | rpoplpush =>
    rw [dispatch, rpoplpush_eq]
    exact lmove_sound _ _ _ _ _
  | lpopCount => exact decoded_sound fun _ => atKey_sound (existing_plain lists_plain _) _ _
  | rpopCount => exact decoded_sound fun _ => atKey_sound (existing_plain lists_plain _) _ _
  | lmove => exact lmove_sound _ _ _ _ _
  | lpushx => exact atKey_sound (Container.existing_sound fun _ _ => keep_sound (lists_plain _)) _ _
  | rpushx => exact atKey_sound (Container.existing_sound fun _ _ => keep_sound (lists_plain _)) _ _
  | lrem => exact decoded_sound fun _ => atKey_sound (lrem_sound _ _) _ _
  | ltrim => exact decoded_sound fun _ => atKey_sound (ltrim_sound _ _) _ _
  | linsert =>
    exact atKey_sound (Container.existing_sound fun _ _ => keep_sound (lists_plain _)) _ _
  | hset => exact atKey_sound (orInsert_plain hashes_plain _) _ _
  | hmset => exact atKey_sound (orInsert_plain hashes_plain _) _ _
  | hdel => exact atKey_sound (existing_plain hashes_plain _) _ _
  | hgetdel => exact atKey_sound (existing_plain hashes_plain _) _ _
  | hsetnx => exact atKey_sound (orInsert_plain hashes_plain _) _ _
  | hincrby => exact decoded_sound fun _ => atKey_sound (hincrby_sound _ _) _ _
  | hincrbyfloat => exact decoded_sound fun _ => atKey_sound (hincrbyfloat_sound _ _) _ _
  | hsetex => exact atKey_sound (orInsert_plain hashes_plain _) _ _
  | zadd => exact atKey_sound (zadd_sound _ _) _ _
  | zrem => exact atKey_sound (zrem_sound _) _ _
  | zpopmax => exact decoded_sound fun _ => atKey_sound (zpop_sound OrderedSet.pops_last _) _ _
  | zpopmin => exact decoded_sound fun _ => atKey_sound (zpop_sound OrderedSet.pops_first _) _ _
  | zremrangebyrank => exact decoded_sound fun _ => atKey_sound (zremrangebyrank_sound _ _) _ _
  | zremrangebyscore => exact decoded_sound fun _ => atKey_sound (zremrangebyscore_sound _ _) _ _
  | zremrangebylex => exact atKey_sound (zremrangebylex_sound _ _) _ _
  | zunionstore => exact decoded_sound fun _ => zunionstore_sound _ _ _ _ _
  | zinterstore => exact decoded_sound fun _ => zinterstore_sound _ _ _ _ _
  | zdiffstore => exact zdiffstore_sound _ _ _
  | zrangestore => exact decoded_sound fun _ => zrangestore_sound _ _ _ _ _ _
  | zincrby => exact decoded_sound fun _ => atKey_sound (zincrby_sound _ _) _ _
  | flushall => exact flushall_sound
  | flushdb => exact flushdb_sound _
  | swapdb => exact decoded_sound fun _ => swapdb_sound _ _
  | setbit => exact unknown_sound
  | hpexpireat => exact unknown_sound
  | hpersist => exact unknown_sound
  | generic => exact unknown_sound

/-- Every command is sound. -/
lemma execute_sound [Indexset] (db : Nat) (command : Command) : (execute db command).Sound := by
  unfold execute
  apply decoded_sound
  intro db
  exact dispatch_sound db command

/-- Every batch leaves the storage consistent. -/
lemma executeAll_consistent [Indexset] (commands : List (Nat × Command)) {s : StorageInner}
    (hs : s.Consistent) : (executeAll commands s).Consistent := by
  induction commands generalizing s with
  | nil => exact hs
  | cons first rest ih =>
    obtain ⟨db, command⟩ := first
    rw [executeAll]
    apply ih
    exact (execute_sound db command s hs).1

/-- In a storage that commands make out of the empty one, the index of every sorted set holds its
members with their scores, one key for each member, and nothing else; so none of its keys is one
that `unwrap_key` does not expect, and no further command ends in one of the branches that are
unreachable. -/
theorem dualIndex [Indexset] (commands : List (Nat × Command)) :
    (∀ db key z, (executeAll commands .new).lookup db key = some (.zset z) →
      (∀ k, k ∈ z.index.elems ↔
        ∃ member score, z.entries[member]? = some score ∧ k = .key score member) ∧
      z.index.elems.Nodup ∧
      z.index.elems.Pairwise (fun k k' => k.cmp k' = .lt) ∧
      z.index.elems.length = z.entries.size ∧
      ∀ k ∈ z.index.elems, k.unwrapKey ≠ .error unreachable) ∧
    ∀ db command, (execute db command (executeAll commands .new)).2 ≠ .error unreachable := by
  have reached := executeAll_consistent commands new_consistent
  refine ⟨fun db key z e => ?_, fun db command => (execute_sound db command _ reached).2⟩
  have h : z.Consistent := lookup_consistent reached e
  refine ⟨h, z.index.nodup, z.index.ordered, ZSet.length_index h, fun k mem => ?_⟩
  obtain ⟨member, score, entry, rfl⟩ := (h k).mp mem
  nofun

end Veidrodelis.TsNif
