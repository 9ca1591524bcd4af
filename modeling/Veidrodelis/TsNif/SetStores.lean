import Veidrodelis.TsNif.Sets

/-!
# Stored combinations of sets

`SUNIONSTORE`, `SINTERSTORE` and `SDIFFSTORE` against `SUNION`, `SINTER` and `SDIFF`. The loops are
the same, but the commands that store delete the destination before they read the sources. So they
agree with the reads on what the sources were unless the destination is one of them
(`SetOp.Harmless`).
-/

namespace Veidrodelis.TsNif
open RedisNif (Fault)
open StorageValue (sets)

/-! ## What the loops find -/

namespace StorageInner

/-- The members of the set under a key; none if there is no set. -/
def members (s : StorageInner) (db : Nat) (key : Bytes) : Std.ExtTreeSet Bytes compare :=
  match s.lookup db key with
  | some (.set members) => members
  | _ => ∅

/-- There is a value of another type under the key. -/
def Other (s : StorageInner) (db : Nat) (key : Bytes) : Prop :=
  ∃ value, s.lookup db key = some value ∧ sets.unwrap value = none

variable {s : StorageInner} {db : Nat} {destKey key : Bytes}

/-- The members behind the deletion of the destination. -/
lemma members_del : (s.del db destKey).members db key =
    if key = destKey then ∅ else s.members db key := by
  rw [members, lookup_source, source]
  by_cases same : key = destKey
  · rw [if_pos same, if_pos same]
  · rw [if_neg same, if_neg same]
    rfl

/-- The other types behind the deletion of the destination. -/
lemma other_del : (s.del db destKey).Other db key ↔ key ≠ destKey ∧ s.Other db key := by
  rw [Other, lookup_source, source]
  split
  · rename_i same
    refine iff_of_false ?_ fun h => h.1 same
    rintro ⟨_, ⟨⟩, _⟩
  · rename_i different
    exact ⟨fun h => ⟨different, h⟩, fun h => h.2⟩

/-- The missing keys behind the deletion of the destination. -/
lemma missing_del :
    (s.del db destKey).lookup db key = none ↔ key = destKey ∨ s.lookup db key = none := by
  rw [lookup_source, source]
  split
  · rename_i same
    exact iff_of_true rfl (.inl same)
  · rename_i different
    exact ⟨.inr, fun h => h.resolve_left different⟩

end StorageInner

namespace StorageInner

variable {s : StorageInner} {db : Nat} {key : Bytes}

/-- The members of a set, which is of no other type. -/
lemma members_of_set {ms : Std.ExtTreeSet Bytes compare} (held : s.lookup db key = some (.set ms)) :
    s.members db key = ms ∧ ¬ s.Other db key := by
  refine ⟨by rw [members, held], ?_⟩
  rintro ⟨value, held', type⟩
  rw [held] at held'
  cases held'
  cases type

/-- A missing key has no members, and is of no other type. -/
lemma members_of_none (missing : s.lookup db key = none) :
    s.members db key = ∅ ∧ ¬ s.Other db key := by
  refine ⟨by rw [members, missing], ?_⟩
  rintro ⟨value, held, -⟩
  rw [missing] at held
  cases held

/-- A key that holds no set is of another type. -/
lemma other_of_held {value : StorageValue} (held : s.lookup db key = some value)
    (type : ∀ ms, some value = some (.set ms) → False) : s.Other db key := by
  refine ⟨value, held, ?_⟩
  cases value with
  | set ms => exact absurd rfl fun same => type ms same
  | _ => rfl

end StorageInner

/-- When a computation fails, and the members that it finds otherwise. -/
structure Finds (x : Except Fault (Std.ExtTreeSet Bytes compare)) (fails : Prop)
    (found : Bytes → Prop) : Prop where
  errs : (∃ fault, x = .error fault) ↔ fails
  mem : ∀ r, x = .ok r → ∀ m, m ∈ r ↔ found m

namespace Finds

variable {x : Except Fault (Std.ExtTreeSet Bytes compare)} {fails fails' : Prop}
  {found found' : Bytes → Prop}

/-- The same is found under conditions that are the same. -/
lemma congr (h : Finds x fails found) (same : fails ↔ fails')
    (members : ¬ fails' → ∀ m, found m ↔ found' m) :
    Finds x fails' found' where
  errs := h.errs.trans same
  mem r ok m := by
    rw [h.mem r ok, members]
    rw [← same, ← h.errs]
    rintro ⟨fault, error⟩
    rw [ok] at error
    cases error

/-- A wrong type is found where it must fail. -/
lemma wrongType (h : fails) : Finds wrongType fails found where
  errs := iff_of_true ⟨_, rfl⟩ h
  mem := nofun

/-- Members are found where it must not fail. -/
lemma ok {r : Std.ExtTreeSet Bytes compare} (h : ¬ fails) (mem : ∀ m, m ∈ r ↔ found m) :
    Finds (.ok r) fails found where
  errs := iff_of_false nofun h
  mem r' eq := by
    cases eq
    exact mem

end Finds

section
variable (s : StorageInner) (db : Nat)

/-- The loop of the union finds the members of all sources. -/
lemma unionFrom_finds (acc : Std.ExtTreeSet Bytes compare) (keys : List Bytes) :
    Finds (unionFrom s db acc keys) (∃ k ∈ keys, s.Other db k)
      (fun m => m ∈ acc ∨ ∃ k ∈ keys, m ∈ s.members db k) := by
  induction keys generalizing acc with
  | nil => exact .ok (by simp) (by simp)
  | cons key keys ih =>
    rw [unionFrom]
    split
    · rename_i ms held
      obtain ⟨inside, proper⟩ := StorageInner.members_of_set held
      refine (ih _).congr ?_ fun _ m => ?_
      · simp [proper]
      · simp [inside, or_assoc]
    · rename_i value type held
      exact .wrongType ⟨key, List.mem_cons_self,
        StorageInner.other_of_held held fun ms => by simpa using type ms⟩
    · rename_i missing
      obtain ⟨inside, proper⟩ := StorageInner.members_of_none missing
      refine (ih acc).congr ?_ fun _ m => ?_
      · simp [proper]
      · simp [inside]

/-- The loop of the difference finds the members of no further source. -/
lemma diffFrom_finds (acc : Std.ExtTreeSet Bytes compare) (keys : List Bytes) :
    Finds (diffFrom s db acc keys) (∃ k ∈ keys, s.Other db k)
      (fun m => m ∈ acc ∧ ∀ k ∈ keys, m ∉ s.members db k) := by
  induction keys generalizing acc with
  | nil => exact .ok (by simp) (by simp)
  | cons key keys ih =>
    rw [diffFrom]
    split
    · rename_i ms held
      obtain ⟨inside, proper⟩ := StorageInner.members_of_set held
      refine (ih _).congr ?_ fun _ m => ?_
      · simp [proper]
      · simp [inside, and_assoc]
    · rename_i value type held
      exact .wrongType ⟨key, List.mem_cons_self,
        StorageInner.other_of_held held fun ms => by simpa using type ms⟩
    · rename_i missing
      obtain ⟨inside, proper⟩ := StorageInner.members_of_none missing
      refine (ih acc).congr ?_ fun _ m => ?_
      · simp [proper]
      · simp [inside]

/-- A source of another type, in front of which no source is missing. -/
def Reaches (keys : List Bytes) : Prop :=
  ∃ front key rest, keys = front ++ key :: rest ∧ s.Other db key ∧ ∀ k ∈ front, s.lookup db k ≠ none

/-- The loop stops at the first source, or goes on. -/
lemma reaches_cons (key : Bytes) (keys : List Bytes) :
    Reaches s db (key :: keys) ↔ s.Other db key ∨ s.lookup db key ≠ none ∧ Reaches s db keys := by
  constructor
  · rintro ⟨front, found, rest, eq, type, present⟩
    cases front with
    | nil =>
      cases eq
      exact .inl type
    | cons first front =>
      cases eq
      exact .inr ⟨present _ List.mem_cons_self, front, found, rest, rfl, type,
        fun k mem => present k (List.mem_cons_of_mem _ mem)⟩
  · rintro (type | ⟨present, front, found, rest, rfl, type, others⟩)
    · exact ⟨[], key, keys, rfl, type, nofun⟩
    · refine ⟨key :: front, found, rest, rfl, type, fun k mem => ?_⟩
      rcases List.mem_cons.mp mem with rfl | mem
      · exact present
      · exact others k mem

/-- The loop of the intersection finds the members of each source. -/
lemma interFrom_finds (acc : Std.ExtTreeSet Bytes compare) (keys : List Bytes) :
    Finds (interFrom s db acc keys) (Reaches s db keys) (fun m => m ∈ acc ∧
      ∀ k ∈ keys, m ∈ s.members db k) := by
  induction keys generalizing acc with
  | nil => exact .ok (by simp [Reaches]) (by simp)
  | cons key keys ih =>
    rw [interFrom]
    split
    · rename_i ms held
      obtain ⟨inside, proper⟩ := StorageInner.members_of_set held
      refine (ih _).congr ?_ fun _ m => ?_
      · rw [reaches_cons]
        simp [proper, held]
      · simp [inside, and_assoc]
    · rename_i value type held
      refine .wrongType ((reaches_cons s db key keys).mpr (.inl ?_))
      exact StorageInner.other_of_held held fun ms => by simpa using type ms
    · rename_i missing
      obtain ⟨inside, proper⟩ := StorageInner.members_of_none missing
      refine .ok ?_ fun m => ?_
      · rw [reaches_cons]
        simp [proper, missing]
      · simp [inside]

/-- A loop that starts with the first source finds its members too. -/
lemma fromFirst_finds
    {loop : Std.ExtTreeSet Bytes compare → List Bytes → Except Fault (Std.ExtTreeSet Bytes compare)}
    {fails : Prop} {found : Bytes → Prop} (first : Bytes) {rest : List Bytes}
    (h : ∀ acc, Finds (loop acc rest) fails (fun m => m ∈ acc ∧ found m)) :
    Finds (fromFirst s db loop (first :: rest)) (s.Other db first ∨ fails)
      (fun m => m ∈ s.members db first ∧ found m) := by
  rw [fromFirst]
  split
  · rename_i ms held
    obtain ⟨inside, proper⟩ := StorageInner.members_of_set held
    refine (h ms).congr ?_ fun _ m => ?_
    · simp [proper]
    · rw [inside]
  · rename_i value type held
    exact .wrongType (.inl (StorageInner.other_of_held held fun ms => by simpa using type ms))
  · rename_i missing
    obtain ⟨inside, proper⟩ := StorageInner.members_of_none missing
    refine (h ∅).congr ?_ fun _ m => ?_
    · simp [proper]
    · rw [inside]

end

/-! ## The commands and the reads -/

/-- A combination of sets. -/
inductive SetOp where
  | union
  | inter
  | diff
  deriving DecidableEq, Repr

namespace SetOp

/-- `sunionstore`, `sinterstore` or `sdiffstore`. -/
def store : SetOp → Nat → Bytes → List Bytes → Op
  | .union => sunionstore
  | .inter => sinterstore
  | .diff => sdiffstore

/-- `sunion`, `sinter` or `sdiff`. -/
def read : SetOp → StorageInner → Nat → List Bytes → Except Fault (List Bytes)
  | .union => sunion
  | .inter => sinter
  | .diff => sdiff

/-- The loop that the two have in common. -/
def compute (op : SetOp) (s : StorageInner) (db : Nat) (sources : List Bytes) :
    Except Fault (Std.ExtTreeSet Bytes compare) :=
  match op with
  | .union => unionFrom s db ∅ sources
  | .inter => fromFirst s db (interFrom s db) sources
  | .diff => fromFirst s db (diffFrom s db) sources

/-- A source of another type stops a union or a difference, and an intersection if no source in
front of it, the first one apart, is missing. -/
def Fails (op : SetOp) (s : StorageInner) (db : Nat) (sources : List Bytes) : Prop :=
  match op with
  | .inter => ∃ front key rest, sources = front ++ key :: rest ∧ s.Other db key ∧
      ∀ k ∈ front.tail, s.lookup db k ≠ none
  | _ => ∃ k ∈ sources, s.Other db k

/-- A member of the combination. -/
def Found (op : SetOp) (s : StorageInner) (db : Nat) (sources : List Bytes) (m : Bytes) : Prop :=
  match op with
  | .union => ∃ k ∈ sources, m ∈ s.members db k
  | .inter => sources ≠ [] ∧ ∀ k ∈ sources, m ∈ s.members db k
  | .diff => ∃ first ∈ sources.head?, m ∈ s.members db first ∧ ∀ k ∈ sources.tail,
    m ∉ s.members db k

/-- A command that stores computes behind the deletion. -/
lemma store_eq (op : SetOp) (db : Nat) (destKey : Bytes) (sources : List Bytes) :
    op.store db destKey sources = storeResult sets db destKey fun s => op.compute s db sources := by
  cases op with
  | union => rfl
  | inter => rfl
  | diff => rfl

/-- A command that reads lists what is computed. -/
lemma read_eq (op : SetOp) (s : StorageInner) (db : Nat) (sources : List Bytes) :
    op.read s db sources = (op.compute s db sources).map (·.toList) := by
  cases op with
  | union => rfl
  | inter => rfl
  | diff => rfl

/-- Every operation on sets finds the members it should. -/
lemma compute_finds (op : SetOp) (s : StorageInner) (db : Nat) (sources : List Bytes) :
    Finds (op.compute s db sources) (op.Fails s db sources) (op.Found s db sources) := by
  cases op with
  | union =>
    refine (unionFrom_finds s db ∅ sources).congr Iff.rfl fun _ m => ?_
    simp [Found]
  | inter =>
    cases sources with
    | nil => exact .ok (by simp [Fails]) (by simp [Found])
    | cons first rest =>
      refine (fromFirst_finds s db first fun acc => interFrom_finds s db acc rest).congr ?_
        fun _ m => ?_
      · constructor
        · rintro (type | ⟨front, key, after, rfl, type, present⟩)
          · exact ⟨[], first, rest, rfl, type, nofun⟩
          · exact ⟨first :: front, key, after, rfl, type, present⟩
        · rintro ⟨front, key, after, eq, type, present⟩
          cases front with
          | nil =>
            cases eq
            exact .inl type
          | cons _ front =>
            cases eq
            exact .inr ⟨front, key, after, rfl, type, present⟩
      · simp [Found]
  | diff =>
    cases sources with
    | nil => exact .ok (by simp [Fails]) (by simp [Found])
    | cons first rest =>
      refine (fromFirst_finds s db first fun acc => diffFrom_finds s db acc rest).congr ?_
        fun _ m => ?_
      · simp [Fails]
      · simp [Found]

/-- The command stores what the read returns in the state before, fails when it does, and touches
nothing but the destination. -/
structure StoresRead (op : SetOp) (s : StorageInner) (db : Nat) (destKey : Bytes)
    (sources : List Bytes) :
    Prop where
  errs : (∃ fault, (op.store db destKey sources s).2 = .error fault) ↔
    ∃ fault, op.read s db sources = .error fault
  stored : ∀ result, op.read s db sources = .ok result →
    smembers (op.store db destKey sources s).1 db destKey = .ok result
  absent : ∀ result, op.read s db sources = .ok result →
    ((op.store db destKey sources s).1.lookup db destKey = none ↔ result = [])
  others : ∀ db' key, ¬ (db' = db ∧ key = destKey) →
    (op.store db destKey sources s).1.lookup db' key = s.lookup db' key

/-- The destination is no source or there is nothing under it, or it makes no difference that it is
deleted. In a union or a difference that is so when there is another source of another type, or when
each of its members is added or taken away by another source as well; in an intersection when a
source of another type comes before the destination ends it, or when the sources have no member in
common. -/
def Harmless (op : SetOp) (s : StorageInner) (db : Nat) (destKey : Bytes) (sources : List Bytes) :
    Prop :=
  destKey ∉ sources ∨ s.lookup db destKey = none ∨
  match op with
  | .union => (∃ k ∈ sources, k ≠ destKey ∧ s.Other db k) ∨
      ¬ s.Other db destKey ∧ ∀ m ∈ s.members db destKey, ∃ k ∈ sources, k ≠ destKey ∧
      m ∈ s.members db k
  | .inter => (∃ front key rest, sources = front ++ key :: rest ∧ (key ≠ destKey ∧ s.Other db key) ∧
        ∀ k ∈ front.tail, k ≠ destKey ∧ s.lookup db k ≠ none) ∨
      ¬ SetOp.inter.Fails s db sources ∧ ∀ m, ∃ k ∈ sources, m ∉ s.members db k
  | .diff => (∃ k ∈ sources, k ≠ destKey ∧ s.Other db k) ∨
      ¬ s.Other db destKey ∧ ∀ m ∈ s.members db destKey, ∀ first ∈ sources.head?,
        if first = destKey then ∃ k ∈ sources.tail, m ∈ s.members db k
        else m ∈ s.members db first → ∃ k ∈ sources.tail, k ≠ destKey ∧ m ∈ s.members db k

section
variable {op : SetOp} {s : StorageInner} {db : Nat} {destKey : Bytes} {sources : List Bytes}

/-- What is left under the destination, and elsewhere. -/
lemma stored {a : Std.ExtTreeSet Bytes compare}
    (ok : op.compute (s.del db destKey) db sources = .ok a) :
    (op.store db destKey sources s).2 = .ok () ∧
      smembers (op.store db destKey sources s).1 db destKey = .ok a.toList ∧
      ((op.store db destKey sources s).1.lookup db destKey = none ↔ a.toList = []) := by
  have gone : (s.del db destKey).lookup db destKey = none := by
    rw [StorageInner.lookup_del, if_pos ⟨rfl, rfl⟩]
  have eq : op.store db destKey sources s = (if a.isEmpty then s.del db destKey
      else (s.del db destKey).put db destKey (.set a), .ok ()) := by
    rw [store_eq, storeResult, ok]
    rfl
  rw [eq]
  refine ⟨rfl, ?_⟩
  by_cases isEmpty : a.isEmpty = true
  · have isNil : a.toList = [] := by
      rw [← List.isEmpty_iff, Std.ExtTreeSet.isEmpty_toList, isEmpty]
    rw [if_pos isEmpty, smembers, gone, isNil]
    exact ⟨rfl, iff_of_true rfl rfl⟩
  · have held : ((s.del db destKey).put db destKey (.set a)).lookup db destKey = some (.set a) := by
      rw [StorageInner.lookup_put, if_pos ⟨rfl, rfl⟩]
    rw [if_neg isEmpty, smembers, held]
    refine ⟨rfl, iff_of_false (by rintro ⟨⟩) fun nowhere => isEmpty ?_⟩
    rw [← Std.ExtTreeSet.isEmpty_toList, nowhere]
    rfl

/-- No key but the destination changes. -/
lemma store_others (db' : Nat) (key : Bytes) (other : ¬ (db' = db ∧ key = destKey)) :
    (op.store db destKey sources s).1.lookup db' key = s.lookup db' key := by
  have deleted : (s.del db destKey).lookup db' key = s.lookup db' key := by
    rw [StorageInner.lookup_del, if_neg other]
  rw [store_eq, storeResult]
  split
  · rename_i a ok
    split
    · exact deleted
    · rw [StorageInner.lookup_put, if_neg other, deleted]
  · exact deleted

/-- A computation that fails fails the command. -/
lemma store_fails {fault : Fault}
    (error : op.compute (s.del db destKey) db sources = .error fault) :
    (op.store db destKey sources s).2 = .error fault := by
  rw [store_eq, storeResult, error]

/-- What the command computes is what the read computes. -/
lemma storesRead_iff : op.StoresRead s db destKey sources ↔
    (op.Fails (s.del db destKey) db sources ∧ op.Fails s db sources) ∨
    (¬ op.Fails (s.del db destKey) db sources ∧ ¬ op.Fails s db sources ∧
      ∀ m, op.Found (s.del db destKey) db sources m ↔ op.Found s db sources m) := by
  have after := op.compute_finds (s.del db destKey) db sources
  have before := op.compute_finds s db sources
  have readErrs : (∃ fault, op.read s db sources = .error fault) ↔ op.Fails s db sources := by
    rw [← before.errs, read_eq]
    cases op.compute s db sources with
    | ok b => exact iff_of_false nofun nofun
    | error fault => exact iff_of_true ⟨fault, rfl⟩ ⟨fault, rfl⟩
  -- the destination is deleted before the command computes, so its errors are those of what is left
  have storeErrs : (∃ fault, (op.store db destKey sources s).2 = .error fault) ↔
      op.Fails (s.del db destKey) db sources := by
    rw [← after.errs]
    cases computed : op.compute (s.del db destKey) db sources with
    | ok a =>
      rw [(stored computed).1]
      exact iff_of_false nofun nofun
    | error fault => exact iff_of_true ⟨fault, store_fails computed⟩ ⟨fault, rfl⟩
  constructor
  · intro h
    have errs := h.errs
    rw [storeErrs, readErrs] at errs
    by_cases fails : op.Fails s db sources
    · exact .inl ⟨errs.mpr fails, fails⟩
    · refine .inr ⟨mt errs.mp fails, fails, fun m => ?_⟩
      cases computed : op.compute (s.del db destKey) db sources with
      | error fault => exact absurd (errs.mp (after.errs.mp ⟨fault, computed⟩)) fails
      | ok a =>
        cases read : op.compute s db sources with
        | error fault => exact absurd (before.errs.mp ⟨fault, read⟩) fails
        | ok b =>
          have result := h.stored b.toList (by rw [read_eq, read]; rfl)
          rw [(stored computed).2.1] at result
          have same : a.toList = b.toList := Except.ok.inj result
          rw [← after.mem a computed, ← before.mem b read, ← Std.ExtTreeSet.mem_toList, same,
            Std.ExtTreeSet.mem_toList]
  · rintro (⟨fails, fails'⟩ | ⟨fine, fine', same⟩)
    · have none (result : List Bytes) : op.read s db sources ≠ .ok result := by
        obtain ⟨fault, error⟩ := readErrs.mpr fails'
        rw [error]
        nofun
      exact ⟨iff_of_true (storeErrs.mpr fails) (readErrs.mpr fails'),
        fun result ok => absurd ok (none result),
        fun result ok => absurd ok (none result), store_others⟩
    · -- sets with the same members are listed in the same order
      have equal (result : List Bytes) (ok : op.read s db sources = .ok result) :
          ∃ a, op.compute (s.del db destKey) db sources = .ok a ∧ result = a.toList := by
        cases computed : op.compute (s.del db destKey) db sources with
        | error fault => exact absurd (after.errs.mp ⟨fault, computed⟩) fine
        | ok a =>
          rw [read_eq] at ok
          cases read : op.compute s db sources with
          | error fault => exact absurd (before.errs.mp ⟨fault, read⟩) fine'
          | ok b =>
            have members : b = a := by
              apply Std.ExtTreeSet.ext_mem
              intro m
              rw [before.mem b read, after.mem a computed, same]
            rw [read, members] at ok
            exact ⟨a, rfl, (Except.ok.inj ok).symm⟩
      refine ⟨iff_of_false (mt storeErrs.mp fine) (mt readErrs.mp fine'), fun result ok => ?_,
        fun result ok => ?_, store_others⟩
      · obtain ⟨a, computed, rfl⟩ := equal result ok
        exact (stored computed).2.1
      · obtain ⟨a, computed, rfl⟩ := equal result ok
        exact (stored computed).2.2

/-- Where the destination is no source, or nothing is under it, deleting it changes no source. -/
lemma unaliased (h : destKey ∉ sources ∨ s.lookup db destKey = none) :
    (op.Fails (s.del db destKey) db sources ↔ op.Fails s db sources) ∧
      ∀ m, op.Found (s.del db destKey) db sources m ↔ op.Found s db sources m := by
  -- all that is computed depends on what is under the sources
  have same : ∀ k ∈ sources, (s.del db destKey).lookup db k = s.lookup db k := by
    intro k mem
    rw [lookup_source, StorageInner.source]
    split
    · rename_i here
      subst here
      exact (h.resolve_left (not_not_intro mem)).symm
    · rfl
  have members : ∀ k ∈ sources, (s.del db destKey).members db k = s.members db k := by
    intro k mem
    rw [StorageInner.members, StorageInner.members, same k mem]
  have other : ∀ k ∈ sources, (s.del db destKey).Other db k ↔ s.Other db k := by
    intro k mem
    rw [StorageInner.Other, StorageInner.Other, same k mem]
  have mixed : (∃ k ∈ sources, (s.del db destKey).Other db k) ↔ ∃ k ∈ sources, s.Other db k :=
    exists_congr fun k => and_congr_right fun mem => other k mem
  cases op with
  | union =>
    refine ⟨mixed, fun m => exists_congr fun k => and_congr_right fun mem => ?_⟩
    rw [members k mem]
  | inter =>
    refine ⟨?_, fun m => and_congr_right fun _ => forall_congr'
      fun k => forall_congr' fun mem => ?_⟩
    · refine exists_congr fun front => exists_congr fun key => exists_congr fun rest =>
        and_congr_right fun eq => ?_
      have here : key ∈ sources := by
        rw [eq]
        exact List.mem_append_right _ List.mem_cons_self
      rw [other key here]
      refine and_congr_right fun _ => forall_congr' fun k => forall_congr' fun mem => ?_
      have inside : k ∈ sources := by
        rw [eq]
        exact List.mem_append_left _ (List.mem_of_mem_tail mem)
      rw [same k inside]
    · rw [members k mem]
  | diff =>
    refine ⟨mixed, fun m => exists_congr fun first => and_congr_right fun head => and_congr ?_ ?_⟩
    · rw [members first (List.mem_of_mem_head? head)]
    · refine forall_congr' fun k => forall_congr' fun mem => ?_
      rw [members k (List.mem_of_mem_tail mem)]

/-- A member behind the deletion of the destination. -/
lemma mem_members_del {m key : Bytes} :
    m ∈ (s.del db destKey).members db key ↔ key ≠ destKey ∧ m ∈ s.members db key := by
  rw [StorageInner.members_del]
  split
  · rename_i here
    exact iff_of_false Std.ExtTreeSet.not_mem_empty fun h => h.1 here
  · rename_i other
    exact ⟨fun mem => ⟨other, mem⟩, fun h => h.2⟩

/-- A source of another type that is not the destination stops the command as well as the read. -/
lemma mixed_del : (∃ k ∈ sources, (s.del db destKey).Other db k) ↔
    ∃ k ∈ sources, k ≠ destKey ∧ s.Other db k := by
  simp only [StorageInner.other_del]

/-- Without such a source, only the destination can stop the read. -/
lemma mixed_iff (aliased : destKey ∈ sources)
    (nowhere : ¬ ∃ k ∈ sources, k ≠ destKey ∧ s.Other db k) :
    (∃ k ∈ sources, s.Other db k) ↔ s.Other db destKey := by
  constructor
  · rintro ⟨k, mem, type⟩
    by_cases here : k = destKey
    · rwa [← here]
    · exact absurd ⟨k, mem, here, type⟩ nowhere
  · exact fun type => ⟨destKey, aliased, type⟩

/-- The deletion is harmless for the union when other sources give its members. -/
lemma union_harmless (aliased : destKey ∈ sources) :
    ((∃ k ∈ sources, k ≠ destKey ∧ s.Other db k) ∨
      ¬ s.Other db destKey ∧ ∀ m ∈ s.members db destKey, ∃ k ∈ sources, k ≠ destKey ∧
      m ∈ s.members db k) ↔
    (SetOp.union.Fails (s.del db destKey) db sources ∧ SetOp.union.Fails s db sources) ∨
    (¬ SetOp.union.Fails (s.del db destKey) db sources ∧ ¬ SetOp.union.Fails s db sources ∧
      ∀ m, SetOp.union.Found (s.del db destKey) db sources m ↔
      SetOp.union.Found s db sources m) := by
  simp only [Fails, Found, mixed_del, mem_members_del]
  by_cases stops : ∃ k ∈ sources, k ≠ destKey ∧ s.Other db k
  · refine iff_of_true (.inl stops) (.inl ⟨stops, ?_⟩)
    obtain ⟨k, mem, -, type⟩ := stops
    exact ⟨k, mem, type⟩
  · simp only [stops, false_or, false_and, not_false_eq_true, true_and]
    rw [mixed_iff aliased stops]
    refine and_congr_right fun _ => ⟨fun covered m => ⟨?_, ?_⟩, fun same m mem => ?_⟩
    · rintro ⟨k, mem, -, inside⟩
      exact ⟨k, mem, inside⟩
    · rintro ⟨k, mem, inside⟩
      by_cases here : k = destKey
      · exact covered m (by rwa [← here])
      · exact ⟨k, mem, here, inside⟩
    · exact (same m).mpr ⟨destKey, aliased, mem⟩

/-- The deletion is harmless for the difference when its members do not matter. -/
lemma diff_harmless (aliased : destKey ∈ sources) :
    ((∃ k ∈ sources, k ≠ destKey ∧ s.Other db k) ∨
      ¬ s.Other db destKey ∧ ∀ m ∈ s.members db destKey, ∀ first ∈ sources.head?,
        if first = destKey then ∃ k ∈ sources.tail, m ∈ s.members db k
        else m ∈ s.members db first → ∃ k ∈ sources.tail, k ≠ destKey ∧ m ∈ s.members db k) ↔
    (SetOp.diff.Fails (s.del db destKey) db sources ∧ SetOp.diff.Fails s db sources) ∨
    (¬ SetOp.diff.Fails (s.del db destKey) db sources ∧ ¬ SetOp.diff.Fails s db sources ∧
      ∀ m, SetOp.diff.Found (s.del db destKey) db sources m ↔ SetOp.diff.Found s db sources m) := by
  simp only [Fails, Found, mixed_del, mem_members_del]
  by_cases stops : ∃ k ∈ sources, k ≠ destKey ∧ s.Other db k
  · refine iff_of_true (.inl stops) (.inl ⟨stops, ?_⟩)
    obtain ⟨k, mem, -, type⟩ := stops
    exact ⟨k, mem, type⟩
  · simp only [stops, false_or, false_and, not_false_eq_true, true_and]
    rw [mixed_iff aliased stops]
    refine and_congr_right fun _ => ?_
    obtain ⟨first, rest, rfl⟩ := List.exists_cons_of_ne_nil (List.ne_nil_of_mem aliased)
    simp only [List.head?_cons, Option.mem_some_iff, forall_eq', exists_eq_left', List.tail_cons]
    by_cases here : first = destKey
    · -- the minuend is deleted
      subst here
      simp only [if_true, ne_eq, not_true_eq_false, false_and, false_iff, not_and, not_forall,
        not_not, exists_prop]
    · simp only [ne_eq, here, not_false_eq_true, true_and]
      -- the destination is one of the sets that are taken away, and is deleted before
      have subtrahend : destKey ∈ rest := (List.mem_cons.mp aliased).resolve_left (Ne.symm here)
      constructor
      · intro covered m
        refine and_congr_right fun inside => ⟨fun absent k mem found => ?_,
          fun absent k mem found => ?_⟩
        · by_cases dest : k = destKey
          · subst dest
            obtain ⟨k', mem', found'⟩ := covered m found inside
            exact absent k' mem' found'
          · exact absent k mem ⟨dest, found⟩
        · exact absent k mem found.2
      · intro same m mem inside
        by_contra none
        refine ((same m).mp ⟨inside, fun k mem' found => none ⟨k, mem', found⟩⟩).2 destKey
          subtrahend mem

/-- The deletion is harmless for the intersection when nothing is common anyway. -/
lemma inter_harmless (aliased : destKey ∈ sources) :
    ((∃ front key rest, sources = front ++ key :: rest ∧ (key ≠ destKey ∧ s.Other db key) ∧
        ∀ k ∈ front.tail, k ≠ destKey ∧ s.lookup db k ≠ none) ∨
      ¬ SetOp.inter.Fails s db sources ∧ ∀ m, ∃ k ∈ sources, m ∉ s.members db k) ↔
    (SetOp.inter.Fails (s.del db destKey) db sources ∧ SetOp.inter.Fails s db sources) ∨
    (¬ SetOp.inter.Fails (s.del db destKey) db sources ∧ ¬ SetOp.inter.Fails s db sources ∧
      ∀ m, SetOp.inter.Found (s.del db destKey) db sources m ↔
      SetOp.inter.Found s db sources m) := by
  have stops : SetOp.inter.Fails (s.del db destKey) db sources ↔
      ∃ front key rest, sources = front ++ key :: rest ∧ (key ≠ destKey ∧ s.Other db key) ∧
        ∀ k ∈ front.tail, k ≠ destKey ∧ s.lookup db k ≠ none := by
    simp only [Fails, StorageInner.other_del, ne_eq, StorageInner.missing_del, not_or]
  have weaker : SetOp.inter.Fails (s.del db destKey) db sources →
    SetOp.inter.Fails s db sources := by
    rw [stops]
    rintro ⟨front, key, rest, eq, ⟨-, type⟩, others⟩
    exact ⟨front, key, rest, eq, type, fun k mem => (others k mem).2⟩
  rw [← stops]
  -- one of the sources is deleted, and nothing is in all of them
  have empty (m : Bytes) : ¬ SetOp.inter.Found (s.del db destKey) db sources m := by
    rintro ⟨-, all⟩
    exact (mem_members_del.mp (all destKey aliased)).1 rfl
  have common : (∀ m, SetOp.inter.Found (s.del db destKey) db sources m ↔
    SetOp.inter.Found s db sources m) ↔
      ∀ m, ∃ k ∈ sources, m ∉ s.members db k := by
    refine forall_congr' fun m => ?_
    rw [iff_false_left (empty m)]
    simp only [Found, List.ne_nil_of_mem aliased, ne_eq, not_false_eq_true, true_and, not_forall,
      exists_prop]
  rw [common]
  constructor
  · rintro (fails | ⟨fine, nowhere⟩)
    · exact .inl ⟨fails, weaker fails⟩
    · exact .inr ⟨mt weaker fine, fine, nowhere⟩
  · rintro (⟨fails, -⟩ | ⟨-, fine, nowhere'⟩)
    · exact .inl fails
    · exact .inr ⟨fine, nowhere'⟩

end

/-- In every state, with every destination and all sources: the command that stores a combination
agrees with the read of it exactly when the deletion of the destination is harmless. -/
theorem storesRead (op : SetOp) (s : StorageInner) (db : Nat) (destKey : Bytes)
    (sources : List Bytes) :
    op.StoresRead s db destKey sources ↔ op.Harmless s db destKey sources := by
  rw [storesRead_iff]
  unfold Harmless
  rw [← or_assoc]
  by_cases h : destKey ∉ sources ∨ s.lookup db destKey = none
  · obtain ⟨fails, found⟩ : (op.Fails (s.del db destKey) db sources ↔ op.Fails s db sources) ∧
        ∀ m, op.Found (s.del db destKey) db sources m ↔ op.Found s db sources m := unaliased h
    refine iff_of_true ?_ (.inl h)
    rw [fails]
    by_cases stops : op.Fails s db sources
    · exact .inl ⟨stops, stops⟩
    · exact .inr ⟨stops, stops, found⟩
  · have aliased := not_not.mp (not_or.mp h).1
    rw [or_iff_right h]
    cases op with
    | union => exact (union_harmless aliased).symm
    | inter => exact (inter_harmless aliased).symm
    | diff => exact (diff_harmless aliased).symm

/-- `SUNIONSTORE a a b`, where `a` holds one member and `b` is missing: the member is lost. -/
theorem storesRead_aliased :
    ¬ SetOp.union.StoresRead (.put .new 0 (ascii "a") (.set (.ofList [ascii "m"]))) 0 (ascii "a")
      [ascii "a", ascii "b"] := by
  intro h
  have result := h.stored [ascii "m"] (by decide +kernel)
  exact absurd result (by decide +kernel)

end SetOp

end Veidrodelis.TsNif
