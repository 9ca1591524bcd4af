import Mathlib.Data.Finset.Card
import Mathlib.Data.Finset.Filter
import Mathlib.Data.Finset.Image
import Veidrodelis.Lib.History
import Veidrodelis.TSProj.Watch

/-!
# The registrations behind the watches

What the watch storage is for: a set of registrations (`Live`). A sequence of calls defines one, and
the maps and the tree of the storage represent it (`Watch.Represents`), so that the answers and the
lookups are those of the set, as long as every new registration carries a term that `if` takes for
true.
-/

namespace Veidrodelis
open RedisStream (Reason)
open TsNif (PrefixWatchTree decodeU64 decodeU64_eq_some)

namespace Watch

/-! ## The set of registrations -/

/-- What is watched: one key, or the keys with a prefix. -/
inductive Kind where
  | exact
  | byPrefix
  deriving DecidableEq, Repr

structure Registration where
  kind : Kind
  pid : Pid
  db : Int
  value : Bytes
  ref : Ref
  deriving DecidableEq, Repr

/-- The calls that change the storage. -/
inductive Operation where
  | add (kind : Kind) (pid : Pid) (db : Int) (value : Bytes) (ref : Ref)
  | delete (kind : Kind) (pid : Pid) (db : Int) (value : Bytes)
  | deleteAll (pid : Pid)
  deriving DecidableEq, Repr

/-- An error, or how many registrations are left to the process if the call says so. -/
abbrev Answer := Except Reason (Option Nat)

/-- The registrations that are in force. -/
abbrev Live := Finset Registration

namespace Live

/-- The process watches the value. -/
def Has (live : Live) (kind : Kind) (pid : Pid) (db : Int) (value : Bytes) : Prop :=
  ∃ x ∈ live, x.kind = kind ∧ x.pid = pid ∧ x.db = db ∧ x.value = value

instance (live : Live) (kind : Kind) (pid : Pid) (db : Int) (value : Bytes) :
    Decidable (live.Has kind pid db value) :=
  inferInstanceAs (Decidable (∃ x ∈ live, _))

/-- The registrations of a process. -/
def count (live : Live) (pid : Pid) : Nat := (live.filter fun x => x.pid = pid).card

/-- All registrations but one. -/
def without (live : Live) (kind : Kind) (pid : Pid) (db : Int) (value : Bytes) : Live :=
  live.filter fun x => ¬ (x.kind = kind ∧ x.pid = pid ∧ x.db = db ∧ x.value = value)

/-- All but the registration are left. -/
lemma mem_without {live : Live} {kind : Kind} {pid : Pid} {db : Int} {value : Bytes}
    {x : Registration} :
    x ∈ live.without kind pid db value ↔ x ∈ live ∧
      ¬ (x.kind = kind ∧ x.pid = pid ∧ x.db = db ∧ x.value = value) :=
  Finset.mem_filter

/-- What a call answers and what it makes of the registrations. -/
def apply (live : Live) : Operation → Answer × Live
  | .add kind pid db value ref =>
    if live.Has kind pid db value then (.error (.text "already_registered"), live)
    else (.ok none, insert ⟨kind, pid, db, value, ref⟩ live)
  | .delete kind pid db value =>
    if live.Has kind pid db value then
      (.ok (some ((live.without kind pid db value).count pid)), live.without kind pid db value)
    else (.error (.text "not_found"), live)
  | .deleteAll pid => (.ok none, live.filter fun x => x.pid ≠ pid)

/-- A new registration carries a term that is neither `nil` nor `false`, and that of a prefix names
a database which the tree takes. -/
def Allows (live : Live) : Operation → Prop
  | .add kind pid db value ref => live.Has kind pid db value ∨
    ref.truthy = true ∧ (kind = .byPrefix → (decodeU64 db).isSome)
  | _ => True

/-- The set behind a call. -/
def next (live : Live) (op : Operation) : Live := (live.apply op).2

end Live

/-! ## The calls of the storage -/

/-- `key_to_pids`, or `prefix_to_pids`. -/
def registrations (watch : Watch) : Kind → Registrations
  | .exact => watch.keyToPids
  | .byPrefix => watch.prefixToPids

/-- `pid_to_keys`, or `pid_to_prefixes`. -/
def values (watch : Watch) : Kind → Std.ExtTreeMap Pid (List (Int × Bytes)) compare
  | .exact => watch.pidToKeys
  | .byPrefix => watch.pidToPrefixes

/-- A call: `add`, `add_prefix`, `delete`, `delete_prefix` or `delete_all`. -/
def apply [Runtime] (watch : Watch) : Operation → Answer × Watch
  | .add kind pid db value ref =>
    match (match kind with
      | .exact => watch.add pid db value ref
      | .byPrefix => watch.addPrefix pid db value ref) with
    | .ok watch => (.ok none, watch)
    | .error reason => (.error reason, watch)
  | .delete kind pid db value =>
    match (match kind with
      | .exact => watch.delete pid db value
      | .byPrefix => watch.deletePrefix pid db value) with
    | .ok (watch, left) => (.ok (some left), watch)
    | .error reason => (.error reason, watch)
  | .deleteAll pid => (.ok none, watch.deleteAll pid)

/-- The storage behind a call. -/
def next [Runtime] (watch : Watch) (op : Operation) : Watch := (watch.apply op).2

end Watch

/-! ## No empty levels -/

namespace Registrations

/-- No database and no value is kept without a process. -/
def Tidy (m : Registrations) : Prop :=
  ∀ (db : Int) (dbMap : DbMap), m[db]? = some dbMap → dbMap ≠ ∅ ∧
    ∀ (value : Bytes) (pidMap : Std.ExtTreeMap Pid Ref compare), dbMap[value]? =
    some pidMap → pidMap ≠ ∅

/-- A registration leaves no empty map. -/
lemma put_tidy {m : Registrations} (h : m.Tidy) (db : Int) (value : Bytes) (pid : Pid) (ref : Ref) :
    (m.put db value pid ref).Tidy := by
  intro db' dbMap here
  rw [put, Std.ExtTreeMap.getElem?_insert] at here
  split at here
  · cases here
    refine ⟨Std.ExtTreeMap.insert_ne_empty, fun value' pidMap there => ?_⟩
    rw [Std.ExtTreeMap.getElem?_insert] at there
    split at there
    · cases there
      exact Std.ExtTreeMap.insert_ne_empty
    · cases old : m[db]? with
      | none =>
        rw [old] at there
        simp at there
      | some dbMap =>
        rw [old] at there
        exact (h db dbMap old).2 value' pidMap there
  · exact h db' dbMap here

/-- A registration that is gone leaves no empty map. -/
lemma deletePid_tidy {m : Registrations} (h : m.Tidy) (db : Int) (value : Bytes) (pid : Pid) :
    (m.deletePid db value pid).Tidy := by
  unfold deletePid
  cases old : m[db]? with
  | none => exact h
  | some dbMap =>
    obtain ⟨-, inner⟩ := h db dbMap old
    -- what is put back for the database
    have putBack {dbMap' : DbMap} (filled : dbMap' ≠ ∅)
        (inner' : ∀ (value' : Bytes) (pidMap : Std.ExtTreeMap Pid Ref compare),
            dbMap'[value']? = some pidMap → pidMap ≠ ∅) :
        Tidy (m.insert db dbMap') := by
      intro db' dbMap'' here
      rw [Std.ExtTreeMap.getElem?_insert] at here
      split at here
      · cases here
        exact ⟨filled, inner'⟩
      · exact h db' dbMap'' here
    simp only
    split
    · have left : ∀ (value' : Bytes) (pidMap : Std.ExtTreeMap Pid Ref compare),
          (dbMap.erase value)[value']? = some pidMap → pidMap ≠ ∅ := by
        intro value' pidMap there
        rw [Std.ExtTreeMap.getElem?_erase] at there
        split at there
        · cases there
        · exact inner value' pidMap there
      split
      · intro db' dbMap' here
        rw [Std.ExtTreeMap.getElem?_erase] at here
        split at here
        · cases here
        · exact h db' dbMap' here
      · rename_i filled
        exact putBack (fun isEmpty => filled (Std.ExtTreeMap.isEmpty_iff.mpr isEmpty)) left
    · rename_i somebody
      refine putBack Std.ExtTreeMap.insert_ne_empty fun value' pidMap there => ?_
      rw [Std.ExtTreeMap.getElem?_insert] at there
      split at there
      · cases there
        exact fun isEmpty' => somebody (Std.ExtTreeMap.isEmpty_iff.mpr isEmpty')
      · exact inner value' pidMap there

/-- Registrations that are gone leave no empty map. -/
lemma deletePids_tidy {m : Registrations} (h : m.Tidy) (values : List (Int × Bytes)) (pid : Pid) :
    (values.foldl (fun m (db, value) => m.deletePid db value pid) m).Tidy := by
  induction values generalizing m with
  | nil => exact h
  | cons first rest ih => exact ih (deletePid_tidy h first.1 first.2 pid)

end Registrations

namespace Watch

/-! ## What the calls do to the maps -/

/-- A registration is added. -/
structure Added (watch watch' : Watch) (x : Registration) : Prop where
  registrations : ∀ kind, watch'.registrations kind =
    if kind = x.kind then (watch.registrations kind).put x.db x.value x.pid x.ref
      else watch.registrations kind
  values : ∀ kind, watch'.values kind =
    if kind = x.kind then noteValue (watch.values kind) x.pid (x.db, x.value) else watch.values kind
  index : ∀ pid : Pid, (watch'.idxByPid[pid]?).isSome →
    (watch.idxByPid[pid]?).isSome ∨ x.kind = .byPrefix ∧ pid = x.pid

/-- What a process has left without one of its values. -/
def others (watch : Watch) (kind : Kind) (pid : Pid) (value : Int × Bytes) : List (Int × Bytes) :=
  ((watch.values kind)[pid]?.getD []).filter (· ≠ value)

/-- A registration is removed. -/
structure Dropped (watch watch' : Watch) (kind : Kind) (pid : Pid) (db : Int) (value : Bytes) :
    Prop where
  registrations : ∀ kind', watch'.registrations kind' =
    if kind' = kind then (watch.registrations kind').deletePid db value pid
      else watch.registrations kind'
  values : ∀ kind' (pid' : Pid), (watch'.values kind')[pid']? =
    if kind' = kind ∧ pid' = pid then
      if watch.others kind pid (db, value) = [] then none
        else some (watch.others kind pid (db, value))
    else (watch.values kind')[pid']?
  index : ∀ pid' : Pid, (watch'.idxByPid[pid']?).isSome → (watch.idxByPid[pid']?).isSome ∧
    (kind = .byPrefix → pid' = pid → watch.others kind pid (db, value) ≠ [])

/-- All registrations of a process are removed. -/
structure Cleared (watch watch' : Watch) (pid : Pid) : Prop where
  refs : ∀ kind db value (pid' : Pid), (watch'.registrations kind).refOf db value pid' =
    if pid' = pid then none else (watch.registrations kind).refOf db value pid'
  tidy : ∀ kind, (watch.registrations kind).Tidy → (watch'.registrations kind).Tidy
  values : ∀ kind (pid' : Pid), (watch'.values kind)[pid']? =
    if pid' = pid then none else (watch.values kind)[pid']?
  index : ∀ pid' : Pid, (watch'.idxByPid[pid']?).isSome →
    (watch.idxByPid[pid']?).isSome ∧ pid' ≠ pid

section
variable {watch watch' : Watch} {kind : Kind} {pid : Pid} {db : Int} {value : Bytes} {ref : Ref}
  {left : Nat}

/-- A new watch is added to what there was. -/
lemma add_added (h : watch.add pid db value ref = .ok watch') :
    watch.Added watch' ⟨.exact, pid, db, value, ref⟩ := by
  unfold add at h
  split at h
  · cases h
  · cases h
    refine ⟨fun kind => ?_, fun kind => ?_, fun pid' h => .inl h⟩
    · cases kind with
      | exact => rfl
      | byPrefix => rfl
    · cases kind with
      | exact => rfl
      | byPrefix => rfl

/-- An index for a process changes no registration. -/
lemma ensurePidIdx_maps [Runtime] (watch : Watch) (pid : Pid) :
    (watch.ensurePidIdx pid).2.registrations = watch.registrations ∧
    (watch.ensurePidIdx pid).2.values = watch.values ∧
    ∀ pid' : Pid, ((watch.ensurePidIdx pid).2.idxByPid[pid']?).isSome →
      (watch.idxByPid[pid']?).isSome ∨ pid' = pid := by
  unfold ensurePidIdx
  split
  · exact ⟨rfl, rfl, fun pid' h => .inl h⟩
  · refine ⟨?_, ?_, fun pid' h => ?_⟩
    · funext kind
      cases kind with
      | exact => rfl
      | byPrefix => rfl
    · funext kind
      cases kind with
      | exact => rfl
      | byPrefix => rfl
    · rw [Std.ExtTreeMap.getElem?_insert] at h
      split at h
      · rename_i same
        exact .inr (Std.LawfulEqCmp.eq_of_compare same).symm
      · exact .inl h

/-- A new prefix watch is added to what there was. -/
lemma addPrefix_added [Runtime] (h : watch.addPrefix pid db value ref = .ok watch') :
    watch.Added watch' ⟨.byPrefix, pid, db, value, ref⟩ := by
  unfold addPrefix at h
  split at h
  · cases h
  · obtain ⟨registrations, values, index⟩ := ensurePidIdx_maps watch pid
    obtain ⟨idx, ensured⟩ := watch.ensurePidIdx pid
    simp only at h registrations values index
    cases valid : decodeU64 db with
    | none =>
      rw [valid] at h
      cases h
    | some n =>
      rw [valid] at h
      cases h
      refine ⟨fun kind => ?_, fun kind => ?_,
        fun pid' h => (index pid' h).imp_right fun same => ⟨rfl, same⟩⟩
      · rw [← registrations]
        cases kind with
        | exact => rfl
        | byPrefix => rfl
      · rw [← values]
        cases kind with
        | exact => rfl
        | byPrefix => rfl

/-- A process whose last value is dropped has no entry. -/
lemma getElem?_dropValue {pids : Std.ExtTreeMap Pid (List (Int × Bytes)) compare}
    {value : Int × Bytes} (known : value ∈ pids[pid]?.getD []) (pid' : Pid) :
    (dropValue pids pid value).1[pid']? =
      if pid' = pid then
        if (pids[pid]?.getD []).filter (· ≠ value) = [] then none
        else some ((pids[pid]?.getD []).filter (· ≠ value))
      else pids[pid']? := by
  unfold dropValue
  cases e : pids[pid]? with
  | none =>
    rw [e] at known
    exact absurd known List.not_mem_nil
  | some values =>
    simp only [Option.getD_some]
    by_cases same : pid' = pid
    · subst same
      rw [if_pos rfl]
      split
      · exact Std.ExtTreeMap.getElem?_erase_self
      · exact Std.ExtTreeMap.getElem?_insert_self
    · rw [if_neg same]
      split
      · rw [Std.ExtTreeMap.getElem?_erase, if_neg]
        exact fun eq => same (Std.LawfulEqCmp.eq_of_compare eq).symm
      · rw [Std.ExtTreeMap.getElem?_insert, if_neg]
        exact fun eq => same (Std.LawfulEqCmp.eq_of_compare eq).symm

/-- What the test of the storage finds is registered. -/
lemma isSome_of_registered {m : Registrations} (registered : m.registered db value pid = true) :
    (m.refOf db value pid).isSome := by
  rw [Registrations.registered] at registered
  cases e : m.refOf db value pid with
  | none =>
    rw [e] at registered
    cases registered
  | some ref => rfl

/-- A deleted watch is dropped from what there was, and the rest is counted. -/
lemma delete_dropped [Runtime] (linked : watch.Linked)
    (h : watch.delete pid db value = .ok (watch', left)) :
    watch.Dropped watch' .exact pid db value ∧
      left = watchCount watch'.pidToKeys pid + watchCount watch'.pidToPrefixes pid := by
  unfold delete at h
  split at h
  · rename_i registered
    have known : (db, value) ∈ watch.pidToKeys[pid]?.getD [] :=
      (linked.keys db value pid).mp (isSome_of_registered registered)
    cases h
    refine ⟨⟨fun kind => ?_, fun kind pid' => ?_, fun pid' h => ⟨h, nofun⟩⟩, ?_⟩
    · cases kind with
      | exact => rfl
      | byPrefix => rfl
    · cases kind with
      | exact =>
        show (dropValue watch.pidToKeys pid (db, value)).1[pid']? = _
        rw [getElem?_dropValue known]
        simp only [true_and]
        rfl
      | byPrefix =>
        rw [if_neg fun h => Kind.noConfusion h.1]
        rfl
    · show _ = watchCount (dropValue watch.pidToKeys pid (db, value)).1 pid + _
      rw [dropValue_count]
      rfl
  · cases h

/-- A deleted prefix watch is dropped from what there was, and the rest is counted. -/
lemma deletePrefix_dropped [Runtime] (linked : watch.Linked)
    (h : watch.deletePrefix pid db value = .ok (watch', left)) :
    watch.Dropped watch' .byPrefix pid db value ∧
      left = watchCount watch'.pidToKeys pid + watchCount watch'.pidToPrefixes pid := by
  unfold deletePrefix at h
  split at h
  · rename_i registered
    -- the process has the watch in the one map, so it has it in the other
    have known : (db, value) ∈ watch.pidToPrefixes[pid]?.getD [] :=
      (linked.prefixes db value pid).mp (isSome_of_registered registered)
    split at h
    · rename_i idx treeDb index valid
      have count := dropValue_count watch.pidToPrefixes pid (db, value)
      have dropped := getElem?_dropValue known
      rw [getElem_dropValue, if_pos rfl] at count
      simp only [Except.ok.injEq, Prod.mk.injEq] at h
      obtain ⟨rfl, rfl⟩ := h
      by_cases gone : (dropValue watch.pidToPrefixes pid (db, value)).2 = 0
      · -- the last one: the process gives its index up
        have isNil : watch.others .byPrefix pid (db, value) = [] := by
          rw [gone] at count
          exact List.length_eq_zero_iff.mp count.symm
        rw [if_pos gone]
        refine ⟨⟨fun kind => ?_, fun kind pid' => ?_, fun pid' h => ?_⟩, ?_⟩
        · cases kind with
          | exact => rfl
          | byPrefix => rfl
        · cases kind with
          | exact =>
            rw [if_neg fun h => Kind.noConfusion h.1]
            rfl
          | byPrefix =>
            show ((dropValue watch.pidToPrefixes pid (db, value)).1.erase pid)[pid']? = _
            rw [Std.ExtTreeMap.getElem?_erase, dropped, isNil]
            by_cases same : pid' = pid
            · simp [same]
            · simp [same, Ne.symm same, values]
        · rw [Std.ExtTreeMap.getElem?_erase] at h
          split at h
          · cases h
          · rename_i other
            exact ⟨h, fun _ same => absurd (Std.LawfulEqCmp.compare_eq_iff_eq.mpr same.symm) other⟩
        · show _ = _ + watchCount ((dropValue watch.pidToPrefixes pid (db, value)).1.erase pid) pid
          rw [watchCount, watchCount, Std.ExtTreeMap.getElem?_erase_self, gone]
          rfl
      · rw [if_neg gone]
        have nonempty : watch.others .byPrefix pid (db, value) ≠ [] := by
          intro nowhere
          rw [count] at gone
          exact gone (List.length_eq_zero_iff.mpr nowhere)
        refine ⟨⟨fun kind => ?_, fun kind pid' => ?_, fun pid' h => ⟨h, fun _ _ => nonempty⟩⟩, ?_⟩
        · cases kind with
          | exact => rfl
          | byPrefix => rfl
        · cases kind with
          | exact =>
            rw [if_neg fun h => Kind.noConfusion h.1]
            rfl
          | byPrefix =>
            show (dropValue watch.pidToPrefixes pid (db, value)).1[pid']? = _
            rw [dropped]
            simp only [true_and]
            rfl
        · show _ = _ + watchCount (dropValue watch.pidToPrefixes pid (db, value)).1 pid
          rw [dropValue_count]
          rfl
    · cases h
  · cases h

/-- A process is cleared of all its watches. -/
lemma deleteAll_cleared [Runtime] (linked : watch.Linked) (pid : Pid) :
    watch.Cleared (watch.deleteAll pid) pid := by
  have erased {β : Type} (m : Std.ExtTreeMap Pid β compare) (pid' : Pid) :
      (m.erase pid)[pid']? = if pid' = pid then none else m[pid']? := by
    rw [Std.ExtTreeMap.getElem?_erase]
    by_cases same : pid' = pid
    · simp [same]
    · simp [same, Ne.symm same]
  refine ⟨fun kind db value pid' => ?_, fun kind tidy => ?_, fun kind pid' => ?_, fun pid' h => ?_⟩
  · cases kind with
    | exact => exact refOf_deleteAll linked.keys pid db value pid'
    | byPrefix => exact refOf_deleteAll linked.prefixes pid db value pid'
  · cases kind with
    | exact => exact Registrations.deletePids_tidy tidy _ pid
    | byPrefix => exact Registrations.deletePids_tidy tidy _ pid
  · cases kind with
    | exact => exact erased watch.pidToKeys pid'
    | byPrefix => exact erased watch.pidToPrefixes pid'
  · have h : ((watch.idxByPid.erase pid)[pid']?).isSome := h
    rw [erased] at h
    split at h
    · cases h
    · rename_i other
      exact ⟨h, other⟩

end

/-! ## The storage represents the set -/

/-- The maps and the tree of the storage describe the registrations: the maps by value hold them
with their terms, those by process list their values, without a repetition and without a process
that has none, a process has an index while it watches prefixes, and what is linked to them is. -/
structure Represents [Runtime] (watch : Watch) (live : Live) : Prop where
  linked : watch.Linked
  held : ∀ kind db value pid ref, (watch.registrations kind).refOf db value pid = some ref ↔
    ⟨kind, pid, db, value, ref⟩ ∈ live
  listed : ∀ kind (pid : Pid) values, (watch.values kind)[pid]? = some values →
    values ≠ [] ∧ values.Nodup
  indexed : ∀ pid : Pid, (watch.idxByPid[pid]?).isSome →
    ∃ db pre ref, ⟨.byPrefix, pid, db, pre, ref⟩ ∈ live
  tidy : ∀ kind, (watch.registrations kind).Tidy

namespace Represents

section
variable [Runtime] {watch watch' : Watch} {live : Live} {kind : Kind} {pid : Pid} {db : Int}
  {value : Bytes} {ref : Ref}

/-- A registration is live when it is found in the table. -/
lemma has_iff (h : watch.Represents live) :
    live.Has kind pid db value ↔ ((watch.registrations kind).refOf db value pid).isSome := by
  rw [Option.isSome_iff_exists]
  constructor
  · rintro ⟨x, mem, rfl, rfl, rfl, rfl⟩
    exact ⟨x.ref, (h.held _ _ _ _ _).mpr mem⟩
  · rintro ⟨ref, held⟩
    exact ⟨_, (h.held _ _ _ _ _).mp held, rfl, rfl, rfl, rfl⟩

/-- A process and a value come with one term. -/
lemma refs_eq (h : watch.Represents live) {x y : Registration} (hx : x ∈ live) (hy : y ∈ live)
    (kind : x.kind = y.kind) (pid : x.pid = y.pid) (db : x.db = y.db) (value : x.value = y.value) :
    x = y := by
  have held : (watch.registrations x.kind).refOf x.db x.value x.pid = some x.ref :=
    (h.held _ _ _ _ _).mpr hx
  have held' : (watch.registrations y.kind).refOf y.db y.value y.pid = some y.ref :=
    (h.held _ _ _ _ _).mpr hy
  rw [kind, pid, db, value, held'] at held
  cases x
  cases y
  simp_all

/-- The values of a process are those of its live registrations. -/
lemma mem_values (h : watch.Represents live) :
    (db, value) ∈ (watch.values kind)[pid]?.getD [] ↔ live.Has kind pid db value := by
  rw [h.has_iff]
  cases kind with
  | exact => exact (h.linked.keys db value pid).symm
  | byPrefix => exact (h.linked.prefixes db value pid).symm

/-- No value of a process is noted twice. -/
lemma values_nodup (h : watch.Represents live) (kind : Kind) (pid : Pid) :
    ((watch.values kind)[pid]?.getD []).Nodup := by
  cases e : (watch.values kind)[pid]? with
  | none => exact List.nodup_nil
  | some values => exact (h.listed kind pid values e).2

/-- Empty tables represent no registrations. -/
lemma create : create.Represents ∅ where
  linked := create_linked
  held kind db value pid ref := by
    have absent : (Watch.create.registrations kind).refOf db value pid = none := by
      cases kind with
      | exact => exact Registrations.refOf_empty db value pid
      | byPrefix => exact Registrations.refOf_empty db value pid
    rw [absent]
    exact iff_of_false nofun (Finset.notMem_empty _)
  listed kind pid values e := by
    cases kind with
    | exact => simp [Watch.create, Watch.values] at e
    | byPrefix => simp [Watch.create, Watch.values] at e
  indexed pid h := by simp [Watch.create] at h
  tidy kind db dbMap e := by
    cases kind with
    | exact => simp [Watch.create, Watch.registrations] at e
    | byPrefix => simp [Watch.create, Watch.registrations] at e

/-- Tables with a new watch represent one registration more. -/
lemma added (h : watch.Represents live) {x : Registration} (linked : watch'.Linked)
    (new : ¬ live.Has x.kind x.pid x.db x.value) (added : watch.Added watch' x) :
    watch'.Represents (insert x live) where
  linked := linked
  held kind db value pid ref := by
    rw [added.registrations, Finset.mem_insert, ← h.held]
    by_cases same : kind = x.kind
    · rw [if_pos same, Registrations.refOf_put]
      by_cases here : db = x.db ∧ value = x.value ∧ pid = x.pid
      · obtain ⟨rfl, rfl, rfl⟩ := here
        -- the watch is new, so nothing was in its place
        have absent : (watch.registrations kind).refOf x.db x.value x.pid = none := by
          rw [h.has_iff, ← same, Option.not_isSome_iff_eq_none] at new
          exact new
        rw [absent, if_pos ⟨rfl, rfl, rfl⟩, Option.some.injEq]
        subst same
        constructor
        · rintro rfl
          exact .inl rfl
        · rintro (eq | absurd)
          · rw [← eq]
          · cases absurd
      · rw [if_neg here]
        refine ⟨.inr, fun h => h.resolve_left ?_⟩
        rintro rfl
        exact here ⟨rfl, rfl, rfl⟩
    · rw [if_neg same]
      refine ⟨.inr, fun h => h.resolve_left ?_⟩
      rintro rfl
      exact same rfl
  listed kind pid values e := by
    rw [added.values] at e
    split at e
    · rw [noteValue, Std.ExtTreeMap.getElem?_insert] at e
      split at e
      · cases e
        refine ⟨List.ne_nil_of_mem (List.mem_insert_self), ?_⟩
        exact (h.values_nodup kind x.pid).insert
      · exact h.listed kind pid values e
    · exact h.listed kind pid values e
  indexed pid e := by
    rcases added.index pid e with old | ⟨kind, rfl⟩
    · obtain ⟨db, pre, ref, mem⟩ := h.indexed pid old
      exact ⟨db, pre, ref, Finset.mem_insert_of_mem mem⟩
    · refine ⟨x.db, x.value, x.ref, ?_⟩
      rw [← kind]
      exact Finset.mem_insert_self x live
  tidy kind := by
    rw [added.registrations]
    split
    · exact Registrations.put_tidy (h.tidy kind) _ _ _ _
    · exact h.tidy kind

/-- Tables without a watch represent the other registrations. -/
lemma dropped (h : watch.Represents live) (linked : watch'.Linked)
    (dropped : watch.Dropped watch' kind pid db value) :
    watch'.Represents (live.without kind pid db value) where
  linked := linked
  held kind' db' value' pid' ref := by
    rw [dropped.registrations, Live.mem_without, ← h.held]
    by_cases same : kind' = kind
    · rw [if_pos same, Registrations.refOf_deletePid]
      by_cases here : db' = db ∧ value' = value ∧ pid' = pid
      · rw [if_pos here]
        exact iff_of_false nofun fun h => h.2 ⟨same, here.2.2, here.1, here.2.1⟩
      · rw [if_neg here]
        exact ⟨fun e => ⟨e, fun h => here ⟨h.2.2.1, h.2.2.2, h.2.1⟩⟩, fun h => h.1⟩
    · rw [if_neg same]
      exact ⟨fun e => ⟨e, fun h => same h.1⟩, fun h => h.1⟩
  listed kind' pid' values e := by
    rw [dropped.values] at e
    split at e
    · split at e
      · cases e
      · rename_i filled
        cases e
        exact ⟨filled, (h.values_nodup kind pid).filter _⟩
    · exact h.listed kind' pid' values e
  indexed pid' e := by
    obtain ⟨old, left⟩ := dropped.index pid' e
    by_cases here : kind = .byPrefix ∧ pid' = pid
    · obtain ⟨rfl, rfl⟩ := here
      -- the process has kept its index, so it has another prefix
      obtain ⟨other, mem⟩ := List.exists_mem_of_ne_nil _ (left rfl rfl)
      obtain ⟨mem, different⟩ := List.mem_filter.mp mem
      obtain ⟨x, inside, xkind, xpid, xdb, xvalue⟩ := h.mem_values.mp mem
      refine ⟨x.db, x.value, x.ref, Live.mem_without.mpr ⟨?_, ?_⟩⟩
      · rw [← xkind, ← xpid]
        exact inside
      · rintro ⟨-, -, db_eq, value_eq⟩
        rw [xdb] at db_eq
        rw [xvalue] at value_eq
        exact of_decide_eq_true different (Prod.ext db_eq value_eq)
    · obtain ⟨db', pre, ref, mem⟩ := h.indexed pid' old
      exact ⟨db', pre, ref, Live.mem_without.mpr ⟨mem, fun eq => here ⟨eq.1.symm, eq.2.1⟩⟩⟩
  tidy kind' := by
    rw [dropped.registrations]
    split
    · exact Registrations.deletePid_tidy (h.tidy kind') _ _ _
    · exact h.tidy kind'

/-- Tables without a process represent the registrations of the others. -/
lemma cleared (h : watch.Represents live) (linked : watch'.Linked)
    (cleared : watch.Cleared watch' pid) :
    watch'.Represents (live.filter fun x => x.pid ≠ pid) where
  linked := linked
  held kind db value pid' ref := by
    rw [cleared.refs, Finset.mem_filter, ← h.held]
    split
    · rename_i same
      exact iff_of_false nofun fun h => h.2 same
    · rename_i other
      exact ⟨fun e => ⟨e, other⟩, fun h => h.1⟩
  listed kind pid' values e := by
    rw [cleared.values] at e
    split at e
    · cases e
    · exact h.listed kind pid' values e
  indexed pid' e := by
    obtain ⟨old, other⟩ := cleared.index pid' e
    obtain ⟨db, pre, ref, mem⟩ := h.indexed pid' old
    exact ⟨db, pre, ref, Finset.mem_filter.mpr ⟨mem, other⟩⟩
  tidy kind := cleared.tidy kind (h.tidy kind)

/-- The registrations of one kind that a process has are as many as it lists. -/
lemma card_kind (h : watch.Represents live) (kind : Kind) (pid : Pid) :
    (live.filter fun x => x.pid = pid ∧ x.kind = kind).card =
      watchCount (watch.values kind) pid := by
  rw [watchCount, ← List.toFinset_card_of_nodup (h.values_nodup kind pid)]
  have same : (live.filter fun x => x.pid = pid ∧ x.kind = kind).image (fun x => (x.db, x.value)) =
      ((watch.values kind)[pid]?.getD []).toFinset := by
    ext ⟨db, value⟩
    rw [List.mem_toFinset, h.mem_values, Finset.mem_image]
    constructor
    · rintro ⟨x, mem, eq⟩
      obtain ⟨mem, xpid, xkind⟩ := Finset.mem_filter.mp mem
      cases eq
      exact ⟨x, mem, xkind, xpid, rfl, rfl⟩
    · rintro ⟨x, mem, xkind, xpid, rfl, rfl⟩
      exact ⟨x, Finset.mem_filter.mpr ⟨mem, xpid, xkind⟩, rfl⟩
  rw [← same, Finset.card_image_of_injOn]
  intro x hx y hy eq
  obtain ⟨hx, xpid, xkind⟩ := Finset.mem_filter.mp hx
  obtain ⟨hy, ypid, ykind⟩ := Finset.mem_filter.mp hy
  exact h.refs_eq hx hy (xkind.trans ykind.symm) (xpid.trans ypid.symm) (congrArg (fun p => p.1) eq)
    (congrArg (fun p => p.2) eq)

/-- The counts of the storage are those of the set. -/
lemma count_eq (h : watch.Represents live) (pid : Pid) :
    live.count pid = watchCount watch.pidToKeys pid + watchCount watch.pidToPrefixes pid := by
  have keys := h.card_kind .exact pid
  have prefixes := h.card_kind .byPrefix pid
  show _ = watchCount (watch.values .exact) pid + watchCount (watch.values .byPrefix) pid
  rw [Live.count, ← keys, ← prefixes, ← Finset.card_union_of_disjoint]
  · congr 1
    ext x
    simp only [Finset.mem_union, Finset.mem_filter]
    cases x.kind with
    | exact => simp
    | byPrefix => simp
  · rw [Finset.disjoint_filter]
    rintro x - ⟨-, exact⟩ ⟨-, byPrefix⟩
    rw [exact] at byPrefix
    cases byPrefix

/-- Where the terms are neither `nil` nor `false`, the test of the storage tells what is
registered. -/
lemma registered_iff (h : watch.Represents live) (truthy : ∀ x ∈ live, x.ref.truthy = true) :
    (watch.registrations kind).registered db value pid = true ↔ live.Has kind pid db value := by
  rw [h.has_iff, Registrations.registered]
  cases e : (watch.registrations kind).refOf db value pid with
  | none => exact iff_of_false nofun nofun
  | some ref => exact iff_of_true (truthy _ ((h.held _ _ _ _ _).mp e)) rfl

/-- What can be added is added, and what is there is refused. -/
lemma apply_add (h : watch.Represents live) (truthy : ∀ x ∈ live, x.ref.truthy = true)
    (allowed : live.Allows (.add kind pid db value ref)) :
    (watch.apply (.add kind pid db value ref)).1 = (live.apply (.add kind pid db value ref)).1 ∧
      (watch.next (.add kind pid db value ref)).Represents
      (live.next (.add kind pid db value ref)) := by
  have registered : (watch.registrations kind).registered db value pid = true ↔
    live.Has kind pid db value :=
    h.registered_iff truthy
  simp only [Watch.next, Live.next, Watch.apply, Live.apply]
  by_cases has : live.Has kind pid db value
  · rw [← registered] at has
    rw [if_pos (registered.mp has)]
    cases kind with
    | exact =>
      have refused : watch.add pid db value ref = .error (.text "already_registered") := if_pos has
      rw [refused]
      exact ⟨rfl, h⟩
    | byPrefix =>
      have refused : watch.addPrefix pid db value ref = .error (.text "already_registered") :=
        if_pos has
      rw [refused]
      exact ⟨rfl, h⟩
  · obtain ⟨-, fits⟩ := allowed.resolve_left has
    rw [if_neg has]
    rw [← registered] at has
    cases kind with
    | exact =>
      obtain ⟨watch', ok⟩ : ∃ watch', watch.add pid db value ref = .ok watch' := ⟨_, if_neg has⟩
      rw [ok]
      exact ⟨rfl, h.added (add_linked h.linked ok) (by rwa [← registered]) (add_added ok)⟩
    | byPrefix =>
      obtain ⟨watch', ok⟩ : ∃ watch', watch.addPrefix pid db value ref = .ok watch' := by
        obtain ⟨n, valid⟩ := Option.isSome_iff_exists.mp (fits rfl)
        rw [addPrefix, if_neg (by exact has)]
        simp only [valid]
        exact ⟨_, rfl⟩
      rw [ok]
      exact ⟨rfl, h.added (addPrefix_linked h.linked ok)
        (by rwa [← registered]) (addPrefix_added ok)⟩

/-- What is there is deleted, and the rest is counted. -/
lemma apply_delete (h : watch.Represents live) (truthy : ∀ x ∈ live, x.ref.truthy = true) :
    (watch.apply (.delete kind pid db value)).1 = (live.apply (.delete kind pid db value)).1 ∧
      (watch.next (.delete kind pid db value)).Represents
      (live.next (.delete kind pid db value)) := by
  have registered : (watch.registrations kind).registered db value pid = true ↔
    live.Has kind pid db value :=
    h.registered_iff truthy
  simp only [Watch.next, Live.next, Watch.apply, Live.apply]
  by_cases has : live.Has kind pid db value
  · have present := registered.mpr has
    rw [if_pos has]
    cases kind with
    | exact =>
      obtain ⟨watch', left, ok⟩ : ∃ watch' left, watch.delete pid db value = .ok (watch', left) :=
        ⟨_, _, if_pos present⟩
      obtain ⟨dropped, count⟩ := delete_dropped h.linked ok
      have rest := h.dropped (delete_linked h.linked ok) dropped
      rw [ok, rest.count_eq, count]
      exact ⟨rfl, rest⟩
    | byPrefix =>
      -- the process has an index and the database fits, since the watch is registered
      obtain ⟨watch', left, ok⟩ : ∃ watch' left, watch.deletePrefix pid db value =
        .ok (watch', left) := by
        obtain ⟨has, fits⟩ := h.linked.indexed db value pid (h.has_iff.mp has)
        obtain ⟨idx, index⟩ := Option.isSome_iff_exists.mp has
        obtain ⟨n, valid⟩ := Option.isSome_iff_exists.mp fits
        rw [deletePrefix, if_pos (by exact present), index, valid]
        exact ⟨_, _, rfl⟩
      obtain ⟨dropped, count⟩ := deletePrefix_dropped h.linked ok
      have rest := h.dropped (deletePrefix_linked h.linked ok) dropped
      rw [ok, rest.count_eq, count]
      exact ⟨rfl, rest⟩
  · rw [if_neg has]
    rw [← registered] at has
    cases kind with
    | exact =>
      have refused : watch.delete pid db value = .error (.text "not_found") := if_neg has
      rw [refused]
      exact ⟨rfl, h⟩
    | byPrefix =>
      have refused : watch.deletePrefix pid db value = .error (.text "not_found") := if_neg has
      rw [refused]
      exact ⟨rfl, h⟩

/-- Every call that is allowed answers what the set says, and keeps to it. -/
lemma step (h : watch.Represents live) (truthy : ∀ x ∈ live, x.ref.truthy = true) {op : Operation}
    (allowed : live.Allows op) :
    (watch.apply op).1 = (live.apply op).1 ∧ (watch.next op).Represents (live.next op) := by
  cases op with
  | add kind pid db value ref => exact h.apply_add truthy allowed
  | delete kind pid db value => exact h.apply_delete truthy
  | deleteAll pid =>
    exact ⟨rfl, h.cleared (deleteAll_linked h.linked pid) (deleteAll_cleared h.linked pid)⟩

end

end Represents

/-- The terms of the registrations stay such that `if` takes them for true. -/
lemma Live.next_truthy {live : Live} (truthy : ∀ x ∈ live, x.ref.truthy = true) {op : Operation}
    (allowed : live.Allows op) : ∀ x ∈ live.next op, x.ref.truthy = true := by
  cases op with
  | add kind pid db value ref =>
    simp only [Live.next, Live.apply]
    split
    · exact truthy
    · rename_i new
      intro x mem
      rcases Finset.mem_insert.mp mem with rfl | old
      · exact (allowed.resolve_left new).1
      · exact truthy x old
  | delete kind pid db value =>
    simp only [Live.next, Live.apply]
    split
    · exact fun x mem => truthy x (Live.mem_without.mp mem).1
    · exact truthy
  | deleteAll pid => exact fun x mem => truthy x (Finset.mem_filter.mp mem).1

/-! ## What the lookups return -/

/-- A list without its duplicates has none. -/
lemma nodup_eraseDups {α : Type} [BEq α] [LawfulBEq α] (items : List α) :
    items.eraseDups.Nodup := by
  induction h : items.length using Nat.strong_induction_on generalizing items with
  | _ n ih =>
    cases items with
    | nil => exact List.nodup_nil
    | cons item rest =>
      rw [List.eraseDups_cons, List.nodup_cons, List.mem_eraseDups]
      refine ⟨fun mem => ?_, ih _ ?_ _ rfl⟩
      · have other := (List.mem_filter.mp mem).2
        simp at other
      · rw [← h]
        exact Nat.lt_succ_of_le (List.length_filter_le _ _)

/-- No watcher is found twice. -/
lemma lookup_nodup (watch : Watch) (db : Int) (key : Bytes) : (watch.lookup db key).Nodup := by
  rw [lookup, List.Nodup, List.pairwise_map]
  refine (Std.ExtTreeMap.distinct_keys_toList).imp ?_
  intro p q distinct same
  have pid : p.1 = q.1 := congrArg (fun r => r.2) same
  rw [pid] at distinct
  exact distinct Std.ReflCmp.compare_self

/-- What the storage answers and finds is what the set of registrations says, each pair once, and
the maps and the tree describe the set. -/
structure Faithful [Runtime] (watch : Watch) (live : Live) : Prop where
  answers : ∀ op, live.Allows op → (watch.apply op).1 = (live.apply op).1
  lookup : ∀ db key, (watch.lookup db key).Nodup ∧
    ∀ ref pid, (ref, pid) ∈ watch.lookup db key ↔ ⟨.exact, pid, db, key, ref⟩ ∈ live
  lookupPrefix : ∀ (db : Nat) key, db < 2 ^ 64 → ∃ found, watch.lookupPrefix db key =
    .ok found ∧ found.Nodup ∧
    ∀ ref pid, (ref, pid) ∈ found ↔ ∃ pre, pre <+: key ∧ ⟨.byPrefix, pid, db, pre, ref⟩ ∈ live
  lookupByDb : ∀ db, (watch.lookupByDb db).Nodup ∧
    ∀ ref pid, (ref, pid) ∈ watch.lookupByDb db ↔ ∃ x ∈ live, x.db = db ∧ x.pid = pid ∧ x.ref = ref
  allWatchers : watch.allWatchers.Nodup ∧
    ∀ pid ref, (pid, ref) ∈ watch.allWatchers ↔ ∃ x ∈ live, x.pid = pid ∧ x.ref = ref
  represents : watch.Represents live

/-- Tables that represent the live registrations answer from them. -/
lemma Represents.faithful [Runtime] {watch : Watch} {live : Live} (h : watch.Represents live)
    (truthy : ∀ x ∈ live, x.ref.truthy = true) : watch.Faithful live where
  answers op allowed := (h.step truthy allowed).1
  lookup db key := by
    refine ⟨lookup_nodup watch db key, fun ref pid => ?_⟩
    rw [mem_lookup]
    exact h.held .exact db key pid ref
  lookupPrefix db key small := by
    obtain ⟨found, ok, mem⟩ := mem_lookupPrefix h.linked small key
    refine ⟨found, ok, ?_, fun ref pid => ?_⟩
    · have dups : ∃ items : List (Ref × Pid), found = items.eraseDups := by
        unfold Watch.lookupPrefix at ok
        split at ok
        · cases ok
        · cases ok
          exact ⟨_, rfl⟩
      obtain ⟨items, rfl⟩ := dups
      exact nodup_eraseDups items
    · rw [mem]
      have held (pre : Bytes) := h.held .byPrefix db pre pid ref
      constructor
      · rintro ⟨-, pre, sub, e⟩
        exact ⟨pre, sub, (held pre).mp e⟩
      · rintro ⟨pre, sub, inside⟩
        -- the lookup leaves out what has no reference
        refine ⟨?_, pre, sub, (held pre).mpr inside⟩
        rintro rfl
        exact Bool.noConfusion (truthy _ inside)
  lookupByDb db := by
    refine ⟨nodup_eraseDups _, fun ref pid => ?_⟩
    rw [mem_lookupByDb]
    constructor
    · rintro (⟨key, e⟩ | ⟨pre, e⟩)
      · exact ⟨_, (h.held .exact db key pid ref).mp e, rfl, rfl, rfl⟩
      · exact ⟨_, (h.held .byPrefix db pre pid ref).mp e, rfl, rfl, rfl⟩
    · rintro ⟨⟨kind, pid, db, value, ref⟩, inside, rfl, rfl, rfl⟩
      cases kind with
      | exact => exact .inl ⟨value, (h.held .exact db value pid ref).mpr inside⟩
      | byPrefix => exact .inr ⟨value, (h.held .byPrefix db value pid ref).mpr inside⟩
  allWatchers := by
    refine ⟨nodup_eraseDups _, fun pid ref => ?_⟩
    rw [mem_allWatchers]
    constructor
    · rintro (⟨db, key, e⟩ | ⟨db, pre, e⟩)
      · exact ⟨_, (h.held .exact db key pid ref).mp e, rfl, rfl⟩
      · exact ⟨_, (h.held .byPrefix db pre pid ref).mp e, rfl, rfl⟩
    · rintro ⟨⟨kind, pid, db, value, ref⟩, inside, rfl, rfl⟩
      cases kind with
      | exact => exact .inl ⟨db, value, (h.held .exact db value pid ref).mpr inside⟩
      | byPrefix => exact .inr ⟨db, value, (h.held .byPrefix db value pid ref).mpr inside⟩
  represents := h

/-- Behind every sequence of calls in which a new registration carries a term that is neither `nil`
nor `false`, and one of a prefix names a database that the tree takes, the storage is faithful to
the set of registrations which the sequence defines. -/
theorem watchStore [Runtime] (ops : List Operation)
    (allowed : History.Always Live.next Live.Allows ∅ ops) :
    (History.after Watch.next .create ops).Faithful (History.after Live.next ∅ ops) := by
  suffices runs : ∀ (watch : Watch) (live : Live), watch.Represents live →
    (∀ x ∈ live, x.ref.truthy = true) →
      History.Always Live.next Live.Allows live ops →
      (History.after Watch.next watch ops).Faithful (History.after Live.next live ops) from
    runs .create ∅ .create (fun x mem => absurd mem (Finset.notMem_empty x)) allowed
  clear allowed
  induction ops with
  | nil => exact fun watch live h truthy _ => h.faithful truthy
  | cons op ops ih =>
    intro watch live h truthy allowed
    exact ih _ _ (h.step truthy allowed.1).2 (Live.next_truthy truthy allowed.1) allowed.2

/-- The integers that the runtime gives out, counted up. -/
@[reducible] def counting : Runtime := ⟨fun n => n + 1, fun n m eq => by simpa using eq⟩

/-- Two watches of one process, the second one of a prefix, and the first one deleted. -/
def twoWatches : List Operation :=
  [.add .exact 1 0 (ascii "k") (.term 5), .add .byPrefix 1 0 (ascii "k") (.term 6),
    .delete .exact 1 0 (ascii "k")]

/-- Two watches of one process, answered from what is live. -/
theorem watchStore_two :
    @Faithful counting (History.after (@Watch.next counting) .create twoWatches)
      (History.after Live.next ∅ twoWatches) :=
  @watchStore counting twoWatches
    ⟨.inr ⟨rfl, nofun⟩, .inr ⟨rfl, fun _ => by decide +kernel⟩, trivial, trivial⟩

/-- A watch that carries `nil` is registered, and cannot be deleted. -/
theorem watchStore_nil :
    ¬ @Faithful counting
      (History.after (@Watch.next counting) .create [.add .exact 1 0 (ascii "k") .nil])
      (History.after Live.next ∅ [.add .exact 1 0 (ascii "k") .nil]) := by
  intro h
  have answer := @Faithful.answers counting _ _ h (.delete .exact 1 0 (ascii "k")) trivial
  exact absurd answer (by decide +kernel)

end Watch

end Veidrodelis
