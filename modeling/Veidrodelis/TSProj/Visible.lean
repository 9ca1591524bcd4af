import Veidrodelis.RedisNif.ChunkInvariance
import Veidrodelis.TSProj.Updates
import Veidrodelis.RedisStream.Contract

/-!
# What readers see when an Update comes

The record of a run (`View`) has what the registry exposes and the batch that was handed over last.
While a snapshot is loaded into the new storage, batches go there, but whether watchers are told
depends on `ready` alone: an Update is about the exposed storage as long as nobody watches what is
loaded (`Steady`).
-/

namespace Veidrodelis

namespace Watch

/-- Somebody watches what a command affects. -/
def Hears (watch : Watch) (db : Nat) : RedisStream.Command → Prop
  | .flushall => ∃ d key pid ref, watch.On d key pid ref
  | .flushdb => ∃ key pid ref, watch.On db key pid ref
  | .swapdb db1 db2 => ∃ key pid ref, watch.On db1 key pid ref ∨ watch.On db2 key pid ref
  | command => ∃ key ∈ TSProj.affectedKeys command, ∃ pid ref, watch.Finds db key pid ref

end Watch

namespace TSProj
open RedisStream (Callback Command Reason ReplicaCommand)
open RedisStream
open TsNif (Indexset StorageInner Returns executeAll)

/-! ## Where Updates come from -/

section
variable {watch : Watch} {pid : Pid} {ref : Ref} {command : Command} {db : Nat}

/-- Whoever is notified watches one of the keys. -/
lemma finds_of_mem_notifyKeys {keys : List Bytes}
    (mem : .update pid ref command db ∈ (notifyKeys watch db command keys).1) :
    ∃ key ∈ keys, watch.Finds db key pid ref := by
  induction keys with
  | nil => exact absurd mem List.not_mem_nil
  | cons key rest ih =>
    rw [notifyKeys, Watch.lookupPrefix] at mem
    cases e : TsNif.decodeU64 db with
    | none =>
      rw [e] at mem
      exact absurd mem List.not_mem_nil
    | some treeDb =>
      rw [e] at mem
      obtain here | later := List.mem_append.mp mem
      · rw [mem_updates, List.mem_eraseDups, List.mem_append, Watch.mem_lookup] at here
        refine ⟨key, List.mem_cons_self, here.imp_right fun found => ?_⟩
        obtain ⟨idx, _, found⟩ := List.mem_flatMap.mp (List.mem_eraseDups.mp found)
        cases e' : watch.pidByIdx[idx]? with
        | none =>
          rw [e'] at found
          exact absurd found List.not_mem_nil
        | some pid' =>
          rw [e'] at found
          obtain ⟨rfl, named, pre, _, sub, held⟩ := (Watch.mem_prefixRefs _ _).mp found
          exact ⟨named, pre, sub, held⟩
      · obtain ⟨key', mem', finds⟩ := ih later
        exact ⟨key', List.mem_cons_of_mem _ mem', finds⟩

/-- Whoever is registered in a database watches a key of it. -/
lemma on_of_registered {d : Int}
    (h : (∃ key, watch.keyToPids.refOf d key pid = some ref) ∨
      ∃ pre, watch.prefixToPids.refOf d pre pid = some ref) : ∃ key, watch.On d key pid ref := by
  obtain ⟨key, held⟩ | ⟨pre, held⟩ := h
  · exact ⟨key, .inl held⟩
  · exact ⟨pre, .inr ⟨pre, List.prefix_refl pre, held⟩⟩

/-- An Update is sent when the storage is ready and somebody watches. -/
lemma hears_of_mem {s : State}
    (mem : .update pid ref command db ∈ (notifyWatchers s db command).1) :
    s.ready = true ∧ s.watch.Hears db command := by
  unfold notifyWatchers at mem
  split_ifs at mem with ready
  · refine ⟨ready, ?_⟩
    cases command with
    | flushall =>
      rw [mem_updates] at mem
      obtain ⟨⟨pid', ref'⟩, found, eq⟩ := List.mem_map.mp mem
      cases eq
      obtain ⟨d, key, held⟩ | ⟨d, pre, held⟩ := Watch.mem_allWatchers.mp found
      · exact ⟨d, key, pid, ref, .inl held⟩
      · exact ⟨d, pre, pid, ref, .inr ⟨pre, List.prefix_refl pre, held⟩⟩
    | flushdb =>
      rw [mem_updates, Watch.mem_lookupByDb] at mem
      obtain ⟨key, on⟩ := on_of_registered mem
      exact ⟨key, pid, ref, on⟩
    | swapdb db1 db2 =>
      rw [mem_updates, List.mem_eraseDups, List.mem_append, Watch.mem_lookupByDb,
        Watch.mem_lookupByDb] at mem
      obtain first | second := mem
      · obtain ⟨key, on⟩ := on_of_registered first
        exact ⟨key, pid, ref, .inl on⟩
      · obtain ⟨key, on⟩ := on_of_registered second
        exact ⟨key, pid, ref, .inr on⟩
    | _ =>
      obtain ⟨key, mem, finds⟩ := finds_of_mem_notifyKeys mem
      exact ⟨key, mem, pid, ref, finds⟩
  · exact absurd mem List.not_mem_nil

/-- Whoever is notified hears one of the commands. -/
lemma mem_notifyAll {s : State} {commands : List DbCommand}
    (mem : .update pid ref command db ∈ (notifyAll s commands).1) :
    (db, command) ∈ commands ∧ s.ready = true ∧ s.watch.Hears db command := by
  induction commands with
  | nil => exact absurd mem List.not_mem_nil
  | cons c rest ih =>
    obtain ⟨db', command'⟩ := c
    rw [notifyAll] at mem
    have first : .update pid ref command db ∈ (notifyWatchers s db' command').1 →
        (db, command) ∈ (db', command') :: rest ∧ s.ready = true ∧ s.watch.Hears db command := by
      intro here
      obtain ⟨pid', ref', eq⟩ := notifyWatchers_of db' command' _ here
      cases eq
      exact ⟨List.mem_cons_self, hears_of_mem here⟩
    cases e : notifyWatchers s db' command' with
    | mk events result =>
      cases result with
      | error reason =>
        rw [e] at mem first
        exact first mem
      | ok _ =>
        rw [e] at mem first
        obtain here | later := List.mem_append.mp mem
        · exact first here
        · exact (ih later).imp_left (List.mem_cons_of_mem _)

/-- A command that somebody may watch is for a storage. -/
lemma converted_of_hears (hears : watch.Hears db command) :
    ∃ c, convertCommand db command = some c := by
  cases command with
  | generic args =>
    obtain ⟨key, mem, _⟩ := hears
    exact absurd mem List.not_mem_nil
  | _ => exact ⟨_, rfl⟩

end

/-! ## What calls leave as it is -/

/-- What `handle_commands` does not change. -/
structure State.SameView (s s' : State) : Prop where
  tsStorage : s'.tsStorage = s.tsStorage
  newTsStorage : s'.newTsStorage = s.newTsStorage
  ready : s'.ready = s.ready
  watch : s'.watch = s.watch

/-- A state has its own view. -/
lemma State.SameView.refl (s : State) : s.SameView s := ⟨rfl, rfl, rfl, rfl⟩

/-- States with the view of a third one have the same. -/
lemma State.SameView.trans {s s' s'' : State} (h : s.SameView s') (h' : s'.SameView s'') :
    s.SameView s'' :=
  ⟨h'.tsStorage.trans h.tsStorage, h'.newTsStorage.trans h.newTsStorage, h'.ready.trans h.ready,
    h'.watch.trans h.watch⟩

section
variable [Indexset] {s s' : State}

/-- A transaction keeps the view. -/
lemma runTx_same {batch : List DbCommand} (h : (runTx s batch).2 = .ok s') : s.SameView s' := by
  unfold runTx at h
  split at h
  · cases h
    exact .refl _
  · split at h
    · cases h
    · simp only at h
      split at h
      · cases h
        exact ⟨rfl, rfl, rfl, rfl⟩
      · cases h

/-- A flush keeps the view. -/
lemma flush_same {commands : List DbCommand} (h : (flush s commands).2 = .ok s') : s.SameView s' :=
  runTx_same (flush_eq_ok.mp h).1

/-- Flushes keep the view. -/
lemma flushEach_same {flushes : List (List DbCommand)} (h : (flushEach flushes s).2 = .ok s') :
    s.SameView s' := by
  induction flushes generalizing s with
  | nil =>
    cases h
    exact .refl _
  | cons commands rest ih =>
    obtain ⟨t, first, later⟩ := Step.andThen_eq_ok.mp h
    exact (flush_same first).trans (ih later)

/-- What some flushes tell, one of them tells, in a state with the same view. -/
lemma of_mem_flushEach {flushes : List (List DbCommand)} {event : Event}
    (mem : event ∈ (flushEach flushes s).1) :
    ∃ t, s.SameView t ∧ ∃ commands ∈ flushes, event ∈ (flush t commands).1 := by
  induction flushes generalizing s with
  | nil => exact absurd mem List.not_mem_nil
  | cons commands rest ih =>
    obtain here | ⟨t, first, later⟩ := Step.mem_andThen.mp mem
    · exact ⟨s, .refl s, commands, List.mem_cons_self, here⟩
    · obtain ⟨u, same, flushed, listed, told⟩ := ih later
      exact ⟨u, (flush_same first).trans same, flushed, List.mem_cons_of_mem _ listed, told⟩

/-- A call is the flushes that it leads to. -/
lemma handleCommands_eq (s : State) (commands : List (ReplicaCommand Command)) :
    handleCommands s commands = (flushEach (s.pending.calls [received commands]).1 s).map
      (·.withPending (s.pending.calls [received commands]).2) := by
  have calls := handleEach_eq [commands] s s.pending
  have single : handleEach [commands] s = handleCommands s commands :=
    Step.andThen_ok.trans Step.map_id
  rwa [withPending_pending, single] at calls

/-- Commands keep the view. -/
lemma handleCommands_same {commands : List (ReplicaCommand Command)}
    (h : (handleCommands s commands).2 = .ok s') : s.SameView s' := by
  rw [handleCommands_eq, Step.map_eq_ok] at h
  obtain ⟨t, ok, rfl⟩ := h
  have same := flushEach_same ok
  exact ⟨same.tsStorage, same.newTsStorage, same.ready, same.watch⟩

end

/-! ## The record of a run -/

/-- What the registry exposes, and the batch that was handed over last, with its storage and what
was in it afterwards. -/
structure View where
  exposed : Option Storage
  ready : Bool
  latest : Option (Storage × List DbCommand × StorageInner)

/-- The effects of the replica with the projection. -/
abbrev Effect := RedisStream.Replica.Effect Command State Event

namespace View

/-- How the record changes. -/
def next (v : View) : Effect → View
  | .callback (.register storage ready) => { v with exposed := storage, ready }
  | .callback (.tx storage batch content) => { v with latest := some (storage, batch, content) }
  | _ => v

/-- The record in front of everything. -/
def start : View := ⟨none, false, none⟩

end View

/-- The record of a trace. -/
def viewOf (trace : List Effect) : View := History.after View.next .start trace

/-- An Update is about a command of the last batch, which was executed in the exposed storage. -/
def Visible [Indexset] (v : View) : Effect → Prop
  | .callback (.update _ _ command db) => v.ready = true ∧ ∃ storage batch content,
      v.exposed = some storage ∧ v.latest = some (storage, batch, content) ∧
      (∃ before, Returns batch before ∧ content = executeAll batch before) ∧
      ∃ c ∈ batch, convertCommand db command = some c
  | _ => True

/-- Nobody watches what a call hands over while the exposed storage is not the one that it goes
to. -/
def Steady (s : State) (commands : List (ReplicaCommand Command)) : Prop :=
  s.ready = true → s.newTsStorage ≠ none →
    ∀ c ∈ (s.pending.calls [received commands]).1.flatten, ¬ s.watch.Hears c.1 c.2

/-! ## Calls and messages -/

/-- A step that shows nothing new, of a function that registers nothing. -/
structure Plain (s : State) (step : Step) : Prop where
  monitors : ∀ event ∈ step.1,
    (∃ pid monitor, event = .monitor pid monitor) ∨ ∃ monitor, event = .demonitor monitor
  same : ∀ s', step.2 = .ok s' → s'.tsStorage = s.tsStorage ∧ s'.ready = s.ready

/-- A step that does nothing is plain. -/
lemma Plain.idle {s : State} : Plain s ([], .ok s) where
  monitors := List.forall_mem_nil _
  same := by
    rintro s' ⟨⟩
    exact ⟨rfl, rfl⟩

/-- A step that fails at once is plain. -/
lemma Plain.error {s : State} (reason : Reason) : Plain s ([], .error reason) where
  monitors := List.forall_mem_nil _
  same := nofun

/-- To monitor a process is plain. -/
lemma putWatchAndMonitor_plain (s : State) (watch : Watch) (pid : Pid) :
    Plain s (putWatchAndMonitor s watch pid) := by
  unfold putWatchAndMonitor
  split
  · refine ⟨List.forall_mem_nil _, ?_⟩
    rintro s' ⟨⟩
    exact ⟨rfl, rfl⟩
  · refine ⟨fun event mem => .inl ⟨pid, s.monitored, List.mem_singleton.mp mem⟩, ?_⟩
    rintro s' ⟨⟩
    exact ⟨rfl, rfl⟩

/-- To add a watch is plain. -/
lemma addWatch_plain (s : State) (pid : Pid) (added : Except Reason Watch) :
    Plain s (addWatch s pid added) := by
  match added with
  | .ok watch => exact putWatchAndMonitor_plain s watch pid
  | .error .raised => exact .error .raised
  | .error (.redisError _) => exact .idle
  | .error (.parserError _) => exact .idle
  | .error (.text _) => exact .idle
  | .error (.failed _ _) => exact .idle

/-- To drop a watch is plain. -/
lemma dropWatch_plain (s : State) (pid : Pid) (deleted : Except Reason (Watch × Nat)) :
    Plain s (dropWatch s pid deleted) := by
  match deleted with
  | .ok (watch, 0) =>
    constructor
    · intro event mem
      rw [dropWatch] at mem
      cases e : s.monitors[pid]? with
      | none =>
        rw [e] at mem
        exact absurd mem List.not_mem_nil
      | some monitor =>
        rw [e] at mem
        exact .inr ⟨monitor, List.mem_singleton.mp mem⟩
    · rintro s' ⟨⟩
      exact ⟨rfl, rfl⟩
  | .ok (watch, count + 1) =>
    refine ⟨List.forall_mem_nil _, ?_⟩
    rintro s' ⟨⟩
    exact ⟨rfl, rfl⟩
  | .error .raised => exact .error .raised
  | .error (.redisError _) => exact .idle
  | .error (.parserError _) => exact .idle
  | .error (.text _) => exact .idle
  | .error (.failed _ _) => exact .idle

/-- Calls are plain. -/
lemma handleCall_plain [Runtime] (s : State) (message : Message) :
    Plain s (handleCall s message) := by
  cases message with
  | watch => exact addWatch_plain _ _ _
  | watchPrefix => exact addWatch_plain _ _ _
  | unwatch => exact dropWatch_plain _ _ _
  | unwatchPrefix => exact dropWatch_plain _ _ _
  | down => exact .idle
  | other => exact .idle

/-- Messages are plain. -/
lemma handleInfo_plain (s : State) (message : Message) : Plain s (handleInfo s message) := by
  cases message with
  | down =>
    refine ⟨List.forall_mem_nil _, ?_⟩
    rintro s' ⟨⟩
    exact ⟨rfl, rfl⟩
  | watch => exact .idle
  | watchPrefix => exact .idle
  | unwatch => exact .idle
  | unwatchPrefix => exact .idle
  | other => exact .idle

/-! ## The contract of the projection -/

/-- The record goes with what the module has registered. -/
structure View.Shows (v : View) (s : State) : Prop where
  exposed : v.exposed = s.tsStorage
  ready : v.ready = s.ready

/-- A view shows every state with that view. -/
lemma View.Shows.same {v : View} {s s' : State} (h : v.Shows s) (same : s.SameView s') :
    v.Shows s' :=
  ⟨h.exposed.trans same.tsStorage.symm, h.ready.trans same.ready.symm⟩

section
variable [Indexset] {v : View} {s s' : State}

/-- Events that are all right, and do not change what is exposed. -/
structure Proper (v : View) (events : List Event) : Prop where
  always : History.Always View.next Visible v (events.map .callback)
  exposed : (History.after View.next v (events.map .callback)).exposed = v.exposed
  ready : (History.after View.next v (events.map .callback)).ready = v.ready

/-- No events are proper. -/
lemma Proper.nil : Proper v [] := ⟨trivial, rfl, rfl⟩

/-- Proper events, one part after the other. -/
lemma Proper.append {events events' : List Event} (h : Proper v events)
    (h' : Proper (History.after View.next v (events.map .callback)) events') :
    Proper v (events ++ events') := by
  constructor
  · rw [List.map_append]
    exact h.always.append h'.always
  · rw [List.map_append, History.after_append]
    exact h'.exposed.trans h.exposed
  · rw [List.map_append, History.after_append]
    exact h'.ready.trans h.ready

/-- Events that are not recorded. -/
lemma Proper.unrecorded {events : List Event} (h : ∀ event ∈ events, v.next (.callback event) = v)
    (visible : ∀ event ∈ events, Visible v (.callback event)) : Proper v events := by
  have mapped (p : Effect → Prop) (h : ∀ event ∈ events, p (.callback event)) :
      ∀ e ∈ events.map .callback, p e := by
    intro e mem
    obtain ⟨event, here, rfl⟩ := List.mem_map.mp mem
    exact h event here
  have same := History.after_unrecorded (mapped (fun e => v.next e = v) h)
  exact ⟨.of_unrecorded (mapped (fun e => v.next e = v) h) (mapped _ visible), by
    rw [same], by rw [same]⟩

/-- Updates for commands of the batch that was just executed in the exposed storage. -/
lemma proper_notifyAll {storage : Storage} {batch commands : List DbCommand}
    {content : StorageInner} (ready : v.ready = s.ready)
    (latest : v.latest = some (storage, batch, content))
    (executed : ∃ before, Returns batch before ∧ content = executeAll batch before)
    (exposed : ∀ c ∈ commands, s.ready = true → s.watch.Hears c.1 c.2 → v.exposed = some storage)
    (converted : ∀ c ∈ commands, ∀ c', convertCommand c.1 c.2 = some c' → c' ∈ batch) :
    Proper v (notifyAll s commands).1 := by
  apply Proper.unrecorded
  · intro event mem
    obtain ⟨pid, ref, command, db, rfl⟩ := notifyAll_only commands event mem
    rfl
  · intro event mem
    obtain ⟨pid, ref, command, db, rfl⟩ := notifyAll_only commands event mem
    obtain ⟨mem, isReady, hears⟩ := mem_notifyAll mem
    obtain ⟨c, eq⟩ := converted_of_hears hears
    exact ⟨ready.trans isReady, storage, batch, content, exposed _ mem isReady hears, latest,
      executed, c, converted _ mem c eq, eq⟩

/-- A flush whose commands nobody watches, unless they go to the exposed storage. -/
lemma proper_flush {commands : List DbCommand} (shows : v.Shows s)
    (steady : s.ready = true → s.newTsStorage ≠ none → ∀ c ∈ commands, ¬ s.watch.Hears c.1 c.2) :
    Proper v (flush s commands).1 := by
  rw [flush]
  by_cases isNil : convertible commands = []
  · -- commands that are for no storage are watched by nobody
    have silent : (notifyAll s commands).1 = [] := by
      apply List.eq_nil_iff_forall_not_mem.mpr
      intro event mem
      obtain ⟨pid, ref, command, db, rfl⟩ := notifyAll_only commands event mem
      obtain ⟨mem, _, hears⟩ := mem_notifyAll mem
      obtain ⟨c, eq⟩ := converted_of_hears hears
      have here : c ∈ convertible commands := List.mem_filterMap.mpr ⟨(db, command), mem, eq⟩
      rw [isNil] at here
      exact absurd here List.not_mem_nil
    rw [runTx, if_pos isNil, Step.ok_andThen, silent]
    exact .nil
  cases target : s.newTsStorage.or s.tsStorage with
  | none =>
    rw [runTx, if_neg isNil, target]
    exact .nil
  | some storage =>
    rw [runTx_some target isNil]
    have recorded : Proper v [.tx storage (convertible commands)
        (TsNif.tx (convertible commands) (s.content storage)).1] := ⟨⟨trivial, trivial⟩, rfl, rfl⟩
    cases result : (TsNif.tx (convertible commands) (s.content storage)).2 with
    | error fault => exact recorded
    | ok results =>
      have returns := (TsNif.ok_iff_returns _ _).mp ⟨results, result⟩
      apply recorded.append
      apply proper_notifyAll
      · exact shows.ready
      · rfl
      · exact ⟨s.content storage, returns, TsNif.tx_storage returns⟩
      · intro c mem ready hears
        show v.exposed = some storage
        have old : s.newTsStorage = .none := by
          by_contra loading
          exact steady ready loading c mem hears
        rw [old, Option.none_or] at target
        exact shows.exposed.trans target
      · exact fun c mem c' eq => List.mem_filterMap.mpr ⟨c, mem, eq⟩

/-- Flushes make proper events while nobody hears a re-sync. -/
lemma proper_flushEach {flushes : List (List DbCommand)} (shows : v.Shows s)
    (steady : s.ready = true → s.newTsStorage ≠ none → ∀ c ∈ flushes.flatten,
      ¬ s.watch.Hears c.1 c.2) : Proper v (flushEach flushes s).1 := by
  induction flushes generalizing s v with
  | nil => exact .nil
  | cons commands rest ih =>
    have here : Proper v (flush s commands).1 :=
      proper_flush shows fun ready loading c mem =>
        steady ready loading c (List.mem_append_left _ mem)
    rw [flushEach]
    cases result : (flush s commands).2 with
    | error reason =>
      rw [Step.andThen_of_error result]
      exact here
    | ok t =>
      have same := flush_same result
      rw [Step.andThen_of_ok result]
      apply here.append
      apply ih
      · exact (View.Shows.mk (here.exposed.trans shows.exposed) (here.ready.trans shows.ready)).same
          same
      · rw [same.ready, same.newTsStorage, same.watch]
        exact fun ready loading c mem => steady ready loading c (List.mem_append_right _ mem)

/-- A call, when nobody watches what it hands over to a new storage. -/
lemma proper_handleCommands {commands : List (ReplicaCommand Command)} (shows : v.Shows s)
    (steady : Steady s commands) : Proper v (handleCommands s commands).1 := by
  rw [handleCommands_eq]
  exact proper_flushEach shows steady

/-- An Update of a flush is for one of its commands. -/
lemma mem_flush {commands : List DbCommand} {pid : Pid} {ref : Ref} {command : Command} {db : Nat}
    (mem : .update pid ref command db ∈ (flush s commands).1) :
    (db, command) ∈ commands ∧ s.ready = true ∧ s.watch.Hears db command := by
  obtain here | ⟨t, ran, told⟩ := Step.mem_andThen.mp mem
  · exact absurd here (update_not_mem_runTx s (convertible commands) pid ref command db)
  · have same := runTx_same ran
    rw [← same.ready, ← same.watch]
    exact mem_notifyAll told

/-- Whoever is told by a flush hears one of its commands. -/
lemma mem_flushEach {flushes : List (List DbCommand)} {pid : Pid} {ref : Ref} {command : Command}
    {db : Nat} (mem : .update pid ref command db ∈ (flushEach flushes s).1) :
    (db, command) ∈ flushes.flatten ∧ s.ready = true ∧ s.watch.Hears db command := by
  obtain ⟨t, same, commands, listed, told⟩ := of_mem_flushEach mem
  rw [← same.ready, ← same.watch]
  exact (mem_flush told).imp_left (List.mem_flatten_of_mem listed)

/-- Monitors are not recorded. -/
lemma proper_monitors {events : List Event}
    (h : ∀ event ∈ events, (∃ pid monitor, event = .monitor pid monitor) ∨
      ∃ monitor, event = .demonitor monitor) : Proper v events := by
  apply Proper.unrecorded
  · intro event mem
    obtain ⟨pid, monitor, rfl⟩ | ⟨monitor, rfl⟩ := h event mem
    · rfl
    · rfl
  · intro event mem
    obtain ⟨pid, monitor, rfl⟩ | ⟨monitor, rfl⟩ := h event mem
    · trivial
    · trivial

/-- A plain step keeps what the view shows. -/
lemma Plain.shows {step : Step} (h : Plain s step) (shows : v.Shows s) :
    Replica.Keeps View.next Visible View.Shows v step ∧
      (History.after View.next v (step.1.map .callback)).Shows s := by
  have proper := proper_monitors (v := v) h.monitors
  refine ⟨⟨proper.always, fun s' ok => ?_⟩, proper.exposed.trans shows.exposed,
    proper.ready.trans shows.ready⟩
  obtain ⟨tsStorage, ready⟩ := h.same s' ok
  exact ⟨(proper.exposed.trans shows.exposed).trans tsStorage.symm,
    (proper.ready.trans shows.ready).trans ready.symm⟩

/-- What the watchers are told when the stream is exposed. -/
def State.inits (s : State) : List Event := s.watch.allWatchers.map fun (pid, ref) => .init pid ref

omit [Indexset] in
/-- The events of the switch are Inits. -/
lemma mem_inits {s : State} {event : Event} (mem : event ∈ s.inits) :
    ∃ pid ref, event = .init pid ref := by
  obtain ⟨watcher, _, rfl⟩ := List.mem_map.mp mem
  exact ⟨watcher.1, watcher.2, rfl⟩

/-- The events of `handle_streaming_start`, as effects of the replica. -/
lemma streamingStart_effects [Runtime] (s : State) :
    ((callback.handleStreamingStart s).1.map .callback : List Effect) =
      s.inits.map .callback ++ [.callback (.register s.newTsStorage true)] :=
  List.map_append

/-- What the functions of the projection keep. -/
lemma contract [Runtime] : Replica.Contract View.next Visible View.Shows callback
    Steady .start where
  outside r e outside := by
    cases e with
    | handleCommands => exact outside.elim
    | callback => exact outside.elim
    | send => exact ⟨rfl, trivial⟩
    | close => exact ⟨rfl, trivial⟩
    | startTimer => exact ⟨rfl, trivial⟩
    | cancelTimer => exact ⟨rfl, trivial⟩
    | psyncCompleted => exact ⟨rfl, trivial⟩
    | parserData => exact ⟨rfl, trivial⟩
    | callbackFailed => exact ⟨rfl, trivial⟩
  init := by
    refine ⟨⟨trivial, trivial⟩, ?_⟩
    rintro s ⟨⟩
    exact ⟨rfl, rfl⟩
  replicationStart v s shows := by
    refine ⟨trivial, ?_⟩
    rintro s' ⟨⟩
    exact ⟨shows.exposed, shows.ready⟩
  streamingStart v s shows := by
    -- in front of the registration, nothing is recorded
    have told : Proper v s.inits := by
      apply Proper.unrecorded
      · intro event mem
        obtain ⟨_, _, rfl⟩ := mem_inits mem
        rfl
      · intro event mem
        obtain ⟨_, _, rfl⟩ := mem_inits mem
        trivial
    constructor
    · show History.Always _ _ _ ((_ ++ [Event.register s.newTsStorage true]).map _)
      rw [List.map_append]
      exact told.always.append ⟨trivial, trivial⟩
    · rintro s' ⟨⟩
      show View.Shows (History.after View.next
        _ ((_ ++ [Event.register s.newTsStorage true]).map _)) _
      rw [List.map_append, History.after_append]
      exact ⟨rfl, rfl⟩
  asked _ _ _ _ _ := trivial
  commands v s commands shows steady := by
    have proper := proper_handleCommands shows steady
    refine ⟨proper.always, fun s' ok => ?_⟩
    exact (View.Shows.mk (proper.exposed.trans shows.exposed) (proper.ready.trans shows.ready)).same
      (handleCommands_same ok)
  call v s message shows := ((handleCall_plain s message).shows shows).1
  callFails v s message _ shows _ := ((handleCall_plain s message).shows shows).2
  info v s message shows := ((handleInfo_plain s message).shows shows).1
  infoFails v s message _ shows _ := ((handleInfo_plain s message).shows shows).2

end

/-- In every run of the replica with the projection, in which nobody watches what is handed over to
a new storage while an old one is exposed: when an Update is sent, its command is in the last batch,
which was executed in the storage that the registry exposes; and a call that loads a snapshot sends
none. -/
theorem updates_visible [Indexset] [Runtime] {cfg : Replica.Config Command State Event Message}
    (projection : cfg.callback = callback) {trace : List Effect} {st : Replica.Status State}
    (run : Replica.Run cfg trace st)
    (steady : ∀ s commands, .handleCommands s commands ∈ trace → Steady s commands) :
    (∀ before later pid ref command db,
      trace = before ++ .callback (.update pid ref command db) :: later →
      (viewOf before).ready = true ∧ ∃ storage batch content,
        (viewOf before).exposed = some storage ∧
        (viewOf before).latest = some (storage, batch, content) ∧
        (∃ prior, Returns batch prior ∧ content = executeAll batch prior) ∧
        ∃ c ∈ batch, convertCommand db command = some c) ∧
    ∀ s commands, .handleCommands s commands ∈ trace → s.newTsStorage ≠ none →
      ∀ pid ref command db, .update pid ref command db ∉ (handleCommands s commands).1 := by
  have kept : Replica.Contract View.next Visible View.Shows cfg.callback Steady .start :=
    projection ▸ contract
  obtain ⟨always, _⟩ := Replica.run_contract kept run steady
  refine ⟨?_, ?_⟩
  · rintro before later pid ref command db rfl
    exact always.at
  · intro s commands mem loading pid ref command db sent
    rw [handleCommands_eq] at sent
    obtain ⟨mem', ready, hears⟩ := mem_flushEach sent
    exact steady s commands mem ready loading _ mem' hears

/-! ## The watch table of a run -/

section
variable [Runtime] {s : State}

/-- To add a watch keeps the tables linked. -/
lemma addWatch_linked {pid : Pid} {added : Except Reason Watch} (linked : s.watch.Linked)
    (h : ∀ watch, added = .ok watch → watch.Linked) (s' : State)
    (ok : (addWatch s pid added).2 = .ok s') : s'.watch.Linked := by
  match added with
  | .ok watch =>
    change (putWatchAndMonitor s watch pid).2 = .ok s' at ok
    unfold putWatchAndMonitor at ok
    split at ok
    · cases ok
      exact h watch rfl
    · cases ok
      exact h watch rfl
  | .error .raised => cases ok
  | .error (.redisError _) => cases ok; exact linked
  | .error (.parserError _) => cases ok; exact linked
  | .error (.text _) => cases ok; exact linked
  | .error (.failed _ _) => cases ok; exact linked

/-- To drop a watch keeps the tables linked. -/
lemma dropWatch_linked {pid : Pid} {deleted : Except Reason (Watch × Nat)} (linked : s.watch.Linked)
    (h : ∀ watch count, deleted = .ok (watch, count) → watch.Linked) (s' : State)
    (ok : (dropWatch s pid deleted).2 = .ok s') : s'.watch.Linked := by
  match deleted with
  | .ok (watch, 0) => cases ok; exact h watch 0 rfl
  | .ok (watch, count + 1) => cases ok; exact h watch (count + 1) rfl
  | .error .raised => cases ok
  | .error (.redisError _) => cases ok; exact linked
  | .error (.parserError _) => cases ok; exact linked
  | .error (.text _) => cases ok; exact linked
  | .error (.failed _ _) => cases ok; exact linked

/-- Calls keep the tables linked. -/
lemma handleCall_linked (linked : s.watch.Linked) (message : Message) (s' : State)
    (ok : (handleCall s message).2 = .ok s') : s'.watch.Linked := by
  cases message with
  | watch => exact addWatch_linked linked (fun _ => Watch.add_linked linked) s' ok
  | watchPrefix => exact addWatch_linked linked (fun _ => Watch.addPrefix_linked linked) s' ok
  | unwatch => exact dropWatch_linked linked (fun _ _ => Watch.delete_linked linked) s' ok
  | unwatchPrefix =>
    exact dropWatch_linked linked (fun _ _ => Watch.deletePrefix_linked linked) s' ok
  | down => cases ok; exact linked
  | other => cases ok; exact linked

/-- Messages keep the tables linked. -/
lemma handleInfo_linked (linked : s.watch.Linked) (message : Message) (s' : State)
    (ok : (handleInfo s message).2 = .ok s') : s'.watch.Linked := by
  cases message with
  | down pid => cases ok; exact Watch.deleteAll_linked linked pid
  | watch => cases ok; exact linked
  | watchPrefix => cases ok; exact linked
  | unwatch => cases ok; exact linked
  | unwatchPrefix => cases ok; exact linked
  | other => cases ok; exact linked

/-- In every run, the maps of the watch table are linked. -/
theorem run_linked [Indexset] {cfg : Replica.Config Command State Event Message}
    (projection : cfg.callback = callback) {trace : List Effect} {s : Replica.State State}
    (run : Replica.Run cfg trace (.running s)) : s.callbackState.watch.Linked := by
  -- nothing is recorded, and the property is about the state alone
  have keeps {result : Step} (h : ∀ s', result.2 = .ok s' → s'.watch.Linked) :
      Replica.Keeps (fun (_ : Unit) (_ : Effect) => ()) (fun _ _ => True)
        (fun _ (s : State) => s.watch.Linked) () result :=
    ⟨.of_forall fun _ _ _ => trivial, h⟩
  have contract : Replica.Contract (fun (_ : Unit) (_ : Effect) => ()) (fun _ _ => True)
      (fun _ (s : State) => s.watch.Linked) cfg.callback (fun _ _ => True) () := by
    rw [projection]
    constructor
    case outside => exact fun _ _ _ => ⟨rfl, trivial⟩
    case init =>
      apply keeps
      rintro s' ⟨⟩
      exact Watch.create_linked
    case replicationStart =>
      rintro _ s linked
      apply keeps
      rintro s' ⟨⟩
      exact linked
    case streamingStart =>
      rintro _ s linked
      apply keeps
      rintro s' ⟨⟩
      exact linked
    case asked => exact fun _ _ _ _ _ => trivial
    case commands =>
      intro _ s commands linked _
      apply keeps
      intro s' ok
      rw [(handleCommands_same ok).watch]
      exact linked
    case call => exact fun _ s message linked => keeps (handleCall_linked linked message)
    case callFails => exact fun _ _ _ _ linked _ => linked
    case info => exact fun _ s message linked => keeps (handleInfo_linked linked message)
    case infoFails => exact fun _ _ _ _ linked _ => linked
  exact (Replica.run_contract contract run fun _ _ _ => trivial).2 s rfl

end

/-! ## Runs with a watch -/

/-- The replica with the projection and the default options. -/
def projectionConfig [Graphemes] [Indexset] [Runtime] :
    Replica.Config Command State Event Message where
  parse := CommandParser.parse
  callback := callback
  commandFilter := .identity
  username := none
  password := none
  reconnectEnabled := true
  reconnectDelayMs := 1000
  maxReconnectDelayMs := 30000
  ackIntervalMs := 1000

/-- Parameters for sample runs. -/
def sampleConfig : Replica.Config Command State Event Message :=
  @projectionConfig ⟨fun _ => false⟩ (.exact false) ⟨fun n => n, Nat.cast_injective⟩

/-- The replies of the primary up to the header of a snapshot. -/
def fullresync : List (Replica.Message Message) :=
  [.data 0 (ascii "+PONG\r\n"), .data 0 (ascii "+OK\r\n"), .data 0 (ascii "+OK\r\n"),
    .data 0 (ascii "+FULLRESYNC id 7\r\n$23\r\n")]

/-- A snapshot with the key `k` is loaded, then a process watches it. -/
def watchedRun : List (Replica.Message Message) :=
  fullresync ++ [.data 0 RedisNif.ReplicaParser.sampleImage,
    .callbackCall (.watch 7 0 (ascii "k") (.term 0))]

/-- What the callback module does. -/
def eventOf : Effect → Option Event
  | .callback event => some event
  | _ => none

/-- The trace in front of an event and behind it. -/
lemma split_at {effects : List Effect} {n : Nat} {event : Event}
    (h : (effects[n]?).bind eventOf = some event) :
    effects = effects.take n ++ .callback event :: effects.drop (n + 1) := by
  obtain ⟨e, here, eq⟩ := Option.bind_eq_some_iff.mp h
  obtain ⟨inside, rfl⟩ := List.getElem?_eq_some_iff.mp here
  have same : effects[n] = .callback event := by
    cases e' : effects[n] with
    | callback event' =>
      rw [e'] at eq
      rw [Option.some.inj eq]
    | _ =>
      rw [e'] at eq
      cases eq
  rw [← same, List.getElem_cons_drop, List.take_append_drop]

/-- Calls while no snapshot is loaded, or none has been loaded before. -/
def settledCalls (trace : List Effect) : Bool :=
  trace.all fun
    | .handleCommands s _ => !s.ready || s.newTsStorage.isNone
    | _ => true

/-- Calls that pass the check are steady. -/
lemma steady_of_settledCalls {trace : List Effect} (h : settledCalls trace = true) (s : State)
    (commands : List (ReplicaCommand Command)) (mem : .handleCommands s commands ∈ trace) :
    Steady s commands := by
  intro ready loading
  have here : (!s.ready || s.newTsStorage.isNone) = true := List.all_eq_true.mp h _ mem
  rw [ready] at here
  exact absurd (Option.isNone_iff_eq_none.mp here) loading

/-- The key is set. -/
theorem updates_visible_sample : ∃ before later,
    (Replica.execute sampleConfig .fine (watchedRun ++
      [.data 0 (ascii "*3\r\n$3\r\nSET\r\n$1\r\nk\r\n$1\r\nx\r\n")])).1 =
        before ++ .callback (.update 7 (.term 0) (.set (ascii "k") (ascii "x")) 0) :: later ∧
    (viewOf before).ready = true ∧ ∃ storage batch content, (viewOf before).exposed = some storage ∧
      (viewOf before).latest = some (storage, batch, content) ∧
      (∃ prior, @Returns (.exact false) batch prior ∧
        content = @executeAll (.exact false) batch prior) ∧
      ∃ c ∈ batch, convertCommand 0 (.set (ascii "k") (ascii "x")) = some c := by
  have sent : (((Replica.execute sampleConfig .fine (watchedRun ++
      [.data 0 (ascii "*3\r\n$3\r\nSET\r\n$1\r\nk\r\n$1\r\nx\r\n")])).1[16]?).bind eventOf) =
        some (.update 7 (.term 0) (.set (ascii "k") (ascii "x")) 0) := by
    decide +kernel
  have steady :=
    steady_of_settledCalls (by decide +kernel : settledCalls (Replica.execute sampleConfig .fine
    (watchedRun ++ [.data 0 (ascii "*3\r\n$3\r\nSET\r\n$1\r\nk\r\n$1\r\nx\r\n")])).1 = true)
  refine ⟨_, _, split_at sent, ?_⟩
  exact (@updates_visible (.exact false) ⟨fun n => n, Nat.cast_injective⟩ sampleConfig rfl _ _
    (Replica.run_execute _ _ _) steady).1 _ _ _ _ _ _ (split_at sent)

/-- The connection is lost, and the next snapshot arrives in two chunks, of which the first one has
the key. -/
def reloadedRun : List (Replica.Message Message) :=
  watchedRun ++ [.closed 0, .reconnectTimeout] ++ fullresync ++
    [.data 0 (RedisNif.ReplicaParser.sampleImage.take 14)]

/-- The watcher is told about a command that was executed in storage 2, while storage 1 is
exposed. -/
theorem reloadedRun_tells : Replica.Run sampleConfig
    (Replica.execute sampleConfig .fine reloadedRun).1
      (Replica.execute sampleConfig .fine reloadedRun).2 ∧ ∃ before later,
    (Replica.execute sampleConfig .fine reloadedRun).1 =
      before ++ .callback (.update 7 (.term 0) (.set (ascii "k") (ascii "v")) 0) :: later ∧
    (viewOf before).exposed = some 1 ∧ (viewOf before).latest.map (·.1) = some 2 := by
  have sent : (((Replica.execute sampleConfig .fine reloadedRun).1[26]?).bind eventOf) =
      some (.update 7 (.term 0) (.set (ascii "k") (ascii "v")) 0) := by
    decide +kernel
  exact ⟨Replica.run_execute _ _ _, _, _, split_at sent, by decide +kernel, by decide +kernel⟩

end TSProj

end Veidrodelis
