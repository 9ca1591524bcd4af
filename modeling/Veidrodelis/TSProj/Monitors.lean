import Veidrodelis.TSProj.Batches
import Veidrodelis.TSProj.WatchRuns

/-!
# Monitors of the watching processes

The module monitors a process while it watches something: the first watch sets a monitor up, the
last one to go takes it down, and the message that the process is down ends its watches. The
monitors that are active are those which the events set up and did not take down; a process that is
down has none.
-/

namespace Veidrodelis.TSProj
open TsNif (PrefixWatchTree)
open Watch (Kind)

/-! ## Runs -/

/-- The state, with the monitors that are active. -/
structure Monitored where
  state : State
  active : List (Pid × Nat)

namespace Monitored

/-- What an event does to the active monitors. -/
def record (active : List (Pid × Nat)) : Event → List (Pid × Nat)
  | .monitor pid monitor => (pid, monitor) :: active
  | .demonitor monitor => active.filter fun p => p.2 ≠ monitor
  | _ => active

/-- A call is handled; one that raises ends the run. -/
def call [Runtime] (m : Monitored) (message : Message) : Option Monitored :=
  match handleCall m.state message with
  | (events, .ok s') => some ⟨s', events.foldl record m.active⟩
  | (_, .error _) => none

/-- The message that a process is down is handled; its monitors are gone with it. -/
def down (m : Monitored) (pid : Pid) : Option Monitored :=
  match handleInfo m.state (.down pid) with
  | (events, .ok s') => some ⟨s', events.foldl record (m.active.filter fun p => p.1 ≠ pid)⟩
  | (_, .error _) => none

/-- A call or a message. -/
inductive Turn [Runtime] (m m' : Monitored) : Prop
  | call (message : Message) : m.call message = some m' → Turn m m'
  | down (pid : Pid) : m.down pid = some m' → Turn m m'

/-- What calls and messages make of the initial state, in any order. -/
inductive Reached [Runtime] : Monitored → Prop
  | initial : Reached ⟨.initial, []⟩
  | turn {m m' : Monitored} : Reached m → Turn m m' → Reached m'

end Monitored

/-- The process has a registration, of a key or of a prefix. -/
def Watches (watch : Watch) (pid : Pid) : Prop :=
  ∃ kind db value, ((watch.registrations kind).refOf db value pid).isSome

/-! ## What the calls do to the watches -/

section
variable {watch watch' : Watch} {kind : Kind} {pid : Pid} {db : Int} {value : Bytes}

/-- Whoever watched still does, and so does the process of the new watch. -/
lemma watches_added {x : Watch.Registration} (added : watch.Added watch' x) (pid : Pid) :
    Watches watch' pid ↔ Watches watch pid ∨ pid = x.pid := by
  constructor
  · rintro ⟨kind, db, value, held⟩
    rw [added.registrations] at held
    split at held
    · rw [Registrations.refOf_put] at held
      split at held
      · rename_i here
        exact .inr here.2.2
      · exact .inl ⟨kind, db, value, held⟩
    · exact .inl ⟨kind, db, value, held⟩
  · rintro (⟨kind, db, value, held⟩ | rfl)
    · refine ⟨kind, db, value, ?_⟩
      rw [added.registrations]
      split
      · rw [Registrations.refOf_put]
        split
        · rfl
        · exact held
      · exact held
    · refine ⟨x.kind, x.db, x.value, ?_⟩
      rw [added.registrations, if_pos rfl, Registrations.refOf_put, if_pos ⟨rfl, rfl, rfl⟩]
      rfl

/-- A dropped watch changes nothing for other processes. -/
lemma watches_dropped (dropped : watch.Dropped watch' kind pid db value) {pid' : Pid}
    (other : pid' ≠ pid) : Watches watch' pid' ↔ Watches watch pid' := by
  have same (kind' : Kind) (db' : Int) (value' : Bytes) :
      (watch'.registrations kind').refOf db' value' pid' =
      (watch.registrations kind').refOf db' value' pid' := by
    rw [dropped.registrations]
    split
    · rw [Registrations.refOf_deletePid, if_neg]
      exact fun here => other here.2.2
    · rfl
  simp only [Watches, same]

/-- Whoever watches now watched before. -/
lemma watches_of_dropped (dropped : watch.Dropped watch' kind pid db value) {pid' : Pid}
    (h : Watches watch' pid') : Watches watch pid' := by
  obtain ⟨kind', db', value', held⟩ := h
  refine ⟨kind', db', value', ?_⟩
  rw [dropped.registrations] at held
  split at held
  · rw [Registrations.refOf_deletePid] at held
    split at held
    · cases held
    · exact held
  · exact held

/-- All others watch as before. -/
lemma watches_cleared (cleared : watch.Cleared watch' pid) (pid' : Pid) :
    Watches watch' pid' ↔ Watches watch pid' ∧ pid' ≠ pid := by
  constructor
  · rintro ⟨kind, db, value, held⟩
    rw [cleared.refs] at held
    split at held
    · cases held
    · rename_i other
      exact ⟨⟨kind, db, value, held⟩, other⟩
  · rintro ⟨⟨kind, db, value, held⟩, other⟩
    refine ⟨kind, db, value, ?_⟩
    rw [cleared.refs, if_neg other]
    exact held

/-- A process watches something exactly when the counts of the two kinds do not add up to zero. -/
lemma watches_iff_count [Runtime] (linked : watch.Linked) (pid : Pid) :
    Watches watch pid ↔
      Watch.watchCount watch.pidToKeys pid + Watch.watchCount watch.pidToPrefixes pid ≠ 0 := by
  have filled {values : List (Int × Bytes)} : values.length ≠ 0 ↔
    ∃ db value, (db, value) ∈ values := by
    rw [ne_eq, List.length_eq_zero_iff]
    constructor
    · intro filled'
      obtain ⟨⟨db, value⟩, mem⟩ := List.exists_mem_of_ne_nil values filled'
      exact ⟨db, value, mem⟩
    · rintro ⟨db, value, mem⟩
      exact List.ne_nil_of_mem mem
  have sum : Watch.watchCount watch.pidToKeys pid + Watch.watchCount watch.pidToPrefixes pid ≠ 0 ↔
      Watch.watchCount watch.pidToKeys pid ≠ 0 ∨
      Watch.watchCount watch.pidToPrefixes pid ≠ 0 := by omega
  rw [sum, Watch.watchCount, Watch.watchCount, filled, filled]
  constructor
  · rintro ⟨kind, db, value, held⟩
    cases kind with
    | exact => exact .inl ⟨db, value, (linked.keys db value pid).mp held⟩
    | byPrefix => exact .inr ⟨db, value, (linked.prefixes db value pid).mp held⟩
  · rintro (⟨db, value, mem⟩ | ⟨db, value, mem⟩)
    · exact ⟨.exact, db, value, (linked.keys db value pid).mpr mem⟩
    · exact ⟨.byPrefix, db, value, (linked.prefixes db value pid).mpr mem⟩

end

/-! ## Monitors and watches -/

/-- A process is monitored while it watches something, and by one monitor. -/
structure Watched [Runtime] (m : Monitored) : Prop where
  linked : m.state.watch.Linked
  monitored : ∀ pid, pid ∈ m.state.monitors ↔ Watches m.state.watch pid
  one : ∀ pid : Pid, m.active.filter (fun p => p.1 = pid) =
    m.state.monitors[pid]?.toList.map fun monitor => (pid, monitor)
  issued : ∀ p ∈ m.active, p.2 < m.state.monitored
  distinct : (m.active.map (·.2)).Nodup

namespace Watched

variable [Runtime] {m : Monitored} {s' : State} {pid : Pid}

/-- At the start nobody is watched, and nobody is monitored. -/
lemma initial : Watched ⟨.initial, []⟩ where
  linked := Watch.create_linked
  monitored pid := by
    refine iff_of_false (by simp [State.initial]) ?_
    rintro ⟨kind, db, value, held⟩
    cases kind with
    | exact =>
      simp [State.initial, Watch.create, Watch.registrations, Registrations.refOf_empty] at held
    | byPrefix =>
      simp [State.initial, Watch.create, Watch.registrations, Registrations.refOf_empty] at held
  one pid := by simp [State.initial]
  issued := nofun
  distinct := List.nodup_nil

/-- The active monitors are those that the state knows. -/
lemma mem_active (h : Watched m) {p : Pid × Nat} :
    p ∈ m.active ↔ m.state.monitors[p.1]? = some p.2 := by
  have mine : p ∈ m.active ↔ p ∈ m.active.filter fun q => q.1 = p.1 := by
    rw [List.mem_filter]
    simp
  rw [mine, h.one]
  cases e : m.state.monitors[p.1]? with
  | none => exact iff_of_false List.not_mem_nil nofun
  | some monitor =>
    rw [Option.toList_some, List.map_singleton, List.mem_singleton, Option.some.injEq]
    constructor
    · intro eq
      rw [eq]
    · rintro rfl
      rfl

/-- A process that watches nothing any more is not monitored any more. -/
lemma forget (h : Watched m) (linked : s'.watch.Linked)
    (monitors : s'.monitors = m.state.monitors.erase pid) (count : s'.monitored = m.state.monitored)
    (watches : ∀ pid', Watches s'.watch pid' ↔ Watches m.state.watch pid' ∧ pid' ≠ pid) :
    Watched ⟨s', m.active.filter fun p => p.1 ≠ pid⟩ where
  linked := linked
  monitored pid' := by
    show pid' ∈ s'.monitors ↔ Watches s'.watch pid'
    rw [monitors, watches, ← h.monitored, Std.ExtTreeMap.mem_erase, ne_eq,
      Std.LawfulEqCmp.compare_eq_iff_eq]
    exact ⟨fun ⟨other, mem⟩ => ⟨mem, Ne.symm other⟩, fun ⟨mem, other⟩ => ⟨Ne.symm other, mem⟩⟩
  one pid' := by
    show (m.active.filter fun p => p.1 ≠ pid).filter _ = _
    rw [List.filter_filter]
    show _ = s'.monitors[pid']?.toList.map _
    rw [monitors, Std.ExtTreeMap.getElem?_erase]
    -- none is left for the process, and the others are as they were
    by_cases same : pid = pid'
    · subst same
      rw [if_pos Std.ReflCmp.compare_self]
      rw [List.filter_eq_nil_iff.mpr]
      · rfl
      · intro p _
        simp
    · rw [if_neg (mt Std.LawfulEqCmp.eq_of_compare same), ← h.one pid']
      congr 1
      funext p
      by_cases here : p.1 = pid'
      · simp [here, Ne.symm same]
      · simp [here]
  issued p mem := by
    show p.2 < s'.monitored
    rw [count]
    exact h.issued p (List.mem_filter.mp mem).1
  distinct := h.distinct.sublist (List.filter_sublist.map _)

/-- The number of a monitor tells the process. -/
lemma demonitor_eq (h : Watched m) {monitor : Nat} (e : m.state.monitors[pid]? = some monitor) :
    (m.active.filter fun p => p.2 ≠ monitor) = m.active.filter fun p => p.1 ≠ pid := by
  have mine : (pid, monitor) ∈ m.active := h.mem_active.mpr e
  refine List.filter_congr fun p mem => ?_
  rw [decide_eq_decide, not_iff_not]
  constructor
  · intro same
    exact congrArg (fun q => q.1) (List.inj_on_of_nodup_map h.distinct mem mine same)
  · intro same
    have own := h.mem_active.mp mem
    rw [same, e] at own
    exact (Option.some.inj own).symm

/-- A watch that goes takes the monitor down when it is the last one. -/
lemma drop (h : Watched m) {kind : Kind} {db : Int} {value : Bytes} {watch' : Watch} {left : Nat}
    (linked : watch'.Linked) (dropped : m.state.watch.Dropped watch' kind pid db value)
    (count : left = Watch.watchCount watch'.pidToKeys pid +
      Watch.watchCount watch'.pidToPrefixes pid)
    (ok : (dropWatch m.state pid (.ok (watch', left))).2 = .ok s') :
    Watched ⟨s', (dropWatch m.state pid (.ok (watch', left))).1.foldl
      Monitored.record m.active⟩ := by
  have counted := watches_iff_count linked pid
  rw [← count] at counted
  cases left with
  | zero =>
    cases ok
    -- the last watch is gone, and the monitor with it
    have rest : ((dropWatch m.state pid (.ok (watch', 0))).1.foldl Monitored.record m.active) =
        m.active.filter fun p => p.1 ≠ pid := by
      rw [dropWatch]
      cases e : m.state.monitors[pid]? with
      | some monitor => exact h.demonitor_eq e
      | none =>
        refine (List.filter_eq_self.mpr fun p mem => ?_).symm
        have own := h.mem_active.mp mem
        rw [decide_eq_true_eq]
        intro same
        rw [same, e] at own
        cases own
    rw [rest]
    refine h.forget linked rfl rfl fun pid' => ?_
    by_cases same : pid' = pid
    · subst same
      exact iff_of_false (fun watches => counted.mp watches rfl) fun h => h.2 rfl
    · exact (watches_dropped dropped same).trans ⟨fun h => ⟨h, same⟩, fun h => h.1⟩
  | succ left =>
    cases ok
    refine { h with linked, monitored := fun pid' => ?_ }
    show pid' ∈ m.state.monitors ↔ Watches watch' pid'
    rw [h.monitored]
    by_cases same : pid' = pid
    · subst same
      -- the process has other watches, and keeps its monitor
      have still : Watches watch' pid' := counted.mpr (Nat.succ_ne_zero left)
      exact iff_of_true (watches_of_dropped dropped still) still
    · exact (watches_dropped dropped same).symm

/-- A process that watches something is monitored, and once. -/
lemma add (h : Watched m) {x : Watch.Registration} {watch' : Watch} (linked : watch'.Linked)
    (added : m.state.watch.Added watch' x)
    (ok : (putWatchAndMonitor m.state watch' x.pid).2 = .ok s') :
    Watched ⟨s', (putWatchAndMonitor m.state watch' x.pid).1.foldl Monitored.record m.active⟩ := by
  have watches := watches_added added
  unfold putWatchAndMonitor at ok ⊢
  split at ok
  · -- the process has a monitor
    rename_i known
    cases ok
    rw [if_pos known]
    refine { h with linked, monitored := fun pid' => ?_ }
    show pid' ∈ m.state.monitors ↔ Watches watch' pid'
    rw [watches, ← h.monitored]
    constructor
    · exact .inl
    · rintro (mem | rfl)
      · exact mem
      · exact known
  · -- a monitor is set up, and its reference is new
    rename_i unknown
    cases ok
    rw [if_neg unknown]
    refine ⟨linked, fun pid' => ?_, fun pid' => ?_, fun p mem => ?_, ?_⟩
    · show pid' ∈ m.state.monitors.insert x.pid m.state.monitored ↔ Watches watch' pid'
      rw [watches, ← h.monitored, Std.ExtTreeMap.mem_insert, Std.LawfulEqCmp.compare_eq_iff_eq]
      exact ⟨fun h => h.elim (fun same => .inr same.symm) .inl,
        fun h => h.elim .inr fun same => .inl same.symm⟩
    · show ((x.pid, m.state.monitored) :: m.active).filter _ =
        (m.state.monitors.insert x.pid m.state.monitored)[pid']?.toList.map _
      rw [List.filter_cons, h.one, Std.ExtTreeMap.getElem?_insert]
      by_cases same : x.pid = pid'
      · subst same
        rw [if_pos (by exact decide_eq_true rfl), if_pos Std.ReflCmp.compare_self,
          Std.ExtTreeMap.getElem?_eq_none unknown]
        rfl
      · rw [if_neg (by simpa using same), if_neg (mt Std.LawfulEqCmp.eq_of_compare same)]
    · show p.2 < m.state.monitored + 1
      rcases List.mem_cons.mp mem with rfl | old
      · exact Nat.lt_succ_self _
      · exact Nat.lt_succ_of_lt (h.issued p old)
    · show ((x.pid, m.state.monitored) :: m.active |>.map (·.2)).Nodup
      rw [List.map_cons, List.nodup_cons]
      refine ⟨fun mem => ?_, h.distinct⟩
      obtain ⟨p, old, eq⟩ := List.mem_map.mp mem
      exact Nat.ne_of_lt (h.issued p old) eq

/-- To add a watch keeps monitors and watches in step. -/
lemma addWatch {x : Watch.Registration} {result : Except RedisStream.Reason Watch} (h : Watched m)
    (linked : ∀ watch', result = .ok watch' → watch'.Linked)
    (added : ∀ watch', result = .ok watch' → m.state.watch.Added watch' x)
    (ok : (TSProj.addWatch m.state x.pid result).2 = .ok s') :
    Watched ⟨s', (TSProj.addWatch m.state x.pid result).1.foldl Monitored.record m.active⟩ := by
  match result with
  | .ok watch' => exact h.add (linked watch' rfl) (added watch' rfl) ok
  | .error .raised => cases ok
  | .error (.redisError _) => cases ok; exact h
  | .error (.parserError _) => cases ok; exact h
  | .error (.text _) => cases ok; exact h
  | .error (.failed _ _) => cases ok; exact h

/-- To drop a watch keeps monitors and watches in step. -/
lemma dropWatch {kind : Kind} {db : Int} {value : Bytes}
    {result : Except RedisStream.Reason (Watch × Nat)} (h : Watched m)
    (linked : ∀ watch' left, result = .ok (watch', left) → watch'.Linked)
    (dropped : ∀ watch' left, result = .ok (watch', left) →
      m.state.watch.Dropped watch' kind pid db value ∧
      left = Watch.watchCount watch'.pidToKeys pid + Watch.watchCount watch'.pidToPrefixes pid)
    (ok : (TSProj.dropWatch m.state pid result).2 = .ok s') :
    Watched ⟨s', (TSProj.dropWatch m.state pid result).1.foldl Monitored.record m.active⟩ := by
  match result with
  | .ok (watch', left) =>
    obtain ⟨dropped, count⟩ := dropped watch' left rfl
    exact h.drop (linked watch' left rfl) dropped count ok
  | .error .raised => cases ok
  | .error (.redisError _) => cases ok; exact h
  | .error (.parserError _) => cases ok; exact h
  | .error (.text _) => cases ok; exact h
  | .error (.failed _ _) => cases ok; exact h

/-- Every call and every message keeps the monitors with the watches. -/
lemma turn {m' : Monitored} (h : Watched m) (turn : Monitored.Turn m m') : Watched m' := by
  cases turn with
  | call message e =>
    have handled : ∃ s', (handleCall m.state message).2 = .ok s' ∧
        m' = ⟨s', (handleCall m.state message).1.foldl Monitored.record m.active⟩ := by
      unfold Monitored.call at e
      split at e
      · rename_i events s' result
        cases e
        exact ⟨s', by rw [result], by rw [result]⟩
      · cases e
    obtain ⟨s', ok, rfl⟩ := handled
    cases message with
    | watch pid db key ref =>
      exact h.addWatch (x := ⟨.exact, pid, db, key, ref⟩) (fun _ => Watch.add_linked h.linked)
        (fun _ => Watch.add_added) ok
    | watchPrefix pid db pre ref =>
      exact h.addWatch (x := ⟨.byPrefix, pid, db, pre, ref⟩)
        (fun _ => Watch.addPrefix_linked h.linked)
        (fun _ => Watch.addPrefix_added) ok
    | unwatch pid db key =>
      exact h.dropWatch (fun _ _ => Watch.delete_linked h.linked)
        (fun _ _ => Watch.delete_dropped h.linked) ok
    | unwatchPrefix pid db pre =>
      exact h.dropWatch (fun _ _ => Watch.deletePrefix_linked h.linked)
        (fun _ _ => Watch.deletePrefix_dropped h.linked) ok
    | down pid =>
      cases ok
      exact h
    | other =>
      cases ok
      exact h
  | down pid e =>
    cases e
    exact h.forget (Watch.deleteAll_linked h.linked pid) rfl rfl
      (watches_cleared (Watch.deleteAll_cleared h.linked pid))

end Watched

/-- Nothing is left of a process: no map has it, no node of the tree has the index that it had, and
no monitor is set up for it. -/
structure Forgotten (m m' : Monitored) (pid : Pid) : Prop where
  keyToPids : ∀ db key, pid ∉ m'.state.watch.keyToPids.pids db key
  prefixToPids : ∀ db pre, pid ∉ m'.state.watch.prefixToPids.pids db pre
  pidToKeys : pid ∉ m'.state.watch.pidToKeys
  pidToPrefixes : pid ∉ m'.state.watch.pidToPrefixes
  idxByPid : pid ∉ m'.state.watch.idxByPid
  pidByIdx : ∀ idx : Int, m'.state.watch.pidByIdx[idx]? ≠ some pid
  prefixTree : ∀ idx, m.state.watch.idxByPid[pid]? = some idx →
    ∀ db pre, ¬ m'.state.watch.prefixTree.Holds db pre idx
  monitors : pid ∉ m'.state.monitors
  active : ∀ monitor, (pid, monitor) ∉ m'.active

/-- A process that is down is forgotten. -/
lemma down_forgotten [Runtime] {m m' : Monitored} {pid : Pid} (h : Watched m)
    (down : m.down pid = some m') : Forgotten m m' pid := by
  have cleared := Watch.deleteAll_cleared h.linked pid
  have linked := Watch.deleteAll_linked h.linked pid
  have erased {β : Type} (map : Std.ExtTreeMap Pid β compare) : pid ∉ map.erase pid := by
    rw [Std.ExtTreeMap.mem_erase]
    exact fun h => h.1 Std.ReflCmp.compare_self
  have unregistered (kind : Kind) (db : Int) (value : Bytes) :
      pid ∉ ((m.state.watch.deleteAll pid).registrations kind).pids db value := by
    have nowhere := cleared.refs kind db value pid
    rw [if_pos rfl] at nowhere
    rw [Std.ExtTreeMap.mem_iff_isSome_getElem?]
    show ¬ (((m.state.watch.deleteAll pid).registrations kind).refOf db value pid).isSome
    rw [nowhere]
    nofun
  cases down
  refine ⟨unregistered .exact, unregistered .byPrefix, erased _, erased _, erased _,
    fun idx own => ?_,
    fun idx own db pre held => ?_, erased _, fun monitor mem => ?_⟩
  · rw [linked.index] at own
    have nowhere' : (m.state.watch.idxByPid.erase pid)[pid]? = some idx := own
    rw [Std.ExtTreeMap.getElem?_erase_self] at nowhere'
    cases nowhere'
  · -- whoever has the index now had it before
    obtain ⟨pid', index, -⟩ := (linked.tree db pre idx).mp held
    have index : (m.state.watch.idxByPid.erase pid)[pid']? = some idx := index
    rw [Std.ExtTreeMap.getElem?_erase] at index
    split at index
    · cases index
    · rename_i other
      exact other (Std.LawfulEqCmp.compare_eq_iff_eq.mpr (Watch.index_inj h.linked own index).symm)
  · have kept := (List.mem_filter.mp mem).2
    simp at kept

/-- In whatever order watches are added and deleted and processes go down: a process is monitored
exactly while it has a registration, there is one monitor for it, and nothing is left of a process
that is down. -/
theorem monitors [Runtime] {m : Monitored} (reached : Monitored.Reached m) :
    (∀ pid, pid ∈ m.state.monitors ↔ Watches m.state.watch pid) ∧
    (∀ pid, pid ∈ m.state.monitors → ∃ monitor, m.state.monitors[pid]? = some monitor ∧
      m.active.filter (fun p => p.1 = pid) = [(pid, monitor)]) ∧
    (∀ pid, pid ∉ m.state.monitors → m.active.filter (fun p => p.1 = pid) = []) ∧
    ∀ pid, ∃ m', m.down pid = some m' ∧ Forgotten m m' pid := by
  have h : Watched m := by
    induction reached with
    | initial => exact .initial
    | turn _ turn ih => exact ih.turn turn
  refine ⟨h.monitored, fun pid known => ?_, fun pid unknown => ?_, fun pid => ?_⟩
  · obtain ⟨monitor, e⟩ :=
      Option.isSome_iff_exists.mp (Std.ExtTreeMap.mem_iff_isSome_getElem?.mp known)
    refine ⟨monitor, e, ?_⟩
    rw [h.one, e]
    rfl
  · rw [h.one, Std.ExtTreeMap.getElem?_eq_none unknown]
    rfl
  · exact ⟨_, rfl, down_forgotten h rfl⟩

/-- A process watches one key. -/
def oneWatch : Monitored where
  state := { State.initial with
    watch := { Watch.create with
      keyToPids := Registrations.put ∅ 0 (ascii "k") 7 .nil
      pidToKeys := Watch.noteValue ∅ 7 (0, ascii "k") }
    monitors := (∅ : Std.ExtTreeMap Pid Nat compare).insert 7 0
    monitored := 1 }
  active := [(7, 0)]

/-- One process that watches and goes down. -/
theorem monitors_one :
    (∀ pid, pid ∈ oneWatch.state.monitors ↔ Watches oneWatch.state.watch pid) ∧
    ∃ m', oneWatch.down 7 = some m' ∧ Forgotten oneWatch m' 7 := by
  have first : (@Monitored.call Watch.counting ⟨.initial, []⟩ (.watch 7 0 (ascii "k") .nil)) =
    some oneWatch := by
    rfl
  have turn := @Monitored.Turn.call Watch.counting ⟨.initial, []⟩ oneWatch _ first
  have reached :=
    @Monitored.Reached.turn Watch.counting _ _ (@Monitored.Reached.initial Watch.counting) turn
  obtain ⟨monitored, -, -, down⟩ := @monitors Watch.counting oneWatch reached
  exact ⟨monitored, down 7⟩

end Veidrodelis.TSProj
