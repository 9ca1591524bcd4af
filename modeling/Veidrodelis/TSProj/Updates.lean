import Veidrodelis.TSProj.Batches
import Veidrodelis.TsNif.Footprint

/-!
# Updates to watchers

Every key that a command changes in its own database is one of its affected keys
(`dispatch_within`), and the watches of affected keys are found (`mem_notifyKeys`), except those of
prefixes that carry `nil`. What `MOVE` changes in the other database is not looked up.

Calls of `handle_commands` send the Updates for a watch in the order of the commands
(`handleEach_order`).
-/

namespace Veidrodelis

namespace Watch

/-- A watch on the key or on one of its prefixes. -/
def On (watch : Watch) (db : Int) (key : Bytes) (pid : Pid) (ref : Ref) : Prop :=
  watch.keyToPids.refOf db key pid = some ref ∨
    ∃ pre, pre <+: key ∧ watch.prefixToPids.refOf db pre pid = some ref

/-- A watch that the lookups of the key find. -/
def Finds (watch : Watch) (db : Int) (key : Bytes) (pid : Pid) (ref : Ref) : Prop :=
  watch.keyToPids.refOf db key pid = some ref ∨
    ref ≠ .nil ∧ ∃ pre, pre <+: key ∧ watch.prefixToPids.refOf db pre pid = some ref

end Watch

namespace TSProj
open RedisStream (Callback Command Reason ReplicaCommand)
open TsNif (Careful Indexset Op StorageInner Returns dispatch execute executeAll)

/-! ## The keys that a command changes -/

/-- The commands on whole databases. -/
def wholesale : Command → Bool
  | .flushall => true
  | .flushdb => true
  | .swapdb _ _ => true
  | _ => false

/-- A command on keys changes no other keys than those that it affects, unless it moves one. -/
lemma dispatch_within [Indexset] (db : Nat) {command : Command} (onKeys : wholesale command = false)
    (stays : ∀ key target, command ≠ .moveKey key target) :
    (dispatch db command).Within db (affectedKeys command) := by
  have stored (destination : Bytes) (keys : List Bytes) :
    [destination] ⊆ destination :: keys := by simp
  cases command with
  | set => exact TsNif.set_within _ _ _
  | del => exact TsNif.delAll_within _ _
  | mset => exact TsNif.mset_within _ _
  | msetex => exact TsNif.mset_within _ _
  | pexpireat => exact Op.Within.idle
  | persist => exact Op.Within.idle
  | copy => exact TsNif.copyKey_within _ _ _ _
  | rename => exact TsNif.rename_within _ _ _
  | renamenx => exact TsNif.renamenx_within _ _ _
  | moveKey key target => exact absurd rfl (stays key target)
  | append => exact Op.Within.atKey _ _
  | setrange => exact Op.Within.decoded fun _ => Op.Within.atKey _ _
  | incr => exact Op.Within.atKey _ _
  | incrby => exact Op.Within.decoded fun _ => Op.Within.atKey _ _
  | decr => exact Op.Within.atKey _ _
  | decrby => exact Op.Within.decoded fun _ => Op.Within.atKey _ _
  | setnx => exact TsNif.set_within _ _ _
  | msetnx => exact TsNif.mset_within _ _
  | getset => exact TsNif.set_within _ _ _
  | getdel => exact TsNif.delAll_within _ _
  | sadd => exact Op.Within.atKey _ _
  | srem => exact Op.Within.atKey _ _
  | smove => exact TsNif.smove_within _ _ _ _
  | sunionstore => exact (TsNif.storeResult_within _ _ _ _).mono (stored _ _)
  | sinterstore => exact (TsNif.storeResult_within _ _ _ _).mono (stored _ _)
  | sdiffstore => exact (TsNif.storeResult_within _ _ _ _).mono (stored _ _)
  | lpush => exact Op.Within.atKey _ _
  | rpush => exact Op.Within.atKey _ _
  | lpop => exact Op.Within.atKey _ _
  | rpop => exact Op.Within.atKey _ _
  | lset => exact Op.Within.decoded fun _ => Op.Within.atKey _ _
  | rpoplpush =>
    rw [TsNif.dispatch, TsNif.rpoplpush_eq]
    exact TsNif.lmove_within _ _ _ _ _
  | lpopCount => exact Op.Within.decoded fun _ => Op.Within.atKey _ _
  | rpopCount => exact Op.Within.decoded fun _ => Op.Within.atKey _ _
  | lmove => exact TsNif.lmove_within _ _ _ _ _
  | lpushx => exact Op.Within.atKey _ _
  | rpushx => exact Op.Within.atKey _ _
  | lrem => exact Op.Within.decoded fun _ => Op.Within.atKey _ _
  | ltrim => exact Op.Within.decoded fun _ => Op.Within.atKey _ _
  | linsert => exact Op.Within.atKey _ _
  | hset => exact Op.Within.atKey _ _
  | hmset => exact Op.Within.atKey _ _
  | hdel => exact Op.Within.atKey _ _
  | hgetdel => exact Op.Within.atKey _ _
  | hsetnx => exact Op.Within.atKey _ _
  | hincrby => exact Op.Within.decoded fun _ => Op.Within.atKey _ _
  | hincrbyfloat => exact Op.Within.decoded fun _ => Op.Within.atKey _ _
  | hsetex => exact Op.Within.atKey _ _
  | zadd => exact Op.Within.atKey _ _
  | zrem => exact Op.Within.atKey _ _
  | zpopmax => exact Op.Within.decoded fun _ => Op.Within.atKey _ _
  | zpopmin => exact Op.Within.decoded fun _ => Op.Within.atKey _ _
  | zremrangebyrank => exact Op.Within.decoded fun _ => Op.Within.atKey _ _
  | zremrangebyscore => exact Op.Within.decoded fun _ => Op.Within.atKey _ _
  | zremrangebylex => exact Op.Within.atKey _ _
  | zunionstore =>
    exact Op.Within.decoded fun _ => (TsNif.storeResult_within _ _ _ _).mono (stored _ _)
  | zinterstore =>
    exact Op.Within.decoded fun _ => (TsNif.storeResult_within _ _ _ _).mono (stored _ _)
  | zdiffstore => exact (TsNif.storeResult_within _ _ _ _).mono (stored _ _)
  | zrangestore =>
    exact Op.Within.decoded fun _ => (TsNif.storeResult_within _ _ _ _).mono (stored _ _)
  | zincrby => exact Op.Within.decoded fun _ => Op.Within.atKey _ _
  | flushall => cases onKeys
  | flushdb => cases onKeys
  | swapdb => cases onKeys
  | setbit => exact Op.Within.idle
  | hpexpireat => exact Op.Within.idle
  | hpersist => exact Op.Within.idle
  | generic => exact Op.Within.idle

section
variable [Indexset] {content : StorageInner} {db d : Nat} {command : Command} {k : Bytes}

/-- A command on keys is left out or executed. -/
lemma executeAll_onKeys (content : StorageInner) (db : Nat) (onKeys : wholesale command = false) :
    executeAll (convertible [(db, command)]) content = content ∨
      executeAll (convertible [(db, command)]) content = (execute db command content).1 := by
  cases command with
  | flushall => cases onKeys
  | flushdb => cases onKeys
  | swapdb => cases onKeys
  | generic => exact .inl rfl
  | _ => exact .inr rfl

/-- A key that is not affected, in the database of the command. -/
lemma dispatch_unaffected (onKeys : wholesale command = false) (other : k ∉ affectedKeys command) :
    (dispatch db command content).1.lookup db k = content.lookup db k := by
  by_cases moves : ∃ key target, command = .moveKey key target
  · obtain ⟨key, target, rfl⟩ := moves
    have apart : k ≠ key := List.ne_of_not_mem_cons other
    rw [dispatch]
    cases TsNif.decodeU64 target with
    | none => rfl
    | some targetDb => exact TsNif.moveKey_outside (fun _ => apart) fun _ => apart
  · exact dispatch_within db onKeys (fun key target eq => moves ⟨key, target, eq⟩) content db k
      fun _ => other

/-- Where a command on keys makes a difference. -/
lemma changed_place (onKeys : wholesale command = false)
    (changed : (executeAll (convertible [(db, command)]) content).lookup d k ≠ content.lookup d k) :
    db < 2 ^ 64 ∧ (d = db → k ∈ affectedKeys command) := by
  obtain same | eq := executeAll_onKeys content db onKeys
  · rw [same] at changed
    exact absurd rfl changed
  · rw [eq] at changed
    have small : db < 2 ^ 64 := by
      by_contra large
      rw [TsNif.execute_of_ge large] at changed
      exact changed rfl
    rw [TsNif.execute_of_lt small] at changed
    refine ⟨small, ?_⟩
    rintro rfl
    by_contra other
    exact changed (dispatch_unaffected onKeys other)

/-- The batch of one command returns, unless the command overreaches. -/
lemma returns_single (here : db < 2 ^ 64 ∨ wholesale command = true) :
    Returns (convertible [(db, command)]) content ↔ content.overreaches db command = false := by
  rw [TsNif.returns_iff_careful]
  have single (c : DbCommand) : Careful [c] content ↔
    ¬ (c.1 < 2 ^ 64 ∧ content.overreaches c.1 c.2 = true) := by
    constructor
    · exact fun careful => careful [] c.1 c.2 [] rfl
    · intro calm before db command after eq
      obtain ⟨rfl, rest⟩ : before = [] ∧ (db, command) :: after = [c] := by
        cases before with
        | nil => exact ⟨rfl, eq⟩
        | cons first before => simp at eq
      obtain ⟨rfl, -⟩ := List.cons.inj rest
      exact calm
  have nothing : Careful [] content := fun before db command after eq => by simp at eq
  cases command with
  | flushall => exact iff_of_true ((single (0, .flushall)).mpr fun h => Bool.false_ne_true h.2) rfl
  | flushdb => exact iff_of_true ((single (db, .flushdb)).mpr fun h => Bool.false_ne_true h.2) rfl
  | swapdb db1 db2 =>
    exact iff_of_true ((single (0, .swapdb db1 db2)).mpr fun h => Bool.false_ne_true h.2) rfl
  | generic => exact iff_of_true nothing rfl
  | _ =>
    have small : db < 2 ^ 64 := here.resolve_right nofun
    rw [← Bool.not_eq_true]
    exact (single (db, _)).trans ⟨fun h beyond => h ⟨small, beyond⟩, fun h beyond => h beyond.2⟩

end

/-! ## The Updates that are sent -/

section
variable {watch : Watch} {pid : Pid} {ref : Ref} {command : Command} {db : Nat}

/-- There is an update for each watch. -/
lemma mem_updates {watches : List (Ref × Pid)} :
    .update pid ref command db ∈ updates command db watches ↔ (ref, pid) ∈ watches := by
  unfold updates
  rw [List.mem_map]
  constructor
  · rintro ⟨⟨ref', pid'⟩, mem, eq⟩
    cases eq
    exact mem
  · exact fun mem => ⟨(ref, pid), mem, rfl⟩

/-- The watches of the keys are found, except those of prefixes that carry `nil`. -/
lemma mem_notifyKeys [Runtime] (linked : watch.Linked) (small : db < 2 ^ 64) (keys : List Bytes) :
    .update pid ref command db ∈ (notifyKeys watch db command keys).1 ↔
      ∃ key ∈ keys, watch.Finds db key pid ref := by
  induction keys with
  | nil => exact iff_of_false List.not_mem_nil fun ⟨_, mem, _⟩ => absurd mem List.not_mem_nil
  | cons key rest ih =>
    obtain ⟨found, eq, mem⟩ := Watch.mem_lookupPrefix linked small key
    rw [notifyKeys, eq]
    show _ ∈ updates command db _ ++ (notifyKeys watch db command rest).1 ↔ _
    rw [List.mem_append, mem_updates, List.mem_eraseDups, List.mem_append, Watch.mem_lookup, mem,
      ih]
    constructor
    · rintro (finds | ⟨key', mem', finds⟩)
      · exact ⟨key, List.mem_cons_self, finds⟩
      · exact ⟨key', List.mem_cons_of_mem _ mem', finds⟩
    · rintro ⟨key', mem', finds⟩
      rcases List.mem_cons.mp mem' with rfl | mem'
      · exact .inl finds
      · exact .inr ⟨key', mem', finds⟩

/-- Of a command on keys those are notified who watch its keys. -/
lemma notifyWatchers_onKeys {s : State} (ready : s.ready = true)
    (onKeys : wholesale command = false) :
    notifyWatchers s db command = notifyKeys s.watch db command (affectedKeys command) := by
  unfold notifyWatchers
  rw [if_pos ready]
  cases command with
  | flushall => cases onKeys
  | flushdb => cases onKeys
  | swapdb => cases onKeys
  | _ => rfl

/-- All watches of what a command on whole databases changes are found. -/
lemma wholesale_told [Indexset] {s : State} {content : StorageInner} {d : Nat} {k : Bytes}
    (ready : s.ready = true) (whole : wholesale command = true)
    (changed : (executeAll (convertible [(db, command)]) content).lookup d k ≠ content.lookup d k)
    (on : s.watch.On d k pid ref) :
    .update pid ref command db ∈ (notifyWatchers s db command).1 := by
  unfold notifyWatchers
  rw [if_pos ready]
  cases command with
  | flushall =>
    apply mem_updates.mpr
    refine List.mem_map.mpr ⟨(pid, ref), Watch.mem_allWatchers.mpr ?_, rfl⟩
    obtain exact_ | ⟨pre, _, held⟩ := on
    · exact .inl ⟨d, k, exact_⟩
    · exact .inr ⟨d, pre, held⟩
  | flushdb =>
    -- the other databases are not flushed
    obtain rfl : d = db := by
      by_contra other
      apply changed
      show (execute db .flushdb content).1.lookup d k = _
      by_cases small : db < 2 ^ 64
      · rw [TsNif.execute_of_lt small]
        exact TsNif.flushdb_outside other k
      · rw [TsNif.execute_of_ge small]
    apply mem_updates.mpr
    apply (Watch.mem_lookupByDb _).mpr
    obtain exact_ | ⟨pre, _, held⟩ := on
    · exact .inl ⟨k, exact_⟩
    · exact .inr ⟨pre, held⟩
  | swapdb db1 db2 =>
    -- nor are databases swapped that are not named
    have place : (d : Int) = db1 ∨ (d : Int) = db2 := by
      by_contra other
      obtain ⟨first, second⟩ := not_or.mp other
      apply changed
      show (execute 0 (.swapdb db1 db2) content).1.lookup d k = _
      rw [TsNif.execute_of_lt (by decide), dispatch]
      cases e : TsNif.decodeU64 db1 with
      | none => rfl
      | some n1 =>
        cases e' : TsNif.decodeU64 db2 with
        | none => rfl
        | some n2 =>
          apply TsNif.swapdb_outside
          · rintro rfl
            exact first (TsNif.decodeU64_eq_some.mp e).1.symm
          · rintro rfl
            exact second (TsNif.decodeU64_eq_some.mp e').1.symm
    apply mem_updates.mpr
    rw [List.mem_eraseDups, List.mem_append, Watch.mem_lookupByDb, Watch.mem_lookupByDb]
    have here : (∃ key, s.watch.keyToPids.refOf d key pid = some ref) ∨
        ∃ pre, s.watch.prefixToPids.refOf d pre pid = some ref := by
      obtain exact_ | ⟨pre, _, held⟩ := on
      · exact .inl ⟨k, exact_⟩
      · exact .inr ⟨pre, held⟩
    obtain first | second := place
    · exact .inl (first ▸ here)
    · exact .inr (second ▸ here)
  | _ => cases whole

end

/-! ## The order of Updates -/

/-- A list of elements of another one in its order, each of them any number of times. -/
inductive Stutters {α : Type} : List α → List α → Prop
  | nil : Stutters [] []
  | skip (x : α) {xs ys : List α} : Stutters xs ys → Stutters (x :: xs) ys
  | again (x : α) {xs ys : List α} : Stutters (x :: xs) ys → Stutters (x :: xs) (x :: ys)

namespace Stutters

variable {α : Type} {xs xs' ys ys' : List α}

/-- Nothing is carried of what nobody hears. -/
lemma none (xs : List α) : Stutters xs [] := by
  induction xs with
  | nil => exact .nil
  | cons x xs ih => exact .skip x ih

/-- What is carried, one part after the other. -/
lemma append (h : Stutters xs ys) (h' : Stutters xs' ys') : Stutters (xs ++ xs') (ys ++ ys') := by
  induction h with
  | nil => exact h'
  | skip x _ ih => exact .skip x ih
  | again x _ ih => exact .again x ih

/-- One thing is carried as often as it is heard. -/
lemma single {x : α} (h : ∀ y ∈ ys, y = x) : Stutters [x] ys := by
  induction ys with
  | nil => exact none [x]
  | cons y ys ih =>
    obtain rfl := h y List.mem_cons_self
    exact .again y (ih fun y' mem => h y' (List.mem_cons_of_mem _ mem))

end Stutters

/-- The commands of the Updates that a watch gets. -/
def carried (pid : Pid) (ref : Ref) (events : List Event) : List DbCommand :=
  events.filterMap fun
    | .update pid' ref' command db => if pid' = pid ∧ ref' = ref then some (db, command) else none
    | _ => none

section
variable (pid : Pid) (ref : Ref)

/-- Updates are carried one part after the other. -/
lemma carried_append (events events' : List Event) :
    carried pid ref (events ++ events') = carried pid ref events ++ carried pid ref events' :=
  List.filterMap_append

/-- The updates of a command carry it. -/
lemma carried_of {command : Command} {db : Nat} {events : List Event}
    (h : UpdatesOf command db events) : Stutters [(db, command)] (carried pid ref events) := by
  apply Stutters.single
  intro c mem
  obtain ⟨event, mem, eq⟩ := List.mem_filterMap.mp mem
  obtain ⟨pid', ref', rfl⟩ := h event mem
  simp only at eq
  split at eq
  · exact (Option.some.inj eq).symm
  · cases eq

/-- Notifications carry the commands in their order. -/
lemma carried_notifyAll (s : State) (commands : List DbCommand) :
    Stutters commands (carried pid ref (notifyAll s commands).1) := by
  induction commands with
  | nil => exact .nil
  | cons c rest ih =>
    obtain ⟨db, command⟩ := c
    have here := carried_of pid ref (notifyWatchers_of (s := s) db command)
    rw [notifyAll]
    cases e : notifyWatchers s db command with
    | mk events result =>
      cases result with
      | error reason =>
        rw [e] at here
        have later := here.append (Stutters.none rest)
        rwa [List.append_nil] at later
      | ok _ =>
        rw [e] at here
        show Stutters _ (carried pid ref (events ++ _))
        rw [carried_append]
        exact here.append ih

variable [Indexset]

/-- A transaction carries nothing. -/
lemma carried_runTx (s : State) (batch : List DbCommand) :
    carried pid ref (runTx s batch).1 = [] := by
  unfold runTx
  split
  · rfl
  · split
    · rfl
    · rfl

/-- A flush carries its commands in their order. -/
lemma carried_flush (s : State) (commands : List DbCommand) :
    Stutters commands (carried pid ref (flush s commands).1) := by
  have quiet := carried_runTx pid ref s (convertible commands)
  rw [flush]
  cases result : (runTx s (convertible commands)).2 with
  | error reason =>
    rw [Step.andThen_of_error result, quiet]
    exact Stutters.none commands
  | ok s' =>
    rw [Step.andThen_of_ok result, carried_append, quiet]
    exact carried_notifyAll pid ref s' commands

/-- Flushes carry their commands in their order. -/
lemma carried_flushEach (flushes : List (List DbCommand)) (s : State) :
    Stutters flushes.flatten (carried pid ref (flushEach flushes s).1) := by
  induction flushes generalizing s with
  | nil => exact .nil
  | cons commands rest ih =>
    have here := carried_flush pid ref s commands
    rw [List.flatten_cons, flushEach]
    cases result : (flush s commands).2 with
    | error reason =>
      have later := here.append (Stutters.none rest.flatten)
      rw [List.append_nil] at later
      rw [Step.andThen_of_error result]
      exact later
    | ok s' =>
      rw [Step.andThen_of_ok result, carried_append]
      exact here.append (ih s')

end

/-- No command is lost in the queue. -/
lemma takeAll_whole (p : Pending) (commands : List DbCommand) :
    (p.takeAll commands).1.flatten ++ (p.takeAll commands).2.buffered = p.buffered ++ commands := by
  induction commands generalizing p with
  | nil => simp [Pending.takeAll]
  | cons c rest ih =>
    have here : (p.take c).1.flatten ++ (p.take c).2.buffered = p.buffered ++ [c] := by
      rw [Pending.take]
      split_ifs <;> simp
    rw [Pending.takeAll, List.flatten_append, List.append_assoc, ih, ← List.append_assoc, here,
      List.append_assoc, List.singleton_append]

/-- No command is lost over several calls. -/
lemma calls_whole (p : Pending) (chunks : List (List DbCommand)) :
    (p.calls chunks).1.flatten ++ (p.calls chunks).2.buffered = p.buffered ++ chunks.flatten := by
  induction chunks generalizing p with
  | nil => simp [Pending.calls]
  | cons chunk rest ih =>
    have closed (p : Pending) : p.close.1.flatten ++ p.close.2.buffered = p.buffered := by
      rw [Pending.close]
      split_ifs <;> simp
    rw [Pending.calls, List.flatten_cons]
    simp only [List.flatten_append, List.append_assoc]
    rw [ih, ← List.append_assoc _ _ rest.flatten, closed, ← List.append_assoc, takeAll_whole,
      List.append_assoc]

/-- What a watch gets follows the order of the commands. -/
lemma handleEach_order [Indexset] (s : State) (chunks : List (List (ReplicaCommand Command)))
    (pid : Pid) (ref : Ref) :
    Stutters (s.txBuffer.reverse ++ received chunks.flatten)
      (carried pid ref (handleEach chunks s).1) := by
  have whole := calls_whole s.pending (chunks.map received)
  have flat : (chunks.map received).flatten = received chunks.flatten := List.map_flatten.symm
  have calls := handleEach_eq chunks s s.pending
  rw [withPending_pending] at calls
  rw [flat] at whole
  show Stutters (s.pending.buffered ++ _) _
  rw [calls, ← whole, ← List.append_nil (carried pid ref _)]
  exact (carried_flushEach pid ref _ s).append (Stutters.none _)

/-! ## Completeness -/

section
variable [Indexset] {s : State} {storage : Storage} {db : Nat} {command : Command}

/-- A transaction sends no update. -/
lemma update_not_mem_runTx (s : State) (batch : List DbCommand) (pid : Pid) (ref : Ref)
    (command : Command) (db : Nat) : .update pid ref command db ∉ (runTx s batch).1 := by
  unfold runTx
  split
  · exact List.not_mem_nil
  · split
    · exact List.not_mem_nil
    · simp

/-- What a flush of one command sends. -/
lemma update_mem_flush (writes : s.WritesTo storage) (buffered : s.txBuffer = [(db, command)])
    {pid : Pid} {ref : Ref} :
    .update pid ref command db ∈ (flushTxBuffer s).1 ↔
      Returns (convertible [(db, command)]) (s.content storage) ∧
      .update pid ref command db ∈ (notifyWatchers s db command).1 := by
  have single : s.pending.buffered = [(db, command)] := by
    show s.txBuffer.reverse = _
    rw [buffered]
    rfl
  have events : (flushTxBuffer s).1 = (flush s [(db, command)]).1 := by
    have calls := flushTxBuffer_withPending s s.pending
    rw [withPending_pending, single] at calls
    rw [calls]
    rfl
  -- the batch itself sends no Update
  have silent := update_not_mem_runTx s (convertible [(db, command)]) pid ref command db
  rw [events, flush]
  by_cases returns : Returns (convertible [(db, command)]) (s.content storage)
  · obtain ⟨_, eq⟩ := runTx_returns writes returns
    rw [and_iff_right returns]
    rw [Step.andThen_of_ok eq, notifyAll_write, List.mem_append, or_iff_right silent, notifyAll]
    cases notifyWatchers s db command with
    | mk events' result =>
      cases result with
      | ok _ =>
        show _ ∈ events' ++ [] ↔ _
        rw [List.append_nil]
      | error reason => rfl
  · apply iff_of_false _ fun h => returns h.1
    obtain ⟨reason, eq⟩ := runTx_panics writes returns
    rw [Step.andThen_of_error eq]
    exact silent

/-- Whether a watch of a key that changes gets the Update. -/
lemma told_iff [Runtime] (writes : s.WritesTo storage) (ready : s.ready = true)
    (linked : s.watch.Linked) (buffered : s.txBuffer = [(db, command)]) {d : Nat} {k : Bytes}
    {pid : Pid} {ref : Ref}
    (changed : (executeAll (convertible [(db, command)]) (s.content storage)).lookup d k ≠
      (s.content storage).lookup d k)
    (on : s.watch.On d k pid ref) :
    .update pid ref command db ∈ (flushTxBuffer s).1 ↔
      (s.content storage).overreaches db command = false ∧ (wholesale command = true ∨
        d = db ∧ (s.watch.keyToPids.refOf d k pid = some ref ∨ ref ≠ .nil) ∨
        ∃ key ∈ affectedKeys command, s.watch.Finds db key pid ref) := by
  rw [update_mem_flush writes buffered]
  cases whole : wholesale command with
  | true =>
    -- a command on whole databases tells everybody, if it is executed
    have calm : (s.content storage).overreaches db command = false := by
      cases command with
      | flushall => rfl
      | flushdb => rfl
      | swapdb => rfl
      | _ => cases whole
    have returns := (returns_single (.inr whole)).mpr calm
    exact iff_of_true ⟨returns, wholesale_told ready whole changed on⟩ ⟨calm, .inl rfl⟩
  | false =>
    -- the key has changed, so it is one of those that the command affects
    obtain ⟨small, affected⟩ := changed_place whole changed
    rw [returns_single (.inl small), notifyWatchers_onKeys ready whole, mem_notifyKeys linked small]
    apply and_congr_right
    intro _
    constructor
    · exact fun finds => .inr (.inr finds)
    · rintro (contra | ⟨here, known⟩ | finds)
      · cases contra
      · refine ⟨k, affected here, ?_⟩
        rw [here] at known on
        obtain exact_ | named := known
        · exact .inl exact_
        · exact on.imp_right fun held => ⟨named, held⟩
      · exact finds

end

/-- A command is handed over while the storage is ready. The watches of the keys that it changes get
an Update, exactly when it does not panic, and each of them is found: the command is for whole
databases, or the key is in its own database and no `nil` stands for the watch of a prefix, or the
same process has a watch with the same reference that is found. The Updates of a watch follow the
order of the commands. -/
theorem watchCompleteness [Indexset] [Runtime] {s : State} {storage : Storage} {db : Nat}
    {command : Command} (writes : s.WritesTo storage) (ready : s.ready = true)
    (linked : s.watch.Linked) (buffered : s.txBuffer = [(db, command)]) :
    ((∀ d k pid ref, (executeAll (convertible [(db, command)]) (s.content storage)).lookup d k ≠
        (s.content storage).lookup d k → s.watch.On d k pid ref →
          .update pid ref command db ∈ (flushTxBuffer s).1) ↔
      ∀ d k pid ref, (executeAll (convertible [(db, command)]) (s.content storage)).lookup d k ≠
        (s.content storage).lookup d k → s.watch.On d k pid ref →
          (s.content storage).overreaches db command = false ∧ (wholesale command = true ∨
            d = db ∧ (s.watch.keyToPids.refOf d k pid = some ref ∨ ref ≠ .nil) ∨
            ∃ key ∈ affectedKeys command, s.watch.Finds db key pid ref)) ∧
    ∀ (s : State) (chunks : List (List (ReplicaCommand Command))) (pid : Pid) (ref : Ref),
      Stutters (s.txBuffer.reverse ++ received chunks.flatten)
        (carried pid ref (handleEach chunks s).1) := by
  refine ⟨?_, handleEach_order⟩
  constructor
  · intro complete d k pid ref changed on
    exact (told_iff writes ready linked buffered changed on).mp (complete d k pid ref changed on)
  · intro found d k pid ref changed on
    exact (told_iff writes ready linked buffered changed on).mpr (found d k pid ref changed on)

/-- The watch of a key that is set. -/
theorem watchCompleteness_set : ∃ watch, Watch.create.add 7 0 (ascii "k") (.term 0) = .ok watch ∧
    .update 7 (.term 0) (.set (ascii "k") (ascii "x")) 0 ∈
    (@flushTxBuffer (.exact false) { State.initial with
      ready := true, watch, txBuffer := [(0, .set (ascii "k") (ascii "x"))] }).1 := by
  obtain ⟨watch, added⟩ : ∃ watch, Watch.create.add 7 0 (ascii "k") (.term 0) =
    .ok watch := ⟨_, rfl⟩
  have : Runtime := ⟨fun n => n, Nat.cast_injective⟩
  have linked : watch.Linked := Watch.add_linked Watch.create_linked added
  have prefixes : watch.prefixToPids = ∅ := by
    cases added
    rfl
  have held : watch.keyToPids.refOf 0 (ascii "k") 7 = some (.term 0) := by
    cases added
    decide +kernel
  refine ⟨watch, added, ?_⟩
  apply (@watchCompleteness (.exact false) _
    { State.initial with
      ready := true, watch, txBuffer := [(0, .set (ascii "k") (ascii "x"))] } 0 0 _
    ⟨rfl, Nat.one_pos⟩ rfl linked rfl).1.mpr _ 0 (ascii "k") 7 (.term 0)
  · show (StorageInner.new.put 0 (ascii "k") _).lookup 0 (ascii "k") ≠
      StorageInner.new.lookup 0 (ascii "k")
    rw [StorageInner.lookup_put, if_pos ⟨rfl, rfl⟩, StorageInner.lookup_new]
    exact Option.some_ne_none _
  · exact .inl held
  · intro d k pid ref changed on
    refine ⟨rfl, .inr (.inl ⟨?_, ?_⟩)⟩
    · by_contra other
      exact changed (TsNif.set_within 0 _ _ _ d k fun same => absurd same other)
    · obtain exact_ | ⟨pre, _, nowhere⟩ := on
      · exact .inl exact_
      · rw [prefixes, Registrations.refOf_empty] at nowhere
        cases nowhere

/-- `MOVE k 1` in database 0: the process that watches the key in database 1 is told nothing. -/
theorem move_untold :
    @RedisStream.CommandParser.parse ⟨fun _ => false⟩ [ascii "MOVE", ascii "k", ascii "1"] =
      some (.moveKey (ascii "k") 1, [ascii "k"]) ∧
    ∃ watch, Watch.create.add 7 1 (ascii "k") (.term 0) = .ok watch ∧
      watch.On 1 (ascii "k") 7 (.term 0) ∧
      ∃ content, content = StorageInner.new.put 0 (ascii "k") (.string (ascii "x")) ∧
        (@executeAll (.exact false) (convertible [(0, .moveKey (ascii "k") 1)]) content).lookup
          1 (ascii "k") ≠
          content.lookup 1 (ascii "k") ∧
        .update 7 (.term 0) (.moveKey (ascii "k") 1) 0 ∉
          (@flushTxBuffer (.exact false) { State.initial with
            storages := [content], ready := true, watch
            txBuffer := [(0, .moveKey (ascii "k") 1)] }).1 := by
  refine ⟨by decide +kernel, _, rfl, .inl (by decide +kernel), _, rfl,
    by decide +kernel, by decide +kernel⟩

end TSProj

end Veidrodelis
