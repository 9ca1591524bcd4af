import Veidrodelis.TSProj.DoubleBuffer

/-!
# The switch to a new snapshot

`handle_streaming_start` tells the watchers, then the registry, and what the last chunk of the RDB
has brought is handed over after that. So there is a moment at which readers see a storage without a
part of its snapshot, unless everything of it was handed over before (`EndsSettled`). At every other
moment the exposed storage is what its snapshot and a first part of the stream make of an empty one
(`snapshotSwitch`).
-/

namespace Veidrodelis.TSProj
open RedisNif
open RedisStream (Callback Command Reason ReplicaCommand)
open RedisStream
open RedisStream.Replica (Connection Transferred Streams fullResyncs epoch emittedIn commandsFor)
open TsNif (Indexset StorageInner Returns executeAll tx)

/-! ## What is in the storages -/

section
variable [Indexset]

/-- In every storage is what the commands that it was given make of an empty one. -/
def Exact (b : Books) : Prop := ∀ n, b.content n = (tx (b.given n) .new).1

/-- What was handed over is in the storages, and nothing has panicked when one is exposed. -/
def Executed (b : Books) : Effect → Prop
  | .callback (.tx storage batch content) => Exact (b.next (.callback (.tx storage batch content)))
  | .callback (.register _ _) => ∀ n, Returns (b.given n) .new
  | _ => True

/-- The storages of a state are those of the record. -/
structure Books.Stores (b : Books) (s : State) : Prop where
  content : ∀ n, s.content n = b.content n
  executed : ∀ n, Returns (b.given n) .new ∧ b.content n = executeAll (b.given n) .new
  created : ∀ storage, s.newTsStorage.or s.tsStorage = some storage → storage < s.storages.length

variable {b : Books} {s s' : State}

/-- What a function of the module does goes with the record. -/
abbrev StoreKeeps (b : Books) (step : Step) : Prop :=
  Replica.Keeps Books.next Executed Books.Stores b step

/-- Two steps one after the other. -/
lemma StoreKeeps.andThen {step : Step} {next : State → Step} (first : StoreKeeps b step)
    (rest : ∀ t, step.2 = .ok t →
      StoreKeeps (History.after Books.next b (step.1.map .callback)) (next t)) :
    StoreKeeps b (step.andThen next) := by
  match step with
  | (events, .error reason) => exact ⟨first.always, nofun⟩
  | (events, .ok t) =>
    have later := rest t rfl
    constructor
    · show History.Always _ _ _ ((events ++ (next t).1).map _)
      rw [List.map_append]
      exact first.always.append later.always
    · intro u ok
      show Books.Stores (History.after _ _ ((events ++ (next t).1).map _)) u
      rw [List.map_append, History.after_append]
      exact later.returned u ok

/-- Events that say nothing about storages. -/
lemma storeKeeps_unrecorded {step : Step}
    (silent : ∀ event ∈ step.1, b.next (.callback event) = b ∧ Executed b (.callback event))
    (returned : ∀ t, step.2 = .ok t → b.Stores t) : StoreKeeps b step := by
  have same : ∀ e ∈ (step.1.map .callback : List Effect), b.next e = b := by
    intro e mem
    obtain ⟨event, here, rfl⟩ := List.mem_map.mp mem
    exact (silent event here).1
  constructor
  · refine .of_unrecorded same fun e mem => ?_
    obtain ⟨event, here, rfl⟩ := List.mem_map.mp mem
    exact (silent event here).2
  · intro t ok
    rw [History.after_unrecorded same]
    exact returned t ok

/-- The record is exact. -/
lemma Books.Stores.exact (h : b.Stores s) : Exact b := by
  intro n
  obtain ⟨returns, content⟩ := h.executed n
  rw [content, TsNif.tx_storage returns]

/-- A batch in the record. -/
lemma Books.Stores.exact_tx (h : b.Stores s) (storage : Storage) (batch : List DbCommand) :
    Exact (b.next (.callback (.tx storage batch (tx batch (s.content storage)).1))) := by
  intro n
  show (if n = storage then (tx batch (s.content storage)).1 else b.content n) =
    (tx (if n = storage then b.given n ++ batch else b.given n) .new).1
  split
  · rename_i here
    subst here
    obtain ⟨returns, content⟩ := h.executed n
    rw [TsNif.tx_append returns, h.content, content]
  · exact h.exact n

/-- A batch that returns. -/
lemma Books.Stores.write {storage : Storage} (h : b.Stores s) (writes : s.WritesTo storage)
    {batch : List DbCommand} (returns : Returns batch (s.content storage)) :
    (b.next (.callback (.tx storage batch (tx batch (s.content storage)).1))).Stores
      (s.write storage (tx batch (s.content storage)).1) where
  content n := by
    show _ = if n = storage then (tx batch (s.content storage)).1 else b.content n
    split
    · rename_i here
      rw [here]
      exact writes.content_write _
    · rename_i other
      rw [← h.content n]
      show ((s.storages.set storage _)[n]?).getD .new = (s.storages[n]?).getD .new
      rw [List.getElem?_set_ne (Ne.symm other)]
  executed n := by
    show Returns (if n = storage then b.given n ++ batch else b.given n) .new ∧
      (if n = storage then (tx batch (s.content storage)).1 else b.content n) =
        executeAll (if n = storage then b.given n ++ batch else b.given n) .new
    split
    · rename_i here
      subst here
      obtain ⟨before, content⟩ := h.executed n
      rw [h.content, content] at returns ⊢
      rw [TsNif.returns_append, TsNif.executeAll_append, TsNif.tx_storage returns]
      exact ⟨⟨before, returns⟩, rfl⟩
    · exact h.executed n
  created other target := by
    show other < (s.storages.set storage _).length
    rw [List.length_set]
    exact h.created other target

/-- A transaction goes with the record. -/
lemma runTx_storeKeeps (h : b.Stores s) (batch : List DbCommand) :
    StoreKeeps b (runTx s batch) := by
  by_cases isNil : batch = []
  · rw [runTx, if_pos isNil]
    refine ⟨trivial, ?_⟩
    rintro t ⟨⟩
    exact h
  · cases target : s.newTsStorage.or s.tsStorage with
    | none =>
      rw [runTx, if_neg isNil, target]
      exact ⟨trivial, fun _ failed => by cases failed⟩
    | some storage =>
      rw [runTx_some target isNil]
      refine ⟨⟨h.exact_tx storage batch, trivial⟩, ?_⟩
      intro t ok
      cases e : (tx batch (s.content storage)).2 with
      | error fault =>
        rw [e] at ok
        cases ok
      | ok results =>
        rw [e] at ok
        cases ok
        exact h.write ⟨target, h.created storage target⟩
          ((TsNif.ok_iff_returns _ _).mp ⟨results, e⟩)

/-- A flush goes with the record. -/
lemma flush_storeKeeps (h : b.Stores s) (commands : List DbCommand) :
    StoreKeeps b (flush s commands) := by
  apply StoreKeeps.andThen (runTx_storeKeeps h _)
  intro t ok
  have stores := (runTx_storeKeeps h _).returned t ok
  apply storeKeeps_unrecorded
  · intro event mem
    obtain ⟨pid, ref, command, db, rfl⟩ := notifyAll_only commands event mem
    exact ⟨rfl, trivial⟩
  · intro u eq
    change ((notifyAll t commands).2.map fun () => t) = .ok u at eq
    cases e : (notifyAll t commands).2 with
    | error reason =>
      rw [e] at eq
      cases eq
    | ok _ =>
      rw [e] at eq
      cases eq
      exact stores

/-- Flushes go with the record. -/
lemma flushEach_storeKeeps (h : b.Stores s) (flushes : List (List DbCommand)) :
    StoreKeeps b (flushEach flushes s) := by
  induction flushes generalizing s b with
  | nil =>
    refine ⟨trivial, ?_⟩
    rintro t ⟨⟩
    exact h
  | cons commands rest ih =>
    apply StoreKeeps.andThen (flush_storeKeeps h commands)
    intro t ok
    exact ih ((flush_storeKeeps h commands).returned t ok)

/-- Commands go with the record. -/
lemma handleCommands_storeKeeps (h : b.Stores s) (commands : List (ReplicaCommand Command)) :
    StoreKeeps b (handleCommands s commands) := by
  have kept := flushEach_storeKeeps h (s.pending.calls [received commands]).1
  rw [handleCommands_eq]
  refine ⟨kept.always, ?_⟩
  intro t ok
  obtain ⟨u, returned, rfl⟩ := Step.map_eq_ok.mp ok
  have stores := kept.returned u returned
  exact ⟨stores.content, stores.executed, stores.created⟩

/-- Messages about watches leave the storages as they are. -/
lemma Books.Stores.same (h : b.Stores s) {step : Step} (stores : SameStores s step) (t : State)
    (ok : step.2 = .ok t) : b.Stores t := by
  obtain ⟨storages, tsStorage, newTsStorage, -, -⟩ := stores t ok
  refine ⟨fun n => ?_, h.executed, ?_⟩
  · rw [← h.content n, State.content, State.content, storages]
  · rw [storages, tsStorage, newTsStorage]
    exact h.created

/-- A plain step that keeps the storages goes with the record. -/
lemma plain_storeKeeps (h : b.Stores s) {step : Step} (plain : Plain s step)
    (stores : SameStores s step) :
    StoreKeeps b step ∧ (History.after Books.next b (step.1.map .callback)).Stores s := by
  have silent : ∀ event ∈ step.1, b.next (.callback event) = b ∧ Executed b (.callback event) := by
    intro event mem
    obtain ⟨pid, monitor, rfl⟩ | ⟨monitor, rfl⟩ := plain.monitors event mem
    · exact ⟨rfl, trivial⟩
    · exact ⟨rfl, trivial⟩
  refine ⟨storeKeeps_unrecorded silent (h.same stores), ?_⟩
  rw [History.after_unrecorded]
  · exact h
  · intro e mem
    obtain ⟨event, here, rfl⟩ := List.mem_map.mp mem
    exact (silent event here).1

/-- What the functions of the projection keep. -/
lemma stores_contract [Runtime] :
    Replica.Contract Books.next Executed Books.Stores callback (fun _ _ => True) .start where
  outside r e outside := by
    cases e with
    | handleCommands => exact outside.elim
    | callback => exact outside.elim
    | send => exact ⟨rfl, trivial⟩
    | close => exact ⟨rfl, trivial⟩
    | startTimer => exact ⟨rfl, trivial⟩
    | cancelTimer => exact ⟨rfl, trivial⟩
    | psyncCompleted => exact ⟨rfl, trivial⟩
    | parserData => exact ⟨rfl, trivial⟩
    | callbackFailed => exact ⟨rfl, trivial⟩
  init := by
    have isEmpty : Returns [] StorageInner.new := ⟨[], rfl, rfl⟩
    refine ⟨⟨fun _ => isEmpty, trivial⟩, ?_⟩
    rintro s ⟨⟩
    refine ⟨fun n => ?_, fun _ => ⟨isEmpty, rfl⟩, ?_⟩
    · cases n with
      | zero => rfl
      | succ n => rfl
    · rintro storage ⟨⟩
      exact Nat.one_pos
  replicationStart b s stores := by
    refine ⟨trivial, ?_⟩
    rintro t ⟨⟩
    refine ⟨fun n => ?_, stores.executed, ?_⟩
    · -- behind the last storage there was nothing
      refine Eq.trans ?_ (stores.content n)
      show ((s.storages ++ [StorageInner.new])[n]?).getD .new = (s.storages[n]?).getD .new
      rcases Nat.lt_or_ge n s.storages.length with inside | outside
      · rw [List.getElem?_append_left inside]
      · rw [List.getElem?_append_right outside, List.getElem?_eq_none outside]
        cases n - s.storages.length with
        | zero => rfl
        | succ k => rfl
    · rintro storage ⟨⟩
      show s.storages.length < (s.storages ++ [StorageInner.new]).length
      rw [List.length_append]
      exact Nat.lt_succ_self _
  streamingStart b s stores := by
    have silent : ∀ e ∈ (s.inits.map .callback : List Effect), b.next e = b ∧ Executed b e := by
      intro e mem
      obtain ⟨event, told, rfl⟩ := List.mem_map.mp mem
      obtain ⟨_, _, rfl⟩ := mem_inits told
      exact ⟨rfl, trivial⟩
    have same := History.after_unrecorded fun e mem => (silent e mem).1
    constructor
    · rw [streamingStart_effects]
      refine History.Always.append (.of_unrecorded (fun e mem => (silent e mem).1)
        fun e mem => (silent e mem).2) ?_
      rw [same]
      exact ⟨fun n => (stores.executed n).1, trivial⟩
    · rintro t ⟨⟩
      rw [streamingStart_effects, History.after_append, same]
      refine ⟨stores.content, stores.executed, fun storage target => stores.created storage ?_⟩
      have new : s.newTsStorage = some storage := target
      rw [new]
      rfl
  asked _ _ _ _ _ := trivial
  commands b s commands stores _ := handleCommands_storeKeeps stores commands
  call b s message stores :=
    (plain_storeKeeps stores (handleCall_plain s message) (handleCall_stores s message)).1
  callFails b s message _ stores _ :=
    (plain_storeKeeps stores (handleCall_plain s message) (handleCall_stores s message)).2
  info b s message stores :=
    (plain_storeKeeps stores (handleInfo_plain s message) (handleInfo_stores s message)).1
  infoFails b s message _ stores _ :=
    (plain_storeKeeps stores (handleInfo_plain s message) (handleInfo_stores s message)).2

end

/-! ## The snapshot in a storage -/

section
variable [Indexset] {cfg : Replica.Config Command State Event Message}

/-- The whole snapshot of a full resync was given to its storage, and nothing of it panics. -/
def Loaded (cfg : Replica.Config Command State Event Message)
    (connections : List (Connection Command)) (n : Nat) (given : List DbCommand) : Prop :=
  ∃ later c p rdb events, epoch n connections = later ++ [c] ∧ c.isFull = true ∧ c.stream.isSome ∧
    c.Follows p rdb events ∧ convertible (received (commandsFor cfg rdb)) <+: given ∧
    Returns (convertible (received (commandsFor cfg rdb))) .new

/-- A snapshot that was given whole and returns is loaded. -/
lemma loaded_of_holds {connections : List (Connection Command)} {n : Nat} {given : List DbCommand}
    (h : HoldsSnapshot cfg connections n given) (returns : Returns given .new) :
    Loaded cfg connections n given := by
  obtain ⟨later, c, p, rdb, events, shape, full, begun, follows, inside⟩ := h
  refine ⟨later, c, p, rdb, events, shape, full, begun, follows, inside, ?_⟩
  obtain ⟨rest, rfl⟩ := inside
  exact ((TsNif.returns_append _ _ _).mp returns).1

namespace Loaded

variable {c c' : Connection Command} {connections : List (Connection Command)} {n : Nat}
  {given given' : List DbCommand}

/-- Batches are appended. -/
lemma grow (h : Loaded cfg connections n given) (more : given <+: given') :
    Loaded cfg connections n given' := by
  obtain ⟨later, c, p, rdb, events, shape, full, begun, follows, inside, returns⟩ := h
  exact ⟨later, c, p, rdb, events, shape, full, begun, follows, inside.trans more, returns⟩

/-- A connection is made. -/
lemma begun (h : Loaded cfg connections n given) (c : Connection Command) :
    Loaded cfg (c :: connections) n given := by
  obtain ⟨later, c₀, p, rdb, events, shape, rest⟩ := h
  obtain ⟨later', shape'⟩ := Replica.epoch_begun shape c
  exact ⟨later', c₀, p, rdb, events, shape', rest⟩

/-- More is recorded of the latest connection. -/
lemma modified (h : Loaded cfg (c :: connections) n given) (reply : c'.reply = c.reply)
    (goes : c.stream.isSome → c'.stream.isSome)
    (follows : ∀ p rdb events, c.stream.isSome → c.Follows p rdb events →
      ∃ p' events', c'.Follows p' rdb events') :
    Loaded cfg (c' :: connections) n given := by
  obtain ⟨later, c₀, p, rdb, events, shape, full, begun, reads, rest⟩ := h
  obtain ⟨later', shape'⟩ | ⟨rfl, shape'⟩ := Replica.epoch_modified reply shape
  · exact ⟨later', c₀, p, rdb, events, shape', full, begun, reads, rest⟩
  · obtain ⟨p', events', reads'⟩ := follows p rdb events begun reads
    exact ⟨[], c', p', rdb, events', shape', (Replica.isFull_congr reply).trans full, goes begun,
      reads', rest⟩

/-- What is recorded besides what the parser has taken. -/
lemma besides {log : Replica.Log Command} {f : Connection Command → Connection Command}
    (h : Loaded cfg log.connections n given)
    (same : ∀ c, (f c).reply = c.reply ∧ (f c).chunks = c.chunks ∧ (f c).emitted = c.emitted) :
    Loaded cfg (log.modify f).connections n given := by
  cases e : log.connections with
  | nil =>
    simp only [Replica.Log.modify, e]
    rwa [e] at h
  | cons c earlier =>
    simp only [Replica.Log.modify, e]
    rw [e] at h
    obtain ⟨reply, chunks, emitted⟩ := same c
    apply h.modified reply
    · rw [Connection.stream, Connection.stream, Connection.received, Connection.received, reply,
        chunks]
      exact id
    · intro p rdb events _ reads
      refine ⟨p, events, ?_⟩
      unfold Connection.Follows Connection.received at reads ⊢
      rwa [reply, chunks, emitted]

/-- The parser takes a chunk. -/
lemma accept (h : Loaded cfg (c :: connections) n given) {p p' : ReplicaParser.ParserState}
    {rdb : List RawCommand} {events : List ReplicaParser.Event} {chunk : Bytes}
    {fed : ReplicaParser.Fed} (follows : c.Follows p rdb events)
    (fedData : ReplicaParser.feedData p chunk = .ok (p', fed)) :
    Loaded cfg (c.accept chunk fed.commands :: connections) n given := by
  apply h.modified
  · rfl
  · exact Connection.stream_accept
  · -- a parser in the stream brings no more of the snapshot
    intro q rdb' events' begun reads
    obtain ⟨bytes, stream⟩ := Option.isSome_iff_exists.mp begun
    have same := (follows.stream stream).symm.trans (reads.stream stream)
    cases same
    obtain ⟨r, more, next, -, nothing⟩ := reads.accept fedData
    rw [nothing (reads.streaming_iff.mpr begun), List.append_nil] at next
    exact ⟨p', events ++ more, next⟩

end Loaded

/-- A storage is what the whole snapshot of its full resync and a first part of the stream behind it
make of an empty one. -/
def Complete (cfg : Replica.Config Command State Event Message) (trace : List Effect)
    (n : Storage) : Prop :=
  ∃ later c p rdb events stream, epoch n (Replica.logOf trace).connections = later ++ [c] ∧
    c.isFull = true ∧
    c.stream.isSome ∧ c.Follows p rdb events ∧
      Returns (convertible (received (commandsFor cfg rdb))) .new ∧
    stream <+: convertible (received (commandsFor cfg
      (ReplicaParser.commandsOf events ++ later.reverse.flatMap (·.emitted)))) ∧
    (booksOf trace).content n = (tx (convertible (received (commandsFor cfg rdb)) ++ stream) .new).1

/-- A loaded storage is complete, if the record is exact. -/
lemma Loaded.complete {trace : List Effect} {n : Storage}
    (h : Loaded cfg (Replica.logOf trace).connections n ((booksOf trace).given n))
    (bounded : Bounded cfg (ledgerOf trace)) (exact : Exact (booksOf trace)) :
    Complete cfg trace n := by
  obtain ⟨later, c, p, rdb, events, shape, full, begun, follows, ⟨stream, given⟩, returns⟩ := h
  refine ⟨later, c, p, rdb, events, stream, shape, full, begun, follows, returns, ?_, ?_⟩
  · have bound := bounded n
    rw [ledgerOf_books, Ledger.commands, ledgerOf_log, ← given] at bound
    have out : emittedIn n (Replica.logOf trace).connections =
        rdb ++ (ReplicaParser.commandsOf events ++ later.reverse.flatMap (·.emitted)) := by
      rw [emittedIn, shape]
      simp [follows.2]
    rw [out, Replica.commandsFor_append, received_append, convertible_append] at bound
    exact (List.prefix_append_right_inj _).mp bound
  · rw [exact n, given]

/-! ## Effects one by one -/

/-- If the registry exposes a storage as ready, then the storage is loaded; and the last chunk is a
settled one. -/
structure Shown (cfg : Replica.Config Command State Event Message) (l : Ledger) : Prop where
  loaded : l.books.view.ready = true → ∀ n, l.books.view.exposed = some n →
    Loaded cfg l.log.connections n (l.books.given n)
  settled : ∀ connections chunk fed, l.chunk = some (connections, chunk, fed) →
    EndsSettled cfg connections chunk fed

/-- At the start no storage is exposed. -/
lemma shown_start : Shown cfg .start := ⟨nofun, nofun⟩

/-- The chunk of an effect is a settled one, in a record. -/
def ChunkSettled (cfg : Replica.Config Command State Event Message) (l : Ledger) : Effect → Prop
  | .parserData chunk (.ok fed) => EndsSettled cfg l.log.connections chunk fed
  | _ => True

/-- An orderly effect keeps what the registry shows. -/
lemma Shown.next {l : Ledger} (h : Shown cfg l) {e : Effect} (orderly : Orderly cfg l e)
    (executed : Executed l.books e) (settled : ChunkSettled cfg l e) : Shown cfg (l.next e) := by
  cases e with
  | send request =>
    cases request with
    | psync => exact ⟨h.loaded, h.settled⟩
    | _ => exact h
  | close => exact h
  | startTimer => exact h
  | cancelTimer => exact h
  | callbackFailed => exact h
  | psyncCompleted reply =>
    exact ⟨fun ready n exposed => (h.loaded ready n exposed).begun _, h.settled⟩
  | handleCommands s commands =>
    exact ⟨fun ready n exposed => (h.loaded ready n exposed).besides
      fun _ => ⟨rfl, rfl, rfl⟩, h.settled⟩
  | parserData chunk result =>
    match result with
    | .error fault =>
      exact ⟨fun ready n exposed => (h.loaded ready n exposed).besides
        fun _ => ⟨rfl, rfl, rfl⟩, h.settled⟩
    | .ok fed =>
      obtain ⟨c, earlier, p, p', rdb, events, here, follows, fedData⟩ := orderly
      constructor
      · intro ready n exposed
        have loaded := h.loaded ready n exposed
        rw [here] at loaded
        rw [next_accepted chunk fed here]
        exact loaded.accept follows fedData
      · rintro connections chunk' fed' ⟨⟩
        exact settled
  | callback event =>
    cases event with
    | tx storage batch content =>
      refine ⟨fun ready n exposed => (h.loaded ready n exposed).grow ?_, h.settled⟩
      show l.books.given n <+: if n = storage then l.books.given n ++ batch else l.books.given n
      split
      · exact List.prefix_append _ _
      · exact List.prefix_refl _
    | register storage ready =>
      refine ⟨?_, h.settled⟩
      intro isReady n exposed
      have isReady : ready = true := isReady
      have exposed : storage = some n := exposed
      -- a storage that is registered as ready holds the snapshot
      obtain ⟨latest, connections, chunk, fed, last, holds⟩ := orderly isReady
      rw [latest] at exposed
      cases exposed
      exact loaded_of_holds (holds (h.settled connections chunk fed last)) (executed l.storage)
    | _ => exact ⟨h.loaded, h.settled⟩

/-- A trace whose batches are executed keeps an exact record. -/
lemma exact_of_executed {trace : List Effect}
    (executed : History.Always Books.next Executed .start trace) : Exact (booksOf trace) := by
  refine executed.invariant (I := Exact) ?_ fun _ => rfl
  intro b e exact law
  cases e with
  | callback event =>
    cases event with
    | tx => exact law
    | _ => exact exact
  | _ => exact exact

end

/-- A chunk that ends settled is a settled one. -/
lemma chunkSettled_of {cfg : Replica.Config Command State Event Message} {l : Ledger} {e : Effect}
    (h : ∀ chunk fed, e = .parserData chunk (.ok fed) →
      EndsSettled cfg l.log.connections chunk fed) : ChunkSettled cfg l e := by
  cases e with
  | parserData chunk result =>
    cases result with
    | ok fed => exact h chunk fed rfl
    | error fault => trivial
  | _ => trivial

/-! ## Who is told of a switch -/

/-- An Init goes to somebody who watches, and the registry is told as well. -/
def Announces (watch : Watch) (es : List Effect) : Prop :=
  ∀ pid ref, .callback (.init pid ref) ∈ es →
    watch.allWatchers ≠ [] ∧ ∃ storage, .callback (.register storage true) ∈ es

/-- Announcements, one part after the other. -/
lemma Announces.append {watch : Watch} {es es' : List Effect} (h : Announces watch es)
    (h' : Announces watch es') : Announces watch (es ++ es') := by
  intro pid ref mem
  rcases List.mem_append.mp mem with first | second
  · obtain ⟨watched, storage, told⟩ := h pid ref first
    exact ⟨watched, storage, List.mem_append_left _ told⟩
  · obtain ⟨watched, storage, told⟩ := h' pid ref second
    exact ⟨watched, storage, List.mem_append_right _ told⟩

/-- Effects outside of the callback announce nothing. -/
lemma announces_outside {watch : Watch} {es : List Effect} (outside : ∀ e ∈ es, e.Outside) :
    Announces watch es :=
  fun _ _ mem => (outside _ mem).elim

/-- A failure of the module announces nothing. -/
lemma announces_answers {watch : Watch} {function : CallbackFunction} {step : Step}
    (h : Announces watch (step.1.map .callback)) :
    Announces watch (Replica.answers function step) :=
  h.append (announces_outside (Replica.outside_failure function step.2))

section
variable [Indexset]

/-- A flush makes a transaction and updates, and nothing else. -/
lemma of_mem_flush {s : State} {commands : List DbCommand} {event : Event}
    (mem : event ∈ (flush s commands).1) :
    (∃ storage batch content, event = .tx storage batch content) ∨ ∃ pid ref command db, event =
      .update pid ref command db := by
  cases target : s.newTsStorage.or s.tsStorage with
  | some storage =>
    obtain ⟨batch, content, rfl⟩ | update := (flush_writes target commands).1 event mem
    · exact .inl ⟨storage, batch, content, rfl⟩
    · exact .inr update
  | none =>
    by_cases isNil : convertible commands = []
    · rw [flush, runTx, if_pos isNil] at mem
      exact .inr (notifyAll_only (s := s) commands event mem)
    · rw [flush, runTx, if_neg isNil, target] at mem
      exact absurd mem List.not_mem_nil

/-- Commands announce nothing. -/
lemma handleCommands_announces (watch : Watch) (s : State)
    (commands : List (ReplicaCommand Command)) :
    Announces watch ((handleCommands s commands).1.map .callback) := by
  intro pid ref mem
  obtain ⟨event, mem, eq⟩ := List.mem_map.mp mem
  cases eq
  rw [handleCommands_eq] at mem
  obtain ⟨t, _, flushed, _, mem⟩ := of_mem_flushEach mem
  obtain ⟨_, _, _, eq⟩ | ⟨_, _, _, _, eq⟩ := of_mem_flush mem
  · cases eq
  · cases eq

end

/-- The start of the stream sends Init to those who watch. -/
lemma handleStreamingStart_announces (s : State) :
    Announces s.watch ((handleStreamingStart s).1.map .callback) := by
  intro pid ref mem
  obtain ⟨event, mem, eq⟩ := List.mem_map.mp mem
  cases eq
  rcases List.mem_append.mp mem with told | last
  · obtain ⟨watcher, watches, _⟩ := List.mem_map.mp told
    refine ⟨List.ne_nil_of_mem watches, s.newTsStorage, List.mem_map_of_mem ?_⟩
    exact List.mem_append_right _ (List.mem_singleton_self _)
  · cases List.mem_singleton.mp last


/-- A call, or a message for the module, is not announced to anybody. -/
lemma plain_announces {c : State} {step : Step} (plain : Plain c step) (watch : Watch) :
    Announces watch (step.1.map .callback) := by
  intro pid ref mem
  obtain ⟨event, mem, eq⟩ := List.mem_map.mp mem
  cases eq
  obtain ⟨_, _, eq⟩ | ⟨_, eq⟩ := plain.monitors _ mem
  · cases eq
  · cases eq

/-! The replica takes calls and messages for the module one by one, and the rest of what it does is
the same with a module that ignores them. -/

/-- A replica whose module ignores calls and messages. -/
def deaf (cfg : Replica.Config Command State Event Message) :
    Replica.Config Command State Event Message :=
  { cfg with callback := { cfg.callback with
      handleCall := fun s _ => ([], .ok s)
      handleInfo := fun s _ => ([], .ok s) } }

section
variable {cfg : Replica.Config Command State Event Message} {s : Replica.State State}
  {es : List Effect} {st : Replica.Status State}

/-- The watches stay, and what is told is announced. -/
def AnnouncesKept (s : Replica.State State) (es : List Effect) (st : Replica.Status State) : Prop :=
  Announces s.callbackState.watch es ∧ ∀ t, st = .running t →
    t.callbackState.watch = s.callbackState.watch

/-- Effects outside of the callback keep its state. -/
lemma AnnouncesKept.outside (outside : ∀ e ∈ es, e.Outside)
    (same : ∀ t, st = .running t → t.callbackState = s.callbackState) : AnnouncesKept s es st :=
  ⟨announces_outside outside, fun t eq => congrArg _ (same t eq)⟩

variable [Indexset] [Runtime]

/-- What is not ignored is done by the projection. -/
lemma deaf_callback (projection : cfg.callback = callback) : (deaf cfg).callback = { callback with
    handleCall := fun s _ => ([], .ok s)
    handleInfo := fun s _ => ([], .ok s) } := by
  rw [deaf, projection]

/-- The start of the stream sends Init to those who watch, and keeps the watches. -/
lemma started_announces (projection : cfg.callback = callback)
    {before after : ReplicaParser.ReplicaState} {started : List Effect}
    {start : Except Reason (Replica.State State)}
    (h : Replica.startStreaming (deaf cfg) before after s = (started, start)) :
    Announces s.callbackState.watch started ∧ ∀ t, start = .ok t →
      t.callbackState.watch = s.callbackState.watch := by
  obtain ⟨-, -, rfl, ok⟩ | ⟨-, rfl, rfl⟩ := Replica.startStreaming_eq h
  · have module : (deaf cfg).callback.handleStreamingStart = handleStreamingStart := by
      rw [deaf_callback projection]
      rfl
    rw [module] at ok ⊢
    refine ⟨announces_answers (handleStreamingStart_announces _), ?_⟩
    intro t eq
    obtain ⟨c, returned, rfl⟩ := ok t eq
    cases returned
    rfl
  · refine ⟨announces_outside (List.forall_mem_nil _), ?_⟩
    rintro t ⟨⟩
    rfl

/-- Passing commands on announces nothing, and keeps the watches. -/
lemma processed_announces (projection : cfg.callback = callback)
    {commands : List (ReplicaCommand Command)} {calls : List Effect}
    {result : Except Reason (Replica.State State)} (watch : Watch)
    (h : Replica.processCommands (deaf cfg) commands s = (calls, result)) :
    Announces watch calls ∧ ∀ t, result = .ok t →
      t.callbackState.watch = s.callbackState.watch := by
  obtain ⟨-, rfl, rfl⟩ | ⟨-, rfl, ok⟩ := Replica.processCommands_eq h
  · refine ⟨announces_outside (List.forall_mem_nil _), ?_⟩
    rintro t ⟨⟩
    rfl
  · have module : (deaf cfg).callback.handleCommands = handleCommands := by
      rw [deaf_callback projection]
      rfl
    rw [module] at ok ⊢
    constructor
    · intro pid ref mem
      rcases List.mem_cons.mp mem with eq | mem
      · cases eq
      · obtain ⟨watched, storage, told⟩ :=
          announces_answers (handleCommands_announces watch _ _) pid ref mem
        exact ⟨watched, storage, List.mem_cons_of_mem _ told⟩
    · intro t eq
      obtain ⟨c, returned, rfl⟩ := ok t eq
      exact (handleCommands_same returned).watch

/-- Taking a reply announces nothing, and keeps the watches. -/
lemma completed_announces (projection : cfg.callback = callback) {reply : Replica.PsyncReply}
    {result : Except Reason (Replica.State State)}
    (h : Replica.handlePsyncCompleted (deaf cfg) reply s = (es, result)) :
    (∀ e ∈ es, e.Outside) ∧ ∀ t, result = .ok t →
      t.callbackState.watch = s.callbackState.watch := by
  have one : ∀ e ∈ ([.psyncCompleted reply] : List Effect), e.Outside := by
    intro e mem
    rw [List.mem_singleton.mp mem]
    trivial
  obtain ⟨_, _, rfl, rfl, ok⟩ | ⟨rfl, rfl, rfl⟩ := Replica.handlePsyncCompleted_eq h
  · have module : (deaf cfg).callback.handleReplicationStart = handleReplicationStart := by
      rw [deaf_callback projection]
      rfl
    rw [module] at ok ⊢
    refine ⟨one, ?_⟩
    intro t eq
    obtain ⟨c, returned, rfl⟩ := ok t eq
    cases returned
    rfl
  · refine ⟨one, ?_⟩
    rintro t ⟨⟩
    rfl

/-- What one turn says. -/
lemma turn_announces (projection : cfg.callback = callback)
    (turn : Replica.Turn (deaf cfg) s es st) : AnnouncesKept s es st := by
  cases turn with
  | quiet silent same =>
    apply AnnouncesKept.outside fun e mem => Replica.outside_of_quiet (silent e mem)
    rintro t ⟨⟩
    exact same.callbackState
  | psync phase =>
    apply AnnouncesKept.outside
    · intro e mem
      rw [List.mem_singleton.mp mem]
      trivial
    · rintro t ⟨⟩
      rfl
  | ack streaming =>
    apply AnnouncesKept.outside
    · intro e mem
      rw [List.mem_singleton.mp mem]
      trivial
    · rintro t ⟨⟩
      rfl
  | complete phase e =>
    obtain ⟨outside, same⟩ := completed_announces projection e
    refine ⟨announces_outside outside, ?_⟩
    intro t eq
    cases eq
    exact same _ rfl
  | startFails phase e =>
    refine ⟨announces_outside (completed_announces projection e).1, ?_⟩
    rintro t ⟨⟩
  | @feed env data _ handled phase e =>
    have front (chunk : Bytes) (result : Except Fault ReplicaParser.Fed) (acks : List Effect)
        (outside : ∀ e ∈ acks, e.Outside) : Announces s.callbackState.watch
          (.parserData chunk result :: acks) := by
      apply announces_outside
      intro e mem
      rcases List.mem_cons.mp mem with rfl | mem
      · trivial
      · exact outside e mem
    -- in the order of the effects: the parser, the acknowledgement, the start of the stream, the
    -- calls
    cases Replica.handleReplicationData_receives e with
    | noParser =>
      apply AnnouncesKept.outside (List.forall_mem_nil _)
      rintro t ⟨⟩
    | refused hp hf hh =>
      refine ⟨front _ _ [] (List.forall_mem_nil _), ?_⟩
      intro t eq
      obtain ⟨reason, rfl⟩ | rfl := hh
      · cases eq
        rfl
      · cases eq
    | unparsed =>
      refine ⟨front _ _ [] (List.forall_mem_nil _), ?_⟩
      rintro t ⟨⟩
    | @notStarted parser newParser fed commands acks started reason hp hf hc ha hs =>
      have outside := front data (.ok fed) acks (by rw [ha]; exact Replica.outside_acks)
      refine ⟨outside.append (started_announces projection hs).1, ?_⟩
      rintro t ⟨⟩
    | @accepted parser newParser fed commands acks started calls t result handled hp hf hc
      ha hs hk hh =>
      have outside := front data (.ok fed) acks (by rw [ha]; exact Replica.outside_acks)
      obtain ⟨told, same⟩ := started_announces projection hs
      obtain ⟨said, same'⟩ := processed_announces projection s.callbackState.watch hk
      refine ⟨outside.append (told.append said), ?_⟩
      intro u eq
      obtain ⟨s', ok, rfl⟩ | ⟨reason, -, rfl⟩ := hh
      · cases eq
        exact (same' _ ok).trans (same _ rfl)
      · cases eq
  | drop =>
    apply AnnouncesKept.outside (List.forall_mem_nil _)
    rintro t ⟨⟩
    rfl
  | call =>
    apply AnnouncesKept.outside (List.forall_mem_nil _)
    rintro t ⟨⟩
    rfl
  | info =>
    apply AnnouncesKept.outside (List.forall_mem_nil _)
    rintro t ⟨⟩
    rfl
  | halt =>
    apply AnnouncesKept.outside (List.forall_mem_nil _)
    rintro t ⟨⟩

/-- Every turn sends Init to those who watch only. -/
lemma turns_announce (projection : cfg.callback = callback)
    (turns : Replica.Turns (deaf cfg) s es st) : AnnouncesKept s es st := by
  induction turns with
  | nil =>
    apply AnnouncesKept.outside (List.forall_mem_nil _)
    rintro t ⟨⟩
    rfl
  | one turn => exact turn_announces projection turn
  | append _ _ first rest =>
    have same := first.2 _ rfl
    obtain ⟨told, same'⟩ := rest
    rw [same] at told same'
    exact ⟨first.1.append told, same'⟩

/-- What one message says. -/
lemma handleMessage_announces (projection : cfg.callback = callback) (wired : Replica.Wired s)
    {env : Replica.Answers} {message : Replica.Message Message}
    (h : Replica.handleMessage cfg env message s = (es, st)) :
    Announces s.callbackState.watch es := by
  have deafened (h : Replica.handleMessage (deaf cfg) env message s = (es, st)) :
      Announces s.callbackState.watch es :=
    (turns_announce projection (Replica.handleMessage_turns wired h).1).1
  -- behind the module, nothing is done
  have module {function : CallbackFunction} {step : Step} {next : Except Reason State →
    Replica.Out Command State Event (Replica.Status State)}
      (plain : Plain s.callbackState step) (silent : ∀ answer, (next answer).1 = [])
      (h : (Replica.ofCallback function step).andThen next = (es, st)) :
        Announces s.callbackState.watch es := by
    obtain ⟨es₁, answer, es₂, asked, answered, rfl⟩ := Replica.andThen_eq h
    cases asked
    have nowhere := silent step.2
    rw [answered] at nowhere
    change es₂ = [] at nowhere
    rw [nowhere, List.append_nil]
    exact announces_answers (plain_announces plain _)
  have call : cfg.callback.handleCall = handleCall := projection ▸ rfl
  have info : cfg.callback.handleInfo = handleInfo := projection ▸ rfl
  cases message with
  | callbackCall message =>
    rw [Replica.handleMessage, Replica.callbackCall, call] at h
    split at h
    · refine module (handleCall_plain _ message) ?_ h
      rintro (reason | c)
      · cases reason <;> rfl
      · rfl
    · cases h
      exact announces_outside (List.forall_mem_nil _)
  | info message =>
    rw [Replica.handleMessage, Replica.callbackInfo, info] at h
    refine module (handleInfo_plain _ message) ?_ h
    rintro (reason | c)
    · cases reason <;> rfl
    · rfl
  | _ => exact deafened h

/-! ## Runs -/

/-- If a message ends in a switch, then nobody watches in front of it. -/
def Unwatched (s : Replica.State State) (es : List Effect) : Prop :=
  (∃ storage, .callback (.register storage true) ∈ es) → s.callbackState.watch.allWatchers = []

variable {trace : List Effect}

/-- If nobody watches at a switch, then no Init is sent. -/
lemma run_uninformed (projection : cfg.callback = callback)
    (run : Replica.RunWhere cfg Unwatched trace st) (pid : Pid) (ref : Ref) :
    .callback (.init pid ref) ∉ trace := by
  induction run with
  | start h =>
    intro mem
    obtain ⟨es₁, answer, es₂, asked, rest, rfl⟩ := Replica.andThen_eq h
    rw [projection] at asked
    cases asked
    rcases List.mem_append.mp mem with first | later
    · cases List.mem_singleton.mp first
    · change Replica.handleContinue (deaf cfg) _ _ = _ at rest
      have turns := (Replica.handleContinue_turns rfl rfl rest).1
      exact ((turns_announce projection turns).1 pid ref later).1 rfl
  | step before guard h ih =>
    intro mem
    rcases List.mem_append.mp mem with earlier | here
    · exact ih earlier
    · have wired := Replica.run_wired before.run _ rfl
      obtain ⟨watched, told⟩ := handleMessage_announces projection wired h pid ref here
      exact watched (guard told)

/-- In every run of the replica with the projection, in which at each switch nobody watches, the
chunk that ends a snapshot brings no more of it for the storage, and what came before leaves no
transaction open: whenever the registry exposes a storage as ready, the storage is what the whole
snapshot and a first part of the stream make of an empty one; and this is so when an Init is
sent. -/
theorem snapshotSwitch (projection : cfg.callback = callback)
    (run : Replica.RunWhere cfg Unwatched trace st)
    (settled : ∀ before chunk fed later, trace = before ++ .parserData chunk (.ok fed) :: later →
      EndsSettled cfg (Replica.logOf before).connections chunk fed) :
    (∀ before later n, trace = before ++ later → (booksOf before).view.ready = true →
      (booksOf before).view.exposed = some n → Complete cfg before n) ∧
    ∀ before pid ref later, trace = before ++ .callback (.init pid ref) :: later →
      (booksOf before).view.ready = true ∧
      (booksOf before).view.exposed = some (fullResyncs (Replica.logOf before).connections) ∧
      Complete cfg before (fullResyncs (Replica.logOf before).connections) := by
  constructor
  · rintro before later n rfl ready exposed
    obtain ⟨orderly, -⟩ := run_orderly projection run.run
    have orderly := (History.always_append.mp orderly).1
    have contract : Replica.Contract Books.next Executed Books.Stores cfg.callback
      (fun _ _ => True) .start :=
      projection ▸ stores_contract
    obtain ⟨executed, -⟩ := Replica.run_contract contract run.run fun _ _ _ => trivial
    have executed := (History.always_append.mp executed).1
    -- every effect so far keeps that what is exposed has been loaded
    have shown : Shown cfg (ledgerOf before) := by
      have laws : History.Always Ledger.next (fun l e => Orderly cfg l e ∧
        Executed l.books e ∧ ChunkSettled cfg l e)
          .start before := by
        apply History.always_iff_at.mpr
        rintro front e back rfl
        have here : Executed (booksOf front) e := executed.at
        rw [← ledgerOf_books] at here
        refine ⟨orderly.at, here, chunkSettled_of fun chunk fed eq => ?_⟩
        have ends := settled front chunk fed (back ++ later) (by rw [eq]; simp)
        rw [← ledgerOf_log] at ends
        exact ends
      exact laws.invariant (fun l e shown law => shown.next law.1 law.2.1 law.2.2) shown_start
    rw [← ledgerOf_books] at ready exposed
    have loaded := shown.loaded ready n exposed
    rw [ledgerOf_log, ledgerOf_books] at loaded
    exact loaded.complete (bounded_of_orderly orderly) (exact_of_executed executed)
  · rintro before pid ref later rfl
    exact absurd (List.mem_append_right _ List.mem_cons_self)
      (run_uninformed projection run pid ref)

end

/-! ## The last chunk of a snapshot -/

/-- A snapshot of which the last chunk brings no command. -/
def settledRun : List (Replica.Message Message) :=
  fullresync ++ [.data 0 (ReplicaParser.sampleImage.take 14),
    .data 0 (ReplicaParser.sampleImage.drop 14)]

/-- A chunk without commands, behind no open transaction, or one that does not end a payload. -/
def endsSettled (cfg : Replica.Config Command State Event Message)
    (connections : List (Connection Command)) (chunk : Bytes) (fed : ReplicaParser.Fed) : Bool :=
  match connections with
  | [] => true
  | c :: _ => (Connection.streamOf c.reply (c.received ++ chunk)).isNone ||
      fed.commands.isEmpty && (openBlock (received (commandsFor cfg c.emitted))).isEmpty

/-- The check of a chunk is sound. -/
lemma endsSettled_sound {cfg : Replica.Config Command State Event Message}
    {connections : List (Connection Command)} {chunk : Bytes} {fed : ReplicaParser.Fed}
    (h : endsSettled cfg connections chunk fed = true) : EndsSettled cfg connections chunk fed := by
  rintro c earlier bytes rfl - begun
  rw [endsSettled, begun] at h
  obtain ⟨nowhere, closed⟩ := (Bool.and_eq_true _ _).mp h
  refine ⟨List.isEmpty_iff.mp closed, ?_⟩
  intro p events tail _ split
  rw [List.isEmpty_iff.mp nowhere] at split
  rw [(List.append_eq_nil_iff.mp split.symm).1]
  rfl

/-- Whether all chunks are settled ones, for effects at hand. -/
def chunksSettled (cfg : Replica.Config Command State Event Message) (effects : List Effect) :
    Bool :=
  (List.range effects.length).all fun n => match effects[n]? with
    | some (.parserData chunk (.ok fed)) =>
      endsSettled cfg (Replica.logOf (effects.take n)).connections chunk fed
    | _ => true

/-- The check of the chunks of a trace is sound. -/
lemma settled_of_chunksSettled {cfg : Replica.Config Command State Event Message}
    {trace : List Effect} (h : chunksSettled cfg trace = true) (before : List Effect)
    (chunk : Bytes) (fed : ReplicaParser.Fed) (later : List Effect)
    (eq : trace = before ++ .parserData chunk (.ok fed) :: later) :
    EndsSettled cfg (Replica.logOf before).connections chunk fed := by
  subst eq
  have inside : before.length ∈
    List.range (before ++ .parserData chunk (.ok fed) :: later).length := by
    rw [List.mem_range, List.length_append, List.length_cons]
    omega
  have here := List.all_eq_true.mp h before.length inside
  rw [List.getElem?_append_right (le_refl _), Nat.sub_self, List.take_left] at here
  exact endsSettled_sound here

/-- Whether nobody watches in front of a switch. -/
def unwatched (s : Replica.State State) (es : List Effect) : Bool :=
  es.all fun
    | .callback (.register _ true) => s.callbackState.watch.allWatchers.isEmpty
    | _ => true

/-- The check that nobody watches is sound. -/
lemma unwatched_sound (s : Replica.State State) (es : List Effect) (h : unwatched s es = true) :
    Unwatched s es := by
  rintro ⟨storage, told⟩
  exact List.isEmpty_iff.mp (List.all_eq_true.mp h _ told)

/-- With the snapshot handed over before its end, the storage is complete when it is exposed. -/
theorem snapshotSwitch_settled :
    @Complete (.exact false) sampleConfig (Replica.execute sampleConfig .fine settledRun).1 1 := by
  have run : Replica.RunWhere sampleConfig Unwatched
    (Replica.execute sampleConfig .fine settledRun).1
      (Replica.execute sampleConfig .fine settledRun).2 := by
    apply Replica.runWhere_execute unwatched_sound
    decide +kernel
  have chunks : chunksSettled sampleConfig (Replica.execute sampleConfig .fine settledRun).1 =
    true := by
    decide +kernel
  have exposed : (booksOf (Replica.execute sampleConfig .fine settledRun).1).view.exposed =
    some 1 := by
    decide +kernel
  have ready : (booksOf (Replica.execute sampleConfig .fine settledRun).1).view.ready = true := by
    decide +kernel
  exact (@snapshotSwitch sampleConfig _ (.exact false) ⟨fun n => n, Nat.cast_injective⟩ _ rfl run
    (settled_of_chunksSettled chunks)).1 _ [] 1 (List.append_nil _).symm ready exposed

/-- When the last chunk of a snapshot brings commands, the storage is exposed before it has them. -/
theorem snapshotSwitch_lastChunk :
    ¬ ∀ (trace : List Effect) (st : Replica.Status State), Replica.Run sampleConfig trace st →
      ∀ before later n, trace = before ++ later → (booksOf before).view.ready = true →
        (booksOf before).view.exposed = some n →
        @Complete (.exact false) sampleConfig before n := by
  intro law
  have exposed : (booksOf ((Replica.execute sampleConfig .fine loadedRun).1.take 10)).view.exposed =
    some 1 := by
    decide +kernel
  have ready : (booksOf ((Replica.execute sampleConfig .fine loadedRun).1.take 10)).view.ready =
    true := by
    decide +kernel
  obtain ⟨later, c, p, rdb, events, stream, shape, -, -, follows, -, inside, content⟩ :=
    law _ _ (Replica.run_execute _ _ _) _ _ _ (List.take_append_drop 10 _).symm ready exposed
  -- there is one connection, and nothing has come on it behind the snapshot
  have alone :
      (epoch 1 (Replica.logOf
        ((Replica.execute sampleConfig .fine loadedRun).1.take 10)).connections).map (·.stream) =
        [some []] := by
    decide +kernel
  have emitted :
      (epoch 1 (Replica.logOf
        ((Replica.execute sampleConfig .fine loadedRun).1.take 10)).connections).map
        (fun c => (@tx (.exact false) (convertible (received (commandsFor sampleConfig c.emitted)))
          .new).1.map.isEmpty) = [false] := by
    decide +kernel
  have unwritten :
      ((booksOf ((Replica.execute sampleConfig .fine loadedRun).1.take 10)).content 1).map.isEmpty =
        true := by
    decide +kernel
  rw [shape, List.map_append] at alone emitted
  have isNil : later = [] := by
    have length := congrArg List.length alone
    rw [List.length_append, List.length_map] at length
    exact List.length_eq_zero_iff.mp (Nat.succ.inj length)
  subst isNil
  have silent := follows.stream (List.singleton_inj.mp alone)
  cases silent
  have whole : c.emitted = rdb := follows.2.trans (List.append_nil rdb)
  rw [List.prefix_nil.mp inside, List.append_nil, ← whole] at content
  rw [content] at unwritten
  cases (List.singleton_inj.mp emitted).symm.trans unwritten

end Veidrodelis.TSProj
