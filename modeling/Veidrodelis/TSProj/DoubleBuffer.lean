import Veidrodelis.RedisStream.Epochs
import Veidrodelis.TSProj.Visible

/-!
# The double buffer

Each full resync has a storage of its own, whose number is that of the epoch. The record of a run
(`Ledger`) has what was emitted on its connections, what the registry exposes and what every storage
was given. `Orderly` says of each effect how these go together, in every run (`run_orderly`);
whether readers see the storage that commands are written to depends on the last snapshot having
been received to its end (`doubleBuffer`).
-/

namespace Veidrodelis.TSProj
open RedisNif
open RedisStream (Callback Command Reason ReplicaCommand)
open RedisStream
open RedisStream.Replica (Connection Transferred Streams fullResyncs epoch emittedIn commandsFor)
open TsNif (Indexset StorageInner Returns executeAll)

/-! ## What a call hands over -/

/-- Batches for one storage, and Updates. -/
def WritesOnly (storage : Storage) (events : List Event) : Prop :=
  ∀ event ∈ events, (∃ batch content, event = .tx storage batch content) ∨
    ∃ pid ref command db, event = .update pid ref command db

/-- Writes to one storage, one part after the other. -/
lemma writesOnly_append {storage : Storage} {events events' : List Event}
    (h : WritesOnly storage events) (h' : WritesOnly storage events') :
    WritesOnly storage (events ++ events') :=
  fun event mem => (List.mem_append.mp mem).elim (h event) (h' event)

section
variable [Indexset] {s s' : State} {storage : Storage}

/-- A transaction writes its batch to the storage that is written to. -/
lemma runTx_writes (target : s.newTsStorage.or s.tsStorage = some storage)
    (batch : List DbCommand) :
    WritesOnly storage (runTx s batch).1 ∧ (batches (runTx s batch).1).flatten = batch := by
  by_cases isNil : batch = []
  · rw [runTx, if_pos isNil, isNil]
    exact ⟨List.forall_mem_nil _, rfl⟩
  · rw [runTx_some target isNil]
    refine ⟨fun event mem => .inl ⟨batch, _, List.mem_singleton.mp mem⟩, ?_⟩
    exact List.append_nil batch

/-- A flush writes its convertible commands to the storage that is written to. -/
lemma flush_writes (target : s.newTsStorage.or s.tsStorage = some storage)
    (commands : List DbCommand) :
    WritesOnly storage (flush s commands).1 ∧
      (batches (flush s commands).1).flatten = convertible commands := by
  obtain ⟨only, handed⟩ := runTx_writes target (convertible commands)
  rw [flush]
  cases result : (runTx s (convertible commands)).2 with
  | error reason =>
    rw [Step.andThen_of_error result]
    exact ⟨only, handed⟩
  | ok t =>
    have told := notifyAll_only (s := t) commands
    rw [Step.andThen_of_ok result, batches_append, batches_only told, List.append_nil]
    exact ⟨writesOnly_append only fun event mem => .inr (told event mem), handed⟩

/-- Of flushes, the first ones are handed over, and all if they return. -/
lemma flushEach_writes (target : s.newTsStorage.or s.tsStorage = some storage)
    (flushes : List (List DbCommand)) :
    WritesOnly storage (flushEach flushes s).1 ∧
      (batches (flushEach flushes s).1).flatten <+: convertible flushes.flatten ∧
      ∀ t, (flushEach flushes s).2 = .ok t →
        (batches (flushEach flushes s).1).flatten = convertible flushes.flatten := by
  induction flushes generalizing s with
  | nil => exact ⟨List.forall_mem_nil _, List.prefix_refl [], fun _ _ => rfl⟩
  | cons commands rest ih =>
    obtain ⟨only, handed⟩ := flush_writes target commands
    rw [flushEach, List.flatten_cons, convertible_append]
    cases result : (flush s commands).2 with
    | error reason =>
      rw [Step.andThen_of_error result, handed]
      exact ⟨only, List.prefix_append _ _, fun _ failed => by cases failed⟩
    | ok t =>
      have same := flush_same result
      have target' : t.newTsStorage.or t.tsStorage = some storage := by
        rw [same.newTsStorage, same.tsStorage, target]
      obtain ⟨only', first, whole⟩ := ih target'
      rw [Step.andThen_of_ok result, batches_append, List.flatten_append, handed]
      refine ⟨writesOnly_append only only', (List.prefix_append_right_inj _).mpr first,
        fun u ok => ?_⟩
      rw [whole u ok]

end

section
variable [Indexset] {s s' : State}

/-- A flush that returns has written in a storage, or done nothing. -/
lemma flush_returned {commands : List DbCommand} (h : (flush s commands).2 = .ok s') :
    s' = s ∨ ∃ storage content, s' = s.write storage content := by
  have ran := (flush_eq_ok.mp h).1
  by_cases isNil : convertible commands = []
  · rw [runTx, if_pos isNil] at ran
    cases ran
    exact .inl rfl
  · cases target : s.newTsStorage.or s.tsStorage with
    | none =>
      rw [runTx, if_neg isNil, target] at ran
      cases ran
    | some storage =>
      rw [runTx_some target isNil] at ran
      cases e : (TsNif.tx (convertible commands) (s.content storage)).2 with
      | error fault =>
        rw [e] at ran
        cases ran
      | ok results =>
        rw [e] at ran
        cases ran
        exact .inr ⟨storage, _, rfl⟩

/-- No storage is made. -/
lemma flushEach_created {flushes : List (List DbCommand)} (h : (flushEach flushes s).2 = .ok s') :
    s'.storages.length = s.storages.length := by
  induction flushes generalizing s with
  | nil =>
    cases h
    rfl
  | cons commands rest ih =>
    obtain ⟨t, first, later⟩ := Step.andThen_eq_ok.mp h
    refine (ih later).trans ?_
    obtain rfl | ⟨storage, content, rfl⟩ := flush_returned first
    · rfl
    · exact List.length_set

/-- Commands create no storage. -/
lemma handleCommands_created {commands : List (ReplicaCommand Command)}
    (h : (handleCommands s commands).2 = .ok s') : s'.storages.length = s.storages.length := by
  rw [handleCommands_eq, Step.map_eq_ok] at h
  obtain ⟨t, ok, rfl⟩ := h
  have made : t.storages.length = s.storages.length := flushEach_created ok
  exact made

/-- A call hands over to the storage of the latest snapshot. -/
lemma handleCommands_writes {storage : Storage}
    (target : s.newTsStorage.or s.tsStorage = some storage)
    (commands : List (ReplicaCommand Command)) :
    WritesOnly storage (handleCommands s commands).1 := by
  rw [handleCommands_eq]
  exact (flushEach_writes target _).1

end

/-! ## What is pending -/

/-- Received commands, one part after the other. -/
lemma received_append (commands commands' : List (ReplicaCommand Command)) :
    received (commands ++ commands') = received commands ++ received commands' :=
  List.map_append

/-- The pending commands of a state are those it was given. -/
lemma pending_withPending (s : State) (p : Pending) : (s.withPending p).pending = p := by
  unfold State.pending State.withPending
  simp

/-- Of these commands, for a storage that was new, some were given to it, and the rest is
pending. -/
structure Queued (commands given : List DbCommand) (s : State) : Prop where
  between : s.pending.isOpen = false → s.pending.buffered = []
  batched : ∃ flushes, Batched commands flushes s.pending ∧ given = convertible flushes.flatten

namespace Queued

variable {commands given : List DbCommand} {s s' : State}

/-- Nothing is lost. -/
lemma whole (h : Queued commands given s) :
    given ++ convertible s.pending.buffered = convertible commands := by
  obtain ⟨flushes, batched, rfl⟩ := h.batched
  rw [← convertible_append, batched.whole]

/-- Outside a transaction, everything was given. -/
lemma settled (h : Queued commands given s) (closed : openBlock commands = []) :
    given = convertible commands := by
  obtain ⟨flushes, batched, _⟩ := h.batched
  have whole := h.whole
  rw [batched.buffered_eq_openBlock h.between, closed] at whole
  rw [← whole]
  exact (List.append_nil given).symm

/-- What is queued depends on the pending commands only. -/
lemma same (h : Queued commands given s) (pending : s'.pending = s.pending) :
    Queued commands given s' :=
  ⟨pending ▸ h.between, pending ▸ h.batched⟩

variable [Indexset] {storage : Storage}

/-- A call of `handle_commands`. -/
lemma handleCommands (h : Queued commands given s)
    (target : s.newTsStorage.or s.tsStorage = some storage) (call : List (ReplicaCommand Command)) :
    WritesOnly storage (handleCommands s call).1 ∧
      given ++ (batches (TSProj.handleCommands s call).1).flatten <+:
      convertible (commands ++ received call) ∧
      ∀ t, (TSProj.handleCommands s call).2 = .ok t →
        Queued (commands ++ received call)
          (given ++ (batches (TSProj.handleCommands s call).1).flatten) t := by
  obtain ⟨flushes, batched, eq⟩ := h.batched
  obtain ⟨only, first, whole⟩ := flushEach_writes target (s.pending.calls [received call]).1
  obtain ⟨batched', between⟩ := batched.calls h.between [received call]
  rw [List.flatten_singleton] at batched'
  rw [handleCommands_eq]
  refine ⟨only, ?_, ?_⟩
  · have prior := batched'.whole
    rw [List.flatten_append] at prior
    rw [← prior, convertible_append, convertible_append, eq, List.append_assoc]
    exact (List.prefix_append_right_inj _).mpr (first.trans (List.prefix_append _ _))
  · intro t ok
    obtain ⟨u, returned, rfl⟩ := Step.map_eq_ok.mp ok
    constructor
    · rw [pending_withPending]
      exact between
    · rw [pending_withPending]
      refine ⟨_, batched', ?_⟩
      rw [List.flatten_append, convertible_append, eq]
      exact congrArg _ (whole u returned)

end Queued

/-! ## The record of a run -/

/-- What the registry exposes, and for each storage the commands that it was given and what is in
it. -/
structure Books where
  view : View
  given : Storage → List DbCommand
  content : Storage → StorageInner

namespace Books

/-- How the record changes. -/
def next (b : Books) (e : Effect) : Books :=
  match e with
  | .callback (.tx storage batch content) => {
      view := b.view.next e
      given := fun n => if n = storage then b.given n ++ batch else b.given n
      content := fun n => if n = storage then content else b.content n }
  | _ => { b with view := b.view.next e }

/-- The record in front of everything. -/
def start : Books := ⟨.start, fun _ => [], fun _ => .new⟩

end Books

/-- The record of the connections and that of the storages, with the last chunk that the parser has
taken, what it answered, and the connections in front of it. -/
structure Ledger where
  log : Replica.Log Command
  books : Books
  chunk : Option (List (Connection Command) × Bytes × ReplicaParser.Fed)

namespace Ledger

/-- How the record changes. -/
def next (l : Ledger) (e : Effect) : Ledger where
  log := l.log.next e
  books := l.books.next e
  chunk := match e with
    | .parserData chunk (.ok fed) => some (l.log.connections, chunk, fed)
    | _ => l.chunk

/-- The record in front of everything. -/
def start : Ledger := ⟨⟨0, []⟩, .start, none⟩

/-- The number of the storage that the commands belong to. -/
def storage (l : Ledger) : Storage := fullResyncs l.log.connections

/-- What the module gets in an epoch, as it is buffered. -/
def commands (cfg : Replica.Config Command State Event Message) (l : Ledger) (n : Nat) :
    List DbCommand :=
  received (commandsFor cfg (emittedIn n l.log.connections))

end Ledger

/-- The records of a trace. -/
def booksOf (trace : List Effect) : Books := History.after Books.next .start trace

def ledgerOf (trace : List Effect) : Ledger := History.after Ledger.next .start trace

/-- Log and books of a ledger go on side by side. -/
lemma ledger_after (l : Ledger) (es : List Effect) :
    (History.after Ledger.next l es).log = l.log.after es ∧
      (History.after Ledger.next l es).books = History.after Books.next l.books es := by
  induction es generalizing l with
  | nil => exact ⟨rfl, rfl⟩
  | cons e es ih => exact ih (l.next e)

/-- The log of the ledger is the log of the trace. -/
@[simp] lemma ledgerOf_log (trace : List Effect) : (ledgerOf trace).log = Replica.logOf trace :=
  (ledger_after .start trace).1

/-- The books of the ledger are the books of the trace. -/
@[simp] lemma ledgerOf_books (trace : List Effect) : (ledgerOf trace).books = booksOf trace :=
  (ledger_after .start trace).2

/-! ## The laws of the record -/

/-- The storage that this is about holds the whole snapshot of its full resync. -/
def HoldsSnapshot (cfg : Replica.Config Command State Event Message)
    (connections : List (Connection Command)) (n : Nat) (given : List DbCommand) : Prop :=
  ∃ later c p rdb events, epoch n connections = later ++ [c] ∧ c.isFull = true ∧ c.stream.isSome ∧
    c.Follows p rdb events ∧ convertible (received (commandsFor cfg rdb)) <+: given

/-- If this chunk ends the payload of a snapshot, then it brings no more commands of the snapshot
for the storage, and no transaction is left open by those before it. -/
def EndsSettled (cfg : Replica.Config Command State Event Message)
    (connections : List (Connection Command)) (chunk : Bytes) (fed : ReplicaParser.Fed) : Prop :=
  ∀ c earlier bytes, connections = c :: earlier → c.stream = none →
    Connection.streamOf c.reply (c.received ++ chunk) = some bytes →
    openBlock (received (commandsFor cfg c.emitted)) = [] ∧
    ∀ p events tail, ReplicaParser.machine.absorb (.new true) bytes = .ok (p, events) →
      fed.commands = tail ++ ReplicaParser.commandsOf events →
      convertible (received (commandsFor cfg tail)) = []

/-- The storages of a call of `handle_commands`: with the last snapshot transferred there is only
one, which readers see; and what it was given, what is buffered and what comes now are all the
commands of the epoch. -/
structure Called (cfg : Replica.Config Command State Event Message) (l : Ledger) (s : State)
    (commands : List (ReplicaCommand Command)) : Prop where
  single : Transferred l.log.connections →
    s.newTsStorage = none ∧ s.tsStorage = some l.storage ∧ s.ready = true
  target : s.newTsStorage.or s.tsStorage = some l.storage
  shows : l.books.view.Shows s
  whole : l.books.given l.storage ++ convertible (s.pending.buffered ++ received commands) =
    convertible (l.commands cfg l.storage)

/-- What goes together at an effect. -/
def Orderly (cfg : Replica.Config Command State Event Message) (l : Ledger) : Effect → Prop
  | .parserData chunk (.ok fed) => ∃ c earlier p p' rdb events, l.log.connections = c :: earlier ∧
      c.Follows p rdb events ∧ ReplicaParser.feedData p chunk = .ok (p', fed)
  | .handleCommands s commands => Called cfg l s commands
  | .callback (.tx storage batch _) => storage = l.storage ∧
      l.books.given storage ++ batch <+: convertible (l.commands cfg storage)
  | .callback (.register storage ready) => ready = true → storage = some l.storage ∧
      ∃ connections chunk fed, l.chunk = some (connections, chunk, fed) ∧
        (EndsSettled cfg connections chunk fed →
          HoldsSnapshot cfg l.log.connections l.storage (l.books.given l.storage))
  | _ => True

section
variable {cfg : Replica.Config Command State Event Message} {l : Ledger} {es : List Effect}

/-- Effects that are neither recorded nor bound by a law. -/
def Unseen : Effect → Prop
  | .close => True
  | .startTimer _ _ => True
  | .cancelTimer _ => True
  | .send (.psync _ _) => False
  | .send _ => True
  | .callback (.init _ _) => True
  | .callback (.update _ _ _ _) => True
  | .callback (.monitor _ _) => True
  | .callback (.demonitor _) => True
  | .callbackFailed _ _ => True
  | _ => False

/-- Unseen effects are not entered. -/
lemma next_of_unseen {e : Effect} (unseen : Unseen e) : l.next e = l := by
  cases e with
  | send request =>
    cases request with
    | psync => exact unseen.elim
    | _ => rfl
  | callback event =>
    cases event with
    | tx => exact unseen.elim
    | register => exact unseen.elim
    | _ => rfl
  | psyncCompleted => exact unseen.elim
  | parserData => exact unseen.elim
  | handleCommands => exact unseen.elim
  | _ => rfl

/-- Unseen effects are orderly. -/
lemma orderly_of_unseen {e : Effect} (unseen : Unseen e) : Orderly cfg l e := by
  cases e with
  | callback event =>
    cases event with
    | tx => exact unseen.elim
    | register => exact unseen.elim
    | _ => trivial
  | parserData => exact unseen.elim
  | handleCommands => exact unseen.elim
  | _ => trivial

/-- Nothing is seen. -/
lemma always_unseen (cfg : Replica.Config Command State Event Message) (l : Ledger)
    (unseen : ∀ e ∈ es, Unseen e) :
    History.Always Ledger.next (Orderly cfg) l es ∧ History.after Ledger.next l es = l :=
  have same : ∀ e ∈ es, l.next e = l := fun e mem => next_of_unseen (unseen e mem)
  ⟨.of_unrecorded same fun e mem => orderly_of_unseen (unseen e mem), History.after_unrecorded same⟩

/-- Quiet effects are unseen. -/
lemma unseen_of_quiet {e : Effect} (quiet : e.Quiet) : Unseen e := by
  cases e with
  | send request =>
    cases request with
    | psync => exact quiet
    | _ => trivial
  | close => trivial
  | startTimer => trivial
  | cancelTimer => trivial
  | psyncCompleted => exact quiet
  | parserData => exact quiet
  | handleCommands => exact quiet
  | callback => exact quiet.elim
  | callbackFailed => trivial

/-- That a call of the module fails is not seen. -/
lemma unseen_failure (function : CallbackFunction) (answer : Except Reason State) :
    ∀ e ∈ (Replica.failureOf function answer : List Effect), Unseen e := by
  cases answer with
  | ok s => exact List.forall_mem_nil _
  | error reason =>
    intro e mem
    rw [List.mem_singleton.mp mem]
    trivial

/-- Acknowledgements are unseen. -/
lemma unseen_acks {s : Replica.State State} {env : Replica.Answers} {p : Prop} [Decidable p] :
    ∀ e ∈ (if p then Replica.sendReplconfAck env s else [] : List Effect), Unseen e := by
  intro e mem
  unfold Replica.sendReplconfAck Replica.transportSend at mem
  repeat' split at mem
  all_goals simp at mem
  subst mem
  trivial

end

/-! ## The storages -/

/-- Which storages there are: one for each full resync, and the new one becomes the exposed one when
its snapshot has been received to its end. -/
structure Switches (connections : List (Connection Command)) (s : State) : Prop where
  created : s.storages.length = fullResyncs connections + 1
  fresh : fullResyncs connections = 0 → s.newTsStorage = none ∧ s.tsStorage = some 0
  loading : 0 < fullResyncs connections → ¬ Transferred connections →
    s.newTsStorage = some (fullResyncs connections)
  switched : Transferred connections →
    s.newTsStorage = none ∧ s.tsStorage = some (fullResyncs connections) ∧ s.ready = true

namespace Switches

variable {c c' : Connection Command} {connections : List (Connection Command)} {s s' : State}

/-- Commands go to the storage of the last full resync. -/
lemma target (h : Switches connections s) :
    s.newTsStorage.or s.tsStorage = some (fullResyncs connections) := by
  by_cases transferred : Transferred connections
  · obtain ⟨nowhere, exposed, -⟩ := h.switched transferred
    rw [nowhere, exposed]
    rfl
  · rcases Nat.eq_zero_or_pos (fullResyncs connections) with zero | begun
    · obtain ⟨nowhere', exposed⟩ := h.fresh zero
      rw [nowhere', exposed, zero]
      rfl
    · rw [h.loading begun transferred]
      rfl

/-- A state with the same storages. -/
lemma same (h : Switches connections s) (storages : s'.storages.length = s.storages.length)
    (tsStorage : s'.tsStorage = s.tsStorage) (newTsStorage : s'.newTsStorage = s.newTsStorage)
    (ready : s'.ready = s.ready) : Switches connections s' where
  created := storages.trans h.created
  fresh := by rw [tsStorage, newTsStorage]; exact h.fresh
  loading := by rw [newTsStorage]; exact h.loading
  switched := by rw [tsStorage, newTsStorage, ready]; exact h.switched

/-- More has been recorded, but no other snapshot, and not the end of one. -/
lemma congr {connections' : List (Connection Command)} (h : Switches connections s)
    (number : fullResyncs connections' = fullResyncs connections)
    (transferred : Transferred connections' ↔ Transferred connections) :
    Switches connections' s := by
  obtain ⟨created, fresh, loading, switched⟩ := h
  rw [← number] at created fresh loading switched
  rw [← transferred] at loading switched
  exact ⟨created, fresh, loading, switched⟩

/-- A full resync makes a storage. -/
lemma full (h : Switches connections s) (full : c.isFull = true) (waits : c.stream = none)
    (ok : (handleReplicationStart s).2 = .ok s') : Switches (c :: connections) s' := by
  cases ok
  constructor
  · show (s.storages ++ [StorageInner.new]).length = _
    rw [List.length_append, h.created, Replica.fullResyncs_full full]
    rfl
  · rw [Replica.fullResyncs_full full]
    nofun
  · intro _ _
    rw [Replica.fullResyncs_full full, ← h.created]
  · intro transferred
    rw [Replica.transferred_full full, waits] at transferred
    cases transferred

/-- The end of the payload makes the new storage the exposed one. -/
lemma start (h : Switches (c :: connections) s) (waits : c.stream = none)
    (reply : c'.reply = c.reply) (begun : c'.stream.isSome)
    (ok : (handleStreamingStart s).2 = .ok s') :
    s.newTsStorage = some (fullResyncs (c :: connections)) ∧ Switches (c' :: connections) s' := by
  have full := Replica.isFull_of_stream waits
  have filled : 0 < fullResyncs (c :: connections) := by
    rw [Replica.fullResyncs_full full]
    exact Nat.succ_pos _
  have loading : ¬ Transferred (c :: connections) := by
    rw [Replica.transferred_full full, waits]
    nofun
  have new := h.loading filled loading
  refine ⟨new, ?_⟩
  cases ok
  constructor
  · rw [Replica.fullResyncs_congr reply]
    exact h.created
  · rw [Replica.fullResyncs_congr reply]
    intro zero
    rw [zero] at filled
    cases filled
  · intro _ missing
    have full' : c'.isFull = true := (Replica.isFull_congr reply).trans full
    exact absurd ((Replica.transferred_full full').mpr begun) missing
  · intro _
    rw [Replica.fullResyncs_congr reply]
    exact ⟨rfl, new, rfl⟩

end Switches

/-- What is between two messages. -/
structure Serves (cfg : Replica.Config Command State Event Message) (l : Ledger) (s : State) :
    Prop where
  switches : Switches l.log.connections s
  shows : l.books.view.Shows s
  queued : Queued (l.commands cfg l.storage) (l.books.given l.storage) s

/-! ## Effects one by one -/

section
variable {cfg : Replica.Config Command State Event Message} {l : Ledger}

/-- No storage was given more than what came out in its epoch. -/
def Bounded (cfg : Replica.Config Command State Event Message) (l : Ledger) : Prop :=
  ∀ n, l.books.given n <+: convertible (l.commands cfg n)

/-- An empty ledger is bounded. -/
lemma bounded_start : Bounded cfg .start := fun _ => List.nil_prefix

/-- A record with the same batches. -/
lemma Bounded.same {l' : Ledger} (h : Bounded cfg l) (given : l'.books.given = l.books.given)
    (emitted : ∀ n, emittedIn n l'.log.connections = emittedIn n l.log.connections) :
    Bounded cfg l' := by
  intro n
  rw [given, Ledger.commands, emitted]
  exact h n

/-- An orderly effect keeps the ledger bounded. -/
lemma Bounded.next (h : Bounded cfg l) {e : Effect} (orderly : Orderly cfg l e) :
    Bounded cfg (l.next e) := by
  cases e with
  | send request =>
    cases request with
    | psync => exact h.same rfl fun _ => rfl
    | _ => exact h
  | close => exact h
  | startTimer => exact h
  | cancelTimer => exact h
  | callbackFailed => exact h
  | psyncCompleted reply => exact h.same rfl fun _ => Replica.emittedIn_new rfl
  | handleCommands s commands =>
    exact h.same rfl fun _ => Replica.emittedIn_modify fun _ => ⟨rfl, rfl⟩
  | parserData chunk result =>
    match result with
    | .error fault => exact h.same rfl fun _ => Replica.emittedIn_modify fun _ => ⟨rfl, rfl⟩
    | .ok fed =>
      obtain ⟨c, earlier, p, p', rdb, events, here, -, -⟩ := orderly
      intro n
      have connections : (l.next (.parserData chunk (.ok fed))).log.connections =
          c.accept chunk fed.commands :: earlier := by
        simp only [Ledger.next, Replica.Log.next, Replica.Log.modify, here]
        rfl
      have prior := h n
      rw [Ledger.commands, here] at prior
      rw [Ledger.commands, connections]
      show l.books.given n <+: _
      -- only for the latest storage have commands been added
      by_cases latest : fullResyncs (c :: earlier) = n
      · rw [Replica.emittedIn_latest (by rfl) (by rfl) latest, Replica.commandsFor_append,
          received_append, convertible_append]
        exact prior.trans (List.prefix_append _ _)
      · rwa [Replica.emittedIn_other (by rfl) latest]
  | callback event =>
    cases event with
    | tx storage batch content =>
      obtain ⟨rfl, bound⟩ := orderly
      intro n
      show (if n = l.storage then l.books.given n ++ batch else l.books.given n) <+:
        convertible (l.commands cfg n)
      split
      · rename_i here
        subst here
        exact bound
      · exact h n
    | _ => exact h.same rfl fun _ => rfl

/-- The effects of a call, with what they hand over. -/
lemma orderly_writes {events : List Event} (only : WritesOnly l.storage events)
    (bound : l.books.given l.storage ++ (batches events).flatten <+:
      convertible (l.commands cfg l.storage)) :
    History.Always Ledger.next (Orderly cfg) l (events.map .callback) ∧
      (History.after Ledger.next l (events.map .callback)).log = l.log ∧
      (History.after Ledger.next l (events.map .callback)).books.given l.storage =
        l.books.given l.storage ++ (batches events).flatten ∧
      ∀ s, l.books.view.Shows s →
        (History.after Ledger.next l (events.map .callback)).books.view.Shows s := by
  induction events generalizing l with
  | nil => exact ⟨trivial, rfl, (List.append_nil _).symm, fun _ shows => shows⟩
  | cons event rest ih =>
    obtain ⟨batch, content, rfl⟩ | ⟨pid, ref, command, db, rfl⟩ := only event List.mem_cons_self
    · have shape : (batches (.tx l.storage batch content :: rest)).flatten =
        batch ++ (batches rest).flatten := rfl
      have given : (l.next (.callback (.tx l.storage batch content))).books.given l.storage =
          l.books.given l.storage ++ batch := if_pos rfl
      have same : (l.next (.callback (.tx l.storage batch content))).storage = l.storage := rfl
      rw [shape, ← List.append_assoc] at bound ⊢
      have later := ih (l := l.next (.callback (.tx l.storage batch content)))
        (fun event mem => only event (List.mem_cons_of_mem _ mem))
          (by rw [same, given]; exact bound)
      rw [same, given] at later
      exact ⟨⟨⟨rfl, (List.prefix_append _ _).trans bound⟩, later.1⟩, later.2.1, later.2.2.1,
        fun s shows => later.2.2.2 s ⟨shows.exposed, shows.ready⟩⟩
    · have later := ih (l := l) (fun event mem => only event (List.mem_cons_of_mem _ mem)) bound
      exact ⟨⟨trivial, later.1⟩, later.2⟩

end

/-! ## Watches leave the storages as they are -/

/-- The storages and what is pending are the same, as far as the state that is returned. -/
def SameStores (s : State) (step : Step) : Prop :=
  ∀ s', step.2 = .ok s' → s'.storages = s.storages ∧ s'.tsStorage = s.tsStorage ∧
    s'.newTsStorage = s.newTsStorage ∧ s'.ready = s.ready ∧ s'.pending = s.pending

/-- A step that does nothing keeps the storages. -/
lemma sameStores_idle (s : State) : SameStores s ([], .ok s) := by
  rintro s' ⟨⟩
  exact ⟨rfl, rfl, rfl, rfl, rfl⟩

/-- To add a watch keeps the storages. -/
lemma addWatch_stores (s : State) (pid : Pid) (added : Except Reason Watch) :
    SameStores s (addWatch s pid added) := by
  match added with
  | .ok watch =>
    show SameStores s (putWatchAndMonitor s watch pid)
    unfold putWatchAndMonitor
    split
    · rintro s' ⟨⟩
      exact ⟨rfl, rfl, rfl, rfl, rfl⟩
    · rintro s' ⟨⟩
      exact ⟨rfl, rfl, rfl, rfl, rfl⟩
  | .error .raised => exact nofun
  | .error (.redisError _) => exact sameStores_idle s
  | .error (.parserError _) => exact sameStores_idle s
  | .error (.text _) => exact sameStores_idle s
  | .error (.failed _ _) => exact sameStores_idle s

/-- To drop a watch keeps the storages. -/
lemma dropWatch_stores (s : State) (pid : Pid) (deleted : Except Reason (Watch × Nat)) :
    SameStores s (dropWatch s pid deleted) := by
  match deleted with
  | .ok (watch, 0) =>
    rintro s' ⟨⟩
    exact ⟨rfl, rfl, rfl, rfl, rfl⟩
  | .ok (watch, count + 1) =>
    rintro s' ⟨⟩
    exact ⟨rfl, rfl, rfl, rfl, rfl⟩
  | .error .raised => exact nofun
  | .error (.redisError _) => exact sameStores_idle s
  | .error (.parserError _) => exact sameStores_idle s
  | .error (.text _) => exact sameStores_idle s
  | .error (.failed _ _) => exact sameStores_idle s

/-- Calls keep the storages. -/
lemma handleCall_stores [Runtime] (s : State) (message : Message) :
    SameStores s (handleCall s message) := by
  cases message with
  | watch => exact addWatch_stores s _ _
  | watchPrefix => exact addWatch_stores s _ _
  | unwatch => exact dropWatch_stores s _ _
  | unwatchPrefix => exact dropWatch_stores s _ _
  | down => exact sameStores_idle s
  | other => exact sameStores_idle s

/-- Messages keep the storages. -/
lemma handleInfo_stores (s : State) (message : Message) : SameStores s (handleInfo s message) := by
  cases message with
  | down =>
    rintro s' ⟨⟩
    exact ⟨rfl, rfl, rfl, rfl, rfl⟩
  | watch => exact sameStores_idle s
  | watchPrefix => exact sameStores_idle s
  | unwatch => exact sameStores_idle s
  | unwatchPrefix => exact sameStores_idle s
  | other => exact sameStores_idle s

/-! ## One turn -/

section
variable {cfg : Replica.Config Command State Event Message} {l : Ledger}
  {s s' : Replica.State State} {es : List Effect} {st : Replica.Status State}

/-- The effects of a turn, and what is between it and the next one. -/
def Served (cfg : Replica.Config Command State Event Message) (l : Ledger) (es : List Effect)
    (st : Replica.Status State) : Prop :=
  History.Always Ledger.next (Orderly cfg) l es ∧
    ∀ s, st = .running s → Serves cfg (History.after Ledger.next l es) s.callbackState

/-- Orderly effects in front of what is served. -/
lemma Served.append {es' : List Effect} (first : History.Always Ledger.next (Orderly cfg) l es)
    (rest : Served cfg (History.after Ledger.next l es) es' st) : Served cfg l (es ++ es') st := by
  refine ⟨first.append rest.1, ?_⟩
  rintro s rfl
  rw [History.after_append]
  exact rest.2 s rfl

/-- Unseen effects may stand in front. -/
lemma Served.unseen_append {es' : List Effect} (unseen : ∀ e ∈ es, Unseen e)
    (rest : Served cfg l es' st) : Served cfg l (es ++ es') st := by
  obtain ⟨always, same⟩ := always_unseen cfg l unseen
  apply Served.append always
  rwa [same]

/-- Nothing that is seen happens, and the storages stay as they are. -/
lemma Serves.unseen (h : Serves cfg l s.callbackState) (unseen : ∀ e ∈ es, Unseen e)
    (same : ∀ t, st = .running t → t.callbackState = s.callbackState) : Served cfg l es st := by
  obtain ⟨always, eq⟩ := always_unseen cfg l unseen
  refine ⟨always, ?_⟩
  rintro t rfl
  rw [eq, same t rfl]
  exact h

/-- A call or a message of the module about watches. -/
lemma Serves.consulted (h : Serves cfg l s.callbackState) {function : CallbackFunction}
    {step : Step} (plain : Plain s.callbackState step) (stores : SameStores s.callbackState step) :
    Served cfg l (Replica.answers function step) (.running (Replica.consulted s step.2)) := by
  have unseen : ∀ e ∈ (Replica.answers function step : List Effect), Unseen e := by
    apply Replica.forall_answers
    · intro event here
      obtain ⟨pid, monitor, rfl⟩ | ⟨monitor, rfl⟩ := plain.monitors event here
      · trivial
      · trivial
    · intro reason
      trivial
  obtain ⟨always, eq⟩ := always_unseen cfg l unseen
  refine ⟨always, ?_⟩
  rintro t ⟨⟩
  rw [eq]
  match e : step.2 with
  | .error reason => exact h
  | .ok u =>
    obtain ⟨storages, tsStorage, newTsStorage, ready, pending⟩ := stores u e
    exact ⟨h.switches.same (congrArg List.length storages) tsStorage newTsStorage ready,
      ⟨h.shows.exposed.trans tsStorage.symm, h.shows.ready.trans ready.symm⟩, h.queued.same pending⟩

/-- The reply to `PSYNC`. -/
lemma Serves.completed (h : Serves cfg l s.callbackState) (bounded : Bounded cfg l)
    {reply : Replica.PsyncReply} {result : Except Reason (Replica.State State)} [Indexset] [Runtime]
    (projection : cfg.callback = callback)
    (e : Replica.handlePsyncCompleted cfg reply s = (es, result))
    (returned : ∀ t, st = .running t → result = .ok t) : Served cfg l es st := by
  obtain ⟨replicationId, offset, rfl, rfl, ok⟩ | ⟨rfl, rfl, ok⟩ := Replica.handlePsyncCompleted_eq e
  · rw [projection] at ok ⊢
    refine ⟨⟨trivial, trivial⟩, ?_⟩
    intro t eq
    obtain ⟨u, here, rfl⟩ := ok t (returned t eq)
    show Serves cfg (l.next (.psyncCompleted _)) u
    constructor
    · exact h.switches.full rfl rfl here
    · cases here
      exact ⟨h.shows.exposed, h.shows.ready⟩
    · -- nothing has come out in the new epoch, and its storage was given nothing
      have nothing : (l.next (.psyncCompleted (.fullresync replicationId offset))).commands cfg
          (l.next (.psyncCompleted (.fullresync replicationId offset))).storage = [] := by
        show received (commandsFor cfg
          (emittedIn (fullResyncs (_ :: l.log.connections)) (_ :: l.log.connections))) = []
        rw [emittedIn, Replica.epoch_full rfl]
        rfl
      have unused : l.books.given
        (l.next (.psyncCompleted (.fullresync replicationId offset))).storage = [] := by
        have bound := bounded (l.next (.psyncCompleted (.fullresync replicationId offset))).storage
        have later : fullResyncs l.log.connections <
            (l.next (.psyncCompleted (.fullresync replicationId offset))).storage := by
          show _ < fullResyncs (_ :: l.log.connections)
          rw [Replica.fullResyncs_full rfl]
          exact Nat.lt_succ_self _
        rw [Ledger.commands, Replica.emittedIn_eq_nil later] at bound
        exact List.prefix_nil.mp bound
      rw [nothing]
      show Queued [] (l.books.given _) u
      rw [unused]
      cases here
      exact ⟨fun _ => rfl, [], Batched.nil, rfl⟩
  · refine ⟨⟨trivial, trivial⟩, ?_⟩
    intro t eq
    cases (ok.symm.trans (returned t eq))
    show Serves cfg (l.next (.psyncCompleted .continued)) s.callbackState
    refine ⟨h.switches.congr (Replica.fullResyncs_continued rfl)
      (Replica.transferred_continued rfl), h.shows, ?_⟩
    have same : (l.next (.psyncCompleted .continued)).storage = l.storage :=
      Replica.fullResyncs_continued rfl
    rw [same, Ledger.commands]
    show Queued (received (commandsFor cfg (emittedIn l.storage (_ :: l.log.connections)))) _ _
    rw [Replica.emittedIn_new rfl]
    exact h.queued

/-! ### A chunk -/

/-- The record behind an accepted chunk. -/
lemma next_accepted {c : Connection Command} {earlier : List (Connection Command)} (data : Bytes)
    (fed : ReplicaParser.Fed) (here : l.log.connections = c :: earlier) :
    (l.next (.parserData data (.ok fed))).log.connections =
      c.accept data fed.commands :: earlier := by
  simp only [Ledger.next, Replica.Log.next, Replica.Log.modify, here]
  rfl

/-- What comes out with a chunk belongs to the last epoch. -/
lemma storage_accepted {c : Connection Command} {earlier : List (Connection Command)} (data : Bytes)
    (fed : ReplicaParser.Fed) (here : l.log.connections = c :: earlier) :
    (l.next (.parserData data (.ok fed))).storage = l.storage := by
  rw [Ledger.storage, next_accepted data fed here, Ledger.storage, here]
  exact Replica.fullResyncs_congr rfl

/-- Data for the parser add their commands to the newest snapshot. -/
lemma commands_accepted (cfg : Replica.Config Command State Event Message) {c : Connection Command}
    {earlier : List (Connection Command)} (data : Bytes) (fed : ReplicaParser.Fed)
    (here : l.log.connections = c :: earlier) :
    (l.next (.parserData data (.ok fed))).commands cfg l.storage =
      l.commands cfg l.storage ++ received (commandsFor cfg fed.commands) := by
  have storage : l.storage = fullResyncs (c :: earlier) := by rw [Ledger.storage, here]
  rw [Ledger.commands, Ledger.commands, next_accepted data fed here, here, storage,
    Replica.emittedIn_latest (by rfl) (by rfl) rfl, Replica.commandsFor_append, received_append]

/-- The payload ends with what is settled: the storage holds the snapshot. -/
lemma holdsSnapshot_of_settled {c : Connection Command} {earlier : List (Connection Command)}
    {data : Bytes} {fed : ReplicaParser.Fed} {p p' : ReplicaParser.ParserState}
    {rdb : List RawCommand} {events : List ReplicaParser.Event} {given : List DbCommand} {σ : State}
    (follows : c.Follows p rdb events) (fedData : ReplicaParser.feedData p data = .ok (p', fed))
    (waits : c.stream = none) (begun : (c.accept data fed.commands).stream.isSome)
    (queued : Queued (received
      (commandsFor cfg (emittedIn (fullResyncs (c :: earlier)) (c :: earlier)))) given σ)
    (settled : EndsSettled cfg (c :: earlier) data fed) :
    HoldsSnapshot cfg (c.accept data fed.commands :: earlier)
      (fullResyncs (c :: earlier)) given := by
  obtain ⟨bytes, stream⟩ := Option.isSome_iff_exists.mp begun
  have full := Replica.isFull_of_stream waits
  have full' : (c.accept data fed.commands).isFull = true := (Replica.isFull_congr rfl).trans full
  have whole := stream
  rw [Connection.stream, Connection.accept_received] at whole
  obtain ⟨closed, late⟩ := settled c earlier bytes rfl waits whole
  obtain ⟨r, more, follows', rfl, -⟩ := follows.accept fedData
  obtain rfl := follows.silent waits
  -- in front of the stream, what has come out is the snapshot
  have emitted : c.emitted = rdb := follows.2.trans (List.append_nil rdb)
  have out : (ReplicaParser.Fed.ofEvents (r.map .command ++ more)).commands =
      r ++ ReplicaParser.commandsOf more := by
    rw [ReplicaParser.Fed.ofEvents, ReplicaParser.commandsOf_append, Connection.commandsOf_command]
  have nothing := late _ _ r (follows'.stream stream) out
  refine ⟨[], _, _, _, _, Replica.epoch_full_congr full rfl, full', begun, follows', ?_⟩
  have only : emittedIn (fullResyncs (c :: earlier)) (c :: earlier) = c.emitted := by
    rw [emittedIn, Replica.epoch_full full]
    exact List.append_nil _
  rw [only] at queued
  rw [queued.settled closed, emitted, Replica.commandsFor_append, received_append,
    convertible_append, nothing, List.append_nil]

/-- `handle_streaming_start`, if the payload ends in this chunk. -/
lemma Serves.started [Indexset] [Runtime] (h : Serves cfg l s.callbackState)
    (projection : cfg.callback = callback) {c : Connection Command}
    {earlier : List (Connection Command)} {data : Bytes} {fed : ReplicaParser.Fed}
    {p p' : ReplicaParser.ParserState} {rdb : List RawCommand} {events : List ReplicaParser.Event}
    (here : l.log.connections = c :: earlier) (follows : c.Follows p rdb events)
    (fedData : ReplicaParser.feedData p data = .ok (p', fed)) {t : Replica.State State}
    (same : t.callbackState = s.callbackState) {started : List Effect}
    {start : Except Reason (Replica.State State)}
    (hs : Replica.startStreaming cfg p.state p'.state t = (started, start)) :
    History.Always Ledger.next (Orderly cfg) (l.next (.parserData data (.ok fed))) started ∧
      (History.after Ledger.next (l.next (.parserData data (.ok fed))) started).log =
        (l.next (.parserData data (.ok fed))).log ∧
      (History.after Ledger.next (l.next (.parserData data (.ok fed))) started).books.given =
        l.books.given ∧
      ∀ u, start = .ok u → Switches (c.accept data fed.commands :: earlier) u.callbackState ∧
        (History.after Ledger.next (l.next (.parserData data (.ok fed))) started).books.view.Shows
          u.callbackState ∧ u.callbackState.pending = s.callbackState.pending := by
  obtain ⟨r, more, follows', -, -⟩ := follows.accept fedData
  have before := follows.streaming_iff
  have after := follows'.streaming_iff
  have switches := h.switches
  rw [here] at switches
  -- the payload ends in this chunk, or the storages stay as they are
  obtain ⟨starts, ends, rfl, ok⟩ | ⟨goes, rfl, rfl⟩ := Replica.startStreaming_eq hs
  · rw [projection, same] at ok ⊢
    have waits : c.stream = none := by
      rw [← Option.not_isSome_iff_eq_none, ← before]
      exact starts
    have begun := after.mp ends
    have reply : (c.accept data fed.commands).reply = c.reply := rfl
    obtain ⟨new, -⟩ := switches.start waits reply begun rfl
    have storage := storage_accepted data fed here
    have inits : ∀ e ∈ s.callbackState.inits.map Replica.Effect.callback, Unseen e := by
      intro e mem
      obtain ⟨event, told, rfl⟩ := List.mem_map.mp mem
      obtain ⟨_, _, rfl⟩ := mem_inits told
      trivial
    obtain ⟨always, unseen⟩ := always_unseen cfg (l.next (.parserData data (.ok fed))) inits
    have succeeds : (Replica.answers .handleStreamingStart
      (callback.handleStreamingStart s.callbackState) : List Effect) =
        (callback.handleStreamingStart s.callbackState).1.map .callback := Replica.answers_of_ok rfl
    rw [succeeds, streamingStart_effects, History.after_append, unseen]
    refine ⟨always.append ?_, rfl, rfl, ?_⟩
    · rw [unseen]
      refine ⟨fun _ => ⟨?_, l.log.connections, data, fed, rfl, ?_⟩, trivial⟩
      · rw [new, storage, Ledger.storage, here]
      · rw [storage, next_accepted data fed here, here]
        have queued := h.queued
        rw [Ledger.commands, Ledger.storage, here] at queued
        intro settled
        show HoldsSnapshot cfg _ (fullResyncs l.log.connections)
          (l.books.given (fullResyncs l.log.connections))
        rw [here]
        exact holdsSnapshot_of_settled follows fedData waits begun queued settled
    · intro u eq
      obtain ⟨σ, returned, rfl⟩ := ok u eq
      refine ⟨(switches.start waits reply begun returned).2, ?_⟩
      cases returned
      exact ⟨⟨rfl, rfl⟩, rfl⟩
  · refine ⟨trivial, rfl, rfl, ?_⟩
    rintro u ⟨⟩
    rw [same]
    refine ⟨switches.congr (Replica.fullResyncs_congr rfl) ?_, h.shows, rfl⟩
    -- a connection that was continued has no payload
    cases full : c.isFull with
    | true =>
      have full' : (c.accept data fed.commands).isFull = true :=
        (Replica.isFull_congr rfl).trans full
      rw [Replica.transferred_full full, Replica.transferred_full full', ← before, ← after]
      refine ⟨fun ends => by_contra fun starts => goes ⟨starts, ends⟩, fun streaming => ?_⟩
      exact after.mpr (Connection.stream_accept (before.mp streaming))
    | false =>
      have other : (c.accept data fed.commands).isFull = false :=
        (Replica.isFull_congr rfl).trans full
      rw [Replica.transferred_continued full, Replica.transferred_continued other]

/-- The call of `handle_commands` for what came out, if that is anything. -/
lemma served_calls [Indexset] [Runtime] (projection : cfg.callback = callback)
    {commands : List (ReplicaCommand Command)} {before : List DbCommand} {t : Replica.State State}
    {calls : List Effect} {result : Except Reason (Replica.State State)}
    (switches : Switches l.log.connections t.callbackState)
    (shows : l.books.view.Shows t.callbackState)
    (queued : Queued before (l.books.given l.storage) t.callbackState)
    (all : l.commands cfg l.storage = before ++ received (cfg.commandFilter.applyPre commands))
    (hk : Replica.processCommands cfg commands t = (calls, result))
    (ends : ∀ u, st = .running u → ∃ s', result = .ok s' ∧ u.callbackState = s'.callbackState) :
    Served cfg l calls st := by
  obtain ⟨nowhere, rfl, rfl⟩ | ⟨filled, rfl, ok⟩ := Replica.processCommands_eq hk
  · refine ⟨trivial, ?_⟩
    intro u eq
    obtain ⟨s', same, eq⟩ := ends u eq
    cases same
    rw [nowhere] at all
    have all : l.commands cfg l.storage = before := all.trans (List.append_nil before)
    rw [eq]
    exact ⟨switches, shows, all ▸ queued⟩
  · rw [projection] at ok ⊢
    have target : t.callbackState.newTsStorage.or t.callbackState.tsStorage = .some l.storage :=
      switches.target
    obtain ⟨only, bound, returned⟩ :=
      queued.handleCommands target (cfg.commandFilter.applyPre commands)
    have called : Called cfg l t.callbackState (cfg.commandFilter.applyPre commands) := by
      refine ⟨switches.switched, switches.target, shows, ?_⟩
      rw [convertible_append, ← List.append_assoc, queued.whole, ← convertible_append, ← all]
    -- recording the call changes neither the storages nor what came out
    let l' := l.next (.handleCommands t.callbackState (cfg.commandFilter.applyPre commands))
    have emitted (n : Nat) : emittedIn n l'.log.connections = emittedIn n l.log.connections :=
      Replica.emittedIn_modify fun _ => ⟨rfl, rfl⟩
    have storage : l'.storage = l.storage := Replica.fullResyncs_modify fun _ => rfl
    have commands' : l'.commands cfg l'.storage =
      before ++ received (cfg.commandFilter.applyPre commands) := by
      rw [storage, ← all, Ledger.commands, emitted, Ledger.commands]
    rw [← storage] at only
    have bound' : l'.books.given l'.storage ++
        (batches (handleCommands t.callbackState
          (cfg.commandFilter.applyPre commands)).1).flatten <+:
          convertible (l'.commands cfg l'.storage) := by
      rw [commands', storage]
      exact bound
    obtain ⟨always, log, given, shown⟩ := orderly_writes only bound'
    obtain ⟨silent, -⟩ :=
      always_unseen cfg (History.after Ledger.next l' ((handleCommands t.callbackState
      (cfg.commandFilter.applyPre commands)).1.map .callback)) (unseen_failure .handleCommands
        (handleCommands t.callbackState (cfg.commandFilter.applyPre commands)).2)
    refine ⟨⟨called, always.append silent⟩, ?_⟩
    intro u eq
    obtain ⟨s', same, eq⟩ := ends u eq
    obtain ⟨σ, fine, rfl⟩ := ok s' same
    rw [eq, Replica.answers_of_ok fine]
    show Serves cfg (History.after Ledger.next l' ((handleCommands t.callbackState
      (cfg.commandFilter.applyPre commands)).1.map .callback)) σ
    generalize History.after Ledger.next l' ((handleCommands t.callbackState
      (cfg.commandFilter.applyPre commands)).1.map .callback) = l'' at log given shown
    have same := handleCommands_same fine
    have modified : Switches l'.log.connections t.callbackState :=
      switches.congr storage (Replica.transferred_modify fun _ => ⟨rfl, rfl⟩)
    constructor
    · rw [log]
      exact modified.same (handleCommands_created fine) same.tsStorage same.newTsStorage same.ready
    · exact (shown t.callbackState shows).same same
    · have here : l''.storage = l'.storage := by rw [Ledger.storage, log, Ledger.storage]
      have all' : l''.commands cfg l'.storage = l'.commands cfg l'.storage := by
        rw [Ledger.commands, log, Ledger.commands]
      rw [here, all', commands', given, storage]
      exact returned σ fine

/-- A chunk of replication data. -/
lemma Serves.fed [Indexset] [Runtime] (h : Serves cfg l s.callbackState)
    (tracks : Replica.Tracks cfg l.log s) (projection : cfg.callback = callback)
    {env : Replica.Answers} {data : Bytes} {handled : Replica.Handled State}
    (phase : s.state = .replication)
    (e : Replica.handleReplicationData cfg env data s = (es, handled)) :
    Served cfg l es handled.status := by
  obtain ⟨c, earlier, p, rdb, events, here, hq, follows⟩ := tracks.current phase
  have accepts {fed : ReplicaParser.Fed} {p' : ReplicaParser.ParserState}
      (hf : ReplicaParser.feedData p data = .ok (p', fed)) :
        Orderly cfg l (.parserData data (.ok fed)) :=
    ⟨c, earlier, p, p', rdb, events, here, follows, hf⟩
  cases Replica.handleReplicationData_receives e with
  | noParser hp =>
    rw [hp] at hq
    cases hq
  | @refused parser fault handled hp hf hh =>
    refine ⟨⟨trivial, trivial⟩, ?_⟩
    intro t eq
    have same : t.callbackState = s.callbackState := by
      obtain ⟨reason, rfl⟩ | rfl := hh
      · cases eq
        rfl
      · cases eq
    rw [same]
    show Serves cfg (l.next (.parserData data (.error fault))) s.callbackState
    have storage : (l.next (.parserData data (.error fault))).storage = l.storage :=
      Replica.fullResyncs_modify fun _ => rfl
    have emitted : emittedIn l.storage (l.next (.parserData data (.error fault))).log.connections =
        emittedIn l.storage l.log.connections := Replica.emittedIn_modify fun _ => ⟨rfl, rfl⟩
    constructor
    · exact h.switches.congr storage (Replica.transferred_modify fun _ => ⟨rfl, rfl⟩)
    · exact h.shows
    · rw [storage, Ledger.commands, emitted]
      exact h.queued
  | unparsed hp hf hc =>
    obtain rfl : p = _ := Option.some.inj (hq.symm.trans hp)
    refine ⟨⟨accepts hf, trivial⟩, ?_⟩
    rintro t ⟨⟩
  | @notStarted parser newParser fed commands acks started reason hp hf hc ha hs =>
    obtain rfl : p = parser := Option.some.inj (hq.symm.trans hp)
    obtain ⟨always, -⟩ := h.started projection here follows hf (by rfl) hs
    have unseen : ∀ e ∈ acks, Unseen e := by rw [ha]; exact unseen_acks
    have rest : Served cfg (l.next (.parserData data (.ok fed))) started
        (.stopped reason) := ⟨always, by rintro t ⟨⟩⟩
    have behind := rest.unseen_append unseen
    exact ⟨⟨accepts hf, behind.1⟩, by rintro t ⟨⟩⟩
  | @accepted parser newParser fed commands acks started calls t result handled hp hf hc
    ha hs hk hh =>
    obtain rfl : p = parser := Option.some.inj (hq.symm.trans hp)
    obtain ⟨always, log, given, ok⟩ := h.started projection here follows hf (by rfl) hs
    obtain ⟨switches, shows, pending⟩ := ok t rfl
    have unseen : ∀ e ∈ acks, Unseen e := by rw [ha]; exact unseen_acks
    -- the start of the stream is accounted for, and the calls come behind it
    suffices behind : Served cfg
      (History.after Ledger.next (l.next (.parserData data (.ok fed))) started) calls
        handled.status by
      have front := (Served.append always behind).unseen_append unseen
      exact ⟨⟨accepts hf, front.1⟩, front.2⟩
    generalize History.after Ledger.next (l.next (.parserData data (.ok fed))) started =
      l' at log given shows
    have storage : l'.storage = l.storage := by
      rw [Ledger.storage, log]
      exact storage_accepted data fed here
    have out : l'.commands cfg l'.storage =
        l.commands cfg l.storage ++ received (cfg.commandFilter.applyPre commands) := by
      rw [storage, ← Replica.commandsFor_eq hc, ← commands_accepted cfg data fed here,
        Ledger.commands, log, Ledger.commands]
    apply served_calls projection _ shows _ out hk
    · intro u eq
      obtain ⟨s', ok, rfl⟩ | ⟨reason, -, rfl⟩ := hh
      · cases eq
        exact ⟨_, ok, rfl⟩
      · cases eq
    · rw [log, next_accepted data fed here]
      exact switches
    · rw [given, storage]
      exact h.queued.same pending

/-- What one turn does. -/
lemma Serves.turn [Indexset] [Runtime] (h : Serves cfg l s.callbackState) (bounded : Bounded cfg l)
    (tracks : Replica.Tracks cfg l.log s) (projection : cfg.callback = callback)
    (turn : Replica.Turn cfg s es st) : Served cfg l es st := by
  cases turn with
  | quiet silent same =>
    apply h.unseen fun e mem => unseen_of_quiet (silent e mem)
    rintro t ⟨⟩
    exact same.callbackState
  | psync phase =>
    -- the request is recorded, but not with the connections
    obtain ⟨id, offset, eq⟩ : ∃ id offset, Replica.psyncRequest s = .psync id offset := by
      unfold Replica.psyncRequest
      split
      · exact ⟨_, _, rfl⟩
      · exact ⟨_, _, rfl⟩
    rw [eq]
    refine ⟨⟨trivial, trivial⟩, ?_⟩
    rintro t ⟨⟩
    exact ⟨h.switches, h.shows, h.queued⟩
  | ack streaming =>
    apply h.unseen
    · intro e mem
      rw [List.mem_singleton.mp mem]
      trivial
    · rintro t ⟨⟩
      rfl
  | complete phase e =>
    apply h.completed bounded projection e
    rintro t ⟨⟩
    rfl
  | startFails phase e =>
    apply h.completed bounded projection e
    rintro t ⟨⟩
  | feed phase e => exact h.fed tracks projection phase e
  | drop =>
    apply h.unseen (by simp)
    rintro t ⟨⟩
    rfl
  | call =>
    rw [projection]
    exact h.consulted (handleCall_plain _ _) (handleCall_stores _ _)
  | info =>
    rw [projection]
    exact h.consulted (handleInfo_plain _ _) (handleInfo_stores _ _)
  | halt =>
    apply h.unseen (by simp)
    rintro t ⟨⟩

end

/-! ## Runs -/

section
variable {cfg : Replica.Config Command State Event Message} {trace : List Effect}
  {st : Replica.Status State}

/-- An orderly trace is bounded. -/
lemma bounded_of_orderly (orderly : History.Always Ledger.next (Orderly cfg) .start trace) :
    Bounded cfg (ledgerOf trace) :=
  orderly.invariant (fun _ _ bounded law => bounded.next law) bounded_start

/-- If each continuation comes behind a transfer, the connections are grounded. -/
lemma grounded_of_resumes
    (resumes : ∀ before later, trace = before ++ .psyncCompleted .continued :: later →
      Transferred (Replica.logOf before).connections) :
    Replica.Grounded (Replica.logOf trace).connections := by
  have always : History.Always Replica.Log.next
      (fun log (e : Effect) => e = .psyncCompleted .continued →
      Transferred log.connections) ⟨0, []⟩ trace := by
    apply History.always_iff_at.mpr
    rintro before e later eq rfl
    exact resumes before later eq
  exact always.invariant
    (fun log e grounded resumes => Replica.grounded_next grounded resumes) nofun

/-- The buffer is switched, at the end of `trace` and with `coming` to be handled: there is one
storage, which the registry exposes; it is that of the last full resync, of which the snapshot was
received to its end; and what it was given, what is buffered and what comes are all the commands of
this snapshot and of the stream behind it. -/
structure Switched (cfg : Replica.Config Command State Event Message) (trace : List Effect)
    (s : State) (coming : List (ReplicaCommand Command)) : Prop where
  single : s.newTsStorage = none
  latest : s.tsStorage = some (fullResyncs (Replica.logOf trace).connections)
  exposed : (booksOf trace).view.exposed = s.tsStorage ∧ (booksOf trace).view.ready = true
  transferred : Transferred (Replica.logOf trace).connections
  whole : (booksOf trace).given (fullResyncs (Replica.logOf trace).connections) ++
      convertible (s.pending.buffered ++ received coming) = convertible (received (commandsFor cfg
        (emittedIn (fullResyncs (Replica.logOf trace).connections)
          (Replica.logOf trace).connections)))

/-- A call behind a transfer is one behind the switch. -/
lemma Called.toSwitched {s : State} {commands : List (ReplicaCommand Command)}
    (h : Called cfg (ledgerOf trace) s commands)
    (transferred : Transferred (Replica.logOf trace).connections) :
    Switched cfg trace s commands := by
  obtain ⟨switched, -, shows, whole⟩ := h
  simp only [Ledger.storage, Ledger.commands, ledgerOf_log, ledgerOf_books] at switched shows whole
  obtain ⟨single, latest, ready⟩ := switched transferred
  exact ⟨single, latest, ⟨shows.exposed, shows.ready.trans ready⟩, transferred, whole⟩

/-- Between two messages nothing comes. -/
lemma Serves.called {l : Ledger} {s : State} (h : Serves cfg l s) : Called cfg l s [] := by
  refine ⟨h.switches.switched, h.switches.target, h.shows, ?_⟩
  have whole := h.queued.whole
  rw [← whole]
  exact congrArg (fun pending => _ ++ convertible pending) (List.append_nil _)

variable [Indexset] [Runtime]

/-- In every run of the replica with the projection, the laws of the record hold at each effect, and
the state goes with the record. -/
theorem run_orderly (projection : cfg.callback = callback) (run : Replica.Run cfg trace st) :
    History.Always Ledger.next (Orderly cfg) .start trace ∧
      ∀ s, st = .running s → Serves cfg (ledgerOf trace) s.callbackState := by
  -- the record of the connections is kept along, since each step looks at it
  suffices kept : (History.Always Ledger.next (Orderly cfg) .start trace ∧
      ∀ s, st = .running s → Serves cfg (ledgerOf trace) s.callbackState) ∧
      ∀ s, st = .running s → Replica.Tracks cfg (Replica.logOf trace) s from kept.1
  refine Replica.run_invariant
    (fun trace st => (History.Always Ledger.next (Orderly cfg) .start trace ∧
      ∀ s, st = .running s → Serves cfg (ledgerOf trace) s.callbackState) ∧
      ∀ s, st = .running s → Replica.Tracks cfg (Replica.logOf trace) s) ?_ ?_ ?_ run
  · intro σ ok
    rw [projection] at ok ⊢
    refine ⟨⟨⟨nofun, trivial⟩, ?_⟩, ?_⟩
    · rintro t ⟨⟩
      cases ok
      refine ⟨⟨rfl, fun _ => ⟨rfl, rfl⟩, nofun, ?_⟩, ⟨rfl, rfl⟩, fun _ => rfl, [], Batched.nil, rfl⟩
      rintro ⟨c, ⟨⟩, -⟩
    · rintro t ⟨⟩
      exact Replica.tracks_new σ
  · intro reason reason' failed
    rw [projection] at failed
    cases failed
  · rintro trace s es st ⟨⟨always, serves⟩, tracks⟩ turn
    have log : (ledgerOf trace).log = Replica.logOf trace := ledgerOf_log trace
    have served :=
      (serves s rfl).turn (bounded_of_orderly always) (log ▸ tracks s rfl) projection turn
    refine ⟨⟨always.append served.1, ?_⟩, ?_⟩
    · rintro t rfl
      rw [ledgerOf, History.after_append]
      exact served.2 t rfl
    · rintro t rfl
      rw [Replica.logOf_append]
      exact Replica.tracks_turn (tracks s rfl) turn

/-- In every run of the replica with the projection, in which the primary resumes the stream only
after the last snapshot has been received to its end: whenever `handle_commands` is called with a
parser in the stream, and after every message that leaves the replica streaming, the buffer is
switched, and a call hands over batches to the exposed storage only. -/
theorem doubleBuffer (projection : cfg.callback = callback) (run : Replica.Run cfg trace st)
    (resumes : ∀ before later, trace = before ++ .psyncCompleted .continued :: later →
      Transferred (Replica.logOf before).connections) :
    (∀ before s commands later, trace = before ++ .handleCommands s commands :: later →
      Streams (Replica.logOf before).connections → Switched cfg before s commands ∧
        ∀ storage batch content, .tx storage batch content ∈ (handleCommands s commands).1 →
          s.tsStorage = some storage) ∧
    ∀ s, st = .running s → Replica.replicationState s = .streaming →
      Switched cfg trace s.callbackState [] := by
  obtain ⟨orderly, serves⟩ := run_orderly projection run
  constructor
  · rintro before s commands later rfl streams
    have grounded : Replica.Grounded (Replica.logOf before).connections :=
      grounded_of_resumes fun front back eq => resumes front _ (by rw [eq, List.append_assoc]; rfl)
    have called : Called cfg (ledgerOf before) s commands := orderly.at
    have transferred := grounded.transferred streams
    have switched := called.toSwitched transferred
    refine ⟨switched, fun storage batch content mem => ?_⟩
    have target := called.target
    rw [switched.single, Option.none_or] at target
    obtain ⟨_, _, eq⟩ | ⟨_, _, _, _, eq⟩ := handleCommands_writes called.target commands _ mem
    · cases eq
      exact target
    · cases eq
  · rintro s rfl streaming
    have begun := (Replica.run_tracks run).streams streaming
    exact (serves s rfl).called.toSwitched ((grounded_of_resumes resumes).transferred begun)

end

/-! ## A resync of either kind -/

/-- A snapshot is loaded, and the stream begins. -/
def loadedRun : List (Replica.Message Message) := fullresync ++ [.data 0 ReplicaParser.sampleImage]

/-- The connection is lost, and the primary resumes the stream. -/
def resume : List (Replica.Message Message) :=
  [.closed 0, .reconnectTimeout] ++ Replica.handshake ++ [.data 0 (ascii "+CONTINUE\r\n"),
    .data 0 (ascii "*3\r\n$3\r\nSET\r\n$1\r\nk\r\n$1\r\nx\r\n")]

/-- A second snapshot is begun, and the connection is lost in the middle of it. -/
def halfLoadedRun : List (Replica.Message Message) :=
  loadedRun ++ [.closed 0, .reconnectTimeout] ++ fullresync ++
    [.data 0 (ReplicaParser.sampleImage.take 14)]

/-- The storages at a call of `handle_commands`. -/
def storagesOf : Effect → Option (Option Storage × Option Storage)
  | .handleCommands s _ => some (s.newTsStorage, s.tsStorage)
  | _ => none

/-- The trace in front of a call and behind it. -/
lemma split_at_call {effects : List Effect} {n : Nat} {storages : Option Storage × Option Storage}
    (h : (effects[n]?).bind storagesOf = some storages) : ∃ s commands,
      effects = effects.take n ++ .handleCommands s commands :: effects.drop (n + 1) ∧
        (s.newTsStorage, s.tsStorage) = storages := by
  obtain ⟨e, here, eq⟩ := Option.bind_eq_some_iff.mp h
  obtain ⟨inside, rfl⟩ := List.getElem?_eq_some_iff.mp here
  cases e : effects[n] with
  | handleCommands s commands =>
    rw [e] at eq
    refine ⟨s, commands, ?_, Option.some.inj eq⟩
    rw [← e, List.getElem_cons_drop, List.take_append_drop]
  | _ =>
    rw [e] at eq
    cases eq

/-- Whether a primary resumes after a whole snapshot only, for effects at hand. -/
def resumesSettled (effects : List Effect) : Bool :=
  (List.range effects.length).all fun n => match effects[n]? with
    | some (.psyncCompleted .continued) =>
      ((Replica.logOf (effects.take n)).connections.find? (·.isFull)).any (·.stream.isSome)
    | _ => true

/-- Continuations that pass the check come behind a transfer. -/
lemma resumes_of_settled {trace : List Effect} (h : resumesSettled trace = true)
    (before later : List Effect) (eq : trace = before ++ .psyncCompleted .continued :: later) :
    Transferred (Replica.logOf before).connections := by
  subst eq
  have inside : before.length ∈
    List.range (before ++ .psyncCompleted .continued :: later).length := by
    rw [List.mem_range, List.length_append, List.length_cons]
    omega
  have here := List.all_eq_true.mp h before.length inside
  rw [List.getElem?_append_right (le_refl _), Nat.sub_self, List.take_left] at here
  obtain ⟨c, found, begun⟩ := (Option.any_eq_true _ _).mp here
  exact ⟨c, found, begun⟩

/-- The newest connection streams. -/
lemma streams_of_head {connections : List (Connection Command)}
    (h : connections.head?.any (·.stream.isSome) = true) : Streams connections := by
  cases connections with
  | nil => cases h
  | cons c earlier => exact ⟨c, earlier, rfl, h⟩

/-- The command behind `+CONTINUE` goes to the storage that readers see. -/
theorem doubleBuffer_resumed :
    ∃ before s commands later, (Replica.execute sampleConfig .fine (loadedRun ++ resume)).1 =
      before ++ .handleCommands s commands :: later ∧ Switched sampleConfig before s commands := by
  have call : ((Replica.execute sampleConfig .fine (loadedRun ++ resume)).1[22]?).bind storagesOf =
      some (none, some 1) := by
    decide +kernel
  obtain ⟨s, commands, split, -⟩ := split_at_call call
  have resumes := resumes_of_settled (by decide +kernel : resumesSettled
    (Replica.execute sampleConfig .fine (loadedRun ++ resume)).1 = true)
  refine ⟨_, s, commands, _, split, ?_⟩
  have streams : Streams (Replica.logOf ((Replica.execute sampleConfig .fine
      (loadedRun ++ resume)).1.take 22)).connections := streams_of_head (by decide +kernel)
  exact ((@doubleBuffer sampleConfig _ _ (.exact false) ⟨fun n => n, Nat.cast_injective⟩ rfl
    (Replica.run_execute _ _ _) resumes).1 _ _ _ _ split streams).1

/-- The buffer is not always switched: behind `+CONTINUE` the command goes to the half of a
snapshot. -/
theorem doubleBuffer_halfLoaded :
    ¬ ∀ (trace : List Effect) (st : Replica.Status State), Replica.Run sampleConfig trace st →
      ∀ before s commands later, trace = before ++ .handleCommands s commands :: later →
        Streams (Replica.logOf before).connections → Switched sampleConfig before s commands := by
  intro law
  have call : ((Replica.execute sampleConfig .fine (halfLoadedRun ++ resume)).1[35]?).bind
    storagesOf =
      some (some 2, some 1) := by
    decide +kernel
  obtain ⟨s, commands, split, storages⟩ := split_at_call call
  have streams : Streams (Replica.logOf ((Replica.execute sampleConfig .fine
      (halfLoadedRun ++ resume)).1.take 35)).connections := streams_of_head (by decide +kernel)
  have switched := law _ _ (Replica.run_execute _ _ _) _ _ _ _ split streams
  have single := switched.single
  rw [(Prod.mk.inj storages).1] at single
  cases single

end Veidrodelis.TSProj
