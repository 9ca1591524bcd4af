import Veidrodelis.Lib.History
import Veidrodelis.RedisNif.Received
import Veidrodelis.RedisStream.Run

/-!
# The replication connections of a run

`connections trace` reads off a trace what was exchanged on each connection, from the reply to
`PSYNC` on: what was asked for, the chunks that the parser accepted and perhaps the one that it
refused, the commands that came out, and those that were handed to the callback module. `run_tracks`
says how this record and the state of the process go together.
-/

namespace Veidrodelis.RedisStream
open RedisNif Incremental
open RedisNif.ReplicaParser (behindPayload Received commandsOf Event machine received_nil
  received_feedData absorbed_feedData)

variable {κ σ ε μ : Type}

namespace Replica

/-! ## The record -/

/-- A connection from the reply to `PSYNC` on. -/
structure Connection (κ : Type) where
  reply : PsyncReply
  /-- The offset in the `PSYNC` that was answered. -/
  requested : Int
  /-- The chunks that the parser has accepted. -/
  chunks : List Bytes
  /-- The chunk that the parser has refused. -/
  refused : Option Bytes
  /-- What the parser has emitted. -/
  emitted : List RawCommand
  /-- What the callback module was given. -/
  handed : List (ReplicaCommand κ)
  deriving DecidableEq

/-- What a trace tells: the offset of the last `PSYNC`, and the connections, the latest first. -/
structure Log (κ : Type) where
  requested : Int
  connections : List (Connection κ)

/-- Change the latest connection. -/
def Log.modify (log : Log κ) (f : Connection κ → Connection κ) : Log κ :=
  { log with connections := match log.connections with
      | [] => []
      | c :: cs => f c :: cs }

def Log.next (log : Log κ) : Effect κ σ ε → Log κ
  | .send (.psync _ offset) => { log with requested := offset }
  | .psyncCompleted reply => { log with
      connections := ⟨reply, log.requested, [], none, [], []⟩ :: log.connections }
  | .parserData chunk (.ok fed) => log.modify fun c => { c with
      chunks := c.chunks ++ [chunk]
      emitted := c.emitted ++ fed.commands }
  | .parserData chunk (.error _) => log.modify fun c => { c with refused := some chunk }
  | .handleCommands _ commands => log.modify fun c => { c with handed := c.handed ++ commands }
  | _ => log

/-- The record goes on with these effects. -/
def Log.after (log : Log κ) (es : List (Effect κ σ ε)) : Log κ := History.after Log.next log es

/-- The record of a trace. -/
def logOf (trace : List (Effect κ σ ε)) : Log κ := (⟨0, []⟩ : Log κ).after trace

/-- Without effects the log stays. -/
@[simp] lemma Log.after_nil (log : Log κ) : log.after ([] : List (Effect κ σ ε)) = log := rfl

/-- The first effect, and the others. -/
@[simp] lemma Log.after_cons (log : Log κ) (e : Effect κ σ ε) (es : List (Effect κ σ ε)) :
    log.after (e :: es) = (log.next e).after es := rfl

/-- The log behind two parts of a trace. -/
lemma Log.after_append (log : Log κ) (es es' : List (Effect κ σ ε)) :
    log.after (es ++ es') = (log.after es).after es' :=
  History.after_append es es'

/-- The log of a trace goes on with what comes behind it. -/
lemma logOf_append (trace es : List (Effect κ σ ε)) :
    logOf (trace ++ es) = (logOf trace).after es :=
  Log.after_append _ _ _

/-- Effects that leave no trace in the record. -/
lemma Log.after_unrecorded {log : Log κ} {es : List (Effect κ σ ε)}
    (h : ∀ e ∈ es, log.next e = log) :
    log.after es = log :=
  History.after_unrecorded h

/-- Quiet effects are not logged. -/
lemma Log.next_of_quiet {log : Log κ} {e : Effect κ σ ε} (h : e.Quiet) : log.next e = log := by
  cases e with
  | send request => cases request <;> first | rfl | exact h.elim
  | psyncCompleted reply => exact h.elim
  | parserData chunk result => exact h.elim
  | handleCommands callbackState commands => exact h.elim
  | _ => rfl

/-- What the callback answers is not logged. -/
lemma Log.after_answers (log : Log κ) {function : CallbackFunction}
    (result : List ε × Except Reason σ) :
    log.after (answers function result : List (Effect κ σ ε)) = log :=
  Log.after_unrecorded (forall_answers (fun _ _ => rfl) fun _ => rfl)

/-! ## What a connection has received -/

namespace Connection

/-- The bytes that the parser has accepted. -/
def received (c : Connection κ) : Bytes := c.chunks.flatten

/-- The bytes of the command stream among these, once the stream has begun. -/
def streamOf (reply : PsyncReply) (received : Bytes) : Option Bytes :=
  match reply with
  | .fullresync _ _ => behindPayload received
  | .continued => some received

def stream (c : Connection κ) : Option Bytes := streamOf c.reply c.received

/-- The sizes of the chunks that arrive while the command stream has begun. -/
def countedFrom (reply : PsyncReply) : Bytes → List Bytes → Nat
  | _, [] => 0
  | before, chunk :: chunks =>
    (if (streamOf reply before).isSome then chunk.length else 0) +
      countedFrom reply (before ++ chunk) chunks

def counted (c : Connection κ) : Nat := countedFrom c.reply [] c.chunks

/-- A chunk counts if the stream had begun before it. -/
lemma countedFrom_append (reply : PsyncReply) (before : Bytes) (chunks : List Bytes)
    (chunk : Bytes) :
    countedFrom reply before (chunks ++ [chunk]) = countedFrom reply before chunks +
      if (streamOf reply (before ++ chunks.flatten)).isSome then chunk.length else 0 := by
  induction chunks generalizing before with
  | nil => simp [countedFrom]
  | cons first chunks ih =>
    simp only [List.cons_append, countedFrom, ih, List.flatten_cons, List.append_assoc]
    omega

/-- The parser behind what a connection has received, with the commands of the RDB payload and the
events of the stream. -/
def Follows (c : Connection κ) (p : ReplicaParser.ParserState) (rdb : List RawCommand)
    (events : List Event) : Prop :=
  (match c.reply with
    | .fullresync _ _ => Received c.received p rdb events
    | .continued => rdb = [] ∧ machine.absorb (.new true) c.received = .ok (p, events)) ∧
  c.emitted = rdb ++ commandsOf events

/-- What the callback module was given is what the filter leaves of what was emitted. -/
def Handed (cfg : Config κ σ ε μ) (c : Connection κ) : Prop :=
  ∃ commands, Parser.convertCommands cfg.parse c.emitted = some commands ∧
    c.handed = cfg.commandFilter.applyPre commands

/-- A parser streams exactly when the command stream has begun. -/
lemma Follows.streaming_iff {c : Connection κ} {p : ReplicaParser.ParserState}
    {rdb : List RawCommand} {events : List Event} (h : c.Follows p rdb events) :
    p.state = .streaming ↔ c.stream.isSome := by
  have read := h.1
  cases e : c.reply with
  | fullresync replicationId offset =>
    rw [e] at read
    rw [stream, e]
    exact read.streaming_iff
  | continued =>
    rw [e] at read
    rw [stream, e]
    simp [streamOf, ReplicaParser.streaming_absorb rfl read.2]

/-- What has come out of the stream is what a parser without RDB transfer makes of it. -/
lemma Follows.stream {c : Connection κ} {p : ReplicaParser.ParserState} {rdb : List RawCommand}
    {events : List Event} (h : c.Follows p rdb events) {bytes : Bytes}
    (begun : c.stream = some bytes) : machine.absorb (.new true) bytes = .ok (p, events) := by
  have read := h.1
  rw [Connection.stream] at begun
  cases e : c.reply with
  | fullresync replicationId offset =>
    rw [e] at read begun
    exact read.stream begun
  | continued =>
    rw [e] at read begun
    cases begun
    exact read.2

/-- Before the stream begins there are no events. -/
lemma Follows.silent {c : Connection κ} {p : ReplicaParser.ParserState} {rdb : List RawCommand}
    {events : List Event} (h : c.Follows p rdb events) (notBegun : c.stream = none) :
    events = [] := by
  have read := h.1
  rw [Connection.stream] at notBegun
  cases e : c.reply with
  | fullresync replicationId offset =>
    rw [e] at read notBegun
    exact read.silent notBegun
  | continued =>
    rw [e] at notBegun
    cases notBegun

/-- The connection with one more accepted chunk. -/
def accept (c : Connection κ) (chunk : Bytes) (commands : List RawCommand) : Connection κ :=
  { c with chunks := c.chunks ++ [chunk], emitted := c.emitted ++ commands }

/-- A chunk is received behind the others. -/
@[simp] lemma accept_received (c : Connection κ) (chunk : Bytes) (commands : List RawCommand) :
    (c.accept chunk commands).received = c.received ++ chunk := by
  simp [accept, received]

/-- The commands of command events are themselves. -/
lemma commandsOf_command (r : List RawCommand) : commandsOf (r.map .command) = r := by
  induction r with
  | nil => rfl
  | cons first rest ih => rw [List.map_cons, commandsOf, List.filterMap_cons, ← commandsOf, ih]

/-- One accepted chunk: what came out of the RDB payload, then what came out of the stream. -/
lemma Follows.accept {c : Connection κ} {p p' : ReplicaParser.ParserState} {rdb : List RawCommand}
    {events : List Event} {chunk : Bytes} {fed : ReplicaParser.Fed} (h : c.Follows p rdb events)
    (f : ReplicaParser.feedData p chunk = .ok (p', fed)) :
    ∃ r more, (c.accept chunk fed.commands).Follows p' (rdb ++ r) (events ++ more) ∧
      fed = ReplicaParser.Fed.ofEvents (r.map .command ++ more) ∧
      (p.state = .streaming → r = []) := by
  obtain ⟨read, emitted⟩ := h
  cases e : c.reply with
  | fullresync replicationId offset =>
    rw [e] at read
    obtain ⟨r, more, next, rfl, nothing⟩ := received_feedData read f
    -- as long as the payload is read, nothing has come out of the stream
    have swap : commandsOf events ++ r = r ++ commandsOf events := by
      by_cases st : p.state = .streaming
      · rw [nothing st, List.append_nil, List.nil_append]
      · have notBegun : behindPayload c.received = none := by
          rw [← Option.not_isSome_iff_eq_none, ← read.streaming_iff]
          exact st
        rw [read.silent notBegun]
        simp [commandsOf]
    refine ⟨r, more, ⟨?_, ?_⟩, rfl, nothing⟩
    · simp only [Connection.accept, e]
      simpa only [received, List.flatten_append, List.flatten_singleton] using next
    · simp only [Connection.accept, emitted, ReplicaParser.Fed.ofEvents,
        ReplicaParser.commandsOf_append, commandsOf_command, List.append_assoc]
      rw [← List.append_assoc _ r, swap, List.append_assoc]
  | continued =>
    rw [e] at read
    obtain ⟨rfl, read⟩ := read
    obtain ⟨more, next, rfl⟩ := absorbed_feedData read f
    refine ⟨[], more, ⟨?_, ?_⟩, rfl, fun _ => rfl⟩
    · simp only [Connection.accept, e]
      exact ⟨rfl, by simpa only [received, List.flatten_append, List.flatten_singleton] using next⟩
    · simp only [Connection.accept, emitted, ReplicaParser.Fed.ofEvents,
        ReplicaParser.commandsOf_append, List.nil_append]

/-- What was emitted and handed over, for a parser somewhere behind what was received. -/
def Sound (cfg : Config κ σ ε μ) (c : Connection κ) : Prop :=
  (∃ p rdb events, c.Follows p rdb events) ∧ c.Handed cfg

end Connection

/-! ## Connections one after another -/

/-- The offset after these connections, the latest first. -/
def offsetAfter : List (Connection κ) → Int
  | [] => 0
  | c :: cs =>
    match c.reply with
    | .fullresync _ offset => offset + c.counted
    | .continued => offsetAfter cs + c.counted

/-- Whether there was a full resync among these connections. -/
def Synced (cs : List (Connection κ)) : Prop :=
  ∃ c ∈ cs, ∃ replicationId offset, c.reply = .fullresync replicationId offset

/-- A partial resync was asked for at the offset that the connections before it had reached. -/
def Linked : List (Connection κ) → Prop
  | [] => True
  | c :: cs => (c.reply = .continued → Synced cs → c.requested = offsetAfter cs) ∧ Linked cs

/-- How the record of a run and the state of the process go together. -/
structure Tracks (cfg : Config κ σ ε μ) (log : Log κ) (s : State σ) : Prop where
  sound : ∀ c ∈ log.connections, c.Sound cfg
  linked : Linked log.connections
  current : s.state = .replication → ∃ c cs p rdb events, log.connections = c :: cs ∧
    s.replicaParser = some p ∧ c.Follows p rdb events
  offset : s.replicationOffset = offsetAfter log.connections
  saved : s.state ≠ .replication → s.savedReplicationOffset = s.replicationOffset
  known : Synced log.connections → s.replicationId.isSome ∧
    (s.state ≠ .replication → s.savedReplicationId.isSome)
  requested : s.state = .psync → s.savedReplicationId.isSome →
    log.requested = s.savedReplicationOffset

variable {cfg : Config κ σ ε μ} {log : Log κ} {s s' : State σ} {es : List (Effect κ σ ε)}
  {st : Status σ}

/-- An empty log tracks a new process. -/
lemma tracks_new (callbackState : σ) : Tracks cfg ⟨0, []⟩ (State.new cfg callbackState) where
  sound := nofun
  linked := trivial
  current := nofun
  offset := rfl
  saved _ := rfl
  known := by rintro ⟨c, ⟨⟩, -⟩
  requested := nofun

/-- What is not a field of the link may change. -/
lemma Tracks.same (h : Tracks cfg log s) (same : SameLink s s') : Tracks cfg log s' where
  sound := h.sound
  linked := h.linked
  current phase := by
    obtain e | ⟨-, no, -⟩ := same.state
    · rw [same.replicaParser]
      exact h.current (e ▸ phase)
    · exact absurd phase no
  offset := by rw [same.replicationOffset, h.offset]
  saved phase := by
    rw [same.savedReplicationOffset, same.replicationOffset]
    obtain e | ⟨before, -, -⟩ := same.state
    · exact h.saved (e ▸ phase)
    · exact h.saved before
  known synced := by
    obtain ⟨id, saved⟩ := h.known synced
    rw [same.replicationId, same.savedReplicationId]
    refine ⟨id, fun phase => ?_⟩
    obtain e | ⟨before, -, -⟩ := same.state
    · exact saved (e ▸ phase)
    · exact saved before
  requested phase := by
    rw [same.savedReplicationId, same.savedReplicationOffset]
    obtain e | ⟨-, -, no⟩ := same.state
    · exact h.requested (e ▸ phase)
    · exact absurd phase no

/-- The callback state is no field of the record. -/
lemma Tracks.callbackState (h : Tracks cfg log s) (callbackState : σ) :
    Tracks cfg log { s with callbackState } :=
  ⟨h.sound, h.linked, h.current, h.offset, h.saved, h.known, h.requested⟩

/-- `PSYNC` is sent. -/
lemma Tracks.psync (h : Tracks cfg log s) (phase : s.state ≠ .replication) :
    Tracks cfg (log.next (.send (psyncRequest s) : Effect κ σ ε)) { s with state := .psync } := by
  obtain ⟨id, offset, e⟩ : ∃ id offset, psyncRequest s = .psync id offset ∧
      (s.savedReplicationId.isSome → offset = s.savedReplicationOffset) := by
    unfold psyncRequest
    split
    · exact ⟨_, _, rfl, fun _ => rfl⟩
    · rename_i nowhere
      exact ⟨_, _, rfl, fun filled => by simp [nowhere] at filled⟩
  rw [e.1]
  exact ⟨h.sound, h.linked, nofun, h.offset, fun _ => h.saved phase,
    fun synced => ⟨(h.known synced).1, fun _ => (h.known synced).2 phase⟩, fun _ => e.2⟩

/-- A new connection is sound. -/
lemma sound_new (reply : PsyncReply) (requested : Int) :
    (⟨reply, requested, [], none, [], []⟩ : Connection κ).Sound cfg := by
  refine ⟨?_, [], rfl, rfl⟩
  cases reply with
  | fullresync replicationId offset => exact ⟨.new false, [], [], received_nil, rfl⟩
  | continued => exact ⟨.new true, [], [], ⟨rfl, rfl⟩, rfl⟩

/-- The reply to `PSYNC` opens a connection. -/
lemma Tracks.completed (h : Tracks cfg log s) (phase : s.state = .psync) (callbackState : σ)
    (reply : PsyncReply) :
    Tracks cfg (log.next (.psyncCompleted reply : Effect κ σ ε))
      (completed s callbackState reply) := by
  have handshake : s.state ≠ .replication := by rw [phase]; decide
  refine ⟨?_, ?_, ?_, ?_, ?_, ?_, ?_⟩
  · intro c hc
    obtain rfl | hc := List.mem_cons.mp hc
    · exact sound_new reply _
    · exact h.sound c hc
  · refine ⟨?_, h.linked⟩
    rintro - synced
    rw [h.requested phase ((h.known synced).2 handshake), h.saved handshake, h.offset]
  · intro _
    cases reply with
    | fullresync replicationId offset =>
      exact ⟨_, _, .new false, [], [], rfl, rfl, received_nil, rfl⟩
    | continued => exact ⟨_, _, .new true, [], [], rfl, rfl, ⟨rfl, rfl⟩, rfl⟩
  · cases reply with
    | fullresync replicationId offset => simp [Log.next, offsetAfter, Replica.completed,
        Connection.counted, Connection.countedFrom]
    | continued => simp [Log.next, offsetAfter, Replica.completed, Connection.counted,
        Connection.countedFrom, h.saved handshake, h.offset]
  · intro no
    cases reply <;> exact absurd rfl no
  · intro synced
    cases reply with
    | fullresync replicationId offset => exact ⟨rfl, fun no => absurd rfl no⟩
    | continued =>
      -- what was known before is not from this reply
      have before : Synced log.connections := by
        obtain ⟨c, hc, id, offset, e⟩ := synced
        obtain rfl | hc := List.mem_cons.mp hc
        · cases e
        · exact ⟨c, hc, id, offset, e⟩
      exact ⟨(h.known before).2 handshake, fun no => absurd rfl no⟩
  · intro no
    cases reply <;> cases no

/-- The connection is given up. -/
lemma Tracks.dropped (h : Tracks cfg log s) : Tracks cfg log (dropped s) := by
  refine ⟨h.sound, h.linked, nofun, h.offset, fun _ => rfl, fun synced => ?_, nofun⟩
  obtain ⟨id, -⟩ := h.known synced
  refine ⟨id, fun _ => ?_⟩
  simp only [Replica.dropped]
  cases e : s.replicationId with
  | none => simp [e] at id
  | some id => rfl

/-! ## A chunk -/

/-- Whether the newest connection is synced depends on its reply only. -/
lemma synced_modify {c c' : Connection κ} {cs : List (Connection κ)} (e : c'.reply = c.reply) :
    Synced (c' :: cs) ↔ Synced (c :: cs) := by
  simp [Synced, e]

/-- Whether the newest connection is linked depends on its reply and request only. -/
lemma linked_modify {c c' : Connection κ} {cs : List (Connection κ)} (e : c'.reply = c.reply)
    (r : c'.requested = c.requested) (h : Linked (c :: cs)) : Linked (c' :: cs) := by
  refine ⟨?_, h.2⟩
  rw [e, r]
  exact h.1

/-- The offset after one more chunk. -/
lemma offsetAfter_accept {c c' : Connection κ} {cs : List (Connection κ)} {chunk : Bytes}
    (e : c'.reply = c.reply) (chunks : c'.chunks = c.chunks ++ [chunk]) :
    offsetAfter (c' :: cs) =
      offsetAfter (c :: cs) + if c.stream.isSome then (chunk.length : Int) else 0 := by
  have counted : (c'.counted : Int) =
    c.counted + if c.stream.isSome then (chunk.length : Int) else 0 := by
    simp only [Connection.counted, e, chunks, Connection.countedFrom_append, List.nil_append,
      Connection.stream, Connection.received]
    split <;> rename_i begun <;> simp [begun]
  cases reply : c.reply with
  | fullresync replicationId offset =>
    simp only [offsetAfter, e, reply, counted]
    omega
  | continued =>
    simp only [offsetAfter, e, reply, counted]
    omega

/-- The calls of the callback module in the record. -/
lemma after_processCommands {commands : List (ReplicaCommand κ)} {calls : List (Effect κ σ ε)}
    {result : Except Reason (State σ)} (h : processCommands cfg commands s = (calls, result)) :
    log.after calls = log.modify fun c =>
      { c with handed := c.handed ++ cfg.commandFilter.applyPre commands } := by
  obtain ⟨nowhere, rfl, -⟩ | ⟨-, rfl, -⟩ := processCommands_eq h
  · rw [nowhere, Log.after_nil, Log.modify]
    cases log with
    | mk requested connections => cases connections <;> simp
  · rw [Log.after_cons, Log.after_answers]
    rfl

/-- An acknowledgement is not logged. -/
lemma after_sendReplconfAck (env : Answers) (log : Log κ) :
    log.after (sendReplconfAck env s : List (Effect κ σ ε)) = log := by
  refine Log.after_unrecorded fun e he => ?_
  unfold sendReplconfAck transportSend at he
  repeat' split at he
  all_goals simp at he
  subst he
  rfl

/-- What is recorded of the effects in front of the calls. -/
lemma after_acks {env : Answers} {P : Prop} [Decidable P] (log : Log κ) :
    log.after (if P then sendReplconfAck env s else [] : List (Effect κ σ ε)) = log := by
  split
  · exact after_sendReplconfAck env log
  · rfl

/-- The start of the stream is not logged. -/
lemma after_started {before after : ReplicaParser.ReplicaState} {started : List (Effect κ σ ε)}
    {start : Except Reason (State σ)} (h : startStreaming cfg before after s = (started, start)) :
    log.after started = log := by
  obtain ⟨-, -, rfl, -⟩ | ⟨-, rfl, -⟩ := startStreaming_eq h
  · exact Log.after_answers _ _
  · rfl

/-- An accepted chunk in the record. -/
lemma Tracks.accepted {env : Answers} {data : Bytes} (h : Tracks cfg log s)
    (phase : s.state = .replication)
    (e : handleReplicationData cfg env data s = (es, .noreply s')) :
    Tracks cfg (log.after es) s' := by
  obtain ⟨parser', newParser', fed', callbackState, hp', hf', rfl⟩ := accepted_state e
  generalize hr : Handled.noreply _ = handled at e
  cases handleReplicationData_receives e with
  | noParser => cases hr
  | refused _ _ hh => obtain ⟨_, rfl⟩ | rfl := hh <;> cases hr
  | unparsed => cases hr
  | notStarted => cases hr
  | @accepted parser newParser fed commands acks started calls t result handled hp hf hc
    ha hs hk hh =>
    obtain rfl : parser = parser' := Option.some.inj (hp.symm.trans hp')
    obtain ⟨rfl, rfl⟩ : newParser = newParser' ∧ fed = fed' := by
      simpa only [Except.ok.injEq, Prod.mk.injEq] using hf.symm.trans hf'
    obtain ⟨c, cs, p, rdb, events, hl, hq, follows⟩ := h.current phase
    obtain rfl : p = parser := Option.some.inj (hq.symm.trans hp)
    obtain ⟨⟨_, all, emitted, handed⟩, others⟩ : c.Sound cfg ∧ ∀ c' ∈ cs, c'.Sound cfg := by
      have sound := h.sound
      rw [hl] at sound
      exact ⟨sound c (by simp), fun c' hc' => sound c' (by simp [hc'])⟩
    obtain ⟨r, more, follows', -, -⟩ := follows.accept hf
    have begun := follows.streaming_iff
    let c' : Connection κ := { c.accept data fed.commands with
      handed := c.handed ++ cfg.commandFilter.applyPre commands }
    -- what the effects of this chunk add up to in the record
    have recorded : log.after (.parserData data (.ok fed) :: (acks ++ (started ++ calls))) =
        { log with connections := c' :: cs } := by
      rw [Log.after_cons, Log.after_append, Log.after_append, ha, after_acks, after_started hs,
        after_processCommands hk]
      simp only [Log.next, Log.modify, hl]
      rfl
    rw [recorded]
    refine ⟨?_, ?_, ?_, ?_, ?_, ?_, ?_⟩
    · intro d hd
      obtain rfl | hd := List.mem_cons.mp hd
      · refine ⟨⟨newParser, _, _, follows'⟩, all ++ commands, ?_, ?_⟩
        · exact Parser.convertCommands_append emitted hc
        · rw [CommandFilter.applyPre_append, ← handed]
      · exact others d hd
    · have linked := h.linked
      rw [hl] at linked
      exact linked_modify rfl rfl linked
    · exact fun _ => ⟨c', cs, newParser, _, _, rfl, rfl, follows'⟩
    · have next : offsetAfter (c' :: cs) =
          offsetAfter (c :: cs) + if c.stream.isSome then (data.length : Int) else 0 :=
        offsetAfter_accept rfl rfl
      rw [next, ← hl, ← h.offset]
      by_cases st : p.state = .streaming
      · simp only [st, begun.mp st, if_true]
      · simp [st, mt begun.mpr st]
    · exact fun no => absurd phase no
    · intro synced
      have before : Synced log.connections := by
        rw [hl]
        exact (synced_modify (show c'.reply = c.reply from rfl)).mp synced
      exact ⟨(h.known before).1, fun no => absurd phase no⟩
    · intro no
      exact absurd (phase.symm.trans no) (by decide)

/-- A refused chunk is recorded, and that is all. -/
lemma Tracks.refused (h : Tracks cfg log s) (chunk : Bytes) (fault : Fault) :
    Tracks cfg (log.next (.parserData chunk (.error fault) : Effect κ σ ε)) s := by
  obtain ⟨sound, linked, current, offset, saved, known, requested⟩ := h
  cases hl : log.connections with
  | nil =>
    have same : log.next (.parserData chunk (.error fault) : Effect κ σ ε) = log := by
      simp only [Log.next, Log.modify, hl]
      rw [← hl]
    rw [same]
    exact ⟨sound, linked, current, offset, saved, known, requested⟩
  | cons c cs =>
    let c' : Connection κ := { c with refused := some chunk }
    have recorded : log.next (.parserData chunk (.error fault) : Effect κ σ ε) =
        { log with connections := c' :: cs } := by
      simp only [Log.next, Log.modify, hl]
      rfl
    rw [hl] at sound linked known offset
    rw [recorded]
    refine ⟨?_, linked_modify rfl rfl linked, ?_, ?_, saved, ?_, requested⟩
    · intro d hd
      obtain rfl | hd := List.mem_cons.mp hd
      · exact sound c (by simp)
      · exact sound d (by simp [hd])
    · intro phase
      obtain ⟨d, ds, p, rdb, events, hd, hp, follows⟩ := current phase
      rw [hl] at hd
      cases hd
      exact ⟨c', cs, p, rdb, events, rfl, hp, follows⟩
    · rw [offset]
      rfl
    · exact fun synced => known ((synced_modify (show c'.reply = c.reply from rfl)).mp synced)

/-- Every turn is recorded. -/
lemma tracks_turn (h : Tracks cfg log s) (turn : Turn cfg s es (.running s')) :
    Tracks cfg (log.after es) s' := by
  generalize hst : Status.running s' = st at turn
  cases turn with
  | quiet silent same =>
    cases hst
    rw [Log.after_unrecorded fun e he => Log.next_of_quiet (silent e he)]
    exact h.same same
  | psync phase =>
    cases hst
    exact h.psync phase
  | ack streaming =>
    cases hst
    exact h
  | complete phase e =>
    cases hst
    obtain ⟨replicationId, offset, rfl, rfl, ok⟩ | ⟨rfl, rfl, ok⟩ := handlePsyncCompleted_eq e
    · obtain ⟨callbackState, -, rfl⟩ := ok s' rfl
      rw [Log.after_cons, Log.after_answers]
      exact h.completed phase callbackState _
    · cases ok
      exact h.completed phase s.callbackState _
  | startFails => cases hst
  | @feed env data _ handled phase e =>
    cases handled with
    | noreply t =>
      cases hst
      exact h.accepted phase e
    | reconnect reason t =>
      cases hst
      -- of all chunks, only one that is refused reconnects
      cases handleReplicationData_receives e with
      | refused hp hf hh =>
        obtain ⟨_, hh⟩ | hh := hh
        · cases hh
          rw [Log.after_cons, Log.after_nil]
          exact h.refused data _
        · cases hh
      | accepted _ _ _ _ _ _ hh => obtain ⟨_, -, hh⟩ | ⟨_, -, hh⟩ := hh <;> cases hh
    | stop reason => cases hst
  | drop =>
    cases hst
    exact h.dropped
  | call =>
    cases hst
    rw [Log.after_answers]
    unfold consulted
    split
    · exact h.callbackState _
    · exact h
  | info =>
    cases hst
    rw [Log.after_answers]
    unfold consulted
    split
    · exact h.callbackState _
    · exact h
  | halt => cases hst

/-- The record of every run goes with the state it ends in. -/
theorem run_tracks {trace : List (Effect κ σ ε)} (h : Run cfg trace (.running s)) :
    Tracks cfg (logOf trace) s := by
  have all : ∀ t, Status.running s = .running t → Tracks cfg (logOf trace) t := by
    refine run_invariant (fun trace st => ∀ t, st = .running t → Tracks cfg (logOf trace) t)
      ?_ ?_ ?_ h
    · rintro callbackState - t ⟨⟩
      rw [logOf, Log.after_answers]
      exact tracks_new callbackState
    · rintro reason reason' - t ⟨⟩
    · rintro trace u es st before turn t rfl
      rw [logOf_append]
      exact tracks_turn (before u rfl) turn
  exact all s rfl

end Replica

end Veidrodelis.RedisStream
