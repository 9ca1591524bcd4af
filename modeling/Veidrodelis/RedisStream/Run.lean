import Veidrodelis.RedisStream.Replica

/-!
# Runs of the replica process

`Run cfg trace status`: the process was started, has handled messages in any order, with any answers
of the operating system, has left the trace of effects `trace`, and is in `status`.

What one message can do is said once: `handleMessage_turns` cuts it into `Turn`s. Except for the
turns in which replication data is received, a turn changes the fields that belong to the
replication link in one way, and everything that does not touch them is one `quiet` turn.
-/

namespace Veidrodelis.RedisStream
open RedisNif

variable {κ σ ε μ : Type}

namespace Replica

/-- A sequence of two steps taken apart. -/
lemma andThen_eq {α β : Type} {out : Out κ σ ε α} {next : α → Out κ σ ε β}
    {es : List (Effect κ σ ε)} {b : β} (h : out.andThen next = (es, b)) :
    ∃ es₁ a es₂, out = (es₁, a) ∧ next a = (es₂, b) ∧ es = es₁ ++ es₂ := by
  cases h
  exact ⟨out.1, out.2, (next out.2).1, rfl, rfl, rfl⟩

/-! ## Turns -/

/-- Effects that have nothing to do with what is replicated. -/
def Effect.Quiet : Effect κ σ ε → Prop
  | .send (.psync _ _) => False
  | .send (.replconfAck _) => False
  | .psyncCompleted _ => False
  | .parserData _ _ => False
  | .handleCommands _ _ => False
  | .callback _ => False
  | _ => True

/-- The fields of the replication link are the same; a phase of the handshake may have been passed,
but `PSYNC` was not sent. -/
structure SameLink (s s' : State σ) : Prop where
  callbackState : s'.callbackState = s.callbackState
  savedReplicationId : s'.savedReplicationId = s.savedReplicationId
  savedReplicationOffset : s'.savedReplicationOffset = s.savedReplicationOffset
  replicationId : s'.replicationId = s.replicationId
  replicationOffset : s'.replicationOffset = s.replicationOffset
  replicaParser : s'.replicaParser = s.replicaParser
  state : s'.state = s.state ∨
    s.state ≠ .replication ∧ s'.state ≠ .replication ∧ s'.state ≠ .psync

/-- The connection is given up: what `handle_disconnect` makes of the link. -/
def dropped (s : State σ) : State σ :=
  { s with
    socket := none
    savedReplicationId := s.replicationId.or s.savedReplicationId
    savedReplicationOffset := s.replicationOffset
    replicaParser := none
    buffer := []
    state := .init }

/-- What becomes of the process when a handler of data returns, before it reconnects. -/
def Handled.status : Handled σ → Status σ
  | .noreply s => .running s
  | .reconnect _ s => .running s
  | .stop reason => .stopped reason

/-- What becomes of the process when the callback module returns. -/
def consulted (s : State σ) : Except Reason σ → State σ
  | .ok callbackState => { s with callbackState }
  | .error _ => s

/-- One elementary move of the process. -/
inductive Turn (cfg : Config κ σ ε μ) : State σ → List (Effect κ σ ε) → Status σ → Prop where
  | quiet {s s' : State σ} {es : List (Effect κ σ ε)} (silent : ∀ e ∈ es, e.Quiet)
      (same : SameLink s s') : Turn cfg s es (.running s')
  | psync {s : State σ} (phase : s.state ≠ .replication) :
      Turn cfg s [.send (psyncRequest s)] (.running { s with state := .psync })
  | ack {s : State σ} (streaming : replicationState s = .streaming) :
      Turn cfg s [.send (.replconfAck s.replicationOffset)] (.running s)
  | complete {s s' : State σ} {reply : PsyncReply} {es : List (Effect κ σ ε)}
      (phase : s.state = .psync) (h : handlePsyncCompleted cfg reply s = (es, .ok s')) :
      Turn cfg s es (.running s')
  | startFails {s : State σ} {reply : PsyncReply} {es : List (Effect κ σ ε)}
      {reason reason' : Reason} (phase : s.state = .psync)
      (h : handlePsyncCompleted cfg reply s = (es, .error reason)) :
      Turn cfg s es (.stopped reason')
  | feed {s : State σ} {env : Answers} {data : Bytes} {es : List (Effect κ σ ε)}
      {handled : Handled σ} (phase : s.state = .replication)
      (h : handleReplicationData cfg env data s = (es, handled)) :
      Turn cfg s es handled.status
  | drop {s : State σ} : Turn cfg s [] (.running (dropped s))
  | call {s : State σ} {message : μ} : Turn cfg s
      (answers .handleCall (cfg.callback.handleCall s.callbackState message))
      (.running (consulted s (cfg.callback.handleCall s.callbackState message).2))
  | info {s : State σ} {message : μ} : Turn cfg s
      (answers .handleInfo (cfg.callback.handleInfo s.callbackState message))
      (.running (consulted s (cfg.callback.handleInfo s.callbackState message).2))
  | halt {s : State σ} {reason : Reason} : Turn cfg s [] (.stopped reason)

/-- Turns one after another. -/
inductive Turns (cfg : Config κ σ ε μ) : State σ → List (Effect κ σ ε) → Status σ → Prop where
  | nil {s : State σ} : Turns cfg s [] (.running s)
  | one {s : State σ} {es : List (Effect κ σ ε)} {st : Status σ} (turn : Turn cfg s es st) :
      Turns cfg s es st
  | append {s s' : State σ} {es es' : List (Effect κ σ ε)} {st : Status σ}
      (first : Turns cfg s es (.running s')) (rest : Turns cfg s' es' st) :
      Turns cfg s (es ++ es') st

variable {cfg : Config κ σ ε μ} {s s' : State σ} {es es' : List (Effect κ σ ε)} {st : Status σ}

/-- Quiet effects that keep the link are a turn. -/
lemma Turns.quiet (silent : ∀ e ∈ es, e.Quiet) (same : SameLink s s') :
    Turns cfg s es (.running s') :=
  .one (.quiet silent same)

/-- Quiet effects may stand in front. -/
lemma Turns.quietly (silent : ∀ e ∈ es, e.Quiet) (same : SameLink s s')
    (rest : Turns cfg s' es' st) :
    Turns cfg s (es ++ es') st :=
  (Turns.quiet silent same).append rest

/-- A change of the state alone may stand in front. -/
lemma Turns.silently (same : SameLink s s') (rest : Turns cfg s' es st) : Turns cfg s es st :=
  have nowhere : ∀ e ∈ ([] : List (Effect κ σ ε)), e.Quiet := by simp
  Turns.quietly nowhere same rest

/-- A stop is the last turn. -/
lemma Turns.halt {reason : Reason} : Turns cfg s [] (.stopped reason) := .one .halt

/-! ## The handlers in turns -/

/-- The socket and the reconnect timer go with the phase. -/
structure Wired (s : State σ) : Prop where
  init_of_socket : s.socket = none → s.state = .init
  socket_of_timer : s.reconnectTimer = true → s.socket = none

/-- Cancelling the acknowledge timer is quiet. -/
lemma cancelAckTimer_quiet {t : State σ} (h : (cancelAckTimer s : Out κ σ ε (State σ)) = (es, t)) :
    (∀ e ∈ es, e.Quiet) ∧ t = { s with ackTimer := false } := by
  unfold cancelAckTimer at h
  split at h
  · cases h
    exact ⟨by simp [Effect.Quiet], rfl⟩
  · rename_i off
    cases h
    refine ⟨by simp, ?_⟩
    simp only [Bool.not_eq_true] at off
    rw [← off]

/-- Cancelling the reconnect timer is quiet. -/
lemma cancelReconnectTimer_quiet {t : State σ}
    (h : (cancelReconnectTimer s : Out κ σ ε (State σ)) = (es, t)) :
    (∀ e ∈ es, e.Quiet) ∧ t = { s with reconnectTimer := false } := by
  unfold cancelReconnectTimer at h
  split at h
  · cases h
    exact ⟨by simp [Effect.Quiet], rfl⟩
  · rename_i off
    cases h
    refine ⟨by simp, ?_⟩
    simp only [Bool.not_eq_true] at off
    rw [← off]

/-- Setting the acknowledge timer is quiet. -/
lemma schedulePeriodicAck_quiet {t : State σ}
    (h : (schedulePeriodicAck cfg s : Out κ σ ε (State σ)) = (es, t)) :
    (∀ e ∈ es, e.Quiet) ∧ t = { s with ackTimer := true } := by
  obtain ⟨es₁, u, es₂, hc, hn, rfl⟩ := andThen_eq h
  obtain ⟨silent, rfl⟩ := cancelAckTimer_quiet hc
  cases hn
  refine ⟨fun e he => ?_, rfl⟩
  obtain he | he := List.mem_append.mp he
  · exact silent e he
  · simp only [List.mem_singleton] at he
    subst he
    trivial

/-- Closing the socket is quiet. -/
lemma closeSocket_quiet : ∀ e ∈ (closeSocket s : List (Effect κ σ ε)), e.Quiet := by
  unfold closeSocket
  split <;> simp [Effect.Quiet]

/-- A process without a connection that waits for the next attempt, or gives up. -/
lemma scheduleReconnect_turns {reason : Reason} (phase : s.state = .init) (socket : s.socket = none)
    (h : scheduleReconnect cfg reason s = (es, st)) :
    Turns cfg s es st ∧ ∀ s', st = .running s' → Wired s' := by
  obtain ⟨es₁, u, es₂, hc, hn, rfl⟩ := andThen_eq h
  cases hc
  obtain ⟨es₃, t, es₄, hc, hn, rfl⟩ := andThen_eq hn
  obtain ⟨silent, rfl⟩ := cancelReconnectTimer_quiet hc
  split at hn
  · cases hn
    refine ⟨Turns.quiet (fun e he => ?_) ⟨rfl, rfl, rfl, rfl, rfl, rfl, .inl phase.symm⟩, ?_⟩
    · obtain he | he := List.mem_append.mp he
      · exact closeSocket_quiet e he
      · obtain he | he := List.mem_append.mp he
        · exact silent e he
        · simp only [List.mem_singleton] at he
          subst he
          trivial
    · rintro s' ⟨⟩
      exact ⟨fun _ => rfl, fun _ => socket⟩
  · cases hn
    refine ⟨?_, by rintro s' ⟨⟩⟩
    rw [List.append_nil]
    refine Turns.quietly closeSocket_quiet ⟨rfl, rfl, rfl, rfl, rfl, rfl, .inl rfl⟩ ?_
    rw [← List.append_nil es₃]
    exact Turns.quietly silent ⟨rfl, rfl, rfl, rfl, rfl, rfl, .inl rfl⟩ .halt

/-- A disconnect is made of turns. -/
lemma handleDisconnect_turns {reason : Reason} (h : handleDisconnect cfg reason s = (es, st)) :
    Turns cfg s es st ∧ ∀ s', st = .running s' → Wired s' := by
  obtain ⟨es₁, u, es₂, hc, hn, rfl⟩ := andThen_eq h
  cases hc
  obtain ⟨es₃, t, es₄, hc, hn, rfl⟩ := andThen_eq hn
  obtain ⟨silent, rfl⟩ := cancelAckTimer_quiet hc
  obtain ⟨turns, wired⟩ := scheduleReconnect_turns (s := dropped { s with ackTimer := false })
    rfl rfl hn
  refine ⟨?_, wired⟩
  refine Turns.quietly closeSocket_quiet ⟨rfl, rfl, rfl, rfl, rfl, rfl, .inl rfl⟩ ?_
  have same : SameLink s { s with ackTimer := false } := ⟨rfl, rfl, rfl, rfl, rfl, rfl, .inl rfl⟩
  exact Turns.quietly silent same ((Turns.one .drop).append turns)

/-! ### Connecting -/

/-- A request of the handshake, sent or not. -/
lemma sendRequest_quiet {env : Answers} {request : Request} {phase : Phase}
    {result : Except Reason (State σ)} (plain : (Effect.send request : Effect κ σ ε).Quiet)
    (h : sendRequest env request phase s = (es, result)) :
    (∀ e ∈ es, e.Quiet) ∧ ∀ s', result = .ok s' → s' = { s with state := phase } := by
  obtain ⟨es₁, sent, es₂, ht, hn, rfl⟩ := andThen_eq h
  unfold transportSend at ht
  split at ht <;> cases ht <;> cases hn
  · refine ⟨by simpa using plain, ?_⟩
    rintro s' ⟨⟩
    rfl
  · exact ⟨by simp, by rintro s' ⟨⟩⟩

/-- The first request is quiet, and leads to its phase. -/
lemma proceedAfterConnect_quiet {env : Answers} {result : Except Reason (State σ)}
    (h : proceedAfterConnect cfg env s = (es, result)) :
    (∀ e ∈ es, e.Quiet) ∧ ∀ s', result = .ok s' →
      ∃ phase, (phase = .auth ∨ phase = .ping) ∧ s' = { s with state := phase } := by
  unfold proceedAfterConnect at h
  split at h
  · rename_i password _
    have plain : (Effect.send (.auth cfg.username password) : Effect κ σ ε).Quiet := trivial
    obtain ⟨silent, ok⟩ := sendRequest_quiet plain h
    exact ⟨silent, fun s' e => ⟨.auth, .inl rfl, ok s' e⟩⟩
  · have plain : (Effect.send .ping : Effect κ σ ε).Quiet := trivial
    obtain ⟨silent, ok⟩ := sendRequest_quiet plain h
    exact ⟨silent, fun s' e => ⟨.ping, .inr rfl, ok s' e⟩⟩

/-- A connection is made quietly, with the first request sent. -/
lemma connect_quiet {env : Answers} {result : Except Reason (State σ)}
    (h : connect cfg env s = (es, result)) :
    (∀ e ∈ es, e.Quiet) ∧ ∀ s', result = .ok s' → ∃ socket phase,
      (phase = .auth ∨ phase = .ping) ∧ s' = { s with socket := some socket, state := phase } := by
  unfold connect at h
  split at h
  · rename_i socket _
    split at h
    · obtain ⟨silent, ok⟩ := proceedAfterConnect_quiet h
      refine ⟨silent, fun s' e => ?_⟩
      obtain ⟨phase, early, rfl⟩ := ok s' e
      exact ⟨socket, phase, early, rfl⟩
    · cases h
      exact ⟨by simp, by rintro s' ⟨⟩⟩
  · cases h
    exact ⟨by simp, by rintro s' ⟨⟩⟩

/-- An attempt to connect is made of turns. -/
lemma handleContinue_turns {env : Answers} (phase : s.state = .init) (socket : s.socket = none)
    (h : handleContinue cfg env s = (es, st)) :
    Turns cfg s es st ∧ ∀ s', st = .running s' → Wired s' := by
  obtain ⟨es₁, result, es₂, hc, hn, rfl⟩ := andThen_eq h
  obtain ⟨silent, ok⟩ := connect_quiet hc
  split at hn
  · rename_i connected
    obtain ⟨es₃, t, es₄, ht, hn, rfl⟩ := andThen_eq hn
    obtain ⟨silent', rfl⟩ := cancelReconnectTimer_quiet ht
    cases hn
    obtain ⟨socket, next, early, rfl⟩ := ok connected rfl
    have early' : s.state ≠ .replication ∧ next ≠ .replication ∧ next ≠ .psync := by
      rw [phase]
      obtain rfl | rfl := early <;> decide
    refine ⟨?_, ?_⟩
    · rw [List.append_nil]
      refine Turns.quiet (fun e he => ?_) ⟨rfl, rfl, rfl, rfl, rfl, rfl, .inr early'⟩
      obtain he | he := List.mem_append.mp he
      · exact silent e he
      · exact silent' e he
    · rintro s' ⟨⟩
      exact ⟨nofun, nofun⟩
  · cases hn
    exact ⟨Turns.quietly silent ⟨rfl, rfl, rfl, rfl, rfl, rfl, .inl rfl⟩ .halt, by rintro s' ⟨⟩⟩
  · obtain ⟨turns, wired⟩ := scheduleReconnect_turns phase socket hn
    exact ⟨Turns.quietly silent ⟨rfl, rfl, rfl, rfl, rfl, rfl, .inl rfl⟩ turns, wired⟩

/-! ### Replies of the handshake -/

/-- A handler of data in turns: the socket and the reconnect timer stay as they are. -/
structure InTurns (cfg : Config κ σ ε μ) (s : State σ) (es : List (Effect κ σ ε))
    (handled : Handled σ) : Prop where
  turns : Turns cfg s es handled.status
  socket : ∀ s', handled = .noreply s' → s'.socket = s.socket
  reconnectTimer : ∀ s', handled = .noreply s' → s'.reconnectTimer = s.reconnectTimer

variable {env : Answers} {handled : Handled σ}

/-- A handler that stops at once takes no turn. -/
lemma InTurns.stop {reason : Reason} : InTurns cfg s [] (.stop reason) :=
  ⟨.halt, by rintro _ ⟨⟩, by rintro _ ⟨⟩⟩

/-- Waiting for the rest, or reconnecting, is no turn of its own. -/
lemma InTurns.unchanged (h : handled = .noreply s ∨ ∃ reason, handled = .reconnect reason s) :
    InTurns cfg s [] handled := by
  obtain rfl | ⟨reason, rfl⟩ := h
  · exact ⟨.nil, by rintro _ ⟨⟩; rfl, by rintro _ ⟨⟩; rfl⟩
  · exact ⟨.nil, by rintro _ ⟨⟩, by rintro _ ⟨⟩⟩

/-- The buffer is no field of the link. -/
lemma InTurns.of_buffer {buffer : Bytes} (h : InTurns cfg { s with buffer } es handled) :
    InTurns cfg s es handled :=
  have same : SameLink s { s with buffer } := ⟨rfl, rfl, rfl, rfl, rfl, rfl, .inl rfl⟩
  ⟨Turns.silently same h.turns, h.socket, h.reconnectTimer⟩

/-- A simple reply is handled in turns if what comes behind it is. -/
lemma onSimpleResponse_inTurns {what : String} {next : State σ → Out κ σ ε (Handled σ)}
    (h : onSimpleResponse what s next = (es, handled))
    (hn : ∀ rest es handled, next { s with buffer := rest } = (es, handled) →
      InTurns cfg { s with buffer := rest } es handled) : InTurns cfg s es handled := by
  unfold onSimpleResponse at h
  split at h
  · exact (hn _ _ _ h).of_buffer
  · cases h
    exact .unchanged (.inl rfl)
  · cases h
    exact .unchanged (.inr ⟨_, rfl⟩)

/-- A request of the handshake before `PSYNC`. -/
lemma sendRequest_inTurns (request : Request) {next : Phase} {onError : Reason → Handled σ}
    (plain : (Effect.send request : Effect κ σ ε).Quiet) (phase : s.state ≠ .replication)
    (early : next ≠ .replication ∧ next ≠ .psync)
    (fails : ∀ reason, InTurns cfg s [] (onError reason))
    (h : (sendRequest env request next s).andThen (fun
      | .ok s => ([], .noreply s)
      | .error reason => ([], onError reason)) = (es, handled)) : InTurns cfg s es handled := by
  obtain ⟨es₁, result, es₂, hs, hn, rfl⟩ := andThen_eq h
  obtain ⟨silent, ok⟩ := sendRequest_quiet plain hs
  split at hn
  · cases hn
    obtain rfl := ok _ rfl
    rw [List.append_nil]
    refine ⟨.quiet silent ⟨rfl, rfl, rfl, rfl, rfl, rfl, .inr ⟨phase, early⟩⟩, ?_, ?_⟩
    · rintro _ ⟨⟩
      rfl
    · rintro _ ⟨⟩
      rfl
  · cases hn
    obtain ⟨turns, socket, timer⟩ := fails ‹_›
    exact ⟨Turns.quietly silent ⟨rfl, rfl, rfl, rfl, rfl, rfl, .inl rfl⟩ turns, socket, timer⟩

/-- The PSYNC request is sent in turns. -/
lemma sendPsync_inTurns (phase : s.state ≠ .replication)
    (h : orStop "psync_failed" (sendPsync env s) = (es, handled)) : InTurns cfg s es handled := by
  obtain ⟨es₁, result, es₂, hs, hn, rfl⟩ := andThen_eq h
  rw [sendPsync, sendRequest] at hs
  obtain ⟨es₃, sent, es₄, ht, hm, rfl⟩ := andThen_eq hs
  unfold transportSend at ht
  split at ht <;> cases ht <;> cases hm <;> cases hn
  · simp only [List.append_nil]
    refine ⟨.one (.psync phase), ?_, ?_⟩
    · rintro _ ⟨⟩
      rfl
    · rintro _ ⟨⟩
      rfl
  · exact .stop

/-! ### Replication data -/

/-- What `handle_replication_data` does, case by case. -/
inductive Receives (cfg : Config κ σ ε μ) (env : Answers) (data : Bytes) (s : State σ) :
    List (Effect κ σ ε) → Handled σ → Prop where
  | noParser (hp : s.replicaParser = none) : Receives cfg env data s [] (.stop .raised)
  | refused {parser : ReplicaParser.ParserState} {fault : Fault} {handled : Handled σ}
      (hp : s.replicaParser = some parser) (hf : ReplicaParser.feedData parser data = .error fault)
      (hh : (∃ reason, handled = .reconnect reason s) ∨ handled = .stop .raised) :
      Receives cfg env data s [.parserData data (.error fault)] handled
  | unparsed {parser newParser : ReplicaParser.ParserState} {fed : ReplicaParser.Fed}
      (hp : s.replicaParser = some parser)
      (hf : ReplicaParser.feedData parser data = .ok (newParser, fed))
      (hc : Parser.convertCommands cfg.parse fed.commands = none) :
      Receives cfg env data s [.parserData data (.ok fed)] (.stop .raised)
  | notStarted {parser newParser : ReplicaParser.ParserState} {fed : ReplicaParser.Fed}
      {commands : List (ReplicaCommand κ)} {acks started : List (Effect κ σ ε)} {reason : Reason}
      (hp : s.replicaParser = some parser)
      (hf : ReplicaParser.feedData parser data = .ok (newParser, fed))
      (hc : Parser.convertCommands cfg.parse fed.commands = some commands)
      (ha : acks = if fed.pingReceived ∨ fed.replconfGetackReceived
        then sendReplconfAck env { s with replicaParser := some newParser } else [])
      (hs : startStreaming cfg parser.state newParser.state { s with
        replicaParser := some newParser
        replicationOffset := if parser.state = .streaming
          then s.replicationOffset + data.length else s.replicationOffset } =
          (started, .error reason)) :
      Receives cfg env data s (.parserData data (.ok fed) :: (acks ++ started)) (.stop reason)
  | accepted {parser newParser : ReplicaParser.ParserState} {fed : ReplicaParser.Fed}
      {commands : List (ReplicaCommand κ)} {acks started calls : List (Effect κ σ ε)} {t : State σ}
      {result : Except Reason (State σ)} {handled : Handled σ} (hp : s.replicaParser = some parser)
      (hf : ReplicaParser.feedData parser data = .ok (newParser, fed))
      (hc : Parser.convertCommands cfg.parse fed.commands = some commands)
      (ha : acks = if fed.pingReceived ∨ fed.replconfGetackReceived
        then sendReplconfAck env { s with replicaParser := some newParser } else [])
      (hs : startStreaming cfg parser.state newParser.state { s with
        replicaParser := some newParser
        replicationOffset := if parser.state = .streaming
          then s.replicationOffset + data.length else s.replicationOffset } = (started, .ok t))
      (hk : processCommands cfg commands t = (calls, result))
      (hh : (∃ s', result = .ok s' ∧ handled = .noreply s') ∨
        ∃ reason, result = .error reason ∧ handled = .stop (.failed "callback_failed" reason)) :
      Receives cfg env data s (.parserData data (.ok fed) :: (acks ++ (started ++ calls))) handled

/-- Replication data are received in one of the ways. -/
theorem handleReplicationData_receives {data : Bytes}
    (h : handleReplicationData cfg env data s = (es, handled)) :
    Receives cfg env data s es handled := by
  unfold handleReplicationData at h
  split at h
  · cases h
    exact .noParser ‹_›
  rename_i parser hp
  obtain ⟨es₁, u, es₂, hd, hn, rfl⟩ := andThen_eq h
  cases hd
  unfold Parser.data at hn
  cases hf : ReplicaParser.feedData parser data with
  | error fault =>
    cases fault with
    | err msg =>
      simp only [hf] at hn
      cases hn
      exact .refused hp hf (.inl ⟨_, rfl⟩)
    | panic msg =>
      simp only [hf] at hn
      cases hn
      exact .refused hp hf (.inr rfl)
  | ok r =>
    obtain ⟨newParser, fed⟩ := r
    cases hc : Parser.convertCommands cfg.parse fed.commands with
    | none =>
      simp only [hf, hc] at hn
      cases hn
      exact .unparsed hp hf hc
    | some commands =>
      simp only [hf, hc] at hn
      -- the acknowledgement, the start of the stream and the calls; each of the last two may stop
      -- the process
      obtain ⟨acks, u, es₃, ha, hm, rfl⟩ := andThen_eq hn
      cases ha
      obtain ⟨started, start, es₄, hs, hr, rfl⟩ := andThen_eq hm
      cases start with
      | error reason =>
        cases hr
        rw [List.append_nil, List.singleton_append]
        exact .notStarted hp hf hc rfl hs
      | ok t =>
        obtain ⟨calls, result, es₅, hk, he, rfl⟩ := andThen_eq hr
        cases result with
        | ok s' =>
          cases he
          rw [List.append_nil, List.singleton_append]
          exact .accepted hp hf hc rfl hs hk (.inl ⟨_, rfl, rfl⟩)
        | error reason =>
          cases he
          rw [List.append_nil, List.singleton_append]
          exact .accepted hp hf hc rfl hs hk (.inr ⟨_, rfl, rfl⟩)

/-- A call of the callback module whose error is passed on. -/
lemma ofCallback_eq {function : CallbackFunction} {result : List ε × Except Reason σ}
    {next : Except Reason σ → Out κ σ ε (Except Reason (State σ))}
    {answer : Except Reason (State σ)} {goOn : σ → State σ}
    (h : (ofCallback function result).andThen next = (es, answer))
    (goesOn : ∀ callbackState, next (.ok callbackState) = ([], .ok (goOn callbackState)))
    (stops : ∀ reason, ∃ reason', next (.error reason) = ([], .error reason')) :
    es = answers function result ∧ ∀ t, answer = .ok t → ∃ callbackState, result.2 =
      .ok callbackState ∧ t = goOn callbackState := by
  obtain ⟨es₁, returned, es₂, hc, hn, rfl⟩ := andThen_eq h
  cases hc
  cases e : result.2 with
  | ok callbackState =>
    rw [e, goesOn] at hn
    cases hn
    refine ⟨List.append_nil _, ?_⟩
    rintro t ⟨⟩
    exact ⟨callbackState, rfl, rfl⟩
  | error reason =>
    obtain ⟨reason', stop⟩ := stops reason
    rw [e, stop] at hn
    cases hn
    refine ⟨List.append_nil _, ?_⟩
    rintro t ⟨⟩

/-- `handle_streaming_start` is called in the chunk in which the parser starts streaming. -/
lemma startStreaming_eq {before after : ReplicaParser.ReplicaState} {started : List (Effect κ σ ε)}
    {start : Except Reason (State σ)} (h : startStreaming cfg before after s = (started, start)) :
    (before ≠ .streaming ∧ after = .streaming ∧
      started = answers .handleStreamingStart (cfg.callback.handleStreamingStart s.callbackState) ∧
      ∀ t, start = .ok t → ∃ callbackState,
        (cfg.callback.handleStreamingStart s.callbackState).2 = .ok callbackState ∧
        t = { s with callbackState }) ∨
    ¬ (before ≠ .streaming ∧ after = .streaming) ∧ started = [] ∧ start = .ok s := by
  unfold startStreaming at h
  split at h
  · rename_i starts
    exact .inl ⟨starts.1, starts.2, ofCallback_eq h (fun _ => rfl) fun _ => ⟨_, rfl⟩⟩
  · cases h
    exact .inr ⟨‹_›, rfl, rfl⟩

/-- `handle_commands` is called with what the filter leaves, if that is anything. -/
lemma processCommands_eq {commands : List (ReplicaCommand κ)} {calls : List (Effect κ σ ε)}
    {result : Except Reason (State σ)} (h : processCommands cfg commands s = (calls, result)) :
    (cfg.commandFilter.applyPre commands = [] ∧ calls = [] ∧ result = .ok s) ∨
    (cfg.commandFilter.applyPre commands ≠ [] ∧
      calls = .handleCommands s.callbackState (cfg.commandFilter.applyPre commands) ::
        answers .handleCommands
          (cfg.callback.handleCommands s.callbackState (cfg.commandFilter.applyPre commands)) ∧
      ∀ t, result = .ok t → ∃ callbackState,
        (cfg.callback.handleCommands s.callbackState
          (cfg.commandFilter.applyPre commands)).2 = .ok callbackState ∧
        t = { s with callbackState }) := by
  unfold processCommands doProcessCommands at h
  split at h
  · rename_i nowhere
    cases h
    exact .inl ⟨nowhere, rfl, rfl⟩
  · rename_i filled
    obtain ⟨es₁, u, es₂, hc, hn, rfl⟩ := andThen_eq h
    cases hc
    obtain ⟨rfl, ok⟩ := ofCallback_eq hn (fun _ => rfl) fun _ => ⟨_, rfl⟩
    exact .inr ⟨filled, rfl, ok⟩

/-- Of the state, an accepted chunk changes the parser, the offset and the callback state. -/
lemma accepted_state {data : Bytes} (h : handleReplicationData cfg env data s = (es, .noreply s')) :
    ∃ parser newParser fed callbackState, s.replicaParser = some parser ∧
      ReplicaParser.feedData parser data = .ok (newParser, fed) ∧ s' = { s with
        callbackState
        replicaParser := some newParser
        replicationOffset := if parser.state = .streaming
          then s.replicationOffset + data.length else s.replicationOffset } := by
  generalize hr : Handled.noreply s' = handled at h
  cases handleReplicationData_receives h with
  | noParser => cases hr
  | refused _ _ hh => obtain ⟨_, rfl⟩ | rfl := hh <;> cases hr
  | unparsed => cases hr
  | notStarted => cases hr
  | @accepted parser newParser fed commands acks started calls t result handled hp hf hc
    ha hs hk hh =>
    refine ⟨parser, newParser, fed, ?_⟩
    obtain ⟨u, rfl, rfl⟩ | ⟨reason, -, rfl⟩ := hh
    · cases hr
      obtain ⟨-, -, -, ok⟩ | ⟨-, -, ok⟩ := startStreaming_eq hs
      · obtain ⟨cs, -, rfl⟩ := ok t rfl
        obtain ⟨-, -, same⟩ | ⟨-, -, ok⟩ := processCommands_eq hk
        · cases same
          exact ⟨cs, hp, hf, rfl⟩
        · obtain ⟨cs', -, rfl⟩ := ok s' rfl
          exact ⟨cs', hp, hf, rfl⟩
      · cases ok
        obtain ⟨-, -, same⟩ | ⟨-, -, ok⟩ := processCommands_eq hk
        · cases same
          exact ⟨s.callbackState, hp, hf, rfl⟩
        · obtain ⟨cs', -, rfl⟩ := ok s' rfl
          exact ⟨cs', hp, hf, rfl⟩
    · cases hr

/-- Replication data are handled in turns. -/
lemma handleReplicationData_inTurns {data : Bytes} (phase : s.state = .replication)
    (h : handleReplicationData cfg env data s = (es, handled)) : InTurns cfg s es handled where
  turns := .one (.feed phase h)
  socket := by
    rintro s' rfl
    obtain ⟨_, _, _, _, -, -, rfl⟩ := accepted_state h
    rfl
  reconnectTimer := by
    rintro s' rfl
    obtain ⟨_, _, _, _, -, -, rfl⟩ := accepted_state h
    rfl

/-! ### The reply to PSYNC -/

/-- What a completed `PSYNC` makes of the state. -/
def completed (s : State σ) (callbackState : σ) : PsyncReply → State σ
  | .fullresync replicationId offset => { s with
      callbackState
      replicationId := some replicationId
      replicationOffset := offset
      replicaParser := some (.new false)
      state := .replication }
  | .continued => { s with
      callbackState
      replicationId := s.savedReplicationId
      replicationOffset := s.savedReplicationOffset
      replicaParser := some (.new true)
      state := .replication }

/-- `handle_replication_start` is called for a full resync only. -/
lemma handlePsyncCompleted_eq {reply : PsyncReply} {result : Except Reason (State σ)}
    (h : handlePsyncCompleted cfg reply s = (es, result)) :
    (∃ replicationId offset, reply = .fullresync replicationId offset ∧
      es = .psyncCompleted reply ::
        answers .handleReplicationStart (cfg.callback.handleReplicationStart s.callbackState) ∧
      ∀ t, result = .ok t → ∃ callbackState,
        (cfg.callback.handleReplicationStart s.callbackState).2 = .ok callbackState ∧
        t = completed s callbackState reply) ∨
    (reply = .continued ∧ es = [.psyncCompleted reply] ∧
      result = .ok (completed s s.callbackState reply)) := by
  unfold handlePsyncCompleted at h
  obtain ⟨es₁, u, es₂, hc, hn, rfl⟩ := andThen_eq h
  cases hc
  cases reply with
  | fullresync replicationId offset =>
    obtain ⟨rfl, ok⟩ := ofCallback_eq hn (fun _ => rfl) fun _ => ⟨_, rfl⟩
    exact .inl ⟨replicationId, offset, rfl, rfl, ok⟩
  | continued =>
    cases hn
    exact .inr ⟨rfl, rfl, rfl⟩

/-- The two fields that no turn of a reply to `PSYNC` changes. -/
lemma handlePsyncCompleted_wires {reply : PsyncReply} {t : State σ}
    (h : handlePsyncCompleted cfg reply s = (es, .ok t)) :
    t.socket = s.socket ∧ t.reconnectTimer = s.reconnectTimer ∧ t.state = .replication := by
  obtain ⟨replicationId, offset, rfl, -, ok⟩ | ⟨rfl, -, ok⟩ := handlePsyncCompleted_eq h
  · obtain ⟨cs, -, rfl⟩ := ok t rfl
    exact ⟨rfl, rfl, rfl⟩
  · cases ok
    exact ⟨rfl, rfl, rfl⟩

/-- The reply to PSYNC is handled in turns. -/
lemma handlePsyncResponse_inTurns (phase : s.state = .psync)
    (h : handlePsyncResponse cfg env s = (es, handled)) : InTurns cfg s es handled := by
  unfold handlePsyncResponse at h
  split at h
  · cases h
    exact .unchanged (.inl rfl)
  · cases h
    exact .stop
  · cases h
    exact .unchanged (.inr ⟨_, rfl⟩)
  · rename_i reply rest _
    obtain ⟨es₁, result, es₂, hc, hn, rfl⟩ := andThen_eq h
    -- the reply is taken off the buffer in front of the first turn
    suffices behind : InTurns cfg { s with buffer := rest } (es₁ ++ es₂)
      handled from behind.of_buffer
    cases result with
    | error reason =>
      cases hn
      rw [List.append_nil]
      exact ⟨.one (.startFails phase hc), by rintro _ ⟨⟩, by rintro _ ⟨⟩⟩
    | ok t =>
      obtain ⟨socket, timer, phase'⟩ := handlePsyncCompleted_wires hc
      have first : Turns cfg { s with buffer := rest } es₁ (.running t) := .one (.complete phase hc)
      obtain ⟨es₃, u, es₄, ht, hm, rfl⟩ := andThen_eq hn
      obtain ⟨silent, rfl⟩ := schedulePeriodicAck_quiet ht
      have same : SameLink t { t with ackTimer := true } := ⟨rfl, rfl, rfl, rfl, rfl, rfl, .inl rfl⟩
      split at hm
      · cases hm
        rw [List.append_nil]
        refine ⟨first.append (.quiet silent same), ?_, ?_⟩
        · rintro _ ⟨⟩
          exact socket
        · rintro _ ⟨⟩
          exact timer
      · have fed := handleReplicationData_inTurns (by exact phase') hm
        refine ⟨first.append (.quietly silent same fed.of_buffer.turns), ?_, ?_⟩
        · exact fun s' e => (fed.socket s' e).trans socket
        · exact fun s' e => (fed.reconnectTimer s' e).trans timer

/-! ## One message -/

/-- Data are handled in turns in every phase. -/
lemma dispatchData_inTurns {data : Bytes} (h : dispatchData cfg env data s = (es, handled)) :
    InTurns cfg s es handled := by
  have other (p : Phase) (hp : s.state = p) (hn : p ≠ .replication) :
      ({ s with buffer := s.buffer ++ data } : State σ).state ≠ .replication := by
    rw [← hp] at hn
    exact hn
  unfold dispatchData at h
  split at h
  · exact handleReplicationData_inTurns ‹_› h
  · refine InTurns.of_buffer (onSimpleResponse_inTurns h fun rest es handled h => ?_)
    exact sendRequest_inTurns .replconfListeningPort trivial
      (other .ping ‹_› (by decide)) (by decide)
        (fun _ => .stop) h
  · refine InTurns.of_buffer (onSimpleResponse_inTurns h fun rest es handled h => ?_)
    exact sendRequest_inTurns .ping trivial (other .auth ‹_› (by decide)) (by decide)
      (fun _ => .unchanged (.inr ⟨_, rfl⟩)) h
  · refine InTurns.of_buffer (onSimpleResponse_inTurns h fun rest es handled h => ?_)
    exact sendRequest_inTurns .replconfCapa trivial
      (other .replconfListeningPort ‹_› (by decide)) (by decide)
      (fun _ => .stop) h
  · refine InTurns.of_buffer (onSimpleResponse_inTurns h fun rest es handled h => ?_)
    exact sendPsync_inTurns (other .replconfCapa ‹_› (by decide)) h
  · exact InTurns.of_buffer (handlePsyncResponse_inTurns (by assumption) h)
  · cases h
    exact .stop

/-- The handling of data is made of turns. -/
lemma handleData_turns {data : Bytes} (wired : Wired s) (socket : s.socket ≠ none)
    (h : handleData cfg env data s = (es, st)) :
    Turns cfg s es st ∧ ∀ s', st = .running s' → Wired s' := by
  obtain ⟨es₁, handled, es₂, hd, hn, rfl⟩ := andThen_eq h
  have inTurns := dispatchData_inTurns hd
  cases handled with
  | noreply t =>
    cases hn
    have kept : t.socket ≠ none := by rwa [inTurns.socket t rfl]
    have timer : t.reconnectTimer = true → t.socket = none := by
      rw [inTurns.reconnectTimer t rfl, inTurns.socket t rfl]
      exact wired.socket_of_timer
    split
    · refine ⟨by rw [List.append_nil]; exact inTurns.turns, ?_⟩
      rintro s' ⟨⟩
      exact ⟨fun e => absurd e kept, timer⟩
    · exact ⟨inTurns.turns.append .halt, by rintro s' ⟨⟩⟩
  | reconnect reason t =>
    obtain ⟨turns, wired⟩ := handleDisconnect_turns hn
    exact ⟨inTurns.turns.append turns, wired⟩
  | stop reason =>
    cases hn
    exact ⟨by rw [List.append_nil]; exact inTurns.turns, by rintro s' ⟨⟩⟩

/-- An acknowledgement is a turn. -/
lemma sendReplconfAck_turns (s : State σ) : Turns cfg s (sendReplconfAck env s) (.running s) := by
  unfold sendReplconfAck
  split
  · rename_i streaming
    unfold transportSend
    split
    · exact .one (.ack streaming.2)
    · exact .nil
  · exact .nil

/-- The callback module has answered a call or a message. -/
lemma consulted_turns {function : CallbackFunction} {result : List ε × Except Reason σ}
    (turn : Turn cfg s (answers function result) (.running (consulted s result.2)))
    (h : (ofCallback function result : Out κ σ ε (Except Reason σ)).andThen (fun
      | .ok callbackState => ([], .running { s with callbackState })
      | .error .raised => ([], .stopped .raised)
      | .error _ => ([], .running s)) = (es, st)) :
    Turns cfg s es st ∧ ∀ s', st = .running s' → s' = consulted s result.2 := by
  obtain ⟨es₁, answer, es₂, hc, hn, rfl⟩ := andThen_eq h
  cases hc
  split at hn
  · rename_i callbackState ok
    cases hn
    rw [ok] at turn ⊢
    refine ⟨by rw [List.append_nil]; exact .one turn, ?_⟩
    rintro s' ⟨⟩
    rfl
  · rename_i raised
    cases hn
    exact ⟨(Turns.one turn).append .halt, by rintro s' ⟨⟩⟩
  · rename_i reason _ failed
    cases hn
    rw [failed] at turn ⊢
    refine ⟨by rw [List.append_nil]; exact .one turn, ?_⟩
    rintro s' ⟨⟩
    rfl

/-- A call of the callback changes no wire. -/
lemma Wired.consulted (wired : Wired s) (result : Except Reason σ) :
    Wired (consulted s result) := by
  cases result with
  | ok callbackState => exact ⟨wired.init_of_socket, wired.socket_of_timer⟩
  | error reason => exact wired

/-- What one message can do. -/
theorem handleMessage_turns {message : Message μ} (wired : Wired s)
    (h : handleMessage cfg env message s = (es, st)) :
    Turns cfg s es st ∧ ∀ s', st = .running s' → Wired s' := by
  -- messages of a socket or a timer that is no longer the current one
  have ignored (h : (([], .running s) : Out κ σ ε (Status σ)) = (es, st)) :
      Turns cfg s es st ∧ ∀ s', st = .running s' → Wired s' := by
    cases h
    refine ⟨.nil, ?_⟩
    rintro s' ⟨⟩
    exact wired
  cases message with
  | data socket data =>
    simp only [handleMessage] at h
    split at h
    · rename_i here
      exact handleData_turns wired (by rw [here]; simp) h
    · exact ignored h
  | closed socket =>
    simp only [handleMessage] at h
    split at h
    · exact handleDisconnect_turns h
    · exact ignored h
  | failed socket reason =>
    simp only [handleMessage] at h
    split at h
    · exact handleDisconnect_turns h
    · exact ignored h
  | reconnectTimeout =>
    simp only [handleMessage] at h
    split at h
    · rename_i waiting
      have nowhere := wired.socket_of_timer waiting
      have same : SameLink s { s with reconnectTimer := false } :=
        ⟨rfl, rfl, rfl, rfl, rfl, rfl, .inl rfl⟩
      obtain ⟨turns, wired'⟩ := handleContinue_turns
        (s := { s with reconnectTimer := false }) (wired.init_of_socket nowhere) nowhere h
      exact ⟨.silently same turns, wired'⟩
    · exact ignored h
  | sendPeriodicAck =>
    simp only [handleMessage] at h
    obtain ⟨es₁, u, es₂, ha, hn, rfl⟩ := andThen_eq h
    cases ha
    obtain ⟨es₃, t, es₄, ht, hm, rfl⟩ := andThen_eq hn
    obtain ⟨silent, rfl⟩ := schedulePeriodicAck_quiet ht
    cases hm
    refine ⟨?_, ?_⟩
    · rw [List.append_nil]
      exact (sendReplconfAck_turns s).append
        (.quiet silent ⟨rfl, rfl, rfl, rfl, rfl, rfl, .inl rfl⟩)
    · rintro s' ⟨⟩
      exact ⟨wired.init_of_socket, wired.socket_of_timer⟩
  | callbackCall message =>
    simp only [handleMessage, callbackCall] at h
    split at h
    · obtain ⟨turns, eq⟩ := consulted_turns .call h
      exact ⟨turns, fun s' e => by rw [eq s' e]; exact wired.consulted _⟩
    · exact ignored h
  | info message =>
    simp only [handleMessage, callbackInfo] at h
    obtain ⟨turns, eq⟩ := consulted_turns .info h
    exact ⟨turns, fun s' e => by rw [eq s' e]; exact wired.consulted _⟩

/-! ## Runs -/

/-- The process was started and has handled messages. -/
inductive Run (cfg : Config κ σ ε μ) : List (Effect κ σ ε) → Status σ → Prop where
  | start {env : Answers} {es : List (Effect κ σ ε)} {st : Status σ}
      (h : start cfg env = (es, st)) :
      Run cfg es st
  | step {trace es : List (Effect κ σ ε)} {s : State σ} {st : Status σ} {env : Answers}
      {message : Message μ} (before : Run cfg trace (.running s))
      (h : handleMessage cfg env message s = (es, st)) : Run cfg (trace ++ es) st

/-- What turns keep, a chain of turns keeps. -/
lemma turns_preserve (Inv : List (Effect κ σ ε) → Status σ → Prop)
    (turn : ∀ {trace s es st}, Inv trace (.running s) → Turn cfg s es st → Inv (trace ++ es) st)
    {trace : List (Effect κ σ ε)} (inv : Inv trace (.running s)) (h : Turns cfg s es st) :
    Inv (trace ++ es) st := by
  induction h generalizing trace with
  | nil => rwa [List.append_nil]
  | one t => exact turn inv t
  | append _ _ ih₁ ih₂ =>
    rw [← List.append_assoc]
    exact ih₂ (ih₁ inv)

/-- Between two messages, the socket and the reconnect timer go with the phase. -/
lemma run_wired {trace : List (Effect κ σ ε)} (h : Run cfg trace st) :
    ∀ s, st = .running s → Wired s := by
  induction h with
  | start h =>
    obtain ⟨es₁, result, es₂, hc, hn, rfl⟩ := andThen_eq h
    cases result with
    | ok callbackState => exact (handleContinue_turns rfl rfl hn).2
    | error reason =>
      cases hn
      rintro _ ⟨⟩
  | step _ h ih => exact (handleMessage_turns (ih _ rfl) h).2

/-- What holds of the initial state and is kept by every turn holds of every run. -/
theorem run_invariant (Inv : List (Effect κ σ ε) → Status σ → Prop)
    (init : ∀ {callbackState}, cfg.callback.init.2 = .ok callbackState →
      Inv (answers .init cfg.callback.init) (.running (.new cfg callbackState)))
    (fails : ∀ {reason reason'}, cfg.callback.init.2 = .error reason →
      Inv (answers .init cfg.callback.init) (.stopped reason'))
    (turn : ∀ {trace s es st}, Inv trace (.running s) → Turn cfg s es st → Inv (trace ++ es) st)
    {trace : List (Effect κ σ ε)} (h : Run cfg trace st) : Inv trace st := by
  induction h with
  | start h =>
    obtain ⟨es₁, result, es₂, hc, hn, rfl⟩ := andThen_eq h
    unfold ofCallback at hc
    cases hc
    cases e : cfg.callback.init.2 with
    | ok callbackState =>
      rw [e] at hn
      exact turns_preserve Inv turn (init e) (handleContinue_turns rfl rfl hn).1
    | error reason =>
      rw [e] at hn
      cases hn
      rw [List.append_nil]
      exact fails e
  | step before h ih =>
    exact turns_preserve Inv turn ih (handleMessage_turns (run_wired before _ rfl) h).1

/-- A run in which `Guard` holds of the state in front of each message and of what is done with the
message. -/
inductive RunWhere (cfg : Config κ σ ε μ) (Guard : State σ → List (Effect κ σ ε) → Prop) :
    List (Effect κ σ ε) → Status σ → Prop where
  | start {env : Answers} {es : List (Effect κ σ ε)} {st : Status σ}
      (h : start cfg env = (es, st)) :
      RunWhere cfg Guard es st
  | step {trace es : List (Effect κ σ ε)} {s : State σ} {st : Status σ} {env : Answers}
      {message : Message μ} (before : RunWhere cfg Guard trace (.running s)) (guard : Guard s es)
      (h : handleMessage cfg env message s = (es, st)) : RunWhere cfg Guard (trace ++ es) st

/-- A run that keeps a condition is a run. -/
lemma RunWhere.run {Guard : State σ → List (Effect κ σ ε) → Prop} {trace : List (Effect κ σ ε)}
    (h : RunWhere cfg Guard trace st) : Run cfg trace st := by
  induction h with
  | start h => exact .start h
  | step _ _ h ih => exact .step ih h

/-! ## Executing a run -/

/-- Handle the messages one after another, with the same answers of the operating system. -/
def handleAll (cfg : Config κ σ ε μ) (env : Answers) :
    List (Message μ) → State σ → Out κ σ ε (Status σ)
  | [], s => ([], .running s)
  | message :: messages, s => (handleMessage cfg env message s).andThen fun
    | .running s => handleAll cfg env messages s
    | .stopped reason => ([], .stopped reason)

/-- Start and handle the messages. -/
def execute (cfg : Config κ σ ε μ) (env : Answers) (messages : List (Message μ)) :
    Out κ σ ε (Status σ) :=
  (start cfg env).andThen fun
    | .running s => handleAll cfg env messages s
    | .stopped reason => ([], .stopped reason)

/-- Messages lead a run on. -/
lemma run_handleAll {messages : List (Message μ)} {trace : List (Effect κ σ ε)}
    (before : Run cfg trace (.running s)) :
    Run cfg (trace ++ (handleAll cfg env messages s).1) (handleAll cfg env messages s).2 := by
  induction messages generalizing trace s with
  | nil =>
    rw [handleAll, List.append_nil]
    exact before
  | cons message messages ih =>
    have first : Run cfg (trace ++ (handleMessage cfg env message s).1)
        (handleMessage cfg env message s).2 := .step before rfl
    rw [handleAll, Out.andThen]
    cases e : (handleMessage cfg env message s).2 with
    | running t =>
      rw [e] at first
      rw [← List.append_assoc]
      exact ih first
    | stopped reason =>
      rw [e] at first
      rw [List.append_nil]
      exact first

/-- An executed run is a run. -/
theorem run_execute (cfg : Config κ σ ε μ) (env : Answers) (messages : List (Message μ)) :
    Run cfg (execute cfg env messages).1 (execute cfg env messages).2 := by
  have first : Run cfg (start cfg env).1 (start cfg env).2 := .start rfl
  rw [execute, Out.andThen]
  cases e : (start cfg env).2 with
  | running s =>
    rw [e] at first
    exact run_handleAll first
  | stopped reason =>
    rw [e] at first
    rw [List.append_nil]
    exact first

/-- Whether a guard holds at each of these messages. -/
def guardedAll (cfg : Config κ σ ε μ) (env : Answers)
    (guard : State σ → List (Effect κ σ ε) → Bool) :
    List (Message μ) → State σ → Bool
  | [], _ => true
  | message :: messages, s => match handleMessage cfg env message s with
    | (es, .running t) => guard s es && guardedAll cfg env guard messages t
    | (es, .stopped _) => guard s es

/-- Whether a guard holds at each message of a run. -/
def guardedRun (cfg : Config κ σ ε μ) (env : Answers) (guard : State σ → List (Effect κ σ ε) → Bool)
    (messages : List (Message μ)) : Bool :=
  match (start cfg env).2 with
  | .running s => guardedAll cfg env guard messages s
  | .stopped _ => true

/-- Messages that pass the check lead a run on under the condition. -/
lemma runWhere_handleAll {Guard : State σ → List (Effect κ σ ε) → Prop}
    {guard : State σ → List (Effect κ σ ε) → Bool} (sound : ∀ s es, guard s es = true → Guard s es)
    {messages : List (Message μ)} {trace : List (Effect κ σ ε)}
    (before : RunWhere cfg Guard trace (.running s))
    (guarded : guardedAll cfg env guard messages s = true) :
    RunWhere cfg Guard (trace ++ (handleAll cfg env messages s).1)
      (handleAll cfg env messages s).2 := by
  induction messages generalizing trace s with
  | nil =>
    rw [handleAll, List.append_nil]
    exact before
  | cons message messages ih =>
    rw [guardedAll] at guarded
    rw [handleAll, Out.andThen]
    cases e : handleMessage cfg env message s with
    | mk es result =>
      cases result with
      | running t =>
        rw [e] at guarded
        obtain ⟨here, later⟩ := (Bool.and_eq_true _ _).mp guarded
        rw [← List.append_assoc]
        exact ih (.step before (sound s es here) e) later
      | stopped reason =>
        rw [e] at guarded
        rw [List.append_nil]
        exact .step before (sound s es guarded) e

/-- An executed run, of which the guard was checked. -/
theorem runWhere_execute {Guard : State σ → List (Effect κ σ ε) → Prop}
    {guard : State σ → List (Effect κ σ ε) → Bool} (sound : ∀ s es, guard s es = true → Guard s es)
    (cfg : Config κ σ ε μ) (env : Answers) (messages : List (Message μ))
    (guarded : guardedRun cfg env guard messages = true) :
    RunWhere cfg Guard (execute cfg env messages).1 (execute cfg env messages).2 := by
  have first : RunWhere cfg Guard (Replica.start cfg env).1 (Replica.start cfg env).2 := .start rfl
  rw [execute, Out.andThen]
  cases e : (Replica.start cfg env).2 with
  | running s =>
    rw [e] at first
    rw [guardedRun, e] at guarded
    exact runWhere_handleAll sound first guarded
  | stopped reason =>
    rw [e] at first
    rw [List.append_nil]
    exact first

/-- A callback module that does nothing, and the default options. -/
def Config.plain : Config Unit Unit Unit Unit where
  parse _ := some ((), [])
  callback :=
    { init := ([], .ok ())
      handleReplicationStart := fun _ => ([], .ok ())
      handleStreamingStart := fun _ => ([], .ok ())
      handleCommands := fun _ _ => ([], .ok ())
      handleCall := fun _ _ => ([], .ok ())
      handleInfo := fun _ _ => ([], .ok ()) }
  commandFilter := .identity
  username := none
  password := none
  reconnectEnabled := true
  reconnectDelayMs := 1000
  maxReconnectDelayMs := 30000
  ackIntervalMs := 1000

/-- Everything that is asked of the operating system succeeds. -/
def Answers.fine : Answers := ⟨.ok 0, true, .ok ()⟩

/-- The replies of the primary before the one to `PSYNC`. -/
def handshake : List (Message μ) :=
  [.data 0 (ascii "+PONG\r\n"), .data 0 (ascii "+OK\r\n"), .data 0 (ascii "+OK\r\n")]

end Replica

end Veidrodelis.RedisStream
