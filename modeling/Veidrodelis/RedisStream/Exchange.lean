import Veidrodelis.RedisStream.Offsets
import Veidrodelis.RedisStream.Replies

/-!
# What the handlers of the handshake exchange

`exchange` reads off the effects of a handler what goes over the connection until replication has
begun: the requests, the reply to `PSYNC` that was taken, and the bytes that were handed to the
replication parser. On a smooth connection every handler of data does one of a few things with the
buffer: `dispatchData_simple` for the simple replies, `handlePsyncResponse_complete` for the reply
to `PSYNC`, and `Replicates.feed` for the payload behind it. Where a handler gives the connection
up, `Rejects` says who refused what.
-/

namespace Veidrodelis.RedisStream
open RedisNif Incremental
open RedisNif.ReplicaParser (Received machine received_nil received_feedData absorbed_feedData
  streaming_absorb)

variable {κ σ ε μ : Type}

namespace Replica

/-! ## What is exchanged -/

/-- What a trace exchanges: the requests of the handshake, the replies to `PSYNC` that were taken,
and the bytes that were handed to the replication parser. -/
structure Exchange where
  requests : List Request
  replies : List PsyncReply
  handed : Bytes
  deriving DecidableEq, Repr

namespace Exchange

def nothing : Exchange := ⟨[], [], []⟩

/-- One exchange after another. -/
def andThen (x y : Exchange) : Exchange :=
  ⟨x.requests ++ y.requests, x.replies ++ y.replies, x.handed ++ y.handed⟩

/-- Nothing behind an exchange changes it not. -/
@[simp] lemma andThen_nothing (x : Exchange) : x.andThen nothing = x := by simp [andThen, nothing]

/-- Nothing in front of an exchange changes it not. -/
@[simp] lemma nothing_andThen (x : Exchange) : nothing.andThen x = x := by simp [andThen, nothing]

/-- Exchanges may be put together in either way. -/
lemma andThen_assoc (x y z : Exchange) : (x.andThen y).andThen z = x.andThen (y.andThen z) := by
  simp [andThen]

end Exchange

/-- `REPLCONF ACK` is no request of the handshake: the primary does not reply to it. -/
def Effect.exchange : Effect κ σ ε → Exchange
  | .send (.replconfAck _) => .nothing
  | .send request => ⟨[request], [], []⟩
  | .psyncCompleted reply => ⟨[], [reply], []⟩
  | .parserData chunk _ => ⟨[], [], chunk⟩
  | _ => .nothing

def exchange : List (Effect κ σ ε) → Exchange
  | [] => .nothing
  | e :: es => e.exchange.andThen (exchange es)

/-- Without effects nothing is exchanged. -/
@[simp] lemma exchange_nil : exchange ([] : List (Effect κ σ ε)) = .nothing := rfl

/-- The first effect, and the others. -/
@[simp] lemma exchange_cons (e : Effect κ σ ε) (es : List (Effect κ σ ε)) :
    exchange (e :: es) = e.exchange.andThen (exchange es) := rfl

/-- The exchange of two parts of a trace. -/
lemma exchange_append (es es' : List (Effect κ σ ε)) :
    exchange (es ++ es') = (exchange es).andThen (exchange es') := by
  induction es with
  | nil => simp
  | cons e es ih => rw [List.cons_append, exchange_cons, ih, exchange_cons, Exchange.andThen_assoc]

/-- What exchanges nothing may follow. -/
lemma exchange_append_nothing {es' : List (Effect κ σ ε)} (es : List (Effect κ σ ε))
    (h : exchange es' = .nothing) : exchange (es ++ es') = exchange es := by
  rw [exchange_append, h, Exchange.andThen_nothing]

/-- Silent effects exchange nothing. -/
lemma exchange_silent {es : List (Effect κ σ ε)} (silent : ∀ e ∈ es, e.exchange = .nothing) :
    exchange es = .nothing := by
  induction es with
  | nil => rfl
  | cons e es ih =>
    obtain ⟨here, later⟩ := List.forall_mem_cons.mp silent
    rw [exchange_cons, here, ih later, Exchange.andThen_nothing]

/-- What the callback answers is no part of the exchange. -/
lemma exchange_answers {function : CallbackFunction} (result : List ε × Except Reason σ) :
    exchange (answers function result : List (Effect κ σ ε)) = .nothing :=
  exchange_silent (forall_answers (fun _ _ => rfl) fun _ => rfl)

/-! ## The requests -/

/-- The requests in their order, each with the phase that waits for its reply. -/
def steps (cfg : Config κ σ ε μ) (s : State σ) : List (Request × Phase) :=
  (match cfg.password with
    | some password => [(.auth cfg.username password, .auth)]
    | none => []) ++
  [(.ping, .ping), (.replconfListeningPort, .replconfListeningPort), (.replconfCapa, .replconfCapa),
    (psyncRequest s, .psync)]

/-- The requests of the handshake. -/
def requests (cfg : Config κ σ ε μ) (s : State σ) : List Request := (steps cfg s).map (·.1)

/-- The step that follows the reply to a phase. -/
def following (s : State σ) : Phase → Option (Request × Phase)
  | .auth => some (.ping, .ping)
  | .ping => some (.replconfListeningPort, .replconfListeningPort)
  | .replconfListeningPort => some (.replconfCapa, .replconfCapa)
  | .replconfCapa => some (psyncRequest s, .psync)
  | _ => none

variable {cfg : Config κ σ ε μ} {s s₀ s' : State σ} {es es' : List (Effect κ σ ε)} {st : Status σ}
  {env : Answers} {socket : Socket} {request : Request} {phase : Phase} {data rest : Bytes}

/-- Each step of the handshake follows from the one before. -/
lemma steps_chain (cfg : Config κ σ ε μ) (s : State σ) :
    (steps cfg s).IsChain fun step next => following s step.2 = some next := by
  unfold steps
  split <;> simp [following]

/-- A step in the middle is followed by the next one. -/
lemma steps_following {done todo : List (Request × Phase)} {step next : Request × Phase}
    (h : steps cfg s = done ++ step :: next :: todo) : following s step.2 = some next := by
  have chain := steps_chain cfg s
  rw [h] at chain
  exact (List.isChain_cons_cons.mp (List.isChain_append.mp chain).2.1).1

/-- The last step is the PSYNC request. -/
lemma steps_last {done : List (Request × Phase)} {step : Request × Phase}
    (h : steps cfg s = done ++ [step]) : step = (psyncRequest s, .psync) := by
  have last : (steps cfg s).getLast? = some (psyncRequest s, .psync) := by
    unfold steps
    rw [List.getLast?_append]
    rfl
  rw [h, List.getLast?_concat] at last
  exact Option.some_inj.mp last

/-- The first step is AUTH with a password, and else PING. -/
lemma steps_first (cfg : Config κ σ ε μ) (s : State σ) : ∃ step todo, steps cfg s = step :: todo ∧
    step = match cfg.password with
      | some password => (.auth cfg.username password, .auth)
      | none => (.ping, .ping) := by
  unfold steps
  split
  · exact ⟨_, _, rfl, rfl⟩
  · exact ⟨_, _, rfl, rfl⟩

/-! ## A smooth connection -/

/-- The operating system does what the handler asks for. -/
structure Answers.Smooth (env : Answers) : Prop where
  send : env.send = .ok ()
  setopts : env.setopts = true

/-- A transport that takes everything sends the request. -/
lemma transportSend_smooth (smooth : env.Smooth) :
    (transportSend env request : Out κ σ ε (Except Reason Unit)) = ([.send request], .ok ()) := by
  rw [transportSend, smooth.send]

/-- A transport that takes everything leads to the next phase. -/
lemma sendRequest_smooth (smooth : env.Smooth) :
    (sendRequest env request phase s : Out κ σ ε (Except Reason (State σ)))
      = ([.send request], .ok { s with state := phase }) := by
  rw [sendRequest, transportSend_smooth smooth]
  rfl

/-- Cancelling the reconnect timer exchanges nothing. -/
lemma exchange_cancelReconnectTimer
    (h : (cancelReconnectTimer s : Out κ σ ε (State σ)) = (es, s')) :
    exchange es = .nothing := by
  unfold cancelReconnectTimer at h
  split at h <;> cases h <;> rfl

/-- Cancelling the acknowledge timer exchanges nothing. -/
lemma exchange_cancelAckTimer (h : (cancelAckTimer s : Out κ σ ε (State σ)) = (es, s')) :
    exchange es = .nothing := by
  unfold cancelAckTimer at h
  split at h <;> cases h <;> rfl

/-- Closing the socket exchanges nothing. -/
lemma exchange_closeSocket (s : State σ) :
    exchange (closeSocket s : List (Effect κ σ ε)) = .nothing := by
  unfold closeSocket
  split <;> rfl

/-- The first request goes out with the connection. -/
lemma handleContinue_smooth (smooth : env.Smooth) (connected : env.connect = .ok socket)
    (h : handleContinue cfg env s = (es, st)) :
    ∃ request phase todo reconnectDelayMs, steps cfg s = (request, phase) :: todo ∧
      exchange es = ⟨[request], [], []⟩ ∧ st = .running { s with
        socket := some socket
        state := phase
        currentReconnectDelayMs := reconnectDelayMs
        reconnectTimer := false } := by
  obtain ⟨⟨request, phase⟩, todo, first, eq⟩ := steps_first cfg s
  have sent : connect cfg env s
      = ([.send request], .ok { s with socket := some socket, state := phase }) := by
    rw [connect, connected]
    simp only [smooth.setopts, if_true]
    rw [proceedAfterConnect]
    cases password : cfg.password with
    | some word =>
      rw [password] at eq
      cases eq
      exact sendRequest_smooth smooth
    | none =>
      rw [password] at eq
      cases eq
      exact sendRequest_smooth smooth
  obtain ⟨es₁, result, es₂, hc, hn, rfl⟩ := andThen_eq h
  rw [sent] at hc
  cases hc
  obtain ⟨es₃, t, es₄, ht, hm, rfl⟩ := andThen_eq hn
  cases hm
  have silent := exchange_cancelReconnectTimer ht
  obtain ⟨-, rfl⟩ := cancelReconnectTimer_quiet ht
  refine ⟨request, phase, todo, cfg.reconnectDelayMs, first, ?_, rfl⟩
  have plain : (Effect.send request : Effect κ σ ε).exchange = ⟨[request], [], []⟩ := by
    split at eq <;> cases eq <;> rfl
  rw [List.append_nil, List.singleton_append, exchange_cons, silent, Exchange.andThen_nothing,
    plain]

/-- A simple reply that has arrived whole leads to the next request. -/
lemma onSimpleResponse_sends {what : String} {next : State σ → Out κ σ ε (Handled σ)}
    (sends : ∀ rest, next { s with buffer := rest } =
      ([.send request], .noreply { s with buffer := rest, state := phase })) :
    onSimpleResponse what s next = match parseSimpleResponse s.buffer with
      | .complete _ rest => ([.send request], .noreply { s with buffer := rest, state := phase })
      | .incomplete => ([], .noreply s)
      | .failed reason => ([], .reconnect (.failed what reason) s) := by
  rw [onSimpleResponse]
  cases parseSimpleResponse s.buffer with
  | complete text rest => exact sends rest
  | incomplete => rfl
  | failed reason => rfl

/-- What the handler of a simple reply does. -/
lemma dispatchData_simple (smooth : env.Smooth)
    (next : following s s.state = some (request, phase)) :
    ∃ what, dispatchData cfg env data s = match parseSimpleResponse (s.buffer ++ data) with
      | .complete _ rest => ([.send request], .noreply { s with buffer := rest, state := phase })
      | .incomplete => ([], .noreply { s with buffer := s.buffer ++ data })
      | .failed reason =>
        ([], .reconnect (.failed what reason) { s with buffer := s.buffer ++ data }) := by
  cases e : s.state with
  | auth =>
    rw [e] at next
    cases next
    refine ⟨"auth_failed", ?_⟩
    rw [dispatchData, e]
    refine onSimpleResponse_sends fun rest => ?_
    rw [sendPing, sendRequest_smooth smooth]
    rfl
  | ping =>
    rw [e] at next
    cases next
    refine ⟨"ping_failed", ?_⟩
    rw [dispatchData, e]
    refine onSimpleResponse_sends fun rest => ?_
    rw [sendReplconfListeningPort, sendRequest_smooth smooth]
    rfl
  | replconfListeningPort =>
    rw [e] at next
    cases next
    refine ⟨"replconf_failed", ?_⟩
    rw [dispatchData, e]
    refine onSimpleResponse_sends fun rest => ?_
    rw [sendReplconfCapa, sendRequest_smooth smooth]
    rfl
  | replconfCapa =>
    rw [e] at next
    cases next
    refine ⟨"replconf_failed", ?_⟩
    rw [dispatchData, e]
    refine onSimpleResponse_sends fun rest => ?_
    rw [sendPsync, sendRequest_smooth smooth]
    rfl
  | init =>
    rw [e] at next
    cases next
  | psync =>
    rw [e] at next
    cases next
  | replication =>
    rw [e] at next
    cases next

/-- In the phase of PSYNC the data is the reply to it. -/
lemma dispatchData_psync (phase : s.state = .psync) :
    (dispatchData cfg env data s : Out κ σ ε (Handled σ)) =
      handlePsyncResponse cfg env { s with buffer := s.buffer ++ data } := by
  rw [dispatchData, phase]

/-! ## Refusals and reconnects -/

/-- This failure of a function stops the process: of `handle_call` and `handle_info`, only an
exception does. -/
def Stops : CallbackFunction → Reason → Prop
  | .handleCall, reason => reason = .raised
  | .handleInfo, reason => reason = .raised
  | _, _ => True

/-- An exception of any function stops the process. -/
lemma stops_raised (function : CallbackFunction) : Stops function .raised := by
  cases function with
  | handleCall => rfl
  | handleInfo => rfl
  | _ => trivial

/-- Somewhere in the trace the payload, or what was made of it, was refused: by the replication
parser, by the command parser, or by the callback module, whose failure is in the trace. -/
inductive Rejects (cfg : Config κ σ ε μ) (es : List (Effect κ σ ε)) : Prop where
  | parser {chunk : Bytes} {fault : Fault} (refused : .parserData chunk (.error fault) ∈ es)
  | command {chunk : Bytes} {fed : ReplicaParser.Fed} (accepted : .parserData chunk (.ok fed) ∈ es)
      (raises : Parser.convertCommands cfg.parse fed.commands = none)
  | callback {function : CallbackFunction} {reason : Reason}
      (failed : .callbackFailed function reason ∈ es) (stops : Stops function reason)

/-- A refusal in a trace is one in every larger trace. -/
lemma Rejects.mono (h : Rejects cfg es) (more : ∀ e ∈ es, e ∈ es') : Rejects cfg es' := by
  cases h with
  | parser refused => exact .parser (more _ refused)
  | command accepted raises => exact .command (more _ accepted) raises
  | callback failed stops => exact .callback (more _ failed) stops

/-- A refusal stays one behind other effects. -/
lemma Rejects.append_left (h : Rejects cfg es') (es : List (Effect κ σ ε)) :
    Rejects cfg (es ++ es') :=
  h.mono fun _ he => List.mem_append_right es he

/-- A refusal stays one in front of other effects. -/
lemma Rejects.append_right (h : Rejects cfg es) (es' : List (Effect κ σ ε)) :
    Rejects cfg (es ++ es') :=
  h.mono fun _ he => List.mem_append_left es' he

/-- The connection is given up and the next attempt is scheduled, unless reconnecting is turned
off. -/
def Reconnects (cfg : Config κ σ ε μ) (es : List (Effect κ σ ε)) (st : Status σ) : Prop :=
  (cfg.reconnectEnabled = true ∧ (∃ ms, .startTimer .reconnect ms ∈ es) ∧
    ∃ s, st = .running s ∧ s.state = .init ∧ s.socket = none ∧ s.reconnectTimer = true) ∨
  (cfg.reconnectEnabled = false ∧ ∃ reason, st = .stopped reason)

/-- A disconnect exchanges nothing and reconnects, or stops. -/
lemma handleDisconnect_reconnects {reason : Reason} (h : handleDisconnect cfg reason s = (es, st)) :
    exchange es = .nothing ∧ Reconnects cfg es st := by
  obtain ⟨es₁, u, es₂, hc, hn, rfl⟩ := andThen_eq h
  cases hc
  obtain ⟨es₃, t, es₄, ht, hm, rfl⟩ := andThen_eq hn
  have silent := exchange_cancelAckTimer ht
  obtain ⟨-, rfl⟩ := cancelAckTimer_quiet ht
  obtain ⟨es₅, u, es₆, hc, hd, rfl⟩ := andThen_eq hm
  cases hc
  obtain ⟨es₇, t, es₈, ht, he, rfl⟩ := andThen_eq hd
  have silent' := exchange_cancelReconnectTimer ht
  obtain ⟨-, rfl⟩ := cancelReconnectTimer_quiet ht
  simp only [exchange_append, exchange_closeSocket, silent, silent', Exchange.nothing_andThen]
  split at he
  · rename_i enabled
    cases he
    refine ⟨rfl, .inl ⟨enabled, ⟨s.currentReconnectDelayMs, by simp⟩, _, rfl, rfl, rfl, rfl⟩⟩
  · rename_i disabled
    cases he
    exact ⟨rfl, .inr ⟨by simpa using disabled, reason, rfl⟩⟩

/-- What `handle_data` makes of the result of a handler. -/
def Concludes (cfg : Config κ σ ε μ) (es : List (Effect κ σ ε)) (st : Status σ) : Handled σ → Prop
  | .noreply s => st = .running s
  | .reconnect _ _ => Reconnects cfg es st
  | .stop reason => st = .stopped reason

/-- The handling of data is its dispatch and a silent conclusion. -/
lemma handleData_smooth (smooth : env.Smooth) (h : handleData cfg env data s = (es, st)) :
    ∃ es₁ handled es₂, dispatchData cfg env data s = (es₁, handled) ∧ es = es₁ ++ es₂ ∧
      exchange es₂ = .nothing ∧ Concludes cfg es₂ st handled := by
  obtain ⟨es₁, handled, es₂, hd, hn, rfl⟩ := andThen_eq h
  refine ⟨es₁, handled, es₂, hd, rfl, ?_⟩
  cases handled with
  | noreply t =>
    rw [smooth.setopts] at hn
    cases hn
    exact ⟨rfl, rfl⟩
  | reconnect reason t => exact handleDisconnect_reconnects hn
  | stop reason =>
    cases hn
    exact ⟨rfl, rfl⟩

/-! ## Messages in between -/

/-- The acknowledge timer has run out, or the callback module is addressed. -/
inductive Message.Aside : Message μ → Prop where
  | sendPeriodicAck : Aside .sendPeriodicAck
  | callbackCall (message : μ) : Aside (.callbackCall message)
  | info (message : μ) : Aside (.info message)

/-- An acknowledgement is no part of the handshake. -/
lemma exchange_sendReplconfAck (s : State σ) :
    exchange (sendReplconfAck env s : List (Effect κ σ ε)) = .nothing := by
  unfold sendReplconfAck transportSend
  split
  · split <;> rfl
  · rfl

/-- Setting the acknowledge timer exchanges nothing. -/
lemma exchange_schedulePeriodicAck (h : schedulePeriodicAck cfg s = (es, s')) :
    exchange es = .nothing := by
  obtain ⟨es₁, t, es₂, ht, hn, rfl⟩ := andThen_eq h
  cases hn
  rw [exchange_append, exchange_cancelAckTimer ht]
  rfl

/-- The callback module has answered a call or a message. -/
lemma consulted_exchange {function : CallbackFunction} {result : List ε × Except Reason σ}
    (h : (ofCallback function result : Out κ σ ε (Except Reason σ)).andThen (fun
      | .ok callbackState => ([], .running { s with callbackState })
      | .error .raised => ([], .stopped .raised)
      | .error _ => ([], .running s)) = (es, st)) :
    exchange es = .nothing ∧ ((∃ callbackState, st = .running { s with callbackState }) ∨
      (∃ reason, st = .stopped reason) ∧ Rejects cfg es) := by
  obtain ⟨es₁, answer, es₂, hc, hn, rfl⟩ := andThen_eq h
  cases hc
  split at hn
  · rename_i callbackState ok
    cases hn
    rw [List.append_nil]
    exact ⟨exchange_answers _, .inl ⟨callbackState, rfl⟩⟩
  · rename_i raised
    cases hn
    rw [List.append_nil]
    exact ⟨exchange_answers _,
      .inr ⟨⟨_, rfl⟩, .callback (mem_answers_of_error raised) (stops_raised _)⟩⟩
  · cases hn
    rw [List.append_nil]
    exact ⟨exchange_answers _, .inl ⟨s.callbackState, rfl⟩⟩

/-- A message in between exchanges nothing and leaves the handshake where it is. -/
lemma handleMessage_aside {message : Message μ} (aside : message.Aside)
    (h : handleMessage cfg env message s = (es, st)) :
    exchange es = .nothing ∧
      ((∃ callbackState ackTimer, st = .running { s with callbackState, ackTimer }) ∨
      (∃ reason, st = .stopped reason) ∧ Rejects cfg es) := by
  cases aside with
  | sendPeriodicAck =>
    simp only [handleMessage] at h
    obtain ⟨es₁, u, es₂, ha, hn, rfl⟩ := andThen_eq h
    cases ha
    obtain ⟨es₃, t, es₄, ht, hm, rfl⟩ := andThen_eq hn
    have silent := exchange_schedulePeriodicAck ht
    obtain ⟨-, rfl⟩ := schedulePeriodicAck_quiet ht
    cases hm
    refine ⟨?_, .inl ⟨s.callbackState, true, rfl⟩⟩
    rw [exchange_append, exchange_append, exchange_sendReplconfAck, silent]
    rfl
  | callbackCall message =>
    simp only [handleMessage, callbackCall] at h
    split at h
    · obtain ⟨silent, ⟨callbackState, rfl⟩ | stops⟩ := consulted_exchange h
      · exact ⟨silent, .inl ⟨callbackState, s.ackTimer, rfl⟩⟩
      · exact ⟨silent, .inr stops⟩
    · cases h
      exact ⟨rfl, .inl ⟨s.callbackState, s.ackTimer, rfl⟩⟩
  | info message =>
    obtain ⟨silent, ⟨callbackState, rfl⟩ | stops⟩ := consulted_exchange h
    · exact ⟨silent, .inl ⟨callbackState, s.ackTimer, rfl⟩⟩
    · exact ⟨silent, .inr stops⟩

/-! ## The payload -/

/-- The replication id and the offset that a reply to `PSYNC` starts with. -/
def PsyncReply.position (s : State σ) : PsyncReply → Option Bytes × Int
  | .fullresync replicationId offset => (some replicationId, offset)
  | .continued => (s.savedReplicationId, s.savedReplicationOffset)

/-- The parser behind what was handed to it. -/
def Reads (reply : PsyncReply) (handed : Bytes) (parser : ReplicaParser.ParserState) : Prop :=
  match reply with
  | .fullresync _ _ => ∃ rdb events, Received handed parser rdb events
  | .continued => ∃ events, machine.absorb (.new true) handed = .ok (parser, events)

/-- The parser streams when the stream has begun in what it was handed. -/
lemma Reads.streaming_iff {reply : PsyncReply} {handed : Bytes} {parser : ReplicaParser.ParserState}
    (h : Reads reply handed parser) :
    parser.state = .streaming ↔ (Connection.streamOf reply handed).isSome := by
  cases reply with
  | fullresync replicationId offset =>
    obtain ⟨rdb, events, read⟩ := h
    exact read.streaming_iff
  | continued =>
    obtain ⟨events, read⟩ := h
    simp [Connection.streamOf, streaming_absorb rfl read]

/-- A parser that takes a chunk has been handed it. -/
lemma Reads.feed {reply : PsyncReply} {handed chunk : Bytes}
    {parser newParser : ReplicaParser.ParserState} {fed : ReplicaParser.Fed}
    (h : Reads reply handed parser)
    (f : ReplicaParser.feedData parser chunk = .ok (newParser, fed)) :
    Reads reply (handed ++ chunk) newParser := by
  cases reply with
  | fullresync replicationId offset =>
    obtain ⟨rdb, events, read⟩ := h
    obtain ⟨r, stream, next, -, -⟩ := received_feedData read f
    exact ⟨_, _, next⟩
  | continued =>
    obtain ⟨events, read⟩ := h
    obtain ⟨stream, next, -⟩ := absorbed_feedData read f
    exact ⟨_, next⟩

/-- The process replicates behind this reply, and this much was handed to the parser. Of the offset
only what does not depend on the cuts: it counts no more than the bytes of the command stream, and
all of them behind `+CONTINUE`. -/
structure Replicates (s₀ : State σ) (socket : Socket) (reply : PsyncReply) (handed : Bytes)
    (s : State σ) :
    Prop where
  phase : s.state = .replication
  here : s.socket = some socket
  parser : ∃ parser, s.replicaParser = some parser ∧ Reads reply handed parser
  replicationId : s.replicationId = (reply.position s₀).1
  least : (reply.position s₀).2 ≤ s.replicationOffset
  most : s.replicationOffset ≤ (reply.position s₀).2 + Connection.streamLength reply handed
  continued : reply = .continued → s.replicationOffset = (reply.position s₀).2 + handed.length

/-- The fields that are not about replication are free. -/
lemma Replicates.same {reply : PsyncReply} {handed : Bytes}
    (h : Replicates s₀ socket reply handed s) (callbackState : σ) (ackTimer : Bool)
    (buffer : Bytes) :
    Replicates s₀ socket reply handed { s with callbackState, ackTimer, buffer } :=
  ⟨h.phase, h.here, h.parser, h.replicationId, h.least, h.most, h.continued⟩

/-- A process that replicates has a parser. -/
lemma Replicates.parser_ne {reply : PsyncReply} {handed : Bytes}
    (h : Replicates s₀ socket reply handed s) : s.replicaParser ≠ none := by
  obtain ⟨parser, found, -⟩ := h.parser
  simp [found]

/-- Behind the reply to PSYNC the process replicates, with nothing handed over. -/
lemma replicates_completed (here : s.socket = some socket)
    (saved : ∀ reply : PsyncReply, reply.position s = reply.position s₀) (callbackState : σ)
    (reply : PsyncReply) : Replicates s₀ socket reply [] (completed s callbackState reply) := by
  cases reply with
  | fullresync replicationId offset =>
    have parser : Reads (.fullresync replicationId offset) [] (.new false) := ⟨_, _, received_nil⟩
    exact ⟨rfl, here, ⟨_, rfl, parser⟩, rfl, Int.le_refl _,
      Int.le_add_of_nonneg_right (Int.natCast_nonneg _), nofun⟩
  | continued =>
    have id : s.savedReplicationId = s₀.savedReplicationId := congrArg Prod.fst (saved .continued)
    have offset : s.savedReplicationOffset = s₀.savedReplicationOffset :=
      congrArg Prod.snd (saved .continued)
    have parser : Reads .continued [] (.new true) := ⟨[], rfl⟩
    refine ⟨rfl, here, ⟨_, rfl, parser⟩, id, ?_, ?_, fun _ => ?_⟩
    · simp [completed, PsyncReply.position, offset]
    · simp [completed, PsyncReply.position, offset]
    · simp [completed, PsyncReply.position, offset]

/-- The chunk goes to the parser as it is. -/
lemma handleReplicationData_exchange {handled : Handled σ} (parser : s.replicaParser ≠ none)
    (h : handleReplicationData cfg env data s = (es, handled)) : exchange es = ⟨[], [], data⟩ := by
  have only (result : Except Fault ReplicaParser.Fed) (es : List (Effect κ σ ε))
      (silent : exchange es = .nothing) : exchange (.parserData data result :: es) =
      ⟨[], [], data⟩ := by
    rw [exchange_cons, silent, Exchange.andThen_nothing]
    rfl
  have acks {P : Prop} [Decidable P] {t : State σ} :
      exchange (if P then sendReplconfAck env t else [] : List (Effect κ σ ε)) = .nothing := by
    split
    · exact exchange_sendReplconfAck _
    · rfl
  have started {before after : ReplicaParser.ReplicaState} {t : State σ} {es : List (Effect κ σ ε)}
      {start : Except Reason (State σ)} (h : startStreaming cfg before after t = (es, start)) :
      exchange es = .nothing := by
    obtain ⟨-, -, rfl, -⟩ | ⟨-, rfl, -⟩ := startStreaming_eq h
    · exact exchange_answers _
    · rfl
  cases handleReplicationData_receives h with
  | noParser hp => exact absurd hp parser
  | refused => exact only _ _ rfl
  | unparsed => exact only _ _ rfl
  | notStarted hp hf hc ha hs =>
    refine only _ _ ?_
    rw [exchange_append, ha, acks, started hs]
    rfl
  | accepted hp hf hc ha hs hk hh =>
    refine only _ _ ?_
    rw [exchange_append, exchange_append, ha, acks, started hs]
    obtain ⟨-, rfl, -⟩ | ⟨-, rfl, -⟩ := processCommands_eq hk
    · rfl
    · rw [exchange_cons, exchange_answers]
      rfl

/-- A call of the callback module whose error is passed on. -/
lemma ofCallback_error {function : CallbackFunction} {result : List ε × Except Reason σ}
    {reason : Reason} {next : Except Reason σ → Out κ σ ε (Except Reason (State σ))}
    (goesOn : ∀ callbackState, ∃ t, (next (.ok callbackState)).2 = .ok t)
    (h : (ofCallback function result).andThen next = (es, .error reason)) :
    ∃ reason, .callbackFailed function reason ∈ es := by
  obtain ⟨es₁, answer, es₂, hc, hn, rfl⟩ := andThen_eq h
  cases hc
  cases e : result.2 with
  | ok callbackState =>
    obtain ⟨t, ok⟩ := goesOn callbackState
    rw [e] at hn
    rw [hn] at ok
    cases ok
  | error reason => exact ⟨reason, List.mem_append_left _ (mem_answers_of_error e)⟩

/-- A failed start of the stream is in the trace. -/
lemma startStreaming_error {before after : ReplicaParser.ReplicaState} {reason : Reason}
    (h : startStreaming cfg before after s = (es, .error reason)) :
    ∃ reason, .callbackFailed .handleStreamingStart reason ∈ es := by
  unfold startStreaming at h
  split at h
  · exact ofCallback_error (fun _ => ⟨_, rfl⟩) h
  · cases h

/-- A failed call with commands is in the trace. -/
lemma processCommands_error {commands : List (ReplicaCommand κ)} {reason : Reason}
    (h : processCommands cfg commands s = (es, .error reason)) :
    ∃ reason, .callbackFailed .handleCommands reason ∈ es := by
  unfold processCommands doProcessCommands at h
  split at h
  · cases h
  · obtain ⟨es₁, u, es₂, hc, hn, rfl⟩ := andThen_eq h
    cases hc
    obtain ⟨reason, failed⟩ := ofCallback_error (fun _ => ⟨_, rfl⟩) hn
    exact ⟨reason, List.mem_cons_of_mem _ failed⟩

/-- A chunk that is not taken was refused by somebody. -/
lemma handleReplicationData_rejects {handled : Handled σ} (parser : s.replicaParser ≠ none)
    (h : handleReplicationData cfg env data s = (es, handled)) (taken : ∀ t, handled ≠ .noreply t) :
    Rejects cfg es := by
  cases handleReplicationData_receives h with
  | noParser hp => exact absurd hp parser
  | refused => exact .parser List.mem_cons_self
  | unparsed hp hf hc => exact .command List.mem_cons_self hc
  | notStarted hp hf hc ha hs =>
    obtain ⟨reason, failed⟩ := startStreaming_error hs
    exact .callback (List.mem_cons_of_mem _ (List.mem_append_right _ failed)) trivial
  | accepted hp hf hc ha hs hk hh =>
    obtain ⟨u, rfl, rfl⟩ | ⟨reason, rfl, -⟩ := hh
    · exact absurd rfl (taken u)
    · obtain ⟨reason, failed⟩ := processCommands_error hk
      have stops : Stops .handleCommands reason := trivial
      exact .callback (List.mem_cons_of_mem
        _ (List.mem_append_right _ (List.mem_append_right _ failed))) stops

/-- A chunk of the payload. -/
lemma Replicates.feed {reply : PsyncReply} {handed : Bytes} {handled : Handled σ}
    (h : Replicates s₀ socket reply handed s)
    (hd : handleReplicationData cfg env data s = (es, handled)) :
    exchange es = ⟨[], [], data⟩ ∧
      ((∃ t, handled = .noreply t ∧ Replicates s₀ socket reply (handed ++ data) t) ∨
      Rejects cfg es ∧ ∀ t, handled ≠ .noreply t) := by
  refine ⟨handleReplicationData_exchange h.parser_ne hd, ?_⟩
  cases handled with
  | noreply t =>
    obtain ⟨parser, newParser, fed, callbackState, found, fedData, rfl⟩ := accepted_state hd
    obtain ⟨parser', found', reads⟩ := h.parser
    obtain rfl : parser' = parser := Option.some_inj.mp (found'.symm.trans found)
    have next : Reads reply (handed ++ data) newParser := reads.feed fedData
    have least := h.least
    have most := h.most
    have before := h.continued
    refine .inl ⟨_, rfl, h.phase, h.here, ⟨newParser, rfl, next⟩, h.replicationId, ?_, ?_,
      fun continued => ?_⟩
    · dsimp only
      split <;> omega
    · -- the chunk is counted if the stream has begun before it
      dsimp only
      split
      · rename_i streaming
        rw [Connection.streamLength_append (reads.streaming_iff.mp streaming)]
        omega
      · have more := Connection.streamLength_le reply handed data
        omega
    · have streaming : parser'.state = .streaming := by
        rw [reads.streaming_iff, continued]
        rfl
      have counted := before continued
      rw [List.length_append]
      simp only [streaming, if_true]
      omega
  | reconnect reason t =>
    have other : ∀ u, Handled.reconnect reason t ≠ .noreply u := by rintro u ⟨⟩
    exact .inr ⟨handleReplicationData_rejects h.parser_ne hd other, other⟩
  | stop reason =>
    have other : ∀ u, (Handled.stop reason : Handled σ) ≠ .noreply u := by rintro u ⟨⟩
    exact .inr ⟨handleReplicationData_rejects h.parser_ne hd other, other⟩

/-- The taking of a reply fails by a refusal in the trace only. -/
lemma handlePsyncCompleted_error {reply : PsyncReply} {reason : Reason}
    (h : handlePsyncCompleted cfg reply s = (es, .error reason)) : Rejects cfg es := by
  obtain ⟨es₁, u, es₂, hc, hn, rfl⟩ := andThen_eq h
  cases reply with
  | fullresync replicationId offset =>
    obtain ⟨reason, failed⟩ := ofCallback_error (fun _ => ⟨_, rfl⟩) hn
    exact .callback (List.mem_append_right _ failed) trivial
  | continued => cases hn

/-- The state behind a reply that was taken. -/
lemma handlePsyncCompleted_ok {reply : PsyncReply}
    (h : handlePsyncCompleted cfg reply s = (es, .ok s')) :
    ∃ callbackState, s' = completed s callbackState reply := by
  obtain ⟨replicationId, offset, rfl, -, ok⟩ | ⟨rfl, -, ok⟩ := handlePsyncCompleted_eq h
  · obtain ⟨callbackState, -, eq⟩ := ok s' rfl
    exact ⟨callbackState, eq⟩
  · cases ok
    exact ⟨s.callbackState, rfl⟩

/-- Taking a reply exchanges that reply. -/
lemma exchange_handlePsyncCompleted {reply : PsyncReply} {result : Except Reason (State σ)}
    (h : handlePsyncCompleted cfg reply s = (es, result)) : exchange es = ⟨[], [reply], []⟩ := by
  obtain ⟨replicationId, offset, rfl, rfl, -⟩ | ⟨rfl, rfl, -⟩ := handlePsyncCompleted_eq h
  · rw [exchange_cons, exchange_answers]
    rfl
  · rfl

/-- The reply to `PSYNC` is there: what stands behind it is the beginning of the payload. -/
lemma handlePsyncResponse_complete {reply : PsyncReply} {handled : Handled σ}
    (here : s.socket = some socket)
    (saved : ∀ reply : PsyncReply, reply.position s = reply.position s₀)
    (parse : parsePsyncResponse s.buffer = .complete reply rest)
    (h : handlePsyncResponse cfg env s = (es, handled)) :
    ∃ handed, handed <+: rest ∧ exchange es = ⟨[], [reply], handed⟩ ∧
      ((∃ t, handed = rest ∧ handled = .noreply t ∧ Replicates s₀ socket reply rest t) ∨
      Rejects cfg es ∧ ∀ t, handled ≠ .noreply t) := by
  rw [handlePsyncResponse, parse] at h
  obtain ⟨es₁, result, es₂, hc, hn, rfl⟩ := andThen_eq h
  have taken := exchange_handlePsyncCompleted hc
  cases result with
  | error reason =>
    cases hn
    rw [List.append_nil]
    exact ⟨[], List.nil_prefix, taken, .inr ⟨handlePsyncCompleted_error hc, by rintro t ⟨⟩⟩⟩
  | ok t =>
    obtain ⟨callbackState, rfl⟩ := handlePsyncCompleted_ok hc
    obtain ⟨es₃, u, es₄, ht, hm, rfl⟩ := andThen_eq hn
    have silent := exchange_schedulePeriodicAck ht
    obtain ⟨-, rfl⟩ := schedulePeriodicAck_quiet ht
    have begun := replicates_completed here saved callbackState reply
    have only (handed : Bytes) : (Exchange.mk [] [reply] []).andThen
      (Exchange.nothing.andThen ⟨[], [], handed⟩)
        = ⟨[], [reply], handed⟩ := rfl
    split at hm
    · rename_i nowhere
      cases hm
      have isEmpty : rest = [] := by cases reply <;> exact nowhere
      refine ⟨[], List.nil_prefix, ?_, .inl ⟨_, isEmpty.symm, rfl, ?_⟩⟩
      · rw [exchange_append, exchange_append, taken, silent]
        exact only []
      · rw [isEmpty]
        cases reply <;> exact begun.same callbackState true []
    · have same : (completed { s with buffer := rest } callbackState reply).buffer = rest := by
        cases reply <;> rfl
      -- what stands behind the reply is fed to the parser like a chunk
      have fed : Replicates s₀ socket reply []
        { completed { s with buffer := rest } callbackState reply with
          ackTimer := true
          buffer := [] } := by cases reply <;> exact begun.same callbackState true []
      rw [same] at hm
      obtain ⟨handed, next⟩ := fed.feed hm
      refine ⟨rest, List.prefix_refl _, ?_, ?_⟩
      · rw [exchange_append, exchange_append, taken, silent, handed]
        exact only rest
      · obtain ⟨t, rfl, replicates⟩ | ⟨rejects, refused⟩ := next
        · exact .inl ⟨t, rfl, rfl, replicates⟩
        · exact .inr ⟨(rejects.append_left es₃).append_left es₁, refused⟩

end Replica

end Veidrodelis.RedisStream
