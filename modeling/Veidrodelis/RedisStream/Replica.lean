import Veidrodelis.RedisNif.Stream
import Veidrodelis.RedisStream.Callback

/-!
# The replica process

`lib/veidrodelis/redis_stream/replica.ex`: the GenServer that connects to the primary, negotiates
`PSYNC`, feeds the replica parser and calls the callback module.

A handler takes the state and what the operating system answers while it runs (`Answers`), and
returns the list of its effects in their order and what becomes of the process. Each handler sends
at most one request, so one answer for `send` is enough. The parser is a mutable resource of which
only the state holds a reference; it is a value here. Of a timer reference only whether there is one
is ever looked at. Sentinel discovery is part of what `connect` answers.
-/

namespace Veidrodelis.RedisStream
open RedisNif

variable {κ σ ε μ : Type}

namespace Replica

/-! ## State -/

/-- The field `state` of the process state. -/
inductive Phase where
  | init
  | auth
  | ping
  | replconfListeningPort
  | replconfCapa
  | psync
  | replication
  deriving DecidableEq, Repr

/-- A connection of the transport. -/
abbrev Socket := Nat

/-- The state of the process, without the options it was started with. -/
structure State (σ : Type) where
  callbackState : σ
  socket : Option Socket
  savedReplicationId : Option Bytes
  savedReplicationOffset : Int
  replicationId : Option Bytes
  replicationOffset : Int
  replicaParser : Option ReplicaParser.ParserState
  buffer : Bytes
  state : Phase
  currentReconnectDelayMs : Nat
  ackTimer : Bool
  reconnectTimer : Bool
  deriving DecidableEq, Repr

/-- The options the process was started with, and the modules it calls. -/
structure Config (κ σ ε μ : Type) where
  parse : CommandParse κ
  callback : Callback κ σ ε μ
  commandFilter : CommandFilter κ
  username : Option Bytes
  password : Option Bytes
  reconnectEnabled : Bool
  reconnectDelayMs : Nat
  maxReconnectDelayMs : Nat
  ackIntervalMs : Nat

/-- The state that `init` makes of the state of the callback module. -/
def State.new (cfg : Config κ σ ε μ) (callbackState : σ) : State σ where
  callbackState := callbackState
  socket := none
  savedReplicationId := none
  savedReplicationOffset := 0
  replicationId := none
  replicationOffset := 0
  replicaParser := none
  buffer := []
  state := .init
  currentReconnectDelayMs := cfg.reconnectDelayMs
  ackTimer := false
  reconnectTimer := false

/-! ## Effects -/

/-- What the process sends to the primary. -/
inductive Request where
  | ping
  | auth (username : Option Bytes) (password : Bytes)
  | replconfListeningPort
  | replconfCapa
  | psync (replicationId : Bytes) (offset : Int)
  | replconfAck (offset : Int)
  deriving DecidableEq, Repr

/-- The reply to `PSYNC`. -/
inductive PsyncReply where
  | fullresync (replicationId : Bytes) (offset : Int)
  | continued
  deriving DecidableEq, Repr

inductive Timer where
  | ack
  | reconnect
  deriving DecidableEq, Repr

/-- What a handler does, for the record. `send` stands for a request that the transport has
taken. -/
inductive Effect (κ σ ε : Type) where
  | send (request : Request)
  | close
  | startTimer (timer : Timer) (ms : Nat)
  | cancelTimer (timer : Timer)
  /-- `handle_psync_completed` is called. -/
  | psyncCompleted (reply : PsyncReply)
  /-- The parser is fed, and what it answers. -/
  | parserData (chunk : Bytes) (result : Except Fault ReplicaParser.Fed)
  /-- `handle_commands` of the callback module is called. -/
  | handleCommands (callbackState : σ) (commands : List (ReplicaCommand κ))
  /-- What the callback module does. -/
  | callback (effect : ε)
  /-- A function of the callback module answers with an error, or raises. -/
  | callbackFailed (function : CallbackFunction) (reason : Reason)
  deriving DecidableEq, Repr

/-- What the operating system answers while one handler runs. -/
structure Answers where
  connect : Except Reason Socket
  setopts : Bool
  send : Except Reason Unit

/-- What becomes of the process. -/
inductive Status (σ : Type) where
  | running (s : State σ)
  | stopped (reason : Reason)
  deriving DecidableEq, Repr

/-- A result and the effects in front of it. -/
abbrev Out (κ σ ε α : Type) := List (Effect κ σ ε) × α

/-- Go on with a result; the effects line up. -/
def Out.andThen {α β : Type} (out : Out κ σ ε α) (next : α → Out κ σ ε β) : Out κ σ ε β :=
  (out.1 ++ (next out.2).1, (next out.2).2)

/-- The failure of a function of the callback module, for the record. -/
def failureOf (function : CallbackFunction) : Except Reason σ → List (Effect κ σ ε)
  | .ok _ => []
  | .error reason => [.callbackFailed function reason]

/-- The effects of a call of the callback module: what it does, and that it fails. -/
def answers (function : CallbackFunction) (result : List ε × Except Reason σ) :
    List (Effect κ σ ε) :=
  result.1.map .callback ++ failureOf function result.2

/-- What the callback module answers is an effect of the process. -/
def ofCallback (function : CallbackFunction) (result : List ε × Except Reason σ) :
    Out κ σ ε (Except Reason σ) :=
  (answers function result, result.2)

/-- What holds of everything that the module does, and of a failure. -/
lemma forall_answers {p : Effect κ σ ε → Prop} {function : CallbackFunction}
    {result : List ε × Except Reason σ} (each : ∀ effect ∈ result.1, p (.callback effect))
    (failed : ∀ reason, p (.callbackFailed function reason)) :
    ∀ e ∈ answers function result, p e := by
  intro e mem
  rcases List.mem_append.mp mem with done | failure
  · obtain ⟨effect, did, rfl⟩ := List.mem_map.mp done
    exact each effect did
  · cases answer : result.2 with
    | ok callbackState =>
      rw [answer] at failure
      cases failure
    | error reason =>
      rw [answer] at failure
      rw [List.mem_singleton.mp failure]
      exact failed reason

/-- A failure is recorded. -/
lemma mem_answers_of_error {function : CallbackFunction} {result : List ε × Except Reason σ}
    {reason : Reason} (fails : result.2 = .error reason) :
    (.callbackFailed function reason : Effect κ σ ε) ∈ answers function result := by
  rw [answers, fails]
  exact List.mem_append_right _ (List.mem_singleton_self _)

/-- A call that succeeds leaves nothing but what the module does. -/
lemma answers_of_ok {function : CallbackFunction} {result : List ε × Except Reason σ}
    {callbackState : σ} (succeeds : result.2 = .ok callbackState) :
    (answers function result : List (Effect κ σ ε)) = result.1.map .callback := by
  rw [answers, succeeds]
  exact List.append_nil _

/-! ## Requests -/

def crlf : Bytes := [13, 10]

/-- The bytes of a request. -/
def Request.encode : Request → Bytes
  | .ping => ascii "*1\r\n$4\r\nPING\r\n"
  | .auth (some username) password =>
    ascii "*3\r\n$4\r\nAUTH\r\n$" ++ Bytes.natText username.length ++ crlf ++ username ++ crlf ++
      ascii "$" ++ Bytes.natText password.length ++ crlf ++ password ++ crlf
  | .auth none password =>
    ascii "*2\r\n$4\r\nAUTH\r\n$" ++ Bytes.natText password.length ++ crlf ++ password ++ crlf
  | .replconfListeningPort =>
    ascii "*3\r\n$8\r\nREPLCONF\r\n$14\r\nlistening-port\r\n$5\r\n99999\r\n"
  | .replconfCapa => ascii "*3\r\n$8\r\nREPLCONF\r\n$4\r\ncapa\r\n$6\r\npsync2\r\n"
  | .psync replicationId offset =>
    ascii "*3\r\n$5\r\nPSYNC\r\n$" ++ Bytes.natText replicationId.length ++ crlf ++ replicationId ++
      crlf ++ ascii "$" ++ Bytes.natText (Bytes.intText offset).length ++ crlf ++
      Bytes.intText offset ++ crlf
  | .replconfAck offset =>
    ascii "*3\r\n$8\r\nREPLCONF\r\n$3\r\nACK\r\n$" ++ Bytes.natText (Bytes.intText offset).length ++
      crlf ++ Bytes.intText offset ++ crlf

/-- The words of a request. -/
def Request.words : Request → List Bytes
  | .ping => [ascii "PING"]
  | .auth username password => ascii "AUTH" :: (username.toList ++ [password])
  | .replconfListeningPort => [ascii "REPLCONF", ascii "listening-port", ascii "99999"]
  | .replconfCapa => [ascii "REPLCONF", ascii "capa", ascii "psync2"]
  | .psync replicationId offset => [ascii "PSYNC", replicationId, Bytes.intText offset]
  | .replconfAck offset => [ascii "REPLCONF", ascii "ACK", Bytes.intText offset]

section
open ReplicaParser (encodeArray encodeBulk)

/-- The byte of the dollar sign. -/
lemma ascii_dollar : ascii "$" = [36] := by decide

/-- A text that ends at the length of the first word behind the known ones. -/
lemma ascii_front (text : String) (n : Nat) (front back : List Bytes) {rest : Bytes}
    (same : ascii text =
      42 :: (Bytes.natText n ++ 13 :: 10 :: ((front.map encodeBulk).flatten ++ [36])))
    (many : n = front.length + back.length) (behind : (back.map encodeBulk).flatten = 36 :: rest) :
    ascii text ++ rest = encodeArray (front ++ back) := by
  rw [same, encodeArray, List.length_append, ← many, List.map_append, List.flatten_append, behind]
  simp only [List.cons_append, List.append_assoc, List.nil_append]

/-- A request is an array of bulk strings. -/
theorem Request.encode_eq (request : Request) : request.encode = encodeArray request.words := by
  cases request with
  | ping => decide +kernel
  | auth username password =>
    cases username with
    | none =>
      refine Eq.trans ?_ (ascii_front "*2\r\n$4\r\nAUTH\r\n$" 2 [ascii "AUTH"] [password]
        (by decide +kernel) rfl rfl)
      simp [encode, crlf]
    | some username =>
      refine Eq.trans ?_ (ascii_front "*3\r\n$4\r\nAUTH\r\n$" 3 [ascii "AUTH"] [username, password]
        (by decide +kernel) rfl rfl)
      simp [encode, encodeBulk, crlf, ascii_dollar]
  | replconfListeningPort => decide +kernel
  | replconfCapa => decide +kernel
  | psync replicationId offset =>
    refine Eq.trans ?_ (ascii_front "*3\r\n$5\r\nPSYNC\r\n$" 3 [ascii "PSYNC"]
      [replicationId, Bytes.intText offset] (by decide +kernel) rfl rfl)
    simp [encode, encodeBulk, crlf, ascii_dollar]
  | replconfAck offset =>
    refine Eq.trans ?_ (ascii_front "*3\r\n$8\r\nREPLCONF\r\n$3\r\nACK\r\n$" 3
      [ascii "REPLCONF", ascii "ACK"] [Bytes.intText offset] (by decide +kernel) rfl rfl)
    simp [encode, crlf]

end

/-- `transport_send`. -/
def transportSend (env : Answers) (request : Request) : Out κ σ ε (Except Reason Unit) :=
  match env.send with
  | .ok () => ([.send request], .ok ())
  | .error reason => ([], .error reason)

/-- Send a request and go to the phase that waits for its reply, as `send_ping`, `send_auth`,
`send_replconf_listening_port` and `send_replconf_capa` do. -/
def sendRequest (env : Answers) (request : Request) (phase : Phase) (s : State σ) :
    Out κ σ ε (Except Reason (State σ)) :=
  (transportSend env request).andThen fun
    | .ok () => ([], .ok { s with state := phase })
    | .error reason => ([], .error reason)

def sendPing (env : Answers) (s : State σ) : Out κ σ ε (Except Reason (State σ)) :=
  sendRequest env .ping .ping s

def sendAuth (cfg : Config κ σ ε μ) (env : Answers) (password : Bytes) (s : State σ) :
    Out κ σ ε (Except Reason (State σ)) :=
  sendRequest env (.auth cfg.username password) .auth s

def sendReplconfListeningPort (env : Answers) (s : State σ) : Out κ σ ε (Except Reason (State σ)) :=
  sendRequest env .replconfListeningPort .replconfListeningPort s

def sendReplconfCapa (env : Answers) (s : State σ) : Out κ σ ε (Except Reason (State σ)) :=
  sendRequest env .replconfCapa .replconfCapa s

/-- The id and the offset that `send_psync` asks for. -/
def psyncRequest (s : State σ) : Request :=
  match s.savedReplicationId with
  | some replicationId => .psync replicationId s.savedReplicationOffset
  | none => .psync (ascii "?") (-1)

def sendPsync (env : Answers) (s : State σ) : Out κ σ ε (Except Reason (State σ)) :=
  sendRequest env (psyncRequest s) .psync s

/-- What `replication_state` returns. -/
inductive ReplicationState where
  | phase (p : Phase)
  | rdbTransfer
  | streaming
  deriving DecidableEq, Repr

/-- `replication_state`. -/
def replicationState (s : State σ) : ReplicationState :=
  match s.state, s.replicaParser with
  | .replication, some parser =>
    match parser.state with
    | .streaming => .streaming
    | .readingRdb => .rdbTransfer
    | .waitingRdb => .rdbTransfer
  | p, _ => .phase p

/-- `send_replconf_ack`: whether the transport takes it makes no difference. -/
def sendReplconfAck (env : Answers) (s : State σ) : List (Effect κ σ ε) :=
  if s.socket.isSome ∧ replicationState s = .streaming then
    (transportSend env (.replconfAck s.replicationOffset)).1
  else []

/-! ## Timers and the end of a connection -/

def cancelAckTimer (s : State σ) : Out κ σ ε (State σ) :=
  if s.ackTimer then ([.cancelTimer .ack], { s with ackTimer := false }) else ([], s)

def cancelReconnectTimer (s : State σ) : Out κ σ ε (State σ) :=
  if s.reconnectTimer then ([.cancelTimer .reconnect],
    { s with reconnectTimer := false }) else ([], s)

def schedulePeriodicAck (cfg : Config κ σ ε μ) (s : State σ) : Out κ σ ε (State σ) :=
  (cancelAckTimer s).andThen fun s =>
    ([.startTimer .ack cfg.ackIntervalMs], { s with ackTimer := true })

/-- `transport_close`, if there is a socket. -/
def closeSocket (s : State σ) : List (Effect κ σ ε) :=
  if s.socket.isSome then [.close] else []

def scheduleReconnect (cfg : Config κ σ ε μ) (reason : Reason) (s : State σ) :
    Out κ σ ε (Status σ) :=
  Out.andThen (closeSocket s, ()) fun _ =>
    (cancelReconnectTimer s).andThen fun s =>
      if cfg.reconnectEnabled then
        ([.startTimer .reconnect s.currentReconnectDelayMs], .running { s with
          currentReconnectDelayMs := min (s.currentReconnectDelayMs * 2) cfg.maxReconnectDelayMs
          reconnectTimer := true
          buffer := []
          state := .init })
      else ([], .stopped reason)

def handleDisconnect (cfg : Config κ σ ε μ) (reason : Reason) (s : State σ) :
    Out κ σ ε (Status σ) :=
  Out.andThen (closeSocket s, ()) fun _ =>
    (cancelAckTimer s).andThen fun s =>
      scheduleReconnect cfg reason { s with
        socket := none
        savedReplicationId := s.replicationId.or s.savedReplicationId
        savedReplicationOffset := s.replicationOffset
        replicaParser := none
        buffer := []
        state := .init }

/-! ## Connecting -/

def proceedAfterConnect (cfg : Config κ σ ε μ) (env : Answers) (s : State σ) :
    Out κ σ ε (Except Reason (State σ)) :=
  match cfg.password with
  | some password => sendAuth cfg env password { s with state := .auth }
  | none => sendPing env { s with state := .ping }

/-- `connect`: a failing `transport_setopts` raises. -/
def connect (cfg : Config κ σ ε μ) (env : Answers) (s : State σ) :
    Out κ σ ε (Except Reason (State σ)) :=
  match env.connect with
  | .ok socket =>
    if env.setopts then proceedAfterConnect cfg env { s with socket := some socket }
    else ([], .error .raised)
  | .error reason => ([], .error reason)

/-- `handle_continue`. -/
def handleContinue (cfg : Config κ σ ε μ) (env : Answers) (s : State σ) : Out κ σ ε (Status σ) :=
  (connect cfg env s).andThen fun
    | .ok connected =>
      (cancelReconnectTimer { connected with
        currentReconnectDelayMs := cfg.reconnectDelayMs }).andThen
        fun s => ([], .running s)
    | .error .raised => ([], .stopped .raised)
    | .error reason => scheduleReconnect cfg (.failed "connection_failed" reason) s

/-! ## Replies of the primary -/

/-- What is made of the buffer while a reply is awaited. -/
inductive Reply (α : Type) where
  | complete (reply : α) (rest : Bytes)
  | incomplete
  | failed (reason : Reason)
  deriving DecidableEq, Repr

/-- `:binary.split(buffer, "\r\n")`, if the line end is there. -/
def splitLine (buffer : Bytes) : Option (Bytes × Bytes) :=
  (findCrlf buffer).map fun pos => (buffer.take pos, buffer.drop (pos + 2))

/-- `parse_simple_response`. -/
def parseSimpleResponse : Bytes → Reply Bytes
  | [] => .incomplete
  | b :: rest =>
    if b = 13 ∨ b = 10 then parseSimpleResponse rest
    else if b = 43 then
      match splitLine (b :: rest) with
      | some (line, rest) => .complete (line.drop 1) rest
      | none => .incomplete
    else if b = 45 then
      match splitLine (b :: rest) with
      | some (line, _) => .failed (.redisError (line.drop 1))
      | none => .incomplete
    else .incomplete

/-- `String.to_integer`: an optional sign and at least one digit; it raises on anything else. -/
def stringToInteger (text : Bytes) : Option Int :=
  let (negative, digits) := match text with
    | 45 :: rest => (true, rest)
    | 43 :: rest => (false, rest)
    | _ => (false, text)
  if digits ≠ [] ∧ digits.all Bytes.isDigit then
    some (if negative then -(Bytes.digitsValue digits : Int) else Bytes.digitsValue digits)
  else none

/-- The parameters of `+FULLRESYNC`: split at the first space, the rest is the offset. -/
def parseFullresync (params : Bytes) : Option PsyncReply :=
  let replicationId := params.takeWhile (· ≠ 32)
  match params.dropWhile (· ≠ 32) with
  | [] => none
  | _ :: offset => (stringToInteger offset).map (.fullresync replicationId)

/-- `parse_psync_response`. -/
def parsePsyncResponse : Bytes → Reply PsyncReply
  | [] => .incomplete
  | b :: rest =>
    if b = 13 ∨ b = 10 then parsePsyncResponse rest
    else if (ascii "+FULLRESYNC ").isPrefixOf (b :: rest) then
      match splitLine (b :: rest) with
      | some (line, rest) =>
        match parseFullresync (line.drop 12) with
        | some reply => .complete reply rest
        | none => .failed .raised
      | none => .incomplete
    else if (ascii "+CONTINUE").isPrefixOf (b :: rest) then
      match splitLine (b :: rest) with
      | some (_, rest) => .complete .continued rest
      | none => .incomplete
    else if b = 45 then
      match splitLine (b :: rest) with
      | some (line, _) => .failed (.redisError (line.drop 1))
      | none => .incomplete
    else .incomplete

/-! ## Replication data -/

/-- What a handler of data returns: `{:noreply, _}`, `{:reconnect, _, _}` or `{:stop, _, _}`. -/
inductive Handled (σ : Type) where
  | noreply (s : State σ)
  | reconnect (reason : Reason) (s : State σ)
  | stop (reason : Reason)
  deriving DecidableEq, Repr

/-- `do_process_commands`. -/
def doProcessCommands (cfg : Config κ σ ε μ) (commands : List (ReplicaCommand κ)) (s : State σ) :
    Out κ σ ε (Except Reason (State σ)) :=
  match commands with
  | [] => ([], .ok s)
  | _ =>
    Out.andThen ([.handleCommands s.callbackState commands], ()) fun _ =>
      (ofCallback .handleCommands (cfg.callback.handleCommands s.callbackState commands)).andThen
        fun
        | .ok callbackState => ([], .ok { s with callbackState })
        | .error reason => ([], .error reason)

/-- `process_commands`. -/
def processCommands (cfg : Config κ σ ε μ) (commands : List (ReplicaCommand κ)) (s : State σ) :
    Out κ σ ε (Except Reason (State σ)) :=
  doProcessCommands cfg (cfg.commandFilter.applyPre commands) s

/-- The call of `handle_streaming_start` in `handle_replication_data`: only in the chunk in which
the parser starts streaming. -/
def startStreaming (cfg : Config κ σ ε μ) (before after : ReplicaParser.ReplicaState)
    (s : State σ) : Out κ σ ε (Except Reason (State σ)) :=
  if before ≠ .streaming ∧ after = .streaming then
    (ofCallback .handleStreamingStart (cfg.callback.handleStreamingStart s.callbackState)).andThen
      fun
      | .ok callbackState => ([], .ok { s with callbackState })
      | .error reason => ([], .error (.failed "handle_streaming_start_failed" reason))
  else ([], .ok s)

/-- `handle_replication_data`. The reply to `PING` and `REPLCONF GETACK` goes out before the offset
is updated, and looks at the parser that has been fed. -/
def handleReplicationData (cfg : Config κ σ ε μ) (env : Answers) (data : Bytes) (s : State σ) :
    Out κ σ ε (Handled σ) :=
  match s.replicaParser with
  | none => ([], .stop .raised)
  | some parser =>
    let fed := (ReplicaParser.feedData parser data).map (·.2)
    Out.andThen ([.parserData data fed], ()) fun _ =>
      match Parser.data cfg.parse parser data with
      | .error .raised => ([], .stop .raised)
      | .error reason => ([], .reconnect (.failed "parse_failed" reason) s)
      | .ok (commands, newParser, flags) =>
        let s := { s with replicaParser := some newParser }
        let acks := if flags.ping ∨ flags.replconfGetack then sendReplconfAck env s else []
        let newOffset :=
          if parser.state = .streaming then s.replicationOffset +
            data.length else s.replicationOffset
        let stateWithOffset := { s with replicationOffset := newOffset }
        Out.andThen (acks, ()) fun _ =>
          (startStreaming cfg parser.state newParser.state stateWithOffset).andThen fun
            | .error reason => ([], .stop reason)
            | .ok stateWithOffset =>
              (processCommands cfg commands stateWithOffset).andThen fun
                | .ok s => ([], .noreply s)
                | .error reason => ([], .stop (.failed "callback_failed" reason))

/-! ## The handshake -/

/-- Send the next request of the handshake; a failing send stops the process. -/
def orStop (what : String) (out : Out κ σ ε (Except Reason (State σ))) : Out κ σ ε (Handled σ) :=
  out.andThen fun
    | .ok s => ([], .noreply s)
    | .error reason => ([], .stop (.failed what reason))

/-- The skeleton of the handlers of a simple reply: wait for the rest of it, reconnect if it is an
error, else go on with what stands behind it. -/
def onSimpleResponse (what : String) (s : State σ) (next : State σ → Out κ σ ε (Handled σ)) :
    Out κ σ ε (Handled σ) :=
  match parseSimpleResponse s.buffer with
  | .complete _ rest => next { s with buffer := rest }
  | .incomplete => ([], .noreply s)
  | .failed reason => ([], .reconnect (.failed what reason) s)

def handlePingResponse (env : Answers) (s : State σ) : Out κ σ ε (Handled σ) :=
  onSimpleResponse "ping_failed" s fun s =>
    orStop "replconf_failed" (sendReplconfListeningPort env s)

/-- `handle_auth_response`: here a failing send reconnects. -/
def handleAuthResponse (env : Answers) (s : State σ) : Out κ σ ε (Handled σ) :=
  onSimpleResponse "auth_failed" s fun s =>
    (sendPing env s).andThen fun
      | .ok s => ([], .noreply s)
      | .error reason => ([], .reconnect (.failed "ping_failed" reason) s)

/-- `handle_replconf_response` with the next action `:replconf_capa`. -/
def handleListeningPortResponse (env : Answers) (s : State σ) : Out κ σ ε (Handled σ) :=
  onSimpleResponse "replconf_failed" s fun s => orStop "replconf_failed" (sendReplconfCapa env s)

/-- `handle_replconf_response` with the next action `:send_psync`. -/
def handleCapaResponse (env : Answers) (s : State σ) : Out κ σ ε (Handled σ) :=
  onSimpleResponse "replconf_failed" s fun s => orStop "psync_failed" (sendPsync env s)

/-- `handle_psync_completed`. -/
def handlePsyncCompleted (cfg : Config κ σ ε μ) (reply : PsyncReply) (s : State σ) :
    Out κ σ ε (Except Reason (State σ)) :=
  Out.andThen ([.psyncCompleted reply], ()) fun _ =>
    match reply with
    | .fullresync replicationId offset =>
      (ofCallback .handleReplicationStart
        (cfg.callback.handleReplicationStart s.callbackState)).andThen fun
        | .ok callbackState => ([], .ok { s with
            callbackState
            replicationId := some replicationId
            replicationOffset := offset
            replicaParser := some (.new false)
            state := .replication })
        | .error reason => ([], .error (.failed "handle_replication_start_failed" reason))
    | .continued => ([], .ok { s with
        replicationId := s.savedReplicationId
        replicationOffset := s.savedReplicationOffset
        replicaParser := some (.new true)
        state := .replication })

/-- `handle_psync_response`. What stands behind the reply is replication data. -/
def handlePsyncResponse (cfg : Config κ σ ε μ) (env : Answers) (s : State σ) :
    Out κ σ ε (Handled σ) :=
  match parsePsyncResponse s.buffer with
  | .incomplete => ([], .noreply s)
  | .failed .raised => ([], .stop .raised)
  | .failed reason => ([], .reconnect (.failed "psync_failed" reason) s)
  | .complete reply rest =>
    (handlePsyncCompleted cfg reply { s with buffer := rest }).andThen fun
      | .error reason => ([], .stop (.failed "handle_replication_start_failed" reason))
      | .ok s =>
        (schedulePeriodicAck cfg s).andThen fun s =>
          if s.buffer = [] then ([], .noreply s)
          else handleReplicationData cfg env s.buffer { s with buffer := [] }

/-! ## Messages -/

/-- The handlers that `handle_data` chooses from. In the phase `:init` there is no socket and no
clause. -/
def dispatchData (cfg : Config κ σ ε μ) (env : Answers) (data : Bytes) (s : State σ) :
    Out κ σ ε (Handled σ) :=
  let appended := { s with buffer := s.buffer ++ data }
  match s.state with
  | .replication => handleReplicationData cfg env data s
  | .ping => handlePingResponse env appended
  | .auth => handleAuthResponse env appended
  | .replconfListeningPort => handleListeningPortResponse env appended
  | .replconfCapa => handleCapaResponse env appended
  | .psync => handlePsyncResponse cfg env appended
  | .init => ([], .stop .raised)

/-- `handle_data`. -/
def handleData (cfg : Config κ σ ε μ) (env : Answers) (data : Bytes) (s : State σ) :
    Out κ σ ε (Status σ) :=
  (dispatchData cfg env data s).andThen fun
    | .noreply s => ([], if env.setopts then .running s else .stopped .raised)
    | .reconnect reason s => handleDisconnect cfg reason s
    | .stop reason => ([], .stopped reason)

/-- What arrives in the mailbox of the process. Data, closing and failing of a connection carry
their socket, TCP or SSL. -/
inductive Message (μ : Type) where
  | data (socket : Socket) (data : Bytes)
  | closed (socket : Socket)
  | failed (socket : Socket) (reason : Reason)
  | reconnectTimeout
  | sendPeriodicAck
  | callbackCall (message : μ)
  | info (message : μ)
  deriving DecidableEq, Repr

/-- The last clause of `handle_info`: an error of the callback module leaves its state as it was. -/
def callbackInfo (cfg : Config κ σ ε μ) (message : μ) (s : State σ) : Out κ σ ε (Status σ) :=
  (ofCallback .handleInfo (cfg.callback.handleInfo s.callbackState message)).andThen fun
    | .ok callbackState => ([], .running { s with callbackState })
    | .error .raised => ([], .stopped .raised)
    | .error _ => ([], .running s)

/-- The call `{:callback_call, message}`. -/
def callbackCall (cfg : Config κ σ ε μ) (message : μ) (s : State σ) : Out κ σ ε (Status σ) :=
  if s.state = .replication then
    (ofCallback .handleCall (cfg.callback.handleCall s.callbackState message)).andThen fun
      | .ok callbackState => ([], .running { s with callbackState })
      | .error .raised => ([], .stopped .raised)
      | .error _ => ([], .running s)
  else ([], .running s)

/-- `handle_info` and `handle_call`. The closing of a socket that is not the current one is only
logged; its data and failures match no clause but the last, and what the callback module makes of
them is an `info` message of its own. -/
def handleMessage (cfg : Config κ σ ε μ) (env : Answers) (message : Message μ) (s : State σ) :
    Out κ σ ε (Status σ) :=
  match message with
  | .data socket data =>
    if s.socket = some socket then handleData cfg env data s else ([], .running s)
  | .closed socket =>
    if s.socket = some socket then handleDisconnect cfg (.text "connection_closed") s
    else ([], .running s)
  | .failed socket reason =>
    if s.socket = some socket then handleDisconnect cfg (.failed "tcp_error" reason) s
    else ([], .running s)
  | .reconnectTimeout =>
    if s.reconnectTimer then handleContinue cfg env { s with reconnectTimer := false }
    else ([], .running s)
  | .sendPeriodicAck =>
    Out.andThen (sendReplconfAck env s, ()) fun _ =>
      (schedulePeriodicAck cfg s).andThen fun s => ([], .running s)
  | .callbackCall message => callbackCall cfg message s
  | .info message => callbackInfo cfg message s

/-- `init` and the first `handle_continue`. -/
def start (cfg : Config κ σ ε μ) (env : Answers) : Out κ σ ε (Status σ) :=
  (ofCallback .init cfg.callback.init).andThen fun
    | .ok callbackState => handleContinue cfg env (.new cfg callbackState)
    | .error reason => ([], .stopped (.failed "init_failed" reason))

end Replica

end Veidrodelis.RedisStream
