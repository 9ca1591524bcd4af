import Veidrodelis.RedisStream.Exchange

/-!
# The handshake, however its bytes are cut

A `Script` is what a primary says on one connection: simple replies, the last line (the reply to
`PSYNC` or an error), and the payload behind it. `Talks` delivers it to the replica in chunks, in
any cutting in which no reply arrives before its request; ticks of the acknowledge timer and
messages to the callback module may come in between. `handshake_framing` says what has been
exchanged at every moment of every such talk, and `run_talks` that a talk may begin wherever a run
waits for the reconnect timer.
-/

namespace Veidrodelis.RedisStream
open RedisNif

variable {κ σ ε μ : Type}

namespace Replica

/-! ## Talks -/

/-- What a primary says on one connection: simple replies, the last line with the keepalives in
front of it, and what stands behind it. -/
structure Script where
  replies : List SimpleReply
  keepalive : Bytes
  ending : Ending
  payload : Bytes
  lineEnds : LineEnds keepalive
  oneLine : OneLine ending.line

namespace Script

def lastLine (script : Script) : Bytes := script.keepalive ++ (script.ending.line ++ crlf)

/-- Everything up to the end of the last line. -/
def lines (script : Script) : Bytes := script.replies.flatMap SimpleReply.bytes ++ script.lastLine

/-- The line that is awaited when these replies are outstanding. -/
def awaited (script : Script) : List SimpleReply → Bytes
  | [] => script.lastLine
  | reply :: _ => reply.bytes

/-- The keepalives in front of it. -/
def keepalives (script : Script) : List SimpleReply → Bytes
  | [] => script.keepalive
  | reply :: _ => reply.keepalive

/-- What the primary can have sent of the outstanding replies after so many more requests: no reply
before its request, but keepalives, and the payload when the last line is out. -/
def upTo (script : Script) : List SimpleReply → Nat → Bytes
  | replies, 0 => script.keepalives replies
  | [], _ + 1 => script.lastLine ++ script.payload
  | reply :: replies, n + 1 => reply.bytes ++ script.upTo replies n

/-- The script is one of a primary that replies to these many requests: an error may come at any of
them, the reply to `PSYNC` comes last. -/
structure Fits (script : Script) (requests : Nat) : Prop where
  error : script.replies.length < requests
  psync : script.ending.reply ≠ none → script.replies.length + 1 = requests

end Script

/-- The process has connected, and the bytes `delivered` of the script have arrived in chunks. -/
inductive Talks (cfg : Config κ σ ε μ) (script : Script) (s₀ : State σ) (socket : Socket) :
    Bytes → List (Effect κ σ ε) → Status σ → Prop where
  | connect {env : Answers} {es : List (Effect κ σ ε)} {st : Status σ} (smooth : env.Smooth)
      (connected : env.connect = .ok socket) (h : handleContinue cfg env s₀ = (es, st)) :
      Talks cfg script s₀ socket [] es st
  | chunk {env : Answers} {delivered chunk : Bytes} {es es' : List (Effect κ σ ε)} {s : State σ}
      {st : Status σ} (before : Talks cfg script s₀ socket delivered es (.running s))
      (smooth : env.Smooth)
      (sent : delivered ++ chunk <+: script.upTo script.replies (exchange es).requests.length)
      (h : handleMessage cfg env (.data socket chunk) s = (es', st)) :
      Talks cfg script s₀ socket (delivered ++ chunk) (es ++ es') st
  | aside {env : Answers} {delivered : Bytes} {es es' : List (Effect κ σ ε)} {message : Message μ}
      {s : State σ} {st : Status σ} (before : Talks cfg script s₀ socket delivered es (.running s))
      (aside : message.Aside) (h : handleMessage cfg env message s = (es', st)) :
      Talks cfg script s₀ socket delivered (es ++ es') st

/-- What has been exchanged when these bytes of the script have arrived. Every reply that is there
was answered with the next request; of the payload nothing is handed over before its time, and
nothing else. -/
def Script.Exchanged (script : Script) (requests : List Request) (delivered : Bytes)
    (x : Exchange) : Prop :=
  (∃ past rest, script.replies = past ++ rest ∧ past.flatMap SimpleReply.bytes <+: delivered ∧
    ¬ past.flatMap SimpleReply.bytes ++ script.awaited rest <+: delivered ∧
    x = ⟨requests.take (past.length + 1), [], []⟩) ∨
  (script.lines <+: delivered ∧ match script.ending.reply with
    | some reply => x.requests = requests ∧ x.replies = [reply] ∧ x.handed <+: script.payload ∧
        script.lines ++ x.handed <+: delivered
    | none => x = ⟨requests.take (script.replies.length + 1), [], []⟩)

variable {cfg : Config κ σ ε μ} {s s₀ s' : State σ} {es es' : List (Effect κ σ ε)} {st : Status σ}
  {env : Answers} {socket : Socket} {request : Request} {phase : Phase} {data rest : Bytes}
  {script : Script} {delivered chunk : Bytes} {past outstanding : List SimpleReply}
  {done todo : List (Request × Phase)} {step next : Request × Phase}

namespace Script

/-- What may follow the awaited line before the next request. -/
def behind (script : Script) : List SimpleReply → Bytes
  | [] => script.payload
  | _ :: replies => script.keepalives replies

/-- Up to the next reply: the bytes awaited and those behind them. -/
lemma upTo_one (script : Script) (replies : List SimpleReply) :
    script.upTo replies 1 = script.awaited replies ++ script.behind replies := by
  cases replies with
  | nil => rfl
  | cons reply replies => rw [upTo, upTo, awaited, behind]

/-- Replies that are past are their bytes. -/
lemma upTo_append (script : Script) (past replies : List SimpleReply) (n : Nat) :
    script.upTo (past ++ replies) (past.length + n)
      = past.flatMap SimpleReply.bytes ++ script.upTo replies n := by
  induction past with
  | nil => rw [List.nil_append, List.length_nil, Nat.zero_add, List.flatMap_nil, List.nil_append]
  | cons reply past ih =>
    have size : (reply :: past).length + n = (past.length + n) + 1 := by
      rw [List.length_cons]
      omega
    rw [size, List.cons_append, upTo, ih, List.flatMap_cons, List.append_assoc]

/-- Keepalives are not a line yet. -/
lemma keepalives_short (script : Script) {replies : List SimpleReply}
    (h : rest <+: script.keepalives replies) :
    rest <+: script.awaited replies ∧ rest ≠ script.awaited replies := by
  have longer : ∃ line, line ≠ [] ∧ script.awaited replies = script.keepalives replies ++ line := by
    cases replies with
    | nil => exact ⟨script.ending.line ++ crlf, by simp [crlf], rfl⟩
    | cons reply replies => exact ⟨43 :: reply.text ++ crlf, by simp, rfl⟩
  obtain ⟨line, filled, eq⟩ := longer
  rw [eq]
  refine ⟨h.trans (List.prefix_append _ _), fun same => filled ?_⟩
  have short := h.length_le
  rw [same, List.length_append] at short
  exact List.length_eq_zero_iff.mp (by omega)

end Script

/-! ## Waiting for a reply -/

/-- These replies have been answered, the next one is awaited, and some of its bytes may be in the
buffer. -/
structure Waiting (cfg : Config κ σ ε μ) (script : Script) (s₀ : State σ) (socket : Socket)
    (past outstanding : List SimpleReply) (done : List (Request × Phase)) (step : Request × Phase)
    (todo : List (Request × Phase)) (delivered : Bytes) (es : List (Effect κ σ ε)) (s : State σ) :
      Prop where
  replies : script.replies = past ++ outstanding
  path : steps cfg s₀ = done ++ step :: todo
  even : done.length = past.length
  phase : s.state = step.2
  here : s.socket = some socket
  saved : ∀ reply : PsyncReply, reply.position s = reply.position s₀
  delivered : delivered = past.flatMap SimpleReply.bytes ++ s.buffer
  begun : s.buffer <+: script.awaited outstanding
  short : s.buffer ≠ script.awaited outstanding
  exchanged : exchange es = ⟨(done ++ [step]).map (·.1), [], []⟩

/-- The next step depends on the saved position only. -/
lemma following_saved (saved : ∀ reply : PsyncReply, reply.position s = reply.position s₀)
    (phase : Phase) : following s phase = following s₀ phase := by
  have id : s.savedReplicationId = s₀.savedReplicationId := congrArg Prod.fst (saved .continued)
  have offset : s.savedReplicationOffset = s₀.savedReplicationOffset :=
    congrArg Prod.snd (saved .continued)
  have same : psyncRequest s = psyncRequest s₀ := by rw [psyncRequest, psyncRequest, id, offset]
  cases phase <;> simp only [following, same]

namespace Waiting

/-- What is new can only belong to the awaited line and to what may follow it. -/
lemma arrived (w : Waiting cfg script s₀ socket past outstanding done step todo delivered es s)
    (sent : delivered ++ chunk <+: script.upTo script.replies (exchange es).requests.length) :
    s.buffer ++ chunk <+: script.awaited outstanding ++ script.behind outstanding := by
  have requested : (exchange es).requests.length = past.length + 1 := by
    rw [w.exchanged, List.length_map, List.length_append, w.even, List.length_singleton]
  rw [requested, w.replies, Script.upTo_append, Script.upTo_one, w.delivered,
    List.append_assoc] at sent
  exact (List.prefix_append_right_inj _).mp sent

/-- There are as many replies outstanding as requests to come, or fewer if the last line is an
error. -/
lemma fits (w : Waiting cfg script s₀ socket past outstanding done step todo delivered es s)
    (fits : script.Fits (requests cfg s₀).length) : outstanding.length ≤ todo.length ∧
      (script.ending.reply ≠ none → outstanding.length = todo.length) := by
  have total : (requests cfg s₀).length = past.length + (1 + todo.length) := by
    rw [requests, List.length_map, w.path, List.length_append, w.even, List.length_cons]
    omega
  have error := fits.error
  rw [total, w.replies, List.length_append] at error
  refine ⟨by omega, fun reply => ?_⟩
  have psync := fits.psync reply
  rw [total, w.replies, List.length_append] at psync
  omega

/-- A process that waits has its next step ahead. -/
lemma following
    (w : Waiting cfg script s₀ socket past outstanding done step (next :: todo) delivered es s) :
    Replica.following s s.state = some next := by
  rw [w.phase, following_saved w.saved]
  exact steps_following w.path

/-- A process without steps ahead waits for the reply to PSYNC. -/
lemma psync (w : Waiting cfg script s₀ socket past outstanding done step [] delivered es s) :
    s.state = .psync := by
  rw [w.phase, steps_last w.path]

/-- A byte of the awaited line is still missing. -/
lemma dispatch_short
    (w : Waiting cfg script s₀ socket past outstanding done step todo delivered es s)
    (fits : script.Fits (requests cfg s₀).length) (smooth : env.Smooth)
    (begun : s.buffer ++ chunk <+: script.awaited outstanding)
    (short : s.buffer ++ chunk ≠ script.awaited outstanding) :
    (dispatchData cfg env chunk s : Out κ σ ε (Handled σ)) =
      ([], .noreply { s with buffer := s.buffer ++ chunk }) := by
  obtain ⟨few, same⟩ := w.fits fits
  cases todo with
  | nil =>
    -- the reply to `PSYNC` is awaited, which has its own parser
    obtain rfl := List.length_eq_zero_iff.mp (Nat.le_zero.mp few)
    have parse := parsePsyncResponse_short script.ending script.lineEnds script.oneLine begun short
    rw [dispatchData_psync w.psync, handlePsyncResponse, parse]
  | cons next todo =>
    have parse : parseSimpleResponse (s.buffer ++ chunk) = .incomplete := by
      cases outstanding with
      | cons reply outstanding =>
        have one : OneLine (43 :: reply.text) := oneLine_cons (by decide) reply.oneLine
        exact parseSimpleResponse_short (by decide) reply.lineEnds one begun short
      | nil =>
        cases e : script.ending with
        | error text =>
          have one := script.oneLine
          rw [Script.awaited, Script.lastLine, e] at begun short
          rw [e] at one
          exact parseSimpleResponse_short (by decide) script.lineEnds one begun short
        -- these come when no request is left
        | fullresync replicationId offset spaceless => cases same (by simp [e, Ending.reply])
        | continued tail => cases same (by simp [e, Ending.reply])
    obtain ⟨what, eq⟩ := dispatchData_simple smooth w.following
    rw [eq, parse]

/-- A reply is there: the next request goes out, and what stands behind the reply stays in the
buffer. -/
lemma dispatch_reply {reply : SimpleReply}
    (w : Waiting cfg script s₀ socket past (reply :: outstanding) done step
      (next :: todo) delivered es s)
    (smooth : env.Smooth) (eq : s.buffer ++ chunk = reply.bytes ++ rest) :
    (dispatchData cfg env chunk s : Out κ σ ε (Handled σ)) =
      ([.send next.1], .noreply { s with buffer := rest, state := next.2 }) := by
  obtain ⟨what, same⟩ := dispatchData_simple smooth w.following
  rw [same, eq, parseSimpleResponse_line]

/-- An error is there. -/
lemma dispatch_error {text : Bytes}
    (w : Waiting cfg script s₀ socket past [] done step todo delivered es s) (smooth : env.Smooth)
    (error : script.ending = .error text) (eq : s.buffer ++ chunk = script.lastLine ++ rest) :
    ∃ reason t, (dispatchData cfg env chunk s : Out κ σ ε (Handled σ)) =
      ([], .reconnect reason t) := by
  have one := script.oneLine
  cases todo with
  | nil =>
    have parse : parsePsyncResponse (s.buffer ++ chunk) = .failed (.redisError text) := by
      rw [eq, Script.lastLine, parsePsyncResponse_line script.ending script.lineEnds one, error,
        Ending.read]
    rw [dispatchData_psync w.psync]
    simp only [handlePsyncResponse, parse]
    exact ⟨_, _, rfl⟩
  | cons next todo =>
    obtain ⟨what, same⟩ := dispatchData_simple smooth w.following
    rw [error] at one
    have oneText : OneLine text := fun b hb => one b (List.mem_cons_of_mem _ hb)
    have parse := parseSimpleResponse_error script.lineEnds oneText rest
    rw [same, eq, Script.lastLine, error]
    simp only [Ending.line, parse]
    exact ⟨_, _, rfl⟩

/-- The reply to `PSYNC` is there. -/
lemma dispatch_psync {reply : PsyncReply} {handled : Handled σ}
    (w : Waiting cfg script s₀ socket past [] done step [] delivered es s)
    (psync : script.ending.reply = some reply) (eq : s.buffer ++ chunk = script.lastLine ++ rest)
    (h : dispatchData cfg env chunk s = (es', handled)) :
    ∃ handed, handed <+: rest ∧ exchange es' = ⟨[], [reply], handed⟩ ∧
      ((∃ t, handed = rest ∧ handled = .noreply t ∧ Replicates s₀ socket reply rest t) ∨
        Rejects cfg es' ∧ ∀ t, handled ≠ .noreply t) := by
  have parse : parsePsyncResponse (s.buffer ++ chunk) = .complete reply rest := by
    rw [eq, Script.lastLine, parsePsyncResponse_line script.ending script.lineEnds script.oneLine]
    cases e : script.ending <;> rw [e] at psync <;> cases psync <;> rfl
  rw [dispatchData_psync w.psync] at h
  exact handlePsyncResponse_complete (s :=
    { s with buffer := s.buffer ++ chunk }) w.here w.saved parse h

end Waiting

/-! ## The stages of a talk -/

/-- Where a talk stands between two messages. -/
inductive Stage (cfg : Config κ σ ε μ) (script : Script) (s₀ : State σ) (socket : Socket)
    (delivered : Bytes) (es : List (Effect κ σ ε)) : Status σ → Prop where
  | waiting {s : State σ} {past outstanding : List SimpleReply} {done todo : List (Request × Phase)}
      {step : Request × Phase}
      (w : Waiting cfg script s₀ socket past outstanding done step todo delivered es s) :
      Stage cfg script s₀ socket delivered es (.running s)
  | replicating {s : State σ} {reply : PsyncReply} {handed : Bytes}
      (psync : script.ending.reply = some reply) (arrived : delivered = script.lines ++ handed)
      (front : handed <+: script.payload)
      (exchanged : exchange es = ⟨requests cfg s₀, [reply], handed⟩)
      (replicates : Replicates s₀ socket reply handed s) :
      Stage cfg script s₀ socket delivered es (.running s)
  | gone {s : State σ} (lines : script.lines <+: delivered)
      (exchanged : script.Exchanged (requests cfg s₀) delivered (exchange es))
      (here : s.socket = none)
      (cause : Rejects cfg es ∨ script.ending.reply = none ∧ Reconnects cfg es (.running s)) :
      Stage cfg script s₀ socket delivered es (.running s)
  | stopped {reason : Reason}
      (exchanged : script.Exchanged (requests cfg s₀) delivered (exchange es))
      (cause : Rejects cfg es ∨ script.lines <+: delivered ∧ script.ending.reply = none ∧
        Reconnects cfg es (.stopped reason : Status σ)) :
      Stage cfg script s₀ socket delivered es (.stopped reason)

/-- The first requests have been sent, one more than there were replies. -/
lemma Waiting.sent
    (w : Waiting cfg script s₀ socket past outstanding done step todo delivered es s) :
    exchange es = ⟨(requests cfg s₀).take (past.length + 1), [], []⟩ := by
  have path : steps cfg s₀ = (done ++ [step]) ++ todo := by
    rw [w.path, List.append_assoc, List.singleton_append]
  have size : past.length + 1 = ((done ++ [step]).map (·.1)).length := by
    rw [List.length_map, List.length_append, w.even, List.length_singleton]
  have cut : (done ++ [step] ++ todo).map (·.1) = (done ++ [step]).map (·.1) ++ todo.map (·.1) :=
    List.map_append
  rw [w.exchanged, requests, path, cut, size, List.take_left]

/-- The reply that is waited for has not arrived whole. -/
lemma Waiting.missing
    (w : Waiting cfg script s₀ socket past outstanding done step todo delivered es s) :
    ¬ past.flatMap SimpleReply.bytes ++ script.awaited outstanding <+: delivered := by
  intro whole
  rw [w.delivered] at whole
  have all := (List.prefix_append_right_inj _).mp whole
  exact w.short (w.begun.eq_of_length (Nat.le_antisymm w.begun.length_le all.length_le))

/-- The exchange up to where the process waits. -/
lemma Waiting.exchanged_so_far
    (w : Waiting cfg script s₀ socket past outstanding done step todo delivered es s) :
    script.Exchanged (requests cfg s₀) delivered (exchange es) :=
  .inl ⟨past, outstanding, w.replies, ⟨s.buffer, w.delivered.symm⟩, w.missing, w.sent⟩

/-- The awaited line belongs to what is said before the payload. -/
lemma Script.awaited_lines {rest : List SimpleReply} (replies : script.replies = past ++ rest) :
    past.flatMap SimpleReply.bytes ++ script.awaited rest <+: script.lines := by
  cases rest with
  | nil =>
    rw [Script.lines, replies, List.append_nil]
    exact List.prefix_refl _
  | cons reply rest =>
    rw [Script.lines, replies, List.flatMap_append, List.flatMap_cons, List.append_assoc,
      List.append_assoc]
    exact (List.prefix_append_right_inj _).mpr (List.prefix_append _ _)

/-- Once the last line is there, only the payload grows. -/
lemma Script.Exchanged.later {requests : List Request} {x : Exchange}
    (lines : script.lines <+: delivered) (h : script.Exchanged requests delivered x)
    (chunk : Bytes) :
    script.Exchanged requests (delivered ++ chunk) x := by
  have more := List.prefix_append delivered chunk
  obtain ⟨past, rest, replies, -, missing, -⟩ | ⟨-, said⟩ := h
  · exact absurd ((script.awaited_lines replies).trans lines) missing
  · refine .inr ⟨lines.trans more, ?_⟩
    split at said
    · rename_i reply _
      exact ⟨said.1, said.2.1, said.2.2.1, said.2.2.2.trans more⟩
    · exact said

/-- A reconnect stays one behind other effects. -/
lemma Reconnects.append_left (h : Reconnects cfg es' st) (es : List (Effect κ σ ε)) :
    Reconnects cfg (es ++ es') st := by
  obtain ⟨enabled, ⟨ms, started⟩, idle⟩ | disabled := h
  · exact .inl ⟨enabled, ⟨ms, List.mem_append_right es started⟩, idle⟩
  · exact .inr disabled

/-- The next attempt stays scheduled. -/
lemma Reconnects.aside (h : Reconnects cfg es (.running s)) (es' : List (Effect κ σ ε))
    (callbackState : σ) (ackTimer : Bool) :
    Reconnects cfg (es ++ es') (.running { s with callbackState, ackTimer }) := by
  obtain ⟨enabled, ⟨ms, started⟩, t, eq, idle⟩ | ⟨-, reason, eq⟩ := h
  · cases eq
    exact .inl ⟨enabled, ⟨ms, List.mem_append_left es' started⟩, _, rfl, idle⟩
  · cases eq

namespace Stage

/-- At every stage the exchange is that of the bytes delivered. -/
lemma exchanged (stage : Stage cfg script s₀ socket delivered es st) :
    script.Exchanged (requests cfg s₀) delivered (exchange es) := by
  cases stage with
  | waiting w => exact w.exchanged_so_far
  | replicating psync arrived front exchanged replicates =>
    rw [Script.Exchanged, exchanged, psync, arrived]
    exact .inr ⟨List.prefix_append _ _, rfl, rfl, front, List.prefix_refl _⟩
  | gone lines exchanged here cause => exact exchanged
  | stopped exchanged cause => exact exchanged

/-- A message in between. -/
lemma aside {message : Message μ} (stage : Stage cfg script s₀ socket delivered es (.running s))
    (aside : message.Aside) (h : handleMessage cfg env message s = (es', st)) :
    Stage cfg script s₀ socket delivered (es ++ es') st := by
  obtain ⟨silent, next⟩ := handleMessage_aside aside h
  have same := exchange_append_nothing es silent
  obtain ⟨callbackState, ackTimer, rfl⟩ | ⟨⟨reason, rfl⟩, rejects⟩ := next
  · cases stage with
    | waiting w =>
      exact .waiting ⟨w.replies, w.path, w.even, w.phase, w.here, w.saved, w.delivered, w.begun,
        w.short, same.trans w.exchanged⟩
    | replicating psync arrived front exchanged replicates =>
      exact .replicating psync arrived front (same.trans exchanged)
        (replicates.same callbackState ackTimer s.buffer)
    | gone lines exchanged here cause =>
      refine .gone lines (by rw [same]; exact exchanged) here ?_
      obtain rejects | ⟨error, reconnects⟩ := cause
      · exact .inl (rejects.append_right es')
      · exact .inr ⟨error, reconnects.aside es' callbackState ackTimer⟩
  · exact .stopped (by rw [same]; exact stage.exchanged) (.inl (rejects.append_left es))

/-- The connection has been given up. -/
lemma givenUp (lines : script.lines <+: delivered)
    (exchanged : script.Exchanged (requests cfg s₀) delivered (exchange es))
    (reconnects : Reconnects cfg es st) (cause : Rejects cfg es ∨ script.ending.reply = none) :
    Stage cfg script s₀ socket delivered es st := by
  obtain ⟨enabled, started, t, rfl, idle⟩ | ⟨disabled, reason, rfl⟩ := id reconnects
  · refine .gone lines exchanged idle.2.1 ?_
    obtain rejects | error := cause
    · exact .inl rejects
    · exact .inr ⟨error, reconnects⟩
  · refine .stopped exchanged ?_
    obtain rejects | error := cause
    · exact .inl rejects
    · exact .inr ⟨lines, error, reconnects⟩

/-- The payload was refused. -/
lemma refused {front es₂ : List (Effect κ σ ε)} {handled : Handled σ}
    (lines : script.lines <+: delivered)
    (exchanged : script.Exchanged (requests cfg s₀) delivered (exchange (front ++ es₂)))
    (rejects : Rejects cfg front) (refused : ∀ t, handled ≠ .noreply t)
    (result : Concludes cfg es₂ st handled) :
    Stage cfg script s₀ socket delivered (front ++ es₂) st := by
  have cause := rejects.append_right es₂
  cases handled with
  | noreply t => exact absurd rfl (refused t)
  | reconnect reason t =>
    exact .givenUp lines exchanged (Reconnects.append_left result front) (.inl cause)
  | stop reason =>
    cases result
    exact .stopped exchanged (.inl cause)

end Stage

/-- The socket is the one of the connection. -/
lemma handleMessage_data (here : s.socket = some socket) :
    handleMessage cfg env (.data socket chunk) s = handleData cfg env chunk s := by
  rw [handleMessage, if_pos here]

/-- Data of the connection that was given up is ignored. -/
lemma handleMessage_gone (here : s.socket = none) :
    handleMessage cfg env (.data socket chunk) s = ([], .running s) := by
  rw [handleMessage, if_neg (by rw [here]; rintro ⟨⟩)]

/-- The next step exchanges its request. -/
lemma following_exchange {phase : Phase} (h : following s phase = some next) :
    exchange ([.send next.1] : List (Effect κ σ ε)) = ⟨[next.1], [], []⟩ := by
  cases phase <;> cases h
  · rfl
  · rfl
  · rfl
  · rw [psyncRequest]
    split <;> rfl

namespace Waiting

/-- A byte of the awaited line is still missing. -/
lemma receive_short
    (w : Waiting cfg script s₀ socket past outstanding done step todo delivered es s)
    (silent : exchange es' = .nothing) (begun : s.buffer ++ chunk <+: script.awaited outstanding)
    (short : s.buffer ++ chunk ≠ script.awaited outstanding) :
    Waiting cfg script s₀ socket past outstanding done step todo (delivered ++ chunk) (es ++ es')
      { s with buffer := s.buffer ++ chunk } := by
  refine ⟨w.replies, w.path, w.even, w.phase, w.here, w.saved, ?_, begun, short, ?_⟩
  · rw [w.delivered, List.append_assoc]
  · rw [exchange_append_nothing es silent, w.exchanged]

/-- The awaited reply is there. -/
lemma receive_reply {reply : SimpleReply}
    (w : Waiting cfg script s₀ socket past (reply :: outstanding) done step
      (next :: todo) delivered es s)
    (sent : exchange es' = ⟨[next.1], [], []⟩) (eq : s.buffer ++ chunk = reply.bytes ++ rest)
    (front : rest <+: script.keepalives outstanding) :
    Waiting cfg script s₀ socket (past ++ [reply]) outstanding (done ++ [step]) next todo
      (delivered ++ chunk) (es ++ es') { s with buffer := rest, state := next.2 } := by
  obtain ⟨begun, short⟩ := script.keepalives_short front
  refine ⟨?_, ?_, ?_, rfl, w.here, w.saved, ?_, begun, short, ?_⟩
  · rw [w.replies, List.append_assoc, List.singleton_append]
  · rw [w.path, List.append_assoc, List.singleton_append]
  · rw [List.length_append, List.length_append, w.even, List.length_singleton,
      List.length_singleton]
  · rw [w.delivered, List.append_assoc, eq, List.flatMap_append, List.flatMap_singleton,
      List.append_assoc]
  · have joined : (done ++ [step] ++ [next]).map (·.1) = (done ++ [step]).map (·.1) ++ [next.1] :=
      List.map_append
    rw [exchange_append, sent, w.exchanged, joined]
    rfl

/-- The last line is there, and perhaps more. -/
lemma arrived_last (w : Waiting cfg script s₀ socket past [] done step todo delivered es s)
    (eq : s.buffer ++ chunk = script.lastLine ++ rest) :
    delivered ++ chunk = script.lines ++ rest := by
  have lines : script.lines = past.flatMap SimpleReply.bytes ++ script.lastLine := by
    rw [Script.lines, w.replies, List.append_nil]
  rw [w.delivered, List.append_assoc, eq, lines, List.append_assoc]

/-- An error is there. -/
lemma receive_error (w : Waiting cfg script s₀ socket past [] done step todo delivered es s)
    (error : script.ending.reply = none) (silent : exchange es' = .nothing)
    (reconnects : Reconnects cfg es' st) (eq : s.buffer ++ chunk = script.lastLine ++ rest) :
    Stage cfg script s₀ socket (delivered ++ chunk) (es ++ es') st := by
  have lines : script.lines <+: delivered ++ chunk := ⟨rest, (w.arrived_last eq).symm⟩
  refine .givenUp lines (.inr ⟨lines, ?_⟩) (reconnects.append_left es) (.inr error)
  have same : script.replies.length = past.length := by rw [w.replies, List.append_nil]
  rw [error, exchange_append_nothing es silent, w.sent, same]

/-- The reply to `PSYNC` is there. -/
lemma receive_psync {reply : PsyncReply} {es₁ es₂ : List (Effect κ σ ε)} {handled : Handled σ}
    (w : Waiting cfg script s₀ socket past [] done step [] delivered es s)
    (psync : script.ending.reply = some reply) (eq : s.buffer ++ chunk = script.lastLine ++ rest)
    (front : rest <+: script.payload) (hd : dispatchData cfg env chunk s = (es₁, handled))
    (silent : exchange es₂ = .nothing) (result : Concludes cfg es₂ st handled) :
    Stage cfg script s₀ socket (delivered ++ chunk) (es ++ (es₁ ++ es₂)) st := by
  obtain ⟨handed, part, exchanged, outcome⟩ := w.dispatch_psync psync eq hd
  have arrived := w.arrived_last eq
  have all : exchange (es ++ (es₁ ++ es₂)) = ⟨requests cfg s₀, [reply], handed⟩ := by
    rw [exchange_append, exchange_append, silent, exchanged, w.exchanged, requests, w.path]
    simp [Exchange.andThen, Exchange.nothing]
  obtain ⟨t, rfl, rfl, replicates⟩ | ⟨rejects, refused⟩ := outcome
  · cases result
    exact .replicating psync arrived front all replicates
  · have lines : script.lines <+: delivered ++ chunk := ⟨rest, arrived.symm⟩
    rw [← List.append_assoc] at all ⊢
    refine .refused lines (.inr ⟨lines, ?_⟩) (rejects.append_left es) refused result
    rw [psync, all, arrived]
    exact ⟨rfl, rfl, part.trans front, (List.prefix_append_right_inj _).mpr part⟩

/-- Bytes arrive while a reply is awaited. -/
lemma receive (w : Waiting cfg script s₀ socket past outstanding done step todo delivered es s)
    (fits : script.Fits (requests cfg s₀).length) (smooth : env.Smooth)
    (sent : delivered ++ chunk <+: script.upTo script.replies (exchange es).requests.length)
    (h : handleMessage cfg env (.data socket chunk) s = (es', st)) :
    Stage cfg script s₀ socket (delivered ++ chunk) (es ++ es') st := by
  rw [handleMessage_data w.here] at h
  obtain ⟨es₁, handled, es₂, hd, rfl, silent, result⟩ := handleData_smooth smooth h
  -- the cut is inside of the awaited line, or behind it
  obtain ⟨begun, short⟩ | ⟨rest, eq, front⟩ := prefix_append_cases (w.arrived sent)
  · rw [w.dispatch_short fits smooth begun short] at hd
    cases hd
    cases result
    exact .waiting (w.receive_short silent begun short)
  obtain ⟨few, same⟩ := w.fits fits
  cases outstanding with
  | cons reply outstanding =>
    cases todo with
    | nil => exact absurd few (by simp)
    | cons next todo =>
      rw [w.dispatch_reply smooth eq] at hd
      cases hd
      cases result
      refine .waiting (w.receive_reply ?_ eq front)
      rw [exchange_append_nothing _ silent, following_exchange w.following]
  | nil =>
    cases psync : script.ending.reply with
    | none =>
      cases error : script.ending with
      | error text =>
        obtain ⟨reason, t, failed⟩ := w.dispatch_error smooth error eq
        rw [failed] at hd
        cases hd
        exact w.receive_error psync silent result eq
      | fullresync replicationId offset spaceless => simp [error, Ending.reply] at psync
      | continued tail => simp [error, Ending.reply] at psync
    | some reply =>
      -- no request is left: this is the reply to `PSYNC`
      obtain rfl := List.length_eq_zero_iff.mp (same (by simp [psync])).symm
      exact w.receive_psync psync eq front hd silent result

end Waiting

/-- Bytes of the script arrive. -/
lemma Stage.receive (stage : Stage cfg script s₀ socket delivered es (.running s))
    (fits : script.Fits (requests cfg s₀).length) (smooth : env.Smooth)
    (sent : delivered ++ chunk <+: script.upTo script.replies (exchange es).requests.length)
    (h : handleMessage cfg env (.data socket chunk) s = (es', st)) :
    Stage cfg script s₀ socket (delivered ++ chunk) (es ++ es') st := by
  cases stage with
  | waiting w => exact w.receive fits smooth sent h
  | gone lines exchanged here cause =>
    -- the socket is no longer the one of the process
    rw [handleMessage_gone here] at h
    cases h
    rw [List.append_nil]
    exact .gone (lines.trans (List.prefix_append _ _)) (exchanged.later lines chunk) here cause
  | @replicating _ reply handed psync arrived front exchanged replicates =>
    rw [handleMessage_data replicates.here] at h
    obtain ⟨es₁, handled, es₂, hd, rfl, silent, result⟩ := handleData_smooth smooth h
    rw [dispatchData, replicates.phase] at hd
    obtain ⟨fed, outcome⟩ := replicates.feed hd
    have arrived' : delivered ++ chunk = script.lines ++ (handed ++ chunk) := by
      rw [arrived, List.append_assoc]
    -- all requests are out, so what may have been sent is everything
    have front' : handed ++ chunk <+: script.payload := by
      have all : (requests cfg s₀).length = script.replies.length + 1 :=
        (fits.psync (by simp [psync])).symm
      have last := script.upTo_append script.replies [] 1
      rw [List.append_nil, Script.upTo_one, ← List.append_assoc] at last
      rw [exchanged, all, last, arrived'] at sent
      exact (List.prefix_append_right_inj _).mp sent
    have all : exchange (es ++ (es₁ ++ es₂)) = ⟨requests cfg s₀, [reply], handed ++ chunk⟩ := by
      rw [exchange_append, exchange_append, silent, fed, exchanged]
      simp [Exchange.andThen, Exchange.nothing]
    obtain ⟨t, rfl, next⟩ | ⟨rejects, refused⟩ := outcome
    · cases result
      exact .replicating psync arrived' front' all next
    · have lines : script.lines <+: delivered ++ chunk := ⟨handed ++ chunk, arrived'.symm⟩
      rw [← List.append_assoc] at all ⊢
      refine .refused lines (.inr ⟨lines, ?_⟩) (rejects.append_left es) refused result
      rw [psync, all, arrived']
      exact ⟨rfl, rfl, front', List.prefix_refl _⟩

/-- The connection is there and the first request is sent. -/
lemma Stage.connect (idle : s₀.buffer = []) (smooth : env.Smooth)
    (connected : env.connect = .ok socket) (h : handleContinue cfg env s₀ = (es, st)) :
    Stage cfg script s₀ socket [] es st := by
  obtain ⟨request, phase, todo, reconnectDelayMs, path, exchanged, rfl⟩ :=
    handleContinue_smooth smooth connected h
  obtain ⟨begun, short⟩ : [] <+: script.awaited script.replies ∧
    [] ≠ script.awaited script.replies :=
    script.keepalives_short List.nil_prefix
  have replies : script.replies = [] ++ script.replies := rfl
  have first : steps cfg s₀ = [] ++ (request, phase) :: todo := path
  refine .waiting ⟨replies, first, rfl, rfl, rfl, fun reply => ?_, ?_, ?_, ?_, exchanged⟩
  · cases reply <;> rfl
  · exact idle.symm
  · rw [idle]
    exact begun
  · rw [idle]
    exact short

/-- Every talk is at one of the stages. -/
theorem talks_stage (idle : s₀.buffer = []) (fits : script.Fits (requests cfg s₀).length)
    (talk : Talks cfg script s₀ socket delivered es st) :
    Stage cfg script s₀ socket delivered es st := by
  induction talk with
  | connect smooth connected h => exact .connect idle smooth connected h
  | chunk before smooth sent h ih => exact ih.receive fits smooth sent h
  | aside before aside h ih => exact ih.aside aside h

/-- Where the process is when these bytes of the script have arrived: it waits, it replicates behind
the reply to `PSYNC`, or it reconnects after an error. -/
def Script.Outcome (script : Script) (cfg : Config κ σ ε μ) (s₀ : State σ) (socket : Socket)
    (delivered : Bytes) (es : List (Effect κ σ ε)) (st : Status σ) : Prop :=
  if script.lines <+: delivered then
    match script.ending.reply with
    | some reply => ∃ s, st = .running s ∧ Replicates s₀ socket reply (exchange es).handed s ∧
        delivered = script.lines ++ (exchange es).handed
    | none => Reconnects cfg es st
  else ∃ s, st = .running s ∧ s.socket = some socket ∧ s.state ≠ .replication

/-- A process that waits does not replicate yet. -/
lemma Waiting.state_ne
    (w : Waiting cfg script s₀ socket past outstanding done step todo delivered es s) :
    s.state ≠ .replication := by
  cases todo with
  | nil =>
    rw [w.psync]
    decide
  | cons next todo =>
    have next := w.following
    intro phase
    rw [phase] at next
    cases next

/-- A talk that was not given up is where its bytes say. -/
lemma Stage.outcome (stage : Stage cfg script s₀ socket delivered es st) :
    script.Outcome cfg s₀ socket delivered es st ∨
      Rejects cfg es ∧ ∀ s, st = .running s → s.socket = none := by
  cases stage with
  | @waiting s past outstanding done todo step w =>
    -- the awaited line is not whole, and it belongs to the lines
    have missing : ¬ script.lines <+: delivered := fun whole =>
      w.missing ((script.awaited_lines w.replies).trans whole)
    rw [Script.Outcome, if_neg missing]
    exact .inl ⟨s, rfl, w.here, w.state_ne⟩
  | @replicating s reply handed psync arrived front exchanged replicates =>
    have lines : script.lines <+: delivered := ⟨handed, arrived.symm⟩
    rw [Script.Outcome, if_pos lines, psync, exchanged]
    exact .inl ⟨s, rfl, replicates, arrived⟩
  | gone lines exchanged here cause =>
    obtain rejects | ⟨error, reconnects⟩ := cause
    · refine .inr ⟨rejects, ?_⟩
      rintro s ⟨⟩
      exact here
    · rw [Script.Outcome, if_pos lines, error]
      exact .inl reconnects
  | stopped exchanged cause =>
    obtain rejects | ⟨lines, error, reconnects⟩ := cause
    · exact .inr ⟨rejects, by rintro s ⟨⟩⟩
    · rw [Script.Outcome, if_pos lines, error]
      exact .inl reconnects

/-- What a talk exchanges, and where it ends, depends on the bytes that have arrived and not on how
they were cut, unless the payload was refused and the connection given up. -/
theorem handshake_framing (idle : s₀.buffer = []) (fits : script.Fits (requests cfg s₀).length)
    (talk : Talks cfg script s₀ socket delivered es st) :
    script.Exchanged (requests cfg s₀) delivered (exchange es) ∧
      (script.Outcome cfg s₀ socket delivered es st ∨
        Rejects cfg es ∧ ∀ s, st = .running s → s.socket = none) :=
  have stage := talks_stage idle fits talk
  ⟨stage.exchanged, stage.outcome⟩

/-! ## Talks in runs -/

/-- Between two connections there is no socket, and nothing is left in the buffer. -/
def Idle (st : Status σ) : Prop :=
  ∀ s, st = .running s → s.state = .init → s.socket = none ∧ s.buffer = []

/-- A scheduled reconnect leaves no socket and an empty buffer. -/
lemma scheduleReconnect_idle {reason : Reason} (here : s.socket = none)
    (h : scheduleReconnect cfg reason s = (es, st)) : Idle st := by
  obtain ⟨es₁, u, es₂, hc, hn, rfl⟩ := andThen_eq h
  obtain ⟨es₃, t, es₄, ht, hm, rfl⟩ := andThen_eq hn
  obtain ⟨-, rfl⟩ := cancelReconnectTimer_quiet ht
  split at hm
  · cases hm
    rintro s' ⟨⟩ -
    exact ⟨here, rfl⟩
  · cases hm
    rintro s' ⟨⟩

/-- A disconnect leaves no socket and an empty buffer. -/
lemma handleDisconnect_idle {reason : Reason} (h : handleDisconnect cfg reason s = (es, st)) :
    Idle st := by
  obtain ⟨es₁, u, es₂, hc, hn, rfl⟩ := andThen_eq h
  obtain ⟨es₃, t, es₄, ht, hm, rfl⟩ := andThen_eq hn
  exact scheduleReconnect_idle rfl hm

/-- An attempt to connect ends with a socket, or with an empty buffer. -/
lemma handleContinue_idle (here : s.socket = none) (h : handleContinue cfg env s = (es, st)) :
    Idle st := by
  obtain ⟨es₁, result, es₂, hc, hn, rfl⟩ := andThen_eq h
  obtain ⟨-, ok⟩ := connect_quiet hc
  split at hn
  · rename_i connected
    obtain ⟨es₃, t, es₄, ht, hm, rfl⟩ := andThen_eq hn
    obtain ⟨-, rfl⟩ := cancelReconnectTimer_quiet ht
    cases hm
    obtain ⟨socket, phase, early, rfl⟩ := ok connected rfl
    rintro s' ⟨⟩ init
    obtain rfl | rfl := early <;> cases init
  · cases hn
    rintro s' ⟨⟩
  · exact scheduleReconnect_idle here hn

/-- A request that was sent leads to its phase. -/
lemma sendRequest_state
    (h : (sendRequest env request phase s : Out κ σ ε (Except Reason (State σ))) = (es, .ok s')) :
    s'.state = phase := by
  obtain ⟨es₁, sent, es₂, ht, hn, rfl⟩ := andThen_eq h
  cases sent with
  | ok u =>
    cases hn
    rfl
  | error reason => cases hn

/-- A step that goes on was made. -/
lemma orStop_noreply {what : String} {out : Out κ σ ε (Except Reason (State σ))}
    (h : orStop what out = (es, .noreply s')) : ∃ es₁, out = (es₁, .ok s') := by
  obtain ⟨es₁, result, es₂, ho, hn, rfl⟩ := andThen_eq h
  cases result with
  | ok t =>
    cases hn
    exact ⟨es₁, ho⟩
  | error reason => cases hn

/-- A simple reply does not lead back to the first phase. -/
lemma onSimpleResponse_idle {what : String} {next : State σ → Out κ σ ε (Handled σ)}
    (phase : s.state ≠ .init) (sends : ∀ t es, next t = (es, .noreply s') → s'.state ≠ .init)
    (h : onSimpleResponse what s next = (es, .noreply s')) : s'.state ≠ .init := by
  rw [onSimpleResponse] at h
  cases parse : parseSimpleResponse s.buffer with
  | complete text rest =>
    rw [parse] at h
    exact sends _ _ h
  | incomplete =>
    rw [parse] at h
    cases h
    exact phase
  | failed reason =>
    rw [parse] at h
    cases h

/-- The reply to PSYNC does not lead back to the first phase. -/
lemma handlePsyncResponse_idle (phase : s.state ≠ .init)
    (h : handlePsyncResponse cfg env s = (es, .noreply s')) : s'.state ≠ .init := by
  unfold handlePsyncResponse at h
  split at h
  · cases h
    exact phase
  · cases h
  · cases h
  · obtain ⟨es₁, result, es₂, hc, hn, rfl⟩ := andThen_eq h
    cases result with
    | error reason => cases hn
    | ok t =>
      obtain ⟨-, -, replication⟩ := handlePsyncCompleted_wires hc
      obtain ⟨es₃, u, es₄, ht, hm, rfl⟩ := andThen_eq hn
      obtain ⟨-, rfl⟩ := schedulePeriodicAck_quiet ht
      split at hm
      · cases hm
        simp [replication]
      · obtain ⟨parser, newParser, fed, callbackState, -, -, rfl⟩ := accepted_state hm
        simp [replication]

/-- No handler of data goes back to `:init` without a reconnect. -/
lemma dispatchData_idle (phase : s.state ≠ .init)
    (h : dispatchData cfg env data s = (es, .noreply s')) : s'.state ≠ .init := by
  have sent {request : Request} {next : Phase} {t : State σ} {es : List (Effect κ σ ε)}
    (later : next ≠ .init)
    (h : sendRequest env request next t = (es, .ok s')) : s'.state ≠ .init := by
    rw [sendRequest_state h]
    exact later
  have appended : ({ s with buffer := s.buffer ++ data } : State σ).state ≠ .init := phase
  unfold dispatchData at h
  split at h
  · obtain ⟨parser, newParser, fed, callbackState, -, -, rfl⟩ := accepted_state h
    exact phase
  · refine onSimpleResponse_idle appended (fun t es h => ?_) h
    obtain ⟨es₁, ok⟩ := orStop_noreply h
    exact sent (by decide) ok
  · refine onSimpleResponse_idle appended (fun t es h => ?_) h
    obtain ⟨es₁, result, es₂, ho, hn, rfl⟩ := andThen_eq h
    cases result with
    | ok u =>
      cases hn
      exact sent (by decide) ho
    | error reason => cases hn
  · refine onSimpleResponse_idle appended (fun t es h => ?_) h
    obtain ⟨es₁, ok⟩ := orStop_noreply h
    exact sent (by decide) ok
  · refine onSimpleResponse_idle appended (fun t es h => ?_) h
    obtain ⟨es₁, ok⟩ := orStop_noreply h
    exact sent (by decide) ok
  · exact handlePsyncResponse_idle appended h
  · cases h

/-- Data leave the socket, or an empty buffer. -/
lemma handleData_idle (phase : s.state ≠ .init) (h : handleData cfg env data s = (es, st)) :
    Idle st := by
  obtain ⟨es₁, handled, es₂, hd, hn, rfl⟩ := andThen_eq h
  cases handled with
  | noreply t =>
    have later := dispatchData_idle phase hd
    cases hn
    intro s' eq init
    split at eq
    · cases eq
      exact absurd init later
    · cases eq
  | reconnect reason t => exact handleDisconnect_idle hn
  | stop reason =>
    cases hn
    rintro s' ⟨⟩

/-- Every message leaves a socket, or an empty buffer. -/
lemma handleMessage_idle {message : Message μ} (wired : Wired s) (idle : Idle (.running s))
    (h : handleMessage cfg env message s = (es, st)) : Idle st := by
  have ignored (h : (([], .running s) : Out κ σ ε (Status σ)) = (es, st)) : Idle st := by
    cases h
    exact idle
  have aside (quiet : message.Aside) : Idle st := by
    obtain ⟨-, ⟨callbackState, ackTimer, rfl⟩ | ⟨⟨reason, rfl⟩, -⟩⟩ := handleMessage_aside quiet h
    · rintro s' ⟨⟩ init
      exact idle s rfl init
    · rintro s' ⟨⟩
  cases message with
  | data socket data =>
    simp only [handleMessage] at h
    split at h
    · rename_i here
      refine handleData_idle (fun init => ?_) h
      rw [(idle s rfl init).1] at here
      cases here
    · exact ignored h
  | closed socket =>
    simp only [handleMessage] at h
    split at h
    · exact handleDisconnect_idle h
    · exact ignored h
  | failed socket reason =>
    simp only [handleMessage] at h
    split at h
    · exact handleDisconnect_idle h
    · exact ignored h
  | reconnectTimeout =>
    simp only [handleMessage] at h
    split at h
    · rename_i waiting
      exact handleContinue_idle (s :=
        { s with reconnectTimer := false }) (wired.socket_of_timer waiting) h
    · exact ignored h
  | sendPeriodicAck => exact aside .sendPeriodicAck
  | callbackCall message => exact aside (.callbackCall message)
  | info message => exact aside (.info message)

/-- In every run, a process that has no connection is ready for a new one. -/
theorem run_idle {trace : List (Effect κ σ ε)} (h : Run cfg trace st) : Idle st := by
  induction h with
  | start h =>
    obtain ⟨es₁, result, es₂, hc, hn, rfl⟩ := andThen_eq h
    cases result with
    | ok callbackState => exact handleContinue_idle rfl hn
    | error reason =>
      cases hn
      rintro s ⟨⟩
  | step before h ih => exact handleMessage_idle (run_wired before _ rfl) ih h

/-- A talk goes on where a run has waited for the reconnect timer. -/
theorem run_talks {trace : List (Effect κ σ ε)} (before : Run cfg trace (.running s₀))
    (timer : s₀.reconnectTimer = true)
    (talk : Talks cfg script { s₀ with reconnectTimer := false } socket delivered es st) :
    Run cfg (trace ++ es) st := by
  induction talk with
  | @connect env es st smooth connected h =>
    have timeout : handleMessage cfg env .reconnectTimeout s₀ = (es, st) := by
      rw [handleMessage, if_pos timer]
      exact h
    exact .step before timeout
  | chunk talked smooth sent h ih =>
    rw [← List.append_assoc]
    exact .step ih h
  | aside talked aside h ih =>
    rw [← List.append_assoc]
    exact .step ih h

/-! ### Executing a talk -/

/-- Whether none of these chunks comes before the request that it replies to. -/
def sentInTime (cfg : Config κ σ ε μ) (env : Answers) (script : Script) (socket : Socket) :
    List Bytes → Bytes → List (Effect κ σ ε) → State σ → Bool
  | [], _, _, _ => true
  | chunk :: chunks, delivered, es, s =>
    decide (delivered ++ chunk <+: script.upTo script.replies (exchange es).requests.length) &&
      match handleMessage cfg env (.data socket chunk) s with
      | (es', .running t) =>
        sentInTime cfg env script socket chunks (delivered ++ chunk) (es ++ es') t
      | (_, .stopped _) => chunks.isEmpty

/-- Chunks that are handled one after another are a talk. -/
lemma talks_handleAll (chunks : List Bytes) (smooth : env.Smooth)
    (before : Talks cfg script s₀ socket delivered es (.running s))
    (inTime : sentInTime cfg env script socket chunks delivered es s = true) :
    Talks cfg script s₀ socket (delivered ++ chunks.flatten)
      (es ++ (handleAll cfg env (chunks.map (.data socket)) s).1)
      (handleAll cfg env (chunks.map (.data socket)) s).2 := by
  induction chunks generalizing delivered es s with
  | nil =>
    rw [List.map_nil, handleAll, List.append_nil, List.flatten_nil, List.append_nil]
    exact before
  | cons chunk chunks ih =>
    rw [sentInTime, Bool.and_eq_true, decide_eq_true_eq] at inTime
    obtain ⟨sent, later⟩ := inTime
    rw [List.map_cons, handleAll, Out.andThen, List.flatten_cons, ← List.append_assoc]
    cases e : handleMessage cfg env (.data socket chunk) s with
    | mk es' result =>
      cases result with
      | running t =>
        rw [e] at later
        rw [← List.append_assoc]
        exact ih (.chunk before smooth sent e) later
      | stopped reason =>
        rw [e] at later
        rw [List.isEmpty_iff.mp later, List.flatten_nil, List.append_nil, List.append_nil]
        exact .chunk before smooth sent e

/-- The process without options, before and after it has connected. -/
def unconnected : State Unit := .new .plain ()

def connected : State Unit := { unconnected with socket := some 0, state := .ping }

/-- The sample transport takes everything. -/
lemma fine_smooth : Answers.fine.Smooth := ⟨rfl, rfl⟩

/-- The sample process has sent PING. -/
lemma plain_connects (script : Script) :
    Talks .plain script unconnected 0 [] [.send .ping] (.running connected) :=
  .connect fine_smooth rfl rfl

/-- Replies with keepalives in front of them, and a payload behind the reply to `PSYNC`. -/
def sampleScript (payload : Bytes) : Script where
  replies :=
    [⟨[], ascii "PONG", by decide +kernel, by decide +kernel⟩,
      ⟨[10], ascii "OK", by decide +kernel, by decide +kernel⟩,
      ⟨[13, 10], ascii "OK", by decide +kernel, by decide +kernel⟩]
  keepalive := [10]
  ending := .fullresync (ascii "id") 7 (by decide +kernel)
  payload
  lineEnds := by decide +kernel
  oneLine := by decide +kernel

/-- The cuts are inside of words, between CR and LF, and behind the beginning of the payload. -/
def sampleChunks : List Bytes :=
  [ascii "+PO", ascii "NG\r", ascii "\n\n", ascii "+OK\r\n\r", ascii "\n+O",
    ascii "K\r\n\n", ascii "+FULLRES",
    ascii "YNC id 7\r\n$2", ascii "3\r\n"]

/-- A handshake in chunks whose payload begins in the chunk of the last reply. -/
theorem handshake_framing_sample :
    (sampleScript (ascii "$23\r\n")).Exchanged (requests .plain unconnected) sampleChunks.flatten
        (exchange ([.send .ping] ++
        (handleAll .plain .fine (sampleChunks.map (.data 0)) connected).1)) ∧
      ((sampleScript (ascii "$23\r\n")).Outcome .plain unconnected 0 sampleChunks.flatten
          ([.send .ping] ++ (handleAll .plain .fine (sampleChunks.map (.data 0)) connected).1)
          (handleAll .plain .fine (sampleChunks.map (.data 0)) connected).2 ∨
        Rejects .plain ([.send .ping] ++
          (handleAll .plain .fine (sampleChunks.map (.data 0)) connected).1) ∧
          ∀ s, (handleAll .plain .fine (sampleChunks.map (.data 0)) connected).2 = .running s →
            s.socket = none) := by
  have talk :=
    talks_handleAll sampleChunks fine_smooth (plain_connects (sampleScript (ascii "$23\r\n")))
    (by decide +kernel)
  exact handshake_framing rfl ⟨by decide, fun _ => rfl⟩ talk

/-- The lines of `sampleScript` before the last one, each in one chunk. -/
def sampleReplies : List Bytes := [ascii "+PONG\r\n", ascii "\n+OK\r\n", ascii "\r\n+OK\r\n"]

/-- Not every payload leaves the process in `:replication`, and how far the offset has gone depends
on the cuts: the `PING` behind the RDB payload is counted only if it comes in a chunk of its own. -/
theorem handshake_framing_fails :
    (¬ ∀ (script : Script) (es : List (Effect Unit Unit Unit)) (st : Status Unit),
      script.Fits (requests .plain unconnected).length → script.ending.reply ≠ none →
      Talks .plain script unconnected 0 (script.lines ++ script.payload) es st →
      ∃ s, st = .running s ∧ s.state = .replication) ∧
    ¬ ∀ (script : Script) (es es' : List (Effect Unit Unit Unit)) (s s' : State Unit),
      Talks .plain script unconnected 0 (script.lines ++ script.payload) es (.running s) →
      Talks .plain script unconnected 0 (script.lines ++ script.payload) es' (.running s') →
      s.replicationOffset = s'.replicationOffset := by
  constructor
  · intro law
    have talk := talks_handleAll (sampleReplies ++ [ascii "\n+FULLRESYNC id 7\r\nx"]) fine_smooth
      (plain_connects (sampleScript (ascii "x"))) (by decide +kernel)
    obtain ⟨s, running, phase⟩ :=
      law (sampleScript (ascii "x")) _ _ ⟨by decide, fun _ => rfl⟩ (by decide) talk
    cases running
    exact absurd phase (by decide +kernel)
  · intro law
    have whole := talks_handleAll
      (sampleReplies ++ [ascii "\n+FULLRESYNC id 7\r\n" ++ ReplicaParser.sampleInput]) fine_smooth
      (plain_connects (sampleScript ReplicaParser.sampleInput)) (by decide +kernel)
    have cut := talks_handleAll
      (sampleReplies ++ [ascii "\n+FULLRESYNC id 7\r\n",
      ascii "$23\r\n" ++ ReplicaParser.sampleImage,
        ReplicaParser.sampleStream]) fine_smooth
      (plain_connects (sampleScript ReplicaParser.sampleInput)) (by decide +kernel)
    have eq := law (sampleScript ReplicaParser.sampleInput) _ _ _ _ whole cut
    exact absurd eq (by decide +kernel)

end Replica

end Veidrodelis.RedisStream
