import Veidrodelis.RedisStream.Offsets

/-!
# Acknowledgements

An acknowledgement reports how many stream bytes the parser has accepted, and the last of them may
be the beginning of a command that is still incomplete. `ack_received` says that this is all: the
bytes before that command belong to commands that were emitted and handed over.
-/

namespace Veidrodelis.RedisStream
open RedisNif Incremental
open RedisNif.ReplicaParser (commandsOf machine parseArray run_consumed)

variable {κ σ ε μ : Type}

namespace Replica

open Connection

/-- Where the numbers of a connection's stream bytes start: behind the offset of `+FULLRESYNC`, or
where the connections before it have got to. -/
def offsetBefore (c : Connection κ) (cs : List (Connection κ)) : Int :=
  match c.reply with
  | .fullresync _ offset => offset
  | .continued => offsetAfter cs

/-- The offset behind the newest connection. -/
lemma offsetAfter_cons (c : Connection κ) (cs : List (Connection κ)) :
    offsetAfter (c :: cs) = offsetBefore c cs + c.counted := by
  cases e : c.reply <;> simp only [offsetAfter, offsetBefore, e]

/-- What an acknowledgement of `n` stands for on the latest connection: the bytes up to `n` are
complete commands that were emitted and, as far as the filter leaves them, handed over, and
`pending` behind them. -/
def Acknowledges (cfg : Config κ σ ε μ) (connections : List (Connection κ)) (n : Int)
    (pending : Bytes) : Prop :=
  ∃ c cs consumed later p rdb events commands, connections = c :: cs ∧
    c.stream = some (consumed ++ pending ++ later) ∧
    n ≤ offsetBefore c cs + (consumed ++ pending).length ∧
    machine.absorb (.new true) consumed = .ok (p, events) ∧ p.buffer = [] ∧
    rdb ++ commandsOf events <+: c.emitted ∧
    Parser.convertCommands cfg.parse (rdb ++ commandsOf events) = some commands ∧
    c.handed = cfg.commandFilter.applyPre commands

/-- An acknowledgement covers complete commands and the beginning of one more. -/
def AckSound (cfg : Config κ σ ε μ) (log : Log κ) (e : Effect κ σ ε) : Prop :=
  ∀ n, e = .send (.replconfAck n) →
    ∃ pending, parseArray pending = .need ∧ Acknowledges cfg log.connections n pending

variable {cfg : Config κ σ ε μ} {log : Log κ} {s s' : State σ} {es : List (Effect κ σ ε)}
  {st : Status σ}

/-! ## What is counted has arrived -/

/-- No more is counted than there is of the stream. -/
lemma countedFrom_le (reply : PsyncReply) (before : Bytes) (chunks : List Bytes) :
    streamLength reply before + countedFrom reply before chunks ≤
      streamLength reply (before ++ chunks.flatten) := by
  induction chunks generalizing before with
  | nil => simp [countedFrom]
  | cons chunk chunks ih =>
    have later := ih (before ++ chunk)
    rw [List.flatten_cons, ← List.append_assoc, countedFrom]
    by_cases begun : (streamOf reply before).isSome
    · rw [if_pos begun]
      rw [streamLength_append begun] at later
      omega
    · rw [if_neg begun]
      have more := streamLength_le reply before chunk
      omega

/-- No more is counted than has arrived. -/
lemma Connection.counted_le (c : Connection κ) : c.counted ≤ (c.stream.getD []).length := by
  have le := countedFrom_le c.reply [] c.chunks
  rw [List.nil_append] at le
  exact le_trans (Nat.le_add_left _ _) le

/-- The stream of a connection behind a parser that follows it: what it has consumed, and what it
keeps in its buffer. -/
lemma Connection.Follows.consumed {c : Connection κ} {p : ReplicaParser.ParserState}
    {rdb : List RawCommand} {events : List ReplicaParser.Event} (h : c.Follows p rdb events) :
    ∃ consumed pending q, c.stream.getD [] = consumed ++ pending ∧
      machine.absorb (.new true) consumed = .ok (q, events) ∧ q.buffer = [] ∧
      parseArray pending = .need := by
  cases e : c.stream with
  | none =>
    have silent := h.silent e
    subst silent
    exact ⟨[], [], .new true, rfl, rfl, rfl, rfl⟩
  | some bytes =>
    have read := h.stream e
    obtain ⟨consumed, split, run, need⟩ :=
      run_consumed (s := (ReplicaParser.ParserState.new true).push bytes) rfl read
    have buffer : ((ReplicaParser.ParserState.new true).push bytes).buffer = bytes := rfl
    rw [buffer] at split
    exact ⟨consumed, p.buffer, _, split, run, rfl, need⟩

/-! ## The places where acknowledgements are sent -/

/-- The acknowledgement carries the offset, and goes out while streaming only. -/
lemma sendReplconfAck_eq {env : Answers} {e : Effect κ σ ε} (h : e ∈ sendReplconfAck env s) :
    e = .send (.replconfAck s.replicationOffset) ∧ replicationState s = .streaming := by
  unfold sendReplconfAck transportSend at h
  split at h
  · rename_i streaming
    split at h <;> simp at h
    exact ⟨h, streaming.2⟩
  · simp at h

/-- The periodic one. -/
lemma Tracks.ackSound (h : Tracks cfg log s) (streaming : replicationState s = .streaming) :
    AckSound cfg log (.send (.replconfAck s.replicationOffset) : Effect κ σ ε) := by
  rintro n ⟨⟩
  have phase : s.state = .replication := by
    unfold replicationState at streaming
    split at streaming
    · assumption
    · cases streaming
  obtain ⟨c, cs, p, rdb, events, hl, hp, follows⟩ := h.current phase
  have st : p.state = .streaming := by
    simp only [replicationState, phase, hp] at streaming
    cases e : p.state <;> simp [e] at streaming ⊢
  obtain ⟨bytes, begun⟩ := Option.isSome_iff_exists.mp (follows.streaming_iff.mp st)
  obtain ⟨consumed, pending, q, split, run, isEmpty, need⟩ := follows.consumed
  obtain ⟨commands, converted, handed⟩ : c.Handed cfg := (h.sound c (by simp [hl])).2
  have counted := c.counted_le
  rw [begun, Option.getD_some] at split counted
  refine ⟨pending, need, c, cs, consumed, [], q, rdb, events, commands, hl, ?_, ?_, run, isEmpty,
    ?_, ?_, handed⟩
  · rw [begun, split, List.append_nil]
  · rw [h.offset, hl, offsetAfter_cons, ← split]
    omega
  · rw [← follows.2]
  · rw [← follows.2]
    exact converted

/-- The one in answer to `PING` or `REPLCONF GETACK`: the chunk is in the parser, but it is not
counted yet and its commands have not been handed over. -/
lemma Tracks.ackSound_chunk {parser newParser : ReplicaParser.ParserState} {data : Bytes}
    {fed : ReplicaParser.Fed} (h : Tracks cfg log s) (phase : s.state = .replication)
    (hp : s.replicaParser = some parser)
    (hf : ReplicaParser.feedData parser data = .ok (newParser, fed))
    (streaming : newParser.state = .streaming) :
    AckSound cfg (log.next (.parserData data (.ok fed) : Effect κ σ ε))
      (.send (.replconfAck s.replicationOffset) : Effect κ σ ε) := by
  rintro n ⟨⟩
  obtain ⟨c, cs, p, rdb, events, hl, hq, follows⟩ := h.current phase
  obtain rfl : p = parser := Option.some.inj (hq.symm.trans hp)
  obtain ⟨commands, converted, handed⟩ : c.Handed cfg := (h.sound c (by simp [hl])).2
  obtain ⟨r, more, follows', -, -⟩ := follows.accept hf
  obtain ⟨consumed, pending, q, split, run, isEmpty, need⟩ := follows.consumed
  have counted := c.counted_le
  let c' : Connection κ := c.accept data fed.commands
  have recorded : (log.next (.parserData data (.ok fed) : Effect κ σ ε)).connections =
    c' :: cs := by
    simp only [Log.next, Log.modify, hl]
    rfl
  -- the stream has begun with this chunk or before it
  obtain ⟨later, begun⟩ : ∃ later, c'.stream = some (consumed ++ pending ++ later) := by
    have received : c'.received = c.received ++ data := accept_received c data fed.commands
    cases e : c.stream with
    | none =>
      obtain ⟨bytes, begun⟩ := Option.isSome_iff_exists.mp (follows'.streaming_iff.mp streaming)
      rw [e, Option.getD_none] at split
      exact ⟨bytes, by rw [← split, List.nil_append]; exact begun⟩
    | some bytes =>
      rw [e, Option.getD_some] at split
      refine ⟨data, ?_⟩
      rw [← split, Connection.stream, received]
      exact streamOf_append e data
  refine ⟨pending, need, c', cs, consumed, later, q, rdb, events, commands, recorded, begun, ?_,
    run, isEmpty, ?_, ?_, handed⟩
  · have same : offsetBefore c' cs = offsetBefore c cs := rfl
    rw [h.offset, hl, offsetAfter_cons, same, ← split]
    omega
  · rw [← follows.2]
    exact List.prefix_append _ _
  · rw [← follows.2]
    exact converted

/-! ## Every acknowledgement of a run -/

/-- An effect that is no acknowledgement is sound. -/
lemma AckSound.of_ne {e : Effect κ σ ε} (h : ∀ n, e ≠ .send (.replconfAck n)) :
    AckSound cfg log e :=
  fun n eq => absurd eq (h n)

/-- What the callback answers holds no acknowledgement. -/
lemma always_answers {function : CallbackFunction} (result : List ε × Except Reason σ) :
    History.Always Log.next (AckSound cfg) log (answers function result : List (Effect κ σ ε)) :=
  .of_forall (forall_answers (fun _ _ _ => .of_ne nofun) fun _ _ => .of_ne nofun)

/-- The start of the stream sends no acknowledgement. -/
lemma always_startStreaming {before after : ReplicaParser.ReplicaState}
    {started : List (Effect κ σ ε)} {start : Except Reason (State σ)}
    (h : startStreaming cfg before after s = (started, start)) :
    History.Always Log.next (AckSound cfg) log started := by
  obtain ⟨-, -, rfl, -⟩ | ⟨-, rfl, -⟩ := startStreaming_eq h
  · exact always_answers _
  · trivial

/-- Passing commands on sends no acknowledgement. -/
lemma always_processCommands {commands : List (ReplicaCommand κ)} {calls : List (Effect κ σ ε)}
    {result : Except Reason (State σ)} (h : processCommands cfg commands s = (calls, result)) :
    History.Always Log.next (AckSound cfg) log calls := by
  obtain ⟨-, rfl, -⟩ | ⟨-, rfl, -⟩ := processCommands_eq h
  · trivial
  · exact ⟨.of_ne nofun, always_answers _⟩

/-- The acknowledgements of one turn. -/
lemma always_turn (h : Tracks cfg log s) (turn : Turn cfg s es st) :
    History.Always Log.next (AckSound cfg) log es := by
  cases turn with
  | quiet silent same =>
    refine .of_forall fun e he r => .of_ne ?_
    rintro n rfl
    exact (silent _ he).elim
  | psync phase =>
    refine .of_forall fun e he r => .of_ne ?_
    rintro n rfl
    unfold psyncRequest at he
    split at he <;> simp at he
  | ack streaming => exact ⟨h.ackSound streaming, trivial⟩
  | complete phase e =>
    obtain ⟨_, _, -, rfl, -⟩ | ⟨-, rfl, -⟩ := handlePsyncCompleted_eq e
    · exact ⟨.of_ne nofun, always_answers _⟩
    · exact ⟨.of_ne nofun, trivial⟩
  | startFails phase e =>
    obtain ⟨_, _, -, rfl, -⟩ | ⟨-, rfl, -⟩ := handlePsyncCompleted_eq e
    · exact ⟨.of_ne nofun, always_answers _⟩
    · exact ⟨.of_ne nofun, trivial⟩
  | @feed env data _ handled phase e =>
    -- the acknowledgement stands behind the chunk and in front of the calls
    have acked {parser newParser : ReplicaParser.ParserState} {fed : ReplicaParser.Fed}
        {acks : List (Effect κ σ ε)} (hp : s.replicaParser = some parser)
        (hf : ReplicaParser.feedData parser data = .ok (newParser, fed))
        (ha : acks = if fed.pingReceived ∨ fed.replconfGetackReceived
          then sendReplconfAck env { s with replicaParser := some newParser } else []) :
        History.Always Log.next (AckSound cfg)
          (log.next (.parserData data (.ok fed) : Effect κ σ ε))
          acks := by
      have sent : ∀ e ∈ acks, e = .send (.replconfAck s.replicationOffset) ∧
          newParser.state = .streaming := by
        intro e he
        rw [ha] at he
        split at he
        · obtain ⟨rfl, streaming⟩ := sendReplconfAck_eq he
          refine ⟨rfl, ?_⟩
          simp only [replicationState, phase] at streaming
          cases st : newParser.state <;> simp [st] at streaming ⊢
        · simp at he
      refine .of_unrecorded (fun e he => ?_) fun e he => ?_
      · obtain ⟨rfl, -⟩ := sent e he
        rfl
      · obtain ⟨rfl, streaming⟩ := sent e he
        exact h.ackSound_chunk phase hp hf streaming
    cases handleReplicationData_receives e with
    | noParser => trivial
    | refused => exact ⟨.of_ne nofun, trivial⟩
    | unparsed => exact ⟨.of_ne nofun, trivial⟩
    | notStarted hp hf hc ha hs =>
      exact ⟨.of_ne nofun, (acked hp hf ha).append (always_startStreaming hs)⟩
    | accepted hp hf hc ha hs hk hh =>
      exact ⟨.of_ne nofun, (acked hp hf ha).append
        ((always_startStreaming hs).append (always_processCommands hk))⟩
  | drop => trivial
  | call => exact always_answers _
  | info => exact always_answers _
  | halt => trivial

/-- In every run, an acknowledgement covers complete commands that were emitted and handed over, and
at most the received beginning of one more. -/
theorem ack_received {trace before later : List (Effect κ σ ε)} {n : Int} (h : Run cfg trace st)
    (sent : trace = before ++ .send (.replconfAck n) :: later) :
    ∃ pending, parseArray pending = .need ∧
      Acknowledges cfg (logOf before).connections n pending := by
  have all : History.Always Log.next (AckSound cfg) ⟨0, []⟩ trace ∧
      ∀ s, st = .running s → Tracks cfg (logOf trace) s := by
    refine run_invariant (fun trace st => History.Always Log.next (AckSound cfg) ⟨0, []⟩ trace ∧
      ∀ s, st = .running s → Tracks cfg (logOf trace) s) ?_ ?_ ?_ h
    · intro callbackState _
      refine ⟨always_answers _, ?_⟩
      rintro s ⟨⟩
      rw [logOf, Log.after_answers]
      exact tracks_new callbackState
    · intro reason reason' _
      exact ⟨always_answers _, by rintro s ⟨⟩⟩
    · rintro trace s es st ⟨always, tracks⟩ turn
      refine ⟨always.append (always_turn (tracks s rfl) turn), ?_⟩
      rintro t rfl
      rw [logOf_append]
      exact tracks_turn (tracks s rfl) turn
  rw [sent] at all
  exact all.1.at n rfl

/-- The payload arrives in a chunk of its own, then the first line of a command; then the timer
fires. -/
def partialRun : List (Message Unit) :=
  handshake ++ [.data 0 (ascii "+FULLRESYNC id 7\r\n$23\r\n"), .data 0 ReplicaParser.sampleImage,
    .data 0 (ascii "*1\r\n"), .sendPeriodicAck]

/-- The sample run acknowledges offset 11 in its eleventh effect. -/
lemma partialRun_sends : (execute .plain .fine partialRun).1 =
    (execute .plain .fine partialRun).1.take 10 ++ .send (.replconfAck 11) ::
      (execute .plain .fine partialRun).1.drop 11 := by
  decide +kernel

/-- The acknowledgement of the sample run counts a command that is cut. -/
theorem ack_received_sample :
    ∃ pending, parseArray pending = .need ∧
      Acknowledges .plain (logOf ((execute .plain .fine partialRun).1.take 10)).connections 11
      pending :=
  ack_received (run_execute .plain .fine partialRun) partialRun_sends

/-- Not every acknowledged byte belongs to a command that has been handed over. -/
theorem ack_overReports :
    ¬ ∀ (trace before later : List (Effect Unit Unit Unit)) (st : Status Unit) (n : Int),
      Run Config.plain trace st → trace = before ++ .send (.replconfAck n) :: later →
      Acknowledges .plain (logOf before).connections n [] := by
  intro law
  obtain ⟨c, cs, consumed, rest, p, -, events, -, hl, begun, covered, read, isEmpty, -⟩ :=
    law _ _ _ _ 11 (run_execute .plain .fine partialRun) partialRun_sends
  have only : (logOf ((execute .plain .fine partialRun).1.take 10)).connections.map
      (fun c => (c.reply, c.stream)) =
      [(.fullresync (ascii "id") 7, some (ascii "*1\r\n"))] := by
    decide +kernel
  rw [hl, List.map_cons, List.cons.injEq, Prod.mk.injEq] at only
  obtain ⟨⟨reply, stream⟩, -⟩ := only
  rw [stream, List.append_nil, Option.some.injEq] at begun
  have size := congrArg List.length begun
  have four : (ascii "*1\r\n").length = 4 := rfl
  rw [offsetBefore, reply] at covered
  simp only [List.append_nil, List.length_append, four] at covered size
  have isNil : rest = [] := List.eq_nil_of_length_eq_zero (by omega)
  rw [isNil, List.append_nil] at begun
  subst begun
  -- the parser keeps all of it
  have kept : machine.absorb (.new true) (ascii "*1\r\n") =
      .ok ((ReplicaParser.ParserState.new true).push (ascii "*1\r\n"), []) :=
    machine.run_stall rfl
  rw [kept] at read
  cases read
  cases isEmpty

end Replica

end Veidrodelis.RedisStream
