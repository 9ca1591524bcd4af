import Veidrodelis.RedisNif.RdbDecode
import Veidrodelis.RedisNif.Stream
import Veidrodelis.RedisStream.Connections

/-!
# What the parsers of a run were fed

On every connection of every run the parser is what the chunks that came make of a new one, and what
it has emitted is what came out of it (`run_feeds`). So a connection on which an RDB image was
transferred has emitted the commands of the image, and behind them those of the stream
(`Feed.Reaches.image`); one on which the transfer goes on has emitted the first of these commands
(`Feed.Reaches.loading`).
-/

namespace Veidrodelis.RedisStream
open RedisNif Incremental
open RedisNif.ReplicaParser (commandsOf machine declaredPayload feedAll feedData inFront)
open RedisNif.RdbFormat (Image)

variable {κ σ ε μ : Type}

namespace Replica

/-! ## The record -/

/-- The parser that reads behind a reply. -/
def PsyncReply.parser : PsyncReply → ReplicaParser.ParserState
  | .fullresync _ _ => .new false
  | .continued => .new true

/-- What a parser was fed, and what it has emitted. -/
structure Feed where
  reply : PsyncReply
  chunks : List Bytes
  emitted : List RawCommand

/-- This parser is what the chunks make of a new one. -/
def Feed.Reaches (f : Feed) (p : ReplicaParser.ParserState) : Prop :=
  ∃ fed, feedAll f.reply.parser f.chunks = .ok (p, fed) ∧ fed.commands = f.emitted

/-- One more chunk. -/
def Feed.accept (f : Feed) (chunk : Bytes) (commands : List RawCommand) : Feed :=
  { f with chunks := f.chunks ++ [chunk], emitted := f.emitted ++ commands }

def Connection.feed (c : Connection κ) : Feed := ⟨c.reply, c.chunks, c.emitted⟩

def Log.feeds (log : Log κ) : List Feed := log.connections.map Connection.feed

/-- The effect is neither a reply nor a chunk that is accepted. -/
def Effect.Fasting : Effect κ σ ε → Prop
  | .psyncCompleted _ => False
  | .parserData _ (.ok _) => False
  | _ => True

/-- On all connections the parsers have been fed, and the one of the process is the last of them. -/
structure Feeds (feeds : List Feed) (st : Status σ) : Prop where
  all : ∀ f ∈ feeds, ∃ p, f.Reaches p
  current : ∀ s, st = .running s → s.state = .replication →
    ∃ f fs p, feeds = f :: fs ∧ s.replicaParser = some p ∧ f.Reaches p

section
variable {f : Feed} {p p' : ReplicaParser.ParserState}

/-- A new feed reaches the parser of its reply. -/
lemma reaches_new (reply : PsyncReply) : Feed.Reaches ⟨reply, [], []⟩ reply.parser := ⟨_, rfl, rfl⟩

/-- One chunk more at the end. -/
lemma feedAll_snoc {s : ReplicaParser.ParserState} {chunks : List Bytes} {chunk : Bytes}
    {fed later : ReplicaParser.Fed} (front : feedAll s chunks = .ok (p, fed))
    (last : feedData p chunk = .ok (p', later)) :
    ∃ all, feedAll s (chunks ++ [chunk]) = .ok (p', all) ∧
      all.commands = fed.commands ++ later.commands := by
  induction chunks generalizing s fed with
  | nil =>
    cases front
    refine ⟨later.append (.ofEvents []), ?_, List.append_nil _⟩
    rw [List.nil_append, feedAll, last]
    rfl
  | cons first chunks ih =>
    rw [feedAll] at front
    rw [List.cons_append, feedAll]
    cases e : feedData s first with
    | error fault =>
      rw [e] at front
      cases front
    | ok step =>
      rw [e] at front
      simp only at front ⊢
      cases e' : feedAll step.1 chunks with
      | error fault =>
        rw [e'] at front
        cases front
      | ok rest =>
        rw [e'] at front
        cases front
        obtain ⟨all, ran, commands⟩ := ih e'
        refine ⟨step.2.append all, by rw [ran], ?_⟩
        show step.2.commands ++ all.commands = step.2.commands ++ rest.2.commands ++ later.commands
        rw [commands, List.append_assoc]

/-- A feed that takes a chunk reaches the parser behind it. -/
lemma Feed.Reaches.accept (h : f.Reaches p) {chunk : Bytes} {fed : ReplicaParser.Fed}
    (e : feedData p chunk = .ok (p', fed)) : (f.accept chunk fed.commands).Reaches p' := by
  obtain ⟨before, ran, emitted⟩ := h
  obtain ⟨all, ran', commands⟩ := feedAll_snoc ran e
  exact ⟨all, ran', by rw [commands, emitted]; rfl⟩

end

section
variable {log : Log κ} {es : List (Effect κ σ ε)}

/-- A fasting effect changes no feed. -/
lemma feeds_next {e : Effect κ σ ε} (fasting : e.Fasting) : (log.next e).feeds = log.feeds := by
  have modified {f : Connection κ → Connection κ} (same : ∀ c, (f c).feed = c.feed) :
      (log.modify f).feeds = log.feeds := by
    rw [Log.feeds, Log.feeds, Log.modify]
    cases log.connections with
    | nil => rfl
    | cons c cs => rw [List.map_cons, List.map_cons, same]
  cases e with
  | send request =>
    cases request with
    | psync => rfl
    | _ => rfl
  | psyncCompleted => exact fasting.elim
  | parserData chunk result =>
    cases result with
    | ok => exact fasting.elim
    | error => exact modified fun _ => rfl
  | handleCommands => exact modified fun _ => rfl
  | _ => rfl

/-- Fasting effects change no feed. -/
lemma feeds_after (fasting : ∀ e ∈ es, e.Fasting) : (log.after es).feeds = log.feeds := by
  induction es generalizing log with
  | nil => rfl
  | cons e es ih =>
    obtain ⟨here, later⟩ := List.forall_mem_cons.mp fasting
    rw [Log.after_cons, ih later, feeds_next here]

/-- Data for the parser go to the newest feed. -/
lemma feeds_accept {f : Feed} {fs : List Feed} (latest : log.feeds = f :: fs) (chunk : Bytes)
    (fed : ReplicaParser.Fed) :
    (log.next (.parserData chunk (.ok fed) : Effect κ σ ε)).feeds =
      f.accept chunk fed.commands :: fs := by
  obtain ⟨requested, connections⟩ := log
  cases connections with
  | nil => cases latest
  | cons c cs =>
    cases latest
    rfl

/-- A request changes no feed. -/
lemma feeds_send (request : Request) :
    (log.after ([.send request] : List (Effect κ σ ε))).feeds = log.feeds := feeds_next trivial

/-- Quiet effects are fasting. -/
lemma fasting_of_quiet {e : Effect κ σ ε} (quiet : e.Quiet) : e.Fasting := by
  cases e with
  | psyncCompleted => exact quiet.elim
  | parserData => exact quiet.elim
  | _ => trivial

/-- Acknowledgements are fasting. -/
lemma fasting_acks {env : Answers} {s : State σ} {p : Prop} [Decidable p] :
    ∀ e ∈ (if p then sendReplconfAck env s else [] : List (Effect κ σ ε)), e.Fasting := by
  intro e mem
  unfold sendReplconfAck transportSend at mem
  repeat' split at mem
  all_goals simp at mem
  subst mem
  trivial

/-- What the callback answers is fasting. -/
lemma fasting_answers {function : CallbackFunction} (result : List ε × Except Reason σ) :
    ∀ e ∈ (answers function result : List (Effect κ σ ε)), e.Fasting :=
  forall_answers (fun _ _ => trivial) fun _ => trivial

/-- The start of the stream is fasting. -/
lemma fasting_started {cfg : Config κ σ ε μ} {s : State σ}
    {before after : ReplicaParser.ReplicaState} {start : Except Reason (State σ)}
    (h : startStreaming cfg before after s = (es, start)) : ∀ e ∈ es, e.Fasting := by
  obtain ⟨-, -, rfl, -⟩ | ⟨-, rfl, -⟩ := startStreaming_eq h
  · exact fasting_answers _
  · exact List.forall_mem_nil _

/-- Passing commands on is fasting. -/
lemma fasting_calls {cfg : Config κ σ ε μ} {s : State σ} {commands : List (ReplicaCommand κ)}
    {result : Except Reason (State σ)} (h : processCommands cfg commands s = (es, result)) :
    ∀ e ∈ es, e.Fasting := by
  obtain ⟨-, rfl, -⟩ | ⟨-, rfl, -⟩ := processCommands_eq h
  · exact List.forall_mem_nil _
  · exact List.forall_mem_cons.mpr ⟨trivial, fasting_answers _⟩

end

/-! ## Runs -/

section
variable {cfg : Config κ σ ε μ} {s : State σ} {st : Status σ} {es : List (Effect κ σ ε)}
  {feeds : List Feed}

/-- A process that stops leaves its feeds as they are. -/
lemma Feeds.stopped (h : Feeds feeds (.running s)) (reason : Reason) :
    Feeds feeds (.stopped reason : Status σ) := by
  refine ⟨h.all, ?_⟩
  rintro t ⟨⟩

/-- The parser stays what it was. -/
lemma Feeds.same (h : Feeds feeds (.running s)) {s' : State σ}
    (parser : s'.replicaParser = s.replicaParser)
    (phase : s'.state = .replication → s.state = .replication) : Feeds feeds (.running s') := by
  refine ⟨h.all, ?_⟩
  rintro t ⟨⟩ replicating
  obtain ⟨f, fs, p, latest, here, reaches⟩ := h.current s rfl (phase replicating)
  exact ⟨f, fs, p, latest, parser.trans here, reaches⟩

/-- A reply begins a connection. -/
lemma Feeds.begun (h : Feeds feeds (.running s)) (reply : PsyncReply) (callbackState : σ) :
    Feeds (⟨reply, [], []⟩ :: feeds) (.running (completed s callbackState reply)) := by
  constructor
  · intro f mem
    rcases List.mem_cons.mp mem with rfl | earlier
    · exact ⟨_, reaches_new reply⟩
    · exact h.all f earlier
  · rintro t ⟨⟩ -
    refine ⟨_, _, reply.parser, rfl, ?_, reaches_new reply⟩
    cases reply with
    | fullresync => rfl
    | continued => rfl

/-- A chunk that the parser takes. -/
lemma Feeds.accepted (h : Feeds feeds (.running s)) (phase : s.state = .replication)
    {p p' : ReplicaParser.ParserState} (parser : s.replicaParser = some p) {chunk : Bytes}
    {fed : ReplicaParser.Fed} (e : feedData p chunk = .ok (p', fed)) :
    ∃ f fs, feeds = f :: fs ∧ ∀ st : Status σ,
      (∀ s', st = .running s' → s'.replicaParser = some p') →
      Feeds (f.accept chunk fed.commands :: fs) st := by
  obtain ⟨f, fs, q, rfl, here, reaches⟩ := h.current s rfl phase
  obtain rfl : p = q := Option.some.inj (parser.symm.trans here)
  have next := reaches.accept e
  refine ⟨f, fs, rfl, fun st new => ⟨?_, ?_⟩⟩
  · intro g mem
    rcases List.mem_cons.mp mem with rfl | earlier
    · exact ⟨p', next⟩
    · exact h.all g (List.mem_cons_of_mem _ earlier)
  · rintro s' running -
    exact ⟨_, _, p', rfl, new s' running, next⟩

/-- Every turn is recorded. -/
lemma feeds_turn {log : Log κ} (h : Feeds log.feeds (.running s)) (turn : Turn cfg s es st) :
    Feeds (log.after es).feeds st := by
  cases turn with
  | quiet silent same =>
    rw [feeds_after fun e mem => fasting_of_quiet (silent e mem)]
    refine h.same same.replicaParser fun replicating => ?_
    obtain e | ⟨-, no, -⟩ := same.state
    · exact e ▸ replicating
    · exact absurd replicating no
  | psync phase =>
    rw [feeds_send]
    refine h.same rfl fun replicating => ?_
    cases replicating
  | ack streaming =>
    rw [feeds_send]
    exact h
  | complete phase e =>
    obtain ⟨replicationId, offset, rfl, rfl, ok⟩ | ⟨rfl, rfl, ok⟩ := handlePsyncCompleted_eq e
    · obtain ⟨callbackState, -, rfl⟩ := ok _ rfl
      rw [Log.after_cons, feeds_after (fasting_answers _)]
      exact h.begun _ callbackState
    · cases ok
      exact h.begun _ s.callbackState
  | startFails phase e =>
    obtain ⟨replicationId, offset, rfl, rfl, -⟩ | ⟨rfl, rfl, ok⟩ := handlePsyncCompleted_eq e
    · rw [Log.after_cons, feeds_after (fasting_answers _)]
      have begun := h.begun (.fullresync replicationId offset) s.callbackState
      exact begun.stopped _
    · cases ok
  | @feed env data _ handled phase e =>
    cases handleReplicationData_receives e with
    | noParser => exact h.stopped _
    | refused hp hf hh =>
      have same (fault : Fault) :
        (log.after ([.parserData data (.error fault)] : List (Effect κ σ ε))).feeds =
          log.feeds := by
        refine feeds_after fun e mem => ?_
        rw [List.mem_singleton.mp mem]
        trivial
      rw [same]
      obtain ⟨reason, rfl⟩ | rfl := hh
      · exact h
      · exact h.stopped _
    | unparsed hp hf hc =>
      obtain ⟨f, fs, latest, next⟩ := h.accepted phase hp hf
      rw [Log.after_cons, Log.after_nil, feeds_accept latest]
      apply next
      rintro s' ⟨⟩
    | @notStarted parser newParser fed commands acks started reason hp hf hc ha hs =>
      obtain ⟨f, fs, latest, next⟩ := h.accepted phase hp hf
      rw [Log.after_cons, Log.after_append, feeds_after (fasting_started hs), ha,
        feeds_after fasting_acks, feeds_accept latest]
      apply next
      rintro s' ⟨⟩
    | @accepted parser newParser fed commands acks started calls t result handled hp hf hc
      ha hs hk hh =>
      obtain ⟨f, fs, latest, next⟩ := h.accepted phase hp hf
      rw [Log.after_cons, Log.after_append, Log.after_append, feeds_after (fasting_calls hk),
        feeds_after (fasting_started hs), ha, feeds_after fasting_acks, feeds_accept latest]
      apply next
      intro s' running
      obtain ⟨u, -, rfl⟩ | ⟨reason, -, rfl⟩ := hh
      · cases running
        obtain ⟨parser', newParser', fed', callbackState, hp', hf', rfl⟩ := accepted_state e
        cases Option.some.inj (hp.symm.trans hp')
        cases hf.symm.trans hf'
        rfl
      · cases running
  | drop =>
    refine ⟨h.all, ?_⟩
    rintro t ⟨⟩ ⟨⟩
  | call =>
    rw [feeds_after (fasting_answers _)]
    unfold consulted
    split
    · exact h.same rfl id
    · exact h
  | info =>
    rw [feeds_after (fasting_answers _)]
    unfold consulted
    split
    · exact h.same rfl id
    · exact h
  | halt => exact h.stopped _

/-- In every run, also at its end. -/
theorem run_feeds {trace : List (Effect κ σ ε)} (run : Run cfg trace st) :
    Feeds (logOf trace).feeds st := by
  refine run_invariant (fun trace st => Feeds (logOf trace).feeds st) ?_ ?_ ?_ run
  · intro callbackState ok
    rw [logOf, feeds_after (fasting_answers _)]
    refine ⟨?_, by rintro s ⟨⟩ ⟨⟩⟩
    intro f mem
    cases mem
  · intro reason reason' failed
    rw [logOf, feeds_after (fasting_answers _)]
    refine ⟨?_, by rintro s ⟨⟩⟩
    intro f mem
    cases mem
  · intro trace s es st before turn
    rw [logOf_append]
    exact feeds_turn before turn

end

/-! ## Images -/

/-- The transfer of a payload: line ends that keep the connection alive, the size, and the
payload. -/
def transfer (newlines payload : Bytes) : Bytes :=
  newlines ++ 36 :: (Bytes.natText payload.length ++ 13 :: 10 :: payload)

section
variable {newlines : Bytes}

/-- The header is read. -/
lemma parseRdbHeader_transfer (ends : ∀ b ∈ newlines, b = 10 ∨ b = 13) {payload : Bytes}
    (small : payload.length < usizeSize) (stream : Bytes) :
    ReplicaParser.parseRdbHeader
      ((ReplicaParser.ParserState.new false).push (transfer newlines payload ++ stream)) =
      .next (inFront payload.length (payload ++ stream)) [] := by
  have skipped (rest : Bytes) : skipNewlines (newlines ++ 36 :: rest) = 36 :: rest := by
    induction newlines with
    | nil => rfl
    | cons b newlines ih =>
      obtain ⟨here, later⟩ := List.forall_mem_cons.mp ends
      rw [List.cons_append, skipNewlines, if_pos here, ih later]
  have crlf : findCrlf (36 :: (Bytes.natText payload.length ++ 13 :: 10 :: (payload ++ stream))) =
      some ((Bytes.natText payload.length).length + 1) := by
    rw [findCrlf_cons (by decide), ReplicaParser.findCrlf_natText]
    rfl
  have size : parseUsize (Bytes.natText payload.length) = some payload.length :=
    Bytes.parseUnsigned_natText small
  have behind : (Bytes.natText payload.length ++ 13 :: 10 :: (payload ++ stream)).drop
      ((Bytes.natText payload.length).length + 2) = payload ++ stream := by
    rw [← List.drop_drop, List.drop_left]
    rfl
  have input : ((ReplicaParser.ParserState.new false).push
    (transfer newlines payload ++ stream)).buffer =
      newlines ++ 36 :: (Bytes.natText payload.length ++ 13 :: 10 :: (payload ++ stream)) := by
    simp [ReplicaParser.ParserState.push, ReplicaParser.ParserState.new, transfer]
  rw [ReplicaParser.parseRdbHeader_eq]
  simp only [input, skipped, crlf, ne_eq, not_true_eq_false, if_false, List.take_succ_cons,
    List.drop_succ_cons, List.drop_zero, List.take_left, size, behind]
  rfl

/-- A transfer declares its payload, with the stream behind it. -/
lemma declaredPayload_transfer (ends : ∀ b ∈ newlines, b = 10 ∨ b = 13) {payload : Bytes}
    (small : payload.length < usizeSize) (stream : Bytes) :
    declaredPayload (transfer newlines payload ++ stream) =
      some (payload.length, payload ++ stream) := by
  rw [declaredPayload, parseRdbHeader_transfer ends small]
  rfl

variable {img : Image}

/-- What a parser makes of the transfer of an image, and of the stream behind it. -/
lemma absorb_transfer (known : img.Known) (readable : img.Readable)
    (bound : img.encode.length < usizeSize) (ends : ∀ b ∈ newlines, b = 10 ∨ b = 13)
    (stream : Bytes) :
    ReplicaParser.Fills ((ReplicaParser.ParserState.new false).push
      (transfer newlines img.encode ++ stream)) ∧
      machine.absorb (.new false) (transfer newlines img.encode ++ stream) =
        after (img.commands.map .command) (machine.absorb (.new true) stream) := by
  have isImage := RdbFormat.isImage_encode known readable bound
  have declared := declaredPayload_transfer ends bound stream
  have fills :=
    ReplicaParser.fills_of_declaresImage (ReplicaParser.declaresImage_of_image declared rfl isImage)
  refine ⟨fills, (ReplicaParser.drain_eq fills).symm.trans ?_⟩
  have header : ReplicaParser.parseNext ((ReplicaParser.ParserState.new false).push
      (transfer newlines img.encode ++ stream)) =
      .next (inFront img.encode.length (img.encode ++ stream)) [] :=
    parseRdbHeader_transfer ends bound stream
  -- the whole payload is there, and what is behind it is read like a stream from its start
  have nonempty : img.encode ≠ [] := by
    rw [Image.encode]
    exact List.append_ne_nil_of_left_ne_nil
      (List.ne_nil_of_length_pos (by rw [img.magicSize]; decide)) _
  have receiving : ReplicaParser.Receiving (inFront img.encode.length (img.encode ++ stream))
    img.encode.length .new :=
    ⟨rfl, rfl, rfl, List.length_pos_iff.mpr nonempty⟩
  obtain ⟨q, read, -, -, -⟩ := RdbFormat.absorb_image known readable.right bound
  have round := ReplicaParser.reading_round receiving rfl nonempty (.inl (Nat.zero_add _))
  rw [(Rdb.feedData_absorb rfl img.encode).trans read] at round
  have start : (inFront img.encode.length (img.encode ++ stream)).fed img.encode.length
    img.encode.length q stream =
      (ReplicaParser.ParserState.new true).push stream := by
    rw [ReplicaParser.ParserState.fed, if_pos (Nat.le_add_left _ _)]
    rfl
  have streaming : ReplicaParser.Fills ((ReplicaParser.ParserState.new true).push stream) := trivial
  rw [ReplicaParser.drain_next header, after_nil, ReplicaParser.drain_next round, start,
    ReplicaParser.drain_eq streaming]
  rfl

end

/-! ## What has been emitted -/

/-- The commands of a stream. -/
def streamCommands (stream : Bytes) : List RawCommand :=
  match machine.absorb (.new true) stream with
  | .ok (_, events) => commandsOf events
  | .error _ => []

section
variable {f : Feed} {p : ReplicaParser.ParserState} {img : Image} {newlines : Bytes}

/-- A partial resync. -/
lemma Feed.Reaches.continued (h : f.Reaches p) (partly : f.reply.parser = .new true) :
    f.emitted = streamCommands f.chunks.flatten := by
  obtain ⟨fed, ran, emitted⟩ := h
  have settled : machine.Settled (ReplicaParser.ParserState.new true) := rfl
  have fills : ReplicaParser.Fills ((ReplicaParser.ParserState.new true).push f.chunks.flatten) :=
    trivial
  rw [partly, ReplicaParser.feedAll_flatten settled fills] at ran
  rw [← emitted, streamCommands]
  cases read : machine.absorb (.new true) f.chunks.flatten with
  | error fault =>
    rw [read] at ran
    cases ran
  | ok result =>
    rw [read] at ran
    cases ran
    rfl

/-- A full resync whose image has come as a whole. -/
lemma Feed.Reaches.image (h : f.Reaches p) (full : f.reply.parser = .new false) (known : img.Known)
    (readable : img.Readable) (bound : img.encode.length < usizeSize)
    (ends : ∀ b ∈ newlines, b = 10 ∨ b = 13) {stream : Bytes}
    (received : f.chunks.flatten = transfer newlines img.encode ++ stream) :
    f.emitted = img.commands ++ streamCommands stream := by
  obtain ⟨fed, ran, emitted⟩ := h
  obtain ⟨fills, absorbed⟩ := absorb_transfer known readable bound ends stream
  have settled : machine.Settled (ReplicaParser.ParserState.new false) := rfl
  rw [full, ReplicaParser.feedAll_flatten settled (by rwa [received]), received, absorbed] at ran
  cases read : machine.absorb (.new true) stream with
  | error fault =>
    rw [read] at ran
    cases ran
  | ok result =>
    rw [read] at ran
    cases ran
    rw [← emitted, streamCommands, read]
    show commandsOf (img.commands.map .command ++ result.2) = _
    rw [ReplicaParser.commandsOf_append, Connection.commandsOf_command]

/-- A full resync whose image has not come as a whole. -/
lemma Feed.Reaches.loading (h : f.Reaches p) (full : f.reply.parser = .new false)
    (known : img.Known) (readable : img.Readable) (bound : img.encode.length < usizeSize)
    (ends : ∀ b ∈ newlines, b = 10 ∨ b = 13)
    (received : f.chunks.flatten <+: transfer newlines img.encode) :
    f.emitted <+: img.commands := by
  obtain ⟨fed, ran, emitted⟩ := h
  obtain ⟨missing, whole⟩ := received
  obtain ⟨fills, absorbed⟩ := absorb_transfer known readable bound ends []
  have settled : machine.Settled (ReplicaParser.ParserState.new false) := rfl
  have nothing : machine.absorb (ReplicaParser.ParserState.new true) [] = .ok (.new true, []) := rfl
  rw [List.append_nil, ← whole] at absorbed fills
  rw [ReplicaParser.push_append] at fills
  rw [full, ReplicaParser.feedAll_flatten settled fills.of_push] at ran
  rw [machine.absorb_append, nothing] at absorbed
  cases read : machine.absorb (.new false) f.chunks.flatten with
  | error fault =>
    rw [read] at ran
    cases ran
  | ok result =>
    rw [read] at ran absorbed
    cases ran
    obtain ⟨more, -, split⟩ := after_eq_ok absorbed
    rw [← emitted]
    refine ⟨commandsOf more, ?_⟩
    show commandsOf result.2 ++ commandsOf more = _
    rw [← ReplicaParser.commandsOf_append, ← split, List.append_nil, Connection.commandsOf_command]

end

end Replica

end Veidrodelis.RedisStream
