import Veidrodelis.RedisStream.Acks

/-!
# Partial resynchronization

What becomes of the command stream when the connection is cut and the primary answers the next
`PSYNC` with `+CONTINUE`. `continued_db` is about the selected database, `partial_resync` about the
commands themselves.
-/

namespace Veidrodelis.RedisStream
open RedisNif Incremental
open RedisNif.ReplicaParser (Item DataBeforeSelect absorb_encodeAll absorb_lineEnds absorb_nil
  absorb_take
  commandsOf commandsOf_append commandsOf_eventsOf_eq_iff dataOf dataOf_append dataOf_wholeItems_max
  dbAfter encodeAll encodeAll_append encodeAll_ends eventsOf feedData_absorb machine new_streaming
    streaming_absorb
  streamingAt wholeItems wholeItems_append wholeItems_zero)

variable {κ σ ε μ : Type}

namespace Replica

open Connection

variable {cfg : Config κ σ ε μ} {s : State σ} {trace : List (Effect κ σ ε)}

/-- What the parser makes of the bytes behind `+CONTINUE`. -/
lemma Connection.Follows.continued {c : Connection κ} {p : ReplicaParser.ParserState}
    {rdb : List RawCommand} {events : List ReplicaParser.Event} (h : c.Follows p rdb events)
    (continued : c.reply = .continued) :
    machine.absorb (.new true) c.received = .ok (p, events) ∧ c.emitted = commandsOf events := by
  obtain ⟨read, emitted⟩ := h
  rw [continued] at read
  obtain ⟨rfl, read⟩ := read
  exact ⟨read, emitted⟩

/-! ## The selected database -/

/-- The stream bytes that these connections, the latest first, have received since the last full
resync. -/
def streamed : List (Connection κ) → Option Bytes
  | [] => none
  | c :: cs =>
    match c.reply with
    | .fullresync _ _ => c.stream
    | .continued => (streamed cs).map (· ++ c.received)

/-- What was emitted for `received` is what one connection emits for it behind `earlier`. -/
def Uninterrupted (earlier received : Bytes) (emitted : List RawCommand) : Prop :=
  ∃ p first q all, machine.absorb (.new true) earlier = .ok (p, first) ∧
    machine.absorb (.new true) (earlier ++ received) = .ok (q, all) ∧
    commandsOf all = commandsOf first ++ emitted

/-- A continuation is uninterrupted when it emits what the whole stream would. -/
lemma uninterrupted_iff {before behind : List Item} {received : Bytes}
    (continuation : received <+: encodeAll behind) (emitted : List RawCommand) :
    Uninterrupted (encodeAll before) received emitted ↔
      emitted = commandsOf (eventsOf (dbAfter 0 before) (wholeItems received.length behind)) := by
  have taken : received = (encodeAll behind).take received.length :=
    List.prefix_iff_eq_take.mp continuation
  have first : machine.absorb (.new true) (encodeAll before) =
      .ok (streamingAt (dbAfter 0 before) [], eventsOf 0 before) := by
    rw [← List.append_nil (encodeAll before), new_streaming, absorb_encodeAll, absorb_nil, after_ok,
      List.append_nil]
  obtain ⟨tail, second⟩ := absorb_take (dbAfter 0 before) behind received.length
  rw [← taken] at second
  have all : machine.absorb (.new true) (encodeAll before ++ received) =
      .ok (streamingAt (dbAfter (dbAfter 0 before) (wholeItems received.length behind)) tail,
        eventsOf 0 before ++ eventsOf (dbAfter 0 before) (wholeItems received.length behind)) := by
    rw [new_streaming, absorb_encodeAll, second, after_ok]
  constructor
  · rintro ⟨p, e, q, e', h, h', eq⟩
    rw [first] at h
    rw [all] at h'
    cases h
    cases h'
    rw [commandsOf_append] at eq
    exact (List.append_cancel_left eq).symm
  · rintro rfl
    exact ⟨_, _, _, _, first, all, commandsOf_append _ _⟩

/-- Behind `+CONTINUE` the commands come out as on one connection, database included, exactly when
the stream had stood in database 0 or no command comes before it selects one. -/
theorem continued_db (h : Run cfg trace (.running s)) {c : Connection κ} {cs : List (Connection κ)}
    {before behind : List Item} (connections : (logOf trace).connections = c :: cs)
    (continued : c.reply = .continued) (earlier : streamed cs = some (encodeAll before))
    (continuation : c.received <+: encodeAll behind) :
    (∃ bytes, streamed cs = some bytes ∧ Uninterrupted bytes c.received c.emitted) ↔
      dbAfter 0 before = 0 ∨ ¬ DataBeforeSelect (wholeItems c.received.length behind) := by
  obtain ⟨p, rdb, events, follows⟩ := ((run_tracks h).sound c (by simp [connections])).1
  obtain ⟨read, emitted⟩ := follows.continued continued
  have taken : c.received = (encodeAll behind).take c.received.length :=
    List.prefix_iff_eq_take.mp continuation
  obtain ⟨tail, expected⟩ := absorb_take 0 behind c.received.length
  rw [← taken, ← new_streaming, read] at expected
  cases expected
  have zero : (∃ bytes, streamed cs = some bytes ∧ Uninterrupted bytes c.received c.emitted) ↔
      Uninterrupted (encodeAll before) c.received c.emitted := by
    rw [earlier]
    simp
  rw [zero, uninterrupted_iff continuation, emitted, commandsOf_eventsOf_eq_iff, eq_comm]

/-- A full resync, a first part of the stream, the end of the connection, and a partial resync with
a second part. -/
def resyncRun (first : Bytes) (second : List Bytes) : List (Message Unit) :=
  handshake ++ [.data 0 (ascii "+FULLRESYNC id 7\r\n$23\r\n"), .data 0 ReplicaParser.sampleImage,
    .data 0 first, .closed 0, .reconnectTimeout] ++ handshake ++
    [.data 0 (ascii "+CONTINUE\r\n")] ++ second.map (.data 0)

def selectThree : Item := .command [ascii "SELECT", ascii "3"] (by decide)

def commandX : Item := .command [ascii "X"] (by decide)

/-- A connection with the sample image and then `stream`. -/
def imageThen (stream : Bytes) (commands : List RawCommand) : Connection Unit where
  reply := .fullresync (ascii "id") 7
  requested := -1
  chunks := [ascii "$23\r\n", ReplicaParser.sampleImage, stream]
  refused := none
  emitted := ⟨0, ascii "SET", [ascii "k", ascii "v"]⟩ :: commands
  handed := (⟨0, ascii "SET", [ascii "k", ascii "v"]⟩ :: commands).map fun cmd =>
    ⟨cmd.db, (), cmd.name :: cmd.args, []⟩

/-- A connection that goes on with `X`. -/
def continuesWithX (requested : Int) : Connection Unit where
  reply := .continued
  requested
  chunks := [commandX.encode]
  refused := none
  emitted := [⟨0, ascii "X", []⟩]
  handed := [⟨0, (), [ascii "X"], []⟩]

/-- The sample run goes on behind a data command. -/
lemma running_resyncRun_x : ∃ s, Run .plain
    (execute .plain .fine (resyncRun commandX.encode [commandX.encode])).1 (.running s) := by
  obtain ⟨s, e⟩ : ∃ s, (execute .plain .fine (resyncRun commandX.encode [commandX.encode])).2 =
    .running s := ⟨_, rfl⟩
  exact ⟨s, e ▸ run_execute .plain .fine _⟩

/-- The sample run continues in database 0, where it was. -/
theorem continued_db_sample :
    (∃ bytes, streamed [imageThen commandX.encode [⟨0, ascii "X", []⟩]] = some bytes ∧
      Uninterrupted bytes (continuesWithX 18).received (continuesWithX 18).emitted) ↔
    dbAfter 0 [commandX] = 0 ∨
      ¬ DataBeforeSelect (wholeItems (continuesWithX 18).received.length [commandX]) := by
  obtain ⟨s, run⟩ := running_resyncRun_x
  have connections : (logOf (execute .plain .fine
      (resyncRun commandX.encode [commandX.encode])).1).connections =
      [continuesWithX 18, imageThen commandX.encode [⟨0, ascii "X", []⟩]] := by
    decide +kernel
  exact continued_db run connections rfl (by decide +kernel) (by decide +kernel)

/-- The sample run goes on behind a `SELECT`. -/
lemma running_resyncRun_select : ∃ s, Run .plain
    (execute .plain .fine (resyncRun selectThree.encode [commandX.encode])).1 (.running s) := by
  obtain ⟨s, e⟩ : ∃ s, (execute .plain .fine (resyncRun selectThree.encode [commandX.encode])).2 =
    .running s := ⟨_, rfl⟩
  exact ⟨s, e ▸ run_execute .plain .fine _⟩

/-- The database is not always the selected one: a command behind `+CONTINUE` goes to database 0. -/
theorem continued_db_lost :
    ¬ ∀ (trace : List (Effect Unit Unit Unit)) (s : State Unit) (c : Connection Unit)
        (cs : List (Connection Unit)) (before behind : List Item),
      Run Config.plain trace (.running s) → (logOf trace).connections = c :: cs →
        c.reply = .continued →
      streamed cs = some (encodeAll before) → c.received <+: encodeAll behind →
      ∃ bytes, streamed cs = some bytes ∧ Uninterrupted bytes c.received c.emitted := by
  intro law
  obtain ⟨s, run⟩ := running_resyncRun_select
  have connections : (logOf (execute .plain .fine
      (resyncRun selectThree.encode [commandX.encode])).1).connections =
      [continuesWithX 30, imageThen selectThree.encode []] := by
    decide +kernel
  have earlier : streamed [imageThen selectThree.encode []] = some (encodeAll [selectThree]) := by
    decide +kernel
  have continuation : (continuesWithX 30).received <+: encodeAll [commandX] := by
    decide +kernel
  obtain ⟨bytes, same, out⟩ :=
    law _ s _ _ [selectThree] [commandX] run connections rfl earlier continuation
  rw [earlier, Option.some.injEq] at same
  rw [← same, uninterrupted_iff continuation] at out
  exact absurd out (by decide +kernel)

/-! ## The commands -/

/-- The stream of a primary: the bytes up to the offset of the full resync, and what was written
since. -/
structure Backlog where
  history : Bytes
  items : List Item

namespace Backlog

/-- The bytes from this number on; the first byte has the number 1. -/
def resume (b : Backlog) (offset : Int) : Bytes :=
  (b.history ++ encodeAll b.items).drop (offset - 1).toNat

/-- How many bytes of the stream are there behind a first part of `received` bytes and `more` bytes
that were sent from `offset` on. -/
def arrived (b : Backlog) (received : Nat) (offset : Int) (more : Nat) : Nat :=
  max received ((offset - 1).toNat + more - b.history.length)

end Backlog

/-- A full resync, the end of the connection at any point, and a partial resync, with a primary that
resumes at the byte that is asked for. -/
structure CutOver (b : Backlog) (connections : List (Connection κ)) (c₁ c₂ : Connection κ) :
    Prop where
  latest : ∃ cs, connections = c₂ :: c₁ :: cs
  full : ∃ replicationId, c₁.reply = .fullresync replicationId b.history.length
  continued : c₂.reply = .continued
  first : c₁.stream.getD [] <+: encodeAll b.items
  second : c₂.received <+: b.resume c₂.requested

/-- Both connections together hand over what one connection would, behind the commands of the
snapshot, and the parser takes everything that the primary still sends. -/
structure Joined (cfg : Config κ σ ε μ) (b : Backlog) (c₁ c₂ : Connection κ) (s : State σ) :
    Prop where
  handed : ∃ p rdb events snapshot commands q all,
    c₁.Follows p rdb events ∧ Parser.convertCommands cfg.parse rdb = some snapshot ∧
    machine.absorb (.new true) ((encodeAll b.items).take
      (b.arrived (c₁.stream.getD []).length c₂.requested c₂.received.length)) = .ok (q, all) ∧
    commands.map (·.rawCommand) = (commandsOf all).map (fun cmd => cmd.name :: cmd.args) ∧
    c₁.handed ++ c₂.handed = cfg.commandFilter.applyPre (snapshot ++ commands)
  accepts : s.state = .replication → ∀ p, s.replicaParser = some p → ∀ chunk,
    c₂.received ++ chunk <+: b.resume c₂.requested →
      ∃ q fed, ReplicaParser.feedData p chunk = .ok (q, fed)

/-- What is sent from `offset` on is line ends and the commands that were not received as a
whole. -/
def ResumesCleanly (b : Backlog) (received : Nat) (offset : Int) : Prop :=
  ∃ newlines done rest, (∀ x ∈ newlines, x = 10 ∨ x = 13) ∧ b.items = done ++ rest ∧
    b.resume offset = newlines ++ encodeAll rest ∧
    dataOf done = dataOf (wholeItems received b.items)

/-- Line ends and items, or the first bytes of them, are read as such. -/
lemma absorb_resumed {newlines x : Bytes} {rest : List Item}
    (ends : ∀ b ∈ newlines, b = 10 ∨ b = 13) (h : x <+: newlines ++ encodeAll rest) :
    ∃ q, machine.absorb (.new true) x =
      .ok (q, eventsOf 0 (wholeItems (x.length - newlines.length) rest)) := by
  have taken := List.prefix_iff_eq_take.mp h
  rw [List.take_append] at taken
  obtain ⟨tail, read⟩ := absorb_take 0 rest (x.length - newlines.length)
  have ends' : ∀ b ∈ newlines.take x.length, b = 10 ∨ b = 13 := fun b hb =>
    ends b (List.mem_of_mem_take hb)
  have skipped := absorb_lineEnds 0 ends' ((encodeAll rest).take (x.length - newlines.length))
  exact ⟨_, (congrArg (machine.absorb (.new true)) taken).trans (skipped.trans read)⟩

/-- What comes out of the first part. -/
lemma Connection.Follows.events_eq {c : Connection κ} {p : ReplicaParser.ParserState}
    {rdb : List RawCommand} {events : List ReplicaParser.Event} (h : c.Follows p rdb events)
    {items : List Item} (first : c.stream.getD [] <+: encodeAll items) :
    events = eventsOf 0 (wholeItems (c.stream.getD []).length items) := by
  cases e : c.stream with
  | none =>
    rw [h.silent e, Option.getD_none, List.length_nil, wholeItems_zero]
    rfl
  | some bytes =>
    rw [e, Option.getD_some] at first
    have taken := List.prefix_iff_eq_take.mp first
    obtain ⟨tail, read⟩ := absorb_take 0 items bytes.length
    rw [← taken, ← new_streaming, h.stream e] at read
    cases read
    rfl

/-- A clean resumption emits the data that were missing. -/
lemma ResumesCleanly.dataOf_eq {b : Backlog} {received more : Nat} {offset : Int} {newlines : Bytes}
    {done rest : List Item} (items : b.items = done ++ rest)
    (resumed : b.resume offset = newlines ++ encodeAll rest)
    (same : dataOf done = dataOf (wholeItems received b.items))
    (inside : (offset - 1).toNat ≤ (b.history ++ encodeAll b.items).length) :
    dataOf (wholeItems received b.items) ++ dataOf (wholeItems (more - newlines.length) rest) =
      dataOf (wholeItems (b.arrived received offset more) b.items) := by
  have start : (offset - 1).toNat + newlines.length =
    b.history.length + (encodeAll done).length := by
    have size := congrArg List.length resumed
    rw [Backlog.resume, List.length_drop] at size
    simp only [items, encodeAll_append, List.length_append] at size inside
    omega
  have whole : wholeItems (encodeAll done).length b.items = done := by
    rw [items, wholeItems_append (le_refl _), Nat.sub_self, wholeItems_zero, List.append_nil]
  have last : dataOf done ++ dataOf (wholeItems (more - newlines.length) rest) =
      dataOf (wholeItems (max (encodeAll done).length
        ((offset - 1).toNat + more - b.history.length)) b.items) := by
    rw [items, wholeItems_append (le_max_left _ _), dataOf_append]
    congr 3
    omega
  rw [← same, last, Backlog.arrived]
  exact dataOf_wholeItems_max (by rw [whole, same]) _

/-- The stream resumes cleanly if the connection was cut behind a command and every byte was
counted. -/
lemma ResumesCleanly.of_boundary {b : Backlog} {done rest : List Item}
    (items : b.items = done ++ rest) (nonempty : done ≠ []) :
    ResumesCleanly b (encodeAll done).length (b.history.length + (encodeAll done).length) := by
  obtain ⟨front, e⟩ := encodeAll_ends nonempty
  refine ⟨[10], done, rest, by simp, items, ?_, ?_⟩
  · have start : ((b.history.length : Int) + (encodeAll done).length - 1).toNat =
        (b.history ++ front).length := by
      rw [e]
      simp only [List.length_append, List.length_singleton]
      omega
    have split : b.history ++ (front ++ [10] ++ encodeAll rest) =
        (b.history ++ front) ++ ([10] ++ encodeAll rest) := by
      simp only [List.append_assoc]
    rw [Backlog.resume, start, items, encodeAll_append, e, split, List.drop_left]
  · rw [items, wholeItems_append (le_refl _), Nat.sub_self, wholeItems_zero, List.append_nil]

/-- In every run in which the stream resumes cleanly from the last byte that was counted, nothing is
lost, duplicated or garbled. -/
theorem partial_resync (h : Run cfg trace (.running s)) {b : Backlog} {c₁ c₂ : Connection κ}
    (cut : CutOver b (logOf trace).connections c₁ c₂)
    (clean : ResumesCleanly b (c₁.stream.getD []).length (b.history.length + c₁.counted)) :
    Joined cfg b c₁ c₂ s := by
  have tracks := run_tracks h
  obtain ⟨cs, latest⟩ := cut.latest
  obtain ⟨replicationId, full⟩ := cut.full
  -- the replica asks for the stream from the last byte that it has counted
  have asked : c₂.requested = b.history.length + c₁.counted := by
    have linked := tracks.linked
    rw [latest] at linked
    rw [linked.1 cut.continued ⟨c₁, by simp, replicationId, _, full⟩, offsetAfter_cons,
      offsetBefore, full]
  rw [← asked] at clean
  obtain ⟨newlines, done, rest, ends, items, resumed, same⟩ := clean
  obtain ⟨⟨p₁, rdb, events₁, follows₁⟩, commands₁, converted₁, handed₁⟩ :=
    tracks.sound c₁ (by simp [latest])
  obtain ⟨⟨p₂, rdb₂, events₂, follows₂⟩, commands₂, converted₂, handed₂⟩ :=
    tracks.sound c₂ (by simp [latest])
  obtain ⟨read₂, emitted₂⟩ := follows₂.continued cut.continued
  have second := cut.second
  constructor
  · -- what came out of the two parts
    obtain ⟨q₂, read₂'⟩ := absorb_resumed ends (resumed ▸ second)
    have out₁ := follows₁.events_eq cut.first
    have out₂ : events₂ =
        eventsOf 0 (wholeItems (c₂.received.length - newlines.length) rest) := by
      rw [read₂] at read₂'
      cases read₂'
      rfl
    rw [follows₁.2] at converted₁
    obtain ⟨snapshot, stream₁, snapshotted, streamed₁, rfl⟩ :=
      Parser.convertCommands_eq_append converted₁
    obtain ⟨tail, all⟩ := absorb_take 0 b.items
      (b.arrived (c₁.stream.getD []).length c₂.requested c₂.received.length)
    refine ⟨p₁, rdb, events₁, snapshot, stream₁ ++ commands₂, _, _, follows₁, snapshotted, all, ?_,
      ?_⟩
    · have inside : (c₂.requested - 1).toNat ≤ (b.history ++ encodeAll b.items).length := by
        have counted := c₁.counted_le
        have received := cut.first.length_le
        rw [asked, List.length_append]
        omega
      rw [emitted₂] at converted₂
      rw [List.map_append, Parser.rawCommand_convertCommands streamed₁,
        Parser.rawCommand_convertCommands converted₂, out₁, out₂]
      exact ResumesCleanly.dataOf_eq items resumed same inside
    · rw [handed₁, handed₂, ← CommandFilter.applyPre_append, List.append_assoc]
  · -- what comes later is parsed as if the stream had not been cut
    intro phase p hp chunk more
    obtain ⟨c, cs', p', rdb', events', hl, hp', follows'⟩ := tracks.current phase
    rw [latest] at hl
    cases hl
    obtain rfl : p = p' := Option.some.inj (hp.symm.trans hp')
    obtain ⟨q, all⟩ := absorb_resumed ends (resumed ▸ more)
    have read := (follows'.continued cut.continued).1
    rw [machine.absorb_append, read] at all
    obtain ⟨out, here, -⟩ := after_eq_ok all
    have st := streaming_absorb rfl read
    have fills : ReplicaParser.Fills (p.push chunk) := by
      simp only [ReplicaParser.Fills, ReplicaParser.push_state, st]
    exact ⟨q, _, (feedData_absorb fills).trans (by rw [here]; rfl)⟩

/-- The partial resync begins with the line feed of the last command. -/
def continuesWithLineFeed : Connection Unit :=
  { continuesWithX 18 with chunks := [10 :: commandX.encode] }

/-- A partial resync that begins with the line feed of the last command. -/
theorem partial_resync_sample : ∃ s,
    Joined .plain ⟨ascii "0123456", [commandX, commandX]⟩
      (imageThen commandX.encode [⟨0, ascii "X", []⟩]) continuesWithLineFeed s := by
  obtain ⟨s, e⟩ :
      ∃ s, (execute .plain .fine (resyncRun commandX.encode [10 :: commandX.encode])).2 =
        .running s :=
    ⟨_, rfl⟩
  have run := run_execute .plain .fine (resyncRun commandX.encode [10 :: commandX.encode])
  rw [e] at run
  have connections : (logOf (execute .plain .fine
      (resyncRun commandX.encode [10 :: commandX.encode])).1).connections =
      [continuesWithLineFeed, imageThen commandX.encode [⟨0, ascii "X", []⟩]] := by
    decide +kernel
  have items : (⟨ascii "0123456", [commandX, commandX]⟩ : Backlog).items =
    [commandX] ++ [commandX] := rfl
  have clean := ResumesCleanly.of_boundary items (by simp)
  exact ⟨s, partial_resync run ⟨⟨[], connections⟩, ⟨ascii "id", rfl⟩, rfl,
    by decide +kernel, by decide +kernel⟩ clean⟩

/-- Nothing has arrived yet behind `+CONTINUE`. -/
def continuesWithNothing : Connection Unit := ⟨.continued, 11, [], none, [], []⟩

/-- A command that is cut in two does not come out: its second part is refused. -/
theorem partial_resync_garbles :
    ¬ ∀ (trace : List (Effect Unit Unit Unit)) (s : State Unit) (b : Backlog)
      (c₁ c₂ : Connection Unit),
      Run Config.plain trace (.running s) → CutOver b (logOf trace).connections c₁ c₂ →
      Joined .plain b c₁ c₂ s := by
  intro law
  obtain ⟨s, e, phase, parser⟩ : ∃ s, (execute .plain .fine (resyncRun (ascii "*1\r\n") [])).2 =
    .running s ∧ s.state = .replication ∧ s.replicaParser = some (.new true) := ⟨_, rfl, rfl, rfl⟩
  have run := run_execute .plain .fine (resyncRun (ascii "*1\r\n") [])
  rw [e] at run
  have connections : (logOf (execute .plain .fine (resyncRun (ascii "*1\r\n") [])).1).connections =
      [continuesWithNothing, imageThen (ascii "*1\r\n") []] := by
    decide +kernel
  have cut : CutOver ⟨ascii "0123456", [commandX]⟩
      (logOf (execute .plain .fine (resyncRun (ascii "*1\r\n") [])).1).connections
      (imageThen (ascii "*1\r\n") []) continuesWithNothing :=
    ⟨⟨[], connections⟩, ⟨ascii "id", rfl⟩, rfl, by decide +kernel, by decide +kernel⟩
  have joined := law _ s _ _ _ run cut
  obtain ⟨q, fed, accepted⟩ :=
    joined.accepts phase _ parser (ascii "\n$1\r\nX\r\n") (by decide +kernel)
  have refused : ReplicaParser.feedData (.new true) (ascii "\n$1\r\nX\r\n") =
      .error (.err "expected_array") := by
    decide +kernel
  rw [refused] at accepted
  cases accepted

end Replica

end Veidrodelis.RedisStream
