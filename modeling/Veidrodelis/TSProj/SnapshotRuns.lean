import Veidrodelis.RedisStream.Payloads
import Veidrodelis.TSProj.SnapshotLoad

/-!
# Snapshots in the runs of the replica

A primary transfers its dataset as an RDB image and goes on with the command stream. Whatever the
chunks are and wherever connections end, a storage is then a first part of the dataset, or all of it
with a first part of the stream behind it executed (`storages_hold`). While the replica streams,
readers see the whole dataset with all the commands behind it, but for a transaction that is open
(`streaming_holds`).
-/

namespace Veidrodelis.TSProj
open RedisNif RdbFormat
open RedisStream (Command CommandParser.parse Graphemes ReplicaCommand)
open RedisStream
open RedisStream.Replica (Connection Transferred Streams fullResyncs epoch emittedIn commandsFor
  transfer streamCommands)
open TsNif (Indexset Keyspace Score StorageInner Returns executeAll tx)

/-! ## Blocks behind commands without a marker -/

section
variable {commands : List DbCommand}

/-- Without the marker no block is open. -/
lemma openBlock_unmarked (unmarked : ∀ c ∈ commands, startsTx c.2 = false) :
    openBlock commands = [] := by
  induction commands using List.reverseRecOn with
  | nil => rfl
  | append_singleton commands c ih =>
    have ih := ih fun c' mem => unmarked c' (List.mem_append_left _ mem)
    rw [openBlock_concat, unmarked c (List.mem_append_right _ (List.mem_singleton_self c)), ih]
    simp

/-- The open block is part of the commands. -/
lemma length_openBlock_le (commands : List DbCommand) :
    (openBlock commands).length ≤ commands.length := by
  induction commands using List.reverseRecOn with
  | nil => exact le_refl _
  | append_singleton commands c ih =>
    rw [openBlock_concat, List.length_append, List.length_singleton]
    split_ifs
    · exact Nat.le_add_left 1 _
    · exact Nat.zero_le _
    · exact Nat.zero_le _
    · rw [List.length_append]
      exact Nat.succ_le_succ ih

/-- What is in no open block, behind commands that leave none open. -/
lemma settled_append (closed : openBlock commands = []) (more : List DbCommand) :
    settled (commands ++ more) = commands ++ settled more := by
  have block : openBlock (commands ++ more) = openBlock more := by
    have front : commands.foldl (fun block c =>
        if startsTx c.2 then [c] else if endsTx c.2 then [] else if block = [] then [] else block ++
          [c]) [] = [] :=
      closed
    rw [openBlock, List.foldl_append, front]
    rfl
  have fits := length_openBlock_le more
  rw [settled, settled, block, List.length_append, Nat.add_sub_assoc fits,
    List.take_length_add_append]

end

/-! ## The commands of an image -/

section
variable [Graphemes] [Indexset] {cfg : Replica.Config Command State Event Message}

/-- Without the marker among the keys, no transaction is begun. -/
lemma unmarked_commands {db : Nat} (small : db < 2 ^ 32) {es : List Entry}
    (unmarked : ∀ e ∈ es, e.key.text ≠ txKey) {cmd : RawCommand} (mem : cmd ∈ commandsFrom db es)
    {command : Command} {keys : List Bytes}
    (parsed : CommandParser.parse (cmd.name :: cmd.args) = some (command, keys)) :
    startsTx command = false := by
  induction es generalizing db with
  | nil => cases mem
  | cons e es ih =>
    obtain ⟨here, later⟩ := List.forall_mem_cons.mp unmarked
    have small' : e.db db < 2 ^ 32 := entry_db_lt small
    rcases List.mem_append.mp mem with first | rest
    · obtain ⟨opcodes, key, body⟩ := e
      cases body with
      | unknown => cases first
      | known value =>
        have wide : Entry.db db ⟨opcodes, key, .known value⟩ < 2 ^ 64 :=
          Nat.lt_trans small' (by decide)
        obtain ⟨-, command', keys', -, parsed', marked, -⟩ :=
          @creates_value _ _ key.text .new _ wide rfl value
        rcases List.mem_cons.mp first with rfl | expiry
        · cases parsed.symm.trans parsed'
          exact Bool.eq_false_iff.mpr fun starts => here (marked starts)
        · cases ms : Entry.expiry ⟨opcodes, key, .known value⟩ with
          | none =>
            rw [ms] at expiry
            cases expiry
          | some ms' =>
            rw [ms] at expiry
            cases List.mem_singleton.mp expiry
            cases parsed.symm.trans (parse_expiry _ _)
            rfl
    · exact ih small' later rest

/-- The commands that are made of what was emitted. -/
def parsed (cmds : List RawCommand) : List (ReplicaCommand Command) :=
  cmds.filterMap (RedisStream.Parser.convertCommand CommandParser.parse)

/-- The commands of an image leave no transaction open. -/
lemma openBlock_parsed {img : Image} (unmarked : ∀ e ∈ img.entries, e.key.text ≠ txKey) :
    openBlock (received (parsed img.commands)) = [] := by
  refine openBlock_unmarked fun told mem => ?_
  obtain ⟨command, told, rfl⟩ := List.mem_map.mp mem
  obtain ⟨cmd, emitted, parsed⟩ := List.mem_filterMap.mp told
  rw [RedisStream.Parser.convertCommand] at parsed
  cases read : CommandParser.parse (cmd.name :: cmd.args) with
  | none =>
    rw [read] at parsed
    cases parsed
  | some result =>
    rw [read] at parsed
    cases parsed
    exact unmarked_commands (by decide) unmarked emitted read

omit [Indexset] in
/-- What the module gets is parsed, with nothing filtered. -/
lemma commandsFor_unfiltered (parses : cfg.parse = CommandParser.parse)
    (unfiltered : cfg.commandFilter = .identity) (cmds : List RawCommand) :
    commandsFor cfg cmds = parsed cmds := by
  rw [commandsFor, parses, unfiltered, CommandFilter.identity_applyPre, parsed]

omit [Indexset] in
/-- The first of the commands for a storage are those that are made of the first ones that were
emitted. -/
lemma prefix_commandsFor (parses : cfg.parse = CommandParser.parse)
    (unfiltered : cfg.commandFilter = .identity) {given : List DbCommand} {cmds : List RawCommand}
    (inside : given <+: convertible (received (commandsFor cfg cmds))) :
    ∃ front, front <+: cmds ∧ given = convertible (received (commandsFor cfg front)) := by
  rw [commandsFor_unfiltered parses unfiltered] at inside
  obtain ⟨told, filled, rfl⟩ := List.prefix_filterMap_iff.mp inside
  obtain ⟨commands, parsed, rfl⟩ := List.prefix_map_iff.mp filled
  obtain ⟨front, first, rfl⟩ := List.prefix_filterMap_iff.mp parsed
  exact ⟨front, first, by rw [commandsFor_unfiltered parses unfiltered]; rfl⟩

/-- What is performed is executed. -/
lemma Performs.executes (parses : cfg.parse = CommandParser.parse)
    (unfiltered : cfg.commandFilter = .identity) {cmds : List RawCommand} {s s' : StorageInner}
    (h : Performs cmds s s') :
    Returns (convertible (received (commandsFor cfg cmds))) s ∧
      (tx (convertible (received (commandsFor cfg cmds))) s).1 = s' := by
  obtain ⟨commands, results, converted, ran, -⟩ := h
  rw [Replica.commandsFor_eq (by rwa [parses]), unfiltered, CommandFilter.identity_applyPre, ran]
  refine ⟨(TsNif.ok_iff_returns _ _).mp ⟨results, ?_⟩, rfl⟩
  rw [ran]

end

/-! ## The connections of a full resync -/

section
variable {c : Connection Command} {connections later : List (Connection Command)} {n : Nat}

/-- Only the first connection of an epoch is a full resync. -/
lemma epoch_later (shape : epoch n connections = later ++ [c]) :
    ∀ d ∈ later, d.isFull = false := by
  induction connections generalizing later with
  | nil => cases later <;> cases shape
  | cons d connections ih =>
    by_cases latest : fullResyncs (d :: connections) = n
    · rw [Replica.epoch_latest latest] at shape
      cases later with
      | nil => exact List.forall_mem_nil _
      | cons d' later =>
        obtain ⟨rfl, rest⟩ := List.cons.inj shape
        refine List.forall_mem_cons.mpr ⟨Bool.eq_false_iff.mpr fun another => ?_, ih rest⟩
        rw [Replica.epoch_eq_nil
          (by rw [← latest, Replica.fullResyncs_full another]; exact Nat.lt_succ_self _)] at rest
        cases later <;> cases rest
    · rw [Replica.epoch_other latest] at shape
      exact ih shape

/-- The connections of an epoch are connections of the log. -/
lemma mem_of_epoch {d : Connection Command} (mem : d ∈ epoch n connections) : d ∈ connections := by
  induction connections with
  | nil => cases mem
  | cons d' connections ih =>
    by_cases latest : fullResyncs (d' :: connections) = n
    · rw [Replica.epoch_latest latest] at mem
      exact (List.mem_cons.mp mem).elim (fun here => here ▸ List.mem_cons_self)
        fun rest => List.mem_cons_of_mem _ (ih rest)
    · rw [Replica.epoch_other latest] at mem
      exact List.mem_cons_of_mem _ (ih mem)

/-- A full resync in which an image whose values can be read is transferred, behind some line
ends. -/
structure Transfers (c : Connection Command) (newlines : Bytes) (img : Image) : Prop where
  full : c.isFull = true
  ends : ∀ b ∈ newlines, b = 10 ∨ b = 13
  known : img.Known
  readable : img.Readable
  distinct : Distinct img
  bound : img.encode.length < usizeSize

/-- The commands behind an image: those on its own connection, and on the later ones that go on with
it. -/
def commandsBehind (stream : Bytes) (later : List (Connection Command)) : List RawCommand :=
  streamCommands stream ++ later.reverse.flatMap fun d => streamCommands d.received

variable {newlines : Bytes} {img : Image}

/-- A full resync begins with the payload. -/
lemma parser_full (full : c.isFull = true) : c.reply.parser = .new false := by
  rw [Connection.isFull] at full
  cases reply : c.reply with
  | fullresync => rfl
  | continued =>
    rw [reply] at full
    cases full

/-- A continuation begins with the stream. -/
lemma parser_continued (continued : c.isFull = false) : c.reply.parser = .new true := by
  rw [Connection.isFull] at continued
  cases reply : c.reply with
  | continued => rfl
  | fullresync =>
    rw [reply] at continued
    cases continued

/-- With the image transferred, what came out is its commands and those behind it. -/
lemma emittedIn_image (feeds : ∀ d ∈ connections, ∃ p, d.feed.Reaches p)
    (shape : epoch n connections = later ++ [c]) (transfers : Transfers c newlines img)
    {stream : Bytes} (received : c.received = transfer newlines img.encode ++ stream) :
    emittedIn n connections = img.commands ++ commandsBehind stream later := by
  have fed {d : Connection Command} (mem : d ∈ later ++ [c]) : ∃ p, d.feed.Reaches p :=
    feeds d (mem_of_epoch (shape ▸ mem))
  obtain ⟨p, reaches⟩ := fed (List.mem_append_right later (List.mem_singleton_self c))
  have first : c.emitted = img.commands ++ streamCommands stream :=
    reaches.image (parser_full transfers.full) transfers.known transfers.readable transfers.bound
      transfers.ends received
  have rest : later.reverse.flatMap (·.emitted) =
    later.reverse.flatMap fun d => streamCommands d.received := by
    refine List.flatMap_congr fun d mem => ?_
    have mem := List.mem_reverse.mp mem
    obtain ⟨q, reaches⟩ := fed (List.mem_append_left [c] mem)
    exact reaches.continued (parser_continued (epoch_later shape d mem))
  rw [emittedIn, shape, List.reverse_append, List.flatMap_append, rest, commandsBehind,
    ← List.append_assoc, ← first]
  simp

/-- While the image is transferred, what came out are the first of its commands. -/
lemma emittedIn_loading (feeds : ∀ d ∈ connections, ∃ p, d.feed.Reaches p)
    (shape : epoch n connections = [c]) (transfers : Transfers c newlines img)
    (received : c.received <+: transfer newlines img.encode) :
    emittedIn n connections <+: img.commands := by
  obtain ⟨p, reaches⟩ := feeds c (mem_of_epoch (shape ▸ List.mem_singleton_self c))
  have first : c.emitted <+: img.commands :=
    reaches.loading (parser_full transfers.full) transfers.known transfers.readable transfers.bound
      transfers.ends received
  rw [emittedIn, shape]
  simpa using first

end

/-! ## What is in the storages -/

section
variable [Graphemes] [Indexset] {cfg : Replica.Config Command State Event Message}

/-- What is in a storage for an image and the commands behind it: the first entries of the image, or
all of them and a first part of the commands. -/
inductive Holds (img : Image) (behind : List DbCommand) (s : StorageInner) : Prop
  | loading (entries : List (Nat × Entry)) (first : entries <+: placed 0 img.entries)
      (view : s.view = datasetOf entries)
  | loaded (base : StorageInner) (front : List DbCommand) (view : base.view = dataset img)
      (first : front <+: behind) (content : s = (tx front base).1)

/-- What the first commands of an image make of the storage that is new. -/
lemma holds_loading (parses : cfg.parse = CommandParser.parse)
    (unfiltered : cfg.commandFilter = .identity) {img : Image} (distinct : Distinct img)
    {front : List RawCommand} (inside : front <+: img.commands) (behind : List DbCommand) :
    Holds img behind (tx (convertible (received (commandsFor cfg front))) .new).1 := by
  obtain ⟨entries, s, first, performs, view⟩ :=
    @performs_part _ 0 .new _ img.entries (by decide) (fun p _ => rfl)
    distinct front inside
  rw [(performs.executes parses unfiltered).2]
  refine .loading entries first ?_
  funext db key
  rw [view, StorageInner.view, StorageInner.lookup_new, Option.map_none, Option.or_none]

/-- Behind the commands of an image. -/
lemma executed_behind (parses : cfg.parse = CommandParser.parse)
    (unfiltered : cfg.commandFilter = .identity) {img : Image} (distinct : Distinct img) :
    ∃ base : StorageInner, base.Consistent ∧ base.view = dataset img ∧
      ∀ batch, (tx (convertible (received (commandsFor cfg img.commands)) ++ batch) .new).1 =
      (tx batch base).1 := by
  obtain ⟨base, performs, view⟩ := image_loads distinct
  obtain ⟨returns, executed⟩ := performs.executes parses unfiltered
  refine ⟨base, ?_, view, fun batch => ?_⟩
  · rw [← executed, TsNif.tx_storage returns]
    exact TsNif.executeAll_consistent _ TsNif.new_consistent
  · rw [TsNif.tx_append returns, ← TsNif.tx_storage returns, executed]

variable [Runtime] {trace : List Effect} {st : Replica.Status State}
  {later : List (Connection Command)} {c : Connection Command} {newlines : Bytes} {img : Image}

omit [Graphemes] [Indexset] [Runtime] in
/-- What was fed to the parsers of a run. -/
lemma feeds_of_run (run : Replica.Run cfg trace st) :
    ∀ d ∈ (Replica.logOf trace).connections, ∃ p, d.feed.Reaches p :=
  fun d mem => (Replica.run_feeds run).all d.feed (List.mem_map.mpr ⟨d, mem, rfl⟩)

/-- In every storage of a run is what the first of the commands that came out for it make of an
empty one. -/
lemma content_of_run (projection : cfg.callback = callback)
    (parses : cfg.parse = CommandParser.parse) (unfiltered : cfg.commandFilter = .identity)
    (run : Replica.Run cfg trace st) (n : Storage) :
    ∃ front, front <+: emittedIn n (Replica.logOf trace).connections ∧
      (booksOf trace).content n = (tx (convertible (received (commandsFor cfg front))) .new).1 := by
  obtain ⟨orderly, -⟩ := run_orderly projection run
  have contract : Replica.Contract Books.next Executed Books.Stores cfg.callback
    (fun _ _ => True) .start :=
    projection ▸ stores_contract
  obtain ⟨executed, -⟩ := Replica.run_contract contract run fun _ _ _ => trivial
  have bound := bounded_of_orderly orderly n
  rw [ledgerOf_books, Ledger.commands, ledgerOf_log] at bound
  obtain ⟨front, first, given⟩ := prefix_commandsFor parses unfiltered bound
  exact ⟨front, first, by rw [exact_of_executed executed n, given]⟩

/-- In every run of the replica with the projection and without a filter: at every moment the
storage of a full resync is a first part of the image that is transferred; or, when it has been
transferred as a whole, it may also be the whole image and a first part of the commands behind
it. -/
theorem storages_hold (projection : cfg.callback = callback)
    (parses : cfg.parse = CommandParser.parse) (unfiltered : cfg.commandFilter = .identity)
    (run : Replica.Run cfg trace st) {n : Storage}
    (shape : epoch n (Replica.logOf trace).connections = later ++ [c])
    (transfers : Transfers c newlines img) :
    (c.received <+: transfer newlines img.encode → later = [] →
      Holds img [] ((booksOf trace).content n)) ∧
      ∀ stream, c.received = transfer newlines img.encode ++ stream →
        Holds img (convertible (received (commandsFor cfg (commandsBehind stream later))))
          ((booksOf trace).content n) := by
  have feeds := feeds_of_run run
  obtain ⟨front, first, content⟩ := content_of_run projection parses unfiltered run n
  rw [content]
  constructor
  · rintro loading rfl
    have inside := first.trans (emittedIn_loading feeds shape transfers loading)
    exact holds_loading parses unfiltered transfers.distinct inside []
  · intro stream whole
    rw [emittedIn_image feeds shape transfers whole] at first
    rcases List.prefix_or_prefix_of_prefix first (List.prefix_append _ _) with inside | ⟨more, rfl⟩
    · exact holds_loading parses unfiltered transfers.distinct inside _
    · obtain ⟨base, -, view, executed⟩ := executed_behind parses unfiltered transfers.distinct
      have behind := (List.prefix_append_right_inj _).mp first
      rw [Replica.commandsFor_append, received_append, convertible_append, executed]
      refine .loaded base _ view ?_ rfl
      obtain ⟨rest, eq⟩ := behind
      rw [← eq, Replica.commandsFor_append, received_append, convertible_append]
      exact List.prefix_append _ _

/-- What readers see while the replica streams, of which the sorted sets are consistent. -/
lemma streaming_content (projection : cfg.callback = callback)
    (parses : cfg.parse = CommandParser.parse) (unfiltered : cfg.commandFilter = .identity)
    {s : Replica.State State} (run : Replica.Run cfg trace (.running s))
    (resumes : ∀ before later, trace = before ++ .psyncCompleted .continued :: later →
      Transferred (Replica.logOf before).connections)
    (streaming : Replica.replicationState s = .streaming)
    (shape : epoch (fullResyncs (Replica.logOf trace).connections)
      (Replica.logOf trace).connections = later ++ [c])
    (transfers : Transfers c newlines img) (unmarked : ∀ e ∈ img.entries, e.key.text ≠ txKey)
    {stream : Bytes} (whole : c.received = transfer newlines img.encode ++ stream) :
    ∃ n base, (booksOf trace).view.exposed = some n ∧ (booksOf trace).view.ready = true ∧
      base.Consistent ∧
      base.view = dataset img ∧ (booksOf trace).content n =
        (tx (convertible (settled (received (commandsFor cfg (commandsBehind stream later)))))
          base).1 := by
  obtain ⟨orderly, serves⟩ := run_orderly projection run
  have contract : Replica.Contract Books.next Executed Books.Stores cfg.callback
    (fun _ _ => True) .start :=
    projection ▸ stores_contract
  obtain ⟨executed, -⟩ := Replica.run_contract contract run fun _ _ _ => trivial
  have transferred :=
    (grounded_of_resumes resumes).transferred ((Replica.run_tracks run).streams streaming)
  have switched := (serves s rfl).called.toSwitched transferred
  obtain ⟨base, consistent, view, behind⟩ := executed_behind parses unfiltered transfers.distinct
  refine ⟨_, base, switched.exposed.1.trans switched.latest, switched.exposed.2, consistent, view,
    ?_⟩
  -- what was given is all that came out, but for the open block
  obtain ⟨flushes, batched, given⟩ := (serves s rfl).queued.batched
  have buffered := batched.buffered_eq_openBlock (serves s rfl).queued.between
  have flushed : settled _ = flushes.flatten := settled_of_append (buffered ▸ batched.whole)
  rw [← flushed, Ledger.commands, Ledger.storage, ledgerOf_log, ledgerOf_books,
    emittedIn_image (feeds_of_run run) shape transfers whole, Replica.commandsFor_append,
    received_append] at given
  have closed : openBlock (received (commandsFor cfg img.commands)) = [] := by
    rw [commandsFor_unfiltered parses unfiltered]
    exact openBlock_parsed unmarked
  rw [exact_of_executed executed, given, settled_append closed, convertible_append, behind]

/-- In every run of the replica with the projection and without a filter, in which the primary
resumes the stream only after the last snapshot has been received to its end: while the replica
streams, the storage that readers see is the whole dataset of the image with all the commands behind
it executed, but for those of a transaction that is open. No key of the image is the marker of
transactions. -/
theorem streaming_holds (projection : cfg.callback = callback)
    (parses : cfg.parse = CommandParser.parse) (unfiltered : cfg.commandFilter = .identity)
    {s : Replica.State State} (run : Replica.Run cfg trace (.running s))
    (resumes : ∀ before later, trace = before ++ .psyncCompleted .continued :: later →
      Transferred (Replica.logOf before).connections)
    (streaming : Replica.replicationState s = .streaming)
    (shape : epoch (fullResyncs (Replica.logOf trace).connections)
      (Replica.logOf trace).connections = later ++ [c])
    (transfers : Transfers c newlines img) (unmarked : ∀ e ∈ img.entries, e.key.text ≠ txKey)
    {stream : Bytes} (whole : c.received = transfer newlines img.encode ++ stream) :
    ∃ n base, (booksOf trace).view.exposed = some n ∧ (booksOf trace).view.ready = true ∧
      base.view = dataset img ∧
      (booksOf trace).content n =
        (tx (convertible (settled (received (commandsFor cfg (commandsBehind stream later)))))
          base).1 := by
  obtain ⟨n, base, exposed, ready, -, view, content⟩ :=
    streaming_content projection parses unfiltered run resumes streaming shape transfers
      unmarked whole
  exact ⟨n, base, exposed, ready, view, content⟩

end

/-! ## The transfer of an image -/

/-- A command behind the sample image. -/
def sampleBehind : Bytes := ascii "*3\r\n$3\r\nSET\r\n$1\r\nk\r\n$1\r\nx\r\n"

/-- The sample image is transferred in two chunks, of which the second one brings a command. -/
def imageRun : List (Replica.Message Message) :=
  [.data 0 (ascii "+PONG\r\n"), .data 0 (ascii "+OK\r\n"), .data 0 (ascii "+OK\r\n"),
    .data 0 (ascii "+FULLRESYNC id 7\r\n"), .data 0 ((transfer [10] sample.encode).take 50),
    .data 0 ((transfer [10] sample.encode).drop 50 ++ sampleBehind)]

/-- The connection of this run. -/
lemma imageRun_connection : ∃ c : Connection Command,
    epoch 1 (Replica.logOf (Replica.execute sampleConfig .fine imageRun).1).connections =
    [] ++ [c] ∧
      Transfers c [10] sample ∧ c.received = transfer [10] sample.encode ++ sampleBehind := by
  have alone : (epoch 1
    (Replica.logOf (Replica.execute sampleConfig .fine imageRun).1).connections).length = 1 := by
    decide +kernel
  have full : (epoch 1
    (Replica.logOf (Replica.execute sampleConfig .fine imageRun).1).connections).all (·.isFull) =
      true := by
    decide +kernel
  have received : (epoch 1
    (Replica.logOf (Replica.execute sampleConfig .fine imageRun).1).connections).map
      (·.received) = [transfer [10] sample.encode ++ sampleBehind] := by
    decide +kernel
  obtain ⟨c, shape⟩ := List.length_eq_one_iff.mp alone
  rw [shape] at full received
  have isFull : c.isFull = true := List.all_eq_true.mp full c (List.mem_singleton_self c)
  exact ⟨c, shape,
    ⟨isFull, by simp, sample_known, sample_readable, by decide +kernel, by decide +kernel⟩,
    List.singleton_inj.mp received⟩

/-- The storage of the snapshot holds the image and what is behind it. -/
theorem storages_hold_image :
    @Holds (.exact false) sample
      (convertible (received (commandsFor sampleConfig (commandsBehind sampleBehind []))))
      ((booksOf (Replica.execute sampleConfig .fine imageRun).1).content 1) := by
  obtain ⟨c, shape, transfers, whole⟩ := imageRun_connection
  exact (@storages_hold ⟨fun _ => false⟩ (.exact false) sampleConfig
    ⟨fun n => n, Nat.cast_injective⟩ _ _ [] c [10] sample
    rfl rfl rfl (Replica.run_execute _ _ _) 1 shape transfers).2 sampleBehind whole

/-- Whether the replica runs and streams. -/
def streams : Replica.Status State → Bool
  | .running s => Replica.replicationState s = .streaming
  | .stopped _ => false

/-- Readers see the image with the command executed. -/
theorem streaming_holds_image : ∃ n base,
    (booksOf (Replica.execute sampleConfig .fine imageRun).1).view.exposed = some n ∧
      (booksOf (Replica.execute sampleConfig .fine imageRun).1).view.ready = true ∧
      base.view = dataset sample ∧
      (booksOf (Replica.execute sampleConfig .fine imageRun).1).content n = (@tx (.exact false)
        (convertible (settled
          (received (commandsFor sampleConfig (commandsBehind sampleBehind []))))) base).1 := by
  obtain ⟨c, shape, transfers, whole⟩ := imageRun_connection
  have number : fullResyncs
    (Replica.logOf (Replica.execute sampleConfig .fine imageRun).1).connections = 1 := by
    decide +kernel
  have streaming : streams (Replica.execute sampleConfig .fine imageRun).2 = true := by
    decide +kernel
  have run := Replica.run_execute sampleConfig .fine imageRun
  have resumes := resumes_of_settled (by decide +kernel : resumesSettled
    (Replica.execute sampleConfig .fine imageRun).1 = true)
  cases status : (Replica.execute sampleConfig .fine imageRun).2 with
  | stopped reason =>
    rw [status] at streaming
    cases streaming
  | running s =>
    rw [status] at streaming run
    rw [← number] at shape
    exact @streaming_holds ⟨fun _ => false⟩ (.exact false) sampleConfig
      ⟨fun n => n, Nat.cast_injective⟩ _ [] c [10] sample
      rfl rfl rfl s run resumes (of_decide_eq_true streaming) shape transfers (by decide)
        sampleBehind whole

end Veidrodelis.TSProj
