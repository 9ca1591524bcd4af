import Veidrodelis.RedisNif.Rdb

/-!
# The replica parser

`native/vdr_redis_nif/src/replica.rs`: the parser of everything that follows the reply to `PSYNC`,
the bulk string with the RDB image and the command stream behind it. As in the RDB parser, one round
of `parse_next` is one `Step` and `feedData` repeats it.

The flags `ping_received` and `replconf_getack_received` are cleared when `feed_data` starts and
read when it ends, so they are not kept in the state: a round emits an `Event` and `feedData`
collects them.
-/

namespace Veidrodelis.RedisNif
open Incremental

namespace ReplicaParser

/-- `enum ReplicaState`. -/
inductive ReplicaState where
  | waitingRdb
  | readingRdb
  | streaming
  deriving DecidableEq, Repr

/-- `struct ParserState`. -/
structure ParserState where
  buffer : Bytes
  state : ReplicaState
  currentDb : Nat
  rdbParser : Option Rdb.ParserState
  rdbBulkSize : Option Nat
  rdbBytesRead : Nat
  deriving DecidableEq, Repr

/-- `ReplicaParser::new`. -/
def ParserState.new (skipRdb : Bool) : ParserState where
  buffer := []
  state := if skipRdb then .streaming else .waitingRdb
  currentDb := 0
  rdbParser := none
  rdbBulkSize := none
  rdbBytesRead := 0

/-- What a round can produce: a command for the caller or one of the two flags. -/
inductive Event where
  | command (cmd : RawCommand)
  | ping
  | replconfGetack
  deriving DecidableEq, Repr

abbrev ReplicaStep := Step ParserState Event Fault

/-! ## The RDB transfer -/

/-- The header `$<size>` of the bulk string, with the line ends in front of it. -/
def rdbHeader : Load Nat := do
  skipLines
  Reader.ensure 1
  let first ← byteAt 0
  if first ≠ 36 then Reader.fail (.err "expected_bulk_string_header")
  else do
    let found ← Reader.peek fun buffer => .done (findCrlf buffer)
    match found with
    | none => Reader.more
    | some pos => do
      let sizeStr ← bytesAt 1 pos
      match parseUsize sizeStr with
      | none => Reader.fail (.err "invalid_size")
      | some size => do
        advance (pos + 2)
        return size

/-- `parse_rdb_header`. -/
def parseRdbHeader (s : ParserState) : ReplicaStep :=
  match rdbHeader s.buffer with
  | .fault e => .fault e
  | .need rest => .stall { s with buffer := rest }
  | .done size rest =>
    .next { s with
      buffer := rest
      rdbParser := some Rdb.ParserState.new
      rdbBulkSize := some size
      rdbBytesRead := 0
      state := .readingRdb } []

/-- `stream_rdb_data`. What is read is at most what is missing, so the sum is not above
`rdbSize`. -/
def streamRdbData (s : ParserState) : ReplicaStep :=
  match s.rdbBulkSize with
  | none => .fault (.err "no_rdb_size")
  | some rdbSize =>
    match usizeSub rdbSize s.rdbBytesRead with
    | .error e => .fault e
    | .ok bytesRemaining =>
      if bytesRemaining = 0 then .fault (.err "rdb_already_complete")
      else if s.buffer.length = 0 then .stall s
      else
        let bytesToFeed := min s.buffer.length bytesRemaining
        match Cut.splitTo bytesToFeed s.buffer with
        | .error e => .fault e
        | .ok (chunk, buffer) =>
          let bytesRead := s.rdbBytesRead + bytesToFeed
          match s.rdbParser with
          | none => .fault (.err "no_rdb_parser")
          | some rdbParser =>
            match Rdb.feedData rdbParser chunk with
            | .error e => .fault e
            | .ok (rdbParser, rdbCommands) =>
              let s := { s with buffer := buffer }
              let events := rdbCommands.map Event.command
              if rdbSize ≤ bytesRead then
                -- the RDB transfer is complete, whatever state the RDB parser is in
                .next { s with
                  rdbParser := none, rdbBulkSize := none, rdbBytesRead := 0
                  state := .streaming } events
              else .next { s with rdbParser := some rdbParser, rdbBytesRead := bytesRead } events

/-! ## The command stream -/

/-- The loop of `parse_command` over the bulk strings of an array: the elements and the cursor
behind them. -/
def parseElements (buffer : Bytes) : Nat → Nat → Outcome Fault (List Bytes × Nat)
  | 0, cursor => .done ([], cursor)
  | count + 1, cursor =>
    if buffer.length ≤ cursor then .need
    else do
      let first ← .lift (index buffer cursor)
      if first ≠ 36 then .fault (.err "expected_bulk_string")
      else do
        let lenStart := cursor + 1
        let behind ← .lift (slice buffer lenStart buffer.length)
        match findCrlf behind with
        | none => .need
        | some pos => do
          let lenEnd := lenStart + pos
          let lenStr ← .lift (slice buffer lenStart lenEnd)
          match parseUsize lenStr with
          | none => .fault (.err "invalid_length")
          | some len => do
            let dataStart := lenEnd + 2
            let dataEnd ← usizeAdd dataStart len
            let next ← usizeAdd dataEnd 2
            if buffer.length < next then Outcome.need
            else do
              let data ← .lift (slice buffer dataStart dataEnd)
              let (elements, cursor) ← parseElements buffer count next
              return (data :: elements, cursor)

/-- `to_uppercase` of the lossy UTF-8 text of a name, as far as a comparison with an ASCII word
goes: besides the ASCII letters, only `ſ` (U+017F) and `ı` (U+0131) have a single ASCII letter as
upper case. -/
def toUppercase : Bytes → Bytes
  | 0xC5 :: 0xBF :: rest => 83 :: toUppercase rest
  | 0xC4 :: 0xB1 :: rest => 73 :: toUppercase rest
  | b :: rest => (if 97 ≤ b ∧ b ≤ 122 then b - 32 else b) :: toUppercase rest
  | [] => []

/-- The `SELECT` arm of `parse_command`: a database number that does not parse is ignored. -/
def selectDb (elements : List Bytes) (currentDb : Nat) : Nat :=
  match elements with
  | _ :: arg :: _ => (parseU32 arg).getD currentDb
  | _ => currentDb

/-- The match on the command name at the end of `parse_command`: the database selected afterwards
and what is emitted. -/
def processCommand (elements : List Bytes) (currentDb : Nat) : Nat × List Event :=
  match elements with
  | [] => (currentDb, [])
  | name :: args =>
    let cmdName := toUppercase name
    if cmdName = ascii "SELECT" then (selectDb elements currentDb, [])
    else if cmdName = ascii "PING" then (currentDb, [.ping])
    else if cmdName = ascii "REPLCONF" then
      match args with
      | sub :: _ => (currentDb, if toUppercase sub = ascii "GETACK" then [.replconfGetack] else [])
      | [] => (currentDb, [])
    else (currentDb, [.command ⟨currentDb, name, args⟩])

/-- The array at the front of the buffer, and how many bytes it takes. -/
def parseArray (buffer : Bytes) : Outcome Fault (List Bytes × Nat) :=
  if buffer.length = 0 then .need
  else do
    let first ← .lift (index buffer 0)
    if first ≠ 42 then .fault (.err "expected_array")
    else
      match findCrlf buffer with
      | none => .need
      | some countEnd => do
        let countStr ← .lift (slice buffer 1 countEnd)
        match parseUsize countStr with
        | none => .fault (.err "invalid_count")
        | some count => parseElements buffer count (countEnd + 2)

/-- `parse_command`. -/
def parseCommand (s : ParserState) : ReplicaStep :=
  let buffer := skipNewlines s.buffer
  match parseArray buffer with
  | .fault e => .fault e
  | .need => .stall { s with buffer := buffer }
  | .done (elements, cursor) =>
    match Cut.advance cursor buffer with
    | .error e => .fault e
    | .ok (_, rest) =>
      let (currentDb, events) := processCommand elements s.currentDb
      .next { s with buffer := rest, currentDb := currentDb } events

/-! ## Feeding -/

/-- `parse_next`, one round of it. -/
def parseNext (s : ParserState) : ReplicaStep :=
  match s.state with
  | .waitingRdb => parseRdbHeader s
  | .readingRdb => streamRdbData s
  | .streaming => parseCommand s

/-- Append data to the buffer. -/
def ParserState.push (s : ParserState) (data : Bytes) : ParserState :=
  { s with buffer := s.buffer ++ data }

/-- The commands among the events. -/
def commandsOf (events : List Event) : List RawCommand :=
  events.filterMap fun
    | .command cmd => some cmd
    | _ => none

/-- What `feed_data` returns: the commands and the two flags. -/
structure Fed where
  commands : List RawCommand
  pingReceived : Bool
  replconfGetackReceived : Bool
  deriving DecidableEq, Repr

def Fed.ofEvents (events : List Event) : Fed where
  commands := commandsOf events
  pingReceived := events.contains .ping
  replconfGetackReceived := events.contains .replconfGetack

/-- The rounds of one `feed_data` call: each consumes at least one byte of the buffer. -/
def drain (s : ParserState) : Except Fault (ParserState × List Event) :=
  drive parseNext (s.buffer.length + 1) s

/-- `ReplicaParser::feed_data`. -/
def feedData (s : ParserState) (data : Bytes) : Except Fault (ParserState × Fed) :=
  match drain (s.push data) with
  | .ok (s, events) => .ok (s, Fed.ofEvents events)
  | .error e => .error e

/-- The commands of two calls one after the other, and the disjunction of their flags. -/
def Fed.append (a b : Fed) : Fed where
  commands := a.commands ++ b.commands
  pingReceived := a.pingReceived || b.pingReceived
  replconfGetackReceived := a.replconfGetackReceived || b.replconfGetackReceived

/-- One `feed_data` call for each chunk, up to the first that fails. -/
def feedAll : ParserState → List Bytes → Except Fault (ParserState × Fed)
  | s, [] => .ok (s, Fed.ofEvents [])
  | s, chunk :: chunks =>
    match feedData s chunk with
    | .error e => .error e
    | .ok (s, fed) =>
      match feedAll s chunks with
      | .error e => .error e
      | .ok (s, later) => .ok (s, fed.append later)

end ReplicaParser

end Veidrodelis.RedisNif
