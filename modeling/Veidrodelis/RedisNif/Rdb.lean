import Veidrodelis.Lib.Binary64
import Veidrodelis.Lib.Incremental
import Veidrodelis.RedisNif.Listpack
import Veidrodelis.RedisNif.Lzf

/-!
# The RDB parser

`native/vdr_redis_nif/src/rdb.rs`. The parser is a state machine over its unread buffer: a handler
either tail-calls `parse_next` in a new state, returns commands to the loop of `feed_data` (which
calls `parse_next` again), returns `Ok(None)` (more data is needed) or an error. The first two are
one `Step.next`, the third is `Step.stall`; `parseNext` is one round and `feedData` repeats it.
-/

namespace Veidrodelis.RedisNif
open Incremental

namespace Rdb

/-- The `RDB_TYPE_*` constants. -/
inductive ValueType where
  | string
  | hash
  | zset2
  | setIntset
  | hashListpack
  | zsetListpack
  | listQuicklist2
  | setListpack
  | hash2
  deriving DecidableEq, Repr

def ValueType.code : ValueType → UInt8
  | .string => 0
  | .hash => 4
  | .zset2 => 5
  | .setIntset => 11
  | .hashListpack => 16
  | .zsetListpack => 17
  | .listQuicklist2 => 18
  | .setListpack => 20
  | .hash2 => 22

/-- The value type of a byte; the other bytes fall into the `_` arm of every match on value
types. -/
def ValueType.ofCode (code : UInt8) : Option ValueType :=
  match code.toNat with
  | 0 => some .string
  | 4 => some .hash
  | 5 => some .zset2
  | 11 => some .setIntset
  | 16 => some .hashListpack
  | 17 => some .zsetListpack
  | 18 => some .listQuicklist2
  | 20 => some .setListpack
  | 22 => some .hash2
  | _ => none

def opcodeAux : UInt8 := 250
def opcodeResizedb : UInt8 := 251
def opcodeExpiretimeMs : UInt8 := 252
def opcodeExpiretime : UInt8 := 253
def opcodeSelectdb : UInt8 := 254
def opcodeEof : UInt8 := 255

/-- `enum ParseState`; the offset of `Magic` is always 0 and the length kept in `ProcessingValue` is
not read. -/
inductive ParseState where
  | magic
  | opcode
  | processingOpcode (opcode : UInt8)
  | processingKey (valueType : UInt8)
  | processingValue (valueType : UInt8)
  | waitingChecksum
  | finished
  deriving DecidableEq, Repr

/-- `struct ParserState`. -/
structure ParserState where
  buffer : Bytes
  parseState : ParseState
  currentDb : Nat
  expireMs : Option Nat
  finished : Bool
  savedKey : Bytes
  deriving DecidableEq, Repr

/-- `RDBParser::new`. -/
def ParserState.new : ParserState where
  buffer := []
  parseState := .magic
  currentDb := 0
  expireMs := none
  finished := false
  savedKey := []

/-! ## Lengths and strings -/

/-- The two high bits of a length byte. -/
def encType (first : UInt8) : Nat := ((first &&& 0xC0) >>> 6).toNat

/-- `peek_length_at`: the length encoded at `offset` and how many bytes encode it. -/
def peekLengthAt (buffer : Bytes) (offset : Nat) : Outcome Fault (Nat × Nat) :=
  if buffer.length ≤ offset then .need
  else do
    let first ← Outcome.lift (index buffer offset)
    match encType first with
    | 0 => .done ((first &&& 0x3F).toNat, 1)
    | 1 =>
      if buffer.length ≤ offset + 1 then .need
      else do
        let second ← Outcome.lift (index buffer (offset + 1))
        return ((first &&& 0x3F).toNat * 256 + second.toNat, 2)
    | 2 =>
      if first = 0x80 then
        if buffer.length ≤ offset + 4 then .need
        else do
          let bytes ← Outcome.lift (slice buffer (offset + 1) (offset + 5))
          return (Bytes.beNat bytes, 5)
      else if first = 0x81 then
        if buffer.length ≤ offset + 8 then .need
        else do
          let bytes ← Outcome.lift (slice buffer (offset + 1) (offset + 9))
          return (Bytes.beNat bytes, 9)
      else .fault (.err "invalid_length_encoding")
    | _ => .fault (.err "special_encoding_in_length")

/-- `calculate_string_size`: how many bytes the string at `offset` takes. -/
def calculateStringSize (buffer : Bytes) (offset : Nat) : Outcome Fault Nat :=
  if buffer.length ≤ offset then .need
  else do
    let first ← Outcome.lift (index buffer offset)
    if encType first = 3 then
      match (first &&& 0x3F).toNat with
      | 0 => .done 2
      | 1 => .done 3
      | 2 => .done 5
      | 3 => do
        let (clen, clenBytes) ← peekLengthAt buffer (offset + 1)
        let (_, ulenBytes) ← peekLengthAt buffer (offset + 1 + clenBytes)
        usizeAdd (1 + clenBytes + ulenBytes) clen
      | _ => .need
    else do
      let (strLen, lenBytes) ← peekLengthAt buffer offset
      usizeAdd lenBytes strLen

/-- The checks of `peek_length_at` make every index of it one of the buffer. -/
lemma peekLengthAt_eq (buffer : Bytes) (offset : Nat) :
    peekLengthAt buffer offset
      = match buffer.drop offset with
        | [] => .need
        | first :: tail =>
          match encType first with
          | 0 => .done ((first &&& 0x3F).toNat, 1)
          | 1 =>
            match tail with
            | [] => .need
            | second :: _ => .done ((first &&& 0x3F).toNat * 256 + second.toNat, 2)
          | 2 =>
            if first = 0x80 then
              if tail.length < 4 then .need else .done (Bytes.beNat (tail.take 4), 5)
            else if first = 0x81 then
              if tail.length < 8 then .need else .done (Bytes.beNat (tail.take 8), 9)
            else .fault (.err "invalid_length_encoding")
          | _ => .fault (.err "special_encoding_in_length") := by
  unfold peekLengthAt
  by_cases outside : buffer.length ≤ offset
  · rw [if_pos outside, List.drop_eq_nil_of_le outside]
  · have inside : offset < buffer.length := not_le.mp outside
    have behind : buffer.drop offset = buffer[offset] :: buffer.drop (offset + 1) :=
      List.drop_eq_getElem_cons inside
    have tail : (buffer.drop (offset + 1)).length = buffer.length - (offset + 1) := List.length_drop
    rw [if_neg outside, index_of_lt inside, behind]
    dsimp only
    rw [Outcome.lift, Outcome.done_bind]
    split
    · rfl
    · by_cases short : buffer.length ≤ offset + 1
      · rw [if_pos short, List.drop_eq_nil_of_le short]
      · rw [if_neg short, index_of_lt (not_le.mp short),
          List.drop_eq_getElem_cons (not_le.mp short)]
        rfl
    · -- the length in four or in eight bytes behind the first
      refine if_congr Iff.rfl ?_ (if_congr Iff.rfl ?_ rfl)
      · by_cases short : buffer.length ≤ offset + 4
        · rw [if_pos short, if_pos (by omega)]
        · rw [if_neg short, if_neg (by omega), slice_of_le (by omega) (by omega), Outcome.lift,
            Outcome.done_bind,
            show offset + 5 - (offset + 1) = 4 by omega]
          rfl
      · by_cases short : buffer.length ≤ offset + 8
        · rw [if_pos short, if_pos (by omega)]
        · rw [if_neg short, if_neg (by omega), slice_of_le (by omega) (by omega), Outcome.lift,
            Outcome.done_bind,
            show offset + 9 - (offset + 1) = 8 by omega]
          rfl
    · rfl

/-- `calculate_string_size` looks at the first byte where there is one. -/
lemma calculateStringSize_eq (buffer : Bytes) (offset : Nat) :
    calculateStringSize buffer offset
      = match buffer.drop offset with
        | [] => .need
        | first :: _ =>
          if encType first = 3 then
            match (first &&& 0x3F).toNat with
            | 0 => .done 2
            | 1 => .done 3
            | 2 => .done 5
            | 3 => do
              let (clen, clenBytes) ← peekLengthAt buffer (offset + 1)
              let (_, ulenBytes) ← peekLengthAt buffer (offset + 1 + clenBytes)
              usizeAdd (1 + clenBytes + ulenBytes) clen
            | _ => .need
          else (do
            let (strLen, lenBytes) ← peekLengthAt buffer offset
            usizeAdd lenBytes strLen) := by
  unfold calculateStringSize
  by_cases outside : buffer.length ≤ offset
  · rw [if_pos outside, List.drop_eq_nil_of_le outside]
  · have inside : offset < buffer.length := not_le.mp outside
    rw [if_neg outside, index_of_lt inside, List.drop_eq_getElem_cons inside]
    rfl

/-- `load_length`. -/
def loadLength : Load Nat := do
  let (length, bytesUsed) ← Reader.peek (peekLengthAt · 0)
  advance bytesUsed
  return length

/-- An integer of `width` bytes behind the encoding byte (`RDB_ENC_INT8`, `INT16`, `INT32`). -/
def loadIntString (width : Nat) : Load Bytes := do
  Reader.ensure (1 + width)
  advance 1
  let val ← getIntLe width
  return Bytes.intText val

/-- The arm `RDB_ENC_LZF` of `load_string`. -/
def loadLzfString : Load Bytes := do
  Reader.ensure 2
  let (clen, clenBytes) ← Reader.peek (peekLengthAt · 1)
  let (_, ulenBytes) ← Reader.peek (peekLengthAt · (1 + clenBytes))
  let needed ← checked (usizeAdd (1 + clenBytes + ulenBytes) clen)
  Reader.ensure needed
  advance 1
  let clenActual ← unwrap loadLength
  let ulenActual ← unwrap loadLength
  let compressed ← splitTo clenActual
  Reader.lift (lzfDecompress compressed ulenActual)

/-- The last branch of `load_string`. -/
def loadRawString : Load Bytes := do
  let (len, lenBytes) ← Reader.peek (peekLengthAt · 0)
  let needed ← checked (usizeAdd lenBytes len)
  Reader.ensure needed
  let _ ← loadLength
  splitTo len

/-- `load_string`. -/
def loadString : Load Bytes := do
  Reader.ensure 1
  let first ← byteAt 0
  if encType first = 3 then
    match (first &&& 0x3F).toNat with
    | 0 => loadIntString 1
    | 1 => loadIntString 2
    | 2 => loadIntString 4
    | 3 => loadLzfString
    | _ => Reader.more
  else loadRawString

/-- A string is read by the encoding in its first byte. -/
lemma loadString_cons (first : UInt8) (tail : Bytes) :
    loadString (first :: tail)
      = if encType first = 3 then
          match (first &&& 0x3F).toNat with
          | 0 => loadIntString 1 (first :: tail)
          | 1 => loadIntString 2 (first :: tail)
          | 2 => loadIntString 4 (first :: tail)
          | 3 => loadLzfString (first :: tail)
          | _ => .need (first :: tail)
        else loadRawString (first :: tail) := by
  show (if encType first = 3 then _ else loadRawString : Load Bytes) (first :: tail) = _
  by_cases special : encType first = 3
  · rw [if_pos special, if_pos special]
    generalize (first &&& 0x3F).toNat = subtype
    split <;> rfl
  · rw [if_neg special, if_neg special]

/-! ## Sizes of values -/

/-- The pair `total`, `current_offset` of the size loops after `size` more bytes. -/
def grow (acc : Nat × Nat) (size : Nat) : Outcome Fault (Nat × Nat) := do
  let total ← usizeAdd acc.1 size
  let currentOffset ← usizeAdd acc.2 size
  return (total, currentOffset)

/-- A string of a size loop. -/
def growString (buffer : Bytes) (acc : Nat × Nat) : Outcome Fault (Nat × Nat) := do
  let size ← calculateStringSize buffer acc.2
  grow acc size

/-- `for _ in 0..count` of a size loop. -/
def growTimes (entry : Nat × Nat → Outcome Fault (Nat × Nat)) :
    Nat → Nat × Nat → Outcome Fault (Nat × Nat)
  | 0, acc => .done acc
  | n + 1, acc => do
    let acc ← entry acc
    growTimes entry n acc

/-- One round of the loop for `RDB_TYPE_ZSET_2`: a member and an 8-byte score. -/
def growZset2Entry (buffer : Bytes) (acc : Nat × Nat) : Outcome Fault (Nat × Nat) := do
  let acc ← growString buffer acc
  grow acc 8

/-- One round of the loop for `RDB_TYPE_HASH`: a field and a value. -/
def growHashEntry (buffer : Bytes) (acc : Nat × Nat) : Outcome Fault (Nat × Nat) := do
  let acc ← growString buffer acc
  growString buffer acc

/-- One round of the loop for `RDB_TYPE_LIST_QUICKLIST_2`: a container byte and a string. -/
def growQuicklist2Entry (buffer : Bytes) (acc : Nat × Nat) : Outcome Fault (Nat × Nat) :=
  if acc.2 < buffer.length then do
    let acc ← grow acc 1
    growString buffer acc
  else .need

/-- One round of the loop for `RDB_TYPE_HASH_2`: a field, a value and an 8-byte expiry. -/
def growHash2Entry (buffer : Bytes) (acc : Nat × Nat) : Outcome Fault (Nat × Nat) := do
  let acc ← growString buffer acc
  let acc ← growString buffer acc
  grow acc 8

/-- A count and that many entries. -/
def calculateCounted (buffer : Bytes) (offset : Nat)
    (entry : Nat × Nat → Outcome Fault (Nat × Nat)) : Outcome Fault Nat := do
  let (count, lenBytes) ← peekLengthAt buffer offset
  let currentOffset ← usizeAdd offset lenBytes
  let acc ← growTimes entry count (lenBytes, currentOffset)
  return acc.1

/-- `calculate_value_size`. -/
def calculateValueSize (buffer : Bytes) (valueType : UInt8) (offset : Nat) : Outcome Fault Nat :=
  match ValueType.ofCode valueType with
  | some .string => calculateStringSize buffer offset
  | some .zset2 => calculateCounted buffer offset (growZset2Entry buffer)
  | some .hash => calculateCounted buffer offset (growHashEntry buffer)
  | some .listQuicklist2 => calculateCounted buffer offset (growQuicklist2Entry buffer)
  | some .hashListpack => calculateStringSize buffer offset
  | some .setIntset => calculateStringSize buffer offset
  | some .setListpack => calculateStringSize buffer offset
  | some .zsetListpack => calculateStringSize buffer offset
  | some .hash2 => calculateCounted buffer offset (growHash2Entry buffer)
  | none => .fault (.err ("unknown_rdb_type: " ++ toString valueType.toNat))

/-! ## Values -/

/-- `load_string_value`. -/
def loadStringValue (db : Nat) (key : Bytes) : Load (List RawCommand) := do
  let value ← loadString
  return [⟨db, ascii "SET", [key, value]⟩]

/-- A member and its score, in the order of `ZADD`. -/
def loadZset2Entry : Load (List Bytes) := do
  let member ← loadString
  Reader.ensure 8
  let score ← getUIntLe 8
  return [Binary64.display score, member]

/-- `load_zset2_value`. -/
def loadZset2Value (db : Nat) (key : Bytes) : Load (List RawCommand) := do
  let count ← loadLength
  let members ← Reader.times count loadZset2Entry
  return [⟨db, ascii "ZADD", key :: members.flatten⟩]

def loadHashEntry : Load (List Bytes) := do
  let field ← loadString
  let value ← loadString
  return [field, value]

/-- `load_hash_value`. -/
def loadHashValue (db : Nat) (key : Bytes) : Load (List RawCommand) := do
  let count ← loadLength
  let fields ← Reader.times count loadHashEntry
  return [⟨db, ascii "HSET", key :: fields.flatten⟩]

/-- One node of a quicklist: the container byte is read and dropped, whatever it is. -/
def loadQuicklist2Node : Load (List Bytes) := do
  Reader.ensure 1
  let _containerType ← byteAt 0
  advance 1
  let listpackBin ← loadString
  Reader.lift (parseListpack listpackBin)

/-- The container byte of a node that is there changes nothing. -/
lemma loadQuicklist2Node_eq :
    loadQuicklist2Node = (do
      Reader.ensure 1
      advance 1
      let listpackBin ← loadString
      Reader.lift (parseListpack listpackBin)) := by
  funext buffer
  cases buffer <;> rfl

/-- `load_quicklist2_value`. -/
def loadQuicklist2Value (db : Nat) (key : Bytes) : Load (List RawCommand) := do
  let count ← loadLength
  let nodes ← Reader.times count loadQuicklist2Node
  let allValues := nodes.flatten
  if allValues = [] then return []
  else return [⟨db, ascii "RPUSH", key :: allValues⟩]

/-- `load_hash_listpack_value`. -/
def loadHashListpackValue (db : Nat) (key : Bytes) : Load (List RawCommand) := do
  let listpackBin ← loadString
  let entries ← Reader.lift (parseListpack listpackBin)
  if entries.length % 2 ≠ 0 then Reader.fail (.err "odd_hash_entries")
  else return [⟨db, ascii "HSET", key :: entries⟩]

/-- A field and its value; the 8-byte expiry of the field is skipped. -/
def loadHash2Entry : Load (List Bytes) := do
  let field ← loadString
  let value ← loadString
  Reader.ensure 8
  let _ ← getUIntLe 8
  return [field, value]

/-- `load_hash_2_value`. -/
def loadHash2Value (db : Nat) (key : Bytes) : Load (List RawCommand) := do
  let count ← loadLength
  let fields ← Reader.times count loadHash2Entry
  if fields.flatten = [] then return []
  else return [⟨db, ascii "HSET", key :: fields.flatten⟩]

/-- `load_set_intset_value`. -/
def loadSetIntsetValue (db : Nat) (key : Bytes) : Load (List RawCommand) := do
  let intsetBin ← loadString
  let integers ← Reader.lift (parseIntset intsetBin)
  return [⟨db, ascii "SADD", key :: integers.map Bytes.intText⟩]

/-- `load_set_listpack_value`. -/
def loadSetListpackValue (db : Nat) (key : Bytes) : Load (List RawCommand) := do
  let listpackBin ← loadString
  let entries ← Reader.lift (parseListpack listpackBin)
  return [⟨db, ascii "SADD", key :: entries⟩]

/-- `binary_to_float_safe`: the text as a float, else as an integer, else 0. -/
def binaryToFloatSafe (bin : Bytes) : Nat :=
  match Binary64.parse bin with
  | some f => f
  | none =>
    let (negative, digits) := Binary64.splitSign bin
    let n : Int := Bytes.digitsValue digits
    let i := if negative then -n else n
    if digits ≠ [] ∧ digits.all Bytes.isDigit ∧ -2 ^ 63 ≤ i ∧
      i < 2 ^ 63 then Binary64.ofInt i else 0

/-- The pairs (member, score) of the listpack as the arguments score, member of `ZADD`: both entries
are taken by their index. -/
def zsetListpackArgs : List Bytes → Except Fault (List Bytes)
  | [] => .ok []
  | [_] => .error (.panic "index out of bounds")
  | member :: scoreBin :: rest => do
    let args ← zsetListpackArgs rest
    return Binary64.display (binaryToFloatSafe scoreBin) :: member :: args

/-- An even number of entries is taken apart without a panic. -/
lemma zsetListpackArgs_even : ∀ entries : List Bytes, entries.length % 2 = 0 →
    ∃ args, zsetListpackArgs entries = .ok args
  | [], _ => ⟨[], rfl⟩
  | [_], odd => by
    rw [List.length_singleton] at odd
    cases odd
  | member :: scoreBin :: rest, even => by
    obtain ⟨args, read⟩ := zsetListpackArgs_even rest (by
      simp only [List.length_cons] at even
      omega)
    refine ⟨Binary64.display (binaryToFloatSafe scoreBin) :: member :: args, ?_⟩
    rw [zsetListpackArgs, read]
    rfl

/-- `load_zset_listpack_value`. -/
def loadZsetListpackValue (db : Nat) (key : Bytes) : Load (List RawCommand) := do
  let listpackBin ← loadString
  let entries ← Reader.lift (parseListpack listpackBin)
  if entries.length % 2 ≠ 0 then Reader.fail (.err "odd_zset_entries")
  else
    let args ← Reader.lift (zsetListpackArgs entries)
    return [⟨db, ascii "ZADD", key :: args⟩]

/-- `load_object`. -/
def loadObject (valueType : UInt8) (db : Nat) (key : Bytes) : Load (List RawCommand) :=
  match ValueType.ofCode valueType with
  | some .string => loadStringValue db key
  | some .zset2 => loadZset2Value db key
  | some .hash => loadHashValue db key
  | some .listQuicklist2 => loadQuicklist2Value db key
  | some .hashListpack => loadHashListpackValue db key
  | some .hash2 => loadHash2Value db key
  | some .setIntset => loadSetIntsetValue db key
  | some .setListpack => loadSetListpackValue db key
  | some .zsetListpack => loadZsetListpackValue db key
  | none => pure []

/-! ## The state machine -/

abbrev RdbStep := Step ParserState RawCommand Fault

/-- Consume with a reader and go on in the state made from its value. -/
def ParserState.consume {α : Type} (s : ParserState) (m : Load α)
    (k : α → ParserState → ParserState) : RdbStep :=
  match m s.buffer with
  | .fault e => .fault e
  | .need rest => .stall { s with buffer := rest }
  | .done a rest => .next (k a { s with buffer := rest }) []

/-- The version check of `parse_magic` on the nine bytes of magic and version. -/
def checkVersion (magicVersion : Bytes) : Except Fault Unit := do
  let redis ← slice magicVersion 0 5
  if redis = ascii "REDIS" then
    let version ← slice magicVersion 5 9
    match parseU32 version with
    | none => .error (.err "invalid_version")
    | some version =>
      if 1 ≤ version ∧ version ≤ 12 then .ok () else .error (.err "unsupported_version")
  else
    let valkey ← slice magicVersion 0 6
    if valkey = ascii "VALKEY" then
      let version ← slice magicVersion 6 9
      match parseU32 version with
      | none => .error (.err "invalid_version")
      | some version =>
        if 80 ≤ version ∧ version ≤ 999 then .ok () else .error (.err "unsupported_version")
    else .error (.err "invalid_magic")

/-- The nine bytes of magic and version. -/
def loadMagic : Load Unit := do
  Reader.ensure 9
  let magicVersion ← bytesAt 0 9
  Reader.lift (checkVersion magicVersion)
  advance 9

/-- The nine bytes are there when they are looked at. -/
lemma loadMagic_eq :
    loadMagic = (do
      Reader.ensure 9
      let magicVersion ← splitTo 9
      Reader.lift (checkVersion magicVersion)) := by
  funext buffer
  unfold loadMagic
  by_cases short : buffer.length < 9
  · have wait : Reader.ensure (ε := Fault) 9 buffer = .need buffer := if_pos short
    rw [Reader.bind_need wait, Reader.bind_need wait]
  · have long : 9 ≤ buffer.length := not_lt.mp short
    have there : Reader.ensure (ε := Fault) 9 buffer = .done () buffer := if_neg short
    have look : bytesAt 0 9 buffer = .done (buffer.take 9) buffer := by
      rw [bytesAt, Reader.peek, slice_of_le (Nat.zero_le 9) long]
      rfl
    rw [Reader.bind_done there, Reader.bind_done there, Reader.bind_done look,
      Reader.bind_done (splitTo_of_le long)]
    cases checked : checkVersion (buffer.take 9) with
    | error e => rfl
    | ok _ => exact (Reader.bind_done (by rfl)).trans (advance_of_le long)

/-- `parse_magic`. -/
def parseMagic (s : ParserState) : RdbStep :=
  s.consume loadMagic fun _ s => { s with parseState := .opcode }

/-- `parse_checksum`. -/
def parseChecksum (s : ParserState) : RdbStep :=
  if s.buffer.length < 8 then .stall s
  else
    match advance 8 s.buffer with
    | .fault e => .fault e
    | .need rest => .stall { s with buffer := rest }
    | .done _ rest => .stall { s with buffer := rest, finished := true, parseState := .finished }

/-- The state that an opcode byte leads to. -/
def opcodeState (opcode : UInt8) : ParseState :=
  if opcode = opcodeEof then .waitingChecksum
  else if opcode = opcodeSelectdb ∨ opcode = opcodeResizedb ∨ opcode = opcodeAux ∨
      opcode = opcodeExpiretime ∨ opcode = opcodeExpiretimeMs then .processingOpcode opcode
  else .processingKey opcode

/-- `parse_opcode`. -/
def parseOpcode (s : ParserState) : RdbStep :=
  s.consume
    (do
      Reader.ensure 1
      let opcode ← byteAt 0
      advance 1
      return opcode)
    fun opcode s => { s with parseState := opcodeState opcode }

/-- The eight bytes of the checksum are dropped once they are there. -/
lemma parseChecksum_eq (s : ParserState) :
    parseChecksum s
      = if s.buffer.length < 8 then .stall s
        else .stall
          { s with buffer := s.buffer.drop 8, finished := true, parseState := .finished } := by
  unfold parseChecksum
  by_cases short : s.buffer.length < 8
  · rw [if_pos short, if_pos short]
  · rw [if_neg short, if_neg short, advance_of_le (not_lt.mp short)]

/-- An opcode is taken from the front of the buffer. -/
lemma parseOpcode_eq (s : ParserState) :
    parseOpcode s
      = match s.buffer with
        | [] => .stall s
        | opcode :: rest =>
          .next { s with buffer := rest, parseState := opcodeState opcode } [] := by
  unfold parseOpcode ParserState.consume
  rcases s with ⟨buffer, parseState, currentDb, expireMs, finished, savedKey⟩
  cases buffer with
  | nil => rfl
  | cons opcode rest =>
    have one : ¬ (opcode :: rest).length < 1 := by
      rw [List.length_cons]
      omega
    dsimp only
    rw [Reader.bind_done (show Reader.ensure 1 (opcode :: rest) =
      .done () (opcode :: rest) from if_neg one),
      Reader.bind_done (show byteAt 0 (opcode :: rest) = .done opcode (opcode :: rest) from rfl),
      Reader.bind_done (advance_of_le (not_lt.mp one))]
    rfl

/-- `process_key`. -/
def processKey (valueType : UInt8) (s : ParserState) : RdbStep :=
  s.consume loadString fun key s =>
    { s with savedKey := key, parseState := .processingValue valueType }

/-- The two lengths of `RESIZEDB` are looked at before they are consumed. -/
def loadResizedb : Load Unit := do
  let (_, dbBytes) ← Reader.peek (peekLengthAt · 0)
  let _ ← Reader.peek (peekLengthAt · dbBytes)
  let _ ← loadLength
  let _ ← loadLength

/-- The sizes of the two strings of `AUX` are computed before they are consumed. -/
def loadAux : Load Unit := do
  let keySize ← Reader.peek (calculateStringSize · 0)
  let valSize ← Reader.peek (calculateStringSize · keySize)
  let needed ← checked (usizeAdd keySize valSize)
  Reader.ensure needed
  let _ ← loadString
  let _ ← loadString

/-- `process_opcode`. The results of the reads of `RESIZEDB` and `AUX` are dropped, also an
`Ok(None)` of the second half; the looks before make sure that there is none. -/
def processOpcode (opcode : UInt8) (s : ParserState) : RdbStep :=
  if opcode = opcodeSelectdb then
    s.consume loadLength fun dbNum s =>
      { s with currentDb := dbNum % 2 ^ 32, parseState := .opcode }
  else if opcode = opcodeResizedb then
    s.consume loadResizedb fun _ s => { s with parseState := .opcode }
  else if opcode = opcodeAux then
    s.consume loadAux fun _ s => { s with parseState := .opcode }
  else if opcode = opcodeExpiretime then
    s.consume (do Reader.ensure 4; getUIntLe 4) fun expireSec s =>
      { s with expireMs := some (expireSec * 1000), parseState := .opcode }
  else if opcode = opcodeExpiretimeMs then
    s.consume (do Reader.ensure 8; getUIntLe 8) fun expireMs s =>
      { s with expireMs := some expireMs, parseState := .opcode }
  else .fault (.err "unknown_opcode")

/-- The expiry command behind the commands of a value. -/
def expireCommand (s : ParserState) : List RawCommand :=
  match s.expireMs with
  | none => []
  | some expireMs => [⟨s.currentDb, ascii "PEXPIREAT", [s.savedKey, Bytes.natText expireMs]⟩]

/-- The state in which `parse_value` leaves a value behind it. -/
def ParserState.valueDone (s : ParserState) (rest : Bytes) : ParserState :=
  { s with buffer := rest, expireMs := none, savedKey := [], parseState := .opcode }

/-- `parse_value`: an error of the size computation (an unknown type among them) goes on with the
next opcode at the first byte of the value. -/
def parseValue (valueType : UInt8) (s : ParserState) : RdbStep :=
  match calculateValueSize s.buffer valueType 0 with
  | .need => .stall s
  | .fault (.panic msg) => .fault (.panic msg)
  | .fault (.err _) => .next (s.valueDone s.buffer) []
  | .done totalSize =>
    if s.buffer.length < totalSize then .stall s
    else
      match loadObject valueType s.currentDb s.savedKey s.buffer with
      | .fault e => .fault e
      | .need rest => .stall { s with buffer := rest }
      | .done commands rest => .next (s.valueDone rest) (commands ++ expireCommand s)

/-- `parse_next`, one round of it. -/
def parseNext (s : ParserState) : RdbStep :=
  match s.parseState with
  | .magic => parseMagic s
  | .opcode => parseOpcode s
  | .processingOpcode opcode => processOpcode opcode s
  | .processingKey valueType => processKey valueType s
  | .processingValue valueType => parseValue valueType s
  | .waitingChecksum => parseChecksum s
  | .finished => .stall s

/-- Every productive round consumes a byte or leaves `processingValue`. -/
def ParserState.size (s : ParserState) : Nat :=
  2 * s.buffer.length + match s.parseState with
    | .processingValue _ => 1
    | _ => 0

/-- Append data to the buffer. -/
def ParserState.push (s : ParserState) (data : Bytes) : ParserState :=
  { s with buffer := s.buffer ++ data }

/-- `RDBParser::feed_data`. -/
def feedData (s : ParserState) (data : Bytes) : Except Fault (ParserState × List RawCommand) :=
  if s.finished then .error (.err "already_finished")
  else
    let s := s.push data
    drive parseNext (s.size + 1) s

/-- One `feed_data` call for each chunk, up to the first that fails. -/
def feedAll : ParserState → List Bytes → Except Fault (ParserState × List RawCommand)
  | s, [] => .ok (s, [])
  | s, chunk :: chunks =>
    match feedData s chunk with
    | .error e => .error e
    | .ok (s, commands) =>
      match feedAll s chunks with
      | .error e => .error e
      | .ok (s, later) => .ok (s, commands ++ later)

end Rdb

end Veidrodelis.RedisNif
