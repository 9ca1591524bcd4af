import Veidrodelis.RedisNif.RdbRoundTrip

/-!
# Reading images

The runs of the parser over opcodes, entries and whole images: `run_opcode`, `run_value`,
`run_entry`, `absorb_reading`. An image of known types is read to its end unless one of its values
is refused; where its values can be read (`Image.Readable`) the commands are those that recreate it
(`absorb_image`).
-/

namespace Veidrodelis.RedisNif.RdbFormat
open Incremental Rdb

/-! ## Opcodes -/

/-- The parser between two items of an image. -/
def between (db : Nat) (expireMs : Option Nat) (buffer : Bytes) : ParserState where
  buffer := buffer
  parseState := .opcode
  currentDb := db
  expireMs := expireMs
  finished := false
  savedKey := []

/-- A state that consumes an item takes its encoding off the buffer. -/
lemma consume_reads {α : Type} {m : Load α} {k : α → ParserState → ParserState} {s : ParserState}
    {enc rest : Bytes} {a : α} (reads : Reader.Reads m enc a) (hb : s.buffer = enc ++ rest) :
    s.consume m k = .next (k a { s with buffer := rest }) [] := by
  rw [ParserState.consume, hb, reads rest]

/-- The sizes of a database are read. -/
lemma resizedb_reads (a b : Length) : Reader.Reads loadResizedb (a.encode ++ b.encode) () := by
  intro rest
  have first := peekLengthAt_encode a (b.encode ++ rest)
  have second := peekLengthAt_encode_at a.encode b rest
  rw [loadResizedb_eq, List.append_assoc, first]
  simp only [second]
  rw [← List.length_append, ← List.append_assoc, List.drop_left]

/-- A pair of an auxiliary field is read. -/
lemma aux_reads {key value : EncodedString} (h : (key.encode ++ value.encode).length < usizeSize) :
    Reader.Reads loadAux (key.encode ++ value.encode) () := by
  intro rest
  rw [List.length_append] at h
  have first := calculateStringSize_encode key (value.encode ++ rest) (by omega)
  have second := calculateStringSize_encode_at key.encode (s := value) (by omega) rest
  have long : ¬ (key.encode ++ (value.encode ++ rest)).length <
    key.encode.length + value.encode.length := by
    simp only [List.length_append]
    omega
  have behind : (key.encode ++ (value.encode ++ rest)).drop
    (key.encode.length + value.encode.length)
      = rest := by
    rw [← List.length_append, ← List.append_assoc, List.drop_left]
  rw [loadAux_eq, List.append_assoc, first]
  simp only [second, usizeAdd_of_lt h, long, if_false, stringText_encode, List.drop_left, behind]

/-- The round that reads the byte of an item. -/
lemma run_code (db : Nat) (expireMs : Option Nat) (code : UInt8) (rest : Bytes) :
    machine.run (between db expireMs (code :: rest))
      = machine.run { between db expireMs rest with parseState := opcodeState code } := by
  have step : machine.step (between db expireMs (code :: rest))
      = .next { between db expireMs rest with parseState := opcodeState code } [] := rfl
  rw [machine.run_next step, after_nil]

/-- An opcode whose handler consumes what stands behind its byte. -/
lemma run_consume {α : Type} {m : Load α} {k : α → ParserState → ParserState} {code : UInt8}
    {enc : Bytes} {a : α} (state : opcodeState code = .processingOpcode code)
    (handler : ∀ s, processOpcode code s = s.consume m k) (reads : Reader.Reads m enc a) (db : Nat)
    (expireMs : Option Nat) (rest : Bytes) :
    machine.run (between db expireMs (code :: enc ++ rest)) =
      machine.run (k a { between db expireMs rest with parseState := .processingOpcode code }) := by
  have step : machine.step
      { between db expireMs (enc ++ rest) with parseState := .processingOpcode code }
        = .next (k a { between db expireMs rest with parseState := .processingOpcode code }) [] :=
    (handler _).trans (consume_reads reads rfl)
  rw [List.cons_append, run_code, state, machine.run_next step, after_nil]

/-- A known opcode is consumed; it selects its database and announces its expiry. -/
lemma run_opcode {op : Opcode} (known : op.Known) (bound : op.encode.length < usizeSize) (db : Nat)
    (expireMs : Option Nat) (rest : Bytes) :
    machine.run (between db expireMs (op.encode ++ rest))
      = machine.run (between (op.selected.getD db) (op.deadline.or expireMs) rest) := by
  cases op with
  | aux key value =>
    have h : (key.encode ++ value.encode).length < usizeSize := by
      simp only [Opcode.encode, List.length_cons] at bound
      omega
    have handler (s : ParserState) : processOpcode opcodeAux s
        = s.consume loadAux fun _ s => { s with parseState := .opcode } := rfl
    exact run_consume rfl handler (aux_reads h) db expireMs rest
  | resizedb dbSize expiresSize =>
    have handler (s : ParserState) : processOpcode opcodeResizedb s
        = s.consume loadResizedb fun _ s => { s with parseState := .opcode } := rfl
    exact run_consume rfl handler (resizedb_reads dbSize expiresSize) db expireMs rest
  | selectdb number small =>
    have handler (s : ParserState) : processOpcode opcodeSelectdb s =
      s.consume loadLength fun n s =>
        { s with currentDb := n % 2 ^ 32, parseState := .opcode } := rfl
    have run := run_consume rfl handler (loadLength_encode number) db expireMs rest
    rw [Nat.mod_eq_of_lt small] at run
    exact run
  | expiretime seconds =>
    have handler (s : ParserState) : processOpcode opcodeExpiretime s
        = s.consume (do Reader.ensure 4; getUIntLe 4) fun n s =>
          { s with expireMs := some (n * 1000), parseState := .opcode } := rfl
    exact run_consume rfl handler (uint_reads 4 seconds.toNat seconds.toNat_lt) db expireMs rest
  | expiretimeMs milliseconds =>
    have handler (s : ParserState) : processOpcode opcodeExpiretimeMs s
        = s.consume (do Reader.ensure 8; getUIntLe 8) fun n s =>
          { s with expireMs := some n, parseState := .opcode } := rfl
    exact run_consume rfl handler (uint_reads 8 milliseconds.toNat milliseconds.toNat_lt) db
      expireMs rest
  | unknown => exact absurd known id

/-- The last of several announcements, the first of which is optional. -/
lemma filterMap_last {α β : Type} (f : α → Option β) (a : α) (as : List α) (other : Option β) :
    ((a :: as).filterMap f).getLast?.or other = (as.filterMap f).getLast?.or ((f a).or other) := by
  cases h : f a with
  | none => simp [h]
  | some b =>
    cases e : (as.filterMap f).getLast? with
    | none => simp [h, List.getLast?_cons, e]
    | some c => simp [h, List.getLast?_cons, e]

/-- The opcodes in front of an entry. -/
lemma run_opcodes {ops : List Opcode} (known : ∀ op ∈ ops, op.Known)
    (bound : (ops.flatMap (·.encode)).length < usizeSize) (db : Nat) (expireMs : Option Nat)
    (rest : Bytes) :
    machine.run (between db expireMs (ops.flatMap (·.encode) ++ rest))
      = machine.run (between ((ops.filterMap (·.selected)).getLast?.getD db)
          ((ops.filterMap (·.deadline)).getLast?.or expireMs) rest) := by
  induction ops generalizing db expireMs with
  | nil => simp
  | cons op ops ih =>
    rw [List.flatMap_cons, List.length_append] at bound
    have selected := filterMap_last (·.selected) op ops (some db)
    have deadline := filterMap_last (·.deadline) op ops expireMs
    rw [List.flatMap_cons, List.append_assoc, run_opcode (known op (by simp)) (by omega),
      ih (fun o ho => known o (by simp [ho])) (by omega), deadline]
    simp only [Option.or_some, Option.some.injEq] at selected
    rw [selected]

/-! ## Entries -/

/-- The code of a value type leads to its key. -/
lemma opcodeState_type (t : ValueType) : opcodeState t.code = .processingKey t.code := by
  cases t <;> rfl

/-- The parser that has the key of a value of this type. -/
def behindKey (valueType : UInt8) (db : Nat) (key : Bytes) (expireMs : Option Nat)
    (buffer : Bytes) : ParserState :=
  { between db expireMs buffer with parseState := .processingValue valueType, savedKey := key }

/-- The round on a value whose bytes are all there. -/
lemma step_value {v : Value} (bound : v.encode.length < usizeSize) (db : Nat) (key : Bytes)
    (expireMs : Option Nat) (rest : Bytes) :
    machine.step (behindKey v.type.code db key expireMs (v.encode ++ rest))
      = match v.reading with
        | .error f => .fault f
        | .ok read => .next (between db none rest)
            (commandOn db key read ++ deadlineCommand db key expireMs) := by
  have long : ¬ (v.encode ++ rest).length < v.encode.length := by
    simp only [List.length_append]
    omega
  have loaded := loadObject_encode v db key bound rest
  show parseValue v.type.code _ = _
  cases reading : v.reading with
  | error f =>
    rw [reading] at loaded
    simp only [parseValue, behindKey, between, calculateValueSize_encode v rest bound, long,
      if_false, loaded]
    rfl
  | ok read =>
    rw [reading] at loaded
    simp only [parseValue, behindKey, between, calculateValueSize_encode v rest bound, long,
      if_false, loaded]
    cases expireMs <;> rfl

/-- The rounds that read the type and the key of an entry. -/
lemma run_key {valueType : UInt8} (state : opcodeState valueType = .processingKey valueType)
    {key : EncodedString} (keyBound : key.encode.length < usizeSize) (db : Nat)
    (expireMs : Option Nat) (rest : Bytes) :
    machine.run (between db expireMs (valueType :: (key.encode ++ rest))) =
      machine.run (behindKey valueType db key.text expireMs rest) := by
  have readKey : machine.step
      { between db expireMs (key.encode ++ rest) with parseState := .processingKey valueType }
        = .next (behindKey valueType db key.text expireMs rest) [] := by
    show processKey valueType _ = _
    rw [processKey]
    exact consume_reads (loadString_encode keyBound) rfl
  rw [run_code, state, machine.run_next readKey, after_nil]

/-- A known value with its key: it is refused, or gives the command that was read from it. -/
lemma run_value {v : Value} {key : EncodedString} (bound : v.encode.length < usizeSize)
    (keyBound : key.encode.length < usizeSize) (db : Nat) (expireMs : Option Nat) (rest : Bytes) :
    machine.run (between db expireMs (v.type.code :: (key.encode ++ (v.encode ++ rest))))
      = v.reading >>= fun read =>
        after (commandOn db key.text read ++ deadlineCommand db key.text expireMs)
          (machine.run (between db none rest)) := by
  have step := step_value bound db key.text expireMs rest
  rw [run_key (opcodeState_type v.type) keyBound]
  cases reading : v.reading with
  | error f =>
    rw [reading] at step
    exact machine.run_fault step
  | ok read =>
    rw [reading] at step
    exact machine.run_next step

/-- What is read from an entry in its database. -/
def Entry.reading (db : Nat) (e : Entry) : Except Fault (List RawCommand) :=
  match e.body with
  | .known value => do
    let read ← value.reading
    return commandOn db e.key.text read ++ deadlineCommand db e.key.text e.expiry
  | .unknown .. => .ok []

/-- What is read from entries behind which database `db` is selected. -/
def readingFrom : Nat → List Entry → Except Fault (List RawCommand)
  | _, [] => .ok []
  | db, e :: es => do
    let commands ← e.reading (e.db db)
    let later ← readingFrom (e.db db) es
    return commands ++ later

/-- An entry of a known type, with the opcodes in front of it. -/
lemma run_entry {e : Entry} (known : e.Known) (bound : e.encode.length < usizeSize) (db : Nat)
    (rest : Bytes) :
    machine.run (between db none (e.encode ++ rest)) =
      e.reading (e.db db) >>=
      fun commands => after commands (machine.run (between (e.db db) none rest)) := by
  obtain ⟨opcodes, key, body⟩ := e
  obtain ⟨(knownOps : ∀ op ∈ opcodes, op.Known), (knownBody : body.Known)⟩ := known
  cases body with
  | unknown => exact absurd knownBody id
  | known v =>
    simp only [Entry.encode, Body.encode, Body.code, List.length_append, List.length_cons] at bound
    simp only [Entry.encode, Body.encode, Body.code, Entry.db, Entry.reading, Entry.expiry,
      List.append_assoc, List.cons_append]
    have valueBound : v.encode.length < usizeSize := by omega
    have keyBound : key.encode.length < usizeSize := by omega
    have value := run_value valueBound keyBound ((opcodes.filterMap (·.selected)).getLast?.getD db)
      (opcodes.filterMap (·.deadline)).getLast? rest
    rw [run_opcodes knownOps (by omega), Option.or_none, value]
    cases v.reading <;> rfl

/-- The entries of an image. -/
lemma run_entries {es : List Entry} (known : ∀ e ∈ es, e.Known)
    (bound : (es.flatMap (·.encode)).length < usizeSize) (db : Nat) :
    ∃ db', ∀ rest, machine.run (between db none (es.flatMap (·.encode) ++ rest)) =
      readingFrom db es >>=
      fun commands => after commands (machine.run (between db' none rest)) := by
  induction es generalizing db with
  | nil => exact ⟨db, fun rest => (after_nil _).symm⟩
  | cons e es ih =>
    rw [List.flatMap_cons, List.length_append] at bound
    obtain ⟨db', tail⟩ := ih (fun o ho => known o (by simp [ho])) (by omega) (e.db db)
    refine ⟨db', fun rest => ?_⟩
    rw [List.flatMap_cons, List.append_assoc, run_entry (known e (by simp)) (by omega), readingFrom]
    cases e.reading (e.db db) with
    | error f => rfl
    | ok commands =>
      show after commands (machine.run _) = (readingFrom (e.db db) es >>= _) >>= _
      rw [tail]
      cases readingFrom (e.db db) es with
      | error f => rfl
      | ok later => exact after_after commands later _

/-- The value of a known type is read as what it is. -/
def Body.Right : Body → Prop
  | .known value => value.Right
  | .unknown .. => True

/-- A readable body is read as what it means. -/
lemma Body.Readable.right {b : Body} (readable : b.Readable) : b.Right := by
  cases b with
  | known v => exact Value.Readable.right readable
  | unknown => trivial

/-- An entry whose value is read as what it is gives its commands. -/
lemma Entry.reading_right {e : Entry} (right : e.body.Right) (db : Nat) :
    e.reading db = .ok (e.commands db) := by
  obtain ⟨opcodes, key, body⟩ := e
  cases body with
  | unknown => rfl
  | known v =>
    have read : v.reading = .ok (some v.meaning) := right
    simp only [Entry.reading, read]
    rfl

/-- Entries that are read right give the commands of the image. -/
lemma readingFrom_right {es : List Entry} (right : ∀ e ∈ es, e.body.Right) (db : Nat) :
    readingFrom db es = .ok (commandsFrom db es) := by
  induction es generalizing db with
  | nil => rfl
  | cons e es ih =>
    have later := ih (fun o ho => right o (List.mem_cons_of_mem _ ho)) (e.db db)
    rw [readingFrom, Entry.reading_right (right e List.mem_cons_self), later]
    rfl

/-! ## Images -/

/-- The end of an image. -/
lemma run_eof (db : Nat) (expireMs : Option Nat) {checksum : Bytes} (size : checksum.length = 8) :
    machine.run (between db expireMs (opcodeEof :: checksum))
      = .ok ({ between db expireMs [] with parseState := .finished, finished := true }, []) := by
  have step : machine.step { between db expireMs checksum with parseState := .waitingChecksum }
      = .stall { between db expireMs [] with parseState := .finished, finished := true } := by
    have long : ¬ checksum.length < 8 := by omega
    have isNil : checksum.drop 8 = [] := List.drop_eq_nil_of_le (by omega)
    show parseChecksum _ = _
    simp only [parseChecksum_eq, between, long, if_false, isNil]
  rw [run_code]
  exact machine.run_stall step

/-- The header of an image. -/
lemma absorb_magic (img : Image) (rest : Bytes) :
    machine.absorb .new (img.magic ++ rest) = machine.run (between 0 none rest) := by
  have nine : 9 ≤ (ParserState.new.push (img.magic ++ rest)).buffer.length := by
    simp only [push_buffer, List.length_append, img.magicSize]
    omega
  have magic : (ParserState.new.push (img.magic ++ rest)).buffer.take 9 = img.magic :=
    List.take_left' img.magicSize
  have behind : (ParserState.new.push (img.magic ++ rest)).buffer.drop 9 = rest :=
    List.drop_left' img.magicSize
  have header : machine.step (ParserState.new.push (img.magic ++ rest)) =
    .next (between 0 none rest) [] := by
    show parseMagic _ = _
    rw [parseMagic, ParserState.consume, loadMagic_eq, Reader.bind_done (ensure_of_le nine),
      Reader.bind_done (splitTo_of_le nine), magic, behind, img.version]
    rfl
  exact (machine.run_next header).trans (after_nil _)

/-- What stands behind the entries finishes the parser. -/
lemma run_tail {img : Image} (known : ∀ op ∈ img.opcodes, op.Known)
    (bound : img.tail.length < usizeSize) (db : Nat) :
    ∃ q, machine.run (between db none img.tail) = .ok (q, []) ∧ q.finished = true ∧
      q.parseState = .finished ∧ q.buffer = [] := by
  rw [Image.tail, List.length_append] at bound
  rw [Image.tail, run_opcodes known (by omega), run_eof _ _ img.checksumSize]
  exact ⟨_, rfl, rfl, rfl, rfl⟩

/-- An image whose types and opcodes are all known is read to its end, unless one of its values is
refused. -/
lemma absorb_reading {img : Image} (known : img.Known) (bound : img.encode.length < usizeSize) :
    ∃ q, Rdb.machine.absorb .new img.encode =
      (readingFrom 0 img.entries >>= fun commands => .ok (q, commands)) ∧ q.finished = true ∧
      q.parseState = .finished ∧ q.buffer = [] := by
  simp only [Image.encode, List.length_append] at bound
  obtain ⟨db, entries⟩ := run_entries known.1 (by omega) 0
  obtain ⟨q, tail, finished⟩ := run_tail known.2 (by omega) db
  refine ⟨q, ?_, finished⟩
  rw [Image.encode, absorb_magic, entries, tail]
  cases readingFrom 0 img.entries with
  | error f => rfl
  | ok commands =>
    show after commands (.ok (q, [])) = Except.ok (q, commands)
    rw [after_ok, List.append_nil]

/-- Every value of a known type is read as what it is. -/
def Image.Right (img : Image) : Prop := ∀ e ∈ img.entries, e.body.Right

/-- A readable image is read right. -/
lemma Image.Readable.right {img : Image} (readable : img.Readable) : img.Right :=
  fun e he => Body.Readable.right (readable e he)

/-- An image whose types and opcodes are all known, and whose values are read as what they are, is
read as the commands that recreate it. -/
lemma absorb_image {img : Image} (known : img.Known) (right : img.Right)
    (bound : img.encode.length < usizeSize) :
    ∃ q, Rdb.machine.absorb .new img.encode = .ok (q, img.commands) ∧ q.finished = true ∧
      q.parseState = .finished ∧ q.buffer = [] := by
  obtain ⟨q, run, finished⟩ := absorb_reading known bound
  rw [readingFrom_right right] at run
  exact ⟨q, run, finished⟩

end Veidrodelis.RedisNif.RdbFormat
