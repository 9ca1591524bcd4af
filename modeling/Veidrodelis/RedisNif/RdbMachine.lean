import Veidrodelis.RedisNif.RdbValues

/-!
# The RDB parser as an incremental machine

`machine` packages `parse_next` with its laws (`lawful`): a round that did something does the same
with more data behind, and a round that waits changes nothing that the next round could notice.
`feedData_absorb` identifies `feed_data` on an unfinished parser with absorbing a chunk, so that the
rules of `Incremental.Machine` apply to it.
-/

namespace Veidrodelis.RedisNif.Rdb
open Incremental

/-! ## The readers of the opcodes -/

/-- `parse_magic` consumes nine bytes or refuses them. -/
lemma magic_item : Reader.Item loadMagic where
  stable := by
    rw [loadMagic_eq]
    exact Reader.stable_ensure_bind ((splitTo_stableFrom 9).bind fun _ => Reader.stable_lift _)
  keeps {b rest} h := by
    rw [loadMagic_eq] at h
    by_cases short : b.length < 9
    · rw [Reader.bind_need (ensure_of_lt short)] at h
      cases h
      rfl
    · rw [Reader.bind_done (ensure_of_le (by omega)),
        Reader.bind_done (splitTo_of_le (by omega))] at h
      cases r : checkVersion (b.take 9) <;> simp [Reader.lift, r] at h
  consumes {b a rest} h := by
    rw [loadMagic_eq] at h
    by_cases short : b.length < 9
    · rw [Reader.bind_need (ensure_of_lt short)] at h
      cases h
    · rw [Reader.bind_done (ensure_of_le (by omega)),
        Reader.bind_done (splitTo_of_le (by omega))] at h
      cases r : checkVersion (b.take 9) with
      | error e => simp [Reader.lift, r] at h
      | ok u =>
        simp only [Reader.lift, r, Reading.done.injEq] at h
        exact ⟨9, by decide, by omega, h.2.symm⟩

/-- The two sizes of a database are looked at and dropped together. -/
lemma loadResizedb_eq (b : Bytes) :
    loadResizedb b = match peekLengthAt b 0 with
      | .fault e => .fault e
      | .need => .need b
      | .done (_, n) =>
        match peekLengthAt b n with
        | .fault e => .fault e
        | .need => .need b
        | .done (_, m) => .done () (b.drop (n + m)) := by
  cases e1 : peekLengthAt b 0 with
  | fault f => simp [loadResizedb, Reader.bind_apply, Reader.peek, e1]
  | need => simp [loadResizedb, Reader.bind_apply, Reader.peek, e1]
  | done p =>
    obtain ⟨v, n⟩ := p
    cases e2 : peekLengthAt b n with
    | fault f => simp [loadResizedb, Reader.bind_apply, Reader.peek, e1, e2]
    | need => simp [loadResizedb, Reader.bind_apply, Reader.peek, e1, e2]
    | done q =>
      obtain ⟨w, m⟩ := q
      have behind : peekLengthAt (b.drop n) 0 = .done (w, m) := by
        rw [peekLengthAt_drop]
        exact e2
      have second : loadLength (b.drop n) = .done w (b.drop (n + m)) := by
        rw [loadLength_of_peek behind, List.drop_drop]
      simp [loadResizedb, Reader.bind_apply, Reader.peek, e1, e2, loadLength_of_peek e1, second]

/-- The sizes of a database are an item. -/
lemma resizedb_item : Reader.Item loadResizedb where
  stable := by
    refine Reader.stable_bind (Reader.stable_peek (peekLengthAt_stable 0)) fun p => ?_
    refine Reader.stable_bind (Reader.stable_peek (peekLengthAt_stable p.2)) fun q => ?_
    refine Reader.stable_bind loadLength_stable fun _ => ?_
    exact Reader.stable_bind loadLength_stable fun _ => Reader.stable_pure _
  keeps {b rest} h := by
    rw [loadResizedb_eq] at h
    split at h
    · cases h
    · cases h
      rfl
    · split at h <;> cases h
      rfl
  consumes {b a rest} h := by
    rw [loadResizedb_eq] at h
    split at h
    · cases h
    · cases h
    · rename_i n e1
      split at h
      · cases h
      · cases h
      · rename_i m e2
        cases h
        have := peekLengthAt_used e1
        have := peekLengthAt_used e2
        exact ⟨_, by omega, by omega, rfl⟩

/-- The two strings of an auxiliary field are sized, and then read. -/
lemma loadAux_eq (b : Bytes) :
    loadAux b = match calculateStringSize b 0 with
      | .fault e => .fault e
      | .need => .need b
      | .done n =>
        match calculateStringSize b n with
        | .fault e => .fault e
        | .need => .need b
        | .done m =>
          match usizeAdd n m with
          | .fault e => .fault e
          | .need => .need b
          | .done k =>
            if b.length < k then .need b
            else match stringText b, stringText (b.drop n) with
              | .error e, _ => .fault e
              | .ok _, .error e => .fault e
              | .ok _, .ok _ => .done () (b.drop k) := by
  cases e1 : calculateStringSize b 0 with
  | fault f => simp [loadAux, Reader.bind_apply, Reader.peek, e1]
  | need => simp [loadAux, Reader.bind_apply, Reader.peek, e1]
  | done n =>
    cases e2 : calculateStringSize b n with
    | fault f => simp [loadAux, Reader.bind_apply, Reader.peek, e1, e2]
    | need => simp [loadAux, Reader.bind_apply, Reader.peek, e1, e2]
    | done m =>
      cases a : usizeAdd n m with
      | fault f => simp [loadAux, Reader.bind_apply, Reader.peek, checked, e1, e2, a]
      | need => exact absurd a (usizeAdd_ne_need _ _)
      | done k =>
        obtain rfl := usizeAdd_done a
        by_cases short : b.length < n + m
        · simp [loadAux, Reader.bind_apply, Reader.peek, checked, Reader.ensure, e1, e2, a, short]
        · -- the second string is read where the first one ends, as it was measured there
          have e2' : calculateStringSize (b.drop n) 0 = .done m := by
            rw [calculateStringSize_drop, e2]
          have long1 : ¬ b.length < n := by omega
          have long2 : ¬ (b.drop n).length < m := by simp only [List.length_drop]; omega
          simp only [loadAux, Reader.bind_apply, Reader.peek, checked, Reader.ensure, e1, e2, a,
            short, if_false, loadString_eq b, readSized, long1]
          cases stringText b with
          | error f => rfl
          | ok s =>
            simp only [loadString_eq (b.drop n), e2', readSized, long2, if_false]
            cases stringText (b.drop n) with
            | error f => rfl
            | ok t => simp

/-- An auxiliary field is an item. -/
lemma aux_item : Reader.Item loadAux where
  stable := by
    refine Reader.stable_bind (Reader.stable_peek (calculateStringSize_stable 0)) fun n => ?_
    refine Reader.stable_bind (Reader.stable_peek (calculateStringSize_stable n)) fun m => ?_
    refine Reader.stable_bind (Reader.stable_peek (Outcome.stable_const _)) fun k => ?_
    refine Reader.stable_ensure_bind (Reader.Stable.from ?_ k)
    refine Reader.stable_bind loadString_stable fun _ => ?_
    exact Reader.stable_bind loadString_stable fun _ => Reader.stable_pure _
  keeps {b rest} h := by
    rw [loadAux_eq] at h
    repeat' split at h
    all_goals cases h
    all_goals rfl
  consumes {b a rest} h := by
    rw [loadAux_eq] at h
    split at h
    · cases h
    · cases h
    · rename_i n e1
      split at h
      · cases h
      · cases h
      · rename_i m e2
        split at h
        · cases h
        · cases h
        · rename_i k a
          split at h
          · cases h
          · split at h <;> cases h
            have := usizeAdd_done a
            have := calculateStringSize_pos e1
            exact ⟨k, by omega, by omega, rfl⟩

/-! ## The laws of a round -/

/-- Input behind the buffer leaves the parse state as it is. -/
@[simp] lemma push_parseState (s : ParserState) (x : Bytes) :
    (s.push x).parseState = s.parseState := rfl

/-- Input is put behind the buffer. -/
@[simp] lemma push_buffer (s : ParserState) (x : Bytes) : (s.push x).buffer = s.buffer ++ x := rfl

/-- Input behind the buffer leaves the flag as it is. -/
@[simp] lemma push_finished (s : ParserState) (x : Bytes) : (s.push x).finished = s.finished := rfl

/-- Input behind the buffer leaves the key as it is. -/
@[simp] lemma push_savedKey (s : ParserState) (x : Bytes) : (s.push x).savedKey = s.savedKey := rfl

/-- Input behind the buffer leaves the database as it is. -/
@[simp] lemma push_currentDb (s : ParserState) (x : Bytes) : (s.push x).currentDb = s.currentDb :=
  rfl

/-- Input behind the buffer leaves the deadline as it is. -/
@[simp] lemma push_expireMs (s : ParserState) (x : Bytes) : (s.push x).expireMs = s.expireMs := rfl

/-- No input changes nothing. -/
lemma push_nil (s : ParserState) : s.push [] = s := by
  simp [ParserState.push]

/-- Input may be pushed in two parts. -/
lemma push_append (s : ParserState) (x y : Bytes) : s.push (x ++ y) = (s.push x).push y := by
  simp [ParserState.push]

/-- The laws of `Incremental.Machine` at one state. -/
abbrev Lawful (s : ParserState) : Prop :=
  Incremental.Lawful parseNext ParserState.push ParserState.size s

/-- A handler that consumes an item is lawful. -/
lemma lawful_consume {α : Type} {m : Load α} {k : α → ParserState → ParserState} {s : ParserState}
    (item : Reader.Item m) (h : ∀ x, parseNext (s.push x) = (s.push x).consume m k)
    (hk : ∀ a s x, (k a s).push x = k a (s.push x)) (kb : ∀ a s, (k a s).buffer = s.buffer) :
    Lawful s := by
  have h0 : parseNext s = s.consume m k := by simpa only [push_nil] using h []
  cases r : m s.buffer with
  | fault e =>
    refine .of_fault (e := e) (by rw [h0, ParserState.consume, r]) fun x => ?_
    rw [h, ParserState.consume, push_buffer, item.stable.fault r x]
  | need rest =>
    obtain rfl := item.keeps r
    exact .of_wait (by rw [h0, ParserState.consume, r])
  | done a rest =>
    have shrunk := item.shrinks r
    have same : parseNext s = .next (k a { s with buffer := rest }) [] := by
      rw [h0, ParserState.consume, r]
    refine .of_next same ?_ fun x => ?_
    · simp only [ParserState.size, kb]
      split <;> omega
    · rw [h, ParserState.consume, push_buffer, item.stable.done r x, hk]
      rfl

/-- The round of an opcode is lawful. -/
lemma lawful_opcode {s : ParserState} (h : s.parseState = .opcode) : Lawful s := by
  have eq (x : Bytes) : parseNext (s.push x) = parseOpcode (s.push x) := by
    simp only [parseNext, push_parseState, h]
  have eq0 : parseNext s = parseOpcode s := by simpa only [push_nil] using eq []
  cases b : s.buffer with
  | nil => exact .of_wait (by rw [eq0, parseOpcode_eq, b])
  | cons opcode rest =>
    refine .of_next (by rw [eq0, parseOpcode_eq, b]) ?_ fun x => ?_
    · simp only [ParserState.size, b, List.length_cons]
      split <;> split <;> omega
    · rw [eq, parseOpcode_eq, push_buffer, b]
      rfl

/-- The round of the checksum is lawful. -/
lemma lawful_checksum {s : ParserState} (h : s.parseState = .waitingChecksum) : Lawful s := by
  have eq (x : Bytes) : parseNext (s.push x) = parseChecksum (s.push x) := by
    simp only [parseNext, push_parseState, h]
  have eq0 : parseNext s = parseChecksum s := by simpa only [push_nil] using eq []
  by_cases short : s.buffer.length < 8
  · exact .of_wait (by rw [eq0, parseChecksum_eq, if_pos short])
  · refine .of_stall (by rw [eq0, parseChecksum_eq, if_neg short]) fun x => ?_
    -- the finished parser keeps what arrives behind the checksum
    have long : ¬ (s.push x).buffer.length < 8 := by
      simp only [push_buffer, List.length_append]
      omega
    rw [eq, parseChecksum_eq, if_neg long, push_buffer, List.drop_append_of_le_length (by omega)]
    rfl

/-- The round of a value is lawful. -/
lemma lawful_value {s : ParserState} {valueType : UInt8}
    (h : s.parseState = .processingValue valueType) : Lawful s := by
  have eq (x : Bytes) : parseNext (s.push x) = parseValue valueType (s.push x) := by
    simp only [parseNext, push_parseState, h]
  have eq0 : parseNext s = parseValue valueType s := by simpa only [push_nil] using eq []
  have size0 : s.size = 2 * s.buffer.length + 1 := by simp only [ParserState.size, h]
  cases c : calculateValueSize s.buffer valueType 0 with
  | need => exact .of_wait (by rw [eq0, parseValue, c])
  | fault f =>
    have c' (x : Bytes) := (calculateValueSize_stable valueType 0).fault c x
    cases f with
    | panic msg =>
      refine .of_fault (e := .panic msg) (by rw [eq0, parseValue, c]) fun x => ?_
      rw [eq, parseValue, push_buffer, c']
    | err msg =>
      -- the value is given up, and nothing of it is consumed
      have same : parseNext s = .next (s.valueDone s.buffer) [] := by rw [eq0, parseValue, c]
      refine .of_next same ?_ fun x => ?_
      · rw [size0]
        simp only [ParserState.size, ParserState.valueDone]
        omega
      · rw [eq, parseValue, push_buffer, c']
        rfl
  | done n =>
    by_cases short : s.buffer.length < n
    · exact .of_wait (by simp only [eq0, parseValue, c, if_pos short])
    · have c' (x : Bytes) := (calculateValueSize_stable valueType 0).done c x
      have short' (x : Bytes) : ¬ (s.buffer ++ x).length < n := by
        simp only [List.length_append]
        omega
      have stable := loadObject_stable valueType s.currentDb s.savedKey
      obtain ⟨f, hf⟩ | ⟨cmds, hd⟩ :=
        loadObject_fits valueType s.currentDb s.savedKey s.buffer n c (by omega)
      · refine .of_fault (e := f) (by simp only [eq0, parseValue, c, if_neg short, hf]) fun x => ?_
        simp only [eq, parseValue, push_buffer, c', if_neg (short' x), push_currentDb,
          push_savedKey, stable.fault hf x]
      · have same : parseNext s
            = .next (s.valueDone (s.buffer.drop n)) (cmds ++ expireCommand s) := by
          simp only [eq0, parseValue, c, if_neg short, hd]
        refine .of_next same ?_ fun x => ?_
        · rw [size0]
          simp only [ParserState.size, ParserState.valueDone, List.length_drop]
          omega
        · simp only [eq, parseValue, push_buffer, c', if_neg (short' x), push_currentDb,
            push_savedKey, stable.done hd x]
          rfl

/-- The round of an opcode's arguments is lawful. -/
lemma lawful_processingOpcode {s : ParserState} {opcode : UInt8}
    (h : s.parseState = .processingOpcode opcode) : Lawful s := by
  have eq (x : Bytes) : parseNext (s.push x) = processOpcode opcode (s.push x) := by
    simp only [parseNext, push_parseState, h]
  by_cases h1 : opcode = opcodeSelectdb
  · simp only [processOpcode, h1, if_true] at eq
    exact lawful_consume loadLength_item eq (fun _ _ _ => rfl) fun _ _ => rfl
  by_cases h2 : opcode = opcodeResizedb
  · simp only [processOpcode, if_neg h1, if_pos h2] at eq
    exact lawful_consume resizedb_item eq (fun _ _ _ => rfl) fun _ _ => rfl
  by_cases h3 : opcode = opcodeAux
  · simp only [processOpcode, if_neg h1, if_neg h2, if_pos h3] at eq
    exact lawful_consume aux_item eq (fun _ _ _ => rfl) fun _ _ => rfl
  by_cases h4 : opcode = opcodeExpiretime
  · simp only [processOpcode, if_neg h1, if_neg h2, if_neg h3, if_pos h4] at eq
    exact lawful_consume (uint_item (by omega)) eq (fun _ _ _ => rfl) fun _ _ => rfl
  by_cases h5 : opcode = opcodeExpiretimeMs
  · simp only [processOpcode, if_neg h1, if_neg h2, if_neg h3, if_neg h4, if_pos h5] at eq
    exact lawful_consume (uint_item (by omega)) eq (fun _ _ _ => rfl) fun _ _ => rfl
  have other (x : Bytes) : parseNext (s.push x) = .fault (.err "unknown_opcode") := by
    rw [eq, processOpcode, if_neg h1, if_neg h2, if_neg h3, if_neg h4, if_neg h5]
  exact .of_fault (by simpa only [push_nil] using other []) other

/-- Every round of the RDB parser is lawful: one case for each state of the machine. -/
theorem lawful (s : ParserState) : Lawful s := by
  cases h : s.parseState with
  | magic =>
    have eq (x : Bytes) : parseNext (s.push x) = parseMagic (s.push x) := by
      simp only [parseNext, push_parseState, h]
    exact lawful_consume magic_item eq (fun _ _ _ => rfl) fun _ _ => rfl
  | opcode => exact lawful_opcode h
  | processingOpcode opcode => exact lawful_processingOpcode h
  | processingKey valueType =>
    have eq (x : Bytes) : parseNext (s.push x) = processKey valueType (s.push x) := by
      simp only [parseNext, push_parseState, h]
    exact lawful_consume loadString_item eq (fun _ _ _ => rfl) fun _ _ => rfl
  | processingValue valueType => exact lawful_value h
  | waitingChecksum => exact lawful_checksum h
  | finished =>
    refine .of_wait ?_
    simp only [parseNext, h]

/-- The RDB parser. -/
def machine : Machine UInt8 ParserState RawCommand Fault where
  step := parseNext
  push := ParserState.push
  size := ParserState.size
  push_nil := push_nil
  push_append := push_append
  lawful := lawful

/-- `feed_data` on a parser that has not finished absorbs its data. -/
lemma feedData_absorb {s : ParserState} (h : s.finished = false) (data : Bytes) :
    feedData s data = machine.absorb s data := by
  simp only [feedData, h, Bool.false_eq_true, if_false]
  rfl

/-! ## What a round can do -/

/-- The answer of a round in state `s`: it waits unchanged, it refuses the input, it consumes bytes
at the front of the buffer, or it finishes behind the checksum. -/
inductive Answer (s : ParserState) : RdbStep → Prop where
  | wait : Answer s (.stall s)
  | refuse (f : Fault) : Answer s (.fault f)
  | consume (s' : ParserState) (out : List RawCommand) (suffix : s'.buffer <:+ s.buffer)
      (running : s'.parseState ≠ .finished)
      (eof : s'.parseState = .waitingChecksum → s.buffer = opcodeEof :: s'.buffer) :
      Answer s (.next s' out)
  | finish (checksum : s.parseState = .waitingChecksum) (long : 8 ≤ s.buffer.length) :
      Answer s (.stall
        { s with buffer := s.buffer.drop 8, finished := true, parseState := .finished })

/-- A handler that consumes an item, and leads neither to the checksum nor to the end. -/
lemma consume_answer {α : Type} {m : Load α} {k : α → ParserState → ParserState} (s : ParserState)
    (item : Reader.Item m) (kb : ∀ a s, (k a s).buffer = s.buffer)
    (running : ∀ a s, (k a s).parseState ≠ .finished ∧ (k a s).parseState ≠ .waitingChecksum) :
    Answer s (s.consume m k) := by
  unfold ParserState.consume
  cases r : m s.buffer with
  | fault e => exact .refuse e
  | need rest =>
    obtain rfl := item.keeps r
    exact .wait
  | done a rest =>
    obtain ⟨n, -, -, rfl⟩ := item.consumes r
    refine .consume _ _ ?_ (running a _).1 fun checksum => absurd checksum (running a _).2
    rw [kb]
    exact List.drop_suffix n s.buffer

/-- Only the end of file leads to the checksum. -/
lemma opcodeState_checksum {opcode : UInt8} (h : opcodeState opcode = .waitingChecksum) :
    opcode = opcodeEof := by
  by_contra other
  rw [opcodeState, if_neg other] at h
  split at h <;> cases h

/-- No opcode leads to the last state at once. -/
lemma opcodeState_running (opcode : UInt8) : opcodeState opcode ≠ .finished := by
  unfold opcodeState
  repeat' split
  all_goals nofun

/-- What the round of a value answers. -/
lemma parseValue_answer (valueType : UInt8) (s : ParserState) :
    Answer s (parseValue valueType s) := by
  rw [parseValue]
  cases size : calculateValueSize s.buffer valueType 0 with
  | need => exact .wait
  | fault f =>
    cases f with
    | panic msg => exact .refuse _
    | err msg => exact .consume _ _ List.suffix_rfl nofun nofun
  | done n =>
    dsimp only
    by_cases short : s.buffer.length < n
    · rw [if_pos short]
      exact .wait
    · rw [if_neg short]
      -- a value of which all bytes are there is not waited for
      obtain ⟨f, refused⟩ | ⟨cmds, read⟩ :=
        loadObject_fits valueType s.currentDb s.savedKey s.buffer n size (by omega)
      · rw [refused]
        exact .refuse f
      · rw [read]
        exact .consume _ _ (List.drop_suffix n s.buffer) nofun nofun

/-- What the round of an opcode's arguments answers. -/
lemma processOpcode_answer (opcode : UInt8) (s : ParserState) :
    Answer s (processOpcode opcode s) := by
  have uint (n : Nat) (pos : 0 < n) {k : Nat → ParserState → ParserState}
      (kb : ∀ a s, (k a s).buffer = s.buffer)
      (running : ∀ a s, (k a s).parseState ≠ .finished ∧ (k a s).parseState ≠ .waitingChecksum) :=
    consume_answer s (uint_item pos) kb running
  unfold processOpcode
  split
  · exact consume_answer s loadLength_item (fun _ _ => rfl) fun _ _ => ⟨nofun, nofun⟩
  · split
    · exact consume_answer s resizedb_item (fun _ _ => rfl) fun _ _ => ⟨nofun, nofun⟩
    · split
      · exact consume_answer s aux_item (fun _ _ => rfl) fun _ _ => ⟨nofun, nofun⟩
      · split
        · exact uint 4 (by decide) (fun _ _ => rfl) fun _ _ => ⟨nofun, nofun⟩
        · split
          · exact uint 8 (by decide) (fun _ _ => rfl) fun _ _ => ⟨nofun, nofun⟩
          · exact .refuse _

/-- Every round gives one of the answers. -/
theorem parseNext_answer (s : ParserState) : Answer s (parseNext s) := by
  unfold parseNext
  cases st : s.parseState with
  | magic => exact consume_answer s magic_item (fun _ _ => rfl) fun _ _ => ⟨nofun, nofun⟩
  | processingKey valueType =>
    exact consume_answer s loadString_item (fun _ _ => rfl) fun _ _ => ⟨nofun, nofun⟩
  | processingOpcode opcode => exact processOpcode_answer opcode s
  | processingValue valueType => exact parseValue_answer valueType s
  | finished => exact .wait
  | opcode =>
    dsimp only
    rw [parseOpcode_eq]
    cases b : s.buffer with
    | nil => exact .wait
    | cons opcode rest =>
      refine .consume _ _ (b ▸ List.suffix_cons opcode rest) (opcodeState_running opcode)
        fun checksum => ?_
      rw [b, opcodeState_checksum checksum]
  | waitingChecksum =>
    dsimp only
    rw [parseChecksum_eq]
    by_cases short : s.buffer.length < 8
    · rw [if_pos short]
      exact .wait
    · rw [if_neg short]
      exact .finish st (not_lt.mp short)

/-- A round that waits before the end of the image changes nothing. -/
lemma stall_same {s t : ParserState} (e : parseNext s = .stall t)
    (live : t.parseState ≠ .finished) : t = s := by
  have answer := parseNext_answer s
  rw [e] at answer
  cases answer with
  | wait => rfl
  | finish => exact absurd rfl live

/-! ## The end of an image -/

/-- The flag `finished` says that the machine has come to its last state. -/
def Sound (s : ParserState) : Prop := s.finished = true ↔ s.parseState = .finished

/-- Consuming an item keeps the flag and the state in step. -/
lemma sound_consume {α : Type} {m : Load α} {k : α → ParserState → ParserState} {s : ParserState}
    (hk : ∀ a s, (k a s).finished = s.finished ∧ (k a s).parseState ≠ .finished)
    (ne : s.parseState ≠ .finished) (sound : Sound s) :
    (∀ s' out, s.consume m k = .next s' out → Sound s') ∧ ∀ s', s.consume m k = .stall s' →
      Sound s' := by
  have off : s.finished = false := by simpa [Sound, ne] using sound
  unfold ParserState.consume
  split
  · exact ⟨fun s' out e => (by cases e), fun s' e => by cases e⟩
  · refine ⟨fun s' out e => (by cases e), fun s' e => ?_⟩
    cases e
    exact sound
  · rename_i a rest _
    refine ⟨fun s' out e => ?_, fun s' e => by cases e⟩
    cases e
    obtain ⟨flag, state⟩ := hk a { s with buffer := rest }
    have flag' : (k a { s with buffer := rest }).finished = false := flag.trans off
    simp [Sound, flag', state]

/-- A round keeps the flag in step with the state. -/
lemma sound_parseNext (s : ParserState) (sound : Sound s) :
    (∀ s' out, parseNext s = .next s' out → Sound s') ∧ ∀ s', parseNext s = .stall s' →
      Sound s' := by
  unfold parseNext
  cases st : s.parseState with
  | magic => exact sound_consume (fun _ _ => ⟨rfl, nofun⟩) (by simp [st]) sound
  | processingKey valueType => exact sound_consume (fun _ _ => ⟨rfl, nofun⟩) (by simp [st]) sound
  | processingOpcode opcode =>
    have ne : s.parseState ≠ .finished := by simp [st]
    simp only [processOpcode]
    repeat' split
    all_goals first
      | exact sound_consume (fun _ _ => ⟨rfl, nofun⟩) ne sound
      | exact ⟨fun s' out e => (by cases e), fun s' e => by cases e⟩
  | opcode =>
    have off : s.finished = false := by simpa [Sound, st] using sound
    simp only [parseOpcode_eq]
    split
    · exact ⟨fun s' out e => (by cases e), fun s' e => by cases e; exact sound⟩
    · refine ⟨fun s' out e => ?_, fun s' e => by cases e⟩
      cases e
      simp only [Sound, off, opcodeState]
      repeat' split
      all_goals simp
  | processingValue valueType =>
    have off : s.finished = false := by simpa [Sound, st] using sound
    simp only [parseValue]
    repeat' split
    all_goals refine ⟨fun s' out e => ?_, fun s' e => ?_⟩ <;> cases e
    all_goals first
      | exact sound
      | simp [Sound, ParserState.valueDone, off]
  | waitingChecksum =>
    simp only [parseChecksum_eq]
    split
    · exact ⟨fun s' out e => (by cases e), fun s' e => by cases e; exact sound⟩
    · refine ⟨fun s' out e => (by cases e), fun s' e => ?_⟩
      cases e
      simp [Sound]
  | finished => exact ⟨fun s' out e => (by cases e), fun s' e => by cases e; exact sound⟩

/-- A new parser is sound. -/
lemma sound_new : Sound .new := by simp [Sound, ParserState.new]

/-- A run keeps the flag and the state in step. -/
lemma sound_run {s t : ParserState} {out : List RawCommand} (h : machine.run s = .ok (t, out))
    (sound : Sound s) : Sound t :=
  machine.run_preserves (P := Sound) (fun e h => (sound_parseNext _ h).1 _ _ e)
    (fun e h => (sound_parseNext _ h).2 _ e) h sound

/-- Absorbing input keeps the flag and the state in step. -/
lemma sound_absorb {s t : ParserState} {x : Bytes} {out : List RawCommand}
    (h : machine.absorb s x = .ok (t, out)) (sound : Sound s) : Sound t :=
  sound_run (s := s.push x) h sound

/-- What arrives behind the image stays in the buffer. -/
lemma absorb_finished {s : ParserState} (h : s.parseState = .finished) (x : Bytes) :
    machine.absorb s x = .ok (s.push x, []) := by
  refine machine.run_stall (s := s.push x) ?_
  show parseNext (s.push x) = _
  simp only [parseNext, push_parseState, h]

/-- An RDB image ends in these bytes: the RDB parser reads the checksum. -/
def EndsImage (bytes : Bytes) : Prop :=
  ∃ q out, feedData .new bytes = .ok (q, out) ∧ q.finished = true

/-- The bytes are an RDB image: the RDB parser reads the checksum and nothing is left. -/
def IsImage (bytes : Bytes) : Prop :=
  ∃ q out, feedData .new bytes = .ok (q, out) ∧ q.finished = true ∧ q.buffer = []

/-- An image does not end before its last byte. -/
lemma IsImage.not_ends {image : Bytes} (h : IsImage image) {k : Nat} (lt : k < image.length) :
    ¬ EndsImage (image.take k) := by
  rintro ⟨q, out, early, flag⟩
  obtain ⟨r, all, whole, -, isEmpty⟩ := h
  rw [feedData_absorb rfl] at early whole
  have last : q.parseState = .finished := (sound_absorb early sound_new).mp flag
  rw [← List.take_append_drop k image, machine.absorb_append, early] at whole
  simp only [absorb_finished last, after_ok, Except.ok.injEq, Prod.mk.injEq] at whole
  obtain ⟨rfl, -⟩ := whole
  have left : (image.drop k).length = 0 := by
    simp only [push_buffer, List.append_eq_nil_iff] at isEmpty
    simp [isEmpty.2]
  simp only [List.length_drop] at left
  omega

/-- A run to the end has found the opcode for it, and the checksum behind. -/
lemma run_finished {s q : ParserState} {out : List RawCommand} (h : machine.run s = .ok (q, out))
    (last : q.parseState = .finished) (isEmpty : q.buffer = []) (live : s.parseState ≠ .finished) :
    s.parseState = .waitingChecksum ∧ s.buffer.length = 8 ∨
      ∃ front checksum, s.buffer = front ++ opcodeEof :: checksum ∧ checksum.length = 8 := by
  induction hn : s.size using Nat.strongRecOn generalizing s out with
  | ind n ih =>
    have answer := parseNext_answer s
    cases e : parseNext s with
    | fault f =>
      rw [machine.run_fault e] at h
      cases h
    | stall t =>
      rw [machine.run_stall e] at h
      cases h
      rw [e] at answer
      cases answer with
      | wait => exact absurd last live
      | finish checksum long =>
        have all := List.drop_eq_nil_iff.mp isEmpty
        exact .inl ⟨checksum, by omega⟩
    | next s' o =>
      rw [machine.run_next e] at h
      obtain ⟨rest, h', -⟩ := after_eq_ok h
      rw [e] at answer
      cases answer with
      | consume _ _ suffix running eof =>
        obtain ⟨checksum, eight⟩ | ⟨front, checksum, split, eight⟩ :=
          ih s'.size (hn ▸ (lawful s).size_next e) h' running rfl
        · exact .inr ⟨[], s'.buffer, eof checksum, eight⟩
        · obtain ⟨before, whole⟩ := suffix
          exact .inr ⟨before ++ front, checksum, by rw [← whole, split, List.append_assoc], eight⟩

/-- An image ends with the opcode for the end of the file and a checksum of eight bytes. -/
theorem IsImage.eof {image : Bytes} (h : IsImage image) :
    ∃ front checksum, image = front ++ opcodeEof :: checksum ∧ checksum.length = 8 := by
  obtain ⟨q, out, fed, flag, isEmpty⟩ := h
  rw [feedData_absorb rfl] at fed
  have last : q.parseState = .finished := (sound_absorb fed sound_new).mp flag
  obtain ⟨magic, -⟩ | found := run_finished fed last isEmpty nofun
  · cases magic
  · exact found

/-- Nothing is no image to its end. -/
lemma not_endsImage_nil : ¬ EndsImage [] := by
  rintro ⟨q, out, a, flag⟩
  cases a
  cases flag

/-- Calls that do not reach the end of the image before the last one absorb their chunks. -/
lemma feedAll_absorbAll {s : ParserState} {chunks : List Bytes} (ne : ∀ c ∈ chunks, c ≠ [])
    (open0 : s.finished = false)
    (opens : ∀ k < chunks.flatten.length, ∀ q out,
      machine.absorb s (chunks.flatten.take k) = .ok (q, out) → q.finished = false) :
    feedAll s chunks = machine.absorbAll s chunks := by
  induction chunks generalizing s with
  | nil => rfl
  | cons chunk chunks ih =>
    rw [feedAll, feedData_absorb open0, Machine.absorbAll]
    cases a : machine.absorb s chunk with
    | error e => rfl
    | ok r =>
      obtain ⟨q, out⟩ := r
      -- there are chunks left, so the image is not finished with this one
      have later : feedAll q chunks = machine.absorbAll q chunks := by
        cases chunks with
        | nil => rfl
        | cons c cs =>
          have pos : 0 < c.length := List.length_pos_iff.mpr (ne c (by simp))
          refine ih (fun c hc => ne c (by simp [hc])) (opens chunk.length ?_ q out ?_) ?_
          · simp only [List.flatten_cons, List.length_append]
            omega
          · rw [List.flatten_cons, List.take_left, a]
          · intro k hk t more b
            refine opens (chunk.length + k) ?_ t (out ++ more) ?_
            · rw [List.flatten_cons, List.length_append]
              omega
            · rw [List.flatten_cons, List.take_length_add_append, machine.absorb_append, a]
              simp only [b, after_ok]
      simp only [later]
      cases machine.absorbAll q chunks <;> rfl

/-- The calls with the pieces of an image are one call with the image. -/
lemma feedAll_of_isImage {image : Bytes} (h : IsImage image) {chunks : List Bytes}
    (ne : ∀ c ∈ chunks, c ≠ []) (cut : chunks.flatten = image) :
    feedAll .new chunks = machine.absorb .new image := by
  have settled : machine.Settled .new := rfl
  rw [feedAll_absorbAll ne rfl, machine.absorbAll_flatten settled, cut]
  intro k lt q out a
  by_contra flag
  rw [cut] at lt a
  exact h.not_ends lt ⟨q, out, a, by simpa using flag⟩

/-- The calls with the pieces of what the parser refuses end with the same error. -/
lemma feedAll_of_error {bytes : Bytes} {f : Fault} (h : machine.absorb .new bytes = .error f)
    {chunks : List Bytes} (ne : ∀ c ∈ chunks, c ≠ []) (cut : chunks.flatten = bytes) :
    feedAll .new chunks = .error f := by
  have settled : machine.Settled .new := rfl
  rw [feedAll_absorbAll ne rfl, machine.absorbAll_flatten settled, cut, h]
  intro k lt q out a
  by_contra flag
  -- a finished parser refuses nothing
  have last : q.parseState = .finished := (sound_absorb a sound_new).mp (by simpa using flag)
  rw [← cut, ← List.take_append_drop k chunks.flatten, machine.absorb_append, a] at h
  simp only [absorb_finished last, after_ok] at h
  cases h

end Veidrodelis.RedisNif.Rdb
