import Veidrodelis.RedisNif.RdbMachine
import Veidrodelis.RedisNif.Resp

/-!
# The replica parser as an incremental machine

`stream_rdb_data` hands whatever has arrived of the payload to the RDB parser at once, so a round of
the replica parser depends on how much has arrived. `machine` is the same parser with the payload
handed over byte by byte (`streamRdbByte`), and it has the laws of `Incremental.Machine`. The two
agree as long as the RDB parser does not reach its end before the last byte of the payload
(`Fills`), because `RDBParser::feed_data` refuses to be called once more after that: `drain_eq` for
one call, `feedAll_absorbAll` for a sequence of calls. `feedAll_congr`: such an input may be cut
anywhere.
-/

namespace Veidrodelis.RedisNif.ReplicaParser
open Incremental

/-- Input is put behind the buffer. -/
@[simp] lemma push_buffer (s : ParserState) (x : Bytes) : (s.push x).buffer = s.buffer ++ x := rfl

/-- Input behind the buffer leaves the mode as it is. -/
@[simp] lemma push_state (s : ParserState) (x : Bytes) : (s.push x).state = s.state := rfl

/-- Input behind the buffer leaves the database as it is. -/
@[simp] lemma push_currentDb (s : ParserState) (x : Bytes) : (s.push x).currentDb = s.currentDb :=
  rfl

/-- Input behind the buffer leaves the RDB parser as it is. -/
@[simp] lemma push_rdbParser (s : ParserState) (x : Bytes) : (s.push x).rdbParser = s.rdbParser :=
  rfl

/-- Input behind the buffer leaves the declared size as it is. -/
@[simp] lemma push_rdbBulkSize (s : ParserState) (x : Bytes) :
    (s.push x).rdbBulkSize = s.rdbBulkSize := rfl

/-- Input behind the buffer leaves the count of the payload as it is. -/
@[simp] lemma push_rdbBytesRead (s : ParserState) (x : Bytes) :
    (s.push x).rdbBytesRead = s.rdbBytesRead := rfl

/-- No input changes nothing. -/
lemma push_nil (s : ParserState) : s.push [] = s := by
  simp [ParserState.push]

/-- Input may be pushed in two parts. -/
lemma push_append (s : ParserState) (x y : Bytes) : s.push (x ++ y) = (s.push x).push y := by
  simp [ParserState.push]

/-! ## The payload -/

/-- The state behind `count` more bytes of a payload of `rdbSize` bytes. -/
def ParserState.fed (s : ParserState) (rdbSize count : Nat) (rdbParser : Rdb.ParserState)
    (rest : Bytes) : ParserState :=
  if rdbSize ≤ s.rdbBytesRead + count then
    { s with buffer := rest, rdbParser := none, rdbBulkSize := none, rdbBytesRead := 0,
             state := .streaming }
  else
    { s with buffer := rest, rdbParser := some rdbParser, rdbBytesRead := s.rdbBytesRead + count }

/-- What is fed to the RDB parser is off the buffer. -/
@[simp] lemma fed_buffer (s : ParserState) (n k : Nat) (p : Rdb.ParserState) (rest : Bytes) :
    (s.fed n k p rest).buffer = rest := by
  unfold ParserState.fed
  split <;> rfl

/-- Input may be pushed before or after a part of the payload is fed. -/
lemma fed_push (s : ParserState) (n k : Nat) (p : Rdb.ParserState) (rest x : Bytes) :
    (s.fed n k p rest).push x = s.fed n k p (rest ++ x) := by
  unfold ParserState.fed
  split <;> rfl

/-- The payload is being received: its size, what is missing of it and its parser are known. -/
structure Receiving (s : ParserState) (rdbSize : Nat) (rdbParser : Rdb.ParserState) : Prop where
  state : s.state = .readingRdb
  size : s.rdbBulkSize = some rdbSize
  parser : s.rdbParser = some rdbParser
  missing : s.rdbBytesRead < rdbSize

/-- Before the end of the payload the mode stays. -/
lemma fed_of_lt {s : ParserState} {n k : Nat} (h : s.rdbBytesRead + k < n) (p : Rdb.ParserState)
    (rest : Bytes) : s.fed n k p rest =
      { s with buffer := rest, rdbParser := some p, rdbBytesRead := s.rdbBytesRead + k } :=
  if_neg (by omega)

/-- Before the end of the payload the count goes on. -/
lemma fed_bytesRead {s : ParserState} {n k : Nat} (h : s.rdbBytesRead + k < n) {p : Rdb.ParserState}
    {rest : Bytes} : (s.fed n k p rest).rdbBytesRead = s.rdbBytesRead + k := by
  rw [fed_of_lt h]

/-- Before the end of the payload the parser keeps receiving it. -/
lemma Receiving.fed {s : ParserState} {n k : Nat} {p : Rdb.ParserState} (hr : Receiving s n p)
    (h : s.rdbBytesRead + k < n) (q : Rdb.ParserState) (rest : Bytes) :
    Receiving (s.fed n k q rest) n q := by
  rw [fed_of_lt h]
  exact ⟨hr.state, hr.size, rfl, h⟩

/-- Two parts of the payload are one part. -/
lemma fed_fed {s : ParserState} {n i : Nat} (h : s.rdbBytesRead + i < n) (j : Nat)
    (p q : Rdb.ParserState) (r rest : Bytes) :
    (s.fed n i p r).fed n j q rest = s.fed n (i + j) q rest := by
  rw [fed_of_lt h]
  simp only [ParserState.fed, Nat.add_assoc]

/-- One call of `RDBParser::feed_data` with what has arrived. -/
lemma streamRdbData_eq {s : ParserState} {n : Nat} {p : Rdb.ParserState} (h : Receiving s n p)
    (ne : s.buffer ≠ []) :
    streamRdbData s =
      match Rdb.feedData p (s.buffer.take (min s.buffer.length (n - s.rdbBytesRead))) with
      | .error e => .fault e
      | .ok (q, out) =>
        .next (s.fed n (min s.buffer.length (n - s.rdbBytesRead)) q
          (s.buffer.drop (min s.buffer.length (n - s.rdbBytesRead)))) (out.map .command) := by
  have missing := h.missing
  have some0 : ¬ n - s.rdbBytesRead = 0 := by omega
  have some1 : ¬ s.buffer.length = 0 := by simpa using ne
  rw [streamRdbData_within h.size missing.le]
  simp only [h.parser, some0, some1, if_false]
  cases Rdb.feedData p (s.buffer.take (min s.buffer.length (n - s.rdbBytesRead))) with
  | error e => rfl
  | ok r =>
    obtain ⟨q, out⟩ := r
    simp only [ParserState.fed, h.size]
    split <;> rfl

/-- Without data nothing is handed over. -/
lemma streamRdbData_empty {s : ParserState} {n : Nat} {p : Rdb.ParserState} (h : Receiving s n p)
    (isEmpty : s.buffer = []) : streamRdbData s = .stall s := by
  have missing := h.missing
  have some0 : ¬ n - s.rdbBytesRead = 0 := by omega
  have none1 : s.buffer.length = 0 := by simp [isEmpty]
  rw [streamRdbData_within h.size missing.le, if_neg some0, if_pos none1]

/-- A state in which `stream_rdb_data` has nothing to receive faults, or waits, whatever arrives. -/
lemma streamRdbData_of_idle {s : ParserState} (h : ∀ n p, ¬ Receiving s n p)
    (reading : s.state = .readingRdb) :
    (∃ e, ∀ x, x ≠ [] → streamRdbData { s with buffer := x } = .fault e) ∧
      (s.buffer = [] → streamRdbData s = .stall s ∨
        ∃ e, ∀ x, streamRdbData { s with buffer := x } = .fault e) := by
  obtain n | ⟨size, n⟩ := Option.eq_none_or_eq_some s.rdbBulkSize
  · have all (x : Bytes) : streamRdbData { s with buffer := x } = .fault (.err "no_rdb_size") := by
      simp only [streamRdbData, n]
    exact ⟨⟨_, fun x _ => all x⟩, fun _ => .inr ⟨_, all⟩⟩
  by_cases within : s.rdbBytesRead ≤ size
  swap
  · have all (x : Bytes) : streamRdbData { s with buffer := x }
        = .fault (.panic "attempt to subtract with overflow") := by
      simp only [streamRdbData, n, usizeSub, within, if_false]
    exact ⟨⟨_, fun x _ => all x⟩, fun _ => .inr ⟨_, all⟩⟩
  by_cases complete : size - s.rdbBytesRead = 0
  · have all (x : Bytes) :
        streamRdbData { s with buffer := x } = .fault (.err "rdb_already_complete") := by
      rw [streamRdbData_within (s := { s with buffer := x }) n within]
      exact if_pos complete
    exact ⟨⟨_, fun x _ => all x⟩, fun _ => .inr ⟨_, all⟩⟩
  obtain p | ⟨parser, p⟩ := Option.eq_none_or_eq_some s.rdbParser
  · refine ⟨⟨.err "no_rdb_parser", fun x hx => ?_⟩, fun isEmpty => .inl ?_⟩
    · have some1 : ¬ x.length = 0 := by simpa using hx
      rw [streamRdbData_within (s := { s with buffer := x }) n within]
      simp only [p, complete, some1, if_false]
    · have none1 : s.buffer.length = 0 := by simp [isEmpty]
      rw [streamRdbData_within n within]
      simp only [complete, none1, if_false, if_true]
  · exact absurd ⟨reading, n, p, by omega⟩ (h size parser)

/-! ## The machine -/

/-- `stream_rdb_data` with the payload handed over byte by byte. -/
def streamRdbByte (s : ParserState) : ReplicaStep :=
  match s.buffer with
  | [] => streamRdbData s
  | b :: rest =>
    match streamRdbData { s with buffer := [b] } with
    | .next s' events => .next (s'.push rest) events
    | .stall s' => .stall (s'.push rest)
    | .fault e => .fault e

/-- `parse_next` with the payload handed over byte by byte. -/
def byteNext (s : ParserState) : ReplicaStep :=
  match s.state with
  | .readingRdb => streamRdbByte s
  | _ => parseNext s

abbrev Lawful (s : ParserState) : Prop :=
  Incremental.Lawful byteNext ParserState.push (fun s => s.buffer.length) s

/-- The round of a command is lawful. -/
lemma lawful_streaming {s : ParserState} (h : s.state = .streaming) : Lawful s := by
  have eq (x : Bytes) : byteNext (s.push x) = parseCommand (s.push x) := by
    simp only [byteNext, parseNext, push_state, h]
  have eq0 : byteNext s = parseCommand s := by simpa only [push_nil] using eq []
  cases a : parseArray (skipNewlines s.buffer) with
  | need =>
    have same : byteNext s = .stall { s with buffer := skipNewlines s.buffer } := by
      simp only [eq0, parseCommand_eq, a]
    refine .of_stall same fun x => ?_
    have eq' (t : ParserState) (ht : t.state = .streaming) : byteNext t = parseCommand t := by
      simp only [byteNext, parseNext, ht]
    rw [eq, eq' _ (by exact h)]
    simp only [parseCommand_eq, push_buffer]
    rw [skipNewlines_append]
    rfl
  | fault e =>
    -- the command has begun, so more bytes leave the newlines in front of it as they are
    have here : skipNewlines s.buffer ≠ [] := by
      intro isEmpty
      simp [isEmpty, parseArray_eq] at a
    refine .of_fault (e := e) (by simp only [eq0, parseCommand_eq, a]) fun x => ?_
    have a' := parseArray_stable.fault a x
    simp only [eq, parseCommand_eq, push_buffer, skipNewlines_append_of_ne here, a']
  | done r =>
    obtain ⟨elements, cursor⟩ := r
    have here : skipNewlines s.buffer ≠ [] := by
      intro isEmpty'
      simp [isEmpty', parseArray_eq] at a
    have used := parseArray_used a
    have le := length_skipNewlines_le s.buffer
    have same : byteNext s = .next { s with
        buffer := (skipNewlines s.buffer).drop cursor
        currentDb := (processCommand elements s.currentDb).1 }
        (processCommand elements s.currentDb).2 := by
      simp only [eq0, parseCommand_eq, a]
    refine .of_next same ?_ fun x => ?_
    · simp only [List.length_drop]
      omega
    · have a' := parseArray_stable.done a x
      simp only [eq, parseCommand_eq, push_buffer, skipNewlines_append_of_ne here, a',
        List.drop_append_of_le_length used.2]
      rfl

/-- The round of the header is lawful. -/
lemma lawful_waiting {s : ParserState} (h : s.state = .waitingRdb) : Lawful s := by
  have eq (x : Bytes) : byteNext (s.push x) = parseRdbHeader (s.push x) := by
    simp only [byteNext, parseNext, push_state, h]
  have eq0 : byteNext s = parseRdbHeader s := by simpa only [push_nil] using eq []
  -- newlines in front of the header are skipped, whatever comes behind them
  have later (x : Bytes) : byteNext (s.push x) =
      byteNext (({ s with buffer := skipNewlines s.buffer } : ParserState).push x) := by
    simp only [byteNext, parseNext, push_state, h, parseRdbHeader_eq, push_buffer]
    rw [skipNewlines_append]
    rfl
  have le := length_skipNewlines_le s.buffer
  cases b : skipNewlines s.buffer with
  | nil =>
    have same : byteNext s = .stall { s with buffer := skipNewlines s.buffer } := by
      simp only [eq0, parseRdbHeader_eq, b]
    exact .of_stall same later
  | cons first tail =>
    have here : skipNewlines s.buffer ≠ [] := by simp [b]
    have there (x : Bytes) : skipNewlines (s.buffer ++ x) = first :: (tail ++ x) := by
      rw [skipNewlines_append_of_ne here, b, List.cons_append]
    by_cases dollar : first ≠ 36
    · refine .of_fault (e := .err "expected_bulk_string_header") ?_ fun x => ?_
      · simp only [eq0, parseRdbHeader_eq, b, dollar, if_true, ne_eq, not_false_eq_true]
      · simp only [eq, parseRdbHeader_eq, push_buffer, there, dollar, if_true, ne_eq,
          not_false_eq_true]
    · cases c : findCrlf (first :: tail) with
      | none =>
        have same : byteNext s = .stall { s with buffer := skipNewlines s.buffer } := by
          simp only [eq0, parseRdbHeader_eq, b, dollar, if_false, c]
        exact .of_stall same later
      | some pos =>
        -- the header is whole, and more bytes only come behind it
        have bound := findCrlf_bound c
        have c' (x : Bytes) := findCrlf_append c x
        simp only [List.cons_append] at c'
        have line (x : Bytes) : (first :: (tail ++ x)).take pos = (first :: tail).take pos := by
          rw [← List.cons_append, List.take_append_of_le_length (by omega)]
        have behind (x : Bytes) :
            (first :: (tail ++ x)).drop (pos + 2) = (first :: tail).drop (pos + 2) ++ x := by
          rw [← List.cons_append, List.drop_append_of_le_length bound]
        cases n : parseUsize (((first :: tail).take pos).drop 1) with
        | none =>
          refine .of_fault (e := .err "invalid_size") ?_ fun x => ?_
          · simp only [eq0, parseRdbHeader_eq, b, dollar, if_false, c, n]
          · simp only [eq, parseRdbHeader_eq, push_buffer, there, dollar, if_false, c', line, n]
        | some size =>
          have same : byteNext s = .next { s with
              buffer := (first :: tail).drop (pos + 2)
              rdbParser := some Rdb.ParserState.new
              rdbBulkSize := some size
              rdbBytesRead := 0
              state := .readingRdb } [] := by
            simp only [eq0, parseRdbHeader_eq, b, dollar, if_false, c, n]
          refine .of_next same ?_ fun x => ?_
          · simp only [List.length_drop]
            rw [b] at le
            omega
          · simp only [eq, parseRdbHeader_eq, push_buffer, there, dollar, if_false, c', line, n,
              behind]
            rfl

/-- While the payload is read, a round takes one byte of it. -/
lemma byteNext_reading {s : ParserState} (h : s.state = .readingRdb) :
    byteNext s = streamRdbByte s := by
  simp only [byteNext, h]

/-- One byte of the payload. -/
lemma byteNext_receiving {s : ParserState} {n : Nat} {p : Rdb.ParserState} (h : Receiving s n p)
    {b : UInt8} {rest : Bytes} (hb : s.buffer = b :: rest) :
    byteNext s = match Rdb.feedData p [b] with
      | .error e => .fault e
      | .ok (q, out) => .next (s.fed n 1 q rest) (out.map .command) := by
  have missing := h.missing
  have h1 : Receiving { s with buffer := [b] } n p := ⟨h.state, h.size, h.parser, h.missing⟩
  have one : min 1 (n - s.rdbBytesRead) = 1 := by omega
  have eq := streamRdbData_eq h1 (by simp)
  simp only [List.length_singleton, one, List.take_succ_cons, List.take_zero, List.drop_succ_cons,
    List.drop_zero] at eq
  rw [byteNext_reading h.state, streamRdbByte]
  simp only [hb, eq]
  cases Rdb.feedData p [b] with
  | error e => rfl
  | ok r =>
    obtain ⟨q, out⟩ := r
    simp only [fed_push, List.nil_append]
    rfl

/-- The round of a payload byte is lawful. -/
lemma lawful_reading {s : ParserState} (h : s.state = .readingRdb) : Lawful s := by
  by_cases receiving : ∃ n p, Receiving s n p
  · obtain ⟨n, p, hr⟩ := receiving
    have hx (x : Bytes) : Receiving (s.push x) n p := ⟨hr.state, hr.size, hr.parser, hr.missing⟩
    cases b : s.buffer with
    | nil =>
      refine .of_wait ?_
      simp only [byteNext, h, streamRdbByte, b, streamRdbData_empty hr b]
    | cons first rest =>
      have bx (x : Bytes) : (s.push x).buffer = first :: (rest ++ x) := by
        rw [push_buffer, b, List.cons_append]
      have eq := byteNext_receiving hr b
      have eqx (x : Bytes) := byteNext_receiving (hx x) (bx x)
      cases f : Rdb.feedData p [first] with
      | error e =>
        refine .of_fault (e := e) (by rw [eq, f]) fun x => ?_
        rw [eqx, f]
      | ok r =>
        obtain ⟨q, out⟩ := r
        have same : byteNext s = .next (s.fed n 1 q rest) (out.map .command) := by rw [eq, f]
        refine .of_next same ?_ fun x => ?_
        · simp only [fed_buffer, b, List.length_cons]
          omega
        · rw [eqx, f, fed_push]
          rfl
  · -- no payload is expected, so the first byte that comes is refused
    have idle : ∀ n p, ¬ Receiving s n p := fun n p hr => receiving ⟨n, p, hr⟩
    obtain ⟨⟨e, he⟩, hempty⟩ := streamRdbData_of_idle idle h
    have cons {t : ParserState} {first : UInt8} {rest : Bytes} (ht : t.buffer = first :: rest)
        (same : ({ t with buffer := [first] } : ParserState) = { s with buffer := [first] }) :
        streamRdbByte t = .fault e := by
      simp only [streamRdbByte, ht, same, he [first] (by simp)]
    cases b : s.buffer with
    | nil =>
      obtain wait | ⟨e', he'⟩ := hempty b
      · exact .of_wait (by rw [byteNext_reading h, streamRdbByte, b, wait])
      · have all (x : Bytes) : byteNext (s.push x) = .fault e' := by
          rw [byteNext_reading (by exact h), streamRdbByte, push_buffer, b, List.nil_append]
          cases x with
          | nil => exact he' _
          | cons first rest =>
            have one : streamRdbData { s.push (first :: rest) with buffer := [first] } =
              .fault e' :=
              he' [first]
            simp only [one]
        exact .of_fault (by simpa only [push_nil] using all []) all
    | cons first rest =>
      have all (x : Bytes) : byteNext (s.push x) = .fault e := by
        rw [byteNext_reading (by exact h)]
        have hx : (s.push x).buffer = first :: (rest ++ x) := by
          rw [push_buffer, b, List.cons_append]
        exact cons hx rfl
      exact .of_fault (by simpa only [push_nil] using all []) all

/-- Every round of the byte-wise parser is lawful: one case for each mode. -/
theorem lawful (s : ParserState) : Lawful s := by
  cases h : s.state with
  | waitingRdb => exact lawful_waiting h
  | readingRdb => exact lawful_reading h
  | streaming => exact lawful_streaming h

/-- The replica parser with the payload handed over byte by byte. -/
def machine : Machine UInt8 ParserState Event Fault where
  step := byteNext
  push := ParserState.push
  size s := s.buffer.length
  push_nil := push_nil
  push_append := push_append
  lawful := lawful

/-! ## Images that fill their payload -/

/-- After these bytes the RDB parser has not finished. -/
def Unfinished (p : Rdb.ParserState) (bytes : Bytes) : Prop :=
  ∀ q out, Rdb.machine.absorb p bytes = .ok (q, out) → q.finished = false

/-- The RDB parser of a payload does not finish before the last byte of the payload. -/
def FillsPayload (s : ParserState) : Prop :=
  ∀ n p, Receiving s n p →
    p.finished = false ∧ ∀ k, s.rdbBytesRead + k < n → Unfinished p (s.buffer.take k)

/-- The same of a parser in any mode, about the payload that its unread input declares. -/
def Fills (s : ParserState) : Prop :=
  match s.state with
  | .waitingRdb => ∀ s' events, parseRdbHeader s = .next s' events → FillsPayload s'
  | .readingRdb => FillsPayload s
  | .streaming => True

/-- Handing over a part of the payload byte by byte is handing it over at once. -/
lemma run_receiving {s : ParserState} {n : Nat} {p : Rdb.ParserState} (h : Receiving s n p)
    {chunk rest : Bytes} (hb : s.buffer = chunk ++ rest) (ne : chunk ≠ [])
    (fits : s.rdbBytesRead + chunk.length ≤ n) (open0 : p.finished = false)
    (opens : ∀ k < chunk.length, Unfinished p (chunk.take k)) :
    machine.run s = match Rdb.feedData p chunk with
      | .error e => .error e
      | .ok (q, out) => after (out.map .command) (machine.run (s.fed n chunk.length q rest)) := by
  induction chunk generalizing s p with
  | nil => exact absurd rfl ne
  | cons b chunk ih =>
    have hb' : s.buffer = b :: (chunk ++ rest) := hb
    have step := byteNext_receiving h hb'
    rw [Rdb.feedData_absorb open0] at step ⊢
    cases chunk with
    | nil =>
      cases a : Rdb.machine.absorb p [b] with
      | error e => exact machine.run_fault (step.trans (by rw [a]))
      | ok r => exact machine.run_next (step.trans (by rw [a]; rfl))
    | cons c chunk =>
      simp only [List.length_cons] at fits opens
      have split : b :: c :: chunk = [b] ++ c :: chunk := rfl
      rw [split, Rdb.machine.absorb_append]
      cases a : Rdb.machine.absorb p [b] with
      | error e => exact machine.run_fault (step.trans (by rw [a]))
      | ok r =>
        obtain ⟨q, out⟩ := r
        -- the image is not finished inside the piece, so its bytes are taken one after the other
        have openq : q.finished = false := opens 1 (by omega) q out a
        have opens' : ∀ k < (c :: chunk).length, Unfinished q ((c :: chunk).take k) := by
          intro k hk r out' e
          refine opens (k + 1) (by simp only [List.length_cons] at hk; omega) r (out ++ out') ?_
          have split' : (b :: c :: chunk).take (k + 1) = [b] ++ (c :: chunk).take k := rfl
          rw [split', Rdb.machine.absorb_append, a]
          simp only [e, after_ok]
        have one : s.rdbBytesRead + 1 < n := by omega
        have run1 : machine.run s
            = after (out.map .command) (machine.run (s.fed n 1 q (c :: chunk ++ rest))) :=
          machine.run_next (step.trans (by rw [a]))
        have run2 := ih (h.fed one q (c :: chunk ++ rest)) (fed_buffer _ _ _ _ _) (by simp)
          (by rw [fed_bytesRead one]; simp only [List.length_cons]; omega) openq opens'
        rw [run1, run2, Rdb.feedData_absorb openq]
        dsimp only
        cases Rdb.machine.absorb q (c :: chunk) with
        | error e => rfl
        | ok r =>
          obtain ⟨t, out'⟩ := r
          simp only [fed_fed one, after_ok, List.map_append, after_after, List.length_append,
            List.length_singleton]

/-- What has been handed over leaves a payload that fills up its rest. -/
lemma FillsPayload.fed {s : ParserState} {n : Nat} {p q : Rdb.ParserState} {chunk rest : Bytes}
    {out : List RawCommand} (h : FillsPayload s) (hr : Receiving s n p)
    (hb : s.buffer = chunk ++ rest) (a : Rdb.machine.absorb p chunk = .ok (q, out)) :
    Fills (s.fed n chunk.length q rest) := by
  by_cases last : n ≤ s.rdbBytesRead + chunk.length
  · simp only [ParserState.fed, if_pos last, Fills]
  · have lt : s.rdbBytesRead + chunk.length < n := by omega
    have next := hr.fed lt q rest
    simp only [Fills, next.state]
    intro n' q' h'
    obtain rfl : n' = n := Option.some.inj (h'.size.symm.trans next.size)
    obtain rfl : q' = q := Option.some.inj (h'.parser.symm.trans next.parser)
    refine ⟨(h n' p hr).2 chunk.length lt q' out (by rw [hb, List.take_left, a]),
      fun k hk r out' e => ?_⟩
    rw [fed_bytesRead lt] at hk
    rw [fed_buffer] at e
    refine (h n' p hr).2 (chunk.length + k) (by omega) r (out ++ out') ?_
    rw [hb, List.take_length_add_append, Rdb.machine.absorb_append, a]
    simp only [e, after_ok]

/-- The parser keeps streaming behind a command. -/
lemma streaming_of_parseCommand {s s' : ParserState} {events : List Event}
    (h : s.state = .streaming) (e : parseCommand s = .next s' events) : s'.state = .streaming := by
  rw [parseCommand_eq] at e
  split at e
  · cases e
  · cases e
  · cases e
    exact h

/-- Behind the header the payload is read. -/
lemma reading_of_parseRdbHeader {s s' : ParserState} {events : List Event}
    (e : parseRdbHeader s = .next s' events) : s'.state = .readingRdb := (header_state e).2.1

/-- A round with what has arrived so far is one or several rounds of the machine, and leaves a state
whose payload is filled as well. -/
lemma simulate {s : ParserState} (h : Fills s) :
    match parseNext s with
    | .stall s' => machine.run s = .ok (s', [])
    | .fault e => machine.run s = .error e
    | .next s' events => machine.run s = after events (machine.run s') ∧ Fills s' ∧
        s'.buffer.length < s.buffer.length := by
  -- outside of the payload a round is a round of the machine
  have plain (same : byteNext s = parseNext s)
      (fills : ∀ s' events, parseNext s = .next s' events → Fills s') :
      match parseNext s with
      | .stall s' => machine.run s = .ok (s', [])
      | .fault e => machine.run s = .error e
      | .next s' events => machine.run s = after events (machine.run s') ∧ Fills s' ∧
          s'.buffer.length < s.buffer.length := by
    cases e : parseNext s with
    | stall s' => exact machine.run_stall (same.trans e)
    | fault f => exact machine.run_fault (same.trans e)
    | next s' events =>
      exact ⟨machine.run_next (same.trans e), fills s' events e,
        (lawful s).size_next (same.trans e)⟩
  cases st : s.state with
  | waitingRdb =>
    refine plain (by simp only [byteNext, st]) fun s' events e => ?_
    simp only [parseNext, st] at e
    simp only [Fills, st] at h
    simp only [Fills, reading_of_parseRdbHeader e]
    exact h s' events e
  | streaming =>
    refine plain (by simp only [byteNext, st]) fun s' events e => ?_
    simp only [parseNext, st] at e
    simp only [Fills, streaming_of_parseCommand st e]
  | readingRdb =>
    have round : parseNext s = streamRdbData s := by simp only [parseNext, st]
    have bytes := byteNext_reading st
    by_cases isEmpty : s.buffer = []
    · have same : byteNext s = parseNext s := by rw [bytes, round, streamRdbByte, isEmpty]
      refine plain same fun s' events e => ?_
      have lt := (lawful s).size_next (same.trans e)
      simp [isEmpty] at lt
    · by_cases receiving : ∃ n p, Receiving s n p
      · obtain ⟨n, p, hr⟩ := receiving
        have missing := hr.missing
        have pos : 0 < s.buffer.length := List.length_pos_iff.mpr isEmpty
        simp only [Fills, st] at h
        obtain ⟨open0, opens⟩ := h n p hr
        have eq := streamRdbData_eq hr isEmpty
        generalize hm : min s.buffer.length (n - s.rdbBytesRead) = m at eq
        have hb : s.buffer = s.buffer.take m ++ s.buffer.drop m := (List.take_append_drop _ _).symm
        have len : (s.buffer.take m).length = m := by simp only [List.length_take]; omega
        -- the machine takes the payload byte by byte, and this round takes as much as has arrived
        have run := run_receiving hr hb (List.ne_nil_of_length_pos (by omega)) (by omega) open0
          fun k hk => by
            rw [List.take_take, min_eq_left (by omega)]
            exact opens k (by omega)
        rw [len] at run
        rw [round, eq]
        cases a : Rdb.feedData p (s.buffer.take m) with
        | error e => rw [run, a]
        | ok r =>
          obtain ⟨q, out⟩ := r
          rw [Rdb.feedData_absorb open0] at a
          refine ⟨by rw [run, Rdb.feedData_absorb open0, a], ?_, ?_⟩
          · have fills := FillsPayload.fed h hr hb a
            rwa [len] at fills
          · simp only [fed_buffer, List.length_drop]
            omega
      · obtain ⟨⟨e, he⟩, -⟩ := streamRdbData_of_idle (fun n p hr => receiving ⟨n, p, hr⟩) st
        have now : streamRdbData s = .fault e := he s.buffer isEmpty
        rw [round, now]
        refine machine.run_fault (bytes.trans ?_)
        cases b : s.buffer with
        | nil => exact absurd b isEmpty
        | cons first rest =>
          have one := he [first] (by simp)
          simp only [streamRdbByte, b, one]

/-- The rounds of one call are the rounds of the machine. -/
lemma drain_eq {s : ParserState} (h : Fills s) : drain s = machine.run s := by
  have all : ∀ fuel s, Fills s → s.buffer.length < fuel →
    drive parseNext fuel s = machine.run s := by
    intro fuel
    induction fuel with
    | zero => intro s _ lt; omega
    | succ fuel ih =>
      intro s h lt
      have sim := simulate h
      simp only [drive]
      cases e : parseNext s with
      | stall s' => simp only [e] at sim; exact sim.symm
      | fault f => simp only [e] at sim; exact sim.symm
      | next s' events =>
        simp only [e] at sim
        obtain ⟨run, fills, shorter⟩ := sim
        simp only [run, ih s' fills (by omega)]
        cases machine.run s' <;> rfl
  exact all _ s h (by omega)

/-! ## Calls one after another -/

/-- A round keeps the property of the payload. -/
lemma fills_byteNext {s s' : ParserState} {events : List Event} (h : Fills s)
    (e : byteNext s = .next s' events) : Fills s' := by
  cases st : s.state with
  | waitingRdb =>
    simp only [byteNext, parseNext, st] at e
    simp only [Fills, st] at h
    simp only [Fills, reading_of_parseRdbHeader e]
    exact h s' events e
  | streaming =>
    simp only [byteNext, parseNext, st] at e
    simp only [Fills, streaming_of_parseCommand st e]
  | readingRdb =>
    simp only [Fills, st] at h
    by_cases receiving : ∃ n p, Receiving s n p
    · obtain ⟨n, p, hr⟩ := receiving
      cases b : s.buffer with
      | nil =>
        have lt := (lawful s).size_next e
        simp [b] at lt
      | cons first rest =>
        rw [byteNext_receiving hr b, Rdb.feedData_absorb (h n p hr).1] at e
        cases a : Rdb.machine.absorb p [first] with
        | error f => rw [a] at e; cases e
        | ok r =>
          rw [a] at e
          cases e
          have b' : s.buffer = [first] ++ rest := b
          exact FillsPayload.fed h hr b' a
    · obtain ⟨⟨f, hf⟩, -⟩ := streamRdbData_of_idle (fun n p hr => receiving ⟨n, p, hr⟩) st
      cases b : s.buffer with
      | nil =>
        have lt := (lawful s).size_next e
        simp [b] at lt
      | cons first rest =>
        rw [byteNext_reading st, streamRdbByte, b] at e
        simp only [hf [first] (by simp)] at e
        cases e

/-- While the payload is received, the parser waits only for bytes, and changes nothing. -/
lemma reading_stall {s s' : ParserState} (st : s.state = .readingRdb) (e : byteNext s = .stall s') :
    s' = s := by
  cases b : s.buffer with
  | nil =>
    simp only [byteNext_reading st, streamRdbByte, b, streamRdbData, List.length_nil, if_true] at e
    repeat' split at e
    all_goals cases e
    rfl
  | cons first rest =>
    by_cases receiving : ∃ n p, Receiving s n p
    · obtain ⟨n, p, hr⟩ := receiving
      rw [byteNext_receiving hr b] at e
      split at e <;> cases e
    · obtain ⟨⟨f, hf⟩, -⟩ := streamRdbData_of_idle (fun n p hr => receiving ⟨n, p, hr⟩) st
      simp only [byteNext_reading st, streamRdbByte, b, hf [first] (by simp)] at e
      cases e

/-- A state in which the machine waits is filled by the same input as the one it is left in. -/
lemma fills_stall {s s' : ParserState} (e : byteNext s = .stall s') (y : Bytes)
    (h : Fills (s.push y)) : Fills (s'.push y) := by
  have later := (lawful s).stall_push e y
  cases st : s.state with
  | waitingRdb =>
    have st' : s'.state = .waitingRdb := by
      simp only [byteNext, parseNext, st] at e
      exact (header_waits e).trans st
    simp only [byteNext, push_state, st, st', parseNext] at later
    simp only [Fills, push_state, st, st'] at h ⊢
    rwa [← later]
  | streaming =>
    have st' : s'.state = .streaming := by
      simp only [byteNext, parseNext, st, parseCommand_eq] at e
      split at e
      · cases e
      · cases e
        rfl
      · cases e
    simp only [Fills, push_state, st']
  | readingRdb =>
    rwa [reading_stall st e]

/-- What holds of the payload with more input holds of it now. -/
lemma FillsPayload.of_push {s : ParserState} {y : Bytes} (h : FillsPayload (s.push y)) :
    FillsPayload s := by
  intro n p hr
  obtain ⟨open0, opens⟩ := h n p ⟨hr.state, hr.size, hr.parser, hr.missing⟩
  refine ⟨open0, fun k hk => ?_⟩
  have opens' := opens (min k s.buffer.length) (by simp only [push_rdbBytesRead]; omega)
  rwa [push_buffer, List.take_append_of_le_length (by omega), ← List.take_eq_take_min] at opens'

/-- What is filled with more input behind is filled. -/
lemma Fills.of_push {s : ParserState} {y : Bytes} (h : Fills (s.push y)) : Fills s := by
  cases st : s.state with
  | streaming => simp only [Fills, st]
  | readingRdb =>
    simp only [Fills, push_state, st] at h ⊢
    exact h.of_push
  | waitingRdb =>
    simp only [Fills, push_state, st] at h ⊢
    intro s' events e
    have here : byteNext s = .next s' events := by simpa only [byteNext, parseNext, st] using e
    have there := (lawful s).next_push here y
    simp only [byteNext, parseNext, push_state, st] at there
    exact (h _ _ there).of_push

/-- A run of the machine leaves what is still to come filled. -/
lemma fills_run {s t : ParserState} {events : List Event} (e : machine.run s = .ok (t, events))
    (y : Bytes) (h : Fills (s.push y)) : Fills (t.push y) :=
  machine.run_preserves (P := fun s => Fills (s.push y))
    (fun e h => fills_byteNext h ((lawful _).next_push e y)) (fun e h => fills_stall e y h) e h

/-- The commands of events, one part after the other. -/
lemma commandsOf_append (a b : List Event) : commandsOf (a ++ b) = commandsOf a ++ commandsOf b :=
  List.filterMap_append

/-- The results of events, one part after the other. -/
lemma Fed.ofEvents_append (a b : List Event) :
    Fed.ofEvents (a ++ b) = (Fed.ofEvents a).append (Fed.ofEvents b) := by
  simp only [Fed.ofEvents, Fed.append, commandsOf_append, Fed.mk.injEq, true_and]
  constructor <;> simp

/-- What a call returns for the rounds it made. -/
def returned : Except Fault (ParserState × List Event) → Except Fault (ParserState × Fed)
  | .ok (t, events) => .ok (t, Fed.ofEvents events)
  | .error e => .error e

/-- One call is a run of the machine. -/
lemma feedData_absorb {s : ParserState} {chunk : Bytes} (h : Fills (s.push chunk)) :
    feedData s chunk = returned (machine.absorb s chunk) := by
  have now : drain (s.push chunk) = machine.absorb s chunk := drain_eq h
  rw [feedData, now]
  cases machine.absorb s chunk <;> rfl

/-- The calls with the chunks are runs of the machine on them. -/
theorem feedAll_absorbAll {s : ParserState} {chunks : List Bytes}
    (h : Fills (s.push chunks.flatten)) :
    feedAll s chunks = returned (machine.absorbAll s chunks) := by
  induction chunks generalizing s with
  | nil => rfl
  | cons chunk chunks ih =>
    rw [List.flatten_cons, push_append] at h
    rw [feedAll, feedData_absorb h.of_push, Machine.absorbAll]
    cases a : machine.absorb s chunk with
    | error e => rfl
    | ok r =>
      obtain ⟨t, events⟩ := r
      simp only [returned, ih (fills_run a _ h)]
      cases machine.absorbAll t chunks with
      | error e => rfl
      | ok r =>
        obtain ⟨u, more⟩ := r
        simp only [after_ok, Fed.ofEvents_append]

/-! ## Declared payloads -/

/-- The RDB payload declared by an input: its size and what stands behind the header. -/
def declaredPayload (input : Bytes) : Option (Nat × Bytes) :=
  match parseRdbHeader ((ParserState.new false).push input) with
  | .next s _ => s.rdbBulkSize.map fun size => (size, s.buffer)
  | _ => none

/-- A parser in front of a payload of this size. -/
def inFront (size : Nat) (buffer : Bytes) : ParserState where
  buffer := buffer
  state := .readingRdb
  currentDb := 0
  rdbParser := some .new
  rdbBulkSize := some size
  rdbBytesRead := 0

/-- The round that reads the header. -/
lemma parseRdbHeader_declared {input rest : Bytes} {size : Nat}
    (declared : declaredPayload input = some (size, rest)) :
    parseRdbHeader ((ParserState.new false).push input) = .next (inFront size rest) [] := by
  cases e : parseRdbHeader ((ParserState.new false).push input) with
  | stall s => simp [declaredPayload, e] at declared
  | fault f => simp [declaredPayload, e] at declared
  | next s events =>
    obtain ⟨rfl, pos, n, -, rfl⟩ := parseRdbHeader_next e
    simp only [declaredPayload, e, Option.map_some, Option.some.injEq, Prod.mk.injEq] at declared
    obtain ⟨rfl, rfl⟩ := declared
    rfl

/-- The declared size does not go beyond the image: no image ends before the last declared byte. -/
def DeclaresImage (input : Bytes) : Prop :=
  ∀ size rest, declaredPayload input = some (size, rest) → ∀ k < size, ¬ Rdb.EndsImage (rest.take k)

/-- The declared size is right when as many bytes behind the header are an image. -/
lemma declaresImage_of_image {input image stream : Bytes} {size : Nat}
    (declared : declaredPayload input = some (size, image ++ stream)) (len : image.length = size)
    (h : Rdb.IsImage image) : DeclaresImage input := by
  intro size' rest e k lt
  rw [declared] at e
  cases e
  rw [List.take_append_of_le_length (by omega)]
  exact h.not_ends (by omega)

/-- What the machine asks of the payload of a new parser. -/
lemma fills_of_declaresImage {input : Bytes} (h : DeclaresImage input) :
    Fills ((ParserState.new false).push input) := by
  intro s' events e n p hr
  have header := e
  obtain ⟨-, -, fresh, read, -⟩ := header_state e
  obtain rfl : .new = p := Option.some.inj (fresh.symm.trans hr.parser)
  refine ⟨rfl, fun k hk q out a => ?_⟩
  have declared : declaredPayload input = some (n, s'.buffer) := by
    simp only [declaredPayload, header, hr.size, Option.map_some]
  have lt : k < n := by rw [read] at hk; omega
  by_contra flag
  exact h n s'.buffer declared k lt ⟨q, out, a, by simpa using flag⟩

/-- The calls with any cutting of an input are one call with the whole of it. -/
lemma feedAll_flatten {s : ParserState} (settled : machine.Settled s) {chunks : List Bytes}
    (h : Fills (s.push chunks.flatten)) :
    feedAll s chunks = returned (machine.absorb s chunks.flatten) := by
  rw [feedAll_absorbAll h, machine.absorbAll_flatten settled]

/-- Two ways of cutting the same input into chunks make no difference: if one is refused, the other
is refused for the same reason, and else the commands, the flags and the final parser state are the
same. -/
theorem feedAll_congr {input : Bytes} (h : DeclaresImage input) {cs ds : List Bytes}
    (hc : cs.flatten = input) (hd : ds.flatten = input) :
    feedAll (.new false) cs = feedAll (.new false) ds := by
  have settled : machine.Settled (.new false) := rfl
  have fills := fills_of_declaresImage h
  rw [feedAll_flatten settled (by rwa [hc]), feedAll_flatten settled (by rwa [hd]), hc, hd]

end Veidrodelis.RedisNif.ReplicaParser
