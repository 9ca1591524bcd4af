import Veidrodelis.RedisNif.Switch

/-!
# What a replica parser has received

`Received bytes p rdb events` says what stands behind the state `p` of a parser that was started
with an RDB transfer and has accepted `bytes`: it is still in the header, or inside the payload, or
behind it, where it is the parser that was started without a transfer and has read the stream bytes
alone. `received_feedData` is the step of one call. Nothing is asked of the image here: the commands
`rdb` are whatever the RDB parser made of it.
-/

namespace Veidrodelis.RedisNif.ReplicaParser
open Incremental

/-! ## The stream behind the payload -/

/-- What stands behind the declared payload, once it is there as a whole. -/
def behindPayload (input : Bytes) : Option Bytes :=
  match declaredPayload input with
  | some (size, rest) => if size ≤ rest.length then some (rest.drop size) else none
  | none => none

/-- The header that is read declares the payload. -/
lemma declaredPayload_of_header {input : Bytes} {s : ParserState} {events : List Event} {size : Nat}
    (e : parseRdbHeader ((ParserState.new false).push input) = .next s events)
    (n : s.rdbBulkSize = some size) : declaredPayload input = some (size, s.buffer) := by
  simp only [declaredPayload, e, n, Option.map_some]

/-- More input behind the header changes nothing in front of it. -/
lemma declaredPayload_append {input rest : Bytes} {size : Nat}
    (h : declaredPayload input = some (size, rest)) (x : Bytes) :
    declaredPayload (input ++ x) = some (size, rest ++ x) := by
  cases e : parseRdbHeader ((ParserState.new false).push input) with
  | stall s => simp [declaredPayload, e] at h
  | fault f => simp [declaredPayload, e] at h
  | next s events =>
    obtain ⟨-, -, -, -, n, hn⟩ := header_state e
    rw [declaredPayload_of_header e hn] at h
    cases h
    have here : byteNext ((ParserState.new false).push input) = .next s events := e
    have there := (lawful _).next_push here x
    rw [← push_append] at there
    exact declaredPayload_of_header (s := s.push x) there hn

/-- What stands behind the payload grows with the input. -/
lemma behindPayload_append {input stream : Bytes} (h : behindPayload input = some stream)
    (x : Bytes) : behindPayload (input ++ x) = some (stream ++ x) := by
  cases d : declaredPayload input with
  | none => simp [behindPayload, d] at h
  | some r =>
    obtain ⟨size, rest⟩ := r
    simp only [behindPayload, d] at h
    split at h
    · rename_i inside
      cases h
      have inside' : size ≤ (rest ++ x).length := by
        rw [List.length_append]
        omega
      simp only [behindPayload, declaredPayload_append d x, inside', if_true,
        List.drop_append_of_le_length inside]
    · cases h

/-! ## Received bytes -/

inductive Received : Bytes → ParserState → List RawCommand → List Event → Prop where
  | waiting {input : Bytes} {p : ParserState}
      (h : parseRdbHeader ((ParserState.new false).push input) = .stall p) : Received input p [] []
  | reading {input rest : Bytes} {size : Nat} {p : ParserState} {q : Rdb.ParserState}
      {rdb : List RawCommand} (declared : declaredPayload input = some (size, rest))
      (receiving : Receiving p size q) (isEmpty : p.buffer = []) (db : p.currentDb = 0)
      (read : p.rdbBytesRead = rest.length) : Received input p rdb []
  | streaming {input stream : Bytes} {p : ParserState} {rdb : List RawCommand} {events : List Event}
      (behind : behindPayload input = some stream)
      (run : machine.absorb (.new true) stream = .ok (p, events)) : Received input p rdb events

/-- A new parser has received nothing. -/
lemma received_nil : Received [] (.new false) [] [] := .waiting rfl

/-- A parser in the command stream stays there. -/
lemma streaming_absorb {s t : ParserState} {x : Bytes} {events : List Event}
    (h : s.state = .streaming) (e : machine.absorb s x = .ok (t, events)) :
    t.state = .streaming := by
  have fills : Fills (s.push x) := by simp only [Fills, push_state, h]
  have same : drain (s.push x) = machine.absorb s x := drain_eq fills
  exact streaming_drain (s := s.push x) h (same.trans e)

/-- A parser streams exactly when the payload is there as a whole. -/
lemma Received.streaming_iff {input : Bytes} {p : ParserState} {rdb : List RawCommand}
    {events : List Event} (h : Received input p rdb events) :
    p.state = .streaming ↔ (behindPayload input).isSome := by
  cases h with
  | waiting h =>
    have absent : declaredPayload input = none := by simp only [declaredPayload, h]
    have st : p.state = .waitingRdb := header_waits h
    simp [behindPayload, absent, st]
  | @reading rest size _ _ _ declared receiving empty db read =>
    have missing := receiving.missing
    have outside : ¬ size ≤ rest.length := by omega
    simp [behindPayload, declared, outside, receiving.state]
  | streaming behind run =>
    simp [behind, streaming_absorb rfl run]

/-- Behind the payload the parser is the one that reads the stream alone. -/
lemma Received.stream {input stream : Bytes} {p : ParserState} {rdb : List RawCommand}
    {events : List Event} (h : Received input p rdb events)
    (behind : behindPayload input = some stream) :
    machine.absorb (.new true) stream = .ok (p, events) := by
  have st : p.state = .streaming := h.streaming_iff.mpr (by simp [behind])
  cases h with
  | waiting h =>
    simp [behindPayload, declaredPayload, h] at behind
  | reading declared receiving => simp [receiving.state] at st
  | streaming behind' run =>
    rw [behind] at behind'
    cases behind'
    exact run

/-- Before the payload is there no stream event comes out. -/
lemma Received.silent {input : Bytes} {p : ParserState} {rdb : List RawCommand}
    {events : List Event} (h : Received input p rdb events) (behind : behindPayload input = none) :
    events = [] := by
  cases h with
  | waiting h => rfl
  | reading => rfl
  | streaming behind' => simp [behind] at behind'

/-! ## One call -/

/-- The rounds of a call that begins inside the payload: the payload goes on, or it ends and the
rest is read as stream. -/
lemma drain_receiving {s t : ParserState} {n : Nat} {q : Rdb.ParserState} {events : List Event}
    (hr : Receiving s n q) (db : s.currentDb = 0) (e : drain s = .ok (t, events)) :
    (s.rdbBytesRead + s.buffer.length < n ∧ ∃ (q' : Rdb.ParserState) (r : List RawCommand),
      Receiving t n q' ∧ t.buffer = [] ∧ t.currentDb = 0 ∧
      t.rdbBytesRead = s.rdbBytesRead + s.buffer.length ∧ events = r.map .command) ∨
    (n ≤ s.rdbBytesRead + s.buffer.length ∧ ∃ (r : List RawCommand) (stream : List Event),
      events = r.map .command ++ stream ∧
      machine.absorb (.new true) (s.buffer.drop (n - s.rdbBytesRead)) = .ok (t, stream)) := by
  have missing := hr.missing
  by_cases isEmpty : s.buffer = []
  · rw [drain_stall (reading_empty hr isEmpty)] at e
    cases e
    refine .inl ⟨by simp [isEmpty, missing], q, [], hr, isEmpty, db, by simp [isEmpty], rfl⟩
  by_cases last : n ≤ s.rdbBytesRead + s.buffer.length
  · -- the payload ends in the buffer, and what is behind it is read like a stream from its start
    refine .inr ⟨last, ?_⟩
    have cut : s.buffer =
      s.buffer.take (n - s.rdbBytesRead) ++ s.buffer.drop (n - s.rdbBytesRead) :=
      (List.take_append_drop _ _).symm
    have len : (s.buffer.take (n - s.rdbBytesRead)).length = n - s.rdbBytesRead := by
      rw [List.length_take]
      omega
    have round := reading_round hr cut (List.ne_nil_of_length_pos (by omega)) (.inl (by omega))
    cases f : Rdb.feedData q (s.buffer.take (n - s.rdbBytesRead)) with
    | error fault =>
      rw [f] at round
      rw [drain_fault round] at e
      cases e
    | ok result =>
      obtain ⟨q', r⟩ := result
      rw [f] at round
      rw [drain_next round] at e
      obtain ⟨stream, run, rfl⟩ := after_eq_ok e
      refine ⟨r, stream, rfl, ?_⟩
      have start : s.fed n (s.buffer.take (n - s.rdbBytesRead)).length q'
          (s.buffer.drop (n - s.rdbBytesRead)) =
          (ParserState.new true).push (s.buffer.drop (n - s.rdbBytesRead)) := by
        rw [ParserState.fed, if_pos (by omega)]
        simp [ParserState.push, ParserState.new, db]
      have fills : Fills ((ParserState.new true).push (s.buffer.drop (n - s.rdbBytesRead))) := by
        simp only [Fills, push_state, ParserState.new, if_true]
      rw [start, drain_eq fills] at run
      exact run
  · refine .inl ⟨by omega, ?_⟩
    have cut : s.buffer = s.buffer ++ [] := (List.append_nil _).symm
    have round := reading_round hr cut isEmpty (.inr ⟨by omega, rfl⟩)
    cases f : Rdb.feedData q s.buffer with
    | error fault =>
      rw [f] at round
      rw [drain_fault round] at e
      cases e
    | ok result =>
      obtain ⟨q', r⟩ := result
      rw [f] at round
      rw [drain_next round] at e
      have next := hr.fed (k := s.buffer.length) (by omega) q' []
      rw [drain_stall (reading_empty next (fed_buffer _ _ _ _ _))] at e
      cases e
      refine ⟨q', r, next, fed_buffer _ _ _ _ _, ?_, ?_, List.append_nil _⟩
      · rw [fed_of_lt (by omega)]
        exact db
      · exact fed_bytesRead (by omega)

/-- One accepted call: what came out of the RDB payload, then what came out of the stream. -/
theorem received_feedData {input chunk : Bytes} {p p' : ParserState} {rdb : List RawCommand}
    {events : List Event} {fed : Fed} (h : Received input p rdb events)
    (f : feedData p chunk = .ok (p', fed)) :
    ∃ r stream, Received (input ++ chunk) p' (rdb ++ r) (events ++ stream) ∧
      fed = Fed.ofEvents (r.map .command ++ stream) ∧ (p.state = .streaming → r = []) := by
  obtain ⟨out, d, rfl⟩ := drain_of_feedData f
  cases h with
  | waiting h =>
    have st : p.state = .waitingRdb := header_waits h
    have waiting : p.state ≠ .streaming := by rw [st]; decide
    -- the round on this chunk is the one of a new parser on all of the input
    have round : parseNext (p.push chunk) =
        parseRdbHeader ((ParserState.new false).push (input ++ chunk)) := by
      have here : byteNext ((ParserState.new false).push input) = .stall p := h
      have later := (lawful _).stall_push here chunk
      rw [← push_append] at later
      have left : byteNext (p.push chunk) = parseNext (p.push chunk) := by
        simp only [byteNext, parseNext, push_state, st]
      exact left.symm.trans later.symm
    cases e : parseRdbHeader ((ParserState.new false).push (input ++ chunk)) with
    | fault fault =>
      rw [drain_fault (round.trans e)] at d
      cases d
    | stall s =>
      rw [drain_stall (round.trans e)] at d
      cases d
      exact ⟨[], [], .waiting e, rfl, fun _ => rfl⟩
    | next s none =>
      obtain ⟨rfl, reading, parser, read, size, hsize⟩ := header_state e
      have declared := declaredPayload_of_header e hsize
      have db : s.currentDb = 0 := by
        obtain ⟨-, pos, n, -, rfl⟩ := parseRdbHeader_next e
        rfl
      rw [drain_next (round.trans e), after_nil] at d
      have nonzero : size ≠ 0 := by
        rintro rfl
        have fault : parseNext s = .fault (.err "rdb_already_complete") := by
          have within : s.rdbBytesRead ≤ 0 := read.le
          simp only [parseNext, reading, streamRdbData_within hsize within, Nat.zero_sub, if_true]
        rw [drain_fault fault] at d
        cases d
      have receiving : Receiving s size .new := ⟨reading, hsize, parser, by omega⟩
      -- the payload goes on behind this chunk, or ends in it
      obtain ⟨inside, q, r, hr, isEmpty, db', read', rfl⟩ | ⟨last, r, stream, rfl, run⟩ :=
        drain_receiving receiving db d
      · rw [read, Nat.zero_add] at read'
        refine ⟨r, [], .reading declared hr isEmpty db' read', ?_, fun st => absurd st waiting⟩
        rw [List.append_nil]
      · rw [read, Nat.zero_add] at last
        rw [read, Nat.sub_zero] at run
        refine ⟨r, stream, .streaming ?_ run, rfl, fun st => absurd st waiting⟩
        simp only [behindPayload, declared, last, if_true]
  | @reading rest size _ q _ declared receiving empty db read =>
    have hr : Receiving (p.push chunk) size q :=
      ⟨receiving.state, receiving.size, receiving.parser, receiving.missing⟩
    have buffer : (p.push chunk).buffer = chunk := by rw [push_buffer, empty, List.nil_append]
    have reads : (p.push chunk).rdbBytesRead = rest.length := read
    have reading : p.state ≠ .streaming := by
      rw [receiving.state]
      decide
    have declared' := declaredPayload_append declared chunk
    obtain ⟨inside, q', r, hr', empty', db', read', rfl⟩ | ⟨last, r, stream, rfl, run⟩ :=
      drain_receiving hr db d
    · rw [reads, buffer, ← List.length_append] at read'
      refine ⟨r, [], .reading declared' hr' empty' db' read', ?_, fun st => absurd st reading⟩
      rw [List.append_nil]
    · rw [reads, buffer] at run last
      have missing := receiving.missing
      refine ⟨r, stream, .streaming ?_ run, rfl, fun st => absurd st reading⟩
      have whole : size ≤ (rest ++ chunk).length := by
        rw [List.length_append]
        exact last
      -- what is behind the payload is all in this chunk
      have cut : (rest ++ chunk).drop size = chunk.drop (size - rest.length) := by
        rw [List.drop_append, List.drop_eq_nil_of_le (by omega), List.nil_append]
      simp only [behindPayload, declared', whole, if_true, cut]
  | streaming behind run =>
    have st := streaming_absorb rfl run
    have fills : Fills (p.push chunk) := by simp only [Fills, push_state, st]
    have more : machine.absorb p chunk = .ok (p', out) := (drain_eq fills).symm.trans d
    refine ⟨[], out, .streaming (behindPayload_append behind chunk) ?_, rfl, fun _ => rfl⟩
    rw [machine.absorb_append, run]
    simp only [more, after_ok]

/-- The same for a parser that was started without an RDB transfer. -/
lemma absorbed_feedData {input chunk : Bytes} {p p' : ParserState} {events : List Event} {fed : Fed}
    (h : machine.absorb (.new true) input = .ok (p, events))
    (f : feedData p chunk = .ok (p', fed)) :
    ∃ stream, machine.absorb (.new true) (input ++ chunk) = .ok (p', events ++ stream) ∧
      fed = Fed.ofEvents stream := by
  obtain ⟨out, d, rfl⟩ := drain_of_feedData f
  have st := streaming_absorb rfl h
  have fills : Fills (p.push chunk) := by simp only [Fills, push_state, st]
  have more : machine.absorb p chunk = .ok (p', out) := (drain_eq fills).symm.trans d
  refine ⟨out, ?_, rfl⟩
  rw [machine.absorb_append, h]
  simp only [more, after_ok]

end Veidrodelis.RedisNif.ReplicaParser
