import Veidrodelis.RedisNif.ReplicaMachine

/-!
# The switch to streaming

`stream_rdb_data` switches to the command stream when it has handed over as many bytes as were
declared. Whether the RDB parser has finished by then is not looked at. `switchSafe_iff` says for
which inputs, and which ways of cutting them, the switch nevertheless finds a finished parser with
nothing left over: `PayloadJudged`.
-/

namespace Veidrodelis.RedisNif.ReplicaParser
open Incremental

/-! ## Rounds -/

/-- The states in which the rounds of one call begin. -/
def rounds (s : ParserState) : List ParserState := trail parseNext (s.buffer.length + 1) s

/-- The states in which the rounds of all calls begin. -/
def roundsAll : ParserState → List Bytes → List ParserState
  | _, [] => []
  | s, chunk :: chunks =>
    rounds (s.push chunk) ++
      match feedData s chunk with
      | .ok (t, _) => roundsAll t chunks
      | .error _ => []

/-- If a round that begins in this state switches from the RDB payload to the command stream, the
RDB parser has finished with the last piece of the payload and has nothing left in its buffer. -/
def SwitchSafe (s : ParserState) : Prop :=
  ∀ s' events, parseNext s = .next s' events → s.state = .readingRdb → s'.state = .streaming →
    ∃ n p q out, Receiving s n p ∧
      Rdb.feedData p (s.buffer.take (n - s.rdbBytesRead)) = .ok (q, out) ∧
      q.finished = true ∧ q.buffer = []

/-- A productive round consumes something. -/
lemma parseNext_shorter {s s' : ParserState} {events : List Event}
    (e : parseNext s = .next s' events) : s'.buffer.length < s.buffer.length := by
  cases st : s.state with
  | waitingRdb =>
    have same : byteNext s = .next s' events := by simpa only [byteNext, st] using e
    exact (lawful s).size_next same
  | streaming =>
    have same : byteNext s = .next s' events := by simpa only [byteNext, st] using e
    exact (lawful s).size_next same
  | readingRdb =>
    simp only [parseNext, st] at e
    -- a round of the payload takes what is there, up to the end of the payload
    by_cases receiving : ∃ n p, Receiving s n p
    · obtain ⟨n, p, hr⟩ := receiving
      have missing := hr.missing
      by_cases isEmpty : s.buffer = []
      · rw [streamRdbData_empty hr isEmpty] at e
        cases e
      · have pos : 0 < s.buffer.length := List.length_pos_iff.mpr isEmpty
        rw [streamRdbData_eq hr isEmpty] at e
        split at e
        · cases e
        · cases e
          simp only [fed_buffer, List.length_drop]
          omega
    · obtain ⟨⟨f, hf⟩, hempty⟩ := streamRdbData_of_idle (fun n p hr => receiving ⟨n, p, hr⟩) st
      by_cases isEmpty' : s.buffer = []
      · obtain wait | ⟨f', hf'⟩ := hempty isEmpty'
        · rw [wait] at e
          cases e
        · have now : streamRdbData s = .fault f' := hf' s.buffer
          rw [now] at e
          cases e
      · have now : streamRdbData s = .fault f := hf s.buffer isEmpty'
        rw [now] at e
        cases e

/-- The rounds of a call behind a productive first one. -/
lemma rounds_next {s s' : ParserState} {events : List Event} (e : parseNext s = .next s' events) :
    rounds s = s :: rounds s' :=
  trail_next (fun s : ParserState => s.buffer.length) parseNext_shorter e

/-- A state whose round does not go on is the only one. -/
lemma rounds_stop {s : ParserState} (e : ∀ s' events, parseNext s ≠ .next s' events) :
    rounds s = [s] :=
  trail_stop e _

/-- Draining takes one round and goes on from there. -/
lemma drain_next {s s' : ParserState} {events : List Event} (e : parseNext s = .next s' events) :
    drain s = after events (drain s') := by
  unfold drain
  exact drive_next (fun s : ParserState => s.buffer.length) parseNext_shorter e

/-- Draining ends where a round waits. -/
lemma drain_stall {s s' : ParserState} (e : parseNext s = .stall s') : drain s = .ok (s', []) := by
  rw [drain, drive, e]

/-- Draining ends with the fault of a round. -/
lemma drain_fault {s : ParserState} {f : Fault} (e : parseNext s = .fault f) :
    drain s = .error f := by
  rw [drain, drive, e]

/-- A round that does not produce anything does not switch. -/
lemma switchSafe_of_stop {s : ParserState} (e : ∀ s' events, parseNext s ≠ .next s' events) :
    SwitchSafe s := fun s' events h => absurd h (e s' events)

/-- Only a parser that receives the payload switches. -/
lemma switchSafe_of_state {s : ParserState} (h : s.state ≠ .readingRdb) : SwitchSafe s :=
  fun _ _ _ st => absurd st h

/-- A parser of the command stream stays one. -/
lemma streaming_next {s s' : ParserState} {events : List Event} (e : parseNext s = .next s' events)
    (h : s.state = .streaming) : s'.state = .streaming := by
  simp only [parseNext, h] at e
  exact streaming_of_parseCommand h e

/-- A round that waits while streaming keeps streaming. -/
lemma streaming_stall {s s' : ParserState} (e : parseNext s = .stall s')
    (h : s.state = .streaming) : s'.state = .streaming := by
  simp only [parseNext, h, parseCommand_eq] at e
  split at e
  · cases e
  · cases e
    rfl
  · cases e

/-- All rounds from a streaming state are streaming. -/
lemma rounds_streaming {s : ParserState} (h : s.state = .streaming) :
    ∀ t ∈ rounds s, t.state = .streaming :=
  trail_preserves (P := fun s : ParserState => s.state = .streaming) streaming_next h

/-- Draining keeps streaming. -/
lemma streaming_drain {s t : ParserState} {events : List Event} (h : s.state = .streaming)
    (e : drain s = .ok (t, events)) : t.state = .streaming :=
  drive_preserves (P :=
    fun s : ParserState => s.state = .streaming) streaming_next streaming_stall e h

/-- A call returns the events of its rounds. -/
lemma feedData_of_drain {s t : ParserState} {chunk : Bytes} {events : List Event}
    (d : drain (s.push chunk) = .ok (t, events)) :
    feedData s chunk = .ok (t, Fed.ofEvents events) := by
  rw [feedData, d]

/-- What a call returns are the events of its rounds. -/
lemma drain_of_feedData {s t : ParserState} {chunk : Bytes} {fed : Fed}
    (f : feedData s chunk = .ok (t, fed)) :
    ∃ events, drain (s.push chunk) = .ok (t, events) ∧ fed = Fed.ofEvents events := by
  unfold feedData at f
  cases d : drain (s.push chunk) with
  | error e => simp [d] at f
  | ok q =>
    obtain ⟨u, events⟩ := q
    rw [d] at f
    cases f
    exact ⟨events, rfl, rfl⟩

/-! ## The pieces of a payload -/

/-- The verdict of the RDB parser on the next `missing` bytes of these chunks: it refuses them, or
it has finished with the last of them, or it had finished before and is called once more. -/
def Judged (p : Rdb.ParserState) (missing : Nat) (chunks : List Bytes) : Prop :=
  missing ≤ chunks.flatten.length →
    (∃ e, Rdb.machine.absorb p (chunks.flatten.take missing) = .error e) ∨
    (∃ q out, Rdb.machine.absorb p (chunks.flatten.take missing) = .ok (q, out) ∧
      q.finished = true ∧ q.buffer = []) ∨
    ∃ i q out, 0 < (chunks.take i).flatten.length ∧ (chunks.take i).flatten.length < missing ∧
      Rdb.machine.absorb p (chunks.take i).flatten = .ok (q, out) ∧ q.finished = true

/-- A call with nothing while the payload is received. -/
lemma reading_empty {s : ParserState} {n : Nat} {p : Rdb.ParserState} (hr : Receiving s n p)
    (isEmpty : s.buffer = []) : parseNext s = .stall s := by
  simp only [parseNext, hr.state, streamRdbData_empty hr isEmpty]

/-- The round of a call with a piece of the payload, and what may stand behind it. -/
lemma reading_round {s : ParserState} {n : Nat} {p : Rdb.ParserState} (hr : Receiving s n p)
    {piece rest : Bytes} (hb : s.buffer = piece ++ rest) (ne : piece ≠ [])
    (cut : s.rdbBytesRead + piece.length = n ∨ s.rdbBytesRead + piece.length < n ∧ rest = []) :
    parseNext s = match Rdb.feedData p piece with
      | .error e => .fault e
      | .ok (q, out) => .next (s.fed n piece.length q rest) (out.map .command) := by
  have pos : 0 < piece.length := List.length_pos_iff.mpr ne
  have here : s.buffer ≠ [] := by simp [hb, ne]
  have len : min s.buffer.length (n - s.rdbBytesRead) = piece.length := by
    rw [hb, List.length_append]
    obtain last | ⟨more, rfl⟩ := cut
    · omega
    · simp only [List.length_nil]
      omega
  have round := streamRdbData_eq hr here
  rw [len, hb, List.take_left, List.drop_left] at round
  simp only [parseNext, hr.state]
  exact round

/-- A call that is refused in its first round does not switch. -/
lemma safe_fault {s : ParserState} {chunk : Bytes} {f : Fault}
    (fault : parseNext (s.push chunk) = .fault f) (chunks : List Bytes) :
    ∀ t ∈ roundsAll s (chunk :: chunks), SwitchSafe t := by
  have stop : ∀ s' events, parseNext (s.push chunk) ≠ .next s' events := by simp [fault]
  simp only [roundsAll, rounds_stop stop, feedData, drain_fault fault, List.append_nil,
    List.mem_singleton, forall_eq]
  exact switchSafe_of_stop stop

/-- A finished RDB parser is called once more, or the payload does not go on. -/
lemma safe_finished {s : ParserState} {n : Nat} {p : Rdb.ParserState} (hr : Receiving s n p)
    (isEmpty : s.buffer = []) (flag : p.finished = true) (chunks : List Bytes) :
    ∀ t ∈ roundsAll s chunks, SwitchSafe t := by
  induction chunks with
  | nil => simp [roundsAll]
  | cons chunk chunks ih =>
    cases chunk with
    | nil =>
      have stall := reading_empty hr isEmpty
      have stop : ∀ s' events, parseNext s ≠ .next s' events := by simp [stall]
      simp only [roundsAll, push_nil, rounds_stop stop, feedData, drain_stall stall,
        List.singleton_append, List.mem_cons, forall_eq_or_imp]
      exact ⟨switchSafe_of_stop stop, ih⟩
    | cons b rest =>
      have hr' : Receiving (s.push (b :: rest)) n p := ⟨hr.state, hr.size, hr.parser, hr.missing⟩
      have fault : parseNext (s.push (b :: rest)) = .fault (.err "already_finished") := by
        simp only [parseNext, push_state, hr.state]
        rw [streamRdbData_eq hr' (by simp)]
        simp only [Rdb.feedData, flag, if_true]
      exact safe_fault fault chunks

/-- While streaming, the switch is behind and safe. -/
lemma safe_streaming {s : ParserState} (h : s.state = .streaming) (chunks : List Bytes) :
    ∀ t ∈ roundsAll s chunks, SwitchSafe t := by
  induction chunks generalizing s with
  | nil => simp [roundsAll]
  | cons chunk chunks ih =>
    intro t ht
    simp only [roundsAll, List.mem_append] at ht
    obtain ht | ht := ht
    · exact switchSafe_of_state (by rw [rounds_streaming (by exact h) t ht]; nofun)
    · cases f : feedData s chunk with
      | error e => simp [f] at ht
      | ok r =>
        obtain ⟨events, d, -⟩ := drain_of_feedData f
        rw [f] at ht
        exact ih (streaming_drain (by exact h) d) t ht

/-- An empty chunk changes no judgement. -/
lemma judged_nil (p : Rdb.ParserState) (missing : Nat) (chunks : List Bytes) :
    Judged p missing ([] :: chunks) ↔ Judged p missing chunks := by
  have same (i : Nat) : (([] :: chunks).take (i + 1)).flatten = (chunks.take i).flatten := by simp
  constructor
  · intro h le
    obtain fault | image | ⟨i, q, out, pos, lt, a, flag⟩ := h le
    · exact .inl fault
    · exact .inr (.inl image)
    · cases i with
      | zero => simp at pos
      | succ i => exact .inr (.inr ⟨i, q, out, by rwa [same] at pos, by rwa [same] at lt, a, flag⟩)
  · intro h le
    obtain fault | image | ⟨i, q, out, pos, lt, a, flag⟩ := h le
    · exact .inl fault
    · exact .inr (.inl image)
    · exact .inr (.inr ⟨i + 1, q, out, by rwa [same], by rwa [same], a, flag⟩)

/-- A piece that the RDB parser takes without finishing leaves the verdict to the rest. -/
lemma judged_cons {p q : Rdb.ParserState} {missing : Nat} {chunk : Bytes} {out : List RawCommand}
    (a : Rdb.machine.absorb p chunk = .ok (q, out)) (openq : q.finished = false)
    (lt : chunk.length < missing) (chunks : List Bytes) :
    Judged p missing (chunk :: chunks) ↔ Judged q (missing - chunk.length) chunks := by
  have front : (chunk :: chunks).flatten.take missing
      = chunk ++ chunks.flatten.take (missing - chunk.length) := by
    rw [List.flatten_cons, List.take_append, List.take_of_length_le (by omega)]
  have split (x : Bytes) : Rdb.machine.absorb p (chunk ++ x) =
    after out (Rdb.machine.absorb q x) := by
    rw [Rdb.machine.absorb_append, a]
  have take (i : Nat) : ((chunk :: chunks).take (i + 1)).flatten =
    chunk ++ (chunks.take i).flatten := by
    simp
  have le : missing ≤ (chunk :: chunks).flatten.length ↔
    missing - chunk.length ≤ chunks.flatten.length := by
    simp only [List.flatten_cons, List.length_append]
    omega
  constructor
  · intro h long
    have h := h (le.mpr long)
    rw [front, split] at h
    obtain ⟨e, fault⟩ | ⟨r, all, ok, done⟩ | ⟨i, r, all, pos, lt', ok, flag⟩ := h
    · exact .inl ⟨e, after_eq_error.mp fault⟩
    · obtain ⟨more, ok', -⟩ := after_eq_ok ok
      exact .inr (.inl ⟨r, more, ok', done⟩)
    · cases i with
      | zero => simp at pos
      | succ i =>
        rw [take, split] at ok
        rw [take, List.length_append] at lt'
        obtain ⟨more, ok', -⟩ := after_eq_ok ok
        refine .inr (.inr ⟨i, r, more, ?_, by omega, ok', flag⟩)
        -- the parser that has just taken the piece has not finished
        by_contra none
        have isEmpty : (chunks.take i).flatten = [] := List.length_eq_zero_iff.mp (by omega)
        have same := split []
        rw [List.append_nil, a] at same
        rw [isEmpty] at ok'
        simp only [ok', after_ok, Except.ok.injEq, Prod.mk.injEq] at same
        obtain ⟨rfl, -⟩ := same
        rw [openq] at flag
        cases flag
  · intro h long
    rw [front, split]
    obtain ⟨e, fault⟩ | ⟨r, all, ok, done⟩ | ⟨i, r, all, pos, lt', ok, flag⟩ := h (le.mp long)
    · exact .inl ⟨e, by rw [fault, after_error]⟩
    · exact .inr (.inl ⟨r, out ++ all, by rw [ok, after_ok], done⟩)
    · refine .inr (.inr ⟨i + 1, r, out ++ all, ?_, ?_, by rw [take, split, ok, after_ok], flag⟩)
      · rw [take, List.length_append]
        omega
      · rw [take, List.length_append]
        omega

/-- The chunk that holds the last byte of the payload. -/
lemma safe_last_piece {s : ParserState} {n : Nat} {p : Rdb.ParserState} (hr : Receiving s n p)
    (isEmpty : s.buffer = []) (open0 : p.finished = false) {chunk : Bytes}
    (long : n - s.rdbBytesRead ≤ chunk.length) (chunks : List Bytes) :
    (∀ t ∈ roundsAll s (chunk :: chunks), SwitchSafe t) ↔
      Judged p (n - s.rdbBytesRead) (chunk :: chunks) := by
  have missing := hr.missing
  have hr' : Receiving (s.push chunk) n p := ⟨hr.state, hr.size, hr.parser, hr.missing⟩
  have whole : (s.push chunk).buffer = chunk := by rw [push_buffer, isEmpty]; rfl
  have hb : (s.push chunk).buffer
      = chunk.take (n - s.rdbBytesRead) ++ chunk.drop (n - s.rdbBytesRead) := by
    rw [List.take_append_drop, whole]
  have len : (chunk.take (n - s.rdbBytesRead)).length = n - s.rdbBytesRead := by
    simp only [List.length_take]
    omega
  have cut : (s.push chunk).rdbBytesRead + (chunk.take (n - s.rdbBytesRead)).length = n := by
    rw [push_rdbBytesRead, len]
    omega
  have round := reading_round hr' hb (List.ne_nil_of_length_pos (by omega)) (.inl cut)
  rw [Rdb.feedData_absorb open0] at round
  have piece : (chunk :: chunks).flatten.take (n - s.rdbBytesRead) =
    chunk.take (n - s.rdbBytesRead) := by
    rw [List.flatten_cons, List.take_append_of_le_length long]
  have enough : n - s.rdbBytesRead ≤ (chunk :: chunks).flatten.length := by
    rw [List.flatten_cons, List.length_append]
    omega
  cases a : Rdb.machine.absorb p (chunk.take (n - s.rdbBytesRead)) with
  | error e =>
    have fault : parseNext (s.push chunk) = .fault e := round.trans (by rw [a])
    exact ⟨fun _ _ => .inl ⟨e, by rw [piece, a]⟩, fun _ => safe_fault fault chunks⟩
  | ok r =>
    obtain ⟨q, out⟩ := r
    have next := round.trans (by rw [a])
    have st : ((s.push chunk).fed n (chunk.take (n - s.rdbBytesRead)).length q
        (chunk.drop (n - s.rdbBytesRead))).state = .streaming := by
      rw [ParserState.fed, if_pos (by omega)]
    -- behind this round the state is that of the stream, where nothing is switched
    have later : ∀ t ∈ roundsAll s (chunk :: chunks), t = s.push chunk ∨ SwitchSafe t := by
      intro t ht
      rw [roundsAll, rounds_next next, List.cons_append, List.mem_cons, List.mem_append] at ht
      obtain rfl | ht | ht := ht
      · exact .inl rfl
      · exact .inr (switchSafe_of_state (by rw [rounds_streaming st t ht]; rintro ⟨⟩))
      · cases f : feedData s chunk with
        | error e => simp [f] at ht
        | ok r =>
          obtain ⟨events, d, -⟩ := drain_of_feedData f
          rw [drain_next next] at d
          obtain ⟨more, d', -⟩ := after_eq_ok d
          rw [f] at ht
          exact .inr (safe_streaming (streaming_drain st d') chunks t ht)
    have first : s.push chunk ∈ roundsAll s (chunk :: chunks) := by
      rw [roundsAll, rounds_next next]
      simp
    constructor
    · intro h _
      obtain ⟨n', p', q', out', hr1, ok, done⟩ := h _ first _ _ next hr.state st
      obtain rfl : n' = n := Option.some.inj (hr1.size.symm.trans hr'.size)
      obtain rfl : p' = p := Option.some.inj (hr1.parser.symm.trans hr'.parser)
      rw [Rdb.feedData_absorb open0, whole, push_rdbBytesRead] at ok
      exact .inr (.inl ⟨q', out', by rw [piece, ok], done⟩)
    · intro h t ht
      obtain rfl | safe := later t ht
      · intro s' events e _ _
        refine ⟨n, p, q, out, hr', ?_, ?_⟩
        · rw [Rdb.feedData_absorb open0, whole, push_rdbBytesRead, a]
        · obtain ⟨e, fault⟩ | ⟨q', out', ok, done⟩ | ⟨i, q', out', pos, lt, -⟩ := h enough
          · rw [piece, a] at fault
            cases fault
          · rw [piece, a] at ok
            cases ok
            exact done
          · -- a chunk before the last one would have to end inside the payload
            cases i with
            | zero => simp at pos
            | succ i =>
              simp only [List.take_succ_cons, List.flatten_cons, List.length_append] at lt
              omega
      · exact safe

/-- From the beginning of a payload on, the switch is safe exactly for the judged pieces. -/
lemma safe_reading {s : ParserState} {n : Nat} {p : Rdb.ParserState} (hr : Receiving s n p)
    (isEmpty : s.buffer = []) (open0 : p.finished = false) (chunks : List Bytes) :
    (∀ t ∈ roundsAll s chunks, SwitchSafe t) ↔ Judged p (n - s.rdbBytesRead) chunks := by
  induction chunks generalizing s p with
  | nil =>
    have missing := hr.missing
    refine ⟨fun _ le => ?_, fun _ => by simp [roundsAll]⟩
    simp only [List.flatten_nil, List.length_nil] at le
    omega
  | cons chunk chunks ih =>
    have missing := hr.missing
    have hr' : Receiving (s.push chunk) n p := ⟨hr.state, hr.size, hr.parser, hr.missing⟩
    by_cases isNil : chunk = []
    · subst isNil
      have stall := reading_empty hr isEmpty
      have stop : ∀ s' events, parseNext s ≠ .next s' events := by simp [stall]
      rw [judged_nil, ← ih hr isEmpty open0]
      simp only [roundsAll, push_nil, rounds_stop stop, feedData, drain_stall stall,
        List.singleton_append, List.mem_cons, forall_eq_or_imp, switchSafe_of_stop stop, true_and]
    -- the chunk ends inside the payload
    by_cases short : chunk.length < n - s.rdbBytesRead
    · have hb : (s.push chunk).buffer = chunk ++ [] := by
        rw [push_buffer, isEmpty, List.append_nil]; rfl
      have round := reading_round hr' hb isNil (.inr ⟨by rw [push_rdbBytesRead]; omega, rfl⟩)
      rw [Rdb.feedData_absorb open0] at round
      cases a : Rdb.machine.absorb p chunk with
      | error e =>
        have fault : parseNext (s.push chunk) = .fault e := round.trans (by rw [a])
        have judged : Judged p (n - s.rdbBytesRead) (chunk :: chunks) := by
          intro _
          refine .inl ⟨e, ?_⟩
          rw [List.flatten_cons, List.take_append, List.take_of_length_le (by omega),
            Rdb.machine.absorb_append, a]
        exact ⟨fun _ => judged, fun _ => safe_fault fault chunks⟩
      | ok r =>
        obtain ⟨q, out⟩ := r
        have lt : (s.push chunk).rdbBytesRead + chunk.length < n := by rw [push_rdbBytesRead]; omega
        have next : parseNext (s.push chunk)
            = .next ((s.push chunk).fed n chunk.length q []) (out.map .command) :=
              round.trans (by rw [a])
        have hq := hr'.fed lt q []
        have emptyq : ((s.push chunk).fed n chunk.length q []).buffer = [] := fed_buffer _ _ _ _ _
        have stall := reading_empty hq emptyq
        have stop : ∀ s' events, parseNext ((s.push chunk).fed n chunk.length q []) ≠
          .next s' events := by
          simp [stall]
        have fed : feedData s chunk
            = .ok ((s.push chunk).fed n chunk.length q [], Fed.ofEvents (out.map .command ++ [])) :=
          feedData_of_drain (by rw [drain_next next, drain_stall stall, after_ok])
        have here : SwitchSafe (s.push chunk) := by
          intro s' events e _ st
          rw [next] at e
          cases e
          rw [hq.state] at st
          cases st
        have rest : (∀ t ∈ roundsAll s (chunk :: chunks), SwitchSafe t) ↔
            ∀ t ∈ roundsAll ((s.push chunk).fed n chunk.length q []) chunks, SwitchSafe t := by
          simp only [roundsAll, rounds_next next, rounds_stop stop, fed, List.cons_append,
            List.mem_cons, forall_eq_or_imp, here, switchSafe_of_stop stop, List.nil_append,
            true_and]
        rw [rest]
        -- the image may be finished before the declared size is
        by_cases flag : q.finished = true
        · refine ⟨fun _ _ => ?_, fun _ => safe_finished hq emptyq flag chunks⟩
          refine .inr (.inr ⟨1, q, out, ?_, ?_, ?_, flag⟩)
          · simpa using List.length_pos_iff.mpr isNil
          · simpa using short
          · simpa using a
        · have openq : q.finished = false := by simpa using flag
          have left : n - ((s.push chunk).fed n chunk.length q []).rdbBytesRead
              = n - s.rdbBytesRead - chunk.length := by
            rw [fed_bytesRead lt, push_rdbBytesRead]
            omega
          rw [ih hq emptyq openq, left, judged_cons a openq short]
    · exact safe_last_piece hr isEmpty open0 (by omega) chunks

/-! ## The header -/

/-- What stands behind a header that was not complete before `x` arrived is a part of `x`. -/
lemma header_late {s s' s1 : ParserState} {x : Bytes} {events : List Event}
    (wait : parseRdbHeader s = .stall s') (e : parseRdbHeader (s.push x) = .next s1 events) :
    s1.buffer.length ≤ x.length := by
  -- the end of the line is not there yet, so it comes with the new bytes
  obtain ⟨-, missing⟩ := parseRdbHeader_stall wait
  obtain ⟨-, pos, size, found, rfl⟩ := parseRdbHeader_next e
  simp only [push_buffer, List.length_drop] at found ⊢
  by_cases here : skipNewlines s.buffer = []
  · rw [skipNewlines_append, here, List.nil_append]
    have := length_skipNewlines_le x
    omega
  · rw [skipNewlines_append_of_ne here] at found ⊢
    have late := findCrlf_late missing found
    rw [List.length_append]
    omega

/-- The input behind the header of a waiting parser is judged: the payload is refused by the RDB
parser or is one image, or it begins with an image and some chunk ends behind that image, inside the
payload. -/
def JudgedFrom (s : ParserState) (chunks : List Bytes) : Prop :=
  ∀ s1 events n, parseRdbHeader (s.push chunks.flatten) = .next s1 events →
    s1.rdbBulkSize = some n →
    0 < n → n ≤ s1.buffer.length →
    (∃ e, Rdb.feedData .new (s1.buffer.take n) = .error e) ∨ Rdb.IsImage (s1.buffer.take n) ∨
    ∃ i k, (chunks.take i).flatten.length + s1.buffer.length = chunks.flatten.length + k ∧ k < n ∧
      Rdb.EndsImage (s1.buffer.take k)

/-- The pieces of the payload behind the header are judged as the input is. -/
lemma judged_header {r : Bytes} {n : Nat} {chunk : Bytes} {chunks : List Bytes}
    (late : r.length ≤ chunk.length) :
    Judged .new n (r :: chunks) ↔
      (n ≤ (r ++ chunks.flatten).length →
        (∃ e, Rdb.feedData .new ((r ++ chunks.flatten).take n) = .error e) ∨
        Rdb.IsImage ((r ++ chunks.flatten).take n) ∨
        ∃ i k, ((chunk :: chunks).take i).flatten.length + (r ++ chunks.flatten).length
          = (chunk :: chunks).flatten.length + k ∧ k < n ∧
          Rdb.EndsImage ((r ++ chunks.flatten).take k)) := by
  have front (i : Nat) : (r ++ chunks.flatten).take (r ++ (chunks.take i).flatten).length
      = r ++ (chunks.take i).flatten := by
    have all : chunks.flatten = (chunks.take i).flatten ++ (chunks.drop i).flatten := by
      rw [← List.flatten_append, List.take_append_drop]
    rw [all, ← List.append_assoc, List.take_left]
  constructor
  · intro h long
    obtain fault | image | ⟨i, q, out, pos, lt, a, flag⟩ := h long
    · exact .inl fault
    · exact .inr (.inl image)
    · cases i with
      | zero => simp at pos
      | succ i =>
        simp only [List.take_succ_cons, List.flatten_cons] at pos lt a
        refine .inr (.inr ⟨i + 1, (r ++ (chunks.take i).flatten).length, ?_, lt, q, out, ?_, flag⟩)
        · simp only [List.take_succ_cons, List.flatten_cons, List.length_append]
          omega
        · rw [front]
          exact a
  · intro h long
    obtain fault | image | ⟨i, k, sum, lt, image⟩ := h long
    · exact .inl fault
    · exact .inr (.inl image)
    · cases i with
      | zero =>
        -- the end of the header is not behind the first chunk
        simp only [List.take_zero, List.flatten_nil, List.flatten_cons, List.length_append,
          List.length_nil] at sum
        obtain rfl : k = 0 := by omega
        exact absurd image Rdb.not_endsImage_nil
      | succ i =>
        simp only [List.take_succ_cons, List.flatten_cons, List.length_append] at sum
        obtain rfl : k = (r ++ (chunks.take i).flatten).length := by
          rw [List.length_append]
          omega
        rw [front] at image
        obtain ⟨q, out, a, flag⟩ := image
        refine .inr (.inr ⟨i + 1, q, out, ?_, lt, a, flag⟩)
        by_contra none
        have isEmpty : r ++ (chunks.take i).flatten = [] := by
          refine List.length_eq_zero_iff.mp ?_
          simpa only [List.take_succ_cons, List.flatten_cons, Nat.pos_iff_ne_zero,
            not_not] using none
        rw [isEmpty] at a
        exact Rdb.not_endsImage_nil ⟨q, out, a, flag⟩

/-- While the header is waited for, the switch is safe exactly for the judged inputs. -/
lemma safe_waiting {s : ParserState} (st : s.state = .waitingRdb)
    (settled : parseRdbHeader s = .stall s) (chunks : List Bytes) :
    (∀ t ∈ roundsAll s chunks, SwitchSafe t) ↔ JudgedFrom s chunks := by
  induction chunks generalizing s with
  | nil =>
    refine ⟨fun _ s1 events n e => ?_, fun _ => by simp [roundsAll]⟩
    rw [List.flatten_nil, push_nil, settled] at e
    cases e
  | cons chunk chunks ih =>
    have here (t : ParserState) (ht : t.state = .waitingRdb) : parseNext t = parseRdbHeader t := by
      simp only [parseNext, ht]
    have byte (t : ParserState) (ht : t.state = .waitingRdb) : byteNext t = parseRdbHeader t := by
      simp only [byteNext, ht, here t ht]
    have pushed (t : ParserState) (ht : t.state = .waitingRdb) (x : Bytes) :
        byteNext (t.push x) = parseRdbHeader (t.push x) := byte _ ht
    have st' : (s.push chunk).state = .waitingRdb := st
    -- what the round says of the header on one chunk, it says on all of the input
    cases e : parseRdbHeader (s.push chunk) with
    | fault f =>
      have fault := (lawful _).fault_push ((byte _ st').trans e) chunks.flatten
      rw [← push_append, pushed s st] at fault
      refine ⟨fun _ s1 events n e' => ?_, fun _ => safe_fault ((here _ st').trans e) chunks⟩
      rw [List.flatten_cons, fault] at e'
      cases e'
    | stall s' =>
      have wait : s'.state = .waitingRdb := (header_waits e).trans st
      have settled' : parseRdbHeader s' = .stall s' := by
        have waits : byteNext s' = .stall s' := machine.settled_of_stall ((byte _ st').trans e)
        rwa [byte s' wait] at waits
      have later := (lawful _).stall_push ((byte _ st').trans e) chunks.flatten
      rw [← push_append, pushed s st, pushed s' wait, ← List.flatten_cons] at later
      have stop : ∀ s1 events, parseNext (s.push chunk) ≠ .next s1 events := by simp [here _ st', e]
      have fed : feedData s chunk = .ok (s', Fed.ofEvents []) :=
        feedData_of_drain (drain_stall ((here _ st').trans e))
      have rest : (∀ t ∈ roundsAll s (chunk :: chunks), SwitchSafe t) ↔
          ∀ t ∈ roundsAll s' chunks, SwitchSafe t := by
        simp only [roundsAll, rounds_stop stop, fed, List.singleton_append, List.mem_cons,
          forall_eq_or_imp, switchSafe_of_stop stop, true_and]
      rw [rest, ih wait settled']
      simp only [JudgedFrom, later]
      refine forall₅_congr fun s1 events n head _ => forall₂_congr fun _ _ => ?_
      -- the same piece of the payload, counted with this chunk or without it
      refine or_congr_right (or_congr_right ⟨?_, ?_⟩)
      · rintro ⟨i, k, sum, lt, image⟩
        refine ⟨i + 1, k, ?_, lt, image⟩
        simp only [List.take_succ_cons, List.flatten_cons, List.length_append]
        omega
      · rintro ⟨i, k, sum, lt, image⟩
        simp only [List.flatten_cons, List.length_append] at sum
        cases i with
        | zero =>
          have late := header_late settled' head
          simp only [List.take_zero, List.flatten_nil, List.length_nil] at sum
          obtain rfl : k = 0 := by omega
          exact absurd image Rdb.not_endsImage_nil
        | succ i =>
          simp only [List.take_succ_cons, List.flatten_cons, List.length_append] at sum
          exact ⟨i, k, by omega, lt, image⟩
    | next s1 events =>
      -- the header ends in this chunk, and what is behind it is the first piece of the payload
      obtain ⟨rfl, reading, parser, read, n, size⟩ := header_state e
      have late := header_late settled e
      have next := (here _ st').trans e
      have head := (lawful _).next_push ((byte _ st').trans e) chunks.flatten
      rw [← push_append, pushed s st, ← List.flatten_cons] at head
      have split : ({ s1 with buffer := [] } : ParserState).push s1.buffer = s1 := rfl
      have fed : feedData s chunk = feedData { s1 with buffer := [] } s1.buffer := by
        rw [feedData, feedData, drain_next next, split, after_nil]
      have all : roundsAll s (chunk :: chunks)
          = s.push chunk :: roundsAll { s1 with buffer := [] } (s1.buffer :: chunks) := by
        rw [roundsAll, roundsAll, rounds_next next, fed, split, List.cons_append]
      have first : SwitchSafe (s.push chunk) := switchSafe_of_state (by rw [st']; rintro ⟨⟩)
      simp only [all, List.mem_cons, forall_eq_or_imp, first, true_and]
      have judged : JudgedFrom s (chunk :: chunks) ↔
          (0 < n → n ≤ (s1.buffer ++ chunks.flatten).length →
            (∃ e, Rdb.feedData .new ((s1.buffer ++ chunks.flatten).take n) = .error e) ∨
            Rdb.IsImage ((s1.buffer ++ chunks.flatten).take n) ∨
            ∃ i k, ((chunk :: chunks).take i).flatten.length + (s1.buffer ++ chunks.flatten).length
              = (chunk :: chunks).flatten.length + k ∧ k < n ∧
              Rdb.EndsImage ((s1.buffer ++ chunks.flatten).take k)) := by
        constructor
        · intro h
          exact h _ _ n head size
        · intro h t out m head' size'
          rw [head] at head'
          cases head'
          obtain rfl : n = m := Option.some.inj (size.symm.trans size')
          exact h
      rw [judged]
      by_cases pos : 0 < n
      · have hr : Receiving { s1 with buffer := [] } n .new :=
          ⟨reading, size, parser, by rw [read]; exact pos⟩
        rw [safe_reading hr rfl rfl]
        simp only [read, Nat.sub_zero, pos, true_imp_iff]
        exact judged_header late
      · -- a declared size of 0 is refused
        have refused : parseNext s1 = .fault (.err "rdb_already_complete") := by
          have within : s1.rdbBytesRead ≤ n := by omega
          have complete : n - s1.rdbBytesRead = 0 := by omega
          simp only [parseNext, reading, streamRdbData_within size within, complete, if_true]
        exact ⟨fun _ h => absurd h pos, fun _ => safe_fault (by rw [split]; exact refused) chunks⟩

/-- The payload declared by an input, if it has been received: it is refused by the RDB parser, or
it is one image, or it begins with an image and some chunk ends behind that image, `k` bytes into
the payload. -/
def PayloadJudged (chunks : List Bytes) : Prop :=
  ∀ size rest, declaredPayload chunks.flatten = some (size, rest) → 0 < size → size ≤ rest.length →
    (∃ e, Rdb.feedData .new (rest.take size) = .error e) ∨ Rdb.IsImage (rest.take size) ∨
    ∃ i k, (chunks.take i).flatten.length + rest.length = chunks.flatten.length + k ∧ k < size ∧
      Rdb.EndsImage (rest.take k)

/-- A new parser judges the payload from its first chunk. -/
lemma judgedFrom_new (chunks : List Bytes) :
    JudgedFrom (.new false) chunks ↔ PayloadJudged chunks := by
  constructor
  · intro h size rest declared
    unfold declaredPayload at declared
    split at declared
    · rename_i s1 events head
      obtain ⟨n, bulk, e⟩ := Option.map_eq_some_iff.mp declared
      cases e
      exact h s1 events size head bulk
    · cases declared
  · intro h s1 events n head bulk
    refine h n s1.buffer ?_
    simp only [declaredPayload, head, bulk, Option.map_some]

/-- Whatever is received, and however it is cut, the switch is safe exactly when the payload is
judged. -/
theorem switchSafe_iff (chunks : List Bytes) :
    (∀ t ∈ roundsAll (.new false) chunks, SwitchSafe t) ↔ PayloadJudged chunks := by
  rw [← judgedFrom_new]
  exact safe_waiting rfl rfl chunks

/-- A payload of nine bytes that holds the magic string only: the parser switches to the command
stream although the RDB parser waits for an opcode. -/
theorem switch_unsafe : ¬ ∀ t ∈ roundsAll (.new false) [ascii "$9\r\nREDIS0009"], SwitchSafe t := by
  let t : ParserState :=
    { ParserState.new false with
      buffer := ascii "REDIS0009"
      state := .readingRdb
      rdbParser := some .new
      rdbBulkSize := some 9 }
  intro h
  have visited : t ∈ roundsAll (.new false) [ascii "$9\r\nREDIS0009"] := by decide +kernel
  obtain ⟨n, p, q, out, hr, fed, flag, -⟩ :=
    h t visited (t.fed 9 9 { Rdb.ParserState.new with parseState := .opcode } []) []
      (by rfl) rfl rfl
  obtain rfl : 9 = n := Option.some.inj hr.size
  obtain rfl : .new = p := Option.some.inj hr.parser
  have waits : Rdb.feedData .new (ascii "REDIS0009")
      = .ok ({ Rdb.ParserState.new with parseState := .opcode }, []) := by rfl
  have piece : t.buffer.take (9 - t.rdbBytesRead) = ascii "REDIS0009" := by decide +kernel
  rw [piece, waits] at fed
  cases fed
  cases flag

/-- Every truncation of an image that is sent with its own length is taken for a whole one. -/
theorem truncated_unsafe {image : Bytes} (h : Rdb.IsImage image) {k : Nat} (pos : 0 < k)
    (lt : k < image.length) {chunks : List Bytes}
    (declared : declaredPayload chunks.flatten = some (k, image.take k)) :
    ¬ ∀ t ∈ roundsAll (.new false) chunks, SwitchSafe t := by
  rw [safe_waiting rfl rfl chunks, judgedFrom_new]
  intro judged
  have len : (image.take k).length = k := by rw [List.length_take]; omega
  have all : (image.take k).take k = image.take k := List.take_of_length_le (by omega)
  obtain ⟨e, refused⟩ | ⟨q, out, whole, flag, -⟩ | ⟨i, j, -, short, ends⟩ :=
    judged k _ declared pos (by omega)
  · -- what is refused is refused with the rest of the image behind it
    obtain ⟨q, out, whole, -, -⟩ := h
    rw [all, Rdb.feedData_absorb rfl] at refused
    rw [Rdb.feedData_absorb rfl, ← List.take_append_drop k image, Rdb.machine.absorb_append,
      refused] at whole
    cases whole
  · rw [all] at whole
    exact h.not_ends lt ⟨q, out, whole, flag⟩
  · rw [List.take_take, min_eq_left (by omega)] at ends
    exact h.not_ends (by omega) ends

end Veidrodelis.RedisNif.ReplicaParser
