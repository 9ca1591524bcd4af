import Veidrodelis.RedisNif.Replica

/-!
# Arrays of the command stream

The look `parse_command` takes at its buffer before it consumes anything: where the first CR LF is,
where the array at the front ends. `parseArray_stable` says that more data behind the array changes
neither its elements nor its end, `parseArray_used` that the array lies inside the buffer.
-/

namespace Veidrodelis.RedisNif
open Incremental

/-! ## Line ends -/

/-- A CRLF that is found is inside the buffer. -/
lemma findCrlf_bound {b : Bytes} {pos : Nat} (h : findCrlf b = some pos) : pos + 2 ≤ b.length := by
  induction b using findCrlf.induct generalizing pos with
  | case1 rest =>
    cases h
    simp
  | case2 => cases h
  | case3 first rest no ih =>
    rw [findCrlf.eq_3 _ _ no] at h
    cases e : findCrlf rest with
    | none => simp [e] at h
    | some p =>
      simp only [e, Option.map_some, Option.some.injEq] at h
      have := ih e
      simp only [List.length_cons]
      omega

/-- A CRLF that is found is found with more input. -/
lemma findCrlf_append {b : Bytes} {pos : Nat} (h : findCrlf b = some pos) (x : Bytes) :
    findCrlf (b ++ x) = some pos := by
  induction b using findCrlf.induct generalizing pos with
  | case1 rest => simpa [findCrlf] using h
  | case2 => cases h
  | case3 first rest no ih =>
    rw [findCrlf.eq_3 _ _ no] at h
    cases e : findCrlf rest with
    | none => simp [e] at h
    | some p =>
      simp only [e, Option.map_some, Option.some.injEq] at h
      have no' : ∀ tail, first = 13 → rest ++ x = 10 :: tail → False := by
        intro tail h13 htail
        cases rest with
        | nil => simp [findCrlf] at e
        | cons second rest =>
          simp only [List.cons_append, List.cons.injEq] at htail
          exact no rest h13 (by rw [htail.1])
      rw [List.cons_append, findCrlf.eq_3 _ _ no', ih e]
      simpa using h

/-- A line end that more input brings is not inside what was there before. -/
lemma findCrlf_late {b x : Bytes} {pos : Nat} (absent : findCrlf b = none)
    (h : findCrlf (b ++ x) = some pos) : b.length < pos + 2 := by
  induction b using findCrlf.induct generalizing pos with
  | case1 rest => simp [findCrlf] at absent
  | case2 => simp
  | case3 first rest no ih =>
    rw [findCrlf.eq_3 _ _ no, Option.map_eq_none_iff] at absent
    cases rest with
    | nil =>
      simp only [List.length_singleton]
      omega
    | cons second rest =>
      have no' : ∀ tail, first = 13 → (second :: rest) ++ x = 10 :: tail → False := by
        intro tail h13 htail
        simp only [List.cons_append, List.cons.injEq] at htail
        exact no rest h13 (by rw [htail.1])
      rw [List.cons_append, findCrlf.eq_3 _ _ no'] at h
      obtain ⟨p, found, rfl⟩ := Option.map_eq_some_iff.mp h
      have := ih absent found
      simp only [List.length_cons] at this ⊢
      omega

/-- A line without CR ends where the first CR LF stands. -/
lemma findCrlf_line {line : Bytes} (h : ∀ b ∈ line, b ≠ 13) (rest : Bytes) :
    findCrlf (line ++ 13 :: 10 :: rest) = some line.length := by
  induction line with
  | nil => rfl
  | cons first line ih =>
    have no : ∀ tail, first = 13 → line ++ 13 :: 10 :: rest = 10 :: tail → False :=
      fun _ h13 _ => h first (by simp) h13
    rw [List.cons_append, findCrlf.eq_3 _ _ no, ih fun b hb => h b (by simp [hb])]
    simp

/-- Newlines end where another byte stands, whatever comes behind it. -/
lemma skipNewlines_append_of_ne {b : Bytes} (h : skipNewlines b ≠ []) (x : Bytes) :
    skipNewlines (b ++ x) = skipNewlines b ++ x := by
  induction b with
  | nil => simp [skipNewlines] at h
  | cons first rest ih =>
    by_cases nl : first = 10 ∨ first = 13
    · simp only [List.cons_append, skipNewlines, nl, if_true] at h ⊢
      exact ih h
    · simp only [List.cons_append, skipNewlines, nl, if_false]

/-- Newlines are skipped from what is left when more input comes. -/
lemma skipNewlines_append (b x : Bytes) :
    skipNewlines (b ++ x) = skipNewlines (skipNewlines b ++ x) := by
  induction b with
  | nil => rfl
  | cons first rest ih =>
    by_cases nl : first = 10 ∨ first = 13
    · simp only [List.cons_append, skipNewlines, nl, if_true]
      exact ih
    · simp only [List.cons_append, skipNewlines, nl, if_false]

/-- Behind the newlines there are none. -/
lemma skipNewlines_idem (b : Bytes) : skipNewlines (skipNewlines b) = skipNewlines b := by
  simpa using (skipNewlines_append b []).symm

/-- Skipping newlines makes no buffer longer. -/
lemma length_skipNewlines_le (b : Bytes) : (skipNewlines b).length ≤ b.length := by
  induction b with
  | nil => simp [skipNewlines]
  | cons first rest ih =>
    unfold skipNewlines
    split
    · simp only [List.length_cons]
      omega
    · exact le_refl _

/-- A first byte that is no CR does not begin a line end. -/
lemma findCrlf_cons {first : UInt8} (ne : first ≠ 13) (tail : Bytes) :
    findCrlf (first :: tail) = (findCrlf tail).map (· + 1) :=
  findCrlf.eq_3 _ _ fun _ h13 _ => ne h13

namespace ReplicaParser

/-! ## The operations on the buffer

Each index, slice, advance and split of the replica parser is inside the buffer: what the parser
does is what it does with the operations on lists. -/

/-- `parse_rdb_header`. -/
lemma parseRdbHeader_eq (s : ParserState) :
    parseRdbHeader s =
      match skipNewlines s.buffer with
      | [] => .stall { s with buffer := [] }
      | b :: tail =>
        if b ≠ 36 then .fault (.err "expected_bulk_string_header")
        else
          match findCrlf (b :: tail) with
          | none => .stall { s with buffer := b :: tail }
          | some pos =>
            match parseUsize (((b :: tail).take pos).drop 1) with
            | none => .fault (.err "invalid_size")
            | some size =>
              .next { s with
                buffer := (b :: tail).drop (pos + 2)
                rdbParser := some Rdb.ParserState.new
                rdbBulkSize := some size
                rdbBytesRead := 0
                state := .readingRdb } [] := by
  have skip : skipLines s.buffer = .done () (skipNewlines s.buffer) := rfl
  rw [parseRdbHeader, rdbHeader, Reader.bind_done skip]
  cases skipNewlines s.buffer with
  | nil =>
    have wait : Reader.ensure (ε := Fault) 1 ([] : Bytes) = .need [] := rfl
    rw [Reader.bind_need wait]
  | cons b tail =>
    have there : Reader.ensure (ε := Fault) 1 (b :: tail) = .done () (b :: tail) := rfl
    have byte : byteAt 0 (b :: tail) = .done b (b :: tail) := rfl
    rw [Reader.bind_done there, Reader.bind_done byte]
    by_cases dollar : b ≠ 36
    · simp only [dollar, if_true, ne_eq, not_false_eq_true]
      rfl
    · simp only [dollar, if_false]
      obtain rfl : b = 36 := not_not.mp dollar
      have look : Reader.peek (ε := Fault) (fun buffer => .done (findCrlf buffer)) (36 :: tail)
          = .done (findCrlf (36 :: tail)) (36 :: tail) := rfl
      rw [Reader.bind_done look]
      cases found : findCrlf (36 :: tail) with
      | none => rfl
      | some pos =>
        -- the line end stands behind the dollar
        have bound := findCrlf_bound found
        rw [findCrlf_cons (by decide)] at found
        obtain ⟨before, -, rfl⟩ := Option.map_eq_some_iff.mp found
        have line : bytesAt 1 (before + 1) (36 :: tail)
            = .done (((36 :: tail).take (before + 1)).drop 1) (36 :: tail) := by
          rw [bytesAt, Reader.peek, slice_of_le (by omega) (by omega), List.drop_take]
          rfl
        dsimp only
        rw [Reader.bind_done line]
        cases parseUsize (((36 :: tail).take (before + 1)).drop 1) with
        | none => rfl
        | some size =>
          dsimp only
          rw [Reader.bind_done (advance_of_le bound)]
          rfl

/-- While the header is waited for, only line ends are consumed. -/
lemma parseRdbHeader_stall {s t : ParserState} (e : parseRdbHeader s = .stall t) :
    t = { s with buffer := skipNewlines s.buffer } ∧ findCrlf (skipNewlines s.buffer) = none := by
  rw [parseRdbHeader_eq] at e
  cases b : skipNewlines s.buffer with
  | nil =>
    rw [b] at e
    cases e
    exact ⟨rfl, rfl⟩
  | cons first tail =>
    rw [b] at e
    by_cases dollar : first ≠ 36
    · simp only [dollar, if_true, ne_eq, not_false_eq_true] at e
      cases e
    · cases c : findCrlf (first :: tail) with
      | none =>
        simp only [dollar, if_false, c] at e
        cases e
        exact ⟨rfl, rfl⟩
      | some pos =>
        simp only [dollar, if_false, c] at e
        split at e <;> cases e

/-- The state behind the header. -/
lemma parseRdbHeader_next {s t : ParserState} {events : List Event}
    (e : parseRdbHeader s = .next t events) :
    events = [] ∧ ∃ pos size, findCrlf (skipNewlines s.buffer) = some pos ∧
      t = { s with
        buffer := (skipNewlines s.buffer).drop (pos + 2)
        rdbParser := some Rdb.ParserState.new
        rdbBulkSize := some size
        rdbBytesRead := 0
        state := .readingRdb } := by
  rw [parseRdbHeader_eq] at e
  cases b : skipNewlines s.buffer with
  | nil =>
    rw [b] at e
    cases e
  | cons first tail =>
    rw [b] at e
    by_cases dollar : first ≠ 36
    · simp only [dollar, if_true, ne_eq, not_false_eq_true] at e
      cases e
    · cases c : findCrlf (first :: tail) with
      | none =>
        simp only [dollar, if_false, c] at e
        cases e
      | some pos =>
        simp only [dollar, if_false, c] at e
        split at e
        · cases e
        · cases e
          exact ⟨rfl, pos, _, rfl, rfl⟩

/-- What is known of the state behind the header. -/
lemma header_state {s s1 : ParserState} {events : List Event}
    (e : parseRdbHeader s = .next s1 events) :
    events = [] ∧ s1.state = .readingRdb ∧ s1.rdbParser = some .new ∧ s1.rdbBytesRead = 0 ∧
      ∃ n, s1.rdbBulkSize = some n := by
  obtain ⟨rfl, pos, size, -, rfl⟩ := parseRdbHeader_next e
  exact ⟨rfl, rfl, rfl, rfl, size, rfl⟩

/-- A parser that waits in the header keeps its mode. -/
lemma header_waits {s t : ParserState} (e : parseRdbHeader s = .stall t) : t.state = s.state := by
  obtain ⟨rfl, -⟩ := parseRdbHeader_stall e
  rfl

/-- `stream_rdb_data`, while not more has been read than there is. -/
lemma streamRdbData_within {s : ParserState} {rdbSize : Nat} (size : s.rdbBulkSize = some rdbSize)
    (within : s.rdbBytesRead ≤ rdbSize) :
    streamRdbData s =
      if rdbSize - s.rdbBytesRead = 0 then .fault (.err "rdb_already_complete")
      else if s.buffer.length = 0 then .stall s
      else
        let bytesToFeed := min s.buffer.length (rdbSize - s.rdbBytesRead)
        match s.rdbParser with
        | none => .fault (.err "no_rdb_parser")
        | some rdbParser =>
          match Rdb.feedData rdbParser (s.buffer.take bytesToFeed) with
          | .error e => .fault e
          | .ok (rdbParser, rdbCommands) =>
            let s := { s with buffer := s.buffer.drop bytesToFeed }
            let events := rdbCommands.map Event.command
            if rdbSize ≤ s.rdbBytesRead + bytesToFeed then
              .next { s with
                rdbParser := none
                rdbBulkSize := none
                rdbBytesRead := 0
                state := .streaming } events
            else .next { s with
                rdbParser := some rdbParser
                rdbBytesRead := s.rdbBytesRead + bytesToFeed } events := by
  set bytesToFeed := min s.buffer.length (rdbSize - s.rdbBytesRead) with amount
  have cut := Cut.splitTo_of_le (amount ▸ Nat.min_le_left s.buffer.length _)
  rcases parser : s.rdbParser with _ | rdbParser
  · simp only [streamRdbData, size, usizeSub_of_le within, ← amount, cut, parser]
  · rcases fed : Rdb.feedData rdbParser (s.buffer.take bytesToFeed) with _ | _
    · simp only [streamRdbData, size, usizeSub_of_le within, ← amount, cut, parser, fed]
    · simp only [streamRdbData, size, usizeSub_of_le within, ← amount, cut, parser, fed]

/-- An array of no elements is read at once. -/
lemma parseElements_zero (buffer : Bytes) (cursor : Nat) :
    parseElements buffer 0 cursor = .done ([], cursor) := rfl

/-- One round of the loop over the bulk strings. -/
lemma parseElements_succ (buffer : Bytes) (count cursor : Nat) :
    parseElements buffer (count + 1) cursor =
      match buffer.drop cursor with
      | [] => .need
      | b :: tail =>
        if b ≠ 36 then .fault (.err "expected_bulk_string")
        else
          match findCrlf tail with
          | none => .need
          | some pos =>
            match parseUsize (tail.take pos) with
            | none => .fault (.err "invalid_length")
            | some len => do
              let dataStart := cursor + 1 + pos + 2
              let dataEnd ← usizeAdd dataStart len
              let next ← usizeAdd dataEnd 2
              if buffer.length < next then Outcome.need
              else do
                let (elements, cursor) ← parseElements buffer count next
                return ((buffer.drop dataStart).take len :: elements, cursor) := by
  rw [parseElements]
  cases here : buffer.drop cursor with
  | nil => rw [if_pos (List.drop_eq_nil_iff.mp here)]
  | cons b tail =>
    have inside : cursor < buffer.length := by
      by_contra outside
      rw [List.drop_eq_nil_of_le (by omega)] at here
      cases here
    have behind : buffer.drop (cursor + 1) = tail := by
      rw [← List.drop_drop, here, List.drop_one, List.tail_cons]
    have rest : slice buffer (cursor + 1) buffer.length = .ok tail := by
      rw [slice_of_le (by omega) (le_refl _), behind, ← behind, ← List.length_drop,
        List.take_length]
    rw [if_neg (by omega), index_of_drop here]
    show (if b ≠ 36 then _ else _ : Outcome Fault (List Bytes × Nat)) = if b ≠ 36 then _ else _
    by_cases dollar : b ≠ 36
    · rw [if_pos dollar, if_pos dollar]
    · rw [if_neg dollar, if_neg dollar, rest]
      simp only [Outcome.lift, Outcome.done_bind]
      cases found : findCrlf tail with
      | none => rfl
      | some pos =>
        have bound := findCrlf_bound found
        have length : tail.length = buffer.length - (cursor + 1) := by
          rw [← behind, List.length_drop]
        have line : slice buffer (cursor + 1) (cursor + 1 + pos) = .ok (tail.take pos) := by
          rw [slice_of_le (by omega) (by omega), behind, Nat.add_sub_cancel_left]
        simp only [line, Outcome.done_bind]
        cases parseUsize (tail.take pos) with
        | none => rfl
        | some len =>
          dsimp only
          cases first : usizeAdd (cursor + 1 + pos + 2) len with
          | fault f => rfl
          | need => rfl
          | done dataEnd =>
            obtain rfl := usizeAdd_done first
            simp only [Outcome.done_bind]
            cases second : usizeAdd (cursor + 1 + pos + 2 + len) 2 with
            | fault f => rfl
            | need => rfl
            | done next =>
              obtain rfl := usizeAdd_done second
              simp only [Outcome.done_bind]
              by_cases short : buffer.length < cursor + 1 + pos + 2 + len + 2
              · rw [if_pos short, if_pos short]
              · rw [if_neg short, if_neg short,
                  slice_of_le (by omega) (by omega), Nat.add_sub_cancel_left]
                rfl

/-- The array at the front of the buffer. -/
lemma parseArray_eq (buffer : Bytes) :
    parseArray buffer =
      match buffer with
      | [] => .need
      | b :: tail =>
        if b ≠ 42 then .fault (.err "expected_array")
        else
          match findCrlf tail with
          | none => .need
          | some pos =>
            match parseUsize (tail.take pos) with
            | none => .fault (.err "invalid_count")
            | some count => parseElements buffer count (1 + pos + 2) := by
  cases buffer with
  | nil => rfl
  | cons b tail =>
    have some1 : ¬ (b :: tail).length = 0 := by simp
    rw [parseArray, if_neg some1]
    show (if b ≠ 42 then _ else _ : Outcome Fault (List Bytes × Nat)) = if b ≠ 42 then _ else _
    by_cases star : b ≠ 42
    · rw [if_pos star, if_pos star]
    · rw [if_neg star, if_neg star]
      obtain rfl : b = 42 := not_not.mp star
      rw [findCrlf_cons (by decide)]
      cases found : findCrlf tail with
      | none => rfl
      | some pos =>
        have bound := findCrlf_bound found
        have line : slice (42 :: tail) 1 (pos + 1) = .ok (tail.take pos) := by
          rw [slice_of_le (by omega) (by simp only [List.length_cons]; omega), Nat.add_sub_cancel]
          rfl
        rw [Option.map_some]
        dsimp only
        rw [line, Nat.add_comm 1 pos]
        rfl

/-! ## Arrays -/

/-- Elements that are read are read with more input. -/
lemma parseElements_stable (count cursor : Nat) :
    Outcome.Stable (parseElements · count cursor) := by
  induction count generalizing cursor with
  | zero => exact Outcome.stable_const _
  | succ count ih =>
    intro b x h
    cases e : b.drop cursor with
    | nil => simp [parseElements_succ, e] at h
    | cons first tail =>
      simp only [parseElements_succ, e, drop_append_of_cons e] at h ⊢
      split
      · rfl
      · rename_i dollar
        simp only [dollar, if_false] at h
        cases c : findCrlf tail with
        | none => simp [c] at h
        | some pos =>
          have inside := findCrlf_bound c
          simp only [c, findCrlf_append c x,
            List.take_append_of_le_length (show pos ≤ tail.length by omega)]
            at h ⊢
          cases l : parseUsize (tail.take pos) with
          | none => rfl
          | some len =>
            simp only [l] at h ⊢
            cases a1 : usizeAdd (cursor + 1 + pos + 2) len with
            | fault f => rfl
            | need => exact absurd a1 (usizeAdd_ne_need _ _)
            | done dataEnd =>
              simp only [a1, Outcome.done_bind] at h ⊢
              cases a2 : usizeAdd dataEnd 2 with
              | fault f => rfl
              | need => exact absurd a2 (usizeAdd_ne_need _ _)
              | done next =>
                have h1 := usizeAdd_done a1
                have h2 := usizeAdd_done a2
                simp only [a2, Outcome.done_bind] at h ⊢
                by_cases short : b.length < next
                · simp [short] at h
                · have short' : ¬ (b ++ x).length < next := by simp only [List.length_append]; omega
                  simp only [short, if_false] at h
                  simp only [short, short', if_false]
                  -- the other elements are not waited for, since the array is not
                  have more : parseElements b count next ≠ .need := by
                    intro n
                    simp [n] at h
                  have same : parseElements (b ++ x) count next = parseElements b count next :=
                    ih next b x more
                  rw [same, take_drop_append (by omega)]

/-- The cursor moves forward and stays inside the buffer. -/
lemma parseElements_used {b : Bytes} {count cursor : Nat} {elements : List Bytes} {next : Nat}
    (h : parseElements b count cursor = .done (elements, next)) (inside : cursor ≤ b.length) :
    cursor ≤ next ∧ next ≤ b.length := by
  induction count generalizing cursor elements with
  | zero =>
    cases h
    exact ⟨le_refl _, inside⟩
  | succ count ih =>
    rw [parseElements_succ] at h
    split at h
    · cases h
    · split at h
      · cases h
      · split at h
        · cases h
        · split at h
          · cases h
          · obtain ⟨dataEnd, a1, h⟩ := Outcome.bind_eq_done.mp h
            obtain ⟨after, a2, h⟩ := Outcome.bind_eq_done.mp h
            have h1 := usizeAdd_done a1
            have h2 := usizeAdd_done a2
            split at h
            · cases h
            · obtain ⟨⟨rest, last⟩, e, h⟩ := Outcome.bind_eq_done.mp h
              cases h
              have := ih e (by omega)
              omega

/-- An array that is read is read with more input. -/
lemma parseArray_stable : Outcome.Stable parseArray := by
  intro b x h
  cases b with
  | nil => simp [parseArray_eq] at h
  | cons first tail =>
    simp only [parseArray_eq, List.cons_append] at h ⊢
    split
    · rfl
    · rename_i star
      simp only [star, if_false] at h
      cases c : findCrlf tail with
      | none => simp [c] at h
      | some pos =>
        have inside := findCrlf_bound c
        simp only [c, findCrlf_append c x,
          List.take_append_of_le_length (show pos ≤ tail.length by omega)]
          at h ⊢
        cases l : parseUsize (tail.take pos) with
        | none => rfl
        | some count =>
          simp only [l] at h ⊢
          exact parseElements_stable count (1 + pos + 2) (first :: tail) x h

/-- The array takes at least the three bytes of its header and lies inside the buffer. -/
lemma parseArray_used {b : Bytes} {elements : List Bytes} {cursor : Nat}
    (h : parseArray b = .done (elements, cursor)) : 3 ≤ cursor ∧ cursor ≤ b.length := by
  rw [parseArray_eq] at h
  split at h
  · cases h
  · split at h
    · cases h
    · split at h
      · cases h
      · rename_i pos c
        have bound := findCrlf_bound c
        split at h
        · cases h
        · have := parseElements_used h (by simp only [List.length_cons]; omega)
          omega

/-- `parse_command`. -/
lemma parseCommand_eq (s : ParserState) :
    parseCommand s =
      match parseArray (skipNewlines s.buffer) with
      | .fault e => .fault e
      | .need => .stall { s with buffer := skipNewlines s.buffer }
      | .done (elements, cursor) =>
        .next { s with
          buffer := (skipNewlines s.buffer).drop cursor
          currentDb := (processCommand elements s.currentDb).1 }
            (processCommand elements s.currentDb).2 := by
  rw [parseCommand]
  cases array : parseArray (skipNewlines s.buffer) with
  | fault e => rfl
  | need => rfl
  | done r =>
    obtain ⟨elements, cursor⟩ := r
    simp only [Cut.advance_of_le (parseArray_used array).2]

end ReplicaParser

end Veidrodelis.RedisNif
