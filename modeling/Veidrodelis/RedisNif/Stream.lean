import Veidrodelis.RedisNif.ReplicaMachine

/-!
# The command stream

Streams as the primary writes them: arrays of bulk strings, with line ends between them that keep
the connection alive. `run_encodeAll` says what the parser makes of a stream, `run_consumed` where
it stands after any bytes it has accepted: behind the last complete command, in front of an
incomplete one.
-/

namespace Veidrodelis.RedisNif.ReplicaParser
open Incremental

/-! ## Arrays depend on their own bytes only -/

/-- A CRLF that is found is found in a front part that holds it. -/
lemma findCrlf_take {b : Bytes} {pos k : Nat} (h : findCrlf b = some pos) (inside : pos + 2 ≤ k) :
    findCrlf (b.take k) = some pos := by
  have bound := findCrlf_bound h
  have cut : b.take k ++ b.drop k = b := List.take_append_drop k b
  cases e : findCrlf (b.take k) with
  | some pos' =>
    have same := findCrlf_append e (b.drop k)
    rw [cut, h] at same
    exact same.symm
  | none =>
    rw [← cut] at h
    have late := findCrlf_late e h
    rw [List.length_take] at late
    omega

/-- Elements that are read are read from a front part that holds them. -/
lemma parseElements_take {b : Bytes} {count cursor m next : Nat} {elements : List Bytes}
    (h : parseElements b count cursor = .done (elements, next)) (inside : next ≤ m)
    (start : cursor ≤ b.length) :
    parseElements (b.take m) count cursor = .done (elements, next) := by
  induction count generalizing cursor elements with
  | zero => simpa [parseElements_zero] using h
  | succ count ih =>
    have used := parseElements_used h start
    cases e : b.drop cursor with
    | nil => simp [parseElements_succ, e] at h
    | cons first tail =>
      simp only [parseElements_succ, e] at h
      split at h
      · cases h
      rename_i dollar
      cases c : findCrlf tail with
      | none => simp [c] at h
      | some pos =>
        cases l : parseUsize (tail.take pos) with
        | none => simp [c, l] at h
        | some len =>
          simp only [c, l] at h
          obtain ⟨dataEnd, a1, h⟩ := Outcome.bind_eq_done.mp h
          obtain ⟨after, a2, h⟩ := Outcome.bind_eq_done.mp h
          have h1 := usizeAdd_done a1
          have h2 := usizeAdd_done a2
          split at h
          · cases h
          rename_i long
          obtain ⟨⟨others, last⟩, r, h⟩ := Outcome.bind_eq_done.mp h
          cases h
          have used' := parseElements_used r (by omega)
          -- the whole element is in what is kept of the buffer
          have shorter : ¬ (b.take m).length < after := by
            rw [List.length_take]
            omega
          have e' : (b.take m).drop cursor = first :: tail.take (m - cursor - 1) := by
            rw [List.drop_take, e, List.take_cons (by omega)]
          have c' : findCrlf (tail.take (m - cursor - 1)) = some pos := findCrlf_take c (by omega)
          have l' : parseUsize ((tail.take (m - cursor - 1)).take pos) = some len := by
            rw [List.take_take, min_eq_left (by omega), l]
          have value : ((b.take m).drop (cursor + 1 + pos + 2)).take len =
              (b.drop (cursor + 1 + pos + 2)).take len := by
            rw [List.drop_take, List.take_take, min_eq_left (by omega)]
          have others' := ih r (by omega)
          simp only [parseElements_succ, e', dollar, if_false, c', l', a1, a2, Outcome.done_bind,
            shorter, others', value]
          rfl

/-- An array is read as well when nothing stands behind it. -/
lemma parseArray_take {b : Bytes} {elements : List Bytes} {cursor : Nat}
    (h : parseArray b = .done (elements, cursor)) :
    parseArray (b.take cursor) = .done (elements, cursor) := by
  have used := parseArray_used h
  cases b with
  | nil => simp [parseArray_eq] at h
  | cons first tail =>
    simp only [parseArray_eq] at h
    split at h
    · cases h
    rename_i star
    cases c : findCrlf tail with
    | none => simp [c] at h
    | some pos =>
      cases l : parseUsize (tail.take pos) with
      | none => simp [c, l] at h
      | some count =>
        simp only [c, l] at h
        have bound := findCrlf_bound c
        have used' := parseElements_used h (by rw [List.length_cons]; omega)
        have cut : (first :: tail).take cursor = first :: tail.take (cursor - 1) :=
          List.take_cons (by omega)
        have c' : findCrlf (tail.take (cursor - 1)) = some pos := findCrlf_take c (by omega)
        have l' : parseUsize ((tail.take (cursor - 1)).take pos) = some count := by
          rw [List.take_take, min_eq_left (by omega), l]
        have rest := parseElements_take h (le_refl _) (by rw [List.length_cons]; omega)
        rw [cut] at rest ⊢
        simp only [parseArray_eq, star, if_false, c', l', rest]

/-! ## Where the parser stands -/

/-- The line ends in front of a buffer. -/
lemma skipNewlines_split (b : Bytes) :
    ∃ newlines, b = newlines ++ skipNewlines b ∧ ∀ x, skipNewlines (newlines ++ x) =
      skipNewlines x := by
  induction b with
  | nil => exact ⟨[], rfl, fun _ => rfl⟩
  | cons first rest ih =>
    by_cases nl : first = 10 ∨ first = 13
    · obtain ⟨newlines, eq, skip⟩ := ih
      refine ⟨first :: newlines, ?_, fun x => ?_⟩
      · simp only [skipNewlines, nl, if_true]
        rw [List.cons_append, ← eq]
      · simp only [List.cons_append, skipNewlines, nl, if_true, skip]
    · exact ⟨[], by simp [skipNewlines, nl], fun _ => rfl⟩

/-- While streaming, a round takes a command. -/
lemma byteNext_streaming {s : ParserState} (h : s.state = .streaming) :
    byteNext s = parseCommand s := by
  simp only [byteNext, parseNext, h]

/-- A parser of the stream that has accepted its buffer stands in front of an incomplete command,
and has consumed what stands before it as it would have without that. -/
theorem run_consumed {s t : ParserState} {events : List Event} (st : s.state = .streaming)
    (h : machine.run s = .ok (t, events)) :
    ∃ consumed, s.buffer = consumed ++ t.buffer ∧
      machine.run { s with buffer := consumed } = .ok ({ t with buffer := [] }, events) ∧
      parseArray t.buffer = .need := by
  -- by induction on the length of the buffer; every command takes the newlines in front of it and
  -- itself
  induction hn : s.buffer.length using Nat.strongRecOn generalizing s events with
  | ind n ih =>
    obtain ⟨newlines, split, skip⟩ := skipNewlines_split s.buffer
    have eq := byteNext_streaming st
    cases a : parseArray (skipNewlines s.buffer) with
    | fault f =>
      have fault : machine.step s = .fault f := eq.trans (by simp only [parseCommand_eq, a])
      rw [machine.run_fault fault] at h
      cases h
    | need =>
      have stall : machine.step s = .stall { s with buffer := skipNewlines s.buffer } :=
        eq.trans (by simp only [parseCommand_eq, a])
      rw [machine.run_stall stall] at h
      cases h
      refine ⟨newlines, split, ?_, a⟩
      have skipped : skipNewlines newlines = [] := by
        rw [← List.append_nil newlines, skip, skipNewlines]
      refine machine.run_stall ((byteNext_streaming (by exact st)).trans ?_)
      simp only [parseCommand_eq, skipped, parseArray_eq]
    | done r =>
      obtain ⟨elements, cursor⟩ := r
      have used := parseArray_used a
      have shorter := length_skipNewlines_le s.buffer
      let s' : ParserState := { s with
        buffer := (skipNewlines s.buffer).drop cursor
        currentDb := (processCommand elements s.currentDb).1 }
      have next : machine.step s = .next s' (processCommand elements s.currentDb).2 :=
        eq.trans (by simp only [parseCommand_eq, a]; rfl)
      rw [machine.run_next next] at h
      obtain ⟨rest, h', rfl⟩ := after_eq_ok h
      have lt : s'.buffer.length < n := by
        have len : s'.buffer.length = (skipNewlines s.buffer).length - cursor := List.length_drop
        omega
      obtain ⟨consumed, split', run', need⟩ := ih _ lt (s := s') (by exact st) h' rfl
      refine ⟨newlines ++ ((skipNewlines s.buffer).take cursor ++ consumed), ?_, ?_, need⟩
      · calc s.buffer = newlines ++ skipNewlines s.buffer := split
          _ = newlines ++ ((skipNewlines s.buffer).take cursor ++ s'.buffer) := by
            rw [List.take_append_drop]
          _ = _ := by rw [split']; simp only [List.append_assoc]
      · -- no newline is left in front of the command
        have here : skipNewlines ((skipNewlines s.buffer).take cursor ++ consumed) =
            (skipNewlines s.buffer).take cursor ++ consumed := by
          cases b : skipNewlines s.buffer with
          | nil => simp [b, parseArray_eq] at a
          | cons first tail =>
            have idem := skipNewlines_idem s.buffer
            rw [b] at idem
            have nl : ¬ (first = 10 ∨ first = 13) := by
              intro nl
              simp only [skipNewlines, nl, if_true] at idem
              have := length_skipNewlines_le tail
              rw [idem, List.length_cons] at this
              omega
            rw [List.take_cons (by omega), List.cons_append]
            simp only [skipNewlines, nl, if_false]
        -- the command is parsed the same when something else stands behind it
        have array : parseArray ((skipNewlines s.buffer).take cursor ++ consumed) =
            .done (elements, cursor) := parseArray_stable.done (parseArray_take a) consumed
        have len : ((skipNewlines s.buffer).take cursor).length = cursor := by
          rw [List.length_take]
          omega
        have next' : machine.step { s with
            buffer := newlines ++ ((skipNewlines s.buffer).take cursor ++ consumed) } =
            .next { s' with buffer := consumed } (processCommand elements s.currentDb).2 := by
          refine (byteNext_streaming (by exact st)).trans ?_
          simp only [parseCommand_eq, skip, here, array, s']
          rw [List.drop_append_of_le_length (by omega), List.drop_of_length_le (by omega),
            List.nil_append]
        rw [machine.run_next next', run', after_ok]

/-! ## Streams as the primary writes them -/

/-- A bulk string. -/
def encodeBulk (element : Bytes) : Bytes :=
  36 :: (Bytes.natText element.length ++ 13 :: 10 :: (element ++ [13, 10]))

/-- An array of bulk strings. -/
def encodeArray (elements : List Bytes) : Bytes :=
  42 :: (Bytes.natText elements.length ++ 13 :: 10 :: (elements.map encodeBulk).flatten)

/-- What the primary writes to the stream: a command, or a line feed that keeps the connection
alive. A command fits into the memory of the machine. -/
inductive Item where
  | lineFeed
  | command (elements : List Bytes) (fits : (encodeArray elements).length < usizeSize)
  deriving DecidableEq

namespace Item

def encode : Item → Bytes
  | .lineFeed => [10]
  | .command elements _ => encodeArray elements

/-- The database that is selected behind an item, and what is emitted for it. -/
def process : Item → Nat → Nat × List Event
  | .lineFeed, db => (db, [])
  | .command elements _, db => processCommand elements db

end Item

def encodeAll (items : List Item) : Bytes := (items.map Item.encode).flatten

/-- The database that is selected behind a stream. -/
def dbAfter : Nat → List Item → Nat
  | db, [] => db
  | db, item :: items => dbAfter (item.process db).1 items

/-- What is emitted for a stream. -/
def eventsOf : Nat → List Item → List Event
  | _, [] => []
  | db, item :: items => (item.process db).2 ++ eventsOf (item.process db).1 items

/-- The items that the first `n` bytes of a stream contain as a whole. -/
def wholeItems : Nat → List Item → List Item
  | _, [] => []
  | n, item :: items =>
    if item.encode.length ≤ n then item :: wholeItems (n - item.encode.length) items else []

/-- No items are encoded by nothing. -/
@[simp] lemma encodeAll_nil : encodeAll [] = [] := rfl

/-- The first item, and the others behind it. -/
@[simp] lemma encodeAll_cons (item : Item) (items : List Item) :
    encodeAll (item :: items) = item.encode ++ encodeAll items := rfl

/-- Items are encoded one part after the other. -/
@[simp] lemma encodeAll_append (a b : List Item) :
    encodeAll (a ++ b) = encodeAll a ++ encodeAll b := by
  simp [encodeAll]

/-- The second part is read in the database that the first one left. -/
lemma eventsOf_append (db : Nat) (a b : List Item) :
    eventsOf db (a ++ b) = eventsOf db a ++ eventsOf (dbAfter db a) b := by
  induction a generalizing db with
  | nil => rfl
  | cons item items ih => simp only [List.cons_append, eventsOf, dbAfter, ih, List.append_assoc]

/-! ## Reading what was written -/

/-- A number ends where its CRLF stands. -/
lemma findCrlf_natText (n : Nat) (rest : Bytes) :
    findCrlf (Bytes.natText n ++ 13 :: 10 :: rest) = some (Bytes.natText n).length := by
  refine findCrlf_line (fun b hb => ?_) rest
  rintro rfl
  exact absurd (Bytes.all_isDigit_natText n 13 hb) (by decide)

/-- The length of a bulk string with its header and line ends. -/
lemma length_encodeBulk (element : Bytes) :
    (encodeBulk element).length =
      1 + (Bytes.natText element.length).length + 2 + element.length + 2 := by
  simp only [encodeBulk, List.length_cons, List.length_append, List.length_nil]
  omega

/-- Encoded elements are read to their end. -/
lemma parseElements_encode {elements : List Bytes} {front rest : Bytes}
    (fits : (front ++ (elements.map encodeBulk).flatten).length < usizeSize) :
    parseElements (front ++ (elements.map encodeBulk).flatten ++ rest) elements.length
      front.length = .done (elements, (front ++ (elements.map encodeBulk).flatten).length) := by
  induction elements generalizing front with
  | nil => simp [parseElements_zero]
  | cons element elements ih =>
    let buffer := front ++ ((element :: elements).map encodeBulk).flatten ++ rest
    let tail := Bytes.natText element.length ++
      13 :: 10 :: (element ++ [13, 10] ++ (elements.map encodeBulk).flatten ++ rest)
    have size := length_encodeBulk element
    have here : buffer.drop front.length = 36 :: tail := by
      simp only [buffer, List.append_assoc, List.drop_left, List.map_cons, List.flatten_cons,
        encodeBulk, tail, List.cons_append]
    have line : findCrlf tail = some (Bytes.natText element.length).length := findCrlf_natText _ _
    have len : parseUsize (tail.take (Bytes.natText element.length).length) =
      some element.length := by
      rw [List.take_left]
      refine Bytes.parseUnsigned_natText ?_
      simp only [List.map_cons, List.flatten_cons, List.length_append] at fits
      omega
    have inside : front.length + 1 + (Bytes.natText element.length).length + 2 +
      element.length + 2 ≤
        (front ++ ((element :: elements).map encodeBulk).flatten).length := by
      simp only [List.map_cons, List.flatten_cons, List.length_append]
      omega
    have long : ¬ buffer.length <
        front.length + 1 + (Bytes.natText element.length).length + 2 + element.length + 2 := by
      rw [List.length_append]
      omega
    have data : (buffer.drop (front.length + 1 + (Bytes.natText element.length).length + 2)).take
        element.length = element := by
      have split : buffer = front ++ 36 :: (Bytes.natText element.length ++ [13, 10]) ++
          (element ++ ([13, 10] ++ (elements.map encodeBulk).flatten ++ rest)) := by
        simp only [buffer, List.map_cons, List.flatten_cons, encodeBulk, List.append_assoc,
          List.cons_append, List.nil_append]
      have front' : (front ++ 36 :: (Bytes.natText element.length ++ [13, 10])).length =
          front.length + 1 + (Bytes.natText element.length).length + 2 := by
        simp only [List.length_append, List.length_cons, List.length_nil]
        omega
      rw [split, ← front', List.drop_left, List.take_left]
    -- behind this element the cursor stands where the others begin
    have next : parseElements buffer elements.length
        (front.length + 1 + (Bytes.natText element.length).length + 2 + element.length + 2) =
        .done (elements, (front ++ ((element :: elements).map encodeBulk).flatten).length) := by
      have shift : front ++ ((element :: elements).map encodeBulk).flatten =
          (front ++ encodeBulk element) ++ (elements.map encodeBulk).flatten := by
        simp only [List.map_cons, List.flatten_cons, List.append_assoc]
      have length : (front ++ encodeBulk element).length =
          front.length + 1 + (Bytes.natText element.length).length + 2 + element.length + 2 := by
        rw [List.length_append, size]
        omega
      rw [shift] at fits
      have later := ih fits
      rw [length, ← shift] at later
      exact later
    rw [List.length_cons, parseElements_succ]
    simp only [show front ++ ((element :: elements).map encodeBulk).flatten ++ rest =
      buffer from rfl, here, ne_eq, not_true_eq_false, if_false, line, len]
    rw [usizeAdd_of_lt (by omega), Outcome.done_bind, usizeAdd_of_lt (by omega), Outcome.done_bind,
      if_neg long, next, data]
    rfl

/-- An encoded array is read to its end. -/
lemma parseArray_encodeArray {elements : List Bytes}
    (fits : (encodeArray elements).length < usizeSize) (rest : Bytes) :
    parseArray (encodeArray elements ++ rest) =
      .done (elements, (encodeArray elements).length) := by
  let front : Bytes := 42 :: (Bytes.natText elements.length ++ [13, 10])
  have split : encodeArray elements = front ++ (elements.map encodeBulk).flatten := by
    simp only [encodeArray, front, List.cons_append, List.append_assoc, List.nil_append]
  have count : elements.length < usizeSize := by
    have many : elements.length ≤ ((elements.map encodeBulk).flatten).length := by
      clear split fits
      induction elements with
      | nil => simp
      | cons element elements ih =>
        have size := length_encodeBulk element
        simp only [List.map_cons, List.flatten_cons, List.length_append, List.length_cons]
        omega
    rw [split, List.length_append] at fits
    omega
  have line : findCrlf (Bytes.natText elements.length ++
      13 :: 10 :: ((elements.map encodeBulk).flatten ++ rest)) =
      some (Bytes.natText elements.length).length := findCrlf_natText _ _
  have number : parseUsize ((Bytes.natText elements.length ++
      13 :: 10 :: ((elements.map encodeBulk).flatten ++ rest)).take
      (Bytes.natText elements.length).length) = some elements.length := by
    rw [List.take_left]
    exact Bytes.parseUnsigned_natText count
  have start : 1 + (Bytes.natText elements.length).length + 2 = front.length := by
    simp only [front, List.length_cons, List.length_append, List.length_nil]
    omega
  rw [split] at fits
  have read : parseElements (front ++ (elements.map encodeBulk).flatten ++ rest) elements.length
      front.length = .done (elements, (front ++ (elements.map encodeBulk).flatten).length) :=
    parseElements_encode fits
  rw [← split] at read
  have shape : encodeArray elements ++ rest = 42 :: (Bytes.natText elements.length ++
      13 :: 10 :: ((elements.map encodeBulk).flatten ++ rest)) := by
    simp only [encodeArray, List.cons_append, List.append_assoc]
  rw [shape] at read ⊢
  simp only [parseArray_eq, ne_eq, not_true_eq_false, if_false, line, number, start, read]

/-- A command that is cut off is waited for. -/
lemma parseArray_cut {elements : List Bytes} (fits : (encodeArray elements).length < usizeSize)
    {k : Nat} (short : k < (encodeArray elements).length) :
    parseArray ((encodeArray elements).take k) = .need := by
  by_contra more
  have same :=
    parseArray_stable ((encodeArray elements).take k) ((encodeArray elements).drop k) more
  have whole := parseArray_encodeArray fits []
  rw [List.append_nil] at whole
  simp only [List.take_append_drop, whole] at same
  have used := parseArray_used same.symm
  rw [List.length_take] at used
  omega

/-- Line ends in front change nothing. -/
lemma run_lineEnds {s : ParserState} (st : s.state = .streaming) {newlines : Bytes}
    (h : ∀ b ∈ newlines, b = 10 ∨ b = 13) (rest : Bytes) :
    machine.run { s with buffer := newlines ++ rest } = machine.run { s with buffer := rest } := by
  refine machine.run_congr ((byteNext_streaming (by exact st)).trans
    (.trans ?_ (byteNext_streaming (by exact st)).symm))
  have skipped : skipNewlines (newlines ++ rest) = skipNewlines rest := by
    induction newlines with
    | nil => rfl
    | cons b newlines ih =>
      have first : b = 10 ∨ b = 13 := h b (by simp)
      simp only [List.cons_append, skipNewlines, first, if_true]
      exact ih fun b' hb' => h b' (by simp [hb'])
  simp only [parseCommand_eq, skipped]

/-- An array does not begin with a newline. -/
lemma skipNewlines_encodeArray (elements : List Bytes) (rest : Bytes) :
    skipNewlines (encodeArray elements ++ rest) = encodeArray elements ++ rest := by
  simp [encodeArray, skipNewlines]

/-- The parser reads one item. -/
lemma run_item {s : ParserState} (st : s.state = .streaming) (item : Item) (rest : Bytes) :
    machine.run { s with buffer := item.encode ++ rest } =
      after (item.process s.currentDb).2
        (machine.run { s with buffer := rest, currentDb := (item.process s.currentDb).1 }) := by
  cases item with
  | lineFeed =>
    have ends : ∀ b ∈ ([10] : Bytes), b = 10 ∨ b = 13 := by simp
    rw [Item.process, after_nil]
    exact run_lineEnds st ends rest
  | command elements fits =>
    refine machine.run_next ((byteNext_streaming (by exact st)).trans ?_)
    simp only [parseCommand_eq, Item.encode, skipNewlines_encodeArray, parseArray_encodeArray fits,
      List.drop_left, Item.process]

/-- The parser reads a stream, and goes on behind it. -/
theorem run_encodeAll {s : ParserState} (st : s.state = .streaming) (items : List Item)
    (rest : Bytes) :
    machine.run { s with buffer := encodeAll items ++ rest } =
      after (eventsOf s.currentDb items)
        (machine.run { s with buffer := rest, currentDb := dbAfter s.currentDb items }) := by
  induction items generalizing s with
  | nil => simp [eventsOf, dbAfter]
  | cons item items ih =>
    rw [encodeAll_cons, List.append_assoc, run_item st]
    have later := ih (s := { s with currentDb := (item.process s.currentDb).1 }) st
    rw [eventsOf, dbAfter, ← after_after, ← later]

/-- A run that waits for the rest of an array keeps what there is. -/
lemma run_settled {s : ParserState} (st : s.state = .streaming)
    (need : parseArray (skipNewlines s.buffer) = .need) :
    machine.run s = .ok ({ s with buffer := skipNewlines s.buffer }, []) := by
  refine machine.run_stall ((byteNext_streaming st).trans ?_)
  simp only [parseCommand_eq, need]

/-- The parser reads the first bytes of a stream: it emits the commands that are there as a
whole. -/
theorem run_take {s : ParserState} (st : s.state = .streaming) (items : List Item) (n : Nat) :
    ∃ tail, machine.run { s with buffer := (encodeAll items).take n } =
      .ok ({ s with buffer := tail, currentDb := dbAfter s.currentDb (wholeItems n items) },
        eventsOf s.currentDb (wholeItems n items)) := by
  have nothing {s : ParserState} (st : s.state = .streaming) :
      machine.run { s with buffer := [] } = .ok ({ s with buffer := [] }, []) :=
    run_settled (s := { s with buffer := [] }) st rfl
  induction items generalizing s n with
  | nil => exact ⟨[], by simpa [wholeItems, dbAfter, eventsOf] using nothing st⟩
  | cons item items ih =>
    by_cases fits : item.encode.length ≤ n
    · have split : (encodeAll (item :: items)).take n =
          item.encode ++ (encodeAll items).take (n - item.encode.length) := by
        rw [encodeAll_cons, List.take_append, List.take_of_length_le fits]
      obtain ⟨tail, later⟩ := ih (s := { s with currentDb := (item.process s.currentDb).1 }) st
        (n - item.encode.length)
      refine ⟨tail, ?_⟩
      rw [split, run_item st, later, after_ok]
      simp only [wholeItems, fits, if_true, dbAfter, eventsOf]
    · have cut : (encodeAll (item :: items)).take n = item.encode.take n := by
        rw [encodeAll_cons, List.take_append_of_le_length (by omega)]
      simp only [wholeItems, fits, if_false, dbAfter, eventsOf, cut]
      cases item with
      | lineFeed =>
        have zero : n = 0 := by
          simp only [Item.encode, List.length_singleton] at fits
          omega
        exact ⟨[], by simpa [zero] using nothing st⟩
      | command elements small =>
        have need := parseArray_cut small (k := n) (by simpa [Item.encode] using fits)
        have front : skipNewlines ((encodeArray elements).take n) =
          (encodeArray elements).take n := by
          cases n with
          | zero => rfl
          | succ n => simp [encodeArray, skipNewlines]
        refine ⟨(encodeArray elements).take n, ?_⟩
        have stall := run_settled (s := { s with buffer := (encodeArray elements).take n }) st
          (by simpa only [front] using need)
        simpa only [Item.encode, front] using stall

/-- A parser of the stream: the database that is selected, and what it keeps of an incomplete
command. -/
def streamingAt (db : Nat) (buffer : Bytes) : ParserState :=
  { ParserState.new true with buffer, currentDb := db }

/-- A parser without a payload begins in database 0. -/
lemma new_streaming : ParserState.new true = streamingAt 0 [] := rfl

/-- Nothing is read from nothing. -/
lemma absorb_nil (db : Nat) : machine.absorb (streamingAt db []) [] = .ok (streamingAt db [], []) :=
  machine.run_stall rfl

/-- Encoded items are read as their events, and the rest behind them. -/
lemma absorb_encodeAll (db : Nat) (items : List Item) (rest : Bytes) :
    machine.absorb (streamingAt db []) (encodeAll items ++ rest) =
      after (eventsOf db items) (machine.absorb (streamingAt (dbAfter db items) []) rest) :=
  run_encodeAll (s := streamingAt db []) rfl items rest

/-- Newlines in front are skipped. -/
lemma absorb_lineEnds (db : Nat) {newlines : Bytes} (h : ∀ b ∈ newlines, b = 10 ∨ b = 13)
    (rest : Bytes) :
    machine.absorb (streamingAt db []) (newlines ++ rest) =
      machine.absorb (streamingAt db []) rest :=
  run_lineEnds (s := streamingAt db []) rfl h rest

/-- A front part of encoded items gives the events of those that are whole. -/
lemma absorb_take (db : Nat) (items : List Item) (n : Nat) :
    ∃ tail, machine.absorb (streamingAt db []) ((encodeAll items).take n) =
      .ok (streamingAt (dbAfter db (wholeItems n items)) tail, eventsOf db (wholeItems n items)) :=
  run_take (s := streamingAt db []) rfl items n

/-! ## Items that are there as a whole -/

/-- Items that fit are whole, and those behind them are counted from there. -/
lemma wholeItems_append {n : Nat} {a : List Item} (fits : (encodeAll a).length ≤ n)
    (b : List Item) :
    wholeItems n (a ++ b) = a ++ wholeItems (n - (encodeAll a).length) b := by
  induction a generalizing n with
  | nil => rfl
  | cons item items ih =>
    rw [encodeAll_cons, List.length_append] at fits
    have first : item.encode.length ≤ n := by omega
    rw [List.cons_append, wholeItems, if_pos first, ih (by omega), encodeAll_cons,
      List.length_append, Nat.sub_sub, List.cons_append]

/-- More bytes hold more whole items. -/
lemma wholeItems_mono {m n : Nat} (le : m ≤ n) (items : List Item) :
    wholeItems m items <+: wholeItems n items := by
  induction items generalizing m n with
  | nil => exact List.prefix_rfl
  | cons item items ih =>
    by_cases fits : item.encode.length ≤ m
    · have fits' : item.encode.length ≤ n := by omega
      rw [wholeItems, wholeItems, if_pos fits, if_pos fits']
      exact List.cons_prefix_cons.mpr ⟨rfl, ih (by omega)⟩
    · rw [wholeItems, if_neg fits]
      exact List.nil_prefix

/-- An item takes at least one byte. -/
lemma length_encode_pos (item : Item) : 0 < item.encode.length := by
  cases item <;> simp [Item.encode, encodeArray]

/-- An item ends with a line feed. -/
lemma encode_ends (item : Item) : ∃ front, item.encode = front ++ [10] := by
  have bulk (element : Bytes) : ∃ front, encodeBulk element = front ++ [10] :=
    ⟨36 :: (Bytes.natText element.length ++ 13 :: 10 :: (element ++ [13])), by simp [encodeBulk]⟩
  cases item with
  | lineFeed => exact ⟨[], rfl⟩
  | command elements fits =>
    rcases elements.eq_nil_or_concat with rfl | ⟨others, last, rfl⟩
    · exact ⟨42 :: (Bytes.natText 0 ++ [13]), by simp [Item.encode, encodeArray]⟩
    · obtain ⟨front, e⟩ := bulk last
      exact ⟨42 :: (Bytes.natText (others ++ [last]).length ++
        13 :: 10 :: ((others.map encodeBulk).flatten ++ front)), by
          simp [Item.encode, encodeArray, e]⟩

/-- Items end with a newline. -/
lemma encodeAll_ends {items : List Item} (nonempty : items ≠ []) :
    ∃ front, encodeAll items = front ++ [10] := by
  obtain ⟨others, last, rfl⟩ := items.eq_nil_or_concat.resolve_left nonempty
  obtain ⟨front, e⟩ := encode_ends last
  exact ⟨encodeAll others ++ front, by simp [e]⟩

/-- No bytes hold no items. -/
lemma wholeItems_zero (items : List Item) : wholeItems 0 items = [] := by
  cases items with
  | nil => rfl
  | cons item items =>
    have pos := length_encode_pos item
    rw [wholeItems, if_neg (by omega)]

/-! ## Names and arguments -/

/-- The names and arguments of the commands that are emitted for a stream. -/
def dataOf (items : List Item) : List (List Bytes) :=
  (commandsOf (eventsOf 0 items)).map fun cmd => cmd.name :: cmd.args

/-- A command that selects a database. -/
def selected : List Bytes → Option Nat
  | name :: arg :: _ => if toUppercase name = ascii "SELECT" then parseU32 arg else none
  | _ => none

/-- Only `SELECT` changes the database. -/
lemma processCommand_fst (elements : List Bytes) (db : Nat) :
    (processCommand elements db).1 = (selected elements).getD db := by
  match elements with
  | [] => rfl
  | [name] =>
    unfold processCommand selected
    dsimp only
    repeat' split
    all_goals rfl
  | name :: arg :: args =>
    unfold processCommand selected
    dsimp only
    repeat' split
    all_goals rfl

/-- What a command emits, apart from the database. -/
lemma commandsOf_processCommand (elements : List Bytes) :
    (∀ db, commandsOf (processCommand elements db).2 = []) ∨
    (selected elements = none ∧ ∃ name args,
      ∀ db, commandsOf (processCommand elements db).2 = [⟨db, name, args⟩]) := by
  match elements with
  | [] => exact .inl fun _ => rfl
  | name :: args =>
    by_cases select : toUppercase name = ascii "SELECT"
    · exact .inl fun db => by simp [processCommand, select, commandsOf]
    by_cases ping : toUppercase name = ascii "PING"
    · exact .inl fun db => by simp [processCommand, if_neg select, if_pos ping, commandsOf]
    by_cases replconf : toUppercase name = ascii "REPLCONF"
    · refine .inl fun db => ?_
      simp only [processCommand, if_neg select, if_neg ping, if_pos replconf]
      cases args with
      | nil => rfl
      | cons sub args =>
        dsimp only
        split <;> rfl
    · refine .inr ⟨?_, name, args, fun db => ?_⟩
      · cases args <;> simp [selected, select]
      · simp [processCommand, if_neg select, if_neg ping, if_neg replconf, commandsOf]

namespace Item

/-- The database that an item selects, if it does. -/
def selects : Item → Option Nat
  | .lineFeed => none
  | .command elements _ => selected elements

/-- Whether a command is emitted for an item. -/
def CarriesData (item : Item) : Prop := commandsOf (item.process 0).2 ≠ []

instance (item : Item) : Decidable item.CarriesData := inferInstanceAs (Decidable (¬ _))

/-- Only an item that selects changes the database. -/
lemma process_fst (item : Item) (db : Nat) : (item.process db).1 = item.selects.getD db := by
  cases item with
  | lineFeed => rfl
  | command elements fits => exact processCommand_fst elements db

/-- An item gives one command in every database, or none in any. -/
lemma commandsOf_process (item : Item) :
    (∀ db, commandsOf (item.process db).2 = []) ∨
      (item.selects = none ∧ ∃ name args, ∀ db, commandsOf (item.process db).2 =
      [⟨db, name, args⟩]) := by
  cases item with
  | lineFeed => exact .inl fun _ => rfl
  | command elements fits => exact commandsOf_processCommand elements

end Item

/-- Names and arguments do not depend on the database. -/
lemma dataOf_eventsOf (db : Nat) (items : List Item) :
    (commandsOf (eventsOf db items)).map (fun cmd => cmd.name :: cmd.args) = dataOf items := by
  unfold dataOf
  generalize 0 = db'
  induction items generalizing db db' with
  | nil => rfl
  | cons item items ih =>
    have same : (commandsOf (item.process db).2).map (fun cmd => cmd.name :: cmd.args) =
        (commandsOf (item.process db').2).map (fun cmd => cmd.name :: cmd.args) := by
      obtain nowhere | ⟨-, name, args, one⟩ := item.commandsOf_process
      · rw [nowhere, nowhere]
      · rw [one, one, List.map_singleton, List.map_singleton]
    simp only [eventsOf, commandsOf_append, List.map_append, same]
    rw [ih _ (item.process db').1]

/-- The data items, one part after the other. -/
lemma dataOf_append (a b : List Item) : dataOf (a ++ b) = dataOf a ++ dataOf b := by
  rw [dataOf, eventsOf_append, commandsOf_append, List.map_append, dataOf_eventsOf, dataOf_eventsOf]

/-- A front part of the items has a front part of the data. -/
lemma dataOf_prefix {a b : List Item} (h : a <+: b) : dataOf a <+: dataOf b := by
  obtain ⟨c, rfl⟩ := h
  rw [dataOf_append]
  exact List.prefix_append _ _

/-- Where two cuts leave the same commands, every cut between them does. -/
lemma dataOf_wholeItems_max {items : List Item} {a b : Nat}
    (same : dataOf (wholeItems a items) = dataOf (wholeItems b items)) (n : Nat) :
    dataOf (wholeItems (max a n) items) = dataOf (wholeItems (max b n) items) := by
  have mono {k m : Nat} (le : k ≤ m) : dataOf (wholeItems k items) <+:
    dataOf (wholeItems m items) :=
    dataOf_prefix (wholeItems_mono le items)
  have between {a b : Nat} (same : dataOf (wholeItems a items) = dataOf (wholeItems b items))
      (le : a ≤ b) : dataOf (wholeItems (max a n) items) = dataOf (wholeItems (max b n) items) := by
    by_cases late : b ≤ n
    · rw [max_eq_right late, max_eq_right (le.trans late)]
    · rw [max_eq_left (by omega : n ≤ b)]
      have lower := mono (le_max_left a n)
      have upper := mono (show max a n ≤ b by omega)
      rw [same] at lower
      exact upper.eq_of_length_le lower.length_le
  rcases le_total a b with le | le
  · exact between same le
  · exact (between same.symm le).symm

/-! ## The selected database -/

/-- A command is emitted before a database is selected. -/
def DataBeforeSelect : List Item → Prop
  | [] => False
  | item :: items => item.CarriesData ∨ (item.selects = none ∧ DataBeforeSelect items)

instance decidableDataBeforeSelect : (items : List Item) → Decidable (DataBeforeSelect items)
  | [] => .isFalse id
  | _ :: items =>
    have := decidableDataBeforeSelect items
    inferInstanceAs (Decidable (_ ∨ _))

/-- A stream that starts in one database is the stream that starts in another, unless a command
comes before the first selection. -/
theorem commandsOf_eventsOf_eq_iff {db db' : Nat} (items : List Item) :
    commandsOf (eventsOf db items) = commandsOf (eventsOf db' items) ↔
      db = db' ∨ ¬ DataBeforeSelect items := by
  induction items with
  | nil => simp [DataBeforeSelect, eventsOf]
  | cons item items ih =>
    simp only [eventsOf, commandsOf_append, DataBeforeSelect]
    obtain nowhere | ⟨unselected, name, args, one⟩ := item.commandsOf_process
    · have silent : ¬ item.CarriesData := fun data => data (nowhere 0)
      simp only [nowhere, List.nil_append, silent, false_or, Item.process_fst]
      cases e : item.selects with
      | none =>
        simp only [Option.getD_none, true_and]
        exact ih
      | some n => simp
    · have data : item.CarriesData := by
        intro no
        rw [one] at no
        cases no
      simp only [one, List.singleton_append, List.cons.injEq, RawCommand.mk.injEq, true_and,
        and_true, data, true_or, not_true_eq_false, or_false, Item.process_fst, unselected,
        Option.getD_none]
      refine ⟨fun h => h.1, ?_⟩
      rintro rfl
      exact ⟨rfl, rfl⟩

end Veidrodelis.RedisNif.ReplicaParser
