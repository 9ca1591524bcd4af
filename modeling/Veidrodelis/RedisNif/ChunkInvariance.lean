import Veidrodelis.RedisNif.RdbSkip
import Veidrodelis.RedisNif.Received
import Veidrodelis.RedisNif.Stream

/-!
# Chunk invariance of the replica parser

The socket cuts its data anywhere. `chunkInvariant_iff`: the cutting makes no difference exactly
when the RDB parser does not come to an end inside the payload, or the stream behind it is refused
anyway. An image of known types ends with the payload; the bytes of a value of an unknown type may
read as an end before it.
-/

namespace Veidrodelis.RedisNif.ReplicaParser
open Incremental
open RdbFormat (Image RefusedIn text length_s length_eleven checkVersion_eleven unsupported_set)

/-- One result is an error when the other is, and else they are the same: the commands, the flags
and the final parser state. -/
def SameOutcome (a b : Except Fault (ParserState × Fed)) : Prop :=
  ((∃ e, a = .error e) ↔ ∃ e, b = .error e) ∧ ∀ r, a = .ok r → ∀ s, b = .ok s → r = s

/-- An outcome is the same as itself. -/
lemma sameOutcome_refl (a : Except Fault (ParserState × Fed)) : SameOutcome a a :=
  ⟨Iff.rfl, fun _ hr _ hs => Except.ok.inj (hr.symm.trans hs)⟩

/-- Two errors are the same outcome. -/
lemma sameOutcome_errors {a b : Except Fault (ParserState × Fed)} (ha : ∃ e, a = .error e)
    (hb : ∃ e, b = .error e) : SameOutcome a b := by
  refine ⟨iff_of_true ha hb, fun r hr s _ => ?_⟩
  obtain ⟨e, he⟩ := ha
  cases he.symm.trans hr

/-- Any two ways of cutting the input into chunks that are not empty come to the same. -/
def ChunkInvariant (input : Bytes) : Prop :=
  ∀ cs ds : List Bytes, (∀ c ∈ cs, c ≠ []) → (∀ d ∈ ds, d ≠ []) → cs.flatten = input →
    ds.flatten = input →
    SameOutcome (feedAll (.new false) cs) (feedAll (.new false) ds)

/-! ## The header -/

/-- Line ends that were skipped are not skipped again. -/
lemma skipNewlines_take (b : Bytes) (k : Nat) :
    skipNewlines ((skipNewlines b).take k) = (skipNewlines b).take k := by
  induction b with
  | nil => simp [skipNewlines]
  | cons first rest ih =>
    by_cases nl : first = 10 ∨ first = 13
    · simp only [skipNewlines, nl, if_true]
      exact ih
    · cases k with
      | zero => simp [skipNewlines]
      | succ k => simp only [skipNewlines, nl, if_false, List.take_succ_cons]

/-- The header alone declares the payload. -/
lemma declaredPayload_split {input rest : Bytes} {size : Nat}
    (declared : declaredPayload input = some (size, rest)) :
    ∃ header, input = header ++ rest ∧ declaredPayload header = some (size, []) := by
  have e := parseRdbHeader_declared declared
  obtain ⟨-, pos, n, found, behind⟩ := parseRdbHeader_next e
  have line : ((ParserState.new false).push input).buffer = input := rfl
  rw [line] at found behind
  have rest' : rest = (skipNewlines input).drop (pos + 2) := congrArg ParserState.buffer behind
  obtain ⟨newlines, split, skip⟩ := skipNewlines_split input
  let header := newlines ++ (skipNewlines input).take (pos + 2)
  have whole : input = header ++ rest := by
    rw [rest', List.append_assoc, List.take_append_drop]
    exact split
  have push : ((ParserState.new false).push header).push rest =
    (ParserState.new false).push input := by
    rw [← push_append, ← whole]
  refine ⟨header, whole, ?_⟩
  have here : byteNext ((ParserState.new false).push header)
      = parseRdbHeader ((ParserState.new false).push header) := rfl
  cases h : parseRdbHeader ((ParserState.new false).push header) with
  | stall t =>
    -- the end of the line is there
    obtain ⟨-, missing⟩ := parseRdbHeader_stall h
    have line' : skipNewlines ((ParserState.new false).push header).buffer
        = (skipNewlines input).take (pos + 2) := (skip _).trans (skipNewlines_take _ _)
    rw [line', findCrlf_take found (le_refl _)] at missing
    cases missing
  | fault f =>
    have later := (lawful _).fault_push (here.trans h) rest
    rw [push] at later
    cases later.symm.trans e
  | next t out =>
    have later := (lawful _).next_push (here.trans h) rest
    rw [push] at later
    have same := Step.next.inj (later.symm.trans e)
    have buffer : t.buffer ++ rest = rest := congrArg ParserState.buffer same.1
    have isEmpty : t.buffer = [] := List.append_left_eq_self.mp buffer
    have bulk : t.rdbBulkSize = some size := congrArg ParserState.rdbBulkSize same.1
    simp only [declaredPayload, h, bulk, isEmpty, Option.map_some]

/-! ## Calls that are accepted -/

/-- The calls that are accepted have received their chunks. -/
lemma received_feedAll {input : Bytes} {p p' : ParserState} {rdb : List RawCommand}
    {events : List Event} (h : Received input p rdb events) {chunks : List Bytes} {fed : Fed}
    (f : feedAll p chunks = .ok (p', fed)) :
    ∃ rdb' events', Received (input ++ chunks.flatten) p' rdb' events' := by
  induction chunks generalizing input p rdb events fed with
  | nil =>
    cases f
    rw [List.flatten_nil, List.append_nil]
    exact ⟨rdb, events, h⟩
  | cons chunk chunks ih =>
    rw [feedAll] at f
    cases here : feedData p chunk with
    | error e =>
      rw [here] at f
      cases f
    | ok r =>
      obtain ⟨q, first⟩ := r
      rw [here] at f
      obtain ⟨_, _, received, -, -⟩ := received_feedData h here
      cases later : feedAll q chunks with
      | error e =>
        simp only [later] at f
        cases f
      | ok r =>
        obtain ⟨t, second⟩ := r
        simp only [later] at f
        cases f
        rw [List.flatten_cons, ← List.append_assoc]
        exact ih received later

/-- Where the stream is refused, every cutting is. -/
lemma feedAll_of_refused {input rest : Bytes} {size : Nat}
    (declared : declaredPayload input = some (size, rest)) (whole : size ≤ rest.length) {f : Fault}
    (refused : feedData (.new true) (rest.drop size) = .error f) {chunks : List Bytes}
    (cut : chunks.flatten = input) : ∃ e, feedAll (.new false) chunks = .error e := by
  cases fed : feedAll (.new false) chunks with
  | error e => exact ⟨e, rfl⟩
  | ok r =>
    obtain ⟨p, fed'⟩ := r
    obtain ⟨rdb, events, received⟩ := received_feedAll received_nil fed
    rw [List.nil_append, cut] at received
    have behind : behindPayload input = some (rest.drop size) := by
      simp only [behindPayload, declared, whole, if_true]
    have run := received.stream behind
    have fills : Fills ((ParserState.new true).push (rest.drop size)) := trivial
    rw [feedData_absorb fills, run] at refused
    cases refused

/-! ## An end inside the payload -/

section
variable {input rest : Bytes} {size k : Nat}

/-- The round with a front of the payload that has the end in it. -/
lemma round_ended (inside : k < size) (ends : Rdb.EndsImage (rest.take k)) {m : Nat}
    (enough : k ≤ m) (cut : m = size ∨ m < size ∧ m = rest.length) (there : m ≤ rest.length) :
    ∃ q out, q.finished = true ∧
      parseNext (inFront size rest) =
        .next ((inFront size rest).fed size m q (rest.drop m)) out := by
  have hr : Receiving (inFront size rest) size .new := ⟨rfl, rfl, rfl, Nat.zero_lt_of_lt inside⟩
  -- the parser has finished with the bytes in front of the end and keeps the others
  obtain ⟨q, out, early, flag⟩ := ends
  rw [Rdb.feedData_absorb rfl] at early
  have last : q.parseState = .finished := (Rdb.sound_absorb early Rdb.sound_new).mp flag
  have all : Rdb.feedData .new (rest.take m) = .ok (q.push ((rest.take m).drop k), out) := by
    have front : rest.take k = (rest.take m).take k := by rw [List.take_take, min_eq_left enough]
    rw [front] at early
    rw [Rdb.feedData_absorb rfl, ← List.take_append_drop k (rest.take m), Rdb.machine.absorb_append,
      early]
    simp only [Rdb.absorb_finished last, after_ok, List.append_nil, List.take_append_drop]
  have length : (rest.take m).length = m := List.length_take_of_le there
  have nonempty : k ≠ 0 := by
    rintro rfl
    exact Rdb.not_endsImage_nil ⟨q, out, by rw [Rdb.feedData_absorb rfl]; exact early, flag⟩
  have split : (inFront size rest).buffer = rest.take m ++ rest.drop m :=
    (List.take_append_drop m rest).symm
  have round := reading_round hr split (List.ne_nil_of_length_pos (by omega)) (by
      rw [length]
      show 0 + m = size ∨ 0 + m < size ∧ rest.drop m = []
      obtain rfl | ⟨short, all⟩ := cut
      · exact .inl (Nat.zero_add _)
      · exact .inr ⟨by omega, List.drop_eq_nil_of_le all.ge⟩)
  rw [all, length] at round
  exact ⟨q.push ((rest.take m).drop k), out.map .command, flag, round⟩

/-- In one piece the payload is taken with all that stands behind the end. -/
lemma feedAll_whole (declared : declaredPayload input = some (size, rest))
    (whole : size ≤ rest.length) (inside : k < size) (ends : Rdb.EndsImage (rest.take k))
    {r : ParserState × Fed} (stream : feedData (.new true) (rest.drop size) = .ok r) :
    ∃ r', feedAll (.new false) [input] = .ok r' := by
  obtain ⟨q, out, -, round⟩ := round_ended inside ends inside.le (.inl rfl) whole
  have start : (inFront size rest).fed size size q (rest.drop size) =
    (ParserState.new true).push (rest.drop size) := by
    rw [ParserState.fed, if_pos (Nat.le_add_left _ _)]
    rfl
  obtain ⟨t, fed⟩ := r
  obtain ⟨more, drained, -⟩ := drain_of_feedData stream
  have header : parseNext ((ParserState.new false).push input) = .next (inFront size rest) [] :=
    parseRdbHeader_declared declared
  have first : drain ((ParserState.new false).push input) = after out (.ok (t, more)) := by
    rw [drain_next header, after_nil, drain_next round, start, drained]
  have done := feedData_of_drain (first.trans (after_ok _ _ _))
  exact ⟨_, by rw [feedAll, done]; rfl⟩

/-- A cutting behind the end is refused: the RDB parser is called once more. -/
lemma feedAll_behind {header : Bytes} (declared : declaredPayload header = some (size, []))
    (whole : size ≤ rest.length) (inside : k < size) (ends : Rdb.EndsImage (rest.take k)) :
    ∃ e, feedAll (.new false) [header ++ rest.take k, rest.drop k] = .error e := by
  have length : (rest.take k).length = k := List.length_take_of_le (by omega)
  have early : Rdb.EndsImage ((rest.take k).take k) := by rwa [List.take_of_length_le length.le]
  obtain ⟨q, out, flag, round⟩ :=
    round_ended inside early le_rfl (.inr ⟨inside, length.symm⟩) length.ge
  have header_round : parseNext ((ParserState.new false).push (header ++ rest.take k))
      = .next (inFront size (rest.take k)) [] :=
        parseRdbHeader_declared (declaredPayload_append declared _)
  have hr : Receiving (inFront size (rest.take k)) size .new :=
    ⟨rfl, rfl, rfl, Nat.zero_lt_of_lt inside⟩
  have short : (inFront size (rest.take k)).rdbBytesRead + k < size := by
    show 0 + k < size
    omega
  let t := (inFront size (rest.take k)).fed size k q ((rest.take k).drop k)
  have next : Receiving t size q := hr.fed short q _
  have isEmpty : t.buffer = [] := (fed_buffer _ _ _ _ _).trans (List.drop_eq_nil_of_le length.le)
  have first : drain ((ParserState.new false).push (header ++ rest.take k)) =
    .ok (t, out ++ []) := by
    rw [drain_next header_round, after_nil, drain_next round,
      drain_stall (reading_empty next isEmpty), after_ok]
  -- the second call finds a parser that has finished
  have next' : Receiving (t.push (rest.drop k)) size q :=
    ⟨next.state, next.size, next.parser, next.missing⟩
  have more : (t.push (rest.drop k)).buffer ≠ [] := by
    rw [push_buffer, isEmpty, List.nil_append]
    exact List.ne_nil_of_length_pos (by rw [List.length_drop]; omega)
  have fault : parseNext (t.push (rest.drop k)) = .fault (.err "already_finished") := by
    simp only [parseNext, next'.state]
    rw [streamRdbData_eq next' more]
    simp only [Rdb.feedData, flag, if_true]
  have second : feedData t (rest.drop k) = .error (.err "already_finished") := by
    rw [feedData, drain_fault fault]
  refine ⟨.err "already_finished", ?_⟩
  rw [feedAll, feedData_of_drain first]
  simp only [feedAll, second]

end

/-! ## The condition -/

/-- The input may be cut anywhere exactly when the RDB parser does not come to an end inside the
payload, or the stream behind the payload is refused. -/
lemma chunkInvariant_payload {input rest : Bytes} {size : Nat}
    (declared : declaredPayload input = some (size, rest)) (whole : size ≤ rest.length) :
    ChunkInvariant input ↔ (∀ k < size, ¬ Rdb.EndsImage (rest.take k)) ∨
      ∃ f, feedData (.new true) (rest.drop size) = .error f := by
  constructor
  · intro law
    cases stream : feedData (.new true) (rest.drop size) with
    | error f => exact .inr ⟨f, rfl⟩
    | ok r =>
      refine .inl fun k inside ends => ?_
      obtain ⟨header, rfl, only⟩ := declaredPayload_split declared
      obtain ⟨r', taken⟩ := feedAll_whole declared whole inside ends stream
      have front : rest.take k ≠ [] := by
        intro nil
        rw [nil] at ends
        exact Rdb.not_endsImage_nil ends
      have back : rest.drop k ≠ [] := List.ne_nil_of_length_pos (by rw [List.length_drop]; omega)
      have nonempty : rest ≠ [] := by
        rintro rfl
        exact front List.take_nil
      obtain ⟨errors, -⟩ :=
        law [header ++ rest] [header ++ rest.take k, rest.drop k] (by simp [nonempty])
        (by simp [front, back]) (by simp) (by simp)
      obtain ⟨e, error⟩ := errors.mpr (feedAll_behind only whole inside ends)
      cases taken.symm.trans error
  · rintro (late | ⟨f, refused⟩) cs ds - - hc hd
    · have declares : DeclaresImage input := by
        intro size' rest' declared' k lt
        cases declared.symm.trans declared'
        exact late k lt
      rw [feedAll_congr declares hc hd]
      exact sameOutcome_refl _
    · exact sameOutcome_errors (feedAll_of_refused declared whole refused hc)
        (feedAll_of_refused declared whole refused hd)

/-- An image of known types does not end inside itself: it is refused, or read to its last byte. -/
lemma not_ends_known {img : Image} (known : img.Known) (bound : img.encode.length < usizeSize)
    {k : Nat} (inside : k < img.encode.length) : ¬ Rdb.EndsImage (img.encode.take k) := by
  obtain ⟨q, run, flag, -, isEmpty⟩ := RdbFormat.absorb_reading known bound
  cases reading : RdbFormat.readingFrom 0 img.entries with
  | ok commands =>
    rw [reading] at run
    have image : Rdb.IsImage img.encode :=
      ⟨q, commands, (Rdb.feedData_absorb rfl _).trans run, flag, isEmpty⟩
    exact image.not_ends inside
  | error f =>
    rw [reading] at run
    rintro ⟨t, out, early, flag'⟩
    rw [Rdb.feedData_absorb rfl] at early
    have last : t.parseState = .finished := (Rdb.sound_absorb early Rdb.sound_new).mp flag'
    rw [← List.take_append_drop k img.encode, Rdb.machine.absorb_append, early] at run
    simp only [Rdb.absorb_finished last, after_ok] at run
    cases run

/-- An input with its whole payload may be cut anywhere exactly when the RDB parser does not come to
an end inside the payload, or the stream behind the payload is refused. It may be where the payload
is an image of known types. -/
theorem chunkInvariant_iff {input rest : Bytes} {size : Nat}
    (declared : declaredPayload input = some (size, rest)) (whole : size ≤ rest.length) :
    (ChunkInvariant input ↔ (∀ k < size, ¬ Rdb.EndsImage (rest.take k)) ∨
        ∃ f, feedData (.new true) (rest.drop size) = .error f) ∧
      ∀ img : Image, rest.take size = img.encode → img.encode.length < usizeSize → img.Known →
        ChunkInvariant input := by
  have exact := chunkInvariant_payload declared whole
  refine ⟨exact, fun img payload bound known => exact.mpr (.inl fun k inside => ?_)⟩
  have length : img.encode.length = size := by rw [← payload, List.length_take_of_le whole]
  have front : rest.take k = img.encode.take k := by
    rw [← payload, List.take_take, min_eq_left inside.le]
  rw [front]
  exact not_ends_known known bound (by omega)

/-- The image of one string, and a stream command. -/
def sampleImage : Bytes :=
  ascii "REDIS0009" ++ [0, 1, 107, 1, 118, 255, 0, 0, 0, 0, 0, 0, 0, 0]

def sampleStream : Bytes := ascii "*1\r\n$4\r\nPING\r\n"

def sampleInput : Bytes := ascii "$23\r\n" ++ sampleImage ++ sampleStream

/-- The payload of the sample input has the length of its image. -/
lemma sampleInput_declared :
    declaredPayload sampleInput = some (23, sampleImage ++ sampleStream) := by
  decide +kernel

/-- No front part of the sample image is read to an end. -/
lemma sampleInput_late : ∀ k < 23, ¬ Rdb.EndsImage ((sampleImage ++ sampleStream).take k) := by
  have image : Rdb.IsImage sampleImage :=
    ⟨_, [⟨0, ascii "SET", [[107], [118]]⟩], by rfl, by rfl, by rfl⟩
  intro k lt
  have length : sampleImage.length = 23 := by decide +kernel
  rw [List.take_append_of_le_length (by omega)]
  exact image.not_ends (by omega)

/-- The image of one known entry, cut inside the image and inside the command behind it. -/
theorem chunkInvariant_sample :
    SameOutcome (feedAll (.new false) [sampleInput])
      (feedAll (.new false) [ascii "$2", ascii "3\r\n" ++ sampleImage.take 12,
        sampleImage.drop 12 ++ sampleStream.take 5, sampleStream.drop 5]) :=
  (chunkInvariant_iff sampleInput_declared (by decide +kernel)).1.mpr (.inl sampleInput_late) _ _
    (by decide +kernel) (by decide +kernel) (by decide +kernel) (by decide +kernel)

/-- The checksum of the image below has eight bytes. -/
lemma length_checksum : ([1, 2, 3, 4, 5, 6, 7, 8] : Bytes).length = 8 := rfl

/-- A plain set (type 2) with the members a, five bytes that read as an empty sorted set and the end
of an image, and b. -/
def endingImage : Image where
  magic := ascii "REDIS0011"
  magicSize := length_eleven
  version := checkVersion_eleven
  entries :=
    [{ opcodes := []
       key := text "s" length_s
       body := .unknown 2 [3, 1, 97, 5, 0, 0, 255, 65, 66, 1, 98] unsupported_set
         (List.cons_ne_nil _ _) }]
  opcodes := []
  checksum := [1, 2, 3, 4, 5, 6, 7, 8]
  checksumSize := length_checksum

/-- In one chunk the image is taken; cut behind the bytes that read as its end, it is refused. -/
theorem chunkInvariant_fails :
    declaredPayload (ascii "$32\r\n" ++ endingImage.encode)
        = some (endingImage.encode.length, endingImage.encode) ∧
      ¬ ChunkInvariant (ascii "$32\r\n" ++ endingImage.encode) := by
  have declared : declaredPayload (ascii "$32\r\n" ++ endingImage.encode)
      = some (endingImage.encode.length, endingImage.encode) := by decide +kernel
  refine ⟨declared, fun law => ?_⟩
  obtain ⟨errors, -⟩ := law [ascii "$32\r\n" ++ endingImage.encode]
    [ascii "$32\r\n" ++ endingImage.encode.take 31, endingImage.encode.drop 31]
    (by decide +kernel) (by decide +kernel) (by decide +kernel) (by decide +kernel)
  have refused : feedAll (.new false)
      [ascii "$32\r\n" ++ endingImage.encode.take 31, endingImage.encode.drop 31]
        = .error (.err "already_finished") := by decide +kernel
  have taken : feedAll (.new false) [ascii "$32\r\n" ++ endingImage.encode]
      = .ok (.new true, ⟨[⟨0, ascii "ZADD", [[]]⟩], false, false⟩) := by decide +kernel
  obtain ⟨e, error⟩ := errors.mpr ⟨_, refused⟩
  cases taken.symm.trans error

end Veidrodelis.RedisNif.ReplicaParser
