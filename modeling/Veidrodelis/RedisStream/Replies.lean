import Veidrodelis.RedisNif.Resp
import Veidrodelis.RedisStream.Run

/-!
# The replies of the handshake

What the primary says line by line, and what `parse_simple_response` and `parse_psync_response` make
of a buffer in which the keepalives in front of a line and the line stand: nothing as long as a byte
of it is missing (`parseSimpleResponse_short`, `parsePsyncResponse_short`), and the reply as soon as
the line is there, with everything behind it left over.
-/

namespace Veidrodelis.RedisStream
open RedisNif

namespace Replica

/-- Keepalives of the primary: any number of line ends. -/
def LineEnds (bytes : Bytes) : Prop := ∀ b ∈ bytes, b = 13 ∨ b = 10

/-- A text that goes on one line. -/
def OneLine (text : Bytes) : Prop := ∀ b ∈ text, b ≠ 13

instance {bytes : Bytes} : Decidable (LineEnds bytes) :=
  inferInstanceAs (Decidable (∀ b ∈ bytes, b = 13 ∨ b = 10))

instance {text : Bytes} : Decidable (OneLine text) :=
  inferInstanceAs (Decidable (∀ b ∈ text, b ≠ 13))

/-- A simple reply, behind the keepalives in front of it. -/
structure SimpleReply where
  keepalive : Bytes
  text : Bytes
  lineEnds : LineEnds keepalive
  oneLine : OneLine text

def SimpleReply.bytes (reply : SimpleReply) : Bytes := reply.keepalive ++ (43 :: reply.text ++ crlf)

/-- The last line of the handshake: an error, or the reply to `PSYNC`. -/
inductive Ending where
  | error (text : Bytes)
  | fullresync (replicationId : Bytes) (offset : Int) (spaceless : 32 ∉ replicationId)
  /-- Newer primaries send their replication id behind the word. -/
  | continued (tail : Bytes)

def Ending.line : Ending → Bytes
  | .error text => 45 :: text
  | .fullresync replicationId offset _ =>
    ascii "+FULLRESYNC " ++ (replicationId ++ 32 :: Bytes.intText offset)
  | .continued tail => ascii "+CONTINUE" ++ tail

/-- What the line says to a replica that awaits the reply to `PSYNC`. -/
def Ending.reply : Ending → Option PsyncReply
  | .error _ => none
  | .fullresync replicationId offset _ => some (.fullresync replicationId offset)
  | .continued _ => some .continued

/-- What is made of the whole line then. -/
def Ending.read (rest : Bytes) : Ending → Reply PsyncReply
  | .error text => .failed (.redisError text)
  | .fullresync replicationId offset _ => .complete (.fullresync replicationId offset) rest
  | .continued _ => .complete .continued rest

/-! ## Lines -/

variable {keepalive line text rest buffer : Bytes}

/-- A line is split off at its end. -/
lemma splitLine_line (h : OneLine line) (rest : Bytes) :
    splitLine (line ++ crlf ++ rest) = some (line, rest) := by
  have found : findCrlf (line ++ crlf ++ rest) = some line.length := by
    rw [List.append_assoc]
    exact findCrlf_line h rest
  rw [splitLine, found, Option.map_some, List.append_assoc, List.take_left, ← List.append_assoc]
  have size : line.length + 2 = (line ++ crlf).length := by rw [List.length_append, crlf]; rfl
  rw [size, List.drop_left]

/-- The line end is not there before the last byte of it. -/
lemma splitLine_short (h : OneLine line) (front : buffer <+: line ++ crlf)
    (short : buffer ≠ line ++ crlf) : splitLine buffer = none := by
  obtain ⟨missing, eq⟩ := front
  have whole : findCrlf (line ++ crlf) = some line.length := findCrlf_line h []
  cases found : findCrlf buffer with
  | none => rw [splitLine, found, Option.map_none]
  | some pos =>
    have later := findCrlf_append found missing
    rw [eq, whole, Option.some_inj] at later
    have bound := findCrlf_bound found
    have size := congrArg List.length eq
    rw [List.length_append, List.length_append, crlf] at size
    have isNil : missing = [] := by
      refine List.length_eq_zero_iff.mp ?_
      simp only [List.length_cons, List.length_nil] at size
      omega
    rw [isNil, List.append_nil] at eq
    exact absurd eq short

/-- What begins two texts one after the other ends inside the first, or begins the second. -/
lemma prefix_append_cases {α : Type} {p a b : List α} (h : p <+: a ++ b) :
    (p <+: a ∧ p ≠ a) ∨ ∃ begun, p = a ++ begun ∧ begun <+: b := by
  obtain ⟨missing, eq⟩ := h
  obtain ⟨more, rfl, rfl⟩ | ⟨begun, rfl, rfl⟩ := List.append_eq_append_iff.mp eq
  · by_cases isNil : more = []
    · rw [isNil, List.append_nil]
      exact .inr ⟨[], (List.append_nil _).symm, List.nil_prefix⟩
    · refine .inl ⟨List.prefix_append _ _, fun same => isNil ?_⟩
      exact List.append_right_eq_self.mp same.symm
  · exact .inr ⟨begun, rfl, List.prefix_append _ _⟩

/-- A buffer in which a byte of the line is missing holds keepalives only, or begins the line. -/
lemma short_cases (h : LineEnds keepalive) (one : OneLine line)
    (front : buffer <+: keepalive ++ (line ++ crlf))
    (short : buffer ≠ keepalive ++ (line ++ crlf)) :
    LineEnds buffer ∨ ∃ begun, buffer = keepalive ++ begun ∧ begun ≠ [] ∧ begun <+: line ++ crlf ∧
      splitLine begun = none := by
  obtain ⟨early, -⟩ | ⟨begun, rfl, later⟩ := prefix_append_cases front
  · exact .inl fun b hb => h b (early.mem hb)
  · by_cases isEmpty : begun = []
    · rw [isEmpty, List.append_nil]
      exact .inl h
    · exact .inr ⟨begun, rfl, isEmpty, later, splitLine_short one later fun e => short (by rw [e])⟩

/-! ## Simple replies -/

/-- Line ends in front of a simple reply are skipped. -/
lemma parseSimpleResponse_keepalive (h : LineEnds keepalive) (rest : Bytes) :
    parseSimpleResponse (keepalive ++ rest) = parseSimpleResponse rest := by
  induction keepalive with
  | nil => rfl
  | cons b keepalive ih =>
    have lineEnd : b = 13 ∨ b = 10 := h b List.mem_cons_self
    rw [List.cons_append, parseSimpleResponse, if_pos lineEnd]
    exact ih fun b hb => h b (List.mem_cons_of_mem _ hb)

/-- Without the end of the line there is no reply. -/
lemma parseSimpleResponse_unended {b : UInt8} (plain : ¬ (b = 13 ∨ b = 10))
    (h : splitLine (b :: rest) = none) : parseSimpleResponse (b :: rest) = .incomplete := by
  rw [parseSimpleResponse, if_neg plain, h]
  simp only [ite_self]

/-- A part of a simple reply is incomplete. -/
lemma parseSimpleResponse_short {b : UInt8} (plain : ¬ (b = 13 ∨ b = 10)) (h : LineEnds keepalive)
    (one : OneLine (b :: text)) (front : buffer <+: keepalive ++ (b :: text ++ crlf))
    (short : buffer ≠ keepalive ++ (b :: text ++ crlf)) :
    parseSimpleResponse buffer = .incomplete := by
  obtain ends | ⟨begun, rfl, filled, early, unended⟩ := short_cases h one front short
  · have all := parseSimpleResponse_keepalive ends []
    rwa [List.append_nil] at all
  · rw [parseSimpleResponse_keepalive h]
    obtain ⟨c, begun, rfl⟩ := List.exists_cons_of_ne_nil filled
    obtain ⟨rfl, -⟩ := List.cons_prefix_cons.mp early
    exact parseSimpleResponse_unended plain unended

/-- A character more in front of a line. -/
lemma oneLine_cons {b : UInt8} (plain : b ≠ 13) (one : OneLine text) : OneLine (b :: text) := by
  intro c hc
  obtain rfl | later := List.mem_cons.mp hc
  · exact plain
  · exact one c later

/-- A simple reply that is there is taken, and the rest is left. -/
lemma parseSimpleResponse_line (reply : SimpleReply) (rest : Bytes) :
    parseSimpleResponse (reply.bytes ++ rest) = .complete reply.text rest := by
  have one : OneLine (43 :: reply.text) := oneLine_cons (by decide) reply.oneLine
  have split := splitLine_line one rest
  rw [SimpleReply.bytes, List.append_assoc, parseSimpleResponse_keepalive reply.lineEnds]
  rw [List.cons_append, List.cons_append] at split ⊢
  rw [parseSimpleResponse, if_neg (by decide), if_pos rfl, split]
  rfl

/-- An error reply that is there fails with its text. -/
lemma parseSimpleResponse_error (h : LineEnds keepalive) (one : OneLine text) (rest : Bytes) :
    parseSimpleResponse (keepalive ++ (45 :: text ++ crlf) ++ rest) =
      .failed (.redisError text) := by
  have split := splitLine_line (oneLine_cons (by decide) one : OneLine (45 :: text)) rest
  rw [List.append_assoc, parseSimpleResponse_keepalive h]
  rw [List.cons_append, List.cons_append] at split ⊢
  rw [parseSimpleResponse, if_neg (by decide), if_neg (by decide), if_pos rfl, split]
  rfl

/-! ## The reply to `PSYNC` -/

/-- Line ends in front of the reply to PSYNC are skipped. -/
lemma parsePsyncResponse_keepalive (h : LineEnds keepalive) (rest : Bytes) :
    parsePsyncResponse (keepalive ++ rest) = parsePsyncResponse rest := by
  induction keepalive with
  | nil => rfl
  | cons b keepalive ih =>
    have lineEnd : b = 13 ∨ b = 10 := h b List.mem_cons_self
    rw [List.cons_append, parsePsyncResponse, if_pos lineEnd]
    exact ih fun b hb => h b (List.mem_cons_of_mem _ hb)

/-- A reply to PSYNC without a line end is incomplete. -/
lemma parsePsyncResponse_unended {b : UInt8} (plain : ¬ (b = 13 ∨ b = 10))
    (h : splitLine (b :: rest) = none) : parsePsyncResponse (b :: rest) = .incomplete := by
  rw [parsePsyncResponse, if_neg plain, h]
  simp only [ite_self]

/-- The last reply does not begin with a line end. -/
lemma Ending.line_head (ending : Ending) :
    ∃ b text, ending.line = b :: text ∧ ¬ (b = 13 ∨ b = 10) := by
  cases ending with
  | error text => exact ⟨45, text, rfl, by decide⟩
  | fullresync replicationId offset spaceless => exact ⟨43, _, rfl, by decide⟩
  | continued tail => exact ⟨43, _, rfl, by decide⟩

/-- A part of the last reply is incomplete. -/
lemma parsePsyncResponse_short (ending : Ending) (h : LineEnds keepalive)
    (one : OneLine ending.line) (front : buffer <+: keepalive ++ (ending.line ++ crlf))
    (short : buffer ≠ keepalive ++ (ending.line ++ crlf)) :
    parsePsyncResponse buffer = .incomplete := by
  obtain ends | ⟨begun, rfl, filled, early, unended⟩ := short_cases h one front short
  · have all := parsePsyncResponse_keepalive ends []
    rwa [List.append_nil] at all
  · rw [parsePsyncResponse_keepalive h]
    obtain ⟨b, text, head, plain⟩ := ending.line_head
    obtain ⟨c, begun, rfl⟩ := List.exists_cons_of_ne_nil filled
    rw [head, List.cons_append] at early
    obtain ⟨rfl, -⟩ := List.cons_prefix_cons.mp early
    exact parsePsyncResponse_unended plain unended

/-- The text of an integer is read as it. -/
lemma stringToInteger_intText (v : Int) : stringToInteger (Bytes.intText v) = some v :=
  Bytes.parseInt_intText v

/-- The id and the offset of a full resync are read. -/
lemma parseFullresync_line {replicationId : Bytes} (offset : Int) (spaceless : 32 ∉ replicationId) :
    parseFullresync (replicationId ++ 32 :: Bytes.intText offset) =
      some (.fullresync replicationId offset) := by
  have all : ∀ b ∈ replicationId, decide (b ≠ 32) = true := fun b hb =>
    decide_eq_true fun space => spaceless (space ▸ hb)
  have front : (replicationId ++ 32 :: Bytes.intText offset).takeWhile (· ≠ 32) =
    replicationId := by
    rw [List.takeWhile_append_of_pos all]
    simp
  have behind : (replicationId ++ 32 :: Bytes.intText offset).dropWhile (· ≠ 32) =
    32 :: Bytes.intText offset := by
    rw [List.dropWhile_append_of_pos all]
    simp
  rw [parseFullresync, front, behind]
  simp only [stringToInteger_intText, Option.map_some]

/-- The reply to `PSYNC`, or the error, is read off as soon as its line is there. -/
lemma parsePsyncResponse_line (ending : Ending) (h : LineEnds keepalive) (one : OneLine ending.line)
    (rest : Bytes) :
    parsePsyncResponse (keepalive ++ (ending.line ++ crlf) ++ rest) = ending.read rest := by
  have split := splitLine_line one rest
  rw [List.append_assoc, parsePsyncResponse_keepalive h]
  cases ending with
  | error text =>
    simp only [Ending.line, List.cons_append] at split ⊢
    rw [parsePsyncResponse, if_neg (by decide), if_neg, if_neg, if_pos rfl, split]
    · rfl
    · simp [ascii, List.isPrefixOf]
    · simp [ascii, List.isPrefixOf]
  | fullresync replicationId offset spaceless =>
    have long : (ascii "+FULLRESYNC ").isPrefixOf
        (Ending.line (.fullresync replicationId offset spaceless) ++ crlf ++ rest) = true := by
      rw [List.isPrefixOf_iff_prefix, Ending.line, List.append_assoc, List.append_assoc]
      exact List.prefix_append _ _
    have params : (Ending.line (.fullresync replicationId offset spaceless)).drop 12
        = replicationId ++ 32 :: Bytes.intText offset := rfl
    obtain ⟨b, text, head, plain⟩ := Ending.line_head (.fullresync replicationId offset spaceless)
    rw [head, List.cons_append, List.cons_append] at split long ⊢
    rw [parsePsyncResponse, if_neg plain, if_pos long, split]
    simp only
    rw [← head, params, parseFullresync_line offset spaceless]
    rfl
  | continued tail =>
    simp only [Ending.line] at split ⊢
    have other : (ascii "+FULLRESYNC ").isPrefixOf (ascii "+CONTINUE" ++ tail ++ crlf ++ rest) =
      false := by
      simp [ascii, List.isPrefixOf]
    have long : (ascii "+CONTINUE").isPrefixOf (ascii "+CONTINUE" ++ tail ++ crlf ++ rest) =
      true := by
      rw [List.isPrefixOf_iff_prefix, List.append_assoc, List.append_assoc]
      exact List.prefix_append _ _
    obtain ⟨b, text, head, plain⟩ := Ending.line_head (.continued tail)
    rw [Ending.line] at head
    rw [head, List.cons_append, List.cons_append] at split long other ⊢
    rw [parsePsyncResponse, if_neg plain, if_neg (by rw [other]; decide), if_pos long, split]
    rfl

end Replica

end Veidrodelis.RedisStream
