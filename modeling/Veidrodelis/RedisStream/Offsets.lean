import Veidrodelis.RedisNif.ChunkInvariance
import Veidrodelis.RedisStream.Connections

/-!
# The replication offset

`replication_offset` grows by whole chunks, and only by those that arrive when the parser streams
already. `lastReceived` is the primary's number of the last stream byte that was received: numbering
starts behind the offset of `+FULLRESYNC`, and after `+CONTINUE` it goes on with the number that was
asked for. `replicationOffset_eq` says when the two agree.
-/

namespace Veidrodelis.RedisStream
open RedisNif
open RedisNif.ReplicaParser (behindPayload behindPayload_append)

variable {κ σ ε μ : Type}

namespace Replica

namespace Connection

/-- All bytes that arrived, the refused ones included. -/
def delivered (c : Connection κ) : Bytes := c.received ++ c.refused.getD []

/-- How many stream bytes there are among the received ones. -/
def streamLength (reply : PsyncReply) (received : Bytes) : Nat :=
  ((streamOf reply received).getD []).length

/-- How many stream bytes a chunk brings. -/
def carried (reply : PsyncReply) (before chunk : Bytes) : Nat :=
  streamLength reply (before ++ chunk) - streamLength reply before

/-- A chunk with stream bytes finds the stream begun, on a connection with a full resync. -/
def CountedFrom (reply : PsyncReply) : Bytes → List Bytes → Prop
  | _, [] => True
  | before, chunk :: chunks =>
    (0 < carried reply before chunk → reply ≠ .continued ∧ (streamOf reply before).isSome) ∧
      CountedFrom reply (before ++ chunk) chunks

/-- So does every chunk of the connection, and a refused chunk brings no stream bytes. -/
def Counted (c : Connection κ) : Prop :=
  CountedFrom c.reply [] c.chunks ∧ ∀ chunk, c.refused = some chunk →
    carried c.reply c.received chunk = 0

instance decidableCountedFrom (reply : PsyncReply) :
    (before : Bytes) → (chunks : List Bytes) → Decidable (CountedFrom reply before chunks)
  | _, [] => .isTrue trivial
  | before, chunk :: chunks =>
    have := decidableCountedFrom reply (before ++ chunk) chunks
    inferInstanceAs (Decidable (_ ∧ _))

instance (c : Connection κ) : Decidable c.Counted :=
  decidable_of_iff (CountedFrom c.reply [] c.chunks ∧
    ∀ chunk ∈ c.refused, carried c.reply c.received chunk = 0) (by simp [Counted])

/-- A chunk behind the stream's beginning belongs to it. -/
lemma streamOf_append {reply : PsyncReply} {received stream : Bytes}
    (h : streamOf reply received = some stream) (chunk : Bytes) :
    streamOf reply (received ++ chunk) = some (stream ++ chunk) := by
  cases reply with
  | fullresync replicationId offset => exact behindPayload_append h chunk
  | continued =>
    cases h
    rfl

/-- Once the stream has begun, a chunk is a chunk of it. -/
lemma streamLength_append {reply : PsyncReply} {received : Bytes}
    (h : (streamOf reply received).isSome) (chunk : Bytes) :
    streamLength reply (received ++ chunk) = streamLength reply received + chunk.length := by
  obtain ⟨stream, e⟩ := Option.isSome_iff_exists.mp h
  simp [streamLength, streamOf_append e chunk, e]

/-- The stream grows with what is received. -/
lemma streamLength_le (reply : PsyncReply) (received chunk : Bytes) :
    streamLength reply received ≤ streamLength reply (received ++ chunk) := by
  by_cases h : (streamOf reply received).isSome
  · rw [streamLength_append h]
    omega
  · rw [Option.not_isSome_iff_eq_none] at h
    simp [streamLength, h]

/-- What is counted is the stream. -/
lemma countedFrom_eq {reply : PsyncReply} {before : Bytes} {chunks : List Bytes}
    (h : CountedFrom reply before chunks) :
    streamLength reply before + countedFrom reply before chunks =
      streamLength reply (before ++ chunks.flatten) := by
  induction chunks generalizing before with
  | nil => simp [countedFrom]
  | cons chunk chunks ih =>
    obtain ⟨first, rest⟩ := h
    have later := ih rest
    have more := streamLength_le reply before chunk
    rw [List.flatten_cons, ← List.append_assoc, ← later, countedFrom]
    by_cases begun : (streamOf reply before).isSome
    · rw [if_pos begun, streamLength_append begun]
      omega
    · have isZero : carried reply before chunk = 0 := by
        by_contra some
        exact begun (first (Nat.pos_of_ne_zero some)).2
      rw [if_neg begun]
      unfold carried at isZero
      omega

/-- After `+CONTINUE` nothing can be counted rightly. -/
lemma countedFrom_continued {before : Bytes} {chunks : List Bytes}
    (h : CountedFrom .continued before chunks) : chunks.flatten = [] := by
  induction chunks generalizing before with
  | nil => rfl
  | cons chunk chunks ih =>
    obtain ⟨first, rest⟩ := h
    have isZero : carried .continued before chunk = 0 := by
      by_contra some
      exact (first (Nat.pos_of_ne_zero some)).1 rfl
    have isEmpty : chunk = [] := by
      simpa [carried, streamLength, streamOf] using isZero
    rw [List.flatten_cons, ih rest, isEmpty, List.nil_append]

/-- The refused chunk of a connection brings no stream bytes. -/
lemma Counted.streamLength_delivered {c : Connection κ} (h : c.Counted) :
    streamLength c.reply c.delivered = streamLength c.reply c.received := by
  have more := streamLength_le c.reply c.received (c.refused.getD [])
  cases e : c.refused with
  | none => simp [delivered, e]
  | some chunk =>
    have nowhere := h.2 chunk e
    rw [e, Option.getD_some] at more
    rw [delivered, e, Option.getD_some]
    unfold carried at nowhere
    omega

end Connection

open Connection

/-- The primary's number of the last stream byte received on these connections, the latest first.
After `+CONTINUE` the first byte has the number that was asked for. -/
def lastReceived : List (Connection κ) → Int
  | [] => 0
  | c :: cs =>
    match c.reply with
    | .fullresync _ offset => offset + streamLength c.reply c.delivered
    | .continued =>
      if c.delivered = [] then lastReceived cs
      else max (lastReceived cs) (c.requested + c.delivered.length - 1)

/-- If each connection counted what it received, the offset is the last byte received. -/
lemma offsetAfter_eq_lastReceived {cs : List (Connection κ)} (h : ∀ c ∈ cs, c.Counted) :
    offsetAfter cs = lastReceived cs := by
  induction cs with
  | nil => rfl
  | cons c cs ih =>
    have counted := h c (by simp)
    have earlier := ih fun d hd => h d (by simp [hd])
    have delivered := counted.streamLength_delivered
    have all := countedFrom_eq counted.1
    cases e : c.reply with
    | fullresync replicationId offset =>
      have begin0 : streamLength (.fullresync replicationId offset) [] = 0 := rfl
      rw [e] at delivered all
      rw [begin0, Nat.zero_add, List.nil_append] at all
      simp only [offsetAfter, lastReceived, e, Connection.counted, delivered, all]
      rfl
    | continued =>
      have first := counted.1
      rw [e] at first delivered
      have nothing : c.received = [] := countedFrom_continued first
      have nothing' : c.delivered = [] := by
        simpa [streamLength, streamOf, nothing] using delivered
      have zero : c.counted = 0 := by
        rw [e, List.nil_append] at all
        have flat : c.chunks.flatten = [] := nothing
        simpa [Connection.counted, e, streamLength, streamOf, flat] using all
      simp only [offsetAfter, lastReceived, e, nothing', if_true, zero, earlier]
      omega

/-- In every run in which each chunk with stream bytes is accepted, on a connection with a full
resync whose payload was complete before, the offset is the number of the last stream byte
received. -/
theorem replicationOffset_eq {cfg : Config κ σ ε μ} {trace : List (Effect κ σ ε)} {s : State σ}
    (h : Run cfg trace (.running s)) (counted : ∀ c ∈ (logOf trace).connections, c.Counted) :
    s.replicationOffset = lastReceived (logOf trace).connections := by
  rw [(run_tracks h).offset, offsetAfter_eq_lastReceived counted]

/-- The payload arrives in a chunk of its own, then a `PING`. -/
def countedRun : List (Message Unit) :=
  handshake ++ [.data 0 (ascii "+FULLRESYNC id 7\r\n$23\r\n"), .data 0 ReplicaParser.sampleImage,
    .data 0 ReplicaParser.sampleStream]

/-- A run whose image ends in a chunk of its own counts every byte. -/
theorem replicationOffset_eq_sample :
    ∃ s, (execute .plain .fine countedRun).2 = .running s ∧
      s.replicationOffset =
        lastReceived (logOf (execute .plain .fine countedRun).1).connections := by
  obtain ⟨s, e⟩ : ∃ s, (execute .plain .fine countedRun).2 = .running s := ⟨_, rfl⟩
  have run := run_execute .plain .fine countedRun
  rw [e] at run
  exact ⟨s, e, replicationOffset_eq run (by decide +kernel)⟩

/-- The `PING` stands in the chunk in which the payload ends: its 14 bytes are not counted. -/
def tailRun : List (Message Unit) :=
  handshake ++ [.data 0 (ascii "+FULLRESYNC id 7\r\n" ++ ReplicaParser.sampleInput)]

/-- The offset is not the number of the last stream byte in every run. -/
theorem replicationOffset_lags :
    ¬ ∀ trace s, Run .plain trace (.running s) →
      s.replicationOffset = lastReceived (logOf trace).connections := by
  intro law
  obtain ⟨s, e, offset⟩ : ∃ s, (execute .plain .fine tailRun).2 = .running s ∧
      s.replicationOffset = 7 := ⟨_, rfl, rfl⟩
  have run := run_execute .plain .fine tailRun
  rw [e] at run
  have last : lastReceived (logOf (execute .plain .fine tailRun).1).connections = 21 := by
    decide +kernel
  have eq := law _ s run
  rw [offset, last] at eq
  exact absurd eq (by decide)

end Replica

end Veidrodelis.RedisStream
