import Veidrodelis.RedisStream.Connections

/-!
# Full resyncs and what goes on with them

A full resync begins a new copy of the data, and the partial resyncs behind it go on with the same
one. The connections of a run fall into epochs in this way, which are numbered; `emittedIn` is what
came out in one.
-/

namespace Veidrodelis.RedisStream
open RedisNif

variable {κ σ ε μ : Type}

namespace Replica

/-! ## Epochs -/

/-- A connection that begins with a snapshot. -/
def Connection.isFull (c : Connection κ) : Bool :=
  match c.reply with
  | .fullresync _ _ => true
  | .continued => false

/-- How many snapshots were begun on these connections. -/
def fullResyncs (cs : List (Connection κ)) : Nat := cs.countP (·.isFull)

/-- The connection of the `n`-th full resync and those that go on with it, the latest first. -/
def epoch (n : Nat) : List (Connection κ) → List (Connection κ)
  | [] => []
  | c :: cs => if fullResyncs (c :: cs) = n then c :: epoch n cs else epoch n cs

/-- What the parser has emitted in an epoch. -/
def emittedIn (n : Nat) (cs : List (Connection κ)) : List RawCommand :=
  (epoch n cs).reverse.flatMap (·.emitted)

/-- The last snapshot that was begun has been received to its end. -/
def Transferred (cs : List (Connection κ)) : Prop :=
  ∃ c, cs.find? (·.isFull) = some c ∧ c.stream.isSome

/-- The command stream has begun on the latest connection: its parser is in the mode of
streaming. -/
def Streams (cs : List (Connection κ)) : Prop := ∃ c earlier, cs = c :: earlier ∧ c.stream.isSome

/-- The commands that the callback module gets for what was emitted. -/
def commandsFor (cfg : Config κ σ ε μ) (emitted : List RawCommand) : List (ReplicaCommand κ) :=
  cfg.commandFilter.applyPre (emitted.filterMap (Parser.convertCommand cfg.parse))

/-- Commands are passed on one part after the other. -/
lemma commandsFor_append (cfg : Config κ σ ε μ) (emitted more : List RawCommand) :
    commandsFor cfg (emitted ++ more) = commandsFor cfg emitted ++ commandsFor cfg more := by
  rw [commandsFor, List.filterMap_append, CommandFilter.applyPre_append]
  rfl

/-- Commands that are all parsed. -/
lemma commandsFor_eq {cfg : Config κ σ ε μ} {emitted : List RawCommand}
    {commands : List (ReplicaCommand κ)}
    (h : Parser.convertCommands cfg.parse emitted = some commands) :
    commandsFor cfg emitted = cfg.commandFilter.applyPre commands := by
  suffices same : emitted.filterMap (Parser.convertCommand cfg.parse) =
    commands by rw [commandsFor, same]
  induction emitted generalizing commands with
  | nil =>
    cases h
    rfl
  | cons cmd rest ih =>
    rw [Parser.convertCommands, List.mapM_cons] at h
    obtain ⟨command, first, h⟩ := Option.bind_eq_some_iff.mp h
    obtain ⟨commands', later, h⟩ := Option.bind_eq_some_iff.mp h
    cases h
    rw [List.filterMap_cons, first, ih later]

section
variable {n : Nat} {c c' : Connection κ} {cs : List (Connection κ)}

/-- A stream that has begun goes on. -/
lemma Connection.stream_accept {chunk : Bytes} {commands : List RawCommand}
    (begun : c.stream.isSome) : (c.accept chunk commands).stream.isSome := by
  obtain ⟨bytes, stream⟩ := Option.isSome_iff_exists.mp begun
  rw [Connection.stream, Connection.accept_received]
  show (streamOf c.reply (c.received ++ chunk)).isSome
  rw [Connection.stream] at stream
  cases e : c.reply with
  | fullresync replicationId offset =>
    rw [e] at stream
    have more : streamOf (.fullresync replicationId offset) (c.received ++ chunk) =
      some (bytes ++ chunk) :=
      ReplicaParser.behindPayload_append stream chunk
    rw [more]
    rfl
  | continued => rfl

/-- The record of a connection may grow; it remains of the same kind. -/
lemma isFull_congr (reply : c'.reply = c.reply) : c'.isFull = c.isFull := by
  rw [Connection.isFull, Connection.isFull, reply]

/-- A connection whose stream has not begun is a full resync. -/
lemma isFull_of_stream (h : c.stream = none) : c.isFull = true := by
  rw [Connection.stream] at h
  rw [Connection.isFull]
  cases reply : c.reply with
  | fullresync => rfl
  | continued =>
    rw [reply] at h
    cases h

/-- A full resync counts. -/
lemma fullResyncs_full (full : c.isFull = true) : fullResyncs (c :: cs) = fullResyncs cs + 1 :=
  List.countP_cons_of_pos full

/-- A continued connection does not count. -/
lemma fullResyncs_continued (continued : c.isFull = false) :
    fullResyncs (c :: cs) = fullResyncs cs :=
  List.countP_cons_of_neg (Bool.eq_false_iff.mp continued)

/-- The count depends on the replies only. -/
lemma fullResyncs_congr (reply : c'.reply = c.reply) :
    fullResyncs (c' :: cs) = fullResyncs (c :: cs) := by
  rw [fullResyncs, fullResyncs, List.countP_cons, List.countP_cons, isFull_congr reply]

/-- There is nothing in an epoch that has not begun. -/
lemma epoch_eq_nil (h : fullResyncs cs < n) : epoch n cs = [] := by
  induction cs with
  | nil => rfl
  | cons c cs ih =>
    have tail : fullResyncs cs < n := by
      refine lt_of_le_of_lt ?_ h
      rw [fullResyncs, fullResyncs, List.countP_cons]
      exact Nat.le_add_right _ _
    rw [epoch, if_neg (by omega), ih tail]

/-- A full resync begins an epoch. -/
lemma epoch_full (full : c.isFull = true) : epoch (fullResyncs (c :: cs)) (c :: cs) = [c] := by
  rw [epoch, if_pos rfl, epoch_eq_nil]
  rw [fullResyncs_full full]
  exact Nat.lt_succ_self _

/-- More is recorded of the connection that begins it. -/
lemma epoch_full_congr (full : c.isFull = true) (reply : c'.reply = c.reply) :
    epoch (fullResyncs (c :: cs)) (c' :: cs) = [c'] := by
  rw [← fullResyncs_congr reply]
  exact epoch_full ((isFull_congr reply).trans full)

/-- The newest connection belongs to the newest epoch. -/
lemma epoch_latest (latest : fullResyncs (c :: cs) = n) : epoch n (c :: cs) = c :: epoch n cs := by
  rw [epoch, if_pos latest]

/-- The newest connection belongs to no other epoch. -/
lemma epoch_other (other : fullResyncs (c :: cs) ≠ n) : epoch n (c :: cs) = epoch n cs := by
  rw [epoch, if_neg other]

/-- An epoch goes back to the same connection when more is recorded of the latest one. -/
lemma epoch_modified {c₀ : Connection κ} {later : List (Connection κ)} (reply : c'.reply = c.reply)
    (h : epoch n (c :: cs) = later ++ [c₀]) :
    (∃ later', epoch n (c' :: cs) = later' ++ [c₀]) ∨ c₀ = c ∧ epoch n (c' :: cs) = [c'] := by
  by_cases latest : fullResyncs (c :: cs) = n
  · have latest' : fullResyncs (c' :: cs) = n := (fullResyncs_congr reply).trans latest
    rw [epoch_latest latest] at h
    rw [epoch_latest latest']
    cases later with
    | nil =>
      obtain ⟨rfl, nowhere⟩ := List.cons.inj h
      exact .inr ⟨rfl, by rw [nowhere]⟩
    | cons d later =>
      obtain ⟨-, rest⟩ := List.cons.inj h
      exact .inl ⟨c' :: later, by rw [rest]; rfl⟩
  · have other : fullResyncs (c' :: cs) ≠ n :=
      fun eq => latest ((fullResyncs_congr reply).symm.trans eq)
    rw [epoch_other latest] at h
    rw [epoch_other other]
    exact .inl ⟨later, h⟩

/-- And so it does when a connection is made. -/
lemma epoch_begun {c₀ : Connection κ} {later : List (Connection κ)} (h : epoch n cs = later ++ [c₀])
    (c : Connection κ) : ∃ later', epoch n (c :: cs) = later' ++ [c₀] := by
  rw [epoch, h]
  split
  · exact ⟨c :: later, rfl⟩
  · exact ⟨later, rfl⟩

/-- What comes out belongs to the last epoch. -/
lemma emittedIn_latest {more : List RawCommand} (reply : c'.reply = c.reply)
    (emitted : c'.emitted = c.emitted ++ more) (latest : fullResyncs (c :: cs) = n) :
    emittedIn n (c' :: cs) = emittedIn n (c :: cs) ++ more := by
  have latest' : fullResyncs (c' :: cs) = n := (fullResyncs_congr reply).trans latest
  rw [emittedIn, emittedIn, epoch_latest latest, epoch_latest latest']
  simp [emitted]

/-- What other epochs emitted does not depend on the newest connection. -/
lemma emittedIn_other (reply : c'.reply = c.reply) (other : fullResyncs (c :: cs) ≠ n) :
    emittedIn n (c' :: cs) = emittedIn n (c :: cs) := by
  have other' : fullResyncs (c' :: cs) ≠ n :=
    fun eq => other ((fullResyncs_congr reply).symm.trans eq)
  rw [emittedIn, emittedIn, epoch_other other, epoch_other other']

/-- A connection on which nothing has come out yet. -/
lemma emittedIn_new (emitted : c.emitted = []) : emittedIn n (c :: cs) = emittedIn n cs := by
  rw [emittedIn, emittedIn, epoch]
  split
  · simp [emitted]
  · rfl

/-- An epoch that has not begun has emitted nothing. -/
lemma emittedIn_eq_nil (h : fullResyncs cs < n) : emittedIn n cs = [] := by
  rw [emittedIn, epoch_eq_nil h]
  rfl

/-- What is recorded besides what came out. -/
lemma emittedIn_modify {log : Log κ} {f : Connection κ → Connection κ}
    (h : ∀ c, (f c).reply = c.reply ∧ (f c).emitted = c.emitted) :
    emittedIn n (log.modify f).connections = emittedIn n log.connections := by
  cases e : log.connections with
  | nil => simp only [Log.modify, e]
  | cons c cs =>
    obtain ⟨reply, emitted⟩ := h c
    simp only [Log.modify, e]
    by_cases latest : fullResyncs (c :: cs) = n
    · have more : (f c).emitted = c.emitted ++ [] := emitted.trans (List.append_nil _).symm
      rw [emittedIn_latest reply more latest, List.append_nil]
    · exact emittedIn_other reply latest

/-! ## Transfers -/

/-- A full resync has transferred its image when its stream has begun. -/
lemma transferred_full (full : c.isFull = true) : Transferred (c :: cs) ↔ c.stream.isSome := by
  unfold Transferred
  rw [List.find?_cons_of_pos full]
  simp

/-- A continued connection transfers no image. -/
lemma transferred_continued (continued : c.isFull = false) :
    Transferred (c :: cs) ↔ Transferred cs := by
  unfold Transferred
  rw [List.find?_cons_of_neg (Bool.eq_false_iff.mp continued)]

/-- What is recorded of a connection matters through its kind and its stream. -/
lemma transferred_congr (reply : c'.reply = c.reply) (stream : c'.stream = c.stream) :
    Transferred (c' :: cs) ↔ Transferred (c :: cs) := by
  cases full : c.isFull with
  | true => rw [transferred_full full, transferred_full ((isFull_congr reply).trans full), stream]
  | false =>
    rw [transferred_continued full, transferred_continued ((isFull_congr reply).trans full)]

variable {log : Log κ} {f : Connection κ → Connection κ}

/-- A change that keeps the replies keeps the count. -/
lemma fullResyncs_modify (h : ∀ c, (f c).reply = c.reply) :
    fullResyncs (log.modify f).connections = fullResyncs log.connections := by
  cases e : log.connections with
  | nil => simp only [Log.modify, e]
  | cons c cs =>
    simp only [Log.modify, e]
    exact fullResyncs_congr (h c)

/-- A change that keeps reply and stream keeps what was transferred. -/
lemma transferred_modify (h : ∀ c, (f c).reply = c.reply ∧ (f c).stream = c.stream) :
    Transferred (log.modify f).connections ↔ Transferred log.connections := by
  cases e : log.connections with
  | nil => simp only [Log.modify, e]
  | cons c cs =>
    simp only [Log.modify, e]
    exact transferred_congr (h c).1 (h c).2

/-! ## Grounds for a partial resync -/

/-- A partial resync goes on with a snapshot that has been received to its end. -/
def Grounded (cs : List (Connection κ)) : Prop :=
  ∀ c earlier, cs = c :: earlier → c.isFull = false → Transferred earlier

/-- A change that keeps the replies keeps the ground. -/
lemma grounded_modify (h : Grounded log.connections) (reply : ∀ c, (f c).reply = c.reply) :
    Grounded (log.modify f).connections := by
  cases e : log.connections with
  | nil =>
    simp only [Log.modify, e]
    rintro _ _ ⟨⟩
  | cons c cs =>
    simp only [Log.modify, e]
    rintro c' earlier ⟨⟩ continued
    exact h c _ e ((isFull_congr (reply c)).symm.trans continued)

/-- It is so as long as the primary resumes after such a snapshot only. -/
lemma grounded_next {e : Effect κ σ ε} (h : Grounded log.connections)
    (resumes : e = .psyncCompleted .continued → Transferred log.connections) :
    Grounded (log.next e).connections := by
  cases e with
  | send request =>
    cases request with
    | psync => exact h
    | _ => exact h
  | psyncCompleted reply =>
    rintro c earlier ⟨⟩ continued
    cases reply with
    | fullresync => cases continued
    | continued => exact resumes rfl
  | parserData chunk result =>
    cases result with
    | ok fed => exact grounded_modify h fun _ => rfl
    | error fault => exact grounded_modify h fun _ => rfl
  | handleCommands => exact grounded_modify h fun _ => rfl
  | _ => exact h

/-- A replica that streams is on a connection whose stream has begun. -/
lemma Tracks.streams {cfg : Config κ σ ε μ} {s : State σ} (h : Tracks cfg log s)
    (streaming : replicationState s = .streaming) : Streams log.connections := by
  have phase : s.state = .replication := by
    unfold replicationState at streaming
    split at streaming
    · assumption
    · cases streaming
  obtain ⟨c, earlier, p, rdb, events, here, parser, follows⟩ := h.current phase
  refine ⟨c, earlier, here, follows.streaming_iff.mp ?_⟩
  cases e : p.state with
  | streaming => rfl
  | waitingRdb =>
    simp only [replicationState, phase, parser, e] at streaming
    cases streaming
  | readingRdb =>
    simp only [replicationState, phase, parser, e] at streaming
    cases streaming

/-- Then a parser in the stream has a whole snapshot behind it. -/
lemma Grounded.transferred (h : Grounded cs) (streams : Streams cs) : Transferred cs := by
  obtain ⟨c, earlier, rfl, begun⟩ := streams
  cases full : c.isFull with
  | true => exact (transferred_full full).mpr begun
  | false => exact (transferred_continued full).mpr (h c earlier rfl full)

end

end Replica

end Veidrodelis.RedisStream
