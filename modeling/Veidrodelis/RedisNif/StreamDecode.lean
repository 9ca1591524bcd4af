import Veidrodelis.RedisNif.Stream

/-!
# Decoding the command stream

`feedEach_encode`: whatever way a stream of commands, selections, pings and keepalive bytes is cut
into chunks, the parser returns for each chunk what is completed in it: the commands with the
database of the latest selection, and the flags of a completed `PING` and of a completed `REPLCONF
GETACK`.
-/

namespace Veidrodelis.RedisNif.ReplicaParser
open Incremental

/-! ## Messages -/

/-- The upper case of an ASCII letter; other bytes are left alone. -/
def upper (b : UInt8) : UInt8 := if 97 ≤ b ∧ b ≤ 122 then b - 32 else b

/-- The bytes are an ASCII word in upper case, lower case or a mixture. -/
def Spells (bytes : Bytes) (word : String) : Prop := bytes.map upper = ascii word

instance (bytes : Bytes) (word : String) : Decidable (Spells bytes word) :=
  inferInstanceAs (Decidable (_ = _))

/-- What the primary sends on the stream: a byte that keeps the connection alive, the selection of a
database, or any other command. -/
inductive Message where
  | keepAlive (byte : UInt8) (lineEnd : byte = 10 ∨ byte = 13)
  | select (name : Bytes) (db : Nat) (spelled : Spells name "SELECT") (small : db < 2 ^ 32)
  | command (name : Bytes) (args : List Bytes) (isAscii : ∀ b ∈ name, b < 128)
      (other : ¬ Spells name "SELECT") (fits : (encodeArray (name :: args)).length < usizeSize)

namespace Message

def encode : Message → Bytes
  | .keepAlive byte _ => [byte]
  | .select name db _ _ => encodeArray [name, Bytes.natText db]
  | .command name args _ _ _ => encodeArray (name :: args)

def IsPing : Message → Prop
  | .command name _ _ _ _ => Spells name "PING"
  | _ => False

def IsGetack : Message → Prop
  | .command name (sub :: _) _ _ _ => Spells name "REPLCONF" ∧ Spells sub "GETACK"
  | _ => False

/-- The database that is selected behind a message. -/
def dbAfter : Message → Nat → Nat
  | .select _ n _ _, _ => n
  | _, db => db

/-- The command that is emitted for a message. -/
def emits : Message → Nat → List RawCommand
  | .command name args _ _ _, db =>
    if Spells name "PING" ∨ Spells name "REPLCONF" then [] else [⟨db, name, args⟩]
  | _, _ => []

end Message

def encodeMessages (messages : List Message) : Bytes := (messages.map Message.encode).flatten

/-- The commands of a stream, each with the database that is selected in front of it. -/
def emitted : Nat → List Message → List RawCommand
  | _, [] => []
  | db, m :: ms => m.emits db ++ emitted (m.dbAfter db) ms

/-- Where message `k` of a stream ends. -/
def endOf (messages : List Message) (k : Nat) : Nat :=
  (encodeMessages (messages.take (k + 1))).length

/-- The last byte of message `k` is in chunk `i`. -/
def CompletesIn (messages : List Message) (chunks : List Bytes) (i k : Nat) : Prop :=
  (chunks.take i).flatten.length < endOf messages k ∧
    endOf messages k ≤ (chunks.take (i + 1)).flatten.length

/-- One `feed_data` call for each chunk, with what each of them returns. -/
def feedEach : ParserState → List Bytes → Except Fault (ParserState × List Fed)
  | s, [] => .ok (s, [])
  | s, chunk :: chunks =>
    match feedData s chunk with
    | .error e => .error e
    | .ok (s, fed) =>
      match feedEach s chunks with
      | .error e => .error e
      | .ok (s, later) => .ok (s, fed :: later)

/-! ## Names -/

/-- ASCII names are put into upper case letter by letter. -/
lemma toUppercase_ascii {name : Bytes} (h : ∀ b ∈ name, b < 128) :
    toUppercase name = name.map upper := by
  induction name with
  | nil => rfl
  | cons b name ih =>
    have small : b < 128 := h b (by simp)
    have rest := ih fun b' hb' => h b' (by simp [hb'])
    rw [toUppercase.eq_3, rest, List.map_cons, upper]
    · rintro rest rfl -
      exact absurd small (by decide)
    · rintro rest rfl -
      exact absurd small (by decide)

/-- A spelling of an ASCII word is ASCII. -/
lemma Spells.isAscii {name : Bytes} {word : String} (h : Spells name word)
    (plain : ∀ b ∈ ascii word, b < 128) : ∀ b ∈ name, b < 128 := by
  intro b hb
  have mem : upper b ∈ ascii word := by
    rw [← show name.map upper = ascii word from h]
    exact List.mem_map_of_mem hb
  have small := plain _ mem
  unfold upper at small
  split at small
  · rename_i letter
    have upto : b.toNat ≤ 122 := UInt8.le_iff_toNat_le.mp letter.2
    exact UInt8.lt_iff_toNat_lt.mpr (lt_of_le_of_lt upto (by decide))
  · exact small

/-- A spelling of a word is the word in upper case. -/
lemma toUppercase_spelled {name : Bytes} {word : String} (h : Spells name word)
    (plain : ∀ b ∈ ascii word, b < 128) : toUppercase name = ascii word :=
  (toUppercase_ascii (h.isAscii plain)).trans h

/-- The text of a sub-command need not be ASCII to be compared with a word that has no `S` and no
`I`. -/
lemma toUppercase_eq_iff {bytes word : Bytes} (noS : 83 ∉ word) (noI : 73 ∉ word)
    (plain : ∀ b ∈ word, b < 128) : toUppercase bytes = word ↔ bytes.map upper = word := by
  induction bytes using toUppercase.induct generalizing word with
  | case1 rest ih =>
    rw [toUppercase, List.map_cons]
    constructor
    · rintro rfl
      simp at noS
    · rintro rfl
      exact absurd (plain (upper 0xC5) (by simp)) (by decide)
  | case2 rest ih =>
    rw [toUppercase, List.map_cons]
    constructor
    · rintro rfl
      simp at noI
    · rintro rfl
      exact absurd (plain (upper 0xC4) (by simp)) (by decide)
  | case3 b rest notS notI ih =>
    rw [toUppercase.eq_3 b rest notS notI, List.map_cons]
    cases word with
    | nil => simp
    | cons w word =>
      rw [List.cons.injEq, List.cons.injEq, upper]
      have later := @ih word (fun h => noS (by simp [h])) (fun h => noI (by simp [h]))
        (fun b hb => plain b (by simp [hb]))
      rw [later]
  | case4 => simp [toUppercase]

/-! ## One message -/

namespace Message

/-- The name and the arguments of a message, if it is an array. -/
def elements : Message → List Bytes
  | .keepAlive _ _ => []
  | .select name n _ _ => [name, Bytes.natText n]
  | .command name args _ _ _ => name :: args

/-- What the parser emits for a message. -/
def events (m : Message) (db : Nat) : List Event := (processCommand m.elements db).2

/-- The database that a message leaves. -/
lemma processCommand_fst (m : Message) (db : Nat) :
    (processCommand m.elements db).1 = m.dbAfter db := by
  cases m with
  | keepAlive byte lineEnd => rfl
  | select name n spelled small =>
    have word := toUppercase_spelled spelled (by decide +kernel)
    have number : parseU32 (Bytes.natText n) = some n := Bytes.parseUnsigned_natText small
    simp [processCommand, elements, word, selectDb, number, dbAfter]
  | command name args isAscii other fits =>
    have word : toUppercase name ≠ ascii "SELECT" := by
      rwa [toUppercase_ascii isAscii]
    simp only [ReplicaParser.processCommand_fst, elements, dbAfter]
    cases args with
    | nil => rfl
    | cons arg args => simp [selected, word]

/-- What the parser emits for a command, by its name. -/
lemma events_command {name : Bytes} {args : List Bytes} {isAscii : ∀ b ∈ name, b < 128}
    {other : ¬ Spells name "SELECT"} {fits : (encodeArray (name :: args)).length < usizeSize}
    (db : Nat) :
    (command name args isAscii other fits).events db =
      if Spells name "PING" then [.ping]
      else if Spells name "REPLCONF" then
        match args with
        | sub :: _ => if Spells sub "GETACK" then [.replconfGetack] else []
        | [] => []
      else [.command ⟨db, name, args⟩] := by
  have getack (sub : Bytes) : toUppercase sub = ascii "GETACK" ↔ Spells sub "GETACK" :=
    toUppercase_eq_iff (by decide +kernel) (by decide +kernel) (by decide +kernel)
  have is (word : String) : toUppercase name = ascii word ↔ Spells name word := by
    rw [toUppercase_ascii isAscii, Spells]
  simp only [events, elements, processCommand, is, if_neg other]
  by_cases ping : Spells name "PING"
  · rw [if_pos ping, if_pos ping]
  · rw [if_neg ping, if_neg ping]
    by_cases replconf : Spells name "REPLCONF"
    · rw [if_pos replconf, if_pos replconf]
      cases args with
      | nil => rfl
      | cons sub args => simp only [getack]
    · rw [if_neg replconf, if_neg replconf]

/-- `SELECT` gives no event. -/
lemma events_select {name : Bytes} {n : Nat} {spelled : Spells name "SELECT"} {small : n < 2 ^ 32}
    (db : Nat) : (select name n spelled small).events db = [] := by
  have word := toUppercase_spelled spelled (by decide +kernel)
  simp [events, elements, processCommand, word]

/-- The commands of a message are those that it emits. -/
lemma commandsOf_events (m : Message) (db : Nat) : commandsOf (m.events db) = m.emits db := by
  cases m with
  | keepAlive byte lineEnd => rfl
  | select name n spelled small => rw [events_select]; rfl
  | command name args isAscii other fits =>
    rw [events_command, emits]
    by_cases ping : Spells name "PING"
    · simp [ping, commandsOf]
    by_cases replconf : Spells name "REPLCONF"
    · cases args with
      | nil => simp [ping, replconf, commandsOf]
      | cons sub args =>
        by_cases getack : Spells sub "GETACK" <;> simp [ping, replconf, getack, commandsOf]
    · simp [ping, replconf, commandsOf]

/-- Only a PING gives the event of one. -/
lemma ping_mem_events (m : Message) (db : Nat) : Event.ping ∈ m.events db ↔ m.IsPing := by
  cases m with
  | keepAlive byte lineEnd => simp [events, elements, processCommand, IsPing]
  | select name n spelled small => simp [events_select, IsPing]
  | command name args isAscii other fits =>
    rw [events_command, IsPing]
    by_cases ping : Spells name "PING"
    · simp [ping]
    by_cases replconf : Spells name "REPLCONF"
    · cases args with
      | nil => simp [ping, replconf]
      | cons sub args =>
        by_cases getack : Spells sub "GETACK" <;> simp [ping, replconf, getack]
    · simp [ping, replconf]

/-- Only a GETACK gives the event of one. -/
lemma getack_mem_events (m : Message) (db : Nat) :
    Event.replconfGetack ∈ m.events db ↔ m.IsGetack := by
  cases m with
  | keepAlive byte lineEnd => simp [events, elements, processCommand, IsGetack]
  | select name n spelled small => simp [events_select, IsGetack]
  | command name args isAscii other fits =>
    rw [events_command]
    by_cases ping : Spells name "PING"
    · have notReplconf : ¬ Spells name "REPLCONF" := by
        rw [Spells, ping]
        decide
      cases args <;> simp [ping, IsGetack, notReplconf]
    by_cases replconf : Spells name "REPLCONF"
    · cases args with
      | nil => simp [ping, replconf, IsGetack]
      | cons sub args =>
        by_cases getack : Spells sub "GETACK" <;> simp [ping, replconf, getack, IsGetack]
    · cases args <;> simp [ping, replconf, IsGetack]

end Message

/-! ## Streams of messages -/

def dbBehind : Nat → List Message → Nat
  | db, [] => db
  | db, m :: ms => dbBehind (m.dbAfter db) ms

def eventsFor : Nat → List Message → List Event
  | _, [] => []
  | db, m :: ms => m.events db ++ eventsFor (m.dbAfter db) ms

/-- How many messages the first `n` bytes of a stream contain as a whole. -/
def wholeCount : Nat → List Message → Nat
  | _, [] => 0
  | n, m :: ms => if m.encode.length ≤ n then wholeCount (n - m.encode.length) ms + 1 else 0

/-- The first message, and the others behind it. -/
@[simp] lemma encodeMessages_cons (m : Message) (ms : List Message) :
    encodeMessages (m :: ms) = m.encode ++ encodeMessages ms := rfl

/-- The second part is read in the database that the first one left. -/
lemma eventsFor_append (db : Nat) (a b : List Message) :
    eventsFor db (a ++ b) = eventsFor db a ++ eventsFor (dbBehind db a) b := by
  induction a generalizing db with
  | nil => rfl
  | cons m ms ih => simp only [List.cons_append, eventsFor, dbBehind, ih, List.append_assoc]

/-- The commands of messages are those that they emit. -/
lemma commandsOf_eventsFor (db : Nat) (ms : List Message) :
    commandsOf (eventsFor db ms) = emitted db ms := by
  induction ms generalizing db with
  | nil => rfl
  | cons m ms ih => rw [eventsFor, emitted, commandsOf_append, m.commandsOf_events, ih]

/-- An event comes from one of the messages. -/
lemma mem_eventsFor {e : Event} {P : Message → Prop}
    (single : ∀ m db, e ∈ Message.events m db ↔ P m) (db : Nat) (ms : List Message) :
    e ∈ eventsFor db ms ↔ ∃ m ∈ ms, P m := by
  induction ms generalizing db with
  | nil => simp [eventsFor]
  | cons m ms ih => simp only [eventsFor, List.mem_append, single, ih, List.exists_mem_cons_iff]

/-- The database behind messages, one part after the other. -/
lemma dbBehind_append (db : Nat) (a b : List Message) :
    dbBehind db (a ++ b) = dbBehind (dbBehind db a) b := by
  induction a generalizing db with
  | nil => rfl
  | cons m ms ih => exact ih _

/-- The messages that have arrived as a whole are those that end in time. -/
lemma lt_wholeCount_iff {n k : Nat} {ms : List Message} :
    k < wholeCount n ms ↔ k < ms.length ∧ endOf ms k ≤ n := by
  induction ms generalizing n k with
  | nil => simp [wholeCount]
  | cons m ms ih =>
    have first : endOf (m :: ms) 0 = m.encode.length := by simp [endOf, encodeMessages]
    have later (k : Nat) : endOf (m :: ms) (k + 1) = m.encode.length + endOf ms k := by
      simp [endOf, encodeMessages]
    cases k with
    | zero =>
      rw [wholeCount, first]
      split <;> simp_all
    | succ k =>
      rw [wholeCount, later, List.length_cons]
      split
      · have rest := ih (n := n - m.encode.length) (k := k)
        omega
      · omega

/-- More bytes hold more whole messages. -/
lemma wholeCount_mono {a b : Nat} (le : a ≤ b) (ms : List Message) :
    wholeCount a ms ≤ wholeCount b ms := by
  by_contra more
  obtain ⟨inside, ends⟩ := lt_wholeCount_iff.mp (not_le.mp more)
  exact absurd (lt_wholeCount_iff.mpr ⟨inside, ends.trans le⟩) (lt_irrefl _)

/-- No bytes hold no messages. -/
lemma wholeCount_zero (ms : List Message) : wholeCount 0 ms = 0 := by
  cases ms with
  | nil => rfl
  | cons m ms =>
    have pos : 0 < m.encode.length := by
      cases m <;> simp [Message.encode, encodeArray]
    rw [wholeCount, if_neg (by omega)]

/-- All bytes hold all messages. -/
lemma wholeCount_all {n : Nat} {ms : List Message} (all : (encodeMessages ms).length ≤ n) :
    wholeCount n ms = ms.length := by
  induction ms generalizing n with
  | nil => rfl
  | cons m ms ih =>
    rw [encodeMessages_cons, List.length_append] at all
    rw [wholeCount, if_pos (by omega), ih (by omega), List.length_cons]

/-! ## Reading a stream -/

/-- A `SELECT` has fewer than `2 ^ 64` bytes. -/
lemma length_encode_select {name : Bytes} {n : Nat} (spelled : Spells name "SELECT")
    (small : n < 2 ^ 32) :
    (encodeArray [name, Bytes.natText n]).length < usizeSize := by
  have six : name.length = 6 := by
    rw [← List.length_map (f := upper), spelled]
    rfl
  have digits := Bytes.length_natText_le n
  have two := Bytes.length_natText_le (0 + 1 + 1)
  have count := Bytes.length_natText_le (Bytes.natText n).length
  have name6 := Bytes.length_natText_le 6
  simp only [encodeArray, List.length_cons, List.length_append, List.map_cons, List.map_nil,
    List.flatten_cons, List.flatten_nil, length_encodeBulk, six, List.length_nil, usizeSize]
  omega

/-- The parser reads one message. -/
lemma absorb_message (db : Nat) (m : Message) (rest : Bytes) :
    machine.absorb (streamingAt db []) (m.encode ++ rest) =
      after (m.events db) (machine.absorb (streamingAt (m.dbAfter db) []) rest) := by
  have array (elements : List Bytes) (fits : (encodeArray elements).length < usizeSize) :
      machine.absorb (streamingAt db []) (encodeArray elements ++ rest) =
        after (processCommand elements db).2
          (machine.absorb (streamingAt (processCommand elements db).1 []) rest) :=
    run_item (s := streamingAt db []) rfl (.command elements fits) rest
  have behind := m.processCommand_fst db
  cases m with
  | keepAlive byte lineEnd =>
    have ends : ∀ b ∈ [byte], b = 10 ∨ b = 13 := by simpa using lineEnd
    have skipped := absorb_lineEnds db ends rest
    simpa [Message.encode, Message.events, Message.elements, processCommand,
      Message.dbAfter] using skipped
  | select name n spelled small =>
    rw [← behind]
    exact array _ (length_encode_select spelled small)
  | command name args isAscii other fits =>
    rw [← behind]
    exact array _ fits

/-- What has arrived of a message keeps the parser waiting. -/
lemma absorb_cut (db : Nat) (m : Message) {k : Nat} (short : k < m.encode.length) :
    ∃ tail, machine.absorb (streamingAt db []) (m.encode.take k) =
      .ok (streamingAt db tail, []) := by
  have array (elements : List Bytes) (fits : (encodeArray elements).length < usizeSize)
      (short : k < (encodeArray elements).length) :
      ∃ tail, machine.absorb (streamingAt db []) ((encodeArray elements).take k) =
        .ok (streamingAt db tail, []) := by
    have cut := absorb_take db [.command elements fits] k
    have isNil : wholeItems k [.command elements fits] = [] := by
      rw [wholeItems, if_neg (by simpa [Item.encode] using short)]
    simpa [isNil, encodeAll, Item.encode, dbAfter, eventsOf] using cut
  cases m with
  | keepAlive byte lineEnd =>
    have zero : k = 0 := by simpa [Message.encode] using short
    exact ⟨[], by simpa [zero] using absorb_nil db⟩
  | select name n spelled small => exact array _ (length_encode_select spelled small) short
  | command name args isAscii other fits => exact array _ fits short

/-- After the first `n` bytes of a stream the parser has read the messages that end in them. -/
theorem absorb_messages (db : Nat) (ms : List Message) (n : Nat) :
    ∃ tail, machine.absorb (streamingAt db []) ((encodeMessages ms).take n) =
      .ok (streamingAt (dbBehind db (ms.take (wholeCount n ms))) tail,
        eventsFor db (ms.take (wholeCount n ms))) := by
  induction ms generalizing db n with
  | nil => exact ⟨[], by simpa [encodeMessages, dbBehind, eventsFor] using absorb_nil db⟩
  | cons m ms ih =>
    by_cases fits : m.encode.length ≤ n
    · obtain ⟨tail, later⟩ := ih (m.dbAfter db) (n - m.encode.length)
      have split : (encodeMessages (m :: ms)).take n =
          m.encode ++ (encodeMessages ms).take (n - m.encode.length) := by
        rw [encodeMessages_cons, List.take_append, List.take_of_length_le fits]
      refine ⟨tail, ?_⟩
      rw [split, absorb_message, later, after_ok, wholeCount, if_pos fits, List.take_succ_cons,
        dbBehind, eventsFor]
    · have cut : (encodeMessages (m :: ms)).take n = m.encode.take n := by
        rw [encodeMessages_cons, List.take_append_of_le_length (by omega)]
      rw [cut, wholeCount, if_neg fits]
      exact absorb_cut db m (by omega)

/-! ## Chunk by chunk -/

/-- A stretch of a list cut in two. -/
lemma drop_take_split {α : Type} {i j k : Nat} (ij : i ≤ j) (jk : j ≤ k) (xs : List α) :
    (xs.take k).drop i = (xs.take j).drop i ++ (xs.take k).drop j := by
  have steps : k - i = (j - i) + (k - j) := by omega
  rw [List.drop_take, List.drop_take, List.drop_take, steps, List.take_add, List.drop_drop,
    Nat.add_sub_cancel' ij]

/-- What is completed between two positions of a stream. -/
def fedBetween (ms : List Message) (a b : Nat) : Fed :=
  Fed.ofEvents (eventsFor (dbBehind 0 (ms.take (wholeCount a ms)))
    ((ms.take (wholeCount b ms)).drop (wholeCount a ms)))

/-- What is completed in each of the chunks behind a position of a stream. -/
def fedsFrom (ms : List Message) : Nat → List Bytes → List Fed
  | _, [] => []
  | a, chunk :: chunks =>
    fedBetween ms a (a + chunk.length) :: fedsFrom ms (a + chunk.length) chunks

/-- The parser of a stream after its first `a` bytes. -/
def ReadUpTo (ms : List Message) (a : Nat) (s : ParserState) : Prop :=
  ∃ events, machine.absorb (.new true) ((encodeMessages ms).take a) = .ok (s, events)

/-- One chunk further: the call returns what is completed in the chunk. -/
lemma feedData_messages {ms : List Message} {a : Nat} {s : ParserState} {chunk rest : Bytes}
    (here : ReadUpTo ms a s) (ahead : (encodeMessages ms).drop a = chunk ++ rest) :
    ∃ t, feedData s chunk = .ok (t, fedBetween ms a (a + chunk.length)) ∧
      ReadUpTo ms (a + chunk.length) t := by
  obtain ⟨events, before⟩ := here
  obtain ⟨tail, now⟩ := absorb_messages 0 ms a
  obtain ⟨tail', later⟩ := absorb_messages 0 ms (a + chunk.length)
  rw [← new_streaming] at now later
  have cut : (encodeMessages ms).take (a + chunk.length) = (encodeMessages ms).take a ++ chunk := by
    rw [List.take_add, ahead, List.take_left]
  rw [before] at now
  cases now
  have joined := machine.absorb_append (.new true) ((encodeMessages ms).take a) chunk
  rw [← cut, later, before] at joined
  obtain ⟨more, absorbed, split⟩ := after_eq_ok joined.symm
  have grown : ms.take (wholeCount (a + chunk.length) ms) = ms.take (wholeCount a ms) ++
      (ms.take (wholeCount (a + chunk.length) ms)).drop (wholeCount a ms) := by
    have mono := wholeCount_mono (Nat.le_add_right a chunk.length) ms
    simpa using drop_take_split (Nat.zero_le _) mono ms
  rw [grown, eventsFor_append] at split
  have same := List.append_cancel_left split
  refine ⟨_, ?_, _, later⟩
  rw [feedData_absorb (by exact trivial), absorbed, returned, fedBetween, same]

/-- All chunks that are left. -/
lemma feedEach_messages {ms : List Message} {a : Nat} {s : ParserState} {chunks : List Bytes}
    (here : ReadUpTo ms a s) (ahead : (encodeMessages ms).drop a = chunks.flatten) :
    ∃ t, feedEach s chunks = .ok (t, fedsFrom ms a chunks) := by
  induction chunks generalizing a s with
  | nil => exact ⟨s, rfl⟩
  | cons chunk chunks ih =>
    obtain ⟨t, fed, there⟩ := feedData_messages here ahead
    have behind : (encodeMessages ms).drop (a + chunk.length) = chunks.flatten := by
      rw [← List.drop_drop, ahead, List.flatten_cons, List.drop_left]
    obtain ⟨u, later⟩ := ih there behind
    exact ⟨u, by simp only [feedEach, fed, later, fedsFrom]⟩

/-- The result of a call covers the stretch of its chunk. -/
lemma getElem?_fedsFrom {ms : List Message} {a i : Nat} {chunks : List Bytes} {fed : Fed}
    (h : (fedsFrom ms a chunks)[i]? = some fed) :
    fed = fedBetween ms (a + (chunks.take i).flatten.length)
      (a + (chunks.take (i + 1)).flatten.length) := by
  induction chunks generalizing a i with
  | nil => simp [fedsFrom] at h
  | cons chunk chunks ih =>
    cases i with
    | zero => simpa [fedsFrom] using h.symm
    | succ i =>
      have later := ih (a := a + chunk.length) (i := i) (by simpa [fedsFrom] using h)
      simpa [Nat.add_assoc] using later

/-- There is one result for each chunk. -/
lemma length_fedsFrom (ms : List Message) (a : Nat) (chunks : List Bytes) :
    (fedsFrom ms a chunks).length = chunks.length := by
  induction chunks generalizing a with
  | nil => rfl
  | cons chunk chunks ih => simp [fedsFrom, ih]

/-- The commands of the chunks behind a position are those of the messages that end behind it. -/
lemma flatMap_fedsFrom (ms : List Message) (a : Nat) (chunks : List Bytes) :
    (fedsFrom ms a chunks).flatMap (·.commands) =
      (fedBetween ms a (a + chunks.flatten.length)).commands := by
  induction chunks generalizing a with
  | nil =>
    have isNil : (ms.take (wholeCount a ms)).drop (wholeCount a ms) = [] :=
      List.drop_eq_nil_of_le (List.length_take_le _ _)
    simp [fedsFrom, fedBetween, isNil, eventsFor, Fed.ofEvents, commandsOf]
  | cons chunk chunks ih =>
    let i := wholeCount a ms
    let j := wholeCount (a + chunk.length) ms
    let k := wholeCount (a + (chunk :: chunks).flatten.length) ms
    have ij : i ≤ j := wholeCount_mono (by omega) ms
    have jk : j ≤ k := wholeCount_mono (by rw [List.flatten_cons, List.length_append]; omega) ms
    have sum : a + chunk.length + chunks.flatten.length = a + (chunk :: chunks).flatten.length := by
      rw [List.flatten_cons, List.length_append, Nat.add_assoc]
    have between : (ms.take k).drop i = (ms.take j).drop i ++ (ms.take k).drop j :=
      drop_take_split ij jk ms
    have upTo : ms.take j = ms.take i ++ (ms.take j).drop i := by
      simpa using drop_take_split (Nat.zero_le i) ij ms
    have db : dbBehind 0 (ms.take j) = dbBehind (dbBehind 0 (ms.take i)) ((ms.take j).drop i) := by
      conv_lhs => rw [upTo, dbBehind_append]
    rw [fedsFrom, List.flatMap_cons, ih, sum]
    show commandsOf (eventsFor (dbBehind 0 (ms.take i)) ((ms.take j).drop i)) ++
        commandsOf (eventsFor (dbBehind 0 (ms.take j)) ((ms.take k).drop j)) =
      commandsOf (eventsFor (dbBehind 0 (ms.take i)) ((ms.take k).drop i))
    rw [between, eventsFor_append, commandsOf_append, db]

/-- A flag of a chunk is set by a message that ends in the chunk. -/
lemma mem_fedBetween {e : Event} {P : Message → Prop}
    (single : ∀ m db, e ∈ Message.events m db ↔ P m) (ms : List Message) (a b db : Nat) :
    e ∈ eventsFor db ((ms.take (wholeCount b ms)).drop (wholeCount a ms)) ↔ ∃ k m, ms[k]? = some m ∧
      P m ∧ a < endOf ms k ∧ endOf ms k ≤ b := by
  rw [mem_eventsFor single]
  constructor
  · rintro ⟨m, mem, holds⟩
    obtain ⟨k, at'⟩ := List.mem_iff_getElem?.mp mem
    rw [List.getElem?_drop, List.getElem?_take] at at'
    split at at'
    · rename_i inside
      have ends := (lt_wholeCount_iff.mp inside).2
      have length := (lt_wholeCount_iff.mp inside).1
      refine ⟨_, m, at', holds, ?_, ends⟩
      by_contra early
      have before := lt_wholeCount_iff.mpr ⟨length, not_lt.mp early⟩
      omega
    · cases at'
  · rintro ⟨k, m, at', holds, behind, ends⟩
    obtain ⟨length, -⟩ := List.getElem?_eq_some_iff.mp at'
    have inside := lt_wholeCount_iff.mpr ⟨length, ends⟩
    have later : wholeCount a ms ≤ k := by
      by_contra early
      exact absurd (lt_wholeCount_iff.mp (not_le.mp early)).2 (by omega)
    refine ⟨m, List.mem_iff_getElem?.mpr ⟨k - wholeCount a ms, ?_⟩, holds⟩
    rw [List.getElem?_drop, Nat.add_sub_cancel' later, List.getElem?_take, if_pos inside, at']

/-- Decoding undoes encoding: the commands come out as they went in, each with the database of the
latest selection in front of it, and a call sets a flag exactly when its chunk completes a `PING` or
a `REPLCONF GETACK`. -/
theorem feedEach_encode {messages : List Message} {chunks : List Bytes}
    (cut : chunks.flatten = encodeMessages messages) :
    ∃ s feds, feedEach (.new true) chunks = .ok (s, feds) ∧ feds.length = chunks.length ∧
      feds.flatMap (·.commands) = emitted 0 messages ∧
      ∀ i fed, feds[i]? = some fed →
        (fed.pingReceived = true ↔
          ∃ k m, messages[k]? = some m ∧ m.IsPing ∧ CompletesIn messages chunks i k) ∧
        (fed.replconfGetackReceived = true ↔
          ∃ k m, messages[k]? = some m ∧ m.IsGetack ∧ CompletesIn messages chunks i k) := by
  have start : ReadUpTo messages 0 (.new true) := ⟨[], absorb_nil 0⟩
  obtain ⟨s, returned⟩ := feedEach_messages start cut.symm
  refine ⟨s, _, returned, length_fedsFrom messages 0 chunks, ?_, fun i fed h => ?_⟩
  · have all : wholeCount (0 + chunks.flatten.length) messages = messages.length :=
      wholeCount_all (by rw [cut, Nat.zero_add])
    have isZero : wholeCount 0 messages = 0 := wholeCount_zero messages
    rw [flatMap_fedsFrom, fedBetween, all, isZero, List.take_length]
    exact commandsOf_eventsFor 0 messages
  · rw [getElem?_fedsFrom h, Nat.zero_add, Nat.zero_add, fedBetween, Fed.ofEvents]
    refine ⟨?_, ?_⟩
    · rw [List.contains_iff_mem]
      exact mem_fedBetween Message.ping_mem_events messages _ _ _
    · rw [List.contains_iff_mem]
      exact mem_fedBetween Message.getack_mem_events messages _ _ _

/-- A selection, a command with line ends and marks in its argument, a keepalive byte, a `PING` and
a `REPLCONF GETACK`, cut inside the argument and inside the `PING`. -/
def sampleMessages : List Message :=
  [.select (ascii "SELECT") 3 (by decide +kernel) (by decide +kernel),
   .command (ascii "set") [ascii "\r\n*$", []] (by decide +kernel) (by decide +kernel)
     (by decide +kernel),
   .keepAlive 13 (by decide +kernel),
   .command (ascii "PING") [] (by decide +kernel) (by decide +kernel) (by decide +kernel),
   .command (ascii "REPLCONF") [ascii "GETACK", ascii "*"] (by decide +kernel) (by decide +kernel)
     (by decide +kernel)]

def sampleChunks : List Bytes :=
  [(encodeMessages sampleMessages).take 42, ((encodeMessages sampleMessages).drop 42).take 22,
   (encodeMessages sampleMessages).drop 64]

/-- Messages of all kinds, cut inside a name and behind a PING. -/
theorem feedEach_encode_sample :
    ∃ s feds, feedEach (.new true) sampleChunks = .ok (s, feds) ∧
    feds.length = sampleChunks.length ∧
      feds.flatMap (·.commands) = emitted 0 sampleMessages ∧
      ∀ i fed, feds[i]? = some fed →
        (fed.pingReceived = true ↔
          ∃ k m, sampleMessages[k]? = some m ∧ m.IsPing ∧
          CompletesIn sampleMessages sampleChunks i k) ∧
        (fed.replconfGetackReceived = true ↔
          ∃ k m, sampleMessages[k]? = some m ∧ m.IsGetack ∧
          CompletesIn sampleMessages sampleChunks i k) :=
  feedEach_encode (by decide +kernel)

end Veidrodelis.RedisNif.ReplicaParser
