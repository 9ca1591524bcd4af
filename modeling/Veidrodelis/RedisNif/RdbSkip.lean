import Veidrodelis.RedisNif.RdbDecode

/-!
# Unknown types and opcodes

`parse_value` leaves the bytes of a value that it cannot size in the buffer and goes on with the
next opcode there; a byte that is no opcode it knows is taken for a value type. `uncorrupted_iff`:
an image is read without corruption exactly when a value in front of everything unknown is refused,
or there is nothing unknown in it and its values are read as what they are; for the images whose
values can be read, exactly when it holds no unknown type and no unknown opcode.
-/

namespace Veidrodelis.RedisNif.RdbFormat
open Incremental Rdb

/-! ## The skipped bytes of an image -/

/-- The bytes of an opcode in pieces; the arguments of an unknown opcode are marked. -/
def Opcode.pieces : Opcode → List (Bytes × Bool)
  | .unknown code args _ _ => [([code], false), (args, true)]
  | op => [(op.encode, false)]

/-- The bytes of an entry in pieces; the value of an unknown type is marked. -/
def Entry.pieces (e : Entry) : List (Bytes × Bool) :=
  e.opcodes.flatMap (·.pieces) ++
    [(e.body.code :: e.key.encode, false),
     (e.body.encode, match e.body with | .known _ => false | .unknown .. => true)]

def Image.pieces (img : Image) : List (Bytes × Bool) :=
  (img.magic, false) :: (img.entries.flatMap (·.pieces) ++
    (img.opcodes.flatMap (·.pieces) ++ [(opcodeEof :: img.checksum, false)]))

def bytesOf (ps : List (Bytes × Bool)) : Bytes := ps.flatMap (·.1)

/-- The byte with which `unread` bytes begin belongs to a marked piece. -/
def Marked : List (Bytes × Bool) → Nat → Prop
  | [], _ => False
  | (bytes, mark) :: ps, unread =>
    (mark = true ∧ (bytesOf ps).length < unread ∧ unread ≤ (bytesOf ps).length + bytes.length) ∨
      Marked ps unread

/-! ## The rounds of the parser -/

/-- The states in which the rounds of the calls begin, each with the number of bytes that have not
been consumed, whether they have arrived or not. -/
def visits : ParserState → List Bytes → List (ParserState × Nat)
  | _, [] => []
  | s, chunk :: chunks =>
    if s.finished then []
    else
      (trail parseNext ((s.push chunk).size + 1) (s.push chunk)).map
          (fun t => (t, t.buffer.length + chunks.flatten.length)) ++
        match feedData s chunk with
        | .ok (t, _) => visits t chunks
        | .error _ => []

/-- The round that begins in this state takes the next byte for a part of an opcode, of its
arguments, of a key or of a value. -/
def Interprets (s : ParserState) : Prop :=
  s.buffer ≠ [] ∧
    match s.parseState with
    | .opcode => True
    | .processingOpcode _ => True
    | .processingKey _ => True
    | .processingValue valueType => ValueType.ofCode valueType ≠ none
    | _ => False

/-- The calls with these chunks return an error or the commands of the known entries, and no skipped
byte is taken for anything else. -/
def Uncorrupted (img : Image) (chunks : List Bytes) : Prop :=
  ((∃ e, feedAll .new chunks = .error e) ∨ ∃ q, feedAll .new chunks = .ok (q, img.commands)) ∧
    ∀ v ∈ visits .new chunks, Interprets v.1 → ¬ Marked img.pieces v.2

/-- What the parser waits in after the bytes in front, it comes to however the input is cut. -/
lemma mem_visits {s q : ParserState} {chunks : List Bytes} {front back : Bytes}
    {out : List RawCommand} (sound : Sound s) (open0 : s.finished = false)
    (a : machine.absorb s front = .ok (q, out)) (live : q.parseState ≠ .finished)
    (isEmpty : q.buffer = []) (cut : chunks.flatten = front ++ back) (ne : back ≠ []) :
    ∃ x, x ≠ [] ∧ (q.push x, back.length) ∈ visits s chunks := by
  induction chunks generalizing s front out with
  | nil =>
    simp only [List.flatten_nil, List.nil_eq, List.append_eq_nil_iff] at cut
    exact absurd cut.2 ne
  | cons chunk chunks ih =>
    rw [List.flatten_cons] at cut
    by_cases inside : chunk.length ≤ front.length
    · -- the chunk ends inside the bytes in front
      obtain ⟨more, rfl⟩ := List.prefix_of_prefix_length_le ⟨_, cut⟩ ⟨_, rfl⟩ inside
      rw [machine.absorb_append] at a
      cases b : machine.absorb s chunk with
      | error e => rw [b] at a; cases a
      | ok r =>
        obtain ⟨t, first⟩ := r
        rw [b] at a
        obtain ⟨later, a', -⟩ := after_eq_ok a
        have soundt := sound_absorb b sound
        have opent : t.finished = false := by
          by_contra flag
          have last : t.parseState = .finished := soundt.mp (by simpa using flag)
          rw [absorb_finished last] at a'
          cases a'
          exact live last
        rw [List.append_assoc] at cut
        obtain ⟨x, nx, mem⟩ := ih soundt opent a' (List.append_cancel_left cut)
        refine ⟨x, nx, ?_⟩
        simp only [visits, open0, Bool.false_eq_true, if_false, feedData_absorb open0, b]
        exact List.mem_append_right _ mem
    · -- the chunk goes beyond them
      obtain ⟨x, rfl⟩ := List.prefix_of_prefix_length_le ⟨_, rfl⟩ ⟨_, cut⟩ (le_of_not_ge inside)
      have nx : x ≠ [] := by
        rintro rfl
        simp at inside
      rw [List.append_assoc] at cut
      have cut' := List.append_cancel_left cut
      -- the rounds on the whole chunk go through the state in front of the cut
      obtain ⟨u, stall, mem⟩ := machine.mem_trail_push a
      obtain rfl : q = u := stall_same stall live
      refine ⟨x, nx, ?_⟩
      have here : q.push x ∈ trail parseNext ((s.push (front ++ x)).size + 1)
        (s.push (front ++ x)) := by
        have := mem x
        rwa [← machine.push_append] at this
      simp only [visits, open0, Bool.false_eq_true, if_false]
      refine List.mem_append_left _ (List.mem_map.mpr ⟨_, here, ?_⟩)
      rw [push_buffer, isEmpty, ← cut', List.nil_append, List.length_append]

/-- The parser refuses these bytes and waits for all of them before it does. -/
def Halts (q : ParserState) (bytes : Bytes) : Prop :=
  ∀ x, x <+: bytes → machine.Settled (q.push x) ∨ ∃ f, machine.step (q.push x) = .fault f

/-- One round shows that it waits or refuses. -/
lemma Halts.trail {q : ParserState} {bytes x : Bytes} (halts : Halts q bytes)
    (front : x <+: bytes) :
    Incremental.trail parseNext ((q.push x).size + 1) (q.push x) = [q.push x] := by
  refine trail_stop (fun s' out next => ?_) _
  obtain wait | ⟨f, fault⟩ := halts x front
  · cases wait.symm.trans next
  · cases fault.symm.trans next

/-- On a front part of the bytes the parser waits or refuses. -/
lemma Halts.absorb {q : ParserState} {bytes x : Bytes} (halts : Halts q bytes)
    (front : x <+: bytes) :
    machine.absorb q x = .ok (q.push x, []) ∨ ∃ f, machine.absorb q x = .error f := by
  obtain wait | ⟨f, fault⟩ := halts x front
  · exact .inl (machine.run_stall wait)
  · exact .inr ⟨f, machine.run_fault fault⟩

/-- A parser that waits to refuse what comes consumes nothing of it. -/
lemma Halts.visits_ge {q : ParserState} {back : Bytes} (halts : Halts q back) {chunks : List Bytes}
    {here : Bytes} (cut : here ++ chunks.flatten = back) :
    ∀ v ∈ visits (q.push here) chunks, back.length ≤ v.2 := by
  induction chunks generalizing here with
  | nil => nofun
  | cons chunk chunks ih =>
    rw [List.flatten_cons, ← List.append_assoc] at cut
    have front : here ++ chunk <+: back := ⟨_, cut⟩
    intro v hv
    rw [visits] at hv
    cases flag : (q.push here).finished with
    | true =>
      rw [flag] at hv
      cases hv
    | false =>
      have fed : feedData (q.push here) chunk = machine.absorb q (here ++ chunk) := by
        rw [feedData_absorb flag, Machine.absorb, Machine.absorb, machine.push_append]
        rfl
      simp only [flag, Bool.false_eq_true, if_false, List.mem_append, fed, ← push_append,
        halts.trail front] at hv
      obtain now | later := hv
      · obtain rfl := List.mem_singleton.mp now
        simp only [push_buffer, List.length_append, ← cut]
        omega
      · obtain wait | ⟨f, fault⟩ := halts.absorb front
        · rw [wait] at later
          exact ih cut v later
        · rw [fault] at later
          cases later

/-- The rounds of a parser that comes to such a state do not go beyond it. -/
lemma visits_ge {s q : ParserState} {chunks : List Bytes} {front back : Bytes}
    {out : List RawCommand} (a : machine.absorb s front = .ok (q, out)) (halts : Halts q back)
    (cut : chunks.flatten = front ++ back) : ∀ v ∈ visits s chunks, back.length ≤ v.2 := by
  induction chunks generalizing s front out with
  | nil => nofun
  | cons chunk chunks ih =>
    rw [List.flatten_cons] at cut
    intro v hv
    rw [visits] at hv
    cases flag : s.finished with
    | true =>
      rw [flag] at hv
      cases hv
    | false =>
      simp only [flag, Bool.false_eq_true, if_false, List.mem_append, List.mem_map,
        feedData_absorb flag] at hv
      obtain ⟨more, rfl, rest⟩ | ⟨x, rfl, rfl⟩ := List.append_eq_append_iff.mp cut
      · -- the chunk ends inside the bytes in front
        obtain ⟨t, ht, rfl⟩ | later := hv
        · simp only [rest, List.length_append]
          omega
        · cases b : machine.absorb s chunk with
          | error e =>
            rw [b] at later
            cases later
          | ok r =>
            obtain ⟨t, first⟩ := r
            rw [b] at later
            rw [machine.absorb_append, b] at a
            obtain ⟨_, a', -⟩ := after_eq_ok a
            exact ih a' rest v later
      · -- the chunk goes beyond them
        have next : x <+: x ++ chunks.flatten := ⟨_, rfl⟩
        obtain ⟨t, ht, rfl⟩ | later := hv
        · rw [push_append] at ht
          have pushed : ∃ u : ParserState, t = u.push x := by
            obtain pushed | last := machine.trail_push a ht
            · exact pushed
            · have single := halts.trail next
              exact ⟨q, List.mem_singleton.mp (single ▸ last)⟩
          obtain ⟨u, rfl⟩ := pushed
          simp only [push_buffer, List.length_append]
          omega
        · rw [machine.absorb_append, a] at later
          obtain wait | ⟨f, fault⟩ := halts.absorb next
          · simp only [wait, after_ok] at later
            exact halts.visits_ge rfl v later
          · simp only [fault, after_error] at later
            cases later

/-! ## Pieces -/

/-- The bytes of pieces, one part after the other. -/
lemma bytesOf_append (ps qs : List (Bytes × Bool)) :
    bytesOf (ps ++ qs) = bytesOf ps ++ bytesOf qs :=
  List.flatMap_append

/-- The bytes of the pieces of many items are their encodings. -/
lemma bytesOf_flatMap {α : Type} (pieces : α → List (Bytes × Bool)) (encode : α → Bytes)
    (h : ∀ a, bytesOf (pieces a) = encode a) (as : List α) :
    bytesOf (as.flatMap pieces) = as.flatMap encode := by
  induction as with
  | nil => rfl
  | cons a as ih => rw [List.flatMap_cons, List.flatMap_cons, bytesOf_append, h, ih]

/-- The pieces of an opcode are its encoding. -/
lemma Opcode.bytesOf_pieces (op : Opcode) : bytesOf op.pieces = op.encode := by
  cases op <;> simp [Opcode.pieces, bytesOf, Opcode.encode]

/-- The pieces of an entry are its encoding. -/
lemma Entry.bytesOf_pieces (e : Entry) : bytesOf e.pieces = e.encode := by
  rw [Entry.pieces, bytesOf_append, bytesOf_flatMap _ _ Opcode.bytesOf_pieces]
  simp [bytesOf, Entry.encode]

/-- The pieces of an image are its encoding. -/
lemma Image.bytesOf_pieces (img : Image) : bytesOf img.pieces = img.encode := by
  have split (p : Bytes × Bool) (ps : List (Bytes × Bool)) : bytesOf (p :: ps) =
    p.1 ++ bytesOf ps := rfl
  rw [Image.pieces, split, bytesOf_append, bytesOf_append, bytesOf_flatMap _ _ Entry.bytesOf_pieces,
    bytesOf_flatMap _ _ Opcode.bytesOf_pieces]
  simp [bytesOf, Image.encode, Image.tail]

/-- The pieces of known opcodes are consumed. -/
lemma run_pieces {ops : List Opcode} (known : ∀ op ∈ ops, op.Known)
    (bound : (ops.flatMap (·.encode)).length < usizeSize) (db : Nat) (expireMs : Option Nat)
    (rest : Bytes) :
    machine.run (between db expireMs (bytesOf (ops.flatMap (·.pieces)) ++ rest))
      = after [] (machine.run (between ((ops.filterMap (·.selected)).getLast?.getD db)
          ((ops.filterMap (·.deadline)).getLast?.or expireMs) rest)) := by
  rw [bytesOf_flatMap _ _ Opcode.bytesOf_pieces, run_opcodes known bound, after_nil]

/-- The magic string is the first piece. -/
lemma absorb_magic_piece (img : Image) (rest : Bytes) :
    machine.absorb .new (bytesOf [(img.magic, false)] ++ rest)
      = after [] (machine.run (between 0 none rest)) := by
  have magic : bytesOf [(img.magic, false)] = img.magic := by simp [bytesOf]
  rw [magic, absorb_magic, after_nil]

/-- A mark stays where it is, counted from the end. -/
lemma Marked.append_left {ps : List (Bytes × Bool)} {unread : Nat} (h : Marked ps unread)
    (front : List (Bytes × Bool)) : Marked (front ++ ps) unread := by
  induction front with
  | nil => exact h
  | cons p front ih => exact .inr ih

/-- Without marked pieces no byte is marked. -/
lemma not_marked {ps : List (Bytes × Bool)} (h : ∀ p ∈ ps, p.2 = false) (unread : Nat) :
    ¬ Marked ps unread := by
  induction ps with
  | nil => exact id
  | cons p ps ih =>
    rintro (⟨mark, -⟩ | tail)
    · rw [h p (by simp)] at mark
      cases mark
    · exact ih (fun q hq => h q (by simp [hq])) tail

/-- A known opcode has no marked piece. -/
lemma Opcode.Known.pieces {op : Opcode} (h : op.Known) : ∀ p ∈ op.pieces, p.2 = false := by
  cases op with
  | unknown => exact absurd h id
  | _ => simp [Opcode.pieces]

/-- A known entry has no marked piece. -/
lemma Entry.Known.pieces {e : Entry} (h : e.Known) : ∀ p ∈ e.pieces, p.2 = false := by
  obtain ⟨opcodes, key, body⟩ := e
  obtain ⟨(knownOps : ∀ op ∈ opcodes, op.Known), (knownBody : body.Known)⟩ := h
  intro p hp
  rw [Entry.pieces, List.mem_append, List.mem_flatMap] at hp
  obtain ⟨op, hop, hp⟩ | hp := hp
  · exact (knownOps op hop).pieces p hp
  · cases body with
    | unknown => exact absurd knownBody id
    | known v =>
      simp only [List.mem_cons, List.not_mem_nil, or_false] at hp
      obtain rfl | rfl := hp <;> rfl

/-- A known image has no marked piece. -/
lemma Image.Known.pieces {img : Image} (h : img.Known) : ∀ p ∈ img.pieces, p.2 = false := by
  intro p hp
  simp only [Image.pieces, List.mem_cons, List.mem_append, List.mem_flatMap, List.not_mem_nil,
    or_false] at hp
  obtain rfl | ⟨e, he, hp⟩ | ⟨op, hop, hp⟩ | rfl := hp
  · rfl
  · exact (h.1 e he).pieces p hp
  · exact (h.2 op hop).pieces p hp
  · rfl

/-! ## The first unknown item -/

/-- The parser has consumed what stands in front of a marked piece, and takes the next byte for an
opcode or for a key. -/
def Misled (run : Bytes → Except Fault (ParserState × List RawCommand)) (ps : List (Bytes × Bool)) :
    Prop :=
  ∃ front back q out, bytesOf ps = front ++ back ∧ back ≠ [] ∧ run front = .ok (q, out) ∧
    q.buffer = [] ∧
    (q.parseState = .opcode ∨ ∃ code, q.parseState = .processingKey code) ∧ Marked ps back.length

/-- What is read in front of the pieces does not matter. -/
lemma Misled.cons {run run' : Bytes → Except Fault (ParserState × List RawCommand)}
    {ps qs : List (Bytes × Bool)} {commands : List RawCommand} (h : Misled run ps)
    (read : ∀ rest, run' (bytesOf qs ++ rest) = after commands (run rest)) :
    Misled run' (qs ++ ps) := by
  obtain ⟨front, back, q, out, split, ne, ok, isEmpty, live, mark⟩ := h
  refine ⟨bytesOf qs ++ front, back, q, commands ++ out, ?_, ne, ?_, isEmpty, live,
    mark.append_left qs⟩
  · rw [bytesOf_append, split, List.append_assoc]
  · rw [read, ok, after_ok]

/-- The bytes of a marked piece are next. -/
lemma misled_here {run : Bytes → Except Fault (ParserState × List RawCommand)} {head bytes : Bytes}
    {ps : List (Bytes × Bool)} {q : ParserState} {out : List RawCommand} (ne : bytes ≠ [])
    (ok : run head = .ok (q, out)) (isEmpty : q.buffer = [])
    (live : q.parseState = .opcode ∨ ∃ code, q.parseState = .processingKey code) :
    Misled run ((head, false) :: (bytes, true) :: ps) := by
  have split : bytesOf ((head, false) :: (bytes, true) :: ps) = head ++ (bytes ++ bytesOf ps) := rfl
  have pos := List.length_pos_iff.mpr ne
  refine ⟨head, bytes ++ bytesOf ps, q, out, split, by simp [ne], ok, isEmpty, live,
    .inr (.inl ⟨rfl, ?_⟩)⟩
  rw [List.length_append]
  omega

/-- An unsupported code is taken for a value type. -/
lemma opcodeState_unsupported {code : UInt8} (h : Unsupported code) :
    opcodeState code = .processingKey code := by
  have lt := h.2
  have ne (other : UInt8) (ge : opcodeAux ≤ other) : code ≠ other := by
    rintro rfl
    exact absurd lt (UInt8.not_lt.mpr ge)
  simp only [opcodeState, ne opcodeEof (by decide), ne opcodeSelectdb (by decide),
    ne opcodeResizedb (by decide), ne opcodeAux (by decide), ne opcodeExpiretime (by decide),
    ne opcodeExpiretimeMs (by decide), or_self, if_false]

/-- An unknown opcode among opcodes misleads the parser. -/
lemma misled_opcodes {ops : List Opcode} (h : ¬ ∀ op ∈ ops, op.Known)
    (bound : (ops.flatMap (·.encode)).length < usizeSize) (db : Nat) (expireMs : Option Nat)
    (ps : List (Bytes × Bool)) :
    Misled (fun b => machine.run (between db expireMs b)) (ops.flatMap (·.pieces) ++ ps) := by
  induction ops generalizing db expireMs with
  | nil => exact absurd (by simp) h
  | cons op ops ih =>
    rw [List.flatMap_cons, List.length_append] at bound
    rw [List.flatMap_cons, List.append_assoc]
    by_cases known : op.Known
    · have rest : ¬ ∀ o ∈ ops, o.Known := fun all => h (by simpa using ⟨known, all⟩)
      have read (b : Bytes) : machine.run (between db expireMs (bytesOf op.pieces ++ b))
          = after [] (machine.run (between (op.selected.getD db) (op.deadline.or expireMs) b)) := by
        rw [Opcode.bytesOf_pieces, run_opcode known (by omega), after_nil]
      exact (ih rest (by omega) _ _).cons read
    · cases op with
      | unknown code args unsupported nonempty =>
        have stall : machine.step { between db expireMs [] with parseState := .processingKey code }
            = .stall { between db expireMs [] with parseState := .processingKey code } := rfl
        have wait : machine.run (between db expireMs [code])
            = .ok ({ between db expireMs [] with parseState := .processingKey code }, []) := by
          rw [run_code, opcodeState_unsupported unsupported, machine.run_stall stall]
        exact misled_here nonempty wait rfl (.inr ⟨code, rfl⟩)
      | _ => exact absurd trivial known

/-- A value of an unknown type: the parser goes on with the next opcode as soon as it has the
key. -/
lemma run_unknown {code : UInt8} (unsupported : Unsupported code) {key : EncodedString}
    (keyBound : key.encode.length < usizeSize) (db : Nat) (expireMs : Option Nat) :
    machine.run (between db expireMs (code :: key.encode)) = .ok (between db none [], []) := by
  have readKey : machine.step
      { between db expireMs (key.encode ++ []) with parseState := .processingKey code }
        = .next { between db expireMs [] with
            parseState := .processingValue code, savedKey := key.text } [] := by
    show processKey code _ = _
    rw [processKey]
    exact consume_reads (loadString_encode keyBound) rfl
  have skip : machine.step
      { between db expireMs [] with parseState := .processingValue code, savedKey := key.text }
        = .next (between db none []) [] := by
    show parseValue code _ = _
    simp only [parseValue, calculateValueSize, unsupported.1]
    rfl
  have stall : machine.step (between db none []) = .stall (between db none []) := rfl
  rw [List.append_nil] at readKey
  rw [run_code, opcodeState_unsupported unsupported, machine.run_next readKey,
    machine.run_next skip, machine.run_stall stall]
  rfl

/-- An unknown opcode or type in an entry misleads the parser. -/
lemma misled_entry {e : Entry} (h : ¬ e.Known) (bound : e.encode.length < usizeSize) (db : Nat)
    (ps : List (Bytes × Bool)) :
    Misled (fun b => machine.run (between db none b)) (e.pieces ++ ps) := by
  obtain ⟨opcodes, key, body⟩ := e
  simp only [Entry.encode, List.length_append, List.length_cons] at bound
  rw [Entry.pieces, List.append_assoc]
  by_cases known : ∀ op ∈ opcodes, op.Known
  · cases body with
    | known v => exact absurd ⟨known, trivial⟩ h
    | unknown code bytes unsupported nonempty =>
      have here : Misled
          (fun b => machine.run (between ((opcodes.filterMap (·.selected)).getLast?.getD db)
            ((opcodes.filterMap (·.deadline)).getLast?.or none) b))
          ((code :: key.encode, false) :: (bytes, true) :: ps) :=
        misled_here nonempty (run_unknown unsupported (by omega) _ _) rfl (.inl rfl)
      exact here.cons (run_pieces known (by omega) db none)
  · exact misled_opcodes known (by omega) db none _

/-- The loader of the entry's value refuses it. -/
def Entry.Refused (e : Entry) : Prop := e.Known ∧ ∃ v f, e.body = .known v ∧ v.reading = .error f

/-- The value of one of the entries is refused, and all that stands in front of it is known. -/
def RefusedIn : List Entry → Prop
  | [] => False
  | e :: es => e.Refused ∨ e.Known ∧ RefusedIn es

/-- A known entry that is not refused gives commands. -/
lemma Entry.reading_ok {e : Entry} (known : e.Known) (fine : ¬ e.Refused) (db : Nat) :
    ∃ commands, e.reading db = .ok commands := by
  obtain ⟨opcodes, key, body⟩ := e
  cases body with
  | unknown => exact ⟨[], rfl⟩
  | known v =>
    cases reading : v.reading with
    | error f => exact absurd ⟨known, v, f, rfl, reading⟩ fine
    | ok read =>
      simp only [Entry.reading, reading]
      exact ⟨_, rfl⟩

/-- The pieces of a known entry that is not refused are consumed. -/
lemma Entry.run_pieces {e : Entry} (known : e.Known) (fine : ¬ e.Refused)
    (bound : e.encode.length < usizeSize) (db : Nat) :
    ∃ commands, ∀ rest, machine.run (between db none (bytesOf e.pieces ++ rest))
      = after commands (machine.run (between (e.db db) none rest)) := by
  obtain ⟨commands, reading⟩ := e.reading_ok known fine (e.db db)
  refine ⟨commands, fun rest => ?_⟩
  rw [Entry.bytesOf_pieces, run_entry known bound, reading]
  rfl

/-- Known entries, none of them refused, give commands. -/
lemma readingFrom_ok {es : List Entry} (known : ∀ e ∈ es, e.Known) (fine : ¬ RefusedIn es)
    (db : Nat) : ∃ commands, readingFrom db es = .ok commands := by
  induction es generalizing db with
  | nil => exact ⟨[], rfl⟩
  | cons e es ih =>
    have here : e.Known := known e List.mem_cons_self
    obtain ⟨commands, first⟩ := e.reading_ok here (fun refused => fine (.inl refused)) (e.db db)
    obtain ⟨later, tail⟩ := ih (fun o ho => known o (List.mem_cons_of_mem _ ho))
      (fun refused => fine (.inr ⟨here, refused⟩)) (e.db db)
    exact ⟨commands ++ later, by rw [readingFrom, first, tail]; rfl⟩

/-- An unknown entry behind entries that are not refused misleads the parser. -/
lemma misled_entries {es : List Entry} (h : ¬ ∀ e ∈ es, e.Known) (fine : ¬ RefusedIn es)
    (bound : (es.flatMap (·.encode)).length < usizeSize) (db : Nat) (ps : List (Bytes × Bool)) :
    Misled (fun b => machine.run (between db none b)) (es.flatMap (·.pieces) ++ ps) := by
  induction es generalizing db with
  | nil => exact absurd (by simp) h
  | cons e es ih =>
    rw [List.flatMap_cons, List.length_append] at bound
    rw [List.flatMap_cons, List.append_assoc]
    by_cases known : e.Known
    · have rest : ¬ ∀ o ∈ es, o.Known := fun all => h (by simpa using ⟨known, all⟩)
      have later : ¬ RefusedIn es := fun refused => fine (.inr ⟨known, refused⟩)
      obtain ⟨_, read⟩ := e.run_pieces known (fun refused => fine (.inl refused)) (by omega) db
      exact (ih rest later (by omega) (e.db db)).cons read
    · exact misled_entry known (by omega) db _

/-- An image that holds an unknown type or opcode misleads the parser, unless a value in front is
refused. -/
lemma misled_image {img : Image} (h : ¬ img.Known) (fine : ¬ RefusedIn img.entries)
    (bound : img.encode.length < usizeSize) : Misled (machine.absorb .new) img.pieces := by
  simp only [Image.encode, Image.tail, List.length_append] at bound
  have items : Misled (fun b => machine.run (between 0 none b))
      (img.entries.flatMap (·.pieces) ++
        (img.opcodes.flatMap (·.pieces) ++ [(opcodeEof :: img.checksum, false)])) := by
    by_cases known : ∀ e ∈ img.entries, e.Known
    · have rest : ¬ ∀ op ∈ img.opcodes, op.Known := fun all => h ⟨known, all⟩
      obtain ⟨db, entries⟩ := run_entries known (by omega) 0
      obtain ⟨commands, reading⟩ := readingFrom_ok known fine 0
      have read (b : Bytes) : machine.run
        (between 0 none (bytesOf (img.entries.flatMap (·.pieces)) ++ b))
          = after commands (machine.run (between db none b)) := by
        rw [bytesOf_flatMap _ _ Entry.bytesOf_pieces, entries, reading]
        rfl
      exact (misled_opcodes rest (by omega) db none _).cons read
    · exact misled_entries known fine (by omega) 0 _
  exact items.cons (absorb_magic_piece img)

/-! ## The first refused value -/

/-- The parser has consumed what stands in front of a value that it refuses, and nothing is marked
from there on to where the value ends. -/
def Refuses (run : Bytes → Except Fault (ParserState × List RawCommand))
    (ps : List (Bytes × Bool)) : Prop :=
  ∃ front back q out f, bytesOf ps = front ++ back ∧ run front = .ok (q, out) ∧ Halts q back ∧
    machine.step (q.push back) = .fault f ∧ ∀ unread, back.length ≤ unread → ¬ Marked ps unread

/-- The mark stands behind pieces that are not marked. -/
lemma Marked.of_append {ps qs : List (Bytes × Bool)} {unread : Nat} (plain : ∀ q ∈ qs, q.2 = false)
    (h : Marked (qs ++ ps) unread) : Marked ps unread := by
  induction qs with
  | nil => exact h
  | cons q qs ih =>
    obtain ⟨mark, -⟩ | tail := h
    · rw [plain q List.mem_cons_self] at mark
      cases mark
    · exact ih (fun p hp => plain p (List.mem_cons_of_mem _ hp)) tail

/-- A mark stands within the pieces. -/
lemma Marked.le {ps : List (Bytes × Bool)} {unread : Nat} (h : Marked ps unread) :
    unread ≤ (bytesOf ps).length := by
  induction ps with
  | nil => exact h.elim
  | cons p ps ih =>
    have split : (bytesOf (p :: ps)).length = p.1.length + (bytesOf ps).length := List.length_append
    obtain ⟨-, -, le⟩ | tail := h
    · omega
    · have := ih tail
      omega

/-- What is read in front of the pieces does not matter. -/
lemma Refuses.cons {run run' : Bytes → Except Fault (ParserState × List RawCommand)}
    {ps qs : List (Bytes × Bool)} {commands : List RawCommand} (h : Refuses run ps)
    (plain : ∀ q ∈ qs, q.2 = false)
    (read : ∀ rest, run' (bytesOf qs ++ rest) = after commands (run rest)) :
    Refuses run' (qs ++ ps) := by
  obtain ⟨front, back, q, out, f, split, ok, halts, fault, unmarked⟩ := h
  refine ⟨bytesOf qs ++ front, back, q, commands ++ out, f, ?_, ?_, halts, fault,
    fun unread ge mark => unmarked unread ge (mark.of_append plain)⟩
  · rw [bytesOf_append, split, List.append_assoc]
  · rw [read, ok, after_ok]

/-- A length takes at least one byte. -/
lemma Length.encode_pos (l : Length) : 0 < l.encode.length := by
  obtain ⟨form, value, fits⟩ := l
  cases form <;> simp [Length.encode]

/-- A string takes at least one byte. -/
lemma EncodedString.encode_pos (s : EncodedString) : 0 < s.encode.length := by
  cases s with
  | raw length bytes exact =>
    have := length.encode_pos
    simp only [EncodedString.encode, List.length_append]
    omega
  | int => simp [EncodedString.encode]
  | lzf => simp [EncodedString.encode]

/-- A value begins with a count or a string. -/
lemma Value.encode_pos (v : Value) : 0 < v.encode.length := by
  cases v with
  | string value => exact value.encode_pos
  | setIntset blob => exact blob.encode_pos
  | hashListpack listpack => exact listpack.blob.encode_pos
  | zsetListpack listpack => exact listpack.blob.encode_pos
  | setListpack listpack => exact listpack.blob.encode_pos
  | hash count | zset2 count | listQuicklist2 count | hash2 count =>
    have := count.encode_pos
    simp only [Value.encode, List.length_append]
    omega

/-- A value of which bytes are missing is waited for. -/
lemma settled_short {v : Value} (bound : v.encode.length < usizeSize) (db : Nat) (key : Bytes)
    (expireMs : Option Nat) {rest x : Bytes} (front : x <+: v.encode ++ rest)
    (short : x.length < v.encode.length) :
    machine.Settled (behindKey v.type.code db key expireMs x) := by
  obtain ⟨more, split⟩ := front
  have whole := calculateValueSize_encode v rest bound
  rw [← split] at whole
  show parseValue v.type.code _ = _
  cases size : calculateValueSize x v.type.code 0 with
  | need => simp only [parseValue, behindKey, between, size]
  | fault f =>
    have later := (calculateValueSize_stable v.type.code 0).fault size more
    cases later.symm.trans whole
  | done n =>
    have later := (calculateValueSize_stable v.type.code 0).done size more
    obtain rfl : n = v.encode.length := by
      cases later.symm.trans whole
      rfl
    simp only [parseValue, behindKey, between, size, short, if_true]

/-- A value that is refused is not begun. -/
lemma halts_refused {v : Value} {f : Fault} (reading : v.reading = .error f)
    (bound : v.encode.length < usizeSize) (db : Nat) (key : Bytes) (expireMs : Option Nat)
    (rest : Bytes) : Halts (behindKey v.type.code db key expireMs []) (v.encode ++ rest) := by
  intro x front
  by_cases short : x.length < v.encode.length
  · exact .inl (settled_short bound db key expireMs front short)
  · obtain ⟨y, rfl⟩ : v.encode <+: x :=
      List.prefix_of_prefix_length_le (List.prefix_append _ _) front (by omega)
    have step := step_value bound db key expireMs y
    rw [reading] at step
    exact .inr ⟨f, step⟩

/-- An entry whose loader refuses it is refused as a whole. -/
lemma refuses_entry {e : Entry} (h : e.Refused) (bound : e.encode.length < usizeSize) (db : Nat)
    (ps : List (Bytes × Bool)) :
    Refuses (fun b => machine.run (between db none b)) (e.pieces ++ ps) := by
  obtain ⟨opcodes, key, body⟩ := e
  obtain ⟨⟨(known : ∀ op ∈ opcodes, op.Known), -⟩, v, f, (rfl : body = .known v), reading⟩ := h
  simp only [Entry.encode, Body.encode, List.length_append, List.length_cons] at bound
  have here : Refuses
      (fun b => machine.run (between ((opcodes.filterMap (·.selected)).getLast?.getD db)
        ((opcodes.filterMap (·.deadline)).getLast?.or none) b))
      ((v.type.code :: key.encode, false) :: (v.encode, false) :: ps) := by
    have nothing : [] <+: v.encode ++ [] := List.nil_prefix
    have wait := settled_short (by omega) ((opcodes.filterMap (·.selected)).getLast?.getD db)
      key.text ((opcodes.filterMap (·.deadline)).getLast?.or none) nothing v.encode_pos
    have step := step_value (by omega : v.encode.length < usizeSize)
      ((opcodes.filterMap (·.selected)).getLast?.getD db) key.text
      ((opcodes.filterMap (·.deadline)).getLast?.or none) (bytesOf ps)
    rw [reading] at step
    have keyBound : key.encode.length < usizeSize := by omega
    have read := run_key (opcodeState_type v.type) keyBound
      ((opcodes.filterMap (·.selected)).getLast?.getD db)
      ((opcodes.filterMap (·.deadline)).getLast?.or none) []
    rw [List.append_nil, machine.run_stall wait] at read
    refine ⟨v.type.code :: key.encode, v.encode ++ bytesOf ps, _, [], f, rfl, read,
      halts_refused reading (by omega) _ _ _ _, step, fun unread ge mark => ?_⟩
    -- what is marked stands behind the value
    have plain : ∀ q ∈ [(v.type.code :: key.encode, false), (v.encode, false)],
        q.2 = false := by simp
    have le := (Marked.of_append plain mark).le
    have pos := v.encode_pos
    rw [List.length_append] at ge
    omega
  have plain : ∀ q ∈ opcodes.flatMap (·.pieces), q.2 = false := by
    intro q hq
    obtain ⟨op, hop, hq⟩ := List.mem_flatMap.mp hq
    exact (known op hop).pieces q hq
  rw [Entry.pieces, List.append_assoc]
  exact here.cons plain (run_pieces known (by omega) db none)

/-- Entries with a refused one are refused there. -/
lemma refuses_entries {es : List Entry} (h : RefusedIn es)
    (bound : (es.flatMap (·.encode)).length < usizeSize) (db : Nat) (ps : List (Bytes × Bool)) :
    Refuses (fun b => machine.run (between db none b)) (es.flatMap (·.pieces) ++ ps) := by
  induction es generalizing db with
  | nil => exact h.elim
  | cons e es ih =>
    rw [List.flatMap_cons, List.length_append] at bound
    rw [List.flatMap_cons, List.append_assoc]
    by_cases refused : e.Refused
    · exact refuses_entry refused (by omega) db _
    · obtain ⟨known, later⟩ := h.resolve_left refused
      obtain ⟨_, read⟩ := e.run_pieces known refused (by omega) db
      exact (ih later (by omega) (e.db db)).cons known.pieces read

/-- An image with a refused value in front of everything unknown is refused there. -/
lemma refuses_image {img : Image} (h : RefusedIn img.entries)
    (bound : img.encode.length < usizeSize) : Refuses (machine.absorb .new) img.pieces := by
  simp only [Image.encode, Image.tail, List.length_append] at bound
  exact (refuses_entries h (by omega) 0 _).cons (by simp) (absorb_magic_piece img)

/-! ## Values that are read as what they are -/

/-- An entry is read as at most one command, and its expiry. -/
lemma Entry.length_reading {e : Entry} {db : Nat} {commands : List RawCommand}
    (reading : e.reading db = .ok commands) : commands.length ≤ (e.commands db).length := by
  obtain ⟨opcodes, key, body⟩ := e
  cases body with
  | unknown =>
    cases reading
    exact le_rfl
  | known v =>
    simp only [Entry.reading] at reading
    cases read : v.reading with
    | error f =>
      rw [read] at reading
      cases reading
    | ok command =>
      rw [read] at reading
      cases reading
      cases command <;> simp [commandOn, Entry.commands, add_comm]

/-- Entries give at most as many commands as they mean. -/
lemma length_readingFrom {es : List Entry} {db : Nat} {commands : List RawCommand}
    (reading : readingFrom db es = .ok commands) :
    commands.length ≤ (commandsFrom db es).length := by
  induction es generalizing db commands with
  | nil =>
    cases reading
    exact le_rfl
  | cons e es ih =>
    rw [readingFrom] at reading
    cases first : e.reading (e.db db) with
    | error f =>
      rw [first] at reading
      cases reading
    | ok here =>
      cases tail : readingFrom (e.db db) es with
      | error f =>
        rw [first, tail] at reading
        cases reading
      | ok later =>
        rw [first, tail] at reading
        cases reading
        have le := Entry.length_reading first
        have le' := ih tail
        simp only [commandsFrom, List.length_append]
        omega

/-- Where an entry gives its commands, its value is read as what it is. -/
lemma Entry.right_of_reading {e : Entry} {db : Nat} (reading : e.reading db = .ok (e.commands db)) :
    e.body.Right := by
  obtain ⟨opcodes, key, body⟩ := e
  cases body with
  | unknown => trivial
  | known v =>
    simp only [Entry.reading] at reading
    cases read : v.reading with
    | error f =>
      rw [read] at reading
      cases reading
    | ok command =>
      rw [read] at reading
      have same : commandOn db key.text command ++ deadlineCommand db key.text _
          = [v.command db key.text] ++ deadlineCommand db key.text _ := Except.ok.inj reading
      have here := List.append_cancel_right same
      cases command with
      | none => cases here
      | some nameArgs =>
        obtain ⟨name, args⟩ := nameArgs
        simp only [commandOn, Value.command, List.cons.injEq, RawCommand.mk.injEq, true_and,
          and_true] at here
        obtain ⟨rfl, rfl⟩ := here
        exact read

/-- Entries that give the commands they mean are all read right. -/
lemma right_of_readingFrom {es : List Entry} {db : Nat}
    (reading : readingFrom db es = .ok (commandsFrom db es)) : ∀ e ∈ es, e.body.Right := by
  induction es generalizing db with
  | nil => simp
  | cons e es ih =>
    rw [readingFrom, commandsFrom] at reading
    cases first : e.reading (e.db db) with
    | error f =>
      rw [first] at reading
      cases reading
    | ok here =>
      cases tail : readingFrom (e.db db) es with
      | error f =>
        rw [first, tail] at reading
        cases reading
      | ok later =>
        rw [first, tail] at reading
        have same : here ++ later = e.commands (e.db db) ++ commandsFrom (e.db db) es :=
          Except.ok.inj reading
        -- neither part can make up for the other
        have le := Entry.length_reading first
        have le' := length_readingFrom tail
        have sizes := congrArg List.length same
        simp only [List.length_append] at sizes
        obtain ⟨rfl, rfl⟩ := List.append_inj same (by omega)
        intro o ho
        obtain rfl | ho := List.mem_cons.mp ho
        · exact Entry.right_of_reading first
        · exact ih tail o ho

/-- An image without anything unknown, and without refused values, is read without corruption
exactly when its values are read as what they are. -/
lemma uncorrupted_known {img : Image} (known : img.Known) (fine : ¬ RefusedIn img.entries)
    (bound : img.encode.length < usizeSize) {chunks : List Bytes} (ne : ∀ c ∈ chunks, c ≠ [])
    (cut : chunks.flatten = img.encode) : Uncorrupted img chunks ↔ img.Right := by
  obtain ⟨q, run, flag, -, isEmpty⟩ := absorb_reading known bound
  obtain ⟨commands, reading⟩ := readingFrom_ok known.1 fine 0
  rw [reading] at run
  have fed : feedAll .new chunks = .ok (q, commands) := by
    rw [feedAll_of_isImage ⟨q, commands, (feedData_absorb rfl _).trans run, flag, isEmpty⟩ ne cut]
    exact run
  constructor
  · rintro ⟨⟨e, error⟩ | ⟨r, ok⟩, -⟩
    · cases fed.symm.trans error
    · cases fed.symm.trans ok
      exact right_of_readingFrom reading
  · intro right
    obtain rfl : img.commands = commands :=
      Except.ok.inj ((readingFrom_right right 0).symm.trans reading)
    exact ⟨.inr ⟨q, fed⟩, fun v _ _ => not_marked known.pieces v.2⟩

/-- The calls end with an error where a value in front of everything unknown is refused. -/
lemma uncorrupted_refused {img : Image} (refused : RefusedIn img.entries)
    (bound : img.encode.length < usizeSize) {chunks : List Bytes} (ne : ∀ c ∈ chunks, c ≠ [])
    (cut : chunks.flatten = img.encode) : Uncorrupted img chunks := by
  obtain ⟨front, back, q, out, f, split, ok, halts, fault, unmarked⟩ := refuses_image refused bound
  rw [Image.bytesOf_pieces, ← cut] at split
  have error : machine.absorb .new img.encode = .error f := by
    have run : machine.absorb q back = .error f := machine.run_fault fault
    rw [← cut, split, machine.absorb_append, ok]
    simp only [run, after_error]
  exact ⟨.inl ⟨f, feedAll_of_error error ne cut⟩,
    fun v hv _ => unmarked v.2 (visits_ge ok halts split v hv)⟩

/-- Where something is unknown and no value in front of it is refused, bytes of it are taken for
something else. -/
lemma not_uncorrupted {img : Image} (unknown : ¬ img.Known) (fine : ¬ RefusedIn img.entries)
    (bound : img.encode.length < usizeSize) {chunks : List Bytes}
    (cut : chunks.flatten = img.encode) : ¬ Uncorrupted img chunks := by
  rintro ⟨-, reads⟩
  obtain ⟨front, back, q, out, split, neb, ok, isEmpty, live, mark⟩ :=
    misled_image unknown fine bound
  rw [Image.bytesOf_pieces] at split
  have running : q.parseState ≠ .finished := by
    obtain opcode | ⟨code, key⟩ := live
    · rw [opcode]; nofun
    · rw [key]; nofun
  obtain ⟨x, nx, mem⟩ := mem_visits sound_new rfl ok running isEmpty (cut.trans split) neb
  refine reads _ mem ⟨by simp [nx], ?_⟩ mark
  obtain opcode | ⟨code, key⟩ := live
  · simp only [push_parseState, opcode]
  · simp only [push_parseState, key]

/-- Entries that are read right are not refused. -/
lemma not_refusedIn {es : List Entry} (right : ∀ e ∈ es, e.body.Right) : ¬ RefusedIn es := by
  induction es with
  | nil => exact id
  | cons e es ih =>
    rintro (⟨-, v, f, body, refused⟩ | ⟨-, later⟩)
    · have here := right e List.mem_cons_self
      rw [body] at here
      cases Eq.trans (Eq.symm here) refused
    · exact ih (fun o ho => right o (List.mem_cons_of_mem _ ho)) later

/-- An image is read without corruption exactly when a value in front of everything unknown is
refused, or nothing is unknown and every value is read as what it is. Where the values can be read,
it is exactly when the parser knows all the types and opcodes. -/
theorem uncorrupted_iff {img : Image} (bound : img.encode.length < usizeSize) {chunks : List Bytes}
    (ne : ∀ c ∈ chunks, c ≠ []) (cut : chunks.flatten = img.encode) :
    (Uncorrupted img chunks ↔ RefusedIn img.entries ∨ img.Known ∧ img.Right) ∧
      (img.Readable → (Uncorrupted img chunks ↔ img.Known)) := by
  have exact : Uncorrupted img chunks ↔ RefusedIn img.entries ∨ img.Known ∧ img.Right := by
    by_cases refused : RefusedIn img.entries
    · exact iff_of_true (uncorrupted_refused refused bound ne cut) (.inl refused)
    · by_cases known : img.Known
      · simpa [refused, known] using uncorrupted_known known refused bound ne cut
      · simpa [refused, known] using not_uncorrupted known refused bound cut
  refine ⟨exact, fun readable => exact.trans ?_⟩
  have right := readable.right
  simp [not_refusedIn right, right]

/-- The sample image, whose types and opcodes are known, is not corrupted. -/
theorem uncorrupted_iff_sample :
    (Uncorrupted sample [sample.encode.take 20, sample.encode.drop 20]
        ↔ RefusedIn sample.entries ∨ sample.Known ∧ sample.Right) ∧
      (Uncorrupted sample [sample.encode.take 20, sample.encode.drop 20] ↔ sample.Known) := by
  have cut : [sample.encode.take 20, sample.encode.drop 20].flatten
      = sample.encode := by decide +kernel
  obtain ⟨exact, readable⟩ := uncorrupted_iff (by decide +kernel) (by decide +kernel) cut
  exact ⟨exact, readable sample_readable⟩

/-- The parser does not know the type of a plain set. -/
lemma unsupported_set : Unsupported 2 := by decide

/-- A plain set (type 2) with the members a, the empty string, and two strings of zero and one
bytes. -/
def setSample : Image where
  magic := ascii "REDIS0011"
  magicSize := length_eleven
  version := checkVersion_eleven
  entries :=
    [{ opcodes := []
       key := text "s" length_s
       body := .unknown 2 [4, 1, 97, 0, 1, 0, 2, 1, 0] unsupported_set (List.cons_ne_nil _ _) }]
  opcodes := []
  checksum := [0, 0, 0, 0, 0, 0, 0, 0]
  checksumSize := rfl

/-- The members of the set are read as a hash with the key a. -/
theorem uncorrupted_fails : ¬ Uncorrupted setSample [setSample.encode] := by
  have read : ∃ q, feedAll .new [setSample.encode] = .ok (q, [⟨0, ascii "HSET", [[97]]⟩]) :=
    ⟨_, by rfl⟩
  obtain ⟨q, read⟩ := read
  rintro ⟨⟨e, error⟩ | ⟨r, commands⟩, -⟩
  · rw [read] at error
    cases error
  · rw [read] at commands
    cases commands

end Veidrodelis.RedisNif.RdbFormat
