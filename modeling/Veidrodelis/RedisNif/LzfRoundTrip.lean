import Veidrodelis.RedisNif.LzfCompress
import Veidrodelis.RedisNif.LzfMemory

/-!
# What the compressor writes

Between two rounds the output buffer holds tokens that stand for a first part of the input, a byte
that is reserved for the length of the literal run, and the run (`Packs`). A run that is stopped is
a token (`Sealed`). Neither depends on the hash table.
-/

namespace Veidrodelis.RedisNif.Lzf.C
open Lz77 Memory

/-- The tokens in front of `op` stand for the input in front of `ip`. -/
structure Sealed (input : Bytes) (c : Packer) (tokens : List Token) (behind : Bytes) : Prop where
  out : c.out = encodeAll tokens ++ behind
  op : c.op = (encodeAll tokens).length
  ip : c.ip ≤ input.length
  stands : StandsFor tokens (input.take c.ip)

/-- The tokens stand for the text, and the run follows it behind the reserved byte, which may be the
first one outside of the buffer. The output is longer than the input by the reserved byte and one
for every 32. -/
structure Packs (input : Bytes) (c : Packer) (tokens : List Token) (text run behind : Bytes) :
    Prop where
  out : c.out = encodeAll tokens ++ behind
  follows : run <+: behind.drop 1
  op : c.op = (encodeAll tokens).length + 1 + run.length
  lit : c.lit = run.length
  short : run.length < 32
  ip : c.ip ≤ input.length
  read : text ++ run = input.take c.ip
  stands : StandsFor tokens text
  size : c.op ≤ c.ip + 1 + text.length / 32

section
variable {input : Bytes} {c : Packer} {tokens : List Token} {text run behind : Bytes}

/-- One token more at the end. -/
lemma encodeAll_snoc (tokens : List Token) (t : Token) :
    encodeAll (tokens ++ [t]) = encodeAll tokens ++ t.encode := by
  rw [encodeAll, encodeAll, List.flatMap_append, List.flatMap_singleton]

/-- The output is the tokens, the reserved byte and the run, if there is room for them. -/
lemma Packs.split (packs : Packs input c tokens text run behind)
    (room : (encodeAll tokens).length < c.out.length) :
    ∃ slot rest, c.out = encodeAll tokens ++ slot :: (run ++ rest) := by
  obtain ⟨rest, eq⟩ := packs.follows
  cases behind with
  | nil =>
    rw [packs.out, List.append_nil] at room
    exact absurd room (Nat.lt_irrefl _)
  | cons slot behind =>
    rw [List.drop_one, List.tail_cons] at eq
    exact ⟨slot, rest, by rw [packs.out, eq]⟩

/-- A run that is stopped becomes a token; an empty one is undone. -/
lemma stop_sealed {slot : UInt8} {rest : Bytes}
    (out : c.out = encodeAll tokens ++ slot :: (run ++ rest))
    (op : c.op = (encodeAll tokens).length + 1 + run.length) (lit : c.lit = run.length)
    (short : run.length ≤ 32) (ip : c.ip ≤ input.length) (read : text ++ run = input.take c.ip)
    (stands : StandsFor tokens text) :
    ∃ c' tokens' behind', stopRun c = some c' ∧ Sealed input (undoRun c') tokens' behind' ∧
      c'.out.length = c.out.length ∧ c'.ip = c.ip ∧ c'.op = c.op ∧ c'.lit = c.lit := by
  have stopped : stopRun c =
      some { c with out := encodeAll tokens ++ (UInt8.ofNat c.lit - 1) :: (run ++ rest) } := by
    have position : c.op - (c.lit + 1) = (encodeAll tokens).length := by omega
    rw [stopRun, if_pos (by omega), position, out, store_append (by rw [List.length_cons]; omega)]
    simp only [Option.map_some, List.drop_one, List.tail_cons, List.append_assoc,
      List.singleton_append]
  have same : (encodeAll tokens ++ (UInt8.ofNat c.lit - 1) :: (run ++ rest)).length =
    c.out.length := by
    rw [out, List.length_append, List.length_append, List.length_cons, List.length_cons]
  cases run with
  | nil =>
    rw [List.append_nil] at read
    rw [List.length_nil] at op lit
    have undone : c.op - 1 = (encodeAll tokens).length := by omega
    refine ⟨_, tokens, _, stopped, ⟨rfl, ?_, ip, ?_⟩, same, rfl, rfl, rfl⟩
    · rw [undoRun, if_pos lit]
      exact undone
    · show StandsFor tokens (input.take c.ip)
      rwa [← read]
  | cons b run =>
    have nonzero : c.lit ≠ 0 := by rw [lit, List.length_cons]; omega
    have length : UInt8.ofNat c.lit - 1 = UInt8.ofNat ((b :: run).length - 1) := by
      apply UInt8.toNat_inj.mp
      rw [lit, UInt8.toNat_sub, UInt8.toNat_ofNat', UInt8.toNat_ofNat', UInt8.toNat_one,
        List.length_cons] at *
      omega
    refine ⟨_, tokens ++ [.literal (b :: run) (Nat.succ_pos _) short], rest, stopped,
      ⟨?_, ?_, ip, ?_⟩, same, rfl, rfl, rfl⟩
    · rw [encodeAll_snoc, Token.encode, ← length, List.append_assoc, List.cons_append]
      rfl
    · rw [undoRun, if_neg nonzero, encodeAll_snoc, Token.encode, List.length_append,
        List.length_cons, ← Nat.add_assoc, Nat.add_right_comm]
      exact op
    · show StandsFor _ (input.take c.ip)
      rw [← read, StandsFor, List.map_append]
      exact stands.snoc (.literal (b :: run) text)

/-- A run that is not empty keeps its reserved byte. -/
lemma undoRun_of_ne (nonzero : c.lit ≠ 0) : undoRun c = c := by
  rw [undoRun, if_neg nonzero, Nat.sub_zero]

/-- A new run starts behind the tokens. -/
lemma Sealed.start (done : Sealed input c tokens behind) (size : c.op ≤ c.ip + c.ip / 32) :
    Packs input (startRun c) tokens (input.take c.ip) [] behind where
  out := done.out
  follows := List.nil_prefix
  op := congrArg (· + 1) done.op
  lit := rfl
  short := by decide
  ip := done.ip
  read := List.append_nil _
  stands := done.stands
  size := by
    show c.op + 1 ≤ c.ip + 1 + (input.take c.ip).length / 32
    rw [List.length_take_of_le done.ip]
    omega

/-- A literal byte that there is room for. -/
lemma literal_packs (packs : Packs input c tokens text run behind) (more : c.ip < input.length)
    (room : c.op < c.out.length) :
    ∃ c' tokens' text' run' behind', literal input c = some c' ∧
      Packs input c' tokens' text' run' behind' ∧
      c'.out.length = c.out.length ∧ c'.ip = c.ip + 1 ∧
      (c'.lit = c.lit + 1 ∧ c'.op = c.op + 1 ∨ c.lit = 31 ∧ c'.lit = 0 ∧ c'.op = c.op + 2) := by
  have op := packs.op
  obtain ⟨slot, rest, out⟩ := packs.split (by omega)
  have size : c.out.length = (encodeAll tokens).length + 1 + run.length + rest.length := by
    rw [out, List.length_append, List.length_cons, List.length_append]
    omega
  have written : emit input[c.ip] { c with lit := c.lit + 1, ip := c.ip + 1 } = some { c with
      lit := c.lit + 1, ip := c.ip + 1, op := c.op + 1,
      out := encodeAll tokens ++ slot :: ((run ++ [input[c.ip]]) ++ rest.drop 1) } := by
    have front : c.out = (encodeAll tokens ++ slot :: run) ++ rest := by
      rw [out, List.append_assoc, List.cons_append]
    have position : c.op = (encodeAll tokens ++ slot :: run).length := by
      rw [List.length_append, List.length_cons]
      omega
    rw [emit, front, position, store_append (by omega), Option.map_some]
    simp only [List.append_assoc, List.cons_append]
  have read : text ++ (run ++ [input[c.ip]]) = input.take (c.ip + 1) := by
    rw [← List.append_assoc, packs.read, List.take_concat_get']
  have count : text.length + run.length = c.ip := by
    rw [← List.length_append, packs.read, List.length_take_of_le packs.ip]
  have lit := packs.lit
  have short := packs.short
  have bound := packs.size
  rw [literal, List.getElem?_eq_getElem more]
  simp only [Option.bind_eq_bind, Option.bind_some, written]
  split
  · -- the run is full: it becomes a token, and the next one starts
    rename_i full
    have op' : c.op + 1 = (encodeAll tokens).length + 1 + (run ++ [input[c.ip]]).length := by
      rw [List.length_append, List.length_singleton]
      omega
    have lit' : c.lit + 1 = (run ++ [input[c.ip]]).length := by
      rw [List.length_append, List.length_singleton]
      omega
    obtain ⟨c', tokens', behind', stopped, done, same, ip, op'', lit''⟩ :=
      @stop_sealed input ⟨c.ip + 1, c.op + 1, c.lit + 1, c.hval, c.htab,
        _⟩ tokens text (run ++ [input[c.ip]]) slot
        (rest.drop 1) rfl op' lit' (by omega) more read packs.stands
    rw [undoRun_of_ne (by rw [lit'']; exact Nat.succ_ne_zero _)] at done
    rw [stopped, Option.map_some]
    refine ⟨_, _, _, _, _, rfl, done.start ?_, ?_, ip, ?_⟩
    · rw [op'', ip]
      show c.op + 1 ≤ c.ip + 1 + (c.ip + 1) / 32
      omega
    · show c'.out.length = c.out.length
      rw [same]
      simp only [List.length_append, List.length_cons, List.length_drop, List.length_nil]
      omega
    · exact .inr ⟨Nat.succ.inj full, rfl, congrArg (· + 1) op''⟩
  · rename_i open'
    refine ⟨_, tokens, text, run ++ [input[c.ip]], slot :: ((run ++ [input[c.ip]]) ++ rest.drop 1),
      rfl, ⟨rfl, ?_, ?_, ?_, ?_, more, read, packs.stands, ?_⟩, ?_, rfl, ?_⟩
    · exact List.prefix_append _ _
    · rw [List.length_append, List.length_singleton]
      show c.op + 1 = _
      omega
    · rw [List.length_append, List.length_singleton]
      exact congrArg (· + 1) lit
    · rw [List.length_append, List.length_singleton]
      omega
    · show c.op + 1 ≤ c.ip + 1 + 1 + text.length / 32
      omega
    · simp only [List.length_append, List.length_cons, List.length_drop, List.length_nil]
      omega
    · exact .inl ⟨rfl, rfl⟩

/-! ## Matches -/

/-- A back reference is shorter than what it stands for. -/
lemma length_encodeReference {distance octets : Nat} (long : 3 ≤ octets) :
    (encodeReference distance octets).length < octets := by
  rw [encodeReference]
  split
  · exact long
  · rename_i large
    show 3 < octets
    omega

/-- A byte is written behind the output. -/
lemma emit_sealed {b : UInt8} {front : Bytes} (out : c.out = front ++ behind)
    (op : c.op = front.length) (room : 0 < behind.length) :
    emit b c = some { c with
      op := (front ++ [b]).length, out := (front ++ [b]) ++ behind.drop 1 } := by
  rw [emit, out, op, store_append room, Option.map_some, List.length_append, List.length_singleton]

/-- The bytes of a back reference are written behind the tokens. -/
lemma emitReference_eq {off : UInt64} {octets : Nat} (done : Sealed input c tokens behind)
    (room : 3 ≤ behind.length) :
    ∃ behind', emitReference off octets c = some { c with
        op := (encodeAll tokens ++ encodeReference (off.toNat + 1) octets).length,
        out := (encodeAll tokens ++ encodeReference (off.toNat + 1) octets) ++ behind' } ∧
      ((encodeAll tokens ++ encodeReference (off.toNat + 1) octets) ++ behind').length =
        c.out.length := by
  have low : off.toUInt8 = UInt8.ofNat (off.toNat % 256) := by
    apply UInt8.toNat_inj.mp
    rw [UInt64.toNat_toUInt8, UInt8.toNat_ofNat', Nat.mod_mod]
  have high (n : Nat) (small : n ≤ 7) :
      ((off >>> 8) + UInt64.ofNat (n <<< 5)).toUInt8 = UInt8.ofNat (off.toNat / 256 + n * 32) := by
    apply UInt8.toNat_inj.mp
    rw [UInt64.toNat_toUInt8, UInt64.toNat_add, UInt64.toNat_shiftRight, UInt64.toNat_ofNat',
      UInt8.toNat_ofNat', Nat.shiftRight_eq_div_pow, Nat.shiftLeft_eq]
    show (off.toNat / 256 + n * 32 % 2 ^ 64) % 2 ^ 64 % 256 = _
    omega
  have two (a b : UInt8) : encodeAll tokens ++ [a] ++ [b] = encodeAll tokens ++ [a, b] := by
    rw [List.append_assoc, List.singleton_append]
  have three (a b d : UInt8) : encodeAll tokens ++ [a, b] ++ [d] =
    encodeAll tokens ++ [a, b, d] := by
    rw [List.append_assoc, List.cons_append, List.singleton_append]
  have size : c.out.length = (encodeAll tokens).length + behind.length := by
    rw [done.out, List.length_append]
  rw [emitReference, encodeReference, Nat.add_sub_cancel]
  split
  · rename_i little
    refine ⟨behind.drop 2, ?_, ?_⟩
    · rw [emit_sealed done.out done.op (by omega), low, high _ (by omega), Option.bind_eq_bind,
        Option.bind_some,
        emit_sealed rfl rfl (by rw [List.length_drop]; omega), List.drop_drop, two]
    · simp only [List.length_append, List.length_cons, List.length_nil, List.length_drop]
      omega
  · refine ⟨behind.drop 3, ?_, ?_⟩
    · rw [emit_sealed done.out done.op (by omega), low, high _ (by omega), Option.bind_eq_bind,
        Option.bind_some,
        emit_sealed rfl rfl (by rw [List.length_drop]; omega), Option.bind_some,
        emit_sealed rfl rfl (by rw [List.length_drop, List.length_drop]; omega), List.drop_drop,
          List.drop_drop, two,
        three]
    · simp only [List.length_append, List.length_cons, List.length_nil, List.length_drop]
      omega

/-- What a round leaves: there was no room, or the run that follows a match or holds one more
byte. -/
inductive Goes (input : Bytes) (c : Packer) : Round → Prop where
  | full {c' : Packer} (same : c'.out.length = c.out.length) (tight : c.out.length ≤ c.op + 4) :
    Goes input c (.full c')
  | break {c' : Packer} {tokens : List Token} {text run behind : Bytes}
      (same : c'.out.length = c.out.length) (ended : input.length ≤ c'.ip + 2)
      (packs : Packs input c' tokens text run behind) :
      Goes input c (.break c')
  | continue {c' : Packer} {tokens : List Token} {text run behind : Bytes}
      (same : c'.out.length = c.out.length) (reads : c.ip < c'.ip)
      (packs : Packs input c' tokens text run behind) :
      Goes input c (.continue c')

/-- The hash table does not matter for what was written. -/
lemma Packs.hashed (packs : Packs input c tokens text run behind) (hval : UInt32)
    (htab : UInt32 → UInt64) : Packs input { c with hval, htab } tokens text run behind :=
  ⟨packs.out, packs.follows, packs.op, packs.lit, packs.short, packs.ip, packs.read,
    packs.stands, packs.size⟩

/-- The lookup in the table changes the hash and the table only. -/
lemma rehash_eq {inData : UInt64} (inside : c.ip + 2 < input.length) :
    ∃ ref hval htab, rehash input inData c = some (ref, { c with hval, htab }) := by
  rw [rehash, List.getElem?_eq_getElem inside]
  exact ⟨_, _, _, rfl⟩

/-- Hashing the last positions changes the hash and the table only. -/
lemma hashBehind_eq {inData : UInt64} (front : 2 ≤ c.ip) (inside : c.ip + 1 < input.length) :
    ∃ hval htab, hashBehind input inData c = some { c with hval, htab } := by
  have read {i : Nat} (inside : i < input.length) : ∃ b, input[i]? = some b :=
    ⟨_, List.getElem?_eq_getElem inside⟩
  obtain ⟨b0, r0⟩ := read (show c.ip - 2 < input.length by omega)
  obtain ⟨b1, r1⟩ := read (show c.ip - 2 + 1 < input.length by omega)
  obtain ⟨b2, r2⟩ := read (show c.ip - 2 + 2 < input.length by omega)
  obtain ⟨b3, r3⟩ := read (show c.ip - 2 + 1 + 2 < input.length by omega)
  rw [hashBehind]
  simp only [rehash, r0, r1, r2, r3, Option.bind_eq_bind, Option.bind_some, Option.pure_def]
  have back : c.ip - 2 + 1 + 1 = c.ip := by omega
  rw [back]
  exact ⟨_, _, rfl⟩

/-- The bytes of a match become a back reference. -/
lemma packMatch_eq {inData ref : UInt64} (packs : Packs input c tokens text run behind)
    (inside : c.ip + 2 < input.length) (near : (offset inData ref c.ip).toNat < 2 ^ 13)
    (within : (offset inData ref c.ip).toNat + 1 < c.ip)
    (there : (ref - inData).toNat = c.ip - ((offset inData ref c.ip).toNat + 1))
    (agree : Agree input (ref - inData).toNat c.ip 3) :
    ∃ r, packMatch input inData ref c = some r ∧ Goes input c r := by
  have op := packs.op
  have lit := packs.lit
  have bound := packs.size
  have count : text.length + run.length = c.ip := by
    rw [← List.length_append, packs.read, List.length_take_of_le packs.ip]
  have undone : (undoRun c).op = c.op - if c.lit = 0 then 1 else 0 := rfl
  rw [packMatch]
  split
  · rename_i tight
    exact ⟨_, rfl, .full rfl tight.1⟩
  · rename_i room
    have room : (undoRun c).op + 4 < c.out.length := by
      by_contra small
      refine room ⟨?_, Nat.not_lt.mp small⟩
      omega
    have inside' : (encodeAll tokens).length < c.out.length := by
      split at undone <;> omega
    obtain ⟨slot, rest, out⟩ := packs.split inside'
    obtain ⟨c1, tokens', behind', stopped, done, same, ip, op1, lit1⟩ :=
      stop_sealed out op lit (Nat.le_of_lt packs.short) packs.ip packs.read packs.stands
    have undone1 : (undoRun c1).op = (undoRun c).op := by rw [undoRun, undoRun, op1, lit1]
    have ip1 : (undoRun c1).ip = c.ip := ip
    have size : c1.out.length = (encodeAll tokens').length + behind'.length := by
      rw [← List.length_append, ← done.out]
      rfl
    have op' := done.op
    obtain ⟨octets, found, long, short, fits, agree⟩ := matchLength_eq (by omega) inside agree
    obtain ⟨behind'', written, same'⟩ :=
      @emitReference_eq input (undoRun c1) tokens' behind' (offset inData ref c.ip)
      octets done (by omega)
    let distance := (offset inData ref c.ip).toNat + 1
    have shorter : (encodeReference distance octets).length < octets := length_encodeReference long
    let c3 : Packer := { undoRun c1 with
      ip := c.ip + octets
      op := (encodeAll tokens' ++ encodeReference distance octets).length
      out := (encodeAll tokens' ++ encodeReference distance octets) ++ behind'' }
    have done3 : Sealed input c3
      (tokens' ++ [.reference distance octets (Nat.succ_pos _) near long short]) behind'' := by
      refine ⟨?_, ?_, fits, ?_⟩
      · rw [encodeAll_snoc]
        rfl
      · rw [encodeAll_snoc]
        rfl
      · have before := done.stands
        rw [ip1] at before
        rw [StandsFor, List.map_append]
        apply before.snoc
        apply extends_take (Nat.succ_pos _) (by omega) fits
        intro i few
        rw [← agree i few, there]
        congr 1
        omega
    have size3 : c3.op ≤ c3.ip + c3.ip / 32 := by
      show (encodeAll tokens' ++ encodeReference distance octets).length ≤
        c.ip + octets + (c.ip + octets) / 32
      rw [List.length_append]
      split at undone <;> omega
    have packs3 := done3.start size3
    have room3 : c3.out.length = c.out.length := by
      rw [← same]
      exact same'
    have stepped : emitReference (offset inData ref c.ip) octets (undoRun c1) =
      some { c3 with ip := (undoRun c1).ip } :=
      written
    simp only [stopped, Option.bind_eq_bind, Option.bind_some, ip1, found, stepped, Option.pure_def]
    split
    · rename_i ended
      exact ⟨_, rfl, .break room3 ended packs3⟩
    · rename_i more
      have more : c.ip + octets + 2 < input.length := Nat.not_le.mp more
      obtain ⟨hval, htab, hashed⟩ :=
        @hashBehind_eq input (startRun c3) inData (show 2 ≤ c.ip + octets by omega)
        (show c.ip + octets + 1 < input.length by omega)
      have hashed' : hashBehind input inData
          (startRun { { c3 with ip := c.ip } with ip := c.ip + octets }) = _ := hashed
      rw [hashed', Option.bind_some]
      exact ⟨_, rfl, .continue room3 (show c.ip < c.ip + octets by omega) (packs3.hashed hval htab)⟩

/-- A round of the loop is defined, and goes on. -/
lemma packStep_eq {inData : UInt64} (page : 2 ^ 13 ≤ inData.toNat)
    (layout : inData.toNat + input.length ≤ 2 ^ 64) (packs : Packs input c tokens text run behind)
    (inside : c.ip + 2 < input.length) :
    ∃ r, packStep input inData c = some r ∧ Goes input c r := by
  obtain ⟨ref, hval, htab, hashed⟩ := @rehash_eq input c inData inside
  obtain ⟨found, tested, isMatch⟩ := @isMatch_eq input inData ref c.ip page layout inside
  have packs' := packs.hashed hval htab
  rw [packStep, hashed]
  simp only [Option.bind_eq_bind, Option.bind_some, tested, Option.pure_def]
  cases found with
  | true =>
    obtain ⟨near, within, there, agree⟩ := isMatch rfl
    rw [if_pos rfl]
    obtain ⟨r, eq, goes⟩ := packMatch_eq packs' inside near within there agree
    refine ⟨r, eq, ?_⟩
    cases goes with
    | full same tight => exact .full same tight
    | «break» same ended packs => exact .break same ended packs
    | «continue» same reads packs => exact .continue same reads packs
  | false =>
    rw [if_neg Bool.false_ne_true]
    split
    · rename_i full
      exact ⟨_, rfl, .full rfl (Nat.le_add_right_of_le full)⟩
    · rename_i room
      obtain ⟨c', _, _, _, _, eq, packs'', same, ip, -⟩ :=
        literal_packs packs' (show c.ip < input.length by omega) (Nat.not_le.mp room)
      rw [eq, Option.bind_some]
      exact ⟨_, rfl, .continue same (ip ▸ Nat.lt_succ_self _) packs''⟩

/-! ## The whole input -/

/-- How the loop ends: there is less room than the input may take, or hardly anything is left to
read. -/
inductive Ends (input : Bytes) (room : Nat) : Except Packer Packer → Prop where
  | full {c : Packer} (same : c.out.length = room)
      (tight : room < input.length + input.length / 32 + 4) :
      Ends input room (.error c)
  | read {c : Packer} {tokens : List Token} {text run behind : Bytes} (same : c.out.length = room)
      (ended : input.length ≤ c.ip + 2) (packs : Packs input c tokens text run behind) :
      Ends input room (.ok c)

/-- The loop ends from every state that packs, with enough fuel. -/
lemma packLoop_eq {inData : UInt64} {fuel : Nat} (page : 2 ^ 13 ≤ inData.toNat)
    (layout : inData.toNat + input.length ≤ 2 ^ 64) (packs : Packs input c tokens text run behind)
    (fuels : input.length ≤ c.ip + fuel) :
    ∃ r, packLoop input inData fuel c = some r ∧ Ends input c.out.length r := by
  induction fuel generalizing c tokens text run behind with
  | zero => exact ⟨_, rfl, .read rfl (by omega) packs⟩
  | succ fuel ih =>
    rw [packLoop]
    split
    · rename_i inside
      obtain ⟨r, stepped, goes⟩ := packStep_eq page layout packs inside
      rw [stepped, Option.bind_eq_bind, Option.bind_some]
      cases goes with
      | full same tight =>
        have bound := packs.size
        have count : text.length + run.length = c.ip := by
          rw [← List.length_append, packs.read, List.length_take_of_le packs.ip]
        exact ⟨_, rfl, .full same (by omega)⟩
      | «break» same ended packs => exact ⟨_, rfl, .read same ended packs⟩
      | «continue» same reads packs =>
        obtain ⟨r, eq, ends⟩ := ih packs (by omega)
        rw [same] at ends
        exact ⟨r, eq, ends⟩
    · rename_i ended
      exact ⟨_, rfl, .read rfl (Nat.not_lt.mp ended) packs⟩

/-- The rest is read where there is room for it. -/
lemma packRest_eq {fuel k : Nat} (packs : Packs input c tokens text run behind)
    (left : c.ip + k = input.length) (fuels : k ≤ fuel)
    (room : c.op + k + (c.lit + k) / 32 ≤ c.out.length) :
    ∃ c' tokens' text' run' behind', packRest input fuel c = some c' ∧
      Packs input c' tokens' text' run' behind' ∧ c'.out.length = c.out.length ∧
      c'.ip = input.length ∧ c'.op ≤ c.out.length := by
  induction k generalizing c tokens text run behind fuel with
  | zero =>
    refine ⟨c, _, _, _, _, ?_, packs, rfl, left, by omega⟩
    cases fuel with
    | zero => rfl
    | succ fuel => rw [packRest, if_neg (by omega)]
  | succ k ih =>
    cases fuel with
    | zero => omega
    | succ fuel =>
      obtain ⟨c', _, _, _, _, eq, packs', same, ip, op⟩ := literal_packs packs (by omega) (by omega)
      obtain ⟨c'', tokens', text', run', behind', eq', packs'', same', ip', op'⟩ :=
        @ih c' _ _ _ _ fuel packs' (by omega) (by omega) (by omega)
      refine ⟨c'', tokens', text', run', behind', ?_, packs'', by rw [same', same], ip', by omega⟩
      rw [packRest, if_pos (by omega), eq, Option.bind_eq_bind, Option.bind_some, eq']

/-- Only no tokens are encoded by nothing. -/
lemma encodeAll_eq_nil {tokens : List Token} (isNil : encodeAll tokens = []) : tokens = [] := by
  cases tokens with
  | nil => rfl
  | cons t tokens =>
    rw [encodeAll, List.flatMap_cons, List.append_eq_nil_iff] at isNil
    have filled := t.encode_ne_nil
    rw [isNil.1] at filled
    exact absurd filled (Nat.lt_irrefl 0)

/-- The compressor is defined on an input of two bytes and more; what it writes stands for the
input, and it writes something where there is room for the input and one byte for every 32. -/
lemma lzfCompress_eq {inData : UInt64} (htab : UInt32 → UInt64) (out : Bytes)
    (page : 2 ^ 13 ≤ inData.toNat) (layout : inData.toNat + input.length ≤ 2 ^ 64)
    (two : 2 ≤ input.length) :
    ∃ n packed, lzfCompress input inData htab out = some (n, packed) ∧ packed.length = out.length ∧
      n ≤ out.length ∧
      (input.length + input.length / 32 + 4 ≤ out.length → n ≠ 0) ∧
      (n ≠ 0 → ∃ tokens, encodeAll tokens = packed.take n ∧ StandsFor tokens input) := by
  rw [lzfCompress]
  by_cases isZero : out.length = 0
  · rw [if_pos (.inr isZero)]
    refine ⟨0, out, rfl, rfl, Nat.zero_le _, by omega, ?_⟩
    intro filled
    exact absurd rfl filled
  · rw [if_neg (by omega), List.getElem?_eq_getElem (show 0 < input.length by omega),
      List.getElem?_eq_getElem (show 1 < input.length by omega)]
    simp only [Option.bind_eq_bind, Option.bind_some, Option.pure_def]
    have isEmpty : Sealed input ⟨0, 0, 0, frst input[0] input[1], htab, out⟩ [] out :=
      ⟨rfl, rfl, Nat.zero_le _, .nil []⟩
    have started := isEmpty.start (show 0 ≤ 0 + 0 / 32 by omega)
    obtain ⟨r, looped, ends⟩ := packLoop_eq page layout started (Nat.le_add_left input.length _)
    rw [looped, Option.bind_some]
    cases ends with
    | full same tight =>
      refine ⟨0, _, rfl, same, Nat.zero_le _, ?_, ?_⟩
      · intro room
        exact absurd room (Nat.not_le.mpr tight)
      · intro filled'
        exact absurd rfl filled'
    | @read c tokens text run behind same ended packs =>
      have same : c.out.length = out.length := same
      have lit := packs.lit
      have short := packs.short
      have bound := packs.size
      have ip := packs.ip
      have count : text.length + run.length = c.ip := by
        rw [← List.length_append, packs.read, List.length_take_of_le ip]
      dsimp only
      split
      · rename_i small
        refine ⟨0, _, rfl, same, Nat.zero_le _, by omega, ?_⟩
        intro given
        exact absurd rfl given
      · -- there is room for the two bytes that may be left, and for the end of a run between them
        rename_i room
        obtain ⟨c', tokens', text', run', behind', rested, packs', same', ip', op'⟩ :=
          @packRest_eq input c tokens text run behind input.length (input.length - c.ip) packs
            (by omega) (by omega)
            (by omega)
        have op'' := packs'.op
        obtain ⟨slot, rest, out'⟩ := packs'.split (by omega)
        obtain ⟨c'', sealed, behind'', stopped, done, same'', ip'', -⟩ :=
          stop_sealed out' op'' packs'.lit (Nat.le_of_lt packs'.short) packs'.ip
            packs'.read packs'.stands
        rw [rested, Option.bind_some, stopped, Option.bind_some]
        have size : c''.out.length = (encodeAll sealed).length + behind''.length := by
          rw [← List.length_append, ← done.out]
          rfl
        have stands := done.stands
        have whole : (undoRun c'').ip = input.length := ip''.trans ip'
        rw [whole, List.take_length] at stands
        refine ⟨_, _, rfl, ?_, ?_, ?_, ?_⟩
        · exact (same''.trans same').trans same
        · rw [done.op]
          omega
        · intro _ zero
          rw [done.op] at zero
          rw [encodeAll_eq_nil (List.length_eq_zero_iff.mp zero)] at stands
          rw [expands_nil.mp stands] at two
          cases two
        · intro _
          refine ⟨sealed, ?_, stands⟩
          have packed : c''.out = encodeAll sealed ++ behind'' := done.out
          rw [done.op, show (undoRun c'').out = c''.out from rfl, packed, List.take_left]

/-! ## And back -/

/-- The bytes of tokens that stand for a text are decompressed to it in memory. -/
lemma decompress_tokens (stands : StandsFor tokens text) (room : Bytes)
    (fits : text.length ≤ room.length) :
    lzfDecompress (encodeAll tokens) room = some ⟨text.length, none, filled room text⟩ := by
  obtain ⟨left, eq, agrees⟩ := decompress_agrees (encodeAll tokens) room
  rw [eq, agrees.accepted text (lzfLoop_eq_some.mpr ⟨tokens, rfl, stands, fits⟩)]

/-- The parser of RDB files decompresses them too, when the lengths have 32 bits. -/
lemma lzfDecompress_tokens (stands : StandsFor tokens text) (nonempty : text ≠ [])
    (small : text.length < 2 ^ 32) (packed : (encodeAll tokens).length < 2 ^ 32) :
    RedisNif.lzfDecompress (encodeAll tokens) text.length = .ok text := by
  have loop : lzfLoop text.length (encodeAll tokens).length (encodeAll tokens) [] = some text :=
    lzfLoop_eq_some.mpr ⟨tokens, rfl, stands, Nat.le_refl _⟩
  rw [RedisNif.lzfDecompress, if_neg (by rw [isizeMax]; omega), Nat.mod_eq_of_lt small,
    Nat.mod_eq_of_lt packed, List.take_length]
  simp only [loop]
  rw [if_neg (fun nowhere => nonempty (List.length_eq_zero_iff.mp nowhere)), if_neg (by simp)]

/-- A single byte is compared with the one behind it. -/
lemma lzfCompress_single {inData : UInt64} (htab : UInt32 → UInt64) (out : Bytes)
    (one : input.length = 1) :
    lzfCompress input inData htab out = if out = [] then some (0, out) else none := by
  rw [lzfCompress]
  split
  · rename_i isEmpty
    rw [if_pos (List.length_eq_zero_iff.mp (isEmpty.resolve_left (by omega)))]
  · rename_i full
    rw [if_neg (fun nowhere => full (.inr (List.length_eq_zero_iff.mpr nowhere))),
      List.getElem?_eq_getElem (show 0 < input.length by omega),
      List.getElem?_eq_none (show input.length ≤ 1 by omega)]
    rfl

/-- Whatever the hash table holds, the compressor accesses nothing outside of its buffers, unless
the input is a single byte: then it reads the one behind. What it writes is decompressed to the
input, in memory and by the parser of RDB files, and it writes something where the input and one
byte for every 32 have room. -/
theorem lzf_roundTrip (input out : Bytes) (inData : UInt64) (htab : UInt32 → UInt64)
    (page : 2 ^ 13 ≤ inData.toNat) (layout : inData.toNat + input.length ≤ 2 ^ 64) :
    (lzfCompress input inData htab out = none ↔ input.length = 1 ∧ out ≠ []) ∧
      ∀ n packed, lzfCompress input inData htab out = some (n, packed) →
        packed.length = out.length ∧ n ≤ out.length ∧
        (2 ≤ input.length → input.length + input.length / 32 + 4 ≤ out.length → n ≠ 0) ∧
        (n ≠ 0 →
          (∀ room : Bytes, input.length ≤ room.length →
            lzfDecompress (packed.take n) room = some ⟨input.length, none, filled room input⟩) ∧
          (n < 2 ^ 32 → input.length < 2 ^ 32 →
            RedisNif.lzfDecompress (packed.take n) input.length = .ok input)) := by
  by_cases two : 2 ≤ input.length
  · obtain ⟨n, packed, eq, same, fits, writes, stands⟩ := lzfCompress_eq htab out page layout two
    rw [eq]
    refine ⟨iff_of_false (by simp) (by omega), ?_⟩
    intro n' packed' eq'
    cases eq'
    refine ⟨same, fits, fun _ => writes, ?_⟩
    intro filled'
    obtain ⟨tokens, encoded, stands⟩ := stands filled'
    rw [← encoded]
    refine ⟨decompress_tokens stands, ?_⟩
    intro small small'
    apply lzfDecompress_tokens stands _ small' _
    · intro nowhere
      rw [nowhere] at two
      cases two
    · rwa [encoded, List.length_take_of_le (by omega)]
  · rcases Nat.lt_or_ge 0 input.length with one | nowhere'
    · rw [lzfCompress_single htab out (by omega)]
      by_cases isEmpty : out = []
      · rw [if_pos isEmpty]
        refine ⟨iff_of_false (by simp) (by simp [isEmpty]), ?_⟩
        intro n packed eq
        cases eq
        exact ⟨rfl, Nat.zero_le _, fun more => absurd more two, fun given => absurd rfl given⟩
      · rw [if_neg isEmpty]
        refine ⟨iff_of_true rfl ⟨by omega, isEmpty⟩, ?_⟩
        intro n packed eq
        cases eq
    · have eq : lzfCompress input inData htab out = some (0, out) :=
        if_pos (.inl (Nat.le_zero.mp nowhere'))
      rw [eq]
      refine ⟨iff_of_false (by simp) (by omega), ?_⟩
      intro n packed eq
      cases eq
      exact ⟨rfl, Nat.zero_le _, fun more => absurd more two, fun holds => absurd rfl holds⟩

/-- Ten times the same letter: a run of two, a back reference of six, and the last two. -/
theorem lzf_roundTrip_letters :
    lzfCompress (List.replicate 10 97) 0x10000 (fun _ => 0) (List.replicate 16 0) =
        some (8, [1, 97, 97, 0x80, 0, 1, 97, 97] ++ List.replicate 8 0) ∧
      RedisNif.lzfDecompress [1, 97, 97, 0x80, 0, 1, 97, 97] 10 = .ok (List.replicate 10 97) := by
  have packed : lzfCompress (List.replicate 10 97) 0x10000 (fun _ => 0) (List.replicate 16 0) =
      some (8, [1, 97, 97, 0x80, 0, 1, 97, 97] ++ List.replicate 8 0) := by decide +kernel
  have spec := lzf_roundTrip (List.replicate 10 97) (List.replicate 16 0) 0x10000
    (fun _ => 0) (by decide) (by decide)
  exact ⟨packed, ((spec.2 _ _ packed).2.2.2 (by decide)).2 (by decide) (by decide)⟩

end

end Veidrodelis.RedisNif.Lzf.C
