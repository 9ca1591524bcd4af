import Veidrodelis.Lib.Memory
import Veidrodelis.RedisNif.LzfFormat

/-!
# LZF compression

`lzf_compress` of `c_src/lzf_c.c`, as it is configured in `c_src/lzfP.h`: 16 bits of hash, two
positions hashed behind a match, a table of pointers that is not initialized. Pointers into the
buffers are positions; those in the table are addresses, for they may be anything at first. An
access outside of a buffer is `none`.

Whatever the table holds, a match is tested octet by octet before it is used, so the result does not
depend on the hashes; `matchLength_eq` says what a match is.
-/

namespace Veidrodelis.RedisNif.Lzf.C
open Lz77 Memory

/-! ## Hashes -/

/-- `FRST`. -/
def frst (p0 p1 : UInt8) : UInt32 := p0.toUInt32 <<< 8 ||| p1.toUInt32

/-- `NEXT`. -/
def next (v : UInt32) (p2 : UInt8) : UInt32 := v <<< 8 ||| p2.toUInt32

/-- `IDX`. -/
def idx (h : UInt32) : UInt32 := ((h >>> 8) - h * 5) &&& 0xffff

/-! ## State -/

/-- The variables of `lzf_compress`: the pointers, the length of the literal run, the hash, the
table of addresses, and the output buffer. -/
structure Packer where
  ip : Nat
  op : Nat
  lit : Nat
  hval : UInt32
  htab : UInt32 → UInt64
  out : Bytes

/-- `*op++ = b`. -/
def emit (b : UInt8) (c : Packer) : Option Packer :=
  (store c.out c.op b).map fun out => { c with out, op := c.op + 1 }

/-- `op[-lit - 1] = lit - 1`. -/
def stopRun (c : Packer) : Option Packer :=
  if c.lit + 1 ≤ c.op then
    (store c.out (c.op - (c.lit + 1)) (UInt8.ofNat c.lit - 1)).map fun out => { c with out }
  else none

/-- `op -= !lit`. -/
def undoRun (c : Packer) : Packer := { c with op := c.op - if c.lit = 0 then 1 else 0 }

/-- `lit = 0; op++`. -/
def startRun (c : Packer) : Packer := { c with lit := 0, op := c.op + 1 }

/-- `lit++; *op++ = *ip++`, and a run that is full is stopped. -/
def literal (input : Bytes) (c : Packer) : Option Packer := do
  let b ← input[c.ip]?
  let c ← emit b { c with lit := c.lit + 1, ip := c.ip + 1 }
  if c.lit = 32 then (stopRun c).map startRun else some c

/-- `hval = NEXT(hval, ip)`, and the slot of the hash takes the position; what it had before is
returned. -/
def rehash (input : Bytes) (inData : UInt64) (c : Packer) : Option (UInt64 × Packer) := do
  let p2 ← input[c.ip + 2]?
  let hval := next c.hval p2
  return (c.htab (idx hval), { c with
    hval
    htab := fun slot => if slot = idx hval then inData + UInt64.ofNat c.ip else c.htab slot })

/-! ## Matches -/

/-- `off`. -/
def offset (inData ref : UInt64) (ip : Nat) : UInt64 := inData + UInt64.ofNat ip - ref - 1

/-- The test for a match of three octets. -/
def isMatch (input : Bytes) (inData ref : UInt64) (ip : Nat) : Option Bool :=
  if offset inData ref ip < 8192 ∧ inData < ref then do
    let ref := (ref - inData).toNat
    if (← input[ref + 2]?) = (← input[ip + 2]?) then
      return ((← input[ref]?), (← input[ref + 1]?)) = ((← input[ip]?), (← input[ip + 1]?))
    else return false
  else return false

/-- `len++; if (ref[len] != ip[len]) break;`, so many times: the length, and whether nothing
differed. -/
def unrolled (input : Bytes) (ref ip : Nat) : Nat → Nat → Option (Nat × Bool)
  | 0, len => some (len, true)
  | n + 1, len => do
    if (← input[ref + (len + 1)]?) = (← input[ip + (len + 1)]?) then
      unrolled input ref ip n (len + 1)
    else return (len + 1, false)

/-- `do len++; while (len < maxlen && ref[len] == ip[len]);`. -/
def stretch (input : Bytes) (ref ip maxlen : Nat) : Nat → Nat → Option Nat
  | 0, len => some len
  | fuel + 1, len =>
    if len + 1 < maxlen then do
      if (← input[ref + (len + 1)]?) = (← input[ip + (len + 1)]?) then
        stretch input ref ip maxlen fuel (len + 1)
      else return len + 1
    else some (len + 1)

/-- The number of octets that agree, from 3 to `MAX_REF`. -/
def matchLength (input : Bytes) (ref ip : Nat) : Option Nat :=
  let maxlen := input.length - ip - 2
  let maxlen := if 264 < maxlen then 264 else maxlen
  if 16 < maxlen then do
    let (len, equal) ← unrolled input ref ip 16 2
    if equal then stretch input ref ip maxlen maxlen len else return len
  else stretch input ref ip maxlen maxlen 2

/-- The bytes of a back reference to so many octets. -/
def emitReference (off : UInt64) (octets : Nat) (c : Packer) : Option Packer :=
  let len := octets - 2
  if len < 7 then do
    let c ← emit ((off >>> 8) + UInt64.ofNat (len <<< 5)).toUInt8 c
    emit off.toUInt8 c
  else do
    let c ← emit ((off >>> 8) + UInt64.ofNat (7 <<< 5)).toUInt8 c
    let c ← emit (UInt8.ofNat (len - 7)) c
    emit off.toUInt8 c

/-- Behind a match, its last two positions are hashed. -/
def hashBehind (input : Bytes) (inData : UInt64) (c : Packer) : Option Packer := do
  let c := { c with ip := c.ip - 2 }
  let c := { c with hval := frst (← input[c.ip]?) (← input[c.ip + 1]?) }
  let (_, c) ← rehash input inData c
  let (_, c) ← rehash input inData { c with ip := c.ip + 1 }
  return { c with ip := c.ip + 1 }

/-! ## The loop -/

/-- How a round of the loop ends. -/
inductive Round where
  | continue (c : Packer)
  | break (c : Packer)
  /-- `return 0`. -/
  | full (c : Packer)

/-- The rounds that find a match. -/
def packMatch (input : Bytes) (inData : UInt64) (ref : UInt64) (c : Packer) : Option Round :=
  -- the faster conservative test, and the exact but rare one
  if c.out.length ≤ c.op + 4 ∧ c.out.length ≤ (undoRun c).op + 4 then some (.full c)
  else do
    let c := undoRun (← stopRun c)
    let octets ← matchLength input (ref - inData).toNat c.ip
    let c ← emitReference (offset inData ref c.ip) octets c
    let c := startRun { c with ip := c.ip + octets }
    if input.length ≤ c.ip + 2 then return .break c
    else return .continue (← hashBehind input inData c)

/-- One round of the loop. -/
def packStep (input : Bytes) (inData : UInt64) (c : Packer) : Option Round := do
  let (ref, c) ← rehash input inData c
  if ← isMatch input inData ref c.ip then packMatch input inData ref c
  else if c.out.length ≤ c.op then return .full c
  else return .continue (← literal input c)

/-- The loop; each round reads something. It is left in the end, or there is no room. -/
def packLoop (input : Bytes) (inData : UInt64) : Nat → Packer → Option (Except Packer Packer)
  | 0, c => some (.ok c)
  | fuel + 1, c =>
    if c.ip + 2 < input.length then do
      match ← packStep input inData c with
      | .continue c => packLoop input inData fuel c
      | .break c => return .ok c
      | .full c => return .error c
    else some (.ok c)

/-- The last loop, over what is left of the input. -/
def packRest (input : Bytes) : Nat → Packer → Option Packer
  | 0, c => some c
  | fuel + 1, c =>
    if c.ip < input.length then do packRest input fuel (← literal input c) else some c

/-- `lzf_compress`: the number that it returns, and the output buffer. -/
def lzfCompress (input : Bytes) (inData : UInt64) (htab : UInt32 → UInt64) (out : Bytes) :
    Option (Nat × Bytes) :=
  if input.length = 0 ∨ out.length = 0 then some (0, out)
  else do
    let hval := frst (← input[0]?) (← input[1]?)
    match ← packLoop input inData input.length (startRun ⟨0, 0, 0, hval, htab, out⟩) with
    | .error c => return (0, c.out)
    | .ok c =>
      if c.out.length < c.op + 3 then return (0, c.out)
      else
        let c ← packRest input input.length c
        let c := undoRun (← stopRun c)
        return (c.op, c.out)

/-! ## What a match is -/

section
variable {input : Bytes} {inData ref : UInt64} {r ip len n maxlen fuel : Nat}

/-- A pointer that passes the test points into the part of the input that was read. -/
lemma ref_of_near (page : 2 ^ 13 ≤ inData.toNat) (fits : inData.toNat + ip < 2 ^ 64)
    (near : offset inData ref ip < 8192) (behind : inData < ref) :
    (offset inData ref ip).toNat < 2 ^ 13 ∧ (offset inData ref ip).toNat + 1 < ip ∧
      (ref - inData).toNat = ip - ((offset inData ref ip).toNat + 1) := by
  have small : (offset inData ref ip).toNat < 2 ^ 13 := UInt64.lt_iff_toNat_lt.mp near
  have later : inData.toNat < ref.toNat := UInt64.lt_iff_toNat_lt.mp behind
  have bound := ref.toNat_lt
  have position : (UInt64.ofNat ip).toNat = ip := by
    rw [UInt64.toNat_ofNat', Nat.mod_eq_of_lt (by omega)]
  have here : (inData + UInt64.ofNat ip).toNat = inData.toNat + ip := by
    rw [UInt64.toNat_add, position, Nat.mod_eq_of_lt fits]
  have off : (offset inData ref ip).toNat =
      (2 ^ 64 - 1 + (2 ^ 64 - ref.toNat + (inData.toNat + ip)) % 2 ^ 64) % 2 ^ 64 := by
    rw [offset, UInt64.toNat_sub, UInt64.toNat_sub, here]
    rfl
  have back : (ref - inData).toNat = ref.toNat - inData.toNat := by
    rw [UInt64.toNat_sub]
    omega
  refine ⟨small, ?_, ?_⟩
  · omega
  · omega

/-- The octets from the two positions on agree. -/
def Agree (input : Bytes) (r ip n : Nat) : Prop := ∀ i < n, input[r + i]? = input[ip + i]?

/-- An agreement goes on with two octets that are the same. -/
lemma Agree.succ (agree : Agree input r ip n) (same : input[r + n]? = input[ip + n]?) :
    Agree input r ip (n + 1) := by
  intro i inside
  rcases Nat.lt_succ_iff_lt_or_eq.mp inside with before | rfl
  · exact agree i before
  · exact same

/-- The test reads nothing outside of the input, and finds three octets that agree. -/
lemma isMatch_eq (page : 2 ^ 13 ≤ inData.toNat) (fits : inData.toNat + input.length ≤ 2 ^ 64)
    (inside : ip + 2 < input.length) :
    ∃ found, isMatch input inData ref ip = some found ∧
      (found = true → (offset inData ref ip).toNat < 2 ^ 13 ∧
      (offset inData ref ip).toNat + 1 < ip ∧
        (ref - inData).toNat = ip - ((offset inData ref ip).toNat + 1) ∧
        Agree input (ref - inData).toNat ip 3) := by
  rw [isMatch]
  by_cases near : offset inData ref ip < 8192 ∧ inData < ref
  · obtain ⟨small, within, there⟩ := ref_of_near page (by omega) near.1 near.2
    simp only [if_pos near]
    generalize (ref - inData).toNat = r at there ⊢
    have r0 := List.getElem?_eq_getElem (show r < input.length by omega)
    have r1 := List.getElem?_eq_getElem (show r + 1 < input.length by omega)
    have r2 := List.getElem?_eq_getElem (show r + 2 < input.length by omega)
    have i0 := List.getElem?_eq_getElem (show ip < input.length by omega)
    have i1 := List.getElem?_eq_getElem (show ip + 1 < input.length by omega)
    have i2 := List.getElem?_eq_getElem inside
    simp only [r0, r1, r2, i0, i1, i2, Option.bind_eq_bind, Option.bind_some, Option.pure_def]
    split
    · rename_i third
      refine ⟨_, rfl, ?_⟩
      intro found
      obtain ⟨first, second⟩ := Prod.mk.inj (of_decide_eq_true found)
      refine ⟨small, within, there, ?_⟩
      intro i three
      interval_cases i
      · rw [Nat.add_zero, Nat.add_zero, r0, i0, first]
      · rw [r1, i1, second]
      · rw [r2, i2, third]
    · refine ⟨false, rfl, ?_⟩
      intro found
      cases found
  · rw [if_neg near]
    refine ⟨false, rfl, ?_⟩
    intro found
    cases found

/-- The steps that are written out: how far they come, and what they found equal. -/
lemma unrolled_eq (back : r ≤ ip) (room : ip + len + n < input.length)
    (agree : Agree input r ip (len + 1)) :
    ∃ len' equal, unrolled input r ip n len = some (len', equal) ∧ len ≤ len' ∧ len' ≤ len + n ∧
      Agree input r ip len' ∧
      (n ≠ 0 → len < len') ∧ (equal = true → len' = len + n ∧ Agree input r ip (len' + 1)) := by
  induction n generalizing len with
  | zero =>
    exact ⟨len, true, rfl, Nat.le_refl _, Nat.le_refl _,
      fun i inside => agree i (by omega), by simp,
      fun _ => ⟨rfl, agree⟩⟩
  | succ n ih =>
    rw [unrolled, List.getElem?_eq_getElem (show r + (len + 1) < input.length by omega),
      List.getElem?_eq_getElem (show ip + (len + 1) < input.length by omega)]
    simp only [Option.bind_eq_bind, Option.bind_some, Option.pure_def]
    split
    · rename_i same
      have further : Agree input r ip (len + 1 + 1) := by
        apply agree.succ
        rw [List.getElem?_eq_getElem (show r + (len + 1) < input.length by omega),
          List.getElem?_eq_getElem (show ip + (len + 1) < input.length by omega), same]
      obtain ⟨len', equal, eq, low, high, agree', -, all⟩ := ih (by omega) further
      refine ⟨len', equal, eq, by omega, by omega, agree', fun _ => by omega, ?_⟩
      intro yes
      obtain ⟨rfl, agree'⟩ := all yes
      exact ⟨by omega, agree'⟩
    · refine ⟨len + 1, false, rfl, by omega, by omega, agree, fun _ => by omega, ?_⟩
      intro yes
      cases yes

/-- The loop that ends a match. -/
lemma stretch_eq (back : r ≤ ip) (room : ip + len < input.length)
    (limit : ip + maxlen ≤ input.length) (agree : Agree input r ip (len + 1)) :
    ∃ len', stretch input r ip maxlen fuel len = some len' ∧ len ≤ len' ∧ (fuel ≠ 0 → len < len') ∧
      len' ≤ max (len + 1) maxlen ∧ Agree input r ip len' := by
  induction fuel generalizing len with
  | zero =>
    exact ⟨len, rfl, Nat.le_refl _, by simp, by omega, fun i inside => agree i (by omega)⟩
  | succ fuel ih =>
    rw [stretch]
    split
    · rename_i more
      rw [List.getElem?_eq_getElem (show r + (len + 1) < input.length by omega),
        List.getElem?_eq_getElem (show ip + (len + 1) < input.length by omega)]
      simp only [Option.bind_eq_bind, Option.bind_some, Option.pure_def]
      split
      · rename_i same
        have further : Agree input r ip (len + 1 + 1) := by
          apply agree.succ
          rw [List.getElem?_eq_getElem (show r + (len + 1) < input.length by omega),
            List.getElem?_eq_getElem (show ip + (len + 1) < input.length by omega), same]
        obtain ⟨len', eq, low, -, high, agree'⟩ := ih (by omega) further
        exact ⟨len', eq, by omega, fun _ => by omega, by omega, agree'⟩
      · exact ⟨len + 1, rfl, by omega, fun _ => by omega, by omega, agree⟩
    · exact ⟨len + 1, rfl, by omega, fun _ => by omega, by omega, agree⟩

/-- What is found is a match of allowed length inside of the input. -/
lemma matchLength_eq (back : r ≤ ip) (inside : ip + 2 < input.length) (agree : Agree input r ip 3) :
    ∃ octets, matchLength input r ip = some octets ∧ 3 ≤ octets ∧ octets ≤ 264 ∧
      ip + octets ≤ input.length ∧ Agree input r ip octets := by
  rw [matchLength]
  generalize max : (if 264 < input.length - ip - 2 then 264 else input.length - ip - 2) = maxlen
  have bounds : 0 < maxlen ∧ maxlen ≤ 264 ∧ ip + maxlen + 2 ≤ input.length := by
    split at max <;> omega
  obtain ⟨filled, short, limit⟩ := bounds
  dsimp only
  split
  · -- the steps that are written out stay inside the input, for there are more than 18 octets
    obtain ⟨len, equal, eq, -, high, agree', moved, all⟩ :=
      @unrolled_eq input r ip 2 16 back (by omega) agree
    have low : 2 < len := moved (by omega)
    rw [eq]
    simp only [Option.bind_eq_bind, Option.bind_some, Option.pure_def]
    cases equal with
    | false => exact ⟨len, rfl, low, by omega, by omega, agree'⟩
    | true =>
      obtain ⟨rfl, agree'⟩ := all rfl
      obtain ⟨len', eq', -, further, high', agree''⟩ :=
        @stretch_eq input r ip 18 maxlen maxlen back (by omega) (by omega) agree'
      have low' := further (by omega)
      rw [if_pos rfl]
      exact ⟨len', eq', by omega, by omega, by omega, agree''⟩
  · obtain ⟨len', eq', -, further, high', agree'⟩ :=
      @stretch_eq input r ip 2 maxlen maxlen back (by omega) (by omega) agree
    have low' := further (by omega)
    exact ⟨len', eq', by omega, by omega, by omega, agree'⟩

end

end Veidrodelis.RedisNif.Lzf.C
