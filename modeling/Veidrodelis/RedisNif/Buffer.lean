import Veidrodelis.Lib.Bytes
import Veidrodelis.Lib.Reader

/-!
# Buffers of the redis NIF

What both parsers of `native/vdr_redis_nif/src` share: the two ways a call can fail, checked `usize`
arithmetic, the `bytes::Buf` operations on the unread input, slices, and `RawCommand`. Every
operation that panics outside of its buffer has that panic as an outcome.

A `usize` has 64 bits. An addition of sizes read from the input is checked (`usizeAdd`); positions
inside a buffer are below its length and are plain natural numbers.
-/

namespace Veidrodelis.RedisNif
open Incremental

/-- How a call of the NIF ends early: an `Err` with its text, or a panic. -/
inductive Fault where
  | err (msg : String)
  | panic (msg : String)
  deriving DecidableEq, Repr

def Fault.IsPanic : Fault → Prop
  | .panic _ => True
  | .err _ => False

/-- A command of the RDB snapshot or of the command stream (`struct RawCommand`). -/
structure RawCommand where
  db : Nat
  name : Bytes
  args : List Bytes
  deriving DecidableEq, Repr

abbrev Load := Reader UInt8 Fault

def usizeSize : Nat := 2 ^ 64

/-- `isize::MAX`, the largest capacity of a `Vec`. -/
def isizeMax : Nat := 2 ^ 63 - 1

def usizeAdd (a b : Nat) : Outcome Fault Nat :=
  if a + b < usizeSize then .done (a + b)
  else .fault (.panic "attempt to add with overflow")

/-- A sum that is made is the sum. -/
lemma usizeAdd_done {a b n : Nat} (h : usizeAdd a b = .done n) : n = a + b := by
  unfold usizeAdd at h
  split at h
  · exact (Outcome.done.inj h).symm
  · cases h

/-- A sum below `2 ^ 64` is made. -/
lemma usizeAdd_of_lt {a b : Nat} (h : a + b < usizeSize) : usizeAdd a b = .done (a + b) := by
  rw [usizeAdd, if_pos h]

/-- A subtraction of two `usize`. -/
def usizeSub (a b : Nat) : Except Fault Nat :=
  if b ≤ a then .ok (a - b) else .error (.panic "attempt to subtract with overflow")

/-- A difference that is not negative is made. -/
lemma usizeSub_of_le {a b : Nat} (h : b ≤ a) : usizeSub a b = .ok (a - b) := if_pos h

/-- An addition never waits for input. -/
lemma usizeAdd_ne_need (a b : Nat) : usizeAdd a b ≠ .need := by
  unfold usizeAdd
  split <;> nofun

/-- `str::parse::<usize>` on bytes that `str::from_utf8` accepts; other bytes are no number. -/
def parseUsize (bs : Bytes) : Option Nat := Bytes.parseUnsigned usizeSize bs

/-- `str::parse::<u32>`. -/
def parseU32 (bs : Bytes) : Option Nat := Bytes.parseUnsigned (2 ^ 32) bs

/-! ## Reading a buffer -/

/-- `buf[i]`. -/
def index (buf : Bytes) (i : Nat) : Except Fault UInt8 :=
  match buf.drop i with
  | [] => .error (.panic "index out of bounds")
  | b :: _ => .ok b

/-- `&buf[start..stop]`. -/
def slice (buf : Bytes) (start stop : Nat) : Except Fault Bytes :=
  if start ≤ stop ∧ stop ≤ buf.length then .ok ((buf.drop start).take (stop - start))
  else .error (.panic "range out of bounds for slice")

/-- An index at which something stands. -/
lemma index_of_drop {buf tail : Bytes} {i : Nat} {b : UInt8} (h : buf.drop i = b :: tail) :
    index buf i = .ok b := by
  rw [index, h]

/-- A slice inside its buffer. -/
lemma slice_of_le {buf : Bytes} {start stop : Nat} (order : start ≤ stop)
    (inside : stop ≤ buf.length) :
    slice buf start stop = .ok ((buf.drop start).take (stop - start)) :=
  if_pos ⟨order, inside⟩

/-- An index inside its buffer. -/
lemma index_of_lt {buf : Bytes} {i : Nat} (h : i < buf.length) : index buf i = .ok buf[i] := by
  rw [index, List.drop_eq_getElem_cons h]

/-- `Buf::advance`. -/
def advance (n : Nat) : Load Unit := fun buf =>
  if n ≤ buf.length then .done () (buf.drop n)
  else .fault (.panic "cannot advance past `remaining`")

/-- `BytesMut::split_to`. -/
def splitTo (n : Nat) : Load Bytes := fun buf =>
  if n ≤ buf.length then .done (buf.take n) (buf.drop n)
  else .fault (.panic "split_to out of bounds")

/-- `advance` within the buffer drops the bytes. -/
lemma advance_of_le {n : Nat} {buf : Bytes} (h : n ≤ buf.length) :
    advance n buf = .done () (buf.drop n) := if_pos h

/-- `split_to` within the buffer takes the bytes off. -/
lemma splitTo_of_le {n : Nat} {buf : Bytes} (h : n ≤ buf.length) :
    splitTo n buf = .done (buf.take n) (buf.drop n) := if_pos h

/-- `Buf::get_uN_le` of `width` bytes. -/
def getUIntLe (width : Nat) : Load Nat := do
  let bytes ← splitTo width
  return Bytes.leNat bytes

/-- `Buf::get_iN_le` of `width` bytes (`get_i8` is the width 1). -/
def getIntLe (width : Nat) : Load Int := do
  let bytes ← splitTo width
  return Bytes.signed width (Bytes.leNat bytes)

/-- `buf[i]` and `&buf[start..stop]` of the buffer that is read, which do not consume. -/
def byteAt (i : Nat) : Load UInt8 := Reader.peek fun buf => .lift (index buf i)

def bytesAt (start stop : Nat) : Load Bytes := Reader.peek fun buf => .lift (slice buf start stop)

/-- `Option::unwrap` on the result of a reader. -/
def unwrap {α : Type} (m : Load α) : Load α := fun buf =>
  match m buf with
  | .need _ => .fault (.panic "called `Option::unwrap()` on a `None` value")
  | r => r

/-- Look at a size computation that does not read the buffer. -/
def checked {α : Type} (o : Outcome Fault α) : Load α := Reader.peek fun _ => o

/-- What stands at an offset stands there in a longer buffer, with more behind it. -/
lemma drop_append_of_cons {b x tail : Bytes} {offset : Nat} {first : UInt8}
    (h : b.drop offset = first :: tail) : (b ++ x).drop offset = first :: (tail ++ x) := by
  have le : offset ≤ b.length := by
    by_contra lt
    rw [List.drop_eq_nil_of_le (by omega)] at h
    cases h
  rw [List.drop_append_of_le_length le, h, List.cons_append]

/-- Bytes inside the buffer are the same in a longer one. -/
lemma take_drop_append {b x : Bytes} {i n : Nat} (h : i + n ≤ b.length) :
    ((b ++ x).drop i).take n = (b.drop i).take n := by
  rw [List.drop_append_of_le_length (by omega),
    List.take_append_of_le_length (by simp only [List.length_drop]; omega)]

/-! ## Buffers of their own -/

/-- A computation on a buffer of its own: no more input will come, so a short buffer is an error. -/
abbrev Cut := StateT Bytes (Except Fault)

namespace Cut
variable {α β : Type}

/-- An `Err`. -/
def fail (msg : String) : Cut α := fun _ => .error (.err msg)

/-- The error `msg` unless `n` bytes are left. -/
def ensure (n : Nat) (msg : String) : Cut Unit := fun buf =>
  if buf.length < n then .error (.err msg) else .ok ((), buf)

/-- `buf[0]`. -/
def front : Cut UInt8 := fun buf =>
  match index buf 0 with
  | .ok b => .ok (b, buf)
  | .error f => .error f

/-- `Buf::advance`. -/
def advance (n : Nat) : Cut Unit := fun buf =>
  if n ≤ buf.length then .ok ((), buf.drop n)
  else .error (.panic "cannot advance past `remaining`")

/-- `BytesMut::split_to`. -/
def splitTo (n : Nat) : Cut Bytes := fun buf =>
  if n ≤ buf.length then .ok (buf.take n, buf.drop n)
  else .error (.panic "split_to out of bounds")

/-- `Buf::get_uN_le` of `width` bytes (`get_u8` is the width 1). -/
def getUIntLe (width : Nat) : Cut Nat := do
  let bytes ← splitTo width
  return Bytes.leNat bytes

/-- `Buf::get_uN` of `width` bytes. -/
def getUInt (width : Nat) : Cut Nat := do
  let bytes ← splitTo width
  return Bytes.beNat bytes

/-- `Buf::get_iN_le` of `width` bytes (`get_i8` is the width 1). -/
def getIntLe (width : Nat) : Cut Int := do
  let bytes ← splitTo width
  return Bytes.signed width (Bytes.leNat bytes)

/-- An addition of two `usize`. -/
def add (a b : Nat) : Cut Nat := fun buf =>
  if a + b < usizeSize then .ok (a + b, buf)
  else .error (.panic "attempt to add with overflow")

/-- A sequence whose first cut is made goes on with the rest. -/
lemma bind_ok {m : Cut α} {k : α → Cut β} {buf rest : Bytes} {a : α} (h : m buf = .ok (a, rest)) :
    (m >>= k) buf = k a rest := by
  show (m buf >>= fun p => k p.1 p.2) = _
  rw [h]
  rfl

/-- A sequence whose first cut fails fails. -/
lemma bind_error {m : Cut α} {k : α → Cut β} {buf : Bytes} {f : Fault} (h : m buf = .error f) :
    (m >>= k) buf = .error f := by
  show (m buf >>= fun p => k p.1 p.2) = _
  rw [h]
  rfl

/-- A value cuts nothing off. -/
lemma pure_apply (a : α) (buf : Bytes) : (pure a : Cut α) buf = .ok (a, buf) := rfl

/-- What follows a check of the length. -/
lemma ensure_bind (n : Nat) (msg : String) (k : Unit → Cut β) (buf : Bytes) :
    (ensure n msg >>= k) buf = if buf.length < n then .error (.err msg) else k () buf := by
  by_cases short : buf.length < n
  · rw [if_pos short]
    exact bind_error (if_pos short)
  · rw [if_neg short]
    exact bind_ok (if_neg short)

/-- The first byte of a buffer that has one. -/
lemma front_cons (b : UInt8) (buf : Bytes) : front (b :: buf) = .ok (b, b :: buf) := rfl

/-- `advance` within the buffer drops the bytes. -/
lemma advance_of_le {n : Nat} {buf : Bytes} (h : n ≤ buf.length) :
    advance n buf = .ok ((), buf.drop n) := if_pos h

/-- `split_to` within the buffer takes the bytes off. -/
lemma splitTo_of_le {n : Nat} {buf : Bytes} (h : n ≤ buf.length) :
    splitTo n buf = .ok (buf.take n, buf.drop n) := if_pos h

/-- A little-endian number that is there is read. -/
lemma getUIntLe_of_le {width : Nat} {buf : Bytes} (h : width ≤ buf.length) :
    getUIntLe width buf = .ok (Bytes.leNat (buf.take width), buf.drop width) :=
  bind_ok (splitTo_of_le h)

/-- A big-endian number that is there is read. -/
lemma getUInt_of_le {width : Nat} {buf : Bytes} (h : width ≤ buf.length) :
    getUInt width buf = .ok (Bytes.beNat (buf.take width), buf.drop width) :=
  bind_ok (splitTo_of_le h)

/-- A signed little-endian number that is there is read. -/
lemma getIntLe_of_le {width : Nat} {buf : Bytes} (h : width ≤ buf.length) :
    getIntLe width buf = .ok (Bytes.signed width (Bytes.leNat (buf.take width)), buf.drop width) :=
  bind_ok (splitTo_of_le h)

/-- A sum below `2 ^ 64` is made. -/
lemma add_of_lt {a b : Nat} (h : a + b < usizeSize) (buf : Bytes) :
    add a b buf = .ok (a + b, buf) := if_pos h

end Cut

/-- `find_crlf`: the position of the first CR LF. -/
def findCrlf : Bytes → Option Nat
  | 13 :: 10 :: _ => some 0
  | [] => none
  | _ :: rest => (findCrlf rest).map (· + 1)

/-- The loop that skips CR and LF in front of the buffer. -/
def skipNewlines : Bytes → Bytes
  | [] => []
  | b :: rest => if b = 10 ∨ b = 13 then skipNewlines rest else b :: rest

def skipLines : Load Unit := fun buf => .done () (skipNewlines buf)

end Veidrodelis.RedisNif
