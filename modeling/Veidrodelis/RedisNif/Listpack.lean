import Veidrodelis.RedisNif.Buffer

/-!
# Encoded containers

`parse_intset`, `calculate_backlen_size`, `parse_listpack` and `parse_listpack_entry` of `rdb.rs`:
the containers that the RDB format stores inside one string. They work on a buffer of their own, so
a short buffer is an error, not a request for more.

Every read is one of `Cut`, which panics outside of the buffer. The lemmas behind each function say
what is read where the function's own checks of the length have passed.
-/

namespace Veidrodelis.RedisNif

/-! ## Intsets -/

/-- The loop of `parse_intset`. -/
def intsetEntries (encoding : Nat) : Nat → Cut (List Int)
  | 0 => return []
  | n + 1 =>
    if encoding = 2 ∨ encoding = 4 ∨ encoding = 8 then do
      Cut.ensure encoding "intset_entry_too_short"
      let v ← Cut.getIntLe encoding
      let integers ← intsetEntries encoding n
      return v :: integers
    else Cut.fail "unknown_intset_encoding"

/-- `parse_intset`. -/
def parseIntset (data : Bytes) : Except Fault (List Int) :=
  if data.length < 8 then .error (.err "intset_too_small")
  else do
    let (encoding, buf) ← Cut.getUIntLe 4 data
    let (length, buf) ← Cut.getUIntLe 4 buf
    let (integers, _) ← intsetEntries encoding length buf
    return integers

/-- The next entry of an intset, and the others. -/
lemma intsetEntries_succ {encoding n : Nat} (known : encoding = 2 ∨ encoding = 4 ∨ encoding = 8)
    (buf : Bytes) :
    intsetEntries encoding (n + 1) buf
      = if buf.length < encoding then .error (.err "intset_entry_too_short")
        else (intsetEntries encoding n (buf.drop encoding)).map fun p =>
          (Bytes.signed encoding (Bytes.leNat (buf.take encoding)) :: p.1, p.2) := by
  rw [intsetEntries, if_pos known, Cut.ensure_bind]
  by_cases short : buf.length < encoding
  · rw [if_pos short, if_pos short]
  · rw [if_neg short, if_neg short, Cut.bind_ok (Cut.getIntLe_of_le (not_lt.mp short))]
    cases later : intsetEntries encoding n (buf.drop encoding) with
    | error f => exact Cut.bind_error later
    | ok p => exact Cut.bind_ok later

/-- An intset is its header and as many entries as that counts; no access is out of bounds. -/
lemma parseIntset_eq (data : Bytes) :
    parseIntset data
      = if data.length < 8 then .error (.err "intset_too_small")
        else (intsetEntries (Bytes.leNat (data.take 4))
          (Bytes.leNat ((data.drop 4).take 4)) (data.drop 8)).map
          Prod.fst := by
  rw [parseIntset]
  by_cases short : data.length < 8
  · rw [if_pos short, if_pos short]
  · have first : 4 ≤ data.length := by omega
    have second : 4 ≤ (data.drop 4).length := by
      rw [List.length_drop]
      omega
    rw [if_neg short, if_neg short, Cut.getUIntLe_of_le first]
    show (Cut.getUIntLe 4 (data.drop 4) >>= _) = _
    rw [Cut.getUIntLe_of_le second, List.drop_drop]
    show (intsetEntries _ _ (data.drop 8) >>= _) = _
    cases intsetEntries (Bytes.leNat (data.take 4)) (Bytes.leNat ((data.drop 4).take 4))
      (data.drop 8) <;> rfl

/-! ## Entries of listpacks -/

/-- `calculate_backlen_size`. -/
def calculateBacklenSize (entrySize : Nat) : Nat :=
  if entrySize ≤ 127 then 1
  else if entrySize ≤ 16383 then 2
  else if entrySize ≤ 2097151 then 3
  else if entrySize ≤ 268435455 then 4
  else 5

/-- A string entry: `len` bytes of data and `backlen` bytes to skip. -/
def listpackString (len backlen : Nat) : Cut Bytes := do
  let size ← Cut.add len backlen
  Cut.ensure size "listpack_entry_string_too_short"
  let data ← Cut.splitTo len
  Cut.advance backlen
  return data

/-- An integer entry of `width` bytes and one byte of back-length. -/
def listpackInt (width : Nat) : Cut Bytes := do
  Cut.ensure (width + 1) "listpack_entry_int_too_short"
  let val ← Cut.getIntLe width
  Cut.advance 1
  return Bytes.intText val

/-- A 7-bit unsigned integer, all of it in the first byte. -/
def listpackSeven (enc : UInt8) : Cut Bytes := do
  Cut.ensure 1 "listpack_entry_no_backlen"
  Cut.advance 1
  return Bytes.natText (enc &&& 0x7F).toNat

/-- A 13-bit signed integer: five bits of the first byte and the next one. -/
def listpackThirteen (enc : UInt8) : Cut Bytes := do
  Cut.ensure 2 "listpack_entry_int_too_short"
  let nextByte ← Cut.front
  Cut.advance 1
  let val : Int := (enc &&& 0x1F).toNat * 256 + nextByte.toNat
  Cut.advance 1
  return Bytes.intText (if 4096 ≤ val then val - 8192 else val)

/-- A string with a length of 16 bits. -/
def listpackSixteen : Cut Bytes := do
  Cut.ensure 2 "listpack_entry_string_too_short"
  let len ← Cut.getUInt 2
  let size ← Cut.add 3 len
  listpackString len (calculateBacklenSize size)

/-- A string with a length of 12 bits. -/
def listpackTwelve (enc : UInt8) : Cut Bytes := do
  Cut.ensure 1 "listpack_entry_string_too_short"
  let nextByte ← Cut.front
  Cut.advance 1
  let len := (enc &&& 0x0F).toNat * 256 + nextByte.toNat
  let size ← Cut.add 2 len
  listpackString len (calculateBacklenSize size)

/-- A string with a length of 32 bits. -/
def listpackThirtyTwo : Cut Bytes := do
  Cut.ensure 4 "listpack_entry_string_too_short"
  let len ← Cut.getUIntLe 4
  let size ← Cut.add 5 len
  listpackString len (calculateBacklenSize size)

/-- A 24-bit signed integer, byte by byte. -/
def listpackInt24 : Cut Bytes := do
  Cut.ensure 4 "listpack_entry_int_too_short"
  let low ← Cut.getUIntLe 1
  let mid ← Cut.getUIntLe 1
  let high ← Cut.getIntLe 1
  Cut.advance 1
  return Bytes.intText (low + mid * 256 + high * 65536)

/-- `parse_listpack_entry`. -/
def parseListpackEntry : Cut Bytes := do
  Cut.ensure 1 "listpack_entry_empty"
  let enc ← Cut.front
  Cut.advance 1
  if enc &&& 0x80 = 0 then listpackSeven enc
  else if enc &&& 0xC0 = 0x80 then listpackString (enc &&& 0x3F).toNat 1
  else if enc &&& 0xF0 = 0xC0 then listpackThirteen enc
  else if enc &&& 0xF0 = 0xD0 then listpackSixteen
  else if enc &&& 0xF0 = 0xE0 then listpackTwelve enc
  else if enc = 0xF0 then listpackThirtyTwo
  else if enc = 0xF1 then listpackInt 2
  else if enc = 0xF2 then listpackInt24
  else if enc = 0xF3 then listpackInt 4
  else if enc = 0xF4 then listpackInt 8
  else Cut.fail "unknown_listpack_encoding"

/-! ### What an entry reads -/

/-- The size in front of the check is far below the 64-bit range: `len` has at most 32 bits. -/
lemma listpackString_eq {len backlen : Nat} (fits : len + backlen < usizeSize) (buf : Bytes) :
    listpackString len backlen buf
      = if buf.length < len + backlen then .error (.err "listpack_entry_string_too_short")
        else .ok (buf.take len, (buf.drop len).drop backlen) := by
  rw [listpackString, Cut.bind_ok (Cut.add_of_lt fits buf), Cut.ensure_bind]
  by_cases short : buf.length < len + backlen
  · rw [if_pos short, if_pos short]
  · have behind : backlen ≤ (buf.drop len).length := by
      rw [List.length_drop]
      omega
    rw [if_neg short, if_neg short, Cut.bind_ok (Cut.splitTo_of_le (by omega)),
      Cut.bind_ok (Cut.advance_of_le behind), Cut.pure_apply]

/-- A string that is read was there. -/
lemma listpackString_ok {len backlen : Nat} {buf text rest : Bytes}
    (h : listpackString len backlen buf = .ok (text, rest)) :
    len + backlen ≤ buf.length ∧ text = buf.take len ∧ rest = (buf.drop len).drop backlen := by
  by_cases fits : len + backlen < usizeSize
  · rw [listpackString_eq fits] at h
    split at h
    · cases h
    · cases h
      exact ⟨by omega, rfl, rfl⟩
  · have overflow : Cut.add len backlen buf = .error (.panic "attempt to add with overflow") :=
      if_neg fits
    rw [listpackString, Cut.bind_error overflow] at h
    cases h

/-- An integer is read, and one byte behind it is dropped as its back-length. -/
lemma listpackInt_eq (width : Nat) (buf : Bytes) :
    listpackInt width buf
      = if buf.length < width + 1 then .error (.err "listpack_entry_int_too_short")
        else .ok (Bytes.intText (Bytes.signed width (Bytes.leNat (buf.take width))),
        buf.drop (width + 1)) := by
  rw [listpackInt, Cut.ensure_bind]
  by_cases short : buf.length < width + 1
  · rw [if_pos short, if_pos short]
  · have behind : 1 ≤ (buf.drop width).length := by
      rw [List.length_drop]
      omega
    rw [if_neg short, if_neg short, Cut.bind_ok (Cut.getIntLe_of_le (by omega)),
      Cut.bind_ok (Cut.advance_of_le behind), Cut.pure_apply, List.drop_drop]

/-- The three bytes of a 24-bit integer are one number in two's complement. -/
lemma listpackInt24_eq (buf : Bytes) : listpackInt24 buf = listpackInt 3 buf := by
  rw [listpackInt24, listpackInt_eq, Cut.ensure_bind]
  match buf with
  | [] => rfl
  | [_] => rfl
  | [_, _] => rfl
  | [_, _, _] => rfl
  | low :: mid :: high :: backlen :: rest =>
    have long : ¬ (low :: mid :: high :: backlen :: rest).length < 4 := by
      simp only [List.length_cons]
      omega
    have one (b : UInt8) (bs : Bytes) : 1 ≤ (b :: bs).length := by
      rw [List.length_cons]
      omega
    rw [if_neg long, if_neg long, Cut.bind_ok (Cut.getUIntLe_of_le (one _ _)), List.drop_succ_cons,
      List.drop_zero, Cut.bind_ok (Cut.getUIntLe_of_le (one _ _)), List.drop_succ_cons,
      List.drop_zero, Cut.bind_ok (Cut.getIntLe_of_le (one _ _)), List.drop_succ_cons,
      List.drop_zero, Cut.bind_ok (Cut.advance_of_le (one _ _)), Cut.pure_apply]
    have three := Bytes.signed_three low mid high
    simp only [List.take_succ_cons, List.take_zero, List.drop_succ_cons, List.drop_zero, three]
    simp only [Bytes.leNat, Nat.mul_zero, Nat.add_zero]

/-- The integer of 7 bits is in the encoding byte. -/
lemma listpackSeven_eq (enc : UInt8) (buf : Bytes) :
    listpackSeven enc buf
      = if buf = [] then .error (.err "listpack_entry_no_backlen")
        else .ok (Bytes.natText (enc &&& 0x7F).toNat, buf.drop 1) := by
  cases buf with
  | nil => rfl
  | cons backlen rest => rfl

/-- The integer of 13 bits has one byte more, and its sign bit. -/
lemma listpackThirteen_eq (enc : UInt8) (buf : Bytes) :
    listpackThirteen enc buf
      = match buf with
        | next :: _ :: rest =>
          let val : Int := (enc &&& 0x1F).toNat * 256 + next.toNat
          .ok (Bytes.intText (if 4096 ≤ val then val - 8192 else val), rest)
        | _ => .error (.err "listpack_entry_int_too_short") := by
  match buf with
  | [] => rfl
  | [_] => rfl
  | next :: backlen :: rest => rfl

/-- A length that the header of an entry holds leaves room for the size of the header. -/
lemma add_small {n len : Nat} (header : n ≤ 5) (h : len < 256 ^ 4) : n + len < usizeSize := by
  have large : 256 ^ 4 + 5 < usizeSize := by decide
  omega

/-- A string with a length of 16 bits. -/
lemma listpackSixteen_eq (buf : Bytes) :
    listpackSixteen buf
      = if buf.length < 2 then .error (.err "listpack_entry_string_too_short")
        else
          let len := Bytes.beNat (buf.take 2)
          listpackString len (calculateBacklenSize (3 + len)) (buf.drop 2) := by
  rw [listpackSixteen, Cut.ensure_bind]
  by_cases short : buf.length < 2
  · rw [if_pos short, if_pos short]
  · have small : Bytes.beNat (buf.take 2) < 256 ^ 4 := by
      have lt := Bytes.beNat_lt (buf.take 2)
      rw [List.length_take_of_le (not_lt.mp short)] at lt
      omega
    rw [if_neg short, if_neg short, Cut.bind_ok (Cut.getUInt_of_le (not_lt.mp short)),
      Cut.bind_ok (Cut.add_of_lt (add_small (by decide) small) _)]

/-- A string with a length of 12 bits. -/
lemma listpackTwelve_eq (enc : UInt8) (buf : Bytes) :
    listpackTwelve enc buf
      = match buf with
        | [] => .error (.err "listpack_entry_string_too_short")
        | next :: rest =>
          let len := (enc &&& 0x0F).toNat * 256 + next.toNat
          listpackString len (calculateBacklenSize (2 + len)) rest := by
  cases buf with
  | nil => rfl
  | cons next rest =>
    have one : ¬ (next :: rest).length < 1 := by
      rw [List.length_cons]
      omega
    have small : (enc &&& 0x0F).toNat * 256 + next.toNat < 256 ^ 4 := by
      have high := (enc &&& 0x0F).toNat_lt
      have low := next.toNat_lt
      omega
    rw [listpackTwelve, Cut.ensure_bind, if_neg one, Cut.bind_ok (Cut.front_cons next rest),
      Cut.bind_ok (Cut.advance_of_le (not_lt.mp one)), List.drop_succ_cons, List.drop_zero]
    exact Cut.bind_ok (Cut.add_of_lt (add_small (by decide) small) _)

/-- A string with a length of 32 bits. -/
lemma listpackThirtyTwo_eq (buf : Bytes) :
    listpackThirtyTwo buf
      = if buf.length < 4 then .error (.err "listpack_entry_string_too_short")
        else
          let len := Bytes.leNat (buf.take 4)
          listpackString len (calculateBacklenSize (5 + len)) (buf.drop 4) := by
  rw [listpackThirtyTwo, Cut.ensure_bind]
  by_cases short : buf.length < 4
  · rw [if_pos short, if_pos short]
  · have small : Bytes.leNat (buf.take 4) < 256 ^ 4 := by
      have lt := Bytes.leNat_lt (buf.take 4)
      rwa [List.length_take_of_le (not_lt.mp short)] at lt
    rw [if_neg short, if_neg short, Cut.bind_ok (Cut.getUIntLe_of_le (not_lt.mp short)),
      Cut.bind_ok (Cut.add_of_lt (add_small (by decide) small) _)]

/-- What follows the first byte of an entry, encoding by encoding. -/
lemma parseListpackEntry_cons (enc : UInt8) (buf : Bytes) :
    parseListpackEntry (enc :: buf)
      = if enc &&& 0x80 = 0 then listpackSeven enc buf
        else if enc &&& 0xC0 = 0x80 then listpackString (enc &&& 0x3F).toNat 1 buf
        else if enc &&& 0xF0 = 0xC0 then listpackThirteen enc buf
        else if enc &&& 0xF0 = 0xD0 then listpackSixteen buf
        else if enc &&& 0xF0 = 0xE0 then listpackTwelve enc buf
        else if enc = 0xF0 then listpackThirtyTwo buf
        else if enc = 0xF1 then listpackInt 2 buf
        else if enc = 0xF2 then listpackInt 3 buf
        else if enc = 0xF3 then listpackInt 4 buf
        else if enc = 0xF4 then listpackInt 8 buf
        else .error (.err "unknown_listpack_encoding") := by
  have one : ¬ (enc :: buf).length < 1 := by
    rw [List.length_cons]
    omega
  rw [parseListpackEntry, Cut.ensure_bind, if_neg one, Cut.bind_ok (Cut.front_cons enc buf),
    Cut.bind_ok (Cut.advance_of_le (not_lt.mp one)), List.drop_succ_cons, List.drop_zero,
    ← listpackInt24_eq]
  simp only [apply_ite (fun m : Cut Bytes => m buf)]
  rfl

/-! ## Listpacks -/

/-- The loop of `parse_listpack`: it stops early at the end of the buffer or at the end marker. -/
def listpackEntries : Nat → Bytes → Except Fault (List Bytes)
  | 0, _ => .ok []
  | n + 1, buf =>
    if buf.length = 0 then .ok []
    else do
      let first ← index buf 0
      if first = 0xFF then return []
      else do
        let (entry, buf) ← parseListpackEntry buf
        let entries ← listpackEntries n buf
        return entry :: entries

/-- `parse_listpack`. -/
def parseListpack (data : Bytes) : Except Fault (List Bytes) :=
  if data.length < 6 then .error (.err "listpack_too_small")
  else do
    let (_, buf) ← Cut.getUIntLe 4 data
    let (numEntries, buf) ← Cut.getUIntLe 2 buf
    listpackEntries numEntries buf

/-- The next entry of a listpack, and the others, up to the end byte. -/
lemma listpackEntries_cons (n : Nat) (b : UInt8) (buf : Bytes) :
    listpackEntries (n + 1) (b :: buf)
      = if b = 0xFF then .ok []
        else do
          let (entry, rest) ← parseListpackEntry (b :: buf)
          let entries ← listpackEntries n rest
          return entry :: entries := rfl

/-- A listpack is its header and at most as many entries as that counts. -/
lemma parseListpack_eq (data : Bytes) :
    parseListpack data
      = if data.length < 6 then .error (.err "listpack_too_small")
        else listpackEntries (Bytes.leNat ((data.drop 4).take 2)) (data.drop 6) := by
  rw [parseListpack]
  by_cases short : data.length < 6
  · rw [if_pos short, if_pos short]
  · have second : 2 ≤ (data.drop 4).length := by
      rw [List.length_drop]
      omega
    rw [if_neg short, if_neg short, Cut.getUIntLe_of_le (show 4 ≤ data.length by omega)]
    show (Cut.getUIntLe 2 (data.drop 4) >>= _) = _
    rw [Cut.getUIntLe_of_le second, List.drop_drop]
    rfl

end Veidrodelis.RedisNif
