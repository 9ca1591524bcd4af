import Veidrodelis.RedisNif.Listpack

/-!
# The listpack format

Listpacks as data. An entry is an integer or a string in one of the encodings of the format, and
behind every entry stands its back-length; an element has the entry that is the shortest for it.
`parseListpackEntry_entry` says what `parse_listpack_entry` makes of an entry, whatever stands
behind it, `listpackEntries_entries_iff` when the loop of `parse_listpack` reads all entries back,
with any count, and `parseListpack_encode_iff` when `parse_listpack` does so with the listpack of
some elements.

Two kinds of entries are not read as they are meant. The first byte of a negative 13-bit integer is
taken for that of a 16-bit string (`parseListpackEntry_misread`), and a string whose entry is
exactly at a bound of the back-length has one byte of it left over, which is taken for the end of
the listpack.
-/

namespace Veidrodelis.RedisNif.ListpackFormat
open Bytes (FitsSigned)

/-! ## Elements -/

/-- The back-length of an entry of `l` bytes, as `lpEncodeBacklen` writes it. -/
def encodeBacklen (l : Nat) : Bytes :=
  if l ≤ 127 then [UInt8.ofNat l]
  else if l < 16383 then [UInt8.ofNat (l / 128), UInt8.ofNat (128 + l % 128)]
  else if l < 2097151 then
    [UInt8.ofNat (l / 128 ^ 2), UInt8.ofNat (128 + l / 128 % 128), UInt8.ofNat (128 + l % 128)]
  else if l < 268435455 then
    [UInt8.ofNat (l / 128 ^ 3), UInt8.ofNat (128 + l / 128 ^ 2 % 128),
      UInt8.ofNat (128 + l / 128 % 128),
      UInt8.ofNat (128 + l % 128)]
  else
    [UInt8.ofNat (l / 128 ^ 4), UInt8.ofNat (128 + l / 128 ^ 3 % 128),
      UInt8.ofNat (128 + l / 128 ^ 2 % 128),
      UInt8.ofNat (128 + l / 128 % 128), UInt8.ofNat (128 + l % 128)]

/-- The header of a string of `n` bytes: 6, 12 or 32 bits hold its length. -/
def stringHeader (n : Nat) : Bytes :=
  if n < 64 then [UInt8.ofNat (0x80 + n)]
  else if n < 4096 then [UInt8.ofNat (0xE0 + n / 256), UInt8.ofNat (n % 256)]
  else 0xF0 :: Bytes.leBytes 4 n

/-- The 13-bit integers. -/
def FitsShort (v : Int) : Prop := -4096 ≤ v ∧ v ≤ 4095

instance (v : Int) : Decidable (FitsShort v) := inferInstanceAs (Decidable (_ ∧ _))

/-- An integer in its shortest encoding: 7 bits without a sign, 13 bits, or 2, 3, 4 or 8 bytes. -/
def encodeInt (v : Int) : Bytes :=
  if 0 ≤ v ∧ v ≤ 127 then [UInt8.ofNat v.toNat]
  else if FitsShort v then [UInt8.ofNat (0xC0 + (v % 8192).toNat / 256),
    UInt8.ofNat ((v % 8192).toNat % 256)]
  else if FitsSigned 2 v then 0xF1 :: Bytes.leBytes 2 (Bytes.unsigned 2 v)
  else if FitsSigned 3 v then 0xF2 :: Bytes.leBytes 3 (Bytes.unsigned 3 v)
  else if FitsSigned 4 v then 0xF3 :: Bytes.leBytes 4 (Bytes.unsigned 4 v)
  else 0xF4 :: Bytes.leBytes 8 (Bytes.unsigned 8 v)

/-- An element of a listpack. -/
inductive Element where
  | int (value : Int) (fits : FitsSigned 8 value)
  | string (bytes : Bytes) (short : bytes.length < 2 ^ 32)

/-- The header and the data of an element. -/
def Element.body : Element → Bytes
  | .int value _ => encodeInt value
  | .string bytes _ => stringHeader bytes.length ++ bytes

/-- The element in a listpack, with its back-length. -/
def Element.encode (e : Element) : Bytes := e.body ++ encodeBacklen e.body.length

/-- What the element is: integers are printed in decimal. -/
def Element.text : Element → Bytes
  | .int value _ => Bytes.intText value
  | .string bytes _ => bytes

/-- A listpack: its total size, the number of its elements as far as 16 bits hold it, the elements
and the end marker. -/
def encodeListpack (elements : List Element) : Bytes :=
  Bytes.leBytes 4 (7 + (elements.flatMap (·.encode)).length) ++
    (Bytes.leBytes 2 (min elements.length 65535) ++ (elements.flatMap (·.encode) ++ [0xFF]))

/-- A negative integer of 13 bits. -/
def Element.IsNegative : Element → Prop
  | .int value _ => -4096 ≤ value ∧ value < 0
  | .string .. => False

/-- The entry is of a size at which `lpEncodeBacklen` takes one more byte. -/
def AtBound (size : Nat) : Prop := size = 16383 ∨ size = 2097151 ∨ size = 268435455

instance (size : Nat) : Decidable (AtBound size) := inferInstanceAs (Decidable (_ ∨ _))

instance (e : Element) : Decidable e.IsNegative :=
  match e with
  | .int value _ => inferInstanceAs (Decidable (-4096 ≤ value ∧ value < 0))
  | .string .. => inferInstanceAs (Decidable False)

/-! ## Entries -/

/-- The sizes of the integers that stand in bytes of their own. -/
inductive IntWidth where
  | two | three | four | eight

def IntWidth.size : IntWidth → Nat
  | .two => 2
  | .three => 3
  | .four => 4
  | .eight => 8

def IntWidth.code : IntWidth → UInt8
  | .two => 0xF1
  | .three => 0xF2
  | .four => 0xF3
  | .eight => 0xF4

/-- An entry of a listpack, in any of the encodings that the format has for its value. -/
inductive Entry where
  | int7 (value : Nat) (fits : value < 128)
  | int13 (value : Int) (fits : FitsShort value)
  | int (width : IntWidth) (value : Int) (fits : FitsSigned width.size value)
  | string6 (bytes : Bytes) (fits : bytes.length < 64)
  | string12 (bytes : Bytes) (fits : bytes.length < 4096)
  | string32 (bytes : Bytes) (fits : bytes.length < 2 ^ 32)

/-- The header and the data of an entry. -/
def Entry.body : Entry → Bytes
  | .int7 value _ => [UInt8.ofNat value]
  | .int13 value _ =>
    [UInt8.ofNat (0xC0 + (value % 8192).toNat / 256), UInt8.ofNat ((value % 8192).toNat % 256)]
  | .int width value _ => width.code :: Bytes.leBytes width.size (Bytes.unsigned width.size value)
  | .string6 bytes _ => UInt8.ofNat (0x80 + bytes.length) :: bytes
  | .string12 bytes _ =>
    UInt8.ofNat (0xE0 + bytes.length / 256) :: UInt8.ofNat (bytes.length % 256) :: bytes
  | .string32 bytes _ => 0xF0 :: (Bytes.leBytes 4 bytes.length ++ bytes)

/-- The entry in a listpack, with its back-length. -/
def Entry.encode (e : Entry) : Bytes := e.body ++ encodeBacklen e.body.length

/-- What the entry is. -/
def Entry.text : Entry → Bytes
  | .int7 value _ => Bytes.natText value
  | .int13 value _ => Bytes.intText value
  | .int _ value _ => Bytes.intText value
  | .string6 bytes _ => bytes
  | .string12 bytes _ => bytes
  | .string32 bytes _ => bytes

/-- A negative integer that is encoded in 13 bits. -/
def Entry.IsNegative : Entry → Prop
  | .int13 value _ => value < 0
  | _ => False

/-- The entry of an element: the shortest one. -/
def Element.entry : Element → Entry
  | .int value fits =>
    if seven : 0 ≤ value ∧ value ≤ 127 then .int7 value.toNat (by omega)
    else if short : FitsShort value then .int13 value short
    else if two : FitsSigned 2 value then .int .two value two
    else if three : FitsSigned 3 value then .int .three value three
    else if four : FitsSigned 4 value then .int .four value four
    else .int .eight value fits
  | .string bytes short =>
    if six : bytes.length < 64 then .string6 bytes six
    else if twelve : bytes.length < 4096 then .string12 bytes twelve
    else .string32 bytes short

/-! ## Listpacks as data -/

/-- A well-formed listpack. The count of its header is the number of its entries or `0xFFFF`, which
says that the number is not known; from 65535 entries on it can only be `0xFFFF`. -/
structure Listpack where
  entries : List Entry
  count : Nat
  counted : count = 0xFFFF ∨ count < 0xFFFF ∧ count = entries.length
  fits : 7 + (entries.flatMap (·.encode)).length < 2 ^ 32

/-- The entries and the end marker. -/
def Listpack.content (l : Listpack) : Bytes := l.entries.flatMap (·.encode) ++ [0xFF]

/-- The listpack: its total size, its count, the entries and the end marker. -/
def Listpack.bytes (l : Listpack) : Bytes :=
  Bytes.leBytes 4 (7 + (l.entries.flatMap (·.encode)).length) ++
    (Bytes.leBytes 2 l.count ++ l.content)

def Listpack.texts (l : Listpack) : List Bytes := l.entries.map (·.text)

/-! ## Back-lengths -/

/-- A back-length takes one byte more than the parser skips just at the bounds. -/
lemma length_encodeBacklen (l : Nat) :
    (encodeBacklen l).length =
    if AtBound l then calculateBacklenSize l + 1 else calculateBacklenSize l := by
  unfold encodeBacklen calculateBacklenSize AtBound
  split_ifs <;> simp only [List.length_cons, List.length_nil] <;> omega

/-- The last byte of a back-length that the parser leaves over. -/
lemma encodeBacklen_atBound {l : Nat} (h : AtBound l) :
    ∃ front, encodeBacklen l = front ++ [0xFF] ∧ front.length = calculateBacklenSize l := by
  rcases h with rfl | rfl | rfl
  · exact ⟨[0, 0xFF], by decide, rfl⟩
  · exact ⟨[0, 0xFF, 0xFF], by decide, rfl⟩
  · exact ⟨[0, 0xFF, 0xFF, 0xFF], by decide, rfl⟩

/-- What the parser leaves of a back-length. -/
def leftover (l : Nat) : Bytes := if AtBound l then [0xFF] else []

/-- What the parser leaves of a back-length in front of the next entry. -/
lemma drop_backlen (l : Nat) (rest : Bytes) :
    (encodeBacklen l ++ rest).drop (calculateBacklenSize l) = leftover l ++ rest := by
  unfold leftover
  split
  · rename_i at_bound
    obtain ⟨front, eq, size⟩ := encodeBacklen_atBound at_bound
    rw [eq, ← size, List.append_assoc, List.drop_left]
  · rename_i inside
    have size := length_encodeBacklen l
    rw [if_neg inside] at size
    rw [← size, List.drop_left, List.nil_append]

/-- The parser skips at most five bytes as a back-length. -/
lemma calculateBacklenSize_le_five (l : Nat) : calculateBacklenSize l ≤ 5 := by
  unfold calculateBacklenSize
  split_ifs <;> omega

/-- The parser skips no more than the back-length. -/
lemma calculateBacklenSize_le (l : Nat) : calculateBacklenSize l ≤ (encodeBacklen l).length := by
  rw [length_encodeBacklen]
  split <;> omega

/-! ## Codes -/

/-- The data of a string and its back-length. -/
lemma listpackString_encode (bytes rest : Bytes) (size : Nat) (small : bytes.length < 2 ^ 32) :
    listpackString bytes.length (calculateBacklenSize size) (bytes ++ (encodeBacklen size ++ rest))
      = .ok (bytes, leftover size ++ rest) := by
  have fits : bytes.length + calculateBacklenSize size < usizeSize := by
    have five := calculateBacklenSize_le_five size
    have large : 2 ^ 32 + 5 < usizeSize := by decide
    omega
  have long : ¬ (bytes ++ (encodeBacklen size ++ rest)).length <
    bytes.length + calculateBacklenSize size := by
    have le := calculateBacklenSize_le size
    simp only [List.length_append]
    omega
  rw [listpackString_eq fits, if_neg long, List.take_left, List.drop_left, drop_backlen]

/-- A number below 256 is the value of its byte. -/
lemma toNat_ofNat_byte {n : Nat} (h : n < 256) : (UInt8.ofNat n).toNat = n :=
  UInt8.toNat_ofNat_of_lt (by simpa only [UInt8.size] using h)

/-- The encoding byte of a short string leads to its branch. -/
lemma entry_six {n : Nat} (h : n < 64) (buf : Bytes) :
    parseListpackEntry (UInt8.ofNat (0x80 + n) :: buf) = listpackString n 1 buf := by
  have enc : (UInt8.ofNat (0x80 + n) &&& 0x80 = 0) = False ∧
    (UInt8.ofNat (0x80 + n) &&& 0xC0 = 0x80) = True ∧
      (UInt8.ofNat (0x80 + n) &&& 0x3F).toNat = n := by
    interval_cases n <;> decide
  simp only [parseListpackEntry_cons, enc.1, enc.2.1, enc.2.2, if_true, if_false]

/-- The encoding byte of a string below 4096 bytes leads to its branch. -/
lemma entry_twelve {k : Nat} (h : k < 16) (next : UInt8) (buf : Bytes) :
    parseListpackEntry (UInt8.ofNat (0xE0 + k) :: next :: buf) =
      listpackString (k * 256 + next.toNat)
      (calculateBacklenSize (2 + (k * 256 + next.toNat))) buf := by
  have enc : (UInt8.ofNat (0xE0 + k) &&& 0x80 = 0) = False ∧
    (UInt8.ofNat (0xE0 + k) &&& 0xC0 = 0x80) = False ∧
      (UInt8.ofNat (0xE0 + k) &&& 0xF0 = 0xC0) = False ∧
      (UInt8.ofNat (0xE0 + k) &&& 0xF0 = 0xD0) = False ∧
      (UInt8.ofNat (0xE0 + k) &&& 0xF0 = 0xE0) = True ∧
        (UInt8.ofNat (0xE0 + k) &&& 0x0F).toNat = k := by
    interval_cases k <;> decide
  obtain ⟨plain, six, thirteen, sixteen, twelve, low⟩ := enc
  simp only [parseListpackEntry_cons, plain, six, thirteen, sixteen, twelve, listpackTwelve_eq, low,
    if_true, if_false]

/-- The codes from `0xF0` on. -/
lemma entry_code : ∀ code ∈ [(0xF0 : UInt8), 0xF1, 0xF2, 0xF3, 0xF4],
    (code &&& 0x80 = 0) = False ∧ (code &&& 0xC0 = 0x80) = False ∧ (code &&& 0xF0 = 0xC0) = False ∧
      (code &&& 0xF0 = 0xD0) = False ∧ (code &&& 0xF0 = 0xE0) = False := by
  decide +kernel

/-- The encoding byte of a long string leads to its branch. -/
lemma entry_thirtyTwo {n : Nat} (h : n < 2 ^ 32) (buf : Bytes) :
    parseListpackEntry (0xF0 :: (Bytes.leBytes 4 n ++ buf))
      = listpackString n (calculateBacklenSize (5 + n)) buf := by
  obtain ⟨plain, six, thirteen, sixteen, twelve⟩ := entry_code 0xF0 (by decide)
  have long : ¬ (Bytes.leBytes 4 n ++ buf).length < 4 := by
    simp only [List.length_append, Bytes.length_leBytes]
    omega
  have front : (Bytes.leBytes 4 n ++ buf).take 4 = Bytes.leBytes 4 n :=
    List.take_left' (Bytes.length_leBytes _ _)
  have behind : (Bytes.leBytes 4 n ++ buf).drop 4 = buf :=
    List.drop_left' (Bytes.length_leBytes _ _)
  simp only [parseListpackEntry_cons, plain, six, thirteen, sixteen, twelve, listpackThirtyTwo_eq,
    long, front, behind, Bytes.leNat_leBytes (show n < 256 ^ 4 from h), if_true, if_false]

/-- The encoding byte of a small integer leads to its branch. -/
lemma entry_seven {n : Nat} (h : n < 128) (next : UInt8) (buf : Bytes) :
    parseListpackEntry (UInt8.ofNat n :: next :: buf) = .ok (Bytes.natText n, buf) := by
  have enc : (UInt8.ofNat n &&& 0x80 = 0) = True ∧ (UInt8.ofNat n &&& 0x7F).toNat = n := by
    interval_cases n <;> decide
  simp only [parseListpackEntry_cons, enc.1, enc.2, listpackSeven_eq, if_true, List.cons_ne_nil,
    if_false, List.drop_succ_cons, List.drop_zero]

/-- The encoding bytes of an integer of 13 bits that is not negative lead to its branch. -/
lemma entry_thirteen {k : Nat} (h : k < 16) (next backlen : UInt8) (buf : Bytes) :
    parseListpackEntry (UInt8.ofNat (0xC0 + k) :: next :: backlen :: buf)
      = .ok (Bytes.intText (k * 256 + next.toNat : Nat), buf) := by
  have enc : (UInt8.ofNat (0xC0 + k) &&& 0x80 = 0) = False ∧
    (UInt8.ofNat (0xC0 + k) &&& 0xC0 = 0x80) = False ∧
      (UInt8.ofNat (0xC0 + k) &&& 0xF0 = 0xC0) = True ∧
      (UInt8.ofNat (0xC0 + k) &&& 0x1F).toNat = k := by
    interval_cases k <;> decide
  obtain ⟨plain, six, thirteen, low⟩ := enc
  have positive : ¬ (4096 : Int) ≤ (k : Int) * 256 + next.toNat := by
    have := next.toNat_lt
    omega
  simp only [parseListpackEntry_cons, plain, six, thirteen, listpackThirteen_eq, low, positive,
    if_true, if_false]
  push_cast
  rfl

/-- The first byte of a negative 13-bit integer is one of a 16-bit string. -/
lemma entry_sixteen {k : Nat} (h : k < 16) (high low : UInt8) (buf : Bytes) :
    parseListpackEntry (UInt8.ofNat (0xD0 + k) :: high :: low :: buf)
      = listpackString (high.toNat * 256 + low.toNat)
          (calculateBacklenSize (3 + (high.toNat * 256 + low.toNat))) buf := by
  have enc : (UInt8.ofNat (0xD0 + k) &&& 0x80 = 0) = False ∧
    (UInt8.ofNat (0xD0 + k) &&& 0xC0 = 0x80) = False ∧
      (UInt8.ofNat (0xD0 + k) &&& 0xF0 = 0xC0) = False ∧
      (UInt8.ofNat (0xD0 + k) &&& 0xF0 = 0xD0) = True := by
    interval_cases k <;> decide
  obtain ⟨plain, six, thirteen, sixteen⟩ := enc
  have long : ¬ (high :: low :: buf).length < 2 := by
    simp only [List.length_cons]
    omega
  have len : Bytes.beNat [high, low] = high.toNat * 256 + low.toNat := by
    simp only [Bytes.beNat, Bytes.leNat, List.reverse_cons, List.reverse_nil, List.nil_append,
      List.cons_append]
    ring
  simp only [parseListpackEntry_cons, plain, six, thirteen, sixteen, listpackSixteen_eq, long,
    if_true, if_false, List.take_succ_cons, List.take_zero, len, List.drop_succ_cons,
    List.drop_zero]

/-- An integer of fixed width and its back-length of one byte. -/
lemma listpackInt_encode {width : Nat} {v : Int} (fits : FitsSigned width v) (backlen : UInt8)
    (rest : Bytes) :
    listpackInt width (Bytes.leBytes width (Bytes.unsigned width v) ++ backlen :: rest) =
      .ok (Bytes.intText v, rest) := by
  have long : ¬ (Bytes.leBytes width (Bytes.unsigned width v) ++ backlen :: rest).length <
    width + 1 := by
    simp only [List.length_append, Bytes.length_leBytes, List.length_cons]
    omega
  have front : (Bytes.leBytes width (Bytes.unsigned width v) ++ backlen :: rest).take width
      = Bytes.leBytes width (Bytes.unsigned width v) := List.take_left' (Bytes.length_leBytes _ _)
  have behind : (Bytes.leBytes width (Bytes.unsigned width v) ++ backlen :: rest).drop (width + 1) =
    rest := by
    rw [← List.drop_drop, List.drop_left' (Bytes.length_leBytes _ _), List.drop_succ_cons,
      List.drop_zero]
  rw [listpackInt_eq, if_neg long, front, behind, Bytes.leNat_leBytes (Bytes.unsigned_lt _ _),
    Bytes.signed_unsigned fits.1 fits.2]

/-- The codes of the wider integers lead to their branches. -/
lemma entry_wide (code : UInt8) (width : Nat) (buf : Bytes)
    (known : (code, width) ∈ [((0xF1 : UInt8), 2), (0xF2, 3), (0xF3, 4), (0xF4, 8)]) :
    parseListpackEntry (code :: buf) = listpackInt width buf := by
  have high : code ∈ [(0xF0 : UInt8), 0xF1, 0xF2, 0xF3, 0xF4] :=
    List.mem_cons_of_mem _ (List.mem_map_of_mem (f := Prod.fst) known)
  obtain ⟨plain, six, thirteen, sixteen, twelve⟩ := entry_code code high
  simp only [parseListpackEntry_cons, plain, six, thirteen, sixteen, twelve, if_false]
  simp only [List.mem_cons, Prod.mk.injEq, List.not_mem_nil, or_false] at known
  rcases known with ⟨rfl, rfl⟩ | ⟨rfl, rfl⟩ | ⟨rfl, rfl⟩ | ⟨rfl, rfl⟩ <;> rfl

/-- The 13 bits of an integer. -/
lemma short_bits {v : Int} (short : FitsShort v) :
    (v % 8192).toNat < 8192 ∧ (0 ≤ v → (v % 8192).toNat = v.toNat) ∧
      (v < 0 → ((v % 8192).toNat : Int) = v + 8192) := by
  unfold FitsShort at short
  omega

/-- A string that is read has the length of its header. -/
lemma listpackString_length {len backlen : Nat} {buf text rest : Bytes}
    (h : listpackString len backlen buf = .ok (text, rest)) : text.length = len := by
  obtain ⟨long, rfl, -⟩ := listpackString_ok h
  rw [List.length_take]
  omega

/-! ## Reading an entry -/

/-- The codes of the widths are known to the parser. -/
lemma IntWidth.known (width : IntWidth) :
    (width.code, width.size) ∈ [((0xF1 : UInt8), 2), (0xF2, 3), (0xF3, 4), (0xF4, 8)] := by
  cases width <;> decide

/-- An entry that is not a negative integer of 13 bits is read as what it is, whatever stands behind
it; at a bound of the back-length one byte of that is left over. -/
theorem parseListpackEntry_entry (e : Entry) (other : ¬ e.IsNegative) (rest : Bytes) :
    parseListpackEntry (e.encode ++ rest) = .ok (e.text, leftover e.body.length ++ rest) := by
  cases e with
  | int7 value fits => exact entry_seven fits 1 rest
  | int13 value fits =>
    have upper := fits.2
    have nonneg : 0 ≤ value := not_lt.mp other
    have bits := (short_bits fits).2.1 nonneg
    have entry :=
      entry_thirteen (k := value.toNat / 256) (by omega) (UInt8.ofNat (value.toNat % 256)) 2 rest
    have sum : ((value.toNat / 256 * 256 + (UInt8.ofNat (value.toNat % 256)).toNat : Nat) : Int) =
      value := by
      rw [toNat_ofNat_byte (by omega)]
      omega
    rw [sum, ← bits] at entry
    exact entry
  | int width value fits =>
    have read := listpackInt_encode fits (UInt8.ofNat (width.size + 1)) rest
    rw [← entry_wide width.code width.size _ width.known] at read
    have size : (Entry.int width value fits).body.length = width.size + 1 := by
      simp only [Entry.body, List.length_cons, Bytes.length_leBytes]
    have backlen : encodeBacklen (width.size + 1) = [UInt8.ofNat (width.size + 1)] ∧
        leftover (width.size + 1) = [] := by
      cases width <;> decide
    rw [Entry.encode, size, backlen.1, backlen.2, List.append_assoc]
    exact read
  | string6 bytes fits =>
    have read := listpackString_encode bytes rest (bytes.length + 1) (by omega)
    rw [show calculateBacklenSize (bytes.length + 1) =
      1 from if_pos (by omega), ← entry_six fits] at read
    simpa only [Entry.encode, Entry.body, Entry.text, List.length_cons, List.cons_append,
      List.append_assoc]
      using read
  | string12 bytes fits =>
    have read := listpackString_encode bytes rest (2 + bytes.length) (by omega)
    have sum : bytes.length / 256 * 256 + (UInt8.ofNat (bytes.length % 256)).toNat =
      bytes.length := by
      rw [toNat_ofNat_byte (by omega)]
      omega
    have entry :=
      entry_twelve (k := bytes.length / 256) (by omega) (UInt8.ofNat (bytes.length % 256))
      (bytes ++ (encodeBacklen (2 + bytes.length) ++ rest))
    rw [sum, read] at entry
    have size : (Entry.string12 bytes fits).body.length = 2 + bytes.length := by
      simp only [Entry.body, List.length_cons]
      omega
    rw [Entry.encode, size, List.append_assoc]
    exact entry
  | string32 bytes fits =>
    have read := listpackString_encode bytes rest (5 + bytes.length) fits
    rw [← entry_thirtyTwo fits] at read
    have size : (Entry.string32 bytes fits).body.length = 5 + bytes.length := by
      simp only [Entry.body, List.length_cons, List.length_append, Bytes.length_leBytes]
      omega
    rw [Entry.encode, size]
    simpa only [Entry.body, Entry.text, List.cons_append, List.append_assoc] using read

/-- A negative integer of 13 bits is read as a string of another length than its text has. -/
theorem parseListpackEntry_misread {e : Entry} (negative : e.IsNegative) (behind rest : Bytes) :
    parseListpackEntry (e.encode ++ behind) ≠ .ok (e.text, rest) := by
  cases e with
  | int13 v short =>
    have bits := (short_bits short).2.2 negative
    have lower := short.1
    generalize bitsOf : (v % 8192).toNat = u at bits
    have sixteen : 0xC0 + u / 256 = 0xD0 + (u / 256 - 16) := by omega
    have entry :=
      entry_sixteen (k := u / 256 - 16) (by omega) (UInt8.ofNat (u % 256)) (UInt8.ofNat 2) behind
    intro read
    simp only [Entry.encode, Entry.body, bitsOf, sixteen] at read
    have size := listpackString_length (entry.symm.trans read)
    -- the text of a number below ten thousand is too short for a length of more than one byte
    obtain ⟨n, rfl⟩ := Int.eq_negSucc_of_lt_zero negative
    rw [toNat_ofNat_byte (by omega), toNat_ofNat_byte (by decide), Entry.text, Bytes.intText,
      List.length_cons]
      at size
    have below : (Bytes.natText (n + 1)).length ≤ 4 :=
      (Bytes.length_natText_le_iff (by decide)).mpr (by omega)
    have one : (Bytes.natText (n + 1)).length ≤ 1 := by omega
    have digit := (Bytes.length_natText_le_iff (by decide)).mp one
    omega
  | _ => exact negative.elim

/-- No entry begins as the end marker does. -/
lemma Entry.encode_head (e : Entry) : ∃ b bs, e.encode = b :: bs ∧ b ≠ 0xFF := by
  have below {n : Nat} (h : n < 255) : UInt8.ofNat n ≠ 0xFF := by
    intro eq
    have := congrArg UInt8.toNat eq
    rw [toNat_ofNat_byte (by omega)] at this
    simp only [UInt8.reduceToNat] at this
    omega
  cases e with
  | int7 value fits => exact ⟨_, _, rfl, below (by omega)⟩
  | int13 value fits =>
    have := (short_bits fits).1
    exact ⟨_, _, rfl, below (by omega)⟩
  | int width value fits =>
    have code : width.code ≠ 0xFF := by cases width <;> decide
    exact ⟨_, _, rfl, code⟩
  | string6 bytes fits => exact ⟨_, _, rfl, below (by omega)⟩
  | string12 bytes fits => exact ⟨_, _, rfl, below (by omega)⟩
  | string32 bytes fits => exact ⟨_, _, rfl, by decide⟩

/-! ## Reading an element -/

/-- An element and its entry have the same body. -/
lemma Element.body_entry (e : Element) : e.entry.body = e.body := by
  cases e with
  | int value fits =>
    simp only [Element.entry, Element.body, encodeInt]
    split_ifs <;> rfl
  | string bytes short =>
    simp only [Element.entry, Element.body, stringHeader]
    split_ifs <;> rfl

/-- An element and its entry are encoded the same. -/
lemma Element.encode_entry (e : Element) : e.entry.encode = e.encode := by
  rw [Entry.encode, Element.encode, body_entry]

/-- An element and its entry are the same text. -/
lemma Element.text_entry (e : Element) : e.entry.text = e.text := by
  cases e with
  | int value fits =>
    simp only [Element.entry]
    split_ifs with seven
    · obtain ⟨n, rfl⟩ := Int.eq_ofNat_of_zero_le seven.1
      rfl
    all_goals rfl
  | string bytes short =>
    simp only [Element.entry]
    split_ifs <;> rfl

/-- An element is a negative integer of 13 bits when its entry is. -/
lemma Element.isNegative_entry (e : Element) : e.entry.IsNegative ↔ e.IsNegative := by
  cases e with
  | int value fits =>
    simp only [Element.entry, Element.IsNegative]
    split_ifs with seven short
    · simp only [Entry.IsNegative, false_iff]
      omega
    · exact ⟨fun negative => ⟨short.1, negative⟩, fun h => h.2⟩
    all_goals
      simp only [Entry.IsNegative, false_iff]
      exact fun h => short ⟨h.1, by omega⟩
  | string bytes short =>
    simp only [Element.entry, Element.IsNegative]
    split_ifs <;> rfl

/-- An element that is not a negative integer of 13 bits is read as what it is. -/
theorem parseListpackEntry_encode (e : Element) (other : ¬ e.IsNegative) (rest : Bytes) :
    parseListpackEntry (e.encode ++ rest) = .ok (e.text, leftover e.body.length ++ rest) := by
  have read := parseListpackEntry_entry e.entry (e.isNegative_entry.not.mpr other) rest
  rwa [e.encode_entry, e.text_entry, e.body_entry] at read

/-- A string is read with its data, whatever stands behind it; at a bound of the back-length one
byte of that is left over. -/
theorem parseListpackEntry_string {bytes : Bytes} (short : bytes.length < 2 ^ 32) (rest : Bytes) :
    parseListpackEntry ((Element.string bytes short).encode ++ rest)
      = .ok (bytes, leftover (Element.string bytes short).body.length ++ rest) :=
  parseListpackEntry_encode (.string bytes short) id rest

/-- A string header takes one, two or five bytes. -/
lemma length_stringHeader (n : Nat) :
    (stringHeader n).length = if n < 64 then 1 else if n < 4096 then 2 else 5 := by
  unfold stringHeader
  split_ifs <;> simp

/-- A string is consumed exactly, data and back-length, unless the size of its entry is at a bound
of the back-length. -/
theorem consumesString_iff {bytes : Bytes} (short : bytes.length < 2 ^ 32) (rest : Bytes) :
    parseListpackEntry ((Element.string bytes short).encode ++ rest) = .ok (bytes, rest)
      ↔ ¬ AtBound (Element.string bytes short).body.length := by
  rw [parseListpackEntry_string short rest, leftover]
  split
  · rename_i bound
    simp [bound]
  · rename_i inside
    simp [inside]

/-- A string of six bytes is consumed to its end. -/
theorem consumesString_short :
    parseListpackEntry ((Element.string (ascii "member") (by decide)).encode ++ [0xFF])
      = .ok (ascii "member", [0xFF]) :=
  (consumesString_iff (show (ascii "member").length < 2 ^ 32 by decide) [0xFF]).mpr (by decide)

/-- The body of a string is its header and its bytes. -/
lemma length_body (bytes : Bytes) (short : bytes.length < 2 ^ 32) :
    (Element.string bytes short).body.length = (stringHeader bytes.length).length + bytes.length :=
  List.length_append

/-- A string of 16378 bytes is followed by three bytes of back-length, two of which are skipped. -/
theorem consumesString_fails :
    ∃ short : (List.replicate 16378 (97 : UInt8)).length < 2 ^ 32,
      parseListpackEntry (Element.string (List.replicate 16378 97) short).encode
          = .ok (List.replicate 16378 97, [0xFF]) ∧
        parseListpackEntry (Element.string (List.replicate 16378 97) short).encode
          ≠ .ok (List.replicate 16378 97, []) := by
  have short : (List.replicate 16378 (97 : UInt8)).length < 2 ^ 32 := by
    rw [List.length_replicate]
    decide
  have bound : AtBound (Element.string (List.replicate 16378 97) short).body.length := by
    rw [length_body, length_stringHeader, List.length_replicate]
    decide
  have read := parseListpackEntry_string short []
  rw [leftover, if_pos bound, List.append_nil, List.append_nil] at read
  refine ⟨short, read, fun other => ?_⟩
  rw [read] at other
  cases other

/-! ## The loop -/

/-- The end byte ends the entries. -/
lemma listpackEntries_end (n : Nat) (rest : Bytes) : listpackEntries n (0xFF :: rest) = .ok [] := by
  cases n with
  | zero => rfl
  | succ n => rw [listpackEntries_cons, if_pos rfl]

/-- One round of the loop of `parse_listpack` in front of the end marker. -/
lemma listpackEntries_succ_iff {b : UInt8} (other : b ≠ 0xFF) {n : Nat} {buf : Bytes}
    {texts : List Bytes} :
    listpackEntries (n + 1) (b :: buf) = .ok texts ↔ ∃ text rest later,
      parseListpackEntry (b :: buf) = .ok (text, rest) ∧ listpackEntries n rest = .ok later ∧
      texts = text :: later := by
  rw [listpackEntries_cons, if_neg other]
  cases parseListpackEntry (b :: buf) with
  | error f =>
    constructor
    · intro h
      cases h
    · rintro ⟨_, _, _, h, _⟩
      cases h
  | ok p =>
    obtain ⟨text, rest⟩ := p
    show (do let entries ← listpackEntries n rest; return text :: entries) = _ ↔ _
    cases later : listpackEntries n rest with
    | error f =>
      constructor
      · intro h
        cases h
      · rintro ⟨_, _, _, h, tail, _⟩
        cases h
        rw [later] at tail
        cases tail
    | ok entries =>
      show Except.ok (text :: entries) = _ ↔ _
      constructor
      · intro h
        cases h
        exact ⟨text, rest, entries, rfl, later, rfl⟩
      · rintro ⟨_, _, _, h, tail, rfl⟩
        cases h
        rw [later] at tail
        cases tail
        rfl

/-- One round of the loop on an entry. -/
lemma listpackEntries_cons_iff (e : Entry) {n : Nat} {rest text : Bytes} {texts : List Bytes} :
    listpackEntries (n + 1) (e.encode ++ rest) = .ok (text :: texts) ↔
      ∃ buf, parseListpackEntry (e.encode ++ rest) = .ok (text, buf) ∧
      listpackEntries n buf = .ok texts := by
  obtain ⟨b, bs, head, other⟩ := e.encode_head
  rw [head, List.cons_append, listpackEntries_succ_iff other]
  constructor
  · rintro ⟨_, buf, _, first, tail, eq⟩
    cases eq
    exact ⟨buf, first, tail⟩
  · rintro ⟨buf, first, tail⟩
    exact ⟨text, buf, texts, first, tail, rfl⟩

/-- The entries are read back: there is no negative integer of 13 bits, and none but the last entry
has a size at a bound of the back-length. -/
def ReadableEntries (entries : List Entry) : Prop :=
  (∀ e ∈ entries, ¬ e.IsNegative) ∧ ∀ e ∈ entries.dropLast, ¬ AtBound e.body.length

/-- An entry in front of readable ones must not have a size at a bound. -/
lemma readableEntries_cons {e : Entry} {es : List Entry} (other : ¬ e.IsNegative) :
    ReadableEntries (e :: es) ↔ (es ≠ [] → ¬ AtBound e.body.length) ∧ ReadableEntries es := by
  cases es with
  | nil => simp [ReadableEntries, other]
  | cons e' es => simp [ReadableEntries, other, and_left_comm, and_assoc]

/-- The loop over entries, with any count. -/
lemma listpackEntries_entries_iff {entries : List Entry} {n : Nat} :
    listpackEntries n (entries.flatMap (·.encode) ++ [0xFF]) = .ok (entries.map (·.text))
      ↔ entries.length ≤ n ∧ ReadableEntries entries := by
  induction entries generalizing n with
  | nil => simp [listpackEntries_end, ReadableEntries]
  | cons e es ih =>
    cases n with
    | zero => simp [listpackEntries]
    | succ n =>
      rw [List.flatMap_cons, List.append_assoc, List.map_cons, listpackEntries_cons_iff]
      by_cases negative : e.IsNegative
      · have unreadable : ¬ ReadableEntries (e :: es) :=
          fun readable => readable.1 e (by simp) negative
        simp only [unreadable, and_false, iff_false]
        rintro ⟨buf, read, -⟩
        exact parseListpackEntry_misread negative _ buf read
      · simp only [parseListpackEntry_entry e negative, Except.ok.injEq, Prod.mk.injEq, true_and,
          exists_eq_left', readableEntries_cons negative, List.length_cons,
          Nat.add_le_add_iff_right]
        by_cases bound : AtBound e.body.length
        · -- the byte left over ends the listpack
          have stop := listpackEntries_end n (es.flatMap (·.encode) ++ [0xFF])
          rw [leftover, if_pos bound, List.cons_append, List.nil_append, stop]
          cases es with
          | nil => simp [ReadableEntries]
          | cons e' es => simp [bound]
        · rw [leftover, if_neg bound, List.nil_append, ih]
          simp [bound]

/-! ## Listpacks -/

/-- The header of a listpack is skipped, up to the count. -/
lemma parseListpack_header (total : Nat) {count : Nat} (small : count < 65536) (buf : Bytes) :
    parseListpack (Bytes.leBytes 4 total ++ (Bytes.leBytes 2 count ++ buf)) =
      listpackEntries count buf := by
  have long : ¬ (Bytes.leBytes 4 total ++ (Bytes.leBytes 2 count ++ buf)).length < 6 := by
    simp only [List.length_append, Bytes.length_leBytes]
    omega
  have behind : (Bytes.leBytes 4 total ++ (Bytes.leBytes 2 count ++ buf)).drop 4
      = Bytes.leBytes 2 count ++ buf := List.drop_left' (Bytes.length_leBytes _ _)
  have header : (Bytes.leBytes 2 count ++ buf).take 2 = Bytes.leBytes 2 count :=
    List.take_left' (Bytes.length_leBytes _ _)
  have entries : (Bytes.leBytes 4 total ++ (Bytes.leBytes 2 count ++ buf)).drop 6 = buf := by
    rw [show 6 = 4 + 2 from rfl, ← List.drop_drop, behind]
    exact List.drop_left' (Bytes.length_leBytes _ _)
  rw [parseListpack_eq, if_neg long, behind, header, entries,
    Bytes.leNat_leBytes (show count < 256 ^ 2 from small)]

/-- The listpack is read back: there is no negative integer of 13 bits, and none but the last entry
has a size at a bound of the back-length. -/
def Readable (elements : List Element) : Prop :=
  (∀ e ∈ elements, ¬ e.IsNegative) ∧ ∀ e ∈ elements.dropLast, ¬ AtBound e.body.length

/-- Elements are readable when their entries are. -/
lemma readable_iff_entries (elements : List Element) :
    Readable elements ↔ ReadableEntries (elements.map (·.entry)) := by
  simp only [Readable, ReadableEntries, ← List.map_dropLast, List.forall_mem_map,
    Element.isNegative_entry, Element.body_entry]

/-- A listpack of the format is read as its elements, 65535 of them at most. -/
lemma parseListpack_elements (elements : List Element) :
    parseListpack (encodeListpack elements)
      = listpackEntries (min elements.length 65535) (elements.flatMap (·.encode) ++ [0xFF]) :=
  parseListpack_header _ (by omega) _

/-- A listpack is read back exactly when its elements can be read back and the count in the header
is theirs. -/
theorem parseListpack_encode_iff (elements : List Element) :
    parseListpack (encodeListpack elements) = .ok (elements.map (·.text))
      ↔ elements.length ≤ 65535 ∧ Readable elements := by
  have loop := @listpackEntries_entries_iff (elements.map (·.entry)) (min elements.length 65535)
  simp only [List.flatMap_map, List.map_map, Function.comp_def, Element.encode_entry,
    Element.text_entry, List.length_map, ← readable_iff_entries] at loop
  rw [parseListpack_elements, loop]
  simp

/-- A listpack is read by its count and its content. -/
lemma Listpack.parse_eq (l : Listpack) :
    parseListpack l.bytes = listpackEntries l.count l.content := by
  apply parseListpack_header
  rcases l.counted with full | ⟨below, _⟩ <;> omega

/-- The count is large enough for all entries exactly when there are no more than 16 bits can
count. -/
lemma Listpack.length_le_count_iff (l : Listpack) :
    l.entries.length ≤ l.count ↔ l.entries.length ≤ 65535 := by
  rcases l.counted with full | ⟨below, eq⟩ <;> omega

/-- The parser reads the listpack as what it holds: it can count the entries, there is no negative
integer of 13 bits, and none but the last entry has a size at a bound of the back-length. -/
def Listpack.Readable (l : Listpack) : Prop := l.entries.length ≤ 65535 ∧ ReadableEntries l.entries

/-- All entries are returned exactly when they can be read back and counted. -/
lemma Listpack.all_iff (l : Listpack) :
    parseListpack l.bytes = .ok l.texts ↔ l.entries.length ≤ 65535 ∧ ReadableEntries l.entries := by
  rw [l.parse_eq, content, texts, listpackEntries_entries_iff, l.length_le_count_iff]

end Veidrodelis.RedisNif.ListpackFormat
