import Mathlib.Data.List.Basic
import Mathlib.Data.Nat.Digits.Lemmas
import Mathlib.Tactic.Lemma
import Mathlib.Tactic.Ring
import Mathlib.Tactic.Push

/-!
# Byte strings

Byte strings as lists, the two byte orders, two's complement, and the decimal text of a number, each
with its round trip:

* `leNat_leBytes`, `beNat_beBytes`: fixed-width numbers;
* `signed_unsigned`: two's complement of a width;
* `parseUnsigned_natText`, `parseInt_intText`: decimal text.
-/

namespace Veidrodelis

/-- A byte string. -/
abbrev Bytes := List UInt8

instance : LawfulBEq Bytes := List.instLawfulBEq

/-- The bytes of an ASCII literal. -/
def ascii (s : String) : Bytes := s.toList.map fun c => UInt8.ofNat c.toNat

namespace Bytes

/-! ## Byte order -/

/-- The number whose little-endian bytes are given. -/
def leNat : Bytes → Nat
  | [] => 0
  | b :: bs => b.toNat + 256 * leNat bs

/-- The number whose big-endian bytes are given. -/
def beNat (bs : Bytes) : Nat := leNat bs.reverse

/-- The `width` low bytes of a number, little-endian. -/
def leBytes : Nat → Nat → Bytes
  | 0, _ => []
  | width + 1, n => UInt8.ofNat (n % 256) :: leBytes width (n / 256)

/-- The `width` low bytes of a number, big-endian. -/
def beBytes (width n : Nat) : Bytes := (leBytes width n).reverse

/-- A little-endian number takes its width. -/
@[simp] lemma length_leBytes (width n : Nat) : (leBytes width n).length = width := by
  induction width generalizing n with
  | zero => rfl
  | succ width ih => simp [leBytes, ih]

/-- A big-endian number takes its width. -/
@[simp] lemma length_beBytes (width n : Nat) : (beBytes width n).length = width := by
  simp [beBytes]

/-- As many bytes hold a number below the power of 256. -/
lemma leNat_lt (bs : Bytes) : leNat bs < 256 ^ bs.length := by
  induction bs with
  | nil => decide
  | cons b bs ih =>
    have byte := b.toNat_lt
    rw [leNat, List.length_cons, Nat.pow_succ]
    omega

/-- A big-endian number is bounded by its width. -/
lemma beNat_lt (bs : Bytes) : beNat bs < 256 ^ bs.length := by
  have lt := leNat_lt bs.reverse
  rwa [List.length_reverse] at lt

/-- Little-endian numbers are read as written. -/
lemma leNat_leBytes {width n : Nat} (h : n < 256 ^ width) : leNat (leBytes width n) = n := by
  induction width generalizing n with
  | zero => simp_all [leNat, leBytes]
  | succ width ih =>
    have small : n / 256 < 256 ^ width := by
      rw [Nat.div_lt_iff_lt_mul (by decide)]
      simpa [Nat.pow_succ] using h
    simp only [leBytes, leNat, ih small, UInt8.toNat_ofNat']
    omega

/-- Big-endian numbers are read as written. -/
lemma beNat_beBytes {width n : Nat} (h : n < 256 ^ width) : beNat (beBytes width n) = n := by
  simp [beNat, beBytes, leNat_leBytes h]

/-! ## Two's complement -/

/-- The signed number that `n` stands for in `width` bytes of two's complement. -/
def signed (width n : Nat) : Int := (n : Int).bmod (256 ^ width)

/-- Three bytes of two's complement: the sign is that of the highest. -/
lemma signed_three (low mid high : UInt8) :
    signed 3 (leNat [low, mid, high]) =
      low.toNat + mid.toNat * 256 + signed 1 (leNat [high]) * 65536 := by
  have lowLt := low.toNat_lt
  have midLt := mid.toNat_lt
  have highLt := high.toNat_lt
  simp only [signed, leNat, Int.bmod_def]
  push_cast
  split_ifs <;> omega

/-- The two's complement of `v` in `width` bytes. -/
def unsigned (width : Nat) (v : Int) : Nat := (v % (256 ^ width : Nat)).toNat

/-- The integer has a two's complement of `width` bytes. -/
def FitsSigned (width : Nat) (value : Int) : Prop :=
  -((256 ^ width : Nat) / 2 : Int) ≤ value ∧ value < ((256 ^ width : Nat) + 1) / 2

instance (width : Nat) (value : Int) : Decidable (FitsSigned width value) :=
  inferInstanceAs (Decidable (_ ∧ _))

/-- The two's complement of a number fits in the width. -/
lemma unsigned_lt (width : Nat) (v : Int) : unsigned width v < 256 ^ width := by
  have pos : (0 : Int) < (256 ^ width : Nat) := by exact_mod_cast Nat.pow_pos (by decide)
  have lower := Int.emod_nonneg v pos.ne'
  have upper := Int.emod_lt_of_pos v pos
  unfold unsigned
  omega

/-- A number in the range of the width is read as written. -/
lemma signed_unsigned {width : Nat} {v : Int} (lower : -((256 ^ width : Nat) / 2 : Int) ≤ v)
    (upper : v < ((256 ^ width : Nat) + 1) / 2) : signed width (unsigned width v) = v := by
  have pos : (0 : Int) < (256 ^ width : Nat) := by exact_mod_cast Nat.pow_pos (by decide)
  have nonneg := Int.emod_nonneg v pos.ne'
  rw [signed, unsigned, Int.toNat_of_nonneg nonneg, Int.emod_bmod]
  exact Int.bmod_eq_of_le lower upper

/-! ## Decimal text -/

/-- The ASCII digit of a number below ten. -/
def digit (d : Nat) : UInt8 := UInt8.ofNat (48 + d)

/-- The decimal text of a natural number. -/
def natText (n : Nat) : Bytes :=
  if n = 0 then [digit 0] else (Nat.digits 10 n).reverse.map digit

/-- The decimal text of an integer. -/
def intText : Int → Bytes
  | .ofNat n => natText n
  | .negSucc n => 45 :: natText (n + 1)

def isDigit (b : UInt8) : Bool := 48 ≤ b && b ≤ 57

/-- The value of a string of digits. -/
def digitsValue (bs : Bytes) : Nat := bs.foldl (fun acc b => 10 * acc + (b.toNat - 48)) 0

/-- Read an unsigned decimal number below `bound`: an optional plus sign and at least one digit. -/
def parseUnsigned (bound : Nat) (bs : Bytes) : Option Nat :=
  let digits := match bs with
    | 43 :: rest => rest
    | _ => bs
  if digits ≠ [] ∧ digits.all isDigit ∧ digitsValue digits < bound then
    some (digitsValue digits)
  else
    none

/-- Read a decimal number: an optional sign and at least one digit. -/
def parseInt (bs : Bytes) : Option Int :=
  let (negative, digits) := match bs with
    | 45 :: rest => (true, rest)
    | 43 :: rest => (false, rest)
    | _ => (false, bs)
  if digits ≠ [] ∧ digits.all isDigit then
    some (if negative then -(digitsValue digits : Int) else digitsValue digits)
  else none

/-- UTF-8, where a number of continuation bytes are due of which the first lies between two
bounds. -/
def validUtf8From : Nat → UInt8 → UInt8 → Bytes → Bool
  | 0, _, _, [] => true
  | 0, _, _, b :: bs =>
    if b ≤ 0x7F then validUtf8From 0 0 0 bs
    else if 0xC2 ≤ b ∧ b ≤ 0xDF then validUtf8From 1 0x80 0xBF bs
    else if b = 0xE0 then validUtf8From 2 0xA0 0xBF bs
    else if b = 0xED then validUtf8From 2 0x80 0x9F bs
    else if 0xE1 ≤ b ∧ b ≤ 0xEF then validUtf8From 2 0x80 0xBF bs
    else if b = 0xF0 then validUtf8From 3 0x90 0xBF bs
    else if 0xF1 ≤ b ∧ b ≤ 0xF3 then validUtf8From 3 0x80 0xBF bs
    else if b = 0xF4 then validUtf8From 3 0x80 0x8F bs
    else false
  | n + 1, low, high, b :: bs => low ≤ b && b ≤ high && validUtf8From n 0x80 0xBF bs
  | _ + 1, _, _, [] => false

/-- Whether the bytes are UTF-8. -/
def validUtf8 (bs : Bytes) : Bool := validUtf8From 0 0 0 bs

/-- The character of a digit is one. -/
lemma isDigit_digit {d : Nat} (h : d < 10) : isDigit (digit d) = true := by
  interval_cases d <;> decide

/-- The character of a digit has the digit's value. -/
lemma toNat_digit {d : Nat} (h : d < 10) : (digit d).toNat - 48 = d := by
  interval_cases d <;> decide

/-- The decimal text of a number is made of its digits, the first one in front. -/
lemma natText_eq (n : Nat) :
    ∃ ds : List Nat, ds ≠ [] ∧ (∀ d ∈ ds, d < 10) ∧ natText n = (ds.reverse).map digit ∧
      Nat.ofDigits 10 ds = n := by
  by_cases h : n = 0
  · exact ⟨[0], by simp, by simp, by simp [natText, h], by simp [h]⟩
  · refine ⟨Nat.digits 10 n, by simpa [Nat.digits_ne_nil_iff_ne_zero] using h, ?_,
      by simp [natText, h], Nat.ofDigits_digits 10 n⟩
    intro d hd
    exact Nat.digits_lt_base (by decide) hd

/-- A decimal text is not empty. -/
lemma natText_ne_nil (n : Nat) : natText n ≠ [] := by
  obtain ⟨ds, ne, -, eq, -⟩ := natText_eq n
  simp [eq, ne]

/-- A number has no more digits than its successor counts. -/
lemma length_natText_le (n : Nat) : (natText n).length ≤ n + 1 := by
  unfold natText
  split
  · simp
  · rw [List.length_map, List.length_reverse]
    exact ((Nat.digits_length_le_iff (by decide) n).mpr (Nat.lt_pow_self (by decide))).trans
      (Nat.le_succ n)

/-- A decimal text consists of digits. -/
lemma all_isDigit_natText (n : Nat) : ∀ b ∈ natText n, isDigit b = true := by
  obtain ⟨ds, -, lt, eq, -⟩ := natText_eq n
  intro b hb
  rw [eq, List.mem_map] at hb
  obtain ⟨d, hd, rfl⟩ := hb
  exact isDigit_digit (lt d (by simpa using hd))

/-- The value of the characters is that of the digits. -/
lemma digitsValue_map_digit {ds : List Nat} (lt : ∀ d ∈ ds, d < 10) :
    digitsValue (ds.reverse.map digit) = Nat.ofDigits 10 ds := by
  induction ds with
  | nil => rfl
  | cons d ds ih =>
    have tail := ih fun e he => lt e (by simp [he])
    simp only [digitsValue] at tail
    simp only [digitsValue, List.reverse_cons, List.map_append, List.foldl_append, tail,
      List.map_cons, List.map_nil, List.foldl_cons, List.foldl_nil,
      toNat_digit (lt d (by simp)), Nat.ofDigits_cons]
    ring

/-- A decimal text has the value of its number. -/
lemma digitsValue_natText (n : Nat) : digitsValue (natText n) = n := by
  obtain ⟨ds, -, lt, eq, val⟩ := natText_eq n
  rw [eq, digitsValue_map_digit lt, val]

/-- Reading the decimal text of a number gives the number. -/
theorem parseUnsigned_natText {bound n : Nat} (h : n < bound) :
    parseUnsigned bound (natText n) = some n := by
  have value := digitsValue_natText n
  have ne := natText_ne_nil n
  have all := all_isDigit_natText n
  have plain : (match natText n with | 43 :: rest => rest | _ => natText n) = natText n := by
    cases e : natText n with
    | nil => rfl
    | cons b bs =>
      have notPlus : b ≠ 43 := by
        intro hb
        have := all b (by simp [e])
        rw [hb] at this
        exact absurd this (by decide)
      split
      · rename_i h'
        simp only [List.cons.injEq] at h'
        exact absurd h'.1 notPlus
      · rfl
  unfold parseUnsigned
  rw [plain]
  simp only [value]
  rw [if_pos ⟨ne, by simpa using all, h⟩]

/-- A text of digits is as long as its number is large. -/
lemma length_natText_le_iff {n k : Nat} (pos : 0 < k) : (natText n).length ≤ k ↔ n < 10 ^ k := by
  unfold natText
  split
  · rename_i zero
    simp only [List.length_singleton, zero]
    exact ⟨fun _ => Nat.pow_pos (by decide), fun _ => pos⟩
  · rw [List.length_map, List.length_reverse]
    exact Nat.digits_length_le_iff (by decide) n

/-- A decimal text begins with a digit. -/
lemma natText_head (n : Nat) : ∃ b bs, natText n = b :: bs ∧ isDigit b = true := by
  have all := all_isDigit_natText n
  cases e : natText n with
  | nil => exact absurd e (natText_ne_nil n)
  | cons b bs => exact ⟨b, bs, rfl, all b (by simp [e])⟩

/-- Reading the decimal text of an integer gives the integer. -/
theorem parseInt_intText (v : Int) : parseInt (intText v) = some v := by
  cases v with
  | ofNat n =>
    obtain ⟨b, bs, e, digit⟩ := natText_head n
    have plain : b ≠ 45 ∧ b ≠ 43 := by
      constructor <;>
      · rintro rfl
        exact absurd digit (by decide)
    have all : (natText n).all isDigit = true := by simpa using all_isDigit_natText n
    have value := digitsValue_natText n
    rw [intText, e] at *
    simp [parseInt, plain.1, plain.2, all, value]
  | negSucc n =>
    have all : (natText (n + 1)).all isDigit = true := by simpa using all_isDigit_natText (n + 1)
    have value := digitsValue_natText (n + 1)
    simp only [intText, parseInt]
    rw [if_pos ⟨natText_ne_nil (n + 1), all⟩, value]
    rfl

end Bytes

end Veidrodelis
