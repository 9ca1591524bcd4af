import Mathlib.Data.Nat.Log
import Veidrodelis.Lib.Bytes

/-!
# IEEE 754 binary64

The numbers of the format are handled through their 64 bits. `ofRatio` rounds an exact ratio to the
nearest number (ties to even), `parse` reads the decimal grammar of Rust's `f64::from_str`, and
`display` is Rust's `f64::to_string`: the shortest decimal that rounds to the number, written
without an exponent.
-/

namespace Veidrodelis.Binary64

/-- The bits of positive infinity; the numbers above it (below the sign bit) are the NaNs. -/
def infBits : Nat := 2047 * 2 ^ 52

def nanBits : Nat := infBits + 2 ^ 51

/-- The sign bit. -/
def isNegative (bits : Nat) : Bool := 2 ^ 63 ≤ bits

/-- The bits without the sign. -/
def magnitude (bits : Nat) : Nat := bits % 2 ^ 63

/-- Significand and exponent of a finite magnitude: its value is `significand * 2 ^ exponent`. -/
def decompose (mag : Nat) : Nat × Int :=
  if mag / 2 ^ 52 = 0 then (mag, -1074) else (2 ^ 52 + mag % 2 ^ 52, (mag / 2 ^ 52 : Nat) - 1075)

/-- The value of a finite magnitude as a ratio. -/
def ratio (mag : Nat) : Nat × Nat :=
  let (significand, exponent) := decompose mag
  if 0 ≤ exponent then (significand * 2 ^ exponent.toNat, 1)
  else (significand, 2 ^ (-exponent).toNat)

/-- `⌊num / den * 2 ^ (-exponent)⌋` and whether to round it up (half to even). -/
def quotient (num den : Nat) (exponent : Int) : Nat × Bool :=
  let (n, d) := if 0 ≤ exponent then (num, den * 2 ^ exponent.toNat)
    else (num * 2 ^ (-exponent).toNat, den)
  let q := n / d
  let r := n % d
  (q, d < 2 * r || (d == 2 * r && q % 2 == 1))

/-- The magnitude nearest to the ratio `num / den`, ties to even; infinity past the largest one. -/
def ofRatio (num den : Nat) : Nat :=
  if num = 0 then 0 else
  let guess : Int := max ((Nat.log 2 num : Int) - Nat.log 2 den - 53) (-1074)
  let exponent := if 2 ^ 53 ≤ (quotient num den guess).1 then guess + 1 else guess
  let (q, up) := quotient num den exponent
  let q := if up then q + 1 else q
  if q < 2 ^ 52 then q
  else min ((exponent + 1075).toNat * 2 ^ 52 + (q - 2 ^ 52)) infBits

/-- The magnitude nearest to `d * 10 ^ k`. -/
def ofDecimal (d : Nat) (k : Int) : Nat :=
  if 0 ≤ k then ofRatio (d * 10 ^ k.toNat) 1 else ofRatio d (10 ^ (-k).toNat)

/-! ## Shortest decimal -/

/-- The decimal exponent of the first digit of `num / den`. -/
def leadingExponent (num den : Nat) : Int :=
  if den ≤ num then Nat.log 10 (num / den) else -(Nat.clog 10 ((den + num - 1) / num) : Int)

/-- The decimal of `n` digits that rounds to the magnitude and is nearest to it, if there is one. -/
def candidate (mag n : Nat) : Option (Nat × Int) :=
  let (num, den) := ratio mag
  let k := leadingExponent num den - n + 1
  let (p, q) := if 0 ≤ k then (num, den * 10 ^ k.toNat) else (num * 10 ^ (-k).toNat, den)
  let d := p / q
  let low := ofDecimal d k == mag
  let high := ofDecimal (d + 1) k == mag
  if high && (!low || q ≤ 2 * (p % q)) then some (d + 1, k)
  else if low then some (d, k)
  else none

/-- The shortest decimal that rounds to a finite non-zero magnitude; 17 digits are always enough, so
the exact expansion at the end only makes the function total. -/
def shortest (mag : Nat) : Nat × Int :=
  match (List.range 17).findSome? fun n => candidate mag (n + 1) with
  | some dk => dk
  | none =>
    let (significand, exponent) := decompose mag
    if 0 ≤ exponent then (significand * 2 ^ exponent.toNat, 0)
    else (significand * 5 ^ (-exponent).toNat, exponent)

/-- Positional notation of `d * 10 ^ k`. -/
def positional (d : Nat) (k : Int) : Bytes :=
  let digits := Bytes.natText d
  if 0 ≤ k then digits ++ List.replicate k.toNat (Bytes.digit 0)
  else
    let point := (digits.length : Int) + k
    if 0 < point then digits.take point.toNat ++ ascii "." ++ digits.drop point.toNat
    else ascii "0." ++ List.replicate (-point).toNat (Bytes.digit 0) ++ digits

/-- Rust's `f64::to_string`. -/
def display (bits : Nat) : Bytes :=
  let mag := magnitude bits
  let sign := if isNegative bits then ascii "-" else []
  if infBits < mag then ascii "NaN"
  else if mag = infBits then sign ++ ascii "inf"
  else if mag = 0 then sign ++ ascii "0"
  else
    let (d, k) := shortest mag
    sign ++ positional d k

/-! ## Reading decimal text -/

def lower (b : UInt8) : UInt8 := if 65 ≤ b ∧ b ≤ 90 then b + 32 else b

/-- Attach a sign to a magnitude. -/
def withSign (negative : Bool) (mag : Nat) : Nat := if negative then 2 ^ 63 + mag else mag

/-- An optional sign and the rest. -/
def splitSign (bs : Bytes) : Bool × Bytes :=
  match bs with
  | 43 :: rest => (false, rest)
  | 45 :: rest => (true, rest)
  | _ => (false, bs)

/-- The exponent part: empty, or `e` or `E`, an optional sign and at least one digit. -/
def parseExponent (bs : Bytes) : Option Int :=
  match bs with
  | [] => some 0
  | e :: rest =>
    let (negative, digits) := splitSign rest
    if lower e = 101 ∧ digits ≠ [] ∧ digits.all Bytes.isDigit then
      let v : Int := Bytes.digitsValue digits
      some (if negative then -v else v)
    else none

/-- Digits with an optional point and an optional exponent, at least one digit before the
exponent. -/
def parseNumber (bs : Bytes) : Option Nat :=
  let whole := bs.takeWhile Bytes.isDigit
  let rest := bs.dropWhile Bytes.isDigit
  let (fraction, rest) := match rest with
    | 46 :: tail => (tail.takeWhile Bytes.isDigit, tail.dropWhile Bytes.isDigit)
    | _ => ([], rest)
  if whole = [] ∧ fraction = [] then none
  else (parseExponent rest).map fun e =>
    ofDecimal (Bytes.digitsValue (whole ++ fraction)) (e - fraction.length)

/-- Rust's `f64::from_str`. -/
def parse (bs : Bytes) : Option Nat :=
  let (negative, rest) := splitSign bs
  let name := rest.map lower
  (if name = ascii "inf" ∨ name = ascii "infinity" then some infBits
   else if name = ascii "nan" then some nanBits
   else parseNumber rest).map (withSign negative)

/-- Only what starts with an `i` or an `n` can be a word. -/
lemma parse_eq_parseNumber {bs rest : Bytes} {negative : Bool} {first : UInt8}
    (signed : splitSign bs = (negative, first :: rest))
    (other : lower first ≠ 105 ∧ lower first ≠ 110) :
    parse bs = (parseNumber (first :: rest)).map (withSign negative) := by
  have word {letter : UInt8} (name : Bytes) (differs : lower first ≠ letter) :
      (first :: rest).map lower ≠ letter :: name := fun same => differs (List.cons.inj same).1
  have inf : ascii "inf" = [105, 110, 102] := by decide
  have infinity : ascii "infinity" = [105, 110, 102, 105, 110, 105, 116, 121] := by decide
  have nan : ascii "nan" = [110, 97, 110] := by decide
  rw [parse, signed]
  simp only [inf, infinity, nan]
  rw [if_neg (not_or.mpr ⟨word _ other.1, word _ other.1⟩), if_neg (word _ other.2)]

/-- Rust's `i64 as f64`. -/
def ofInt (i : Int) : Nat := withSign (i < 0) (ofRatio i.natAbs 1)

/-! ## Arithmetic and order -/

def isNaN (bits : Nat) : Bool := infBits < magnitude bits

/-- The numerator of a finite number over the denominator of its `ratio`. -/
def signedNum (bits : Nat) : Int :=
  if isNegative bits then -((ratio (magnitude bits)).1 : Int) else (ratio (magnitude bits)).1

/-- `+`, rounded to nearest; a sum of zero is negative only if both terms are. -/
def add (a b : Nat) : Nat :=
  if isNaN a || isNaN b then nanBits
  else if magnitude a = infBits then
    if magnitude b = infBits ∧ isNegative a ≠ isNegative b then nanBits else a
  else if magnitude b = infBits then b
  else
    let den := (ratio (magnitude a)).2
    let den' := (ratio (magnitude b)).2
    let sum := signedNum a * den' + signedNum b * den
    if sum = 0 then withSign (isNegative a && isNegative b) 0
    else withSign (sum < 0) (ofRatio sum.natAbs (den * den'))

/-- `*`, rounded to nearest. -/
def mul (a b : Nat) : Nat :=
  let negative := isNegative a != isNegative b
  if isNaN a || isNaN b then nanBits
  else if magnitude a = infBits ∨ magnitude b = infBits then
    if magnitude a = 0 ∨ magnitude b = 0 then nanBits else withSign negative infBits
  else
    let (num, den) := ratio (magnitude a)
    let (num', den') := ratio (magnitude b)
    withSign negative (ofRatio (num * num') (den * den'))

/-- The place of a number in the total order in which the two zeros are one number and all NaNs are
one number, the greatest. -/
def place (bits : Nat) : Int :=
  if isNaN bits then 2 ^ 63
  else if isNegative bits then -(magnitude bits : Int)
  else magnitude bits

/-- Every number lies between the infinities. -/
lemma place_bounds {bits : Nat} (number : isNaN bits = false) :
    -(infBits : Int) ≤ place bits ∧ place bits ≤ infBits := by
  have size : magnitude bits ≤ infBits := by simpa [isNaN] using number
  rw [place, number, if_neg (by decide)]
  split
  · omega
  · omega

example : add 0x3FB999999999999A 0x3FC999999999999A = 0x3FD3333333333334 := by decide +kernel

example : display 0x3FF8000000000000 = ascii "1.5" := by decide +kernel

example : display (0x3FB999999999999A) = ascii "0.1" := by decide +kernel

end Veidrodelis.Binary64
