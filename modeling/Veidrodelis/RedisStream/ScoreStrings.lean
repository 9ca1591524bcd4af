import Mathlib.Algebra.Order.Field.Basic
import Mathlib.Algebra.Order.Field.Rat
import Mathlib.Data.List.TakeWhile
import Mathlib.Tactic.Ring
import Veidrodelis.Lib.ExtendedRational
import Veidrodelis.RedisStream.CommandParser

/-!
# Score strings

The texts of scores, and what `parse_float` and `parse_score_to_float` make of them when floats are
exact decimals. Both read a text with its value exactly when it has a digit in front of the point,
no exponent right behind a bare point that would change the value, and infinities are spelled `inf`
(`scoreStrings_iff`). With floats in 64 bits the two functions return what they return here, rounded
(`parseFloat_rounded`, `parseScoreToFloat_rounded`).
-/

namespace Veidrodelis.RedisStream
open CommandParser

/-! ## Exact readers -/

/-- `± digits * 10 ^ exponent`. -/
structure Scientific where
  negative : Bool
  digits : Nat
  exponent : Int
  deriving DecidableEq

def signed (negative : Bool) (q : ℚ) : ℚ := if negative then -q else q

def Scientific.value (d : Scientific) : ℚ := signed d.negative (d.digits * 10 ^ d.exponent)

/-- The number nearest to it. -/
def Scientific.bits (d : Scientific) : Nat :=
  Binary64.withSign d.negative (Binary64.ofDecimal d.digits d.exponent)

/-- It is not too large for a float. -/
def Scientific.Fits (d : Scientific) : Prop :=
  Binary64.ofDecimal d.digits d.exponent ≠ Binary64.infBits

namespace CommandParser

/-- The decimal that `Float.parse` reads at the front of a text. -/
def decimalParse (text : Bytes) : Option Scientific :=
  let (negative, unsigned) := Binary64.splitSign text
  let whole := unsigned.takeWhile Bytes.isDigit
  let rest := unsigned.dropWhile Bytes.isDigit
  let fraction := match rest with
    | 46 :: tail => tail.takeWhile Bytes.isDigit
    | _ => []
  let rest := if fraction = [] then rest else rest.drop (fraction.length + 1)
  if whole = [] then none
  else some ⟨negative, Bytes.digitsValue (whole ++ fraction),
    (exponentOf rest).getD 0 - fraction.length⟩

/-- `Integer.parse`. -/
def integerParseExact (text : Bytes) : Option Int :=
  let (negative, unsigned) := Binary64.splitSign text
  let digits := unsigned.takeWhile Bytes.isDigit
  if digits = [] then none
  else some (if negative then -(Bytes.digitsValue digits : Int) else Bytes.digitsValue digits)

/-- `parse_float`, with floats as exact decimals; it never raises. -/
def parseFloatExact (text : Bytes) : ExtRat :=
  if text = ascii "inf" ∨ text = ascii "+inf" then .posInf
  else if text = ascii "-inf" then .negInf
  else if text = ascii "nan" then .nan
  else
    match decimalParse text with
    | some float => .fin float.value
    | none =>
      match integerParseExact text with
      | some int => .fin int
      | none => .fin 0

/-- `parse_score_to_float`, with floats as exact decimals; nothing where it raises. -/
def parseScoreToFloatExact (text : Bytes) : Option ExtRat :=
  if text = ascii "-inf" then some .negInf
  else if text = ascii "+inf" ∨ text = ascii "inf" then some .posInf
  else
    match decimalParse text with
    | some float => some (.fin float.value)
    | none => (Bytes.parseInt text).map fun int : Int => .fin int

/-! ## Rounding -/

/-- What is no decimal is no float. -/
lemma floatParse_none {text : Bytes} (h : decimalParse text = none) :
    floatParse text = .failed := by
  rw [decimalParse] at h
  rw [floatParse]
  simp only at h ⊢
  split at h
  · rename_i nowhere
    rw [if_pos nowhere]
  · cases h

/-- A decimal that fits is a float. -/
lemma floatParse_some {text : Bytes} {d : Scientific} (h : decimalParse text = some d)
    (fits : d.Fits) : floatParse text = .float d.bits := by
  rw [decimalParse] at h
  rw [floatParse]
  simp only at h ⊢
  split at h
  · cases h
  · rename_i filled
    cases h
    rw [if_neg filled]
    exact if_neg fits

/-- Without a sign the text is taken as it is. -/
lemma splitSign_cons {first : UInt8} {rest : Bytes} (plus : first ≠ 43) (minus : first ≠ 45) :
    Binary64.splitSign (first :: rest) = (false, first :: rest) := by
  rw [Binary64.splitSign]
  · rintro rest eq
    exact plus (List.cons.inj eq).1
  · rintro rest eq
    exact minus (List.cons.inj eq).1

/-- Without a digit at the front there is no integer either. -/
lemma decimalParse_eq_none {text : Bytes} :
    decimalParse text = none ↔ (Binary64.splitSign text).2.takeWhile Bytes.isDigit = [] := by
  rw [decimalParse]
  simp only
  split
  · rename_i nowhere
    exact iff_of_true rfl nowhere
  · rename_i filled
    exact iff_of_false nofun filled

/-- What is no decimal is no exact integer. -/
lemma integerParseExact_none {text : Bytes} (h : decimalParse text = none) :
    integerParseExact text = none :=
  if_pos (decimalParse_eq_none.mp h)

/-- `String.to_integer` raises as well. -/
lemma parseInt_none {text : Bytes} (h : decimalParse text = none) : Bytes.parseInt text = none := by
  have digits (bs : Bytes) (h : bs.takeWhile Bytes.isDigit = []) :
    ¬ (bs ≠ [] ∧ bs.all Bytes.isDigit) := by
    rintro ⟨filled, all⟩
    rw [List.takeWhile_eq_self_iff.mpr (List.all_eq_true.mp all)] at h
    exact filled h
  have nowhere := decimalParse_eq_none.mp h
  cases text with
  | nil => rfl
  | cons first rest =>
    by_cases plus : first = 43
    · subst plus
      exact if_neg (digits rest nowhere)
    by_cases minus : first = 45
    · subst minus
      exact if_neg (digits rest nowhere)
    rw [splitSign_cons plus minus] at nowhere
    rw [Bytes.parseInt]
    · exact if_neg (digits _ nowhere)
    · rintro rest eq
      exact minus (List.cons.inj eq).1
    · rintro rest eq
      exact plus (List.cons.inj eq).1

/-- What is no decimal is read as zero. -/
lemma integerParse_none {text : Bytes} (h : decimalParse text = none) : integerParse text = 0 := by
  rw [integerParse]
  simp only [decimalParse_eq_none.mp h]
  split
  · decide +kernel
  · decide +kernel

/-- A score as it is read, and the exact one. -/
inductive Rounds : ExtRat → ScoreTerm → Prop
  | float (d : Scientific) : Rounds (.fin d.value) (.float d.bits)
  | posInf : Rounds .posInf .posInf
  | negInf : Rounds .negInf .negInf
  | nan : Rounds .nan .nan

/-- The score of a bound as it is read, and the exact one. -/
inductive BoundRounds : ExtRat → BoundTerm → Prop
  | float (d : Scientific) : BoundRounds (.fin d.value) (.float d.bits)
  | posInf : BoundRounds .posInf .infinity
  | negInf : BoundRounds .negInf .negInfinity

/-- Unless its number is too large, `parse_float` returns the exact score, rounded. -/
theorem parseFloat_rounded (text : Bytes) (fits : ∀ d, decimalParse text = some d → d.Fits) :
    ∃ score, parseFloat text = some score ∧ Rounds (parseFloatExact text) score := by
  unfold parseFloat parseFloatExact
  by_cases posInf : text = ascii "inf" ∨ text = ascii "+inf"
  · rw [if_pos posInf, if_pos posInf]
    exact ⟨_, rfl, .posInf⟩
  rw [if_neg posInf, if_neg posInf]
  by_cases negInf : text = ascii "-inf"
  · rw [if_pos negInf, if_pos negInf]
    exact ⟨_, rfl, .negInf⟩
  rw [if_neg negInf, if_neg negInf]
  by_cases nan : text = ascii "nan"
  · rw [if_pos nan, if_pos nan]
    exact ⟨_, rfl, .nan⟩
  rw [if_neg nan, if_neg nan]
  cases read : decimalParse text with
  | none =>
    rw [floatParse_none read, integerParse_none read, integerParseExact_none read]
    have zero := Rounds.float ⟨false, 0, 0⟩
    rw [show Scientific.value ⟨false, 0, 0⟩ = 0 by simp [Scientific.value, signed],
      show Scientific.bits ⟨false, 0, 0⟩ = 0 by decide +kernel] at zero
    exact ⟨_, if_neg (by decide +kernel), zero⟩
  | some d =>
    rw [floatParse_some read (fits d read)]
    exact ⟨_, rfl, .float d⟩

/-- So does `parse_score_to_float`, which raises where the exact one does. -/
theorem parseScoreToFloat_rounded (text : Bytes) (fits : ∀ d, decimalParse text = some d → d.Fits) :
    Option.Rel BoundRounds (parseScoreToFloatExact text) (parseScoreToFloat text) := by
  rw [parseScoreToFloat, parseScoreToFloatExact]
  split_ifs
  · exact .some .negInf
  · exact .some .posInf
  · cases read : decimalParse text with
    | none =>
      rw [floatParse_none read, parseInt_none read]
      exact .none
    | some d =>
      rw [floatParse_some read (fits d read)]
      exact .some (.float d)

/-- Where the second reader does not raise, the first one returns the same. -/
theorem parseFloatExact_eq {text : Bytes} {score : ExtRat}
    (h : parseScoreToFloatExact text = some score) : parseFloatExact text = score := by
  unfold parseScoreToFloatExact at h
  unfold parseFloatExact
  split at h
  · rename_i negInf
    cases h
    subst negInf
    rfl
  · rename_i finite
    split at h
    · rename_i posInf
      cases h
      rw [if_pos posInf.symm]
    · rename_i small
      cases read : decimalParse text with
      | none =>
        rw [read, parseInt_none read] at h
        cases h
      | some d =>
        rw [read] at h
        cases h
        have number : text ≠ ascii "nan" := by
          rintro rfl
          have absent : decimalParse (ascii "nan") = none := by decide
          rw [absent] at read
          cases read
        rw [if_neg fun posInf => small posInf.symm, if_neg finite, if_neg number]

end CommandParser

/-! ## The grammar -/

inductive Sign where
  | absent | plus | minus
  deriving DecidableEq

def Sign.text : Sign → Bytes
  | .absent => []
  | .plus => ascii "+"
  | .minus => ascii "-"

def Sign.negative (sign : Sign) : Bool := sign = .minus

/-- `e` or `E`, a sign, and digits. -/
structure ExponentText where
  marker : UInt8
  isMarker : marker = 101 ∨ marker = 69
  sign : Sign
  digits : Bytes
  all_digits : ∀ b ∈ digits, Bytes.isDigit b = true
  some_digit : digits ≠ []

def ExponentText.text (e : ExponentText) : Bytes := e.marker :: (e.sign.text ++ e.digits)

def ExponentText.value (e : ExponentText) : Int :=
  if e.sign.negative then -(Bytes.digitsValue e.digits : Int) else Bytes.digitsValue e.digits

/-- Digits, a point with digits behind it, an exponent; some digit in front of the point or behind
it. -/
structure DecimalText where
  sign : Sign
  whole : Bytes
  fraction : Option Bytes
  exponent : Option ExponentText
  whole_digits : ∀ b ∈ whole, Bytes.isDigit b = true
  fraction_digits : ∀ b ∈ fraction.getD [], Bytes.isDigit b = true
  some_digit : whole ≠ [] ∨ fraction.getD [] ≠ []

namespace DecimalText

def pointText (d : DecimalText) : Bytes := (d.fraction.map (46 :: ·)).getD []

def exponentText (d : DecimalText) : Bytes := (d.exponent.map ExponentText.text).getD []

def text (d : DecimalText) : Bytes := d.sign.text ++ (d.whole ++ (d.pointText ++ d.exponentText))

def power (d : DecimalText) : Int := (d.exponent.map ExponentText.value).getD 0

/-- The number that is denoted. -/
def value (d : DecimalText) : ℚ :=
  signed d.sign.negative
    (Bytes.digitsValue (d.whole ++ d.fraction.getD []) * 10 ^
    (d.power - (d.fraction.getD []).length))

end DecimalText

/-- A number, or an infinity: a sign and a word in any case. -/
inductive ScoreText where
  | number (d : DecimalText)
  | infinite (sign : Sign) (word : Bytes)
      (isInf : word.map Binary64.lower = ascii "inf" ∨ word.map Binary64.lower = ascii "infinity")

def ScoreText.text : ScoreText → Bytes
  | .number d => d.text
  | .infinite sign word _ => sign.text ++ word

def ScoreText.denotes : ScoreText → ExtRat
  | .number d => .fin d.value
  | .infinite sign _ _ => ExtRat.inf !sign.negative

/-- A digit in front of the point; with a bare point, no exponent that matters; infinities as
`inf`. -/
def ScoreText.Plain : ScoreText → Prop
  | .number d => d.whole ≠ [] ∧ (d.fraction = some [] → d.power = 0 ∨ Bytes.digitsValue d.whole = 0)
  | .infinite _ word _ => word = ascii "inf"

/-! ## Reading the grammar -/

/-- A sign is taken off the text. -/
lemma splitSign_text (sign : Sign) {first : UInt8} {rest : Bytes} (plus : first ≠ 43)
    (minus : first ≠ 45) :
    Binary64.splitSign (sign.text ++ first :: rest) = (sign.negative, first :: rest) := by
  cases sign with
  | absent => exact splitSign_cons plus minus
  | plus => rfl
  | minus => rfl

/-- Items that pass, in front of one that does not. -/
lemma takeWhile_append_of_head {α : Type} {p : α → Bool} {front back : List α}
    (all : ∀ a ∈ front, p a) (head : ∀ a rest, back = a :: rest → p a = false) :
    (front ++ back).takeWhile p = front ∧ (front ++ back).dropWhile p = back := by
  rw [List.takeWhile_append_of_pos all, List.dropWhile_append_of_pos all]
  cases back with
  | nil => simp
  | cons a rest => simp [head a rest rfl]

/-- A digit is neither a sign nor an `i`. -/
lemma digit_ne {b : UInt8} (digit : Bytes.isDigit b = true) : b ≠ 43 ∧ b ≠ 45 ∧ b ≠ 105 := by
  refine ⟨?_, ?_, ?_⟩
  all_goals
    rintro rfl
    exact absurd digit (by decide)

/-- The text of an exponent is read as its value. -/
lemma exponentOf_text (e : ExponentText) : exponentOf e.text = some e.value := by
  obtain ⟨marker, isMarker, sign, digits, all, filled⟩ := e
  cases digits with
  | nil => exact absurd rfl filled
  | cons first rest =>
    have plain := digit_ne (all first List.mem_cons_self)
    have whole : (first :: rest).takeWhile Bytes.isDigit = first :: rest :=
      List.takeWhile_eq_self_iff.mpr all
    rw [ExponentText.text, exponentOf, splitSign_text sign plain.1 plain.2.1]
    simp only [whole]
    exact if_pos ⟨isMarker, filled⟩

/-- An exponent does not start with a digit. -/
lemma exponentText_head (d : DecimalText) :
    ∀ b rest, d.exponentText = b :: rest → Bytes.isDigit b = false ∧ b ≠ 46 := by
  intro b rest eq
  rw [DecimalText.exponentText] at eq
  cases e : d.exponent with
  | none =>
    rw [e] at eq
    cases eq
  | some exponent =>
    rw [e] at eq
    cases eq
    rcases exponent.isMarker with marker | marker
    · rw [marker]
      decide
    · rw [marker]
      decide

/-- The exponent of a decimal is its power, and zero without one. -/
lemma exponentOf_exponentText (d : DecimalText) : (exponentOf d.exponentText).getD 0 = d.power := by
  rw [DecimalText.exponentText, DecimalText.power]
  cases d.exponent with
  | none => rfl
  | some e => exact congrArg (Option.getD · 0) (exponentOf_text e)

/-- Neither does what follows the digits in front. -/
lemma behind_head (d : DecimalText) :
    ∀ b rest, d.pointText ++ d.exponentText = b :: rest → Bytes.isDigit b = false := by
  intro b rest eq
  rw [DecimalText.pointText] at eq
  cases point : d.fraction with
  | none =>
    rw [point] at eq
    exact (exponentText_head d b rest eq).1
  | some fraction =>
    rw [point] at eq
    cases eq
    decide

/-- The sign of a decimal is taken off its text. -/
lemma splitSign_decimal (d : DecimalText) :
    Binary64.splitSign d.text = (d.sign.negative, d.whole ++ (d.pointText ++ d.exponentText)) := by
  rw [DecimalText.text]
  cases whole : d.whole with
  | nil =>
    -- a point
    cases point : d.fraction with
    | none =>
      have nowhere := d.some_digit
      simp [whole, point] at nowhere
    | some fraction =>
      rw [DecimalText.pointText, point]
      exact splitSign_text d.sign (by decide) (by decide)
  | cons first rest =>
    have digit := digit_ne (d.whole_digits first (by rw [whole]; exact List.mem_cons_self))
    exact splitSign_text d.sign digit.1 digit.2.1

/-- A decimal without digits in front of the point is not read. -/
lemma decimalParse_without {d : DecimalText} (isNil : d.whole = []) :
    decimalParse d.text = Option.none := by
  rw [decimalParse_eq_none, splitSign_decimal, isNil]
  exact (takeWhile_append_of_head nofun (behind_head d)).1

/-- The exponent that is read is behind the fraction; right behind a bare point there is none. -/
lemma decimalParse_text {d : DecimalText} (nonempty : d.whole ≠ []) :
    decimalParse d.text = Option.some
    ⟨d.sign.negative, Bytes.digitsValue (d.whole ++ d.fraction.getD []),
      (if d.fraction = Option.some [] then 0 else d.power) - (d.fraction.getD []).length⟩ := by
  have split := takeWhile_append_of_head d.whole_digits (behind_head d)
  rw [decimalParse, splitSign_decimal]
  simp only [split.1, split.2, if_neg nonempty]
  have power := exponentOf_exponentText d
  cases point : d.fraction with
  | none =>
    have behind : d.pointText ++ d.exponentText = d.exponentText := by
      rw [DecimalText.pointText, point]
      rfl
    rw [behind]
    cases e : d.exponentText with
    | nil =>
      rw [e] at power
      simp [power]
    | cons b rest =>
      have other := (exponentText_head d b rest e).2
      rw [e] at power
      simp [other, power]
  | some fraction =>
    have behind : d.pointText ++ d.exponentText = 46 :: (fraction ++ d.exponentText) := by
      rw [DecimalText.pointText, point]
      rfl
    have digits : ∀ b ∈ fraction, Bytes.isDigit b = true := by
      have all := d.fraction_digits
      rwa [point] at all
    have front :=
      (takeWhile_append_of_head digits fun b rest eq => (exponentText_head d b rest eq).1).1
    rw [behind]
    simp only [front]
    cases fraction with
    | nil => simp [exponentOf]
    | cons b bs => simp [power]

/-! ## Values -/

/-- Two signed numbers are the same when their magnitudes are. -/
lemma signed_inj {negative : Bool} {p q : ℚ} : signed negative p = signed negative q ↔ p = q := by
  cases negative with
  | false => exact Iff.rfl
  | true => exact neg_inj

/-- A power of ten changes every number but zero. -/
lemma mul_zpow_ten (n : Nat) (e : Int) : (n : ℚ) = n * 10 ^ e ↔ e = 0 ∨ n = 0 := by
  by_cases zero : n = 0
  · simp [zero]
  · have nonzero : (n : ℚ) ≠ 0 := Nat.cast_ne_zero.mpr zero
    have one : (10 : ℚ) ^ e = 1 ↔ e = 0 := zpow_eq_one_iff_right₀ (by decide) (by decide)
    rw [or_iff_left zero, eq_comm, mul_eq_left₀ nonzero, one]

/-- A decimal is no infinity. -/
lemma decimal_ne (d : DecimalText) {text rest : Bytes} {negative : Bool}
    (word : Binary64.splitSign text = (negative, 105 :: rest)) : d.text ≠ text := by
  intro eq
  rw [← eq, splitSign_decimal] at word
  have eq := (Prod.mk.inj word).2
  cases whole : d.whole with
  | nil =>
    rw [whole, DecimalText.pointText] at eq
    cases point : d.fraction with
    | none =>
      have nowhere := d.some_digit
      simp [whole, point] at nowhere
    | some fraction =>
      rw [point] at eq
      cases eq
  | cons first later =>
    rw [whole] at eq
    have digit := digit_ne (d.whole_digits first (by rw [whole]; exact List.mem_cons_self))
    exact digit.2.2 (List.cons.inj eq).1

/-- A decimal is read as its exact value, if it is read. -/
lemma parseScoreToFloatExact_decimal (d : DecimalText) :
    parseScoreToFloatExact d.text = (decimalParse d.text).map fun float => .fin float.value := by
  rw [parseScoreToFloatExact, if_neg (decimal_ne d (by rfl)), if_neg]
  · cases read : decimalParse d.text with
    | none =>
      rw [parseInt_none read]
      rfl
    | some float => rfl
  · rintro (eq | eq)
    · exact decimal_ne d (by rfl) eq
    · exact decimal_ne d (by rfl) eq

/-- A decimal is read as its value just where it is plain. -/
lemma decimal_iff (d : DecimalText) :
    parseScoreToFloatExact d.text = some (.fin d.value) ↔ (ScoreText.number d).Plain := by
  rw [parseScoreToFloatExact_decimal, ScoreText.Plain]
  by_cases isNil : d.whole = []
  · rw [decimalParse_without isNil]
    exact iff_of_false nofun fun plain => plain.1 isNil
  rw [decimalParse_text isNil, and_iff_right isNil, Option.map_some, Option.some_inj,
    ExtRat.fin.injEq, Scientific.value, DecimalText.value, signed_inj]
  by_cases bare : d.fraction = some []
  · simp [bare, mul_zpow_ten]
  · simp [bare]

/-- The first letter of an infinity is neither a sign nor a digit. -/
lemma inf_head {word : Bytes}
    (isInf : word.map Binary64.lower = ascii "inf" ∨ word.map Binary64.lower = ascii "infinity") :
    ∃ first rest, word = first :: rest ∧ first ≠ 43 ∧ first ≠ 45 ∧ Bytes.isDigit first = false := by
  cases word with
  | nil => exact absurd isInf (by decide)
  | cons first rest =>
    have letter : Binary64.lower first = 105 := by
      rcases isInf with eq | eq
      · exact (List.cons.inj eq).1
      · exact (List.cons.inj eq).1
    refine ⟨first, rest, rfl, ?_, ?_, ?_⟩
    · rintro rfl
      exact absurd letter (by decide)
    · rintro rfl
      exact absurd letter (by decide)
    · by_contra digit
      rw [Bool.not_eq_false] at digit
      have range : 48 ≤ first ∧ first ≤ 57 := by simpa [Bytes.isDigit] using digit
      rw [Binary64.lower, if_neg
        fun upper => absurd (UInt8.le_trans upper.1 range.2) (by decide)] at letter
      rw [letter] at digit
      exact absurd digit (by decide)

/-- An infinity is read just where it is written `inf` in lower case. -/
lemma infinite_iff (sign : Sign) {word : Bytes}
    (isInf : word.map Binary64.lower = ascii "inf" ∨ word.map Binary64.lower = ascii "infinity") :
    parseScoreToFloatExact (sign.text ++ word) = some (ExtRat.inf !sign.negative) ↔
      word = ascii "inf" := by
  constructor
  · intro read
    by_contra other
    obtain ⟨first, rest, rfl, plus, minus, letter⟩ := inf_head isInf
    have absent' : decimalParse (sign.text ++ first :: rest) = none := by
      rw [decimalParse_eq_none, splitSign_text sign plus minus]
      exact List.takeWhile_cons_of_neg (by rw [letter]; decide)
    have ne (sign' : Sign) : sign.text ++ first :: rest ≠ sign'.text ++ ascii "inf" := by
      intro eq
      have split := congrArg Binary64.splitSign eq
      rw [splitSign_text sign plus minus, show ascii "inf" = 105 :: ascii "nf" by decide,
        splitSign_text sign' (by decide) (by decide)] at split
      exact other (Prod.mk.inj split).2
    have low : sign.text ++ first :: rest ≠ ascii "-inf" := ne .minus
    have high : sign.text ++ first :: rest ≠ ascii "+inf" := ne .plus
    have bare : sign.text ++ first :: rest ≠ ascii "inf" := ne .absent
    rw [parseScoreToFloatExact, if_neg low, if_neg (not_or.mpr ⟨high, bare⟩), absent',
      parseInt_none absent'] at read
    cases read
  · rintro rfl
    cases sign with
    | absent | plus | minus => decide

/-- A score text is read with its value, by both readers, exactly when it is plain. -/
theorem scoreStrings_iff (s : ScoreText) :
    parseFloatExact s.text = s.denotes ∧
      parseScoreToFloatExact s.text = some s.denotes ↔ s.Plain := by
  rw [and_iff_right_of_imp parseFloatExact_eq]
  cases s with
  | number d => exact decimal_iff d
  | infinite sign word isInf => exact infinite_iff sign isInf

/-- `.5` is read as 0 by one reader, and the other one raises. -/
theorem scoreStrings_fails :
    ∃ s : ScoreText, s.text = ascii ".5" ∧ s.denotes = .fin (1 / 2) ∧
    parseFloatExact s.text = .fin 0 ∧
      parseScoreToFloatExact s.text = none ∧
      ¬ (parseFloatExact s.text = s.denotes ∧ parseScoreToFloatExact s.text = some s.denotes) := by
  refine ⟨.number ⟨.absent, [], some (ascii "5"), none, nofun, by decide +kernel, .inr (by decide)⟩,
    ?_, ?_, ?_, ?_, ?_⟩
  · decide
  · decide +kernel
  · decide +kernel
  · decide +kernel
  · rintro ⟨-, read⟩
    revert read
    decide +kernel

end Veidrodelis.RedisStream
