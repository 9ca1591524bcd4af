import Veidrodelis.Lib.Binary64Text
import Veidrodelis.RedisStream.ScoreStrings
import Veidrodelis.TsNif.WriteCommands

/-!
# The round trip of scores

The scores of a snapshot are bits. `rdb.rs` writes them as decimals, `parse_float` of
`command_parser.ex` reads these, and `decode_score` of `write_commands.rs` takes what was read. The
storage has the bits of the snapshot (`score_roundTrip`), but for the NaNs, of which it makes zero.
-/

namespace Veidrodelis.RedisStream
open CommandParser
open Binary64 (display isNaN isNegative magnitude infBits withSign)

/-- What `parse_float` makes of the text of a score. -/
def scoreTerm (bits : Nat) : ScoreTerm :=
  if isNaN bits then .float 0
  else if magnitude bits = infBits then if isNegative bits then .negInf else .posInf
  else .float bits

/-- A score is decoded as it was encoded, and not-a-number as zero. -/
lemma decodeScore_scoreTerm {bits : Nat} (small : bits < 2 ^ 64) :
    TsNif.decodeScore (scoreTerm bits) = if isNaN bits then 0 else bits := by
  have whole := Binary64.withSign_magnitude small
  rw [scoreTerm]
  split_ifs with nan infinite negative
  · rfl
  · rw [infinite, negative] at whole
    exact whole
  · rw [infinite, Bool.eq_false_of_not_eq_true negative] at whole
    exact whole
  · rfl

/-- The text of a number other than zero and the infinities, as a text of the grammar. -/
def displayText (bits : Nat) : DecimalText where
  sign := if isNegative bits then .minus else .absent
  whole := (Binary64.pointed (Binary64.shortest (magnitude bits)).1
    (Binary64.shortest (magnitude bits)).2).1
  fraction := (Binary64.pointed (Binary64.shortest (magnitude bits)).1
    (Binary64.shortest (magnitude bits)).2).2
  exponent := none
  whole_digits := (List.forall_mem_append.mp Binary64.pointed_digits).1
  fraction_digits := (List.forall_mem_append.mp Binary64.pointed_digits).2
  some_digit := .inl Binary64.pointed_some

section
variable {bits : Nat}

/-- The text of the grammar is the text that is displayed. -/
lemma text_displayText (finite : magnitude bits < infBits) (nonzero : magnitude bits ≠ 0) :
    (displayText bits).text = display bits := by
  have sign : (displayText bits).sign.text = if isNegative bits then ascii "-" else [] := by
    rw [displayText]
    split
    · rfl
    · rfl
  rw [Binary64.display_finite finite nonzero, Binary64.positional_eq, DecimalText.text, sign,
    DecimalText.exponentText, displayText, Option.map_none, Option.getD_none, List.append_nil]
  rfl

/-- The text has the sign of the number. -/
lemma negative_displayText : (displayText bits).sign.negative = isNegative bits := by
  rw [displayText]
  cases isNegative bits with
  | true | false => rfl

/-- `Float.parse` reads the bits. -/
lemma floatParse_display (small : bits < 2 ^ 64) (finite : magnitude bits < infBits)
    (nonzero : magnitude bits ≠ 0) : floatParse (display bits) = .float bits := by
  have read := @decimalParse_text (displayText bits) Binary64.pointed_some
  have power : (displayText bits).power = 0 := rfl
  have value : Binary64.ofDecimal
    (Bytes.digitsValue ((displayText bits).whole ++ (displayText bits).fraction.getD []))
      (0 - (((displayText bits).fraction.getD []).length : Int)) = magnitude bits := by
    rw [Int.zero_sub]
    exact Binary64.ofDecimal_pointed.trans (Binary64.ofDecimal_shortest finite nonzero)
  rw [text_displayText finite nonzero, power, ite_self, negative_displayText] at read
  have fits : Scientific.Fits ⟨isNegative bits,
      Bytes.digitsValue ((displayText bits).whole ++ (displayText bits).fraction.getD []),
      0 - (((displayText bits).fraction.getD []).length : Int)⟩ := by
    rw [Scientific.Fits, value]
    omega
  rw [floatParse_some read fits, Scientific.bits, value, Binary64.withSign_magnitude small]

/-- The text of a finite number is none of the words. -/
lemma display_ne (finite : magnitude bits < infBits) (nonzero : magnitude bits ≠ 0)
    {text rest : Bytes} {negative : Bool}
    (word : Binary64.splitSign text = (negative, 105 :: rest)) :
    display bits ≠ text := by
  rw [← text_displayText finite nonzero]
  exact decimal_ne (displayText bits) word

/-- A displayed score is read as its term. -/
lemma parseFloat_display (small : bits < 2 ^ 64) :
    parseFloat (display bits) = some (scoreTerm bits) := by
  have whole := Binary64.withSign_magnitude small
  rcases Nat.lt_trichotomy (magnitude bits) infBits with finite | infinite | nan
  · have number : isNaN bits = false := decide_eq_false (by omega)
    have term : scoreTerm bits = .float bits := by
      rw [scoreTerm, number, if_neg (by decide), if_neg (by omega)]
    by_cases zero : magnitude bits = 0
    · rw [zero] at whole
      rw [term, Binary64.display_zero zero]
      conv_rhs => rw [← whole]
      cases isNegative bits with
      | true | false => decide +kernel
    · have nan : display bits ≠ ascii "nan" := by
        intro eq
        have float := floatParse_display small finite zero
        have failed : floatParse (ascii "nan") = .failed := by decide
        rw [eq, failed] at float
        cases float
      rw [parseFloat,
        if_neg (not_or.mpr ⟨display_ne finite zero (by rfl), display_ne finite zero (by rfl)⟩),
        if_neg (display_ne finite zero (by rfl)), if_neg nan, floatParse_display small finite zero,
          term]
  · have number : isNaN bits = false := decide_eq_false (by omega)
    rw [scoreTerm, number, if_neg (by decide), if_pos infinite, Binary64.display_infinite infinite]
    cases isNegative bits with
    | true | false => decide
  · have number : isNaN bits = true := decide_eq_true nan
    have text : display bits = ascii "NaN" := if_pos nan
    rw [scoreTerm, number, if_pos rfl, text]
    decide +kernel

end

/-- The storage has the bits of the score that the snapshot has, or zero for a NaN. -/
theorem score_roundTrip (score : UInt64) :
    (parseFloat (display score.toNat)).map TsNif.decodeScore =
      some (if isNaN score.toNat then 0 else score.toNat) := by
  rw [parseFloat_display score.toNat_lt, Option.map_some, decodeScore_scoreTerm score.toNat_lt]

end Veidrodelis.RedisStream
