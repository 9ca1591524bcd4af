import Veidrodelis.Lib.Lz77
import Veidrodelis.RedisNif.Lzf

/-!
# The LZF format

The compressed format as the comment in `c_src/lzf_c.c` describes it: literal runs of at most 32
octets, and back references to at most 8192 octets before. `lzfLoop_eq_some` says that the
decompressor accepts the sequences of such tokens and nothing else, and writes the text that they
stand for.
-/

namespace Veidrodelis.RedisNif.Lzf
open Lz77

/-- What a control byte announces. -/
inductive Token where
  | literal (run : Bytes) (nonempty : 0 < run.length) (short : run.length ≤ 32)
  | reference (distance octets : Nat) (back : 0 < distance) (near : distance ≤ 8192)
      (long : 3 ≤ octets) (short : octets ≤ 264)

/-- The two or three bytes of a back reference; a length of 9 octets and more has a byte of its
own. -/
def encodeReference (distance octets : Nat) : Bytes :=
  let off := distance - 1
  let len := octets - 2
  if len < 7 then [UInt8.ofNat (off / 256 + len * 32), UInt8.ofNat (off % 256)]
  else [UInt8.ofNat (off / 256 + 7 * 32), UInt8.ofNat (len - 7), UInt8.ofNat (off % 256)]

def Token.encode : Token → Bytes
  | .literal run _ _ => UInt8.ofNat (run.length - 1) :: run
  | .reference distance octets _ _ _ _ => encodeReference distance octets

/-- What a token stands for. -/
def Token.factor : Token → Factor UInt8
  | .literal run _ _ => .literal run
  | .reference distance octets _ _ _ _ => .copy distance octets

/-- A token takes at least one byte. -/
lemma Token.encode_ne_nil (t : Token) : 0 < t.encode.length := by
  cases t with
  | literal => exact Nat.succ_pos _
  | reference =>
    rw [Token.encode, encodeReference]
    split
    · exact Nat.succ_pos _
    · exact Nat.succ_pos _

/-! ## Copies -/

/-- The byte by byte copy is the copy of the grammar. -/
lemma copyBack_extends {text : Bytes} {distance : Nat} (back : 0 < distance)
    (within : distance ≤ text.length) (n : Nat) :
    Extends (.copy distance n) text (copyBack text (text.length - distance) n) := by
  induction n generalizing text with
  | zero => exact extends_copy_zero.mpr ⟨back, within, rfl⟩
  | succ n ih =>
    have inside : text.length - distance < text.length := by omega
    refine extends_copy_succ.mpr ⟨back, within, text[text.length - distance],
      List.getElem?_eq_getElem inside, ?_⟩
    have next := @ih (text ++ [text[text.length - distance]]) (by rw [List.length_append]; omega)
    rw [List.length_append, List.length_singleton, Nat.sub_add_comm within] at next
    rwa [copyBack, List.getD_eq_getElem?_getD, List.getElem?_eq_getElem inside, Option.getD_some]

/-- A copy of the grammar is the byte by byte copy from inside the text. -/
lemma extends_copy_iff {text text' : Bytes} {distance n : Nat} (back : 0 < distance) :
    Extends (.copy distance n) text text' ↔
      distance ≤ text.length ∧ text' = copyBack text (text.length - distance) n := by
  constructor
  · intro ext
    have within : distance ≤ text.length := by
      cases ext with
      | copy _ _ within => exact within
    exact ⟨within, ext.unique (copyBack_extends back within n)⟩
  · rintro ⟨within, rfl⟩
    exact copyBack_extends back within n

/-! ## One token -/

variable {outLen fuel : Nat}

/-- One round of the loop takes a literal run. -/
lemma lzfLoop_literal {run : Bytes} (nonempty : 0 < run.length) (short : run.length ≤ 32)
    (rest text : Bytes) :
    lzfLoop outLen (fuel + 1) ((UInt8.ofNat (run.length - 1) :: run) ++ rest) text =
      if outLen < text.length + run.length then none else lzfLoop outLen fuel rest
        (text ++ run) := by
  have ctrl : (UInt8.ofNat (run.length - 1)).toNat = run.length - 1 := by
    rw [UInt8.toNat_ofNat', Nat.mod_eq_of_lt (by omega)]
  have size : run.length - 1 + 1 = run.length := by omega
  rw [List.cons_append, lzfLoop]
  simp only [ctrl, size]
  rw [if_pos (by omega), List.length_append,
    if_neg (show ¬ run.length + rest.length < run.length by omega), List.drop_left, List.take_left]

/-- One round of the loop takes a back reference. -/
lemma lzfLoop_reference {distance octets : Nat} (back : 0 < distance) (near : distance ≤ 8192)
    (long : 3 ≤ octets) (short : octets ≤ 264) (rest text : Bytes) :
    lzfLoop outLen (fuel + 1) (encodeReference distance octets ++ rest) text =
      if outLen < text.length + octets then none
      else if text.length < distance then none
      else lzfLoop outLen fuel rest (copyBack text (text.length - distance) octets) := by
  have low : (UInt8.ofNat ((distance - 1) % 256)).toNat = (distance - 1) % 256 := by
    rw [UInt8.toNat_ofNat', Nat.mod_eq_of_lt (by omega)]
  have there : (distance - 1) / 256 * 256 + 1 + (distance - 1) % 256 = distance := by omega
  rw [encodeReference]
  by_cases little : octets - 2 < 7
  · have ctrl : (UInt8.ofNat ((distance - 1) / 256 + (octets - 2) * 32)).toNat =
        (distance - 1) / 256 + (octets - 2) * 32 := by
      rw [UInt8.toNat_ofNat', Nat.mod_eq_of_lt (by omega)]
    have len : ((distance - 1) / 256 + (octets - 2) * 32) / 32 = octets - 2 := by omega
    have high : ((distance - 1) / 256 + (octets - 2) * 32) % 32 = (distance - 1) / 256 := by omega
    have whole : octets - 2 + 2 = octets := by omega
    rw [if_pos little, List.cons_append, List.cons_append, List.nil_append, lzfLoop]
    simp only [ctrl, len, high, low, there, Nat.add_assoc, whole]
    rw [if_neg (by omega), if_neg (by omega)]
  · have ctrl : (UInt8.ofNat ((distance - 1) / 256 + 7 * 32)).toNat =
      (distance - 1) / 256 + 7 * 32 := by
      rw [UInt8.toNat_ofNat', Nat.mod_eq_of_lt (by omega)]
    have more : (UInt8.ofNat (octets - 2 - 7)).toNat = octets - 2 - 7 := by
      rw [UInt8.toNat_ofNat', Nat.mod_eq_of_lt (by omega)]
    have len : ((distance - 1) / 256 + 7 * 32) / 32 = 7 := by omega
    have high : ((distance - 1) / 256 + 7 * 32) % 32 = (distance - 1) / 256 := by omega
    have whole : 7 + (octets - 2 - 7) + 2 = octets := by omega
    rw [if_neg little, List.cons_append, List.cons_append, List.cons_append, List.nil_append,
      lzfLoop]
    simp only [ctrl, len, high, low, there, more, Nat.add_assoc] at whole ⊢
    rw [if_neg (by omega), if_pos trivial, whole]

/-- One round of the loop takes a token. -/
lemma Token.lzfLoop_encode {t : Token} {text text' rest : Bytes} (ext : Extends t.factor text text')
    (fits : text'.length ≤ outLen) :
    lzfLoop outLen (fuel + 1) (t.encode ++ rest) text = lzfLoop outLen fuel rest text' := by
  have size := ext.length
  cases t with
  | literal run nonempty short =>
    rw [Token.factor, extends_literal] at ext
    rw [Token.factor, Factor.size] at size
    rw [Token.encode, lzfLoop_literal nonempty short, if_neg (by omega), ext]
  | reference distance octets back near long short =>
    rw [Token.factor, extends_copy_iff back] at ext
    rw [Token.factor, Factor.size] at size
    rw [Token.encode, lzfLoop_reference back near long short, if_neg (by omega),
      if_neg (by omega), ext.2]

/-- A token that goes through extends the text, and does not write more than there is room for. -/
lemma Token.of_lzfLoop {t : Token} {text rest out : Bytes}
    (ok : lzfLoop outLen (fuel + 1) (t.encode ++ rest) text = some out) :
    ∃ text', Extends t.factor text text' ∧ text'.length ≤ outLen ∧
      lzfLoop outLen fuel rest text' = some out := by
  cases t with
  | literal run nonempty short =>
    rw [Token.encode, lzfLoop_literal nonempty short] at ok
    split at ok
    · cases ok
    · rename_i room
      exact ⟨text ++ run, .literal run text, by rw [List.length_append]; omega, ok⟩
  | reference distance octets back near long short =>
    rw [Token.encode, lzfLoop_reference back near long short] at ok
    split at ok
    · cases ok
    · rename_i room
      split at ok
      · cases ok
      · rename_i within
        have ext := copyBack_extends back (Nat.not_lt.mp within) octets
        have size := ext.length
        rw [Factor.size] at size
        exact ⟨_, ext, by omega, ok⟩

/-- An input starts with a token, or is refused. -/
lemma front_cases (ctrl : UInt8) (ip : Bytes) :
    (∃ (t : Token) (rest : Bytes), ctrl :: ip = t.encode ++ rest) ∨
      ∀ outLen fuel text, lzfLoop outLen (fuel + 1) (ctrl :: ip) text = none := by
  have bound : ctrl.toNat < 256 := ctrl.toNat_lt
  by_cases small : ctrl.toNat < 32
  · by_cases cut : ip.length < ctrl.toNat + 1
    · right
      intro outLen fuel text
      rw [lzfLoop]
      simp only [if_pos small, if_pos cut, ite_self]
    · left
      have size : (ip.take (ctrl.toNat + 1)).length = ctrl.toNat + 1 :=
        List.length_take_of_le (Nat.not_lt.mp cut)
      refine ⟨.literal (ip.take (ctrl.toNat + 1)) (by omega) (by omega), ip.drop (ctrl.toNat + 1),
        ?_⟩
      rw [Token.encode, size, Nat.add_sub_cancel, UInt8.ofNat_toNat, List.cons_append,
        List.take_append_drop]
  · by_cases seven : ctrl.toNat / 32 = 7
    · rcases ip with _ | ⟨more, _ | ⟨low, rest⟩⟩
      · right
        intro outLen fuel text
        rw [lzfLoop]
        simp only [if_neg small, if_pos seven]
      · right
        intro outLen fuel text
        rw [lzfLoop]
        simp only [if_neg small, if_pos seven]
      · left
        have b1 := more.toNat_lt
        have b2 := low.toNat_lt
        refine ⟨.reference (ctrl.toNat % 32 * 256 + 1 + low.toNat) (more.toNat + 9)
          (by omega) (by omega) (by omega)
          (by omega), rest, ?_⟩
        have high : (ctrl.toNat % 32 * 256 + 1 + low.toNat - 1) / 256 + 7 * 32 = ctrl.toNat := by
          omega
        have long : more.toNat + 9 - 2 - 7 = more.toNat := by omega
        have off : (ctrl.toNat % 32 * 256 + 1 + low.toNat - 1) % 256 = low.toNat := by omega
        rw [Token.encode, encodeReference, if_neg (by omega), high, long, off, UInt8.ofNat_toNat,
          UInt8.ofNat_toNat, UInt8.ofNat_toNat]
        rfl
    · cases ip with
      | nil =>
        right
        intro outLen fuel text
        rw [lzfLoop]
        simp only [if_neg small, if_neg seven]
      | cons low rest =>
        left
        have b2 := low.toNat_lt
        refine ⟨.reference (ctrl.toNat % 32 * 256 + 1 + low.toNat)
          (ctrl.toNat / 32 + 2) (by omega) (by omega)
          (by omega) (by omega), rest, ?_⟩
        have high : (ctrl.toNat % 32 * 256 + 1 + low.toNat - 1) / 256 + (ctrl.toNat / 32 + 2 - 2) *
          32 = ctrl.toNat := by
          omega
        have off : (ctrl.toNat % 32 * 256 + 1 + low.toNat - 1) % 256 = low.toNat := by omega
        rw [Token.encode, encodeReference, if_pos (by omega), high, off, UInt8.ofNat_toNat,
          UInt8.ofNat_toNat]
        rfl

/-! ## Sequences of tokens -/

/-- The bytes of a sequence of tokens. -/
def encodeAll (tokens : List Token) : Bytes := tokens.flatMap (·.encode)

/-- The text that a sequence of tokens stands for. -/
def StandsFor (tokens : List Token) (text : Bytes) : Prop := Expands (tokens.map (·.factor)) [] text

/-- The loop expands tokens to the text they stand for. -/
lemma lzfLoop_encodeAll {tokens : List Token} {text out : Bytes}
    (fuels : (encodeAll tokens).length ≤ fuel) (exp : Expands (tokens.map (·.factor)) text out)
    (fits : out.length ≤ outLen) : lzfLoop outLen fuel (encodeAll tokens) text = some out := by
  induction tokens generalizing fuel text with
  | nil =>
    rw [expands_nil.mp exp, encodeAll, List.flatMap_nil]
    cases fuel with
    | zero => rfl
    | succ => rfl
  | cons t tokens ih =>
    obtain ⟨text', first, rest⟩ := expands_cons.mp exp
    rw [encodeAll, List.flatMap_cons, List.length_append] at fuels
    have filled := t.encode_ne_nil
    cases fuel with
    | zero => omega
    | succ fuel =>
      rw [encodeAll, List.flatMap_cons, t.lzfLoop_encode first (Nat.le_trans rest.length_le fits)]
      exact ih (by rw [encodeAll]; omega) rest

/-- What the loop accepts is a list of tokens, and the result is their text. -/
lemma tokens_of_lzfLoop {input text out : Bytes} (fuels : input.length ≤ fuel)
    (room : text.length ≤ outLen) (ok : lzfLoop outLen fuel input text = some out) :
    ∃ tokens, encodeAll tokens = input ∧ Expands (tokens.map (·.factor)) text out ∧
      out.length ≤ outLen := by
  induction fuel generalizing input text with
  | zero =>
    rw [List.length_eq_zero_iff.mp (Nat.le_zero.mp fuels), lzfLoop] at *
    cases ok
    exact ⟨[], rfl, .nil _, room⟩
  | succ fuel ih =>
    cases input with
    | nil =>
      rw [lzfLoop] at ok
      cases ok
      exact ⟨[], rfl, .nil _, room⟩
    | cons ctrl ip =>
      rcases front_cases ctrl ip with ⟨t, rest, cut⟩ | refused
      · rw [cut] at ok fuels ⊢
        obtain ⟨text', first, room', ok⟩ := t.of_lzfLoop ok
        have filled := t.encode_ne_nil
        rw [List.length_append] at fuels
        obtain ⟨tokens, rfl, exp, fits⟩ := ih (by omega) room' ok
        exact ⟨t :: tokens, rfl, .cons first exp, fits⟩
      · rw [refused] at ok
        cases ok

/-- The decompressor accepts the sequences of tokens whose text there is room for, and nothing
else. -/
theorem lzfLoop_eq_some {input out : Bytes} : lzfLoop outLen input.length input [] = some out ↔
    ∃ tokens, encodeAll tokens = input ∧ StandsFor tokens out ∧ out.length ≤ outLen := by
  constructor
  · intro ok
    exact tokens_of_lzfLoop (Nat.le_refl _) (Nat.zero_le _) ok
  · rintro ⟨tokens, rfl, exp, fits⟩
    exact lzfLoop_encodeAll (Nat.le_refl _) exp fits

end Veidrodelis.RedisNif.Lzf
