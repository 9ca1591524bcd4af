import Veidrodelis.RedisStream.ZstoreArguments

/-!
# Keywords of the stores of sorted sets

The options of `ZUNIONSTORE` and `ZINTERSTORE` with their keywords in any case.
`parse_zstore_command` compares `WEIGHTS` and `AGGREGATE` literally, so a keyword that is typed in
lower case is taken for a key or for a weight: `upperZstore_iff`.
-/

namespace Veidrodelis.RedisStream
open CommandParser
open RedisNif.ReplicaParser (toUppercase)
open TsNif (Aggregate isWord isWord_spec upperAscii IsAscii)

/-! ## Options -/

/-- A text that is read as a weight. -/
def isWeight (text : Bytes) : Bool := (parseFloat text).isSome && text != ascii "AGGREGATE"

def isMode (word : Bytes) : Bool := ["SUM", "MIN", "MAX"].any (isWord word)

/-- An option, as it is typed: `WEIGHTS` and the weights, or `AGGREGATE` and the mode. -/
inductive ZstoreOption where
  | weights (keyword : Bytes) (texts : List Bytes)
  | mode (keyword word : Bytes)
  deriving DecidableEq

namespace ZstoreOption

def words : ZstoreOption → List Bytes
  | .weights keyword texts => keyword :: texts
  | .mode keyword word => [keyword, word]

/-- Its form in upper case. -/
def upper : ZstoreOption → ZstoreOption
  | .weights keyword texts => .weights (keyword.map upperAscii) texts
  | .mode keyword word => .mode (keyword.map upperAscii) (word.map upperAscii)

/-- It is an option, for a number of keys. -/
def Valid (n : Nat) : ZstoreOption → Prop
  | .weights keyword texts =>
    isWord keyword "WEIGHTS" ∧ texts.length = n ∧ ∀ text ∈ texts, isWeight text
  | .mode keyword word => isWord keyword "AGGREGATE" ∧ isMode word

/-- The keyword is typed in upper case. -/
def Literal : ZstoreOption → Prop
  | .weights keyword _ => keyword = ascii "WEIGHTS"
  | .mode keyword _ => keyword = ascii "AGGREGATE"

end ZstoreOption

/-- Options in any order, up to the end; `none` if something else is there. -/
def readZstoreOptions (n : Nat) : Nat → List Bytes → Option (List ZstoreOption)
  | _, [] => some []
  | 0, _ :: _ => none
  | fuel + 1, keyword :: rest =>
    if isWord keyword "WEIGHTS" then
      if n ≤ rest.length ∧ (rest.take n).all isWeight then
        (readZstoreOptions n fuel (rest.drop n)).map (.weights keyword (rest.take n) :: ·)
      else none
    else
      match rest with
      | [] => none
      | word :: rest =>
        if isWord keyword "AGGREGATE" ∧ isMode word then
          (readZstoreOptions n fuel rest).map (.mode keyword word :: ·)
        else none

/-- The keys and the options, as they are typed. -/
structure ZstoreWords where
  keys : List Bytes
  options : List ZstoreOption

def ZstoreWords.words (z : ZstoreWords) : List Bytes :=
  z.keys ++ z.options.flatMap ZstoreOption.words

def ZstoreWords.upper (z : ZstoreWords) : ZstoreWords :=
  { z with options := z.options.map ZstoreOption.upper }

/-- The number of keys, the keys, and the options. -/
def readZstore (numkeys : Bytes) (rest : List Bytes) : Option ZstoreWords := do
  let n ← Bytes.parseInt numkeys
  if 0 < n ∧ n ≤ rest.length then
    let options ← readZstoreOptions n.toNat rest.length (rest.drop n.toNat)
    return ⟨rest.take n.toNat, options⟩
  else none

/-- The arguments with their keywords in upper case. -/
def upperZstore (numkeys : Bytes) (rest : List Bytes) : List Bytes :=
  match readZstore numkeys rest with
  | some z => z.upper.words
  | none => rest

/-- The keyword of the first mode. -/
def firstMode : List ZstoreOption → Option Bytes
  | [] => none
  | .weights _ _ :: options => firstMode options
  | .mode keyword _ :: _ => some keyword

def FirstModeLiteral (options : List ZstoreOption) : Prop :=
  ∀ keyword, firstMode options = some keyword → keyword = ascii "AGGREGATE"

/-- The first keyword, and that of the first mode, are typed in upper case; unless a key that is
spelled like a keyword has ended the keys before, or the parser raises on a key that it takes for a
weight. -/
def ZstoreWords.Literal (z : ZstoreWords) : Prop :=
  ((∃ key ∈ z.keys, IsZstoreKeyword key) ∨ ∀ option, z.options.head? =
    some option → option.Literal) ∧
  (ascii "AGGREGATE" ∈ z.keys ∨ (z.keys.dropWhile (· ≠ ascii "WEIGHTS")).mapM parseFloat = none ∨
    FirstModeLiteral z.options)

/-! ### Reading -/

/-- The options that are read are the words, and valid. -/
lemma readZstoreOptions_sound {n fuel : Nat} {rest : List Bytes} {options : List ZstoreOption}
    (h : readZstoreOptions n fuel rest = some options) :
    rest = options.flatMap ZstoreOption.words ∧ ∀ option ∈ options, option.Valid n := by
  induction fuel generalizing rest options with
  | zero =>
    cases rest with
    | nil =>
      cases h
      exact ⟨rfl, nofun⟩
    | cons keyword rest => cases h
  | succ fuel ih =>
    cases rest with
    | nil =>
      cases h
      exact ⟨rfl, nofun⟩
    | cons keyword rest =>
      unfold readZstoreOptions at h
      split at h
      · rename_i isWeights
        split at h
        · rename_i found
          obtain ⟨options, read, rfl⟩ := Option.map_eq_some_iff.mp h
          obtain ⟨eq, valid⟩ := ih read
          have here : (ZstoreOption.weights keyword (rest.take n)).Valid n :=
            ⟨isWeights, List.length_take_of_le found.1, List.all_eq_true.mp found.2⟩
          refine ⟨?_, List.forall_mem_cons.mpr ⟨here, valid⟩⟩
          rw [List.flatMap_cons, ← eq, ZstoreOption.words, List.cons_append, List.take_append_drop]
        · cases h
      · cases rest with
        | nil => cases h
        | cons word rest =>
          simp only at h
          split at h
          · rename_i found
            obtain ⟨options, read, rfl⟩ := Option.map_eq_some_iff.mp h
            obtain ⟨eq, valid⟩ := ih read
            refine ⟨?_, List.forall_mem_cons.mpr ⟨found, valid⟩⟩
            rw [List.flatMap_cons, ← eq]
            rfl
          · cases h

/-- The request that is read is the words, and its options are valid. -/
lemma readZstore_sound {numkeys : Bytes} {rest : List Bytes} {z : ZstoreWords}
    (h : readZstore numkeys rest = some z) :
    rest = z.words ∧ ∀ option ∈ z.options, option.Valid z.keys.length := by
  obtain ⟨n, -, h⟩ := Option.bind_eq_some_iff.mp h
  split at h
  · rename_i inside
    obtain ⟨options, read, h⟩ := Option.bind_eq_some_iff.mp h
    cases h
    obtain ⟨eq, valid⟩ := readZstoreOptions_sound read
    have fits : n.toNat ≤ rest.length := by omega
    refine ⟨?_, ?_⟩
    · rw [ZstoreWords.words, ← eq, List.take_append_drop]
    · simpa [fits] using valid
  · cases h

/-- All options of a store are read. -/
lemma readZstoreOptions_words {n fuel : Nat} {options : List ZstoreOption}
    (valid : ∀ option ∈ options, option.Valid n)
    (enough : (options.flatMap ZstoreOption.words).length ≤ fuel) :
    readZstoreOptions n fuel (options.flatMap ZstoreOption.words) = some options := by
  induction options generalizing fuel with
  | nil =>
    unfold readZstoreOptions
    rfl
  | cons option options ih =>
    obtain ⟨here, later⟩ := List.forall_mem_cons.mp valid
    rw [List.flatMap_cons, List.length_append] at enough
    rw [List.flatMap_cons]
    cases option with
    | weights keyword texts =>
      obtain ⟨isKeyword, length, all⟩ := here
      rw [ZstoreOption.words, List.length_cons] at enough
      obtain ⟨fuel, rfl⟩ : ∃ fuel', fuel = fuel' + 1 := ⟨fuel - 1, by omega⟩
      have front : (texts ++ options.flatMap ZstoreOption.words).take n = texts := by
        rw [← length, List.take_left]
      have back : (texts ++ options.flatMap ZstoreOption.words).drop n =
        options.flatMap ZstoreOption.words := by
        rw [← length, List.drop_left]
      have found : n ≤ (texts ++ options.flatMap ZstoreOption.words).length ∧ texts.all isWeight :=
        ⟨by rw [List.length_append]; omega, List.all_eq_true.mpr all⟩
      unfold readZstoreOptions
      rw [ZstoreOption.words, List.cons_append]
      simp only
      rw [if_pos isKeyword, front, back, if_pos found, ih later (by omega)]
      rfl
    | mode keyword word =>
      have noWeights : ¬ isWord keyword "WEIGHTS" = true := by
        intro isKeyword
        have eq := (of_decide_eq_true here.1).symm.trans (of_decide_eq_true isKeyword)
        exact absurd eq (by decide)
      rw [ZstoreOption.words, List.length_cons] at enough
      obtain ⟨fuel, rfl⟩ : ∃ fuel', fuel = fuel' + 1 := ⟨fuel - 1, by omega⟩
      unfold readZstoreOptions
      show (if isWord keyword "WEIGHTS" = true then _ else _) = _
      rw [if_neg noWeights]
      exact (if_pos here).trans (congrArg (Option.map _) (ih later (by omega)))

/-- The arguments of a store are read as what they were typed from. -/
theorem readZstore_words (z : ZstoreWords) (some_key : z.keys ≠ [])
    (valid : ∀ option ∈ z.options, option.Valid z.keys.length) :
    readZstore (Bytes.natText z.keys.length) z.words = some z := by
  have number : Bytes.parseInt (Bytes.natText z.keys.length) = some (z.keys.length : Int) :=
    Bytes.parseInt_intText z.keys.length
  have pos : 0 < z.keys.length := List.length_pos_iff.mpr some_key
  have fits : (0 : Int) < z.keys.length ∧ (z.keys.length : Int) ≤ z.words.length := by
    rw [ZstoreWords.words, List.length_append]
    omega
  rw [readZstore, number, Option.bind_eq_bind, Option.bind_some, if_pos fits, Int.toNat_natCast]
  rw [show z.words.drop z.keys.length = z.options.flatMap ZstoreOption.words from List.drop_left,
    show z.words.take z.keys.length = z.keys from List.take_left,
    readZstoreOptions_words valid (by rw [ZstoreWords.words, List.length_append]; omega)]
  rfl

/-! ## Keywords in any case -/

section
variable {word : Bytes} {option : String}

/-- Upper case twice is upper case. -/
lemma upperAscii_upperAscii (b : UInt8) : upperAscii (upperAscii b) = upperAscii b := by
  by_cases letter : 97 ≤ b ∧ b ≤ 122
  · have same : upperAscii b = b - 32 := if_pos letter
    have low : ¬ (97 ≤ upperAscii b ∧ upperAscii b ≤ 122) := by
      rw [same]
      rintro ⟨low, -⟩
      have lower := UInt8.le_iff_toNat_le.mp letter.1
      have upper := UInt8.le_iff_toNat_le.mp letter.2
      have bound := UInt8.le_iff_toNat_le.mp low
      rw [UInt8.toNat_sub_of_le _ _ (UInt8.le_trans (by decide) letter.1)] at bound
      simp only [UInt8.reduceToNat] at lower upper bound
      omega
    exact if_neg low
  · have same : upperAscii b = b := if_neg letter
    rw [same, same]

/-- A text in upper case stays as it is. -/
lemma map_upper_upper (text : Bytes) :
    (text.map upperAscii).map upperAscii = text.map upperAscii := by
  rw [List.map_map]
  exact List.map_congr_left fun b _ => upperAscii_upperAscii b

/-- A keyword in upper case is the option. -/
lemma map_upper_of_isWord (h : isWord word option) : word.map upperAscii = ascii option :=
  of_decide_eq_true h

/-- A keyword stays one in upper case. -/
lemma isWord_upper (h : isWord word option) : isWord (word.map upperAscii) option := by
  rw [isWord, map_upper_upper]
  exact h

/-- A byte of another letter stays. -/
lemma eq_of_upperAscii {b c : UInt8} (h : upperAscii b = c) (other : 0x7F < c) : b = c := by
  by_cases letter : 97 ≤ b ∧ b ≤ 122
  · have same : upperAscii b = b - 32 := if_pos letter
    rw [same] at h
    have lower := UInt8.le_iff_toNat_le.mp letter.1
    have upper := UInt8.le_iff_toNat_le.mp letter.2
    rw [← h, UInt8.lt_iff_toNat_lt,
      UInt8.toNat_sub_of_le _ _ (UInt8.le_trans (by decide) letter.1)] at other
    simp only [UInt8.reduceToNat] at lower upper other
    omega
  · rwa [show upperAscii b = b from if_neg letter] at h

/-- The Unicode letters with an ASCII letter in upper case are left alone. -/
lemma toUppercase_upper (text : Bytes) : toUppercase (text.map upperAscii) = toUppercase text := by
  fun_induction toUppercase text with
  | case1 rest ih => exact congrArg (83 :: ·) ih
  | case2 rest ih => exact congrArg (73 :: ·) ih
  | case3 b rest other other' ih =>
    rw [List.map_cons, toUppercase]
    · exact congrArg₂ List.cons (upperAscii_upperAscii b) ih
    · intro rest' first second
      cases rest with
      | nil => cases second
      | cons c rest =>
        exact other rest (eq_of_upperAscii first (by decide))
          (by rw [eq_of_upperAscii (List.cons.inj second).1 (by decide)])
    · intro rest' first second
      cases rest with
      | nil => cases second
      | cons c rest =>
        exact other' rest (eq_of_upperAscii first (by decide))
          (by rw [eq_of_upperAscii (List.cons.inj second).1 (by decide)])
  | case4 => rfl

/-- A word that starts with another letter than `i` and `n` is read as 0. -/
lemma parseFloat_word {first : UInt8} {rest : Bytes} (h : isWord word option)
    (eq : ascii option = first :: rest)
    (plain : first ∉ ascii "+-IN" ∧ Bytes.isDigit first = false) : parseFloat word =
      some (.float 0) := by
  have upper := map_upper_of_isWord h
  rw [eq] at upper
  cases word with
  | nil => cases upper
  | cons b bs =>
    have head : upperAscii b = first := (List.cons.inj upper).1
    have ne {c : UInt8} (mem : upperAscii c ∈ ascii "+-IN") : b ≠ c := by
      rintro rfl
      exact plain.1 (head ▸ mem)
    have noDigit : ¬ Bytes.isDigit b = true := by
      intro digit
      rw [(TsNif.digit_plain digit).2] at head
      rw [head, plain.2] at digit
      cases digit
    have absent : decimalParse (b :: bs) = none := by
      rw [decimalParse_eq_none, splitSign_cons (ne (by decide)) (ne (by decide))]
      exact List.takeWhile_cons_of_neg noDigit
    have other (text : Bytes) {c : UInt8} {cs : Bytes} (eq : text = c :: cs)
      (mem : upperAscii c ∈ ascii "+-IN") :
        b :: bs ≠ text := by
      rw [eq]
      exact fun same => ne mem (List.cons.inj same).1
    rw [parseFloat, if_neg, if_neg, if_neg, floatParse_none absent, integerParse_none absent]
    · exact if_neg (by decide +kernel)
    · exact other (ascii "nan") rfl (by decide)
    · exact other (ascii "-inf") rfl (by decide)
    · exact not_or.mpr ⟨other (ascii "inf") rfl (by decide), other (ascii "+inf") rfl (by decide)⟩

end

/-! ## What follows `WEIGHTS` -/

/-- The weights, and the mode behind the first `AGGREGATE`. -/
def behindWeights (rest : List Bytes) : Option (List ScoreTerm × Aggregate) := do
  let weights ← (rest.takeWhile (· ≠ ascii "AGGREGATE")).mapM parseFloat
  let aggregate ← parseAggregate (rest.dropWhile (· ≠ ascii "AGGREGATE"))
  return (weights, aggregate)

section
variable {front back back' : List Bytes}

/-- The mode is read alike from words that compare alike. -/
lemma parseAggregate_congr (h : back.map toUppercase = back'.map toUppercase) :
    parseAggregate (ascii "AGGREGATE" :: back) = parseAggregate (ascii "AGGREGATE" :: back') := by
  cases back with
  | nil =>
    cases back' with
    | nil => rfl
    | cons word' back' => cases h
  | cons word back =>
    cases back' with
    | nil => cases h
    | cons word' back' =>
      have same : toUppercase word = toUppercase word' := (List.cons.inj h).1
      rw [parseAggregate, parseAggregate, same]

/-- In front of `AGGREGATE` there are only weights. -/
lemma behindWeights_append (plain : ascii "AGGREGATE" ∉ front) : behindWeights (front ++ back) =
    (front.mapM parseFloat).bind fun weights =>
      (behindWeights back).map fun (others, mode) => (weights ++ others, mode) := by
  have all : ∀ text ∈ front, decide (text ≠ ascii "AGGREGATE") = true := by
    intro text mem
    exact decide_eq_true fun eq => plain (eq ▸ mem)
  rw [behindWeights, List.takeWhile_append_of_pos all, List.dropWhile_append_of_pos all,
    List.mapM_append]
  cases front.mapM parseFloat with
  | none => rfl
  | some weights =>
    rw [behindWeights]
    cases (back.takeWhile (· ≠ ascii "AGGREGATE")).mapM parseFloat with
    | none => rfl
    | some others =>
      cases parseAggregate (back.dropWhile (· ≠ ascii "AGGREGATE")) with
      | none => rfl
      | some mode => rfl

/-- A mode behind no weights. -/
lemma behindWeights_aggregate :
    behindWeights (ascii "AGGREGATE" :: back) =
    (parseAggregate (ascii "AGGREGATE" :: back)).map ([], ·) := by
  rw [behindWeights, List.takeWhile_cons_of_neg (by decide), List.dropWhile_cons_of_neg (by decide)]
  cases parseAggregate (ascii "AGGREGATE" :: back) with
  | none => rfl
  | some mode => rfl

/-- Behind `AGGREGATE` the case does not matter. -/
lemma behindWeights_congr (mem : ascii "AGGREGATE" ∈ front)
    (h : back.map toUppercase = back'.map toUppercase) :
    behindWeights (front ++ back) = behindWeights (front ++ back') := by
  obtain ⟨before, after, rfl, plain⟩ := List.eq_append_cons_of_mem mem
  rw [List.append_assoc, List.append_assoc, behindWeights_append plain, behindWeights_append plain,
    List.cons_append, List.cons_append, behindWeights_aggregate, behindWeights_aggregate]
  have same : (after ++ back).map toUppercase = (after ++ back').map toUppercase := by
    rw [List.map_append, List.map_append, h]
  rw [parseAggregate_congr same]

end

/-! ## Options in any case -/

section
variable {n : Nat} {options : List ZstoreOption}

/-- The words of an option compare as in upper case. -/
lemma map_toUppercase_upper (option : ZstoreOption) :
    option.upper.words.map toUppercase = option.words.map toUppercase := by
  cases option with
  | weights keyword texts => exact congrArg (· :: texts.map toUppercase) (toUppercase_upper keyword)
  | mode keyword word =>
    exact congrArg₂ (fun a b => [a, b]) (toUppercase_upper keyword) (toUppercase_upper word)

/-- The words of options compare as in upper case. -/
lemma flatMap_toUppercase_upper (options : List ZstoreOption) :
    ((options.map ZstoreOption.upper).flatMap ZstoreOption.words).map toUppercase
      = (options.flatMap ZstoreOption.words).map toUppercase := by
  induction options with
  | nil => rfl
  | cons option options ih =>
    rw [List.map_cons, List.flatMap_cons, List.flatMap_cons, List.map_append, List.map_append, ih,
      map_toUppercase_upper]

/-- The keyword `WEIGHTS` is read as a weight of zero. -/
lemma parseFloat_weights {keyword : Bytes} (h : isWord keyword "WEIGHTS") : parseFloat keyword =
    some (.float 0) :=
  parseFloat_word h rfl (by decide)

/-- The keyword `AGGREGATE` is read as a weight of zero. -/
lemma parseFloat_aggregate {keyword : Bytes} (h : isWord keyword "AGGREGATE") :
    parseFloat keyword = some (.float 0) :=
  parseFloat_word h rfl (by decide)

/-- Weights are read, and do not end the weights. -/
lemma weights_plain {texts : List Bytes} (all : ∀ text ∈ texts, isWeight text = true) :
    ascii "AGGREGATE" ∉ texts ∧ ∃ weights, texts.mapM parseFloat = some weights ∧
    weights.length = texts.length := by
  have each : ∀ text ∈ texts, (∃ score, parseFloat text = some score) ∧
    text ≠ ascii "AGGREGATE" := by
    intro text mem
    have h := all text mem
    rw [isWeight, Bool.and_eq_true, bne_iff_ne] at h
    exact ⟨Option.isSome_iff_exists.mp h.1, h.2⟩
  refine ⟨fun mem => (each _ mem).2 rfl, ?_⟩
  clear all
  induction texts with
  | nil => exact ⟨[], rfl, rfl⟩
  | cons text texts ih =>
    obtain ⟨⟨score, here⟩, -⟩ := each text List.mem_cons_self
    obtain ⟨weights, later, length⟩ := ih fun text mem => each text (List.mem_cons_of_mem _ mem)
    refine ⟨score :: weights, ?_, congrArg (· + 1) length⟩
    rw [List.mapM_cons, here, later]
    rfl

/-- The word of a mode is read as one. -/
lemma mode_read {word : Bytes} (h : isMode word = true) :
    ∃ mode, ∀ rest, parseAggregate (ascii "AGGREGATE" :: word :: rest) = some mode := by
  obtain ⟨option, mem, isOption⟩ := List.any_eq_true.mp h
  have upper (ascii_option : IsAscii (ascii option)) : toUppercase word = ascii option :=
    (isWord_spec isOption ascii_option).2
  simp only [List.mem_cons, List.not_mem_nil, or_false] at mem
  rcases mem with rfl | rfl | rfl
  · refine ⟨.sum, fun rest => ?_⟩
    rw [parseAggregate, if_pos rfl, upper (by decide +kernel)]
    rfl
  · refine ⟨.min, fun rest => ?_⟩
    rw [parseAggregate, if_pos rfl, upper (by decide +kernel)]
    rfl
  · refine ⟨.max, fun rest => ?_⟩
    rw [parseAggregate, if_pos rfl, upper (by decide +kernel)]
    rfl

/-- The word of a mode is not `AGGREGATE`, and is read as a weight of zero. -/
lemma mode_ne {word : Bytes} (h : isMode word = true) :
    word ≠ ascii "AGGREGATE" ∧ parseFloat word = some (.float 0) := by
  obtain ⟨option, mem, isOption⟩ := List.any_eq_true.mp h
  refine ⟨?_, ?_⟩
  · rintro rfl
    exact absurd h (by decide)
  · simp only [List.mem_cons, List.not_mem_nil, or_false] at mem
    rcases mem with rfl | rfl | rfl
    · exact parseFloat_word isOption rfl (by decide)
    · exact parseFloat_word isOption rfl (by decide)
    · exact parseFloat_word isOption rfl (by decide)

/-- The form in upper case is read; so is the one that is typed if its first mode is, and otherwise
it has more weights. The induction is on the options, up to the first mode. -/
lemma behindWeights_options (valid : ∀ option ∈ options, option.Valid n) : ∃ weights mode,
    behindWeights ((options.map ZstoreOption.upper).flatMap ZstoreOption.words) =
    some (weights, mode) ∧
    (FirstModeLiteral options →
      behindWeights (options.flatMap ZstoreOption.words) = some (weights, mode)) ∧
    (¬ FirstModeLiteral options → ∀ weights' mode',
      behindWeights (options.flatMap ZstoreOption.words) = some (weights', mode') →
        weights.length < weights'.length) := by
  induction options with
  | nil => exact ⟨[], .sum, rfl, fun _ => rfl, fun fails => absurd (fun _ => nofun) fails⟩
  | cons option options ih =>
    obtain ⟨here, later⟩ := List.forall_mem_cons.mp valid
    cases option with
    | weights keyword texts =>
      obtain ⟨others, mode, upper, same, more⟩ := ih later
      obtain ⟨isKeyword, -, all⟩ := here
      obtain ⟨plain, weights, read, -⟩ := weights_plain all
      -- `WEIGHTS` itself is read as a weight of 0
      have front {keyword : Bytes} (isKeyword : isWord keyword "WEIGHTS") :
          ascii "AGGREGATE" ∉ keyword :: texts ∧
          (keyword :: texts).mapM parseFloat = some (.float 0 :: weights) := by
        refine ⟨List.not_mem_cons_of_ne_of_not_mem ?_ plain, ?_⟩
        · rintro rfl
          exact absurd isKeyword (by decide)
        · rw [List.mapM_cons, parseFloat_weights isKeyword, read]
          rfl
      have typed := front isKeyword
      have raised := front (isWord_upper isKeyword)
      refine ⟨.float 0 :: weights ++ others, mode, ?_, fun literal => ?_,
        fun shadowed weights' mode' eq => ?_⟩
      · rw [List.map_cons, List.flatMap_cons]
        show behindWeights ((keyword.map upperAscii :: texts) ++ _) = _
        rw [behindWeights_append raised.1, raised.2, upper]
        rfl
      · rw [List.flatMap_cons]
        show behindWeights ((keyword :: texts) ++ _) = _
        rw [behindWeights_append typed.1, typed.2, same literal]
        rfl
      · rw [List.flatMap_cons] at eq
        change behindWeights ((keyword :: texts) ++ _) = _ at eq
        rw [behindWeights_append typed.1, typed.2, Option.bind_some] at eq
        obtain ⟨⟨others', mode''⟩, found, eq⟩ := Option.map_eq_some_iff.mp eq
        cases eq
        have longer := more shadowed _ _ found
        simp only [List.length_append]
        omega
    | mode keyword word =>
      obtain ⟨isKeyword, isMode⟩ := here
      obtain ⟨mode, read⟩ := mode_read isMode
      have aggregate : behindWeights
        (ascii "AGGREGATE" :: word :: options.flatMap ZstoreOption.words)
          = some ([], mode) := by
        rw [behindWeights_aggregate, read]
        rfl
      refine ⟨[], mode, ?_, fun literal => ?_, fun shadowed weights' mode' eq => ?_⟩
      · generalize raised : (options.map ZstoreOption.upper).flatMap ZstoreOption.words = rest
        have same : (word.map upperAscii :: rest).map toUppercase =
          (word :: rest).map toUppercase :=
          congrArg (· :: rest.map toUppercase) (toUppercase_upper word)
        rw [List.map_cons, List.flatMap_cons, raised]
        show behindWeights (keyword.map upperAscii :: word.map upperAscii :: rest) = _
        rw [map_upper_of_isWord isKeyword, behindWeights_aggregate, parseAggregate_congr same, read]
        rfl
      · have eq : keyword = ascii "AGGREGATE" := literal keyword rfl
        rw [eq]
        exact aggregate
      · -- a keyword that is not literal is read as a weight, and so is its mode
        have ne : keyword ≠ ascii "AGGREGATE" := by
          rintro rfl
          exact shadowed fun _ eq => (Option.some.inj eq).symm
        obtain ⟨ne', zero⟩ := mode_ne isMode
        change behindWeights ([keyword, word] ++ _) = _ at eq
        rw [behindWeights_append (by simp [ne.symm, ne'.symm]), List.mapM_cons, List.mapM_cons,
          parseFloat_aggregate isKeyword, zero] at eq
        obtain ⟨⟨others, mode''⟩, -, eq⟩ := Option.map_eq_some_iff.mp eq
        cases eq
        simp

end

/-! ## The arguments of a store -/

section
variable {args sources rest : List Bytes}

/-- Behind the keys come the weights. -/
lemma parseZstore_weights (split : splitKeywords args = (sources, ascii "WEIGHTS" :: rest)) :
    parseZstore args = (behindWeights rest).map
      fun (weights, mode) => (sources, weights, mode) := by
  rw [parseZstore_cons split, if_pos rfl, behindWeights]
  cases (rest.takeWhile (· ≠ ascii "AGGREGATE")).mapM parseFloat with
  | none => rfl
  | some weights =>
    cases parseAggregate (rest.dropWhile (· ≠ ascii "AGGREGATE")) with
    | none => rfl
    | some mode => rfl

/-- Behind the keys comes the mode. -/
lemma parseZstore_aggregate (split : splitKeywords args = (sources, ascii "AGGREGATE" :: rest)) :
    parseZstore args = (parseAggregate (ascii "AGGREGATE" :: rest)).map fun mode =>
      (sources, sources.map fun _ => .float (Binary64.ofInt 1), mode) := by
  rw [parseZstore_cons split, if_neg (by decide)]
  cases parseAggregate (ascii "AGGREGATE" :: rest) with
  | none => rfl
  | some mode => rfl

/-- Weights that are read, in front of options. -/
lemma behindWeights_iff {n : Nat} {front : List Bytes} {weights : List ScoreTerm}
    {options : List ZstoreOption} (plain : ascii "AGGREGATE" ∉ front)
    (read : front.mapM parseFloat = some weights) (valid : ∀ option ∈ options, option.Valid n) :
    behindWeights (front ++ options.flatMap ZstoreOption.words)
        = behindWeights (front ++ (options.map ZstoreOption.upper).flatMap ZstoreOption.words)
      ↔ FirstModeLiteral options := by
  obtain ⟨others, mode, upper, same, more⟩ := behindWeights_options valid
  rw [behindWeights_append plain, behindWeights_append plain, read, upper]
  constructor
  · intro eq
    by_contra not
    obtain ⟨⟨others', mode'⟩, typed, eq⟩ := Option.map_eq_some_iff.mp eq
    have longer := more not others' mode' typed
    have length := congrArg List.length (Prod.mk.inj eq).1
    simp only [List.length_append] at length
    omega
  · intro literal
    rw [same literal]

/-- Some key is read besides the keys if the first keyword is not typed in upper case. -/
lemma parseZstore_longer {keys : List Bytes} {keyword : Bytes} {weights : List ScoreTerm}
    {mode : Aggregate} (plain : ∀ key ∈ keys, ¬ IsZstoreKeyword key)
    (other : ¬ IsZstoreKeyword keyword) :
    parseZstore (keys ++ keyword :: rest) ≠ some (keys, weights, mode) := by
  intro read
  have more : ∀ key ∈ keys ++ [keyword], !decide (IsZstoreKeyword key) := by
    intro key mem
    rcases List.mem_append.mp mem with mem | mem
    · simpa using plain key mem
    · rw [List.mem_singleton.mp mem]
      simpa using other
  have sources := congrArg List.length (parseZstore_sources read)
  rw [List.append_cons, splitKeywords, List.takeWhile_append_of_pos more] at sources
  simp only [List.length_append, List.length_singleton] at sources
  omega

/-- An option that is not literal does not begin with a keyword of the parser. -/
lemma not_isZstoreKeyword {option : ZstoreOption} {n : Nat} (valid : option.Valid n)
    (other : ¬ option.Literal) :
    ∃ keyword rest, option.words = keyword :: rest ∧ ¬ IsZstoreKeyword keyword := by
  cases option with
  | weights keyword texts =>
    refine ⟨keyword, texts, rfl, not_or.mpr ⟨other, ?_⟩⟩
    rintro rfl
    exact absurd valid.1 (by decide)
  | mode keyword word =>
    refine ⟨keyword, [word], rfl, not_or.mpr ⟨?_, other⟩⟩
    rintro rfl
    exact absurd valid.1 (by decide)

/-- Plain keys end at the weights. -/
lemma parseZstore_front_weights {keys : List Bytes} (plain : ∀ key ∈ keys, ¬ IsZstoreKeyword key) :
    parseZstore (keys ++ ascii "WEIGHTS" :: rest)
      = (behindWeights rest).map fun (weights, mode) => (keys, weights, mode) :=
  parseZstore_weights (splitKeywords_append plain fun _ _ eq => .inl (List.cons.inj eq).1.symm)

/-- Plain keys end at the mode. -/
lemma parseZstore_front_aggregate {keys : List Bytes}
    (plain : ∀ key ∈ keys, ¬ IsZstoreKeyword key) :
    parseZstore (keys ++ ascii "AGGREGATE" :: rest) =
      (parseAggregate (ascii "AGGREGATE" :: rest)).map fun mode =>
      (keys, keys.map fun _ => .float (Binary64.ofInt 1), mode) :=
  parseZstore_aggregate (splitKeywords_append plain fun _ _ eq => .inr (List.cons.inj eq).1.symm)

/-- With the first keyword in upper case exactly the keys are read. -/
lemma parseZstore_front {n : Nat} {keys : List Bytes} {option : ZstoreOption}
    {options : List ZstoreOption} (plain : ∀ key ∈ keys, ¬ IsZstoreKeyword key)
    (here : option.Valid n) (later : ∀ option ∈ options, option.Valid n) :
    ∃ weights mode,
      parseZstore (keys ++
      (option.upper.words ++ (options.map ZstoreOption.upper).flatMap ZstoreOption.words)) =
      some (keys, weights, mode) := by
  cases option with
  | weights keyword texts =>
    obtain ⟨plainTexts, weights, read, -⟩ := weights_plain here.2.2
    obtain ⟨others, mode, upper, -⟩ := behindWeights_options later
    refine ⟨weights ++ others, mode, ?_⟩
    show parseZstore (keys ++ keyword.map upperAscii :: (texts ++ _)) = _
    rw [map_upper_of_isWord here.1, parseZstore_front_weights plain,
      behindWeights_append plainTexts, read, upper]
    rfl
  | mode keyword word =>
    have isMode : isMode (word.map upperAscii) = true := by
      obtain ⟨option, mem, isOption⟩ := List.any_eq_true.mp here.2
      exact List.any_eq_true.mpr ⟨option, mem, isWord_upper isOption⟩
    obtain ⟨mode, read⟩ := mode_read isMode
    refine ⟨keys.map fun _ => .float (Binary64.ofInt 1), mode, ?_⟩
    show parseZstore (keys ++ keyword.map upperAscii :: (word.map upperAscii :: _)) = _
    rw [map_upper_of_isWord here.1, parseZstore_front_aggregate plain, read]
    rfl

/-- Keys that are no keywords, in front of the options. -/
lemma parseZstore_plain_iff {n : Nat} {keys : List Bytes} {options : List ZstoreOption}
    (plain : ∀ key ∈ keys, ¬ IsZstoreKeyword key) (valid : ∀ option ∈ options, option.Valid n) :
    parseZstore (keys ++ options.flatMap ZstoreOption.words)
        = parseZstore (keys ++ (options.map ZstoreOption.upper).flatMap ZstoreOption.words)
      ↔ (∀ option, options.head? = some option → option.Literal) ∧ FirstModeLiteral options := by
  cases options with
  | nil => exact iff_of_true rfl ⟨nofun, nofun⟩
  | cons option options =>
    obtain ⟨here, later⟩ := List.forall_mem_cons.mp valid
    have head : (∀ o, (option :: options).head? = some o → o.Literal) ↔ option.Literal :=
      ⟨fun all => all option rfl, fun literal _ eq => Option.some.inj eq ▸ literal⟩
    rw [head, List.map_cons, List.flatMap_cons, List.flatMap_cons]
    by_cases literal : option.Literal
    · rw [and_iff_right literal]
      cases option with
      | weights keyword texts =>
        obtain rfl : keyword = ascii "WEIGHTS" := literal
        obtain ⟨plainTexts, weights, read, -⟩ := weights_plain here.2.2
        have injective : Function.Injective fun p :
          List ScoreTerm × Aggregate => (keys, p.1, p.2) :=
          fun _ _ eq => (Prod.mk.inj eq).2
        show parseZstore (keys ++ ascii "WEIGHTS" :: (texts ++ _))
          = parseZstore (keys ++ ascii "WEIGHTS" :: (texts ++ _)) ↔ _
        rw [parseZstore_front_weights plain, parseZstore_front_weights plain]
        exact (Option.map_injective injective).eq_iff.trans
          (behindWeights_iff plainTexts read later)
      | mode keyword word =>
        obtain rfl : keyword = ascii "AGGREGATE" := literal
        have same : (word :: options.flatMap ZstoreOption.words).map toUppercase
            = (word.map upperAscii ::
            (options.map ZstoreOption.upper).flatMap ZstoreOption.words).map toUppercase :=
          congrArg₂ List.cons (toUppercase_upper word).symm (flatMap_toUppercase_upper options).symm
        refine iff_of_true ?_ fun _ eq => (Option.some.inj eq).symm
        show parseZstore (keys ++ ascii "AGGREGATE" ::
          (word :: options.flatMap ZstoreOption.words)) = parseZstore
          (keys ++ ascii "AGGREGATE" ::
            (word.map upperAscii :: (options.map ZstoreOption.upper).flatMap _))
        rw [parseZstore_front_aggregate plain, parseZstore_front_aggregate plain,
          parseAggregate_congr same]
    · refine iff_of_false ?_ fun both => literal both.1
      obtain ⟨weights, mode, read⟩ := parseZstore_front plain here later
      obtain ⟨keyword, rest, words, other⟩ := not_isZstoreKeyword here literal
      rw [read, words]
      exact parseZstore_longer plain other

/-- Behind a key that is spelled like a keyword. -/
lemma parseZstore_behind_iff {n : Nat} {front later : List Bytes} {key : Bytes}
    {options : List ZstoreOption} (plain : ∀ key ∈ front, ¬ IsZstoreKeyword key)
    (isKeyword : IsZstoreKeyword key) (valid : ∀ option ∈ options, option.Valid n) :
    parseZstore ((front ++ key :: later) ++ options.flatMap ZstoreOption.words)
        = parseZstore ((front ++ key :: later) ++
        (options.map ZstoreOption.upper).flatMap ZstoreOption.words)
      ↔ ascii "AGGREGATE" ∈ key :: later ∨ later.mapM parseFloat = none ∨
        FirstModeLiteral options := by
  have same := (flatMap_toUppercase_upper options).symm
  rw [List.append_assoc, List.append_assoc, List.cons_append, List.cons_append]
  rcases isKeyword with rfl | rfl
  · rw [parseZstore_front_weights plain, parseZstore_front_weights plain]
    by_cases aggregate : ascii "AGGREGATE" ∈ later
    · rw [behindWeights_congr aggregate same]
      exact iff_of_true rfl (.inl (List.mem_cons_of_mem _ aggregate))
    have nowhere : ascii "AGGREGATE" ∉ ascii "WEIGHTS" :: later :=
      List.not_mem_cons_of_ne_of_not_mem (by decide) aggregate
    rw [or_iff_right nowhere]
    cases read : later.mapM parseFloat with
    | none =>
      rw [behindWeights_append aggregate, behindWeights_append aggregate, read]
      exact iff_of_true rfl (.inl rfl)
    | some weights =>
      have injective : Function.Injective fun p : List ScoreTerm × Aggregate => (front, p.1, p.2) :=
        fun _ _ eq => (Prod.mk.inj eq).2
      rw [or_iff_right (by simp)]
      exact (Option.map_injective injective).eq_iff.trans (behindWeights_iff aggregate read valid)
  · rw [parseZstore_front_aggregate plain, parseZstore_front_aggregate plain]
    refine iff_of_true ?_ (.inl List.mem_cons_self)
    rw [parseAggregate_congr]
    rw [List.map_append, List.map_append, same]

/-- The arguments are parsed like those with keywords in upper case exactly when the keywords that
are compared literally are in upper case. -/
lemma parseZstore_upper_iff {n : Nat} (z : ZstoreWords)
    (valid : ∀ option ∈ z.options, option.Valid n) :
    parseZstore z.words = parseZstore z.upper.words ↔ z.Literal := by
  rw [ZstoreWords.words, ZstoreWords.words, ZstoreWords.upper, ZstoreWords.Literal]
  obtain ⟨keys, options⟩ := z
  by_cases plain : ∀ key ∈ keys, ¬ IsZstoreKeyword key
  · have noKeyword : ¬ ∃ key ∈ keys, IsZstoreKeyword key :=
      fun ⟨key, mem, isKeyword⟩ => plain key mem isKeyword
    have noMode : ascii "AGGREGATE" ∉ keys := fun mem => plain _ mem (.inr rfl)
    have noWeights : keys.dropWhile (· ≠ ascii "WEIGHTS") = [] := by
      rw [List.dropWhile_eq_nil_iff]
      intro key mem
      exact decide_eq_true fun eq => plain key mem (.inl eq)
    rw [parseZstore_plain_iff plain valid, or_iff_right noKeyword, or_iff_right noMode, noWeights,
      or_iff_right (by simp)]
  · -- a key is spelled like a keyword, and the first such key is taken for one
    obtain ⟨key, found⟩ : ∃ key, keys.find? (fun key => decide (IsZstoreKeyword key)) =
      some key := by
      rw [← Option.isSome_iff_exists, List.find?_isSome]
      simpa using plain
    obtain ⟨isKeyword, front, later, rfl, before⟩ := List.find?_eq_some_iff_append.mp found
    have isKeyword : IsZstoreKeyword key := of_decide_eq_true isKeyword
    have before : ∀ key ∈ front, ¬ IsZstoreKeyword key := by simpa using before
    have exist : ∃ key' ∈ front ++ key :: later, IsZstoreKeyword key' := ⟨key, by simp, isKeyword⟩
    have noMode : ascii "AGGREGATE" ∉ front := fun mem => before _ mem (.inr rfl)
    have others : ∀ key ∈ front, decide (key ≠ ascii "WEIGHTS") = true :=
      fun key mem => decide_eq_true fun eq => before key mem (.inl eq)
    rw [parseZstore_behind_iff before isKeyword valid, and_iff_right (.inl exist), List.mem_append,
      or_iff_right noMode, List.dropWhile_append_of_pos others]
    rcases isKeyword with rfl | rfl
    · have zero : parseFloat (ascii "WEIGHTS") = Option.some (.float 0) :=
        parseFloat_weights (by decide)
      rw [List.dropWhile_cons_of_neg (by decide), List.mapM_cons, zero]
      cases later.mapM parseFloat with
      | none => exact Iff.rfl
      | some weights => simp
    · exact iff_of_true (.inl List.mem_cons_self) (.inl List.mem_cons_self)

end

/-- The words are parsed alike in upper case just where their keywords are literal. -/
lemma upperZstore_iff (numkeys : Bytes) (rest : List Bytes) :
    parseZstore rest = parseZstore (upperZstore numkeys rest)
      ↔ ∀ z, readZstore numkeys rest = some z → z.Literal := by
  rw [upperZstore]
  cases read : readZstore numkeys rest with
  | none => exact iff_of_true rfl nofun
  | some z =>
    obtain ⟨rfl, valid⟩ := readZstore_sound read
    rw [parseZstore_upper_iff z valid]
    exact ⟨fun literal _ eq => Option.some.inj eq ▸ literal, fun all => all z rfl⟩

end Veidrodelis.RedisStream
