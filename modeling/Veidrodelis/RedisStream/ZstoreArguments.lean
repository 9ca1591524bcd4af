import Veidrodelis.RedisStream.ScoreStrings
import Veidrodelis.TsNif.RangeStores

/-!
# Arguments of the stores of sorted sets

`ZUNIONSTORE`, `ZINTERSTORE` and `ZDIFFSTORE` with a number of keys, the keys, and what follows
them. The parser drops the number; `parse_zstore_command` takes for keys what stands in front of the
first keyword. So the request is parsed to its command exactly when no key is spelled like a keyword
(`zstore_iff`); the keys of `ZDIFFSTORE`, which has no options, may be spelled in any way.
-/

namespace Veidrodelis.RedisStream
open CommandParser
open RedisNif.ReplicaParser (toUppercase)
open TsNif (Aggregate IsAscii isWord isWord_spec)

/-! ## Requests -/

/-- The text of a weight, as `parse_float` reads it: a number at its front, or an infinity. -/
inductive Weighs : Bytes → ScoreTerm → Prop
  | number {text : Bytes} {bits : Nat} (read : floatParse text = .float bits) :
    Weighs text (.float bits)
  | posInf {text : Bytes} (infinite : text = ascii "inf" ∨ text = ascii "+inf") :
    Weighs text .posInf
  | negInf : Weighs (ascii "-inf") .negInf

/-- `WEIGHTS` and what follows it. -/
inductive WeightArgs : Option (List ScoreTerm) → List Bytes → Prop
  | absent : WeightArgs none []
  | given {texts : List Bytes} {weights : List ScoreTerm}
      (texts_weights : List.Forall₂ Weighs texts weights) :
      WeightArgs (some weights) (ascii "WEIGHTS" :: texts)

/-- The word of a mode, in any case. -/
def modeWord : Aggregate → String
  | .sum => "SUM"
  | .min => "MIN"
  | .max => "MAX"

/-- `AGGREGATE` and what follows it. -/
inductive ModeArgs : Option Aggregate → List Bytes → Prop
  | absent : ModeArgs none []
  | given {mode : Aggregate} {word : Bytes} (isMode : isWord word (modeWord mode)) :
    ModeArgs (some mode) [ascii "AGGREGATE", word]

inductive ZstoreName where
  | union | inter | diff
  deriving DecidableEq

def ZstoreName.text : ZstoreName → Bytes
  | .union => ascii "ZUNIONSTORE"
  | .inter => ascii "ZINTERSTORE"
  | .diff => ascii "ZDIFFSTORE"

/-- A store, its options and their words. -/
structure ZstoreRequest where
  name : ZstoreName
  destination : Bytes
  keys : List Bytes
  some_key : keys ≠ []
  weights : Option (List ScoreTerm)
  weightArgs : List Bytes
  weightArgs_spec : WeightArgs weights weightArgs
  length_weights : ∀ ws, weights = some ws → ws.length = keys.length
  mode : Option Aggregate
  modeArgs : List Bytes
  modeArgs_spec : ModeArgs mode modeArgs
  diff_plain : name = .diff → weights = none ∧ mode = none

/-- The keys, counted, and the options behind them. -/
def ZstoreRequest.args (r : ZstoreRequest) : List Bytes :=
  r.name.text :: r.destination :: Bytes.natText r.keys.length ::
    (r.keys ++ r.weightArgs ++ r.modeArgs)

/-- The weights, 1 for each key if there are none. -/
def ZstoreRequest.allWeights (r : ZstoreRequest) : List ScoreTerm :=
  r.weights.getD (r.keys.map fun _ => .float (Binary64.ofInt 1))

/-- The command that is asked for. -/
def ZstoreRequest.command (r : ZstoreRequest) : Command :=
  match r.name with
  | .union => .zunionstore r.destination r.keys r.allWeights (r.mode.getD .sum)
  | .inter => .zinterstore r.destination r.keys r.allWeights (r.mode.getD .sum)
  | .diff => .zdiffstore r.destination r.keys

def IsZstoreKeyword (key : Bytes) : Prop := key = ascii "WEIGHTS" ∨ key = ascii "AGGREGATE"

instance (key : Bytes) : Decidable (IsZstoreKeyword key) := inferInstanceAs (Decidable (_ ∨ _))

/-! ## Options -/

/-- The text of a weight is read as it. -/
lemma Weighs.parseFloat {text : Bytes} {score : ScoreTerm} (h : Weighs text score) :
    CommandParser.parseFloat text = some score := by
  cases h with
  | number read =>
    have other {word : String} (failed : floatParse (ascii word) = .failed) : text ≠
      ascii word := by
      rintro rfl
      rw [failed] at read
      cases read
    rw [CommandParser.parseFloat, if_neg, if_neg, if_neg, read]
    · exact other (by decide +kernel)
    · exact other (by decide +kernel)
    · exact not_or.mpr ⟨other (by decide +kernel), other (by decide +kernel)⟩
  | posInf infinite => rw [CommandParser.parseFloat, if_pos infinite]
  | negInf => decide +kernel

/-- No weight ends the weights. -/
lemma Weighs.ne_aggregate {text : Bytes} {score : ScoreTerm} (h : Weighs text score) : text ≠
    ascii "AGGREGATE" := by
  rintro rfl
  cases h with
  | number read =>
    have failed : floatParse (ascii "AGGREGATE") = .failed := by decide +kernel
    rw [failed] at read
    cases read
  | posInf infinite => exact absurd infinite (by decide)

/-- The texts of weights are read as them. -/
lemma mapM_parseFloat {texts : List Bytes} {weights : List ScoreTerm}
    (h : List.Forall₂ Weighs texts weights) : texts.mapM parseFloat = some weights := by
  induction h with
  | nil => rfl
  | cons here _ ih =>
    rw [List.mapM_cons, here.parseFloat, ih]
    rfl

/-- No weights have no words. -/
lemma WeightArgs.eq_nil {args : List Bytes} (h : WeightArgs none args) : args = [] := by
  cases h
  rfl

/-- No mode has no words. -/
lemma ModeArgs.eq_nil {args : List Bytes} (h : ModeArgs none args) : args = [] := by
  cases h
  rfl

/-- The mode behind the weights; `sum` if there is none. -/
lemma ModeArgs.parseAggregate {mode : Option Aggregate} {args : List Bytes}
    (h : ModeArgs mode args) :
    CommandParser.parseAggregate args = some (mode.getD .sum) := by
  cases h with
  | absent => rfl
  | given isMode =>
    rename_i mode word
    have upper : toUppercase word = ascii (modeWord mode) :=
      (isWord_spec isMode (by cases mode <;> decide +kernel)).2
    rw [CommandParser.parseAggregate, if_pos rfl, upper]
    cases mode <;> decide

/-- What one side has, the other one has something for. -/
lemma exists_of_forall₂ {α β : Type} {R : α → β → Prop} {as : List α} {bs : List β}
    (h : List.Forall₂ R as bs) {a : α} (mem : a ∈ as) : ∃ b, R a b := by
  induction h with
  | nil => cases mem
  | cons here _ ih =>
    rcases List.mem_cons.mp mem with rfl | later
    · exact ⟨_, here⟩
    · exact ih later

/-! ## Keys -/

/-- The keys end where the parser sees the first keyword. -/
def splitKeywords (args : List Bytes) : List Bytes × List Bytes :=
  (args.takeWhile fun arg => !decide (IsZstoreKeyword arg),
    args.dropWhile fun arg => !decide (IsZstoreKeyword arg))

/-- Without keywords every weight is one, and the mode is the sum. -/
lemma parseZstore_nil {args sources : List Bytes} (split : splitKeywords args = (sources, [])) :
    parseZstore args = some (sources, sources.map fun _ => .float (Binary64.ofInt 1), .sum) := by
  obtain ⟨front, back⟩ := Prod.mk.inj split
  subst front
  unfold parseZstore
  dsimp only
  change args.dropWhile (fun arg => !decide (arg = ascii "WEIGHTS" ∨ arg = ascii "AGGREGATE")) =
    _ at back
  rw [back]
  rfl

/-- The words behind the first keyword are weights, a mode or both. -/
lemma parseZstore_cons {args sources : List Bytes} {keyword : Bytes} {rest : List Bytes}
    (split : splitKeywords args = (sources, keyword :: rest)) : parseZstore args =
      if keyword = ascii "WEIGHTS" then do
        let weights ← (rest.takeWhile (· ≠ ascii "AGGREGATE")).mapM parseFloat
        let aggregate ← parseAggregate (rest.dropWhile (· ≠ ascii "AGGREGATE"))
        return (sources, weights, aggregate)
      else do
        let aggregate ← parseAggregate (keyword :: rest)
        return (sources, sources.map fun _ => .float (Binary64.ofInt 1), aggregate) := by
  obtain ⟨front, back⟩ := Prod.mk.inj split
  subst front
  unfold parseZstore
  dsimp only
  change args.dropWhile (fun arg => !decide (arg = ascii "WEIGHTS" ∨ arg = ascii "AGGREGATE")) =
    _ at back
  rw [back]
  rfl

/-- Whatever the options, the sources are what stands in front of the first keyword. -/
lemma parseZstore_sources {args sources : List Bytes} {weights : List ScoreTerm} {mode : Aggregate}
    (h : parseZstore args = some (sources, weights, mode)) : sources = (splitKeywords args).1 := by
  rcases split : splitKeywords args with ⟨front, back⟩
  cases back with
  | nil =>
    rw [parseZstore_nil split] at h
    cases h
    rfl
  | cons keyword rest =>
    rw [parseZstore_cons split] at h
    split at h
    · obtain ⟨weights', -, h⟩ := Option.bind_eq_some_iff.mp h
      obtain ⟨mode', -, h⟩ := Option.bind_eq_some_iff.mp h
      cases h
      rfl
    · obtain ⟨mode', -, h⟩ := Option.bind_eq_some_iff.mp h
      cases h
      rfl

/-- Keys that are no keywords, in front of a keyword. -/
lemma splitKeywords_append {keys back : List Bytes} (plain : ∀ key ∈ keys, ¬ IsZstoreKeyword key)
    (head : ∀ keyword rest, back = keyword :: rest → IsZstoreKeyword keyword) :
    splitKeywords (keys ++ back) = (keys, back) := by
  have all : ∀ key ∈ keys, (!decide (IsZstoreKeyword key)) = true := by simpa using plain
  have ends : ∀ keyword rest, back = keyword :: rest →
    (!decide (IsZstoreKeyword keyword)) = false := by
    simpa using head
  obtain ⟨front, behind⟩ := takeWhile_append_of_head all ends
  exact Prod.ext front behind

/-- The keys are told from the options if none of them is a keyword. -/
lemma parseZstore_eq {keys weightArgs modeArgs : List Bytes} {weights : Option (List ScoreTerm)}
    {mode : Option Aggregate} (weightArgs_spec : WeightArgs weights weightArgs)
    (modeArgs_spec : ModeArgs mode modeArgs) (plain : ∀ key ∈ keys, ¬ IsZstoreKeyword key) :
    parseZstore (keys ++ weightArgs ++ modeArgs) =
      some (keys, weights.getD (keys.map fun _ => .float (Binary64.ofInt 1)), mode.getD .sum) := by
  rw [List.append_assoc]
  cases weightArgs_spec with
  | absent =>
    rw [List.nil_append]
    cases modeArgs_spec with
    | absent => exact parseZstore_nil (splitKeywords_append plain nofun)
    | given isMode =>
      have read := (ModeArgs.given isMode).parseAggregate
      rw [parseZstore_cons
        (splitKeywords_append plain fun _ _ eq => .inr (List.cons.inj eq).1.symm),
        if_neg (by decide), read]
      rfl
  | given texts_weights =>
    rename_i texts weights
    -- the weights end in front of the mode
    have others : ∀ text ∈ texts, decide (text ≠ ascii "AGGREGATE") = true := by
      intro text mem
      obtain ⟨score, weighs⟩ := exists_of_forall₂ texts_weights mem
      exact decide_eq_true weighs.ne_aggregate
    have ends : ∀ keyword rest, modeArgs = keyword :: rest →
      decide (keyword ≠ ascii "AGGREGATE") = false := by
      rintro keyword rest rfl
      cases modeArgs_spec with
      | given => rfl
    obtain ⟨front, back⟩ := takeWhile_append_of_head others ends
    rw [List.cons_append,
      parseZstore_cons (splitKeywords_append plain fun _ _ eq => .inl (List.cons.inj eq).1.symm),
      if_pos rfl, front, back, mapM_parseFloat texts_weights, modeArgs_spec.parseAggregate]
    rfl

/-! ## The command -/

/-- The stores of unions and intersections are parsed through `parse_zstore_command`. -/
lemma parse_zstore [Graphemes] (r : ZstoreRequest) (sorted : r.name ≠ .diff) :
    parse r.args = (parseZstore (r.keys ++ r.weightArgs ++ r.modeArgs)).map
      fun (sources, weights, mode) =>
      (match r.name with
        | .union => .zunionstore r.destination sources weights mode
        | _ => .zinterstore r.destination sources weights mode, r.destination :: sources) := by
  rw [ZstoreRequest.args]
  cases eq : r.name with
  | union =>
    show (parseZstore _).bind _ = _
    cases parseZstore (r.keys ++ r.weightArgs ++ r.modeArgs) with
    | none => rfl
    | some _ => rfl
  | inter =>
    show (parseZstore _).bind _ = _
    cases parseZstore (r.keys ++ r.weightArgs ++ r.modeArgs) with
    | none => rfl
    | some _ => rfl
  | diff => exact absurd eq sorted

/-- `ZDIFFSTORE` takes all its words for keys. -/
lemma parse_zdiffstore [Graphemes] (r : ZstoreRequest) (diff : r.name = .diff) :
    parse r.args = some (.zdiffstore r.destination r.keys, r.destination :: r.keys) := by
  obtain ⟨noWeights, noMode⟩ := r.diff_plain diff
  have weightArgs : r.weightArgs = [] := (noWeights ▸ r.weightArgs_spec).eq_nil
  have modeArgs : r.modeArgs = [] := (noMode ▸ r.modeArgs_spec).eq_nil
  rw [ZstoreRequest.args, diff, weightArgs, modeArgs, List.append_nil, List.append_nil]
  rfl

/-- The request is parsed to its command exactly when it has no options or no key is spelled like a
keyword. -/
theorem zstore_iff [Graphemes] (r : ZstoreRequest) :
    parse r.args = some (r.command, r.destination :: r.keys)
      ↔ r.name = .diff ∨ ∀ key ∈ r.keys, ¬ IsZstoreKeyword key := by
  by_cases diff : r.name = .diff
  · rw [parse_zdiffstore r diff, ZstoreRequest.command, diff]
    simp
  · rw [parse_zstore r diff]
    constructor
    · intro parsed
      obtain ⟨⟨sources, weights, mode⟩, read, eq⟩ := Option.map_eq_some_iff.mp parsed
      have same : sources = r.keys := (List.cons.inj (Prod.mk.inj eq).2).2
      right
      intro key mem
      rw [← same, parseZstore_sources read] at mem
      simpa using List.mem_takeWhile_imp mem
    · rintro (eq | plain)
      · exact absurd eq diff
      · rw [parseZstore_eq r.weightArgs_spec r.modeArgs_spec plain, ZstoreRequest.command]
        cases eq : r.name with
        | union => rfl
        | inter => rfl
        | diff => exact absurd eq diff

/-- `ZUNIONSTORE dest 1 WEIGHTS` is parsed to a store of no keys. -/
theorem zstore_fails :
    ∃ r : ZstoreRequest, r.args = [ascii "ZUNIONSTORE", ascii "dest", ascii "1", ascii "WEIGHTS"] ∧
      @parse ⟨fun _ => false⟩ r.args =
      some (.zunionstore (ascii "dest") [] [] .sum, [ascii "dest"]) ∧
      @parse ⟨fun _ => false⟩ r.args ≠ some (r.command, r.destination :: r.keys) := by
  refine ⟨⟨.union, ascii "dest", [ascii "WEIGHTS"],
    by decide, none, [], .absent, nofun, none, [], .absent, nofun⟩,
    ?_, ?_, ?_⟩
  · decide +kernel
  · decide +kernel
  · decide +kernel

end Veidrodelis.RedisStream
