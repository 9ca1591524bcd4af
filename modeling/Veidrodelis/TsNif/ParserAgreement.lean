import Veidrodelis.TsNif.CommandTuples

/-!
# The parser and the dispatcher

`command_parser.ex` makes tuples that `write_commands.rs` takes apart. The two tables do not agree
everywhere: the dispatcher has no row for three names, takes a float where the parser may put an
atom, and has machine integers and strings where the parser has integers and binaries. `Agreed` says
this about the arguments of the replicated command, as they are received.
-/

namespace Veidrodelis.TsNif
open RedisNif.ReplicaParser (toUppercase)
open RedisStream
open RedisStream.CommandParser hiding parseLexBound parseScoreBound
open WriteCommands (dispatchWriteCommand executeTerm)

/-! ## What the handlers demand -/

/-- What is demanded of the text of an argument. -/
inductive Demand where
  | signed
  | unsigned
  | finite
  | bound
  | text
  deriving DecidableEq, Repr

/-- An integer of 64 bits; a number that is no infinity; a bound that does not exclude an infinity;
UTF-8. -/
def Demand.meets [Graphemes] : Demand → Bytes → Bool
  | signed, arg => (Bytes.parseInt arg).any fun i => (decodeI64 i).isSome
  | unsigned, arg => (Bytes.parseInt arg).any fun i => (decodeU64 i).isSome
  | finite, arg => arg ∉ [ascii "inf", ascii "+inf", ascii "-inf", ascii "nan"]
  | bound, arg =>
    !((ascii "(").isPrefixOf arg && sliceRest arg ∈ [ascii "inf", ascii "+inf", ascii "-inf"])
  | text, arg => Bytes.validUtf8 arg

/-- The demand on one argument, if it is there. -/
def demandAt (i : Nat) (demand : Demand) (args : List Bytes) : List (Demand × Bytes) :=
  args[i]?.toList.map fun arg => (demand, arg)

/-- The texts of the weights, behind the source keys. -/
def weightTexts (args : List Bytes) : List Bytes :=
  match args.dropWhile fun arg => !decide (arg = ascii "WEIGHTS" ∨ arg = ascii "AGGREGATE") with
  | keyword :: rest =>
    if keyword = ascii "WEIGHTS" then rest.takeWhile (· ≠ ascii "AGGREGATE") else []
  | [] => []

/-- The demands on the arguments of a command. -/
def demands (name : Bytes) (args : List Bytes) : List (Demand × Bytes) :=
  if name ∈ [ascii "SETRANGE", ascii "LPOP", ascii "RPOP", ascii "ZPOPMAX",
    ascii "ZPOPMIN", ascii "MOVE"] then
    demandAt 1 .unsigned args
  else if name ∈ [ascii "INCRBY", ascii "DECRBY", ascii "LREM", ascii "LSET"] then demandAt
    1 .signed args
  else if name ∈ [ascii "LTRIM", ascii "ZREMRANGEBYRANK"] then demandAt 1 .signed args ++
    demandAt 2 .signed args
  else if name = ascii "HINCRBY" then demandAt 2 .signed args
  else if name = ascii "SWAPDB" then demandAt 0 .unsigned args ++ demandAt 1 .unsigned args
  else if name = ascii "ZINCRBY" then demandAt 1 .finite args
  else if name ∈ [ascii "ZUNIONSTORE", ascii "ZINTERSTORE"] then
    (weightTexts (args.drop 2)).map fun arg => (.finite, arg)
  else if name = ascii "ZREMRANGEBYSCORE" then demandAt 1 .bound args ++ demandAt 2 .bound args
  else if name = ascii "ZRANGESTORE" then
    demandAt 2 .text args ++ demandAt 3 .text args ++ (args.drop 4).map
      fun arg => (.text, toUppercase arg)
  else []

/-- The names that the dispatcher has no row for. -/
def missingNames : List Bytes := [ascii "SETBIT", ascii "HPEXPIREAT", ascii "HPERSIST"]

/-- The dispatcher has a row for the name, and the arguments meet its demands. -/
def Agreed [Graphemes] : List Bytes → Prop
  | [] => True
  | name :: args => name ∉ missingNames ∧ ((demands name args).all fun p => p.1.meets p.2) = true

/-! ## What the parser makes of the arguments -/

section
variable [Graphemes] {name : Bytes} {args : List Bytes}

/-- A tuple decodes when the arguments that it was made of are agreed on. -/
def Settles (name : Bytes) (args : List Bytes) (parsed : Parsed) : Prop :=
  ∀ command keys, parsed = some (command, keys) → (∀ rest, command ≠ .generic rest) →
    (decodes command = true ↔ Agreed (name :: args))

/-- Where nothing is parsed, nothing is to be settled. -/
lemma settles_none : Settles name args none := nofun

/-- A generic command is settled. -/
lemma settles_generic {rest keys : List Bytes} :
    Settles name args (some (.generic rest, keys)) := by
  rintro _ _ ⟨⟩ known
  exact absurd rfl (known rest)

/-- A choice between clauses that settle. -/
lemma settles_ite {c : Prop} [Decidable c] {x y : Parsed} (h : c → Settles name args x)
    (h' : Settles name args y) : Settles name args (if c then x else y) := by
  split
  · rename_i here
    exact h here
  · exact h'

/-- A clause behind a value that may be missing. -/
lemma settles_bind {α : Type} {x : Option α} {f : α → Parsed}
    (h : ∀ a, x = some a → Settles name args (f a)) : Settles name args (x.bind f) := by
  cases x with
  | none => exact settles_none
  | some a => exact h a rfl

/-- A command made of a value that may be missing. -/
lemma settles_map {α : Type} {x : Option α} {f : α → Command × List Bytes}
    (h : ∀ a, Settles name args (some (f a))) : Settles name args (x.map f) := by
  cases x with
  | none => exact settles_none
  | some a => exact h a

/-- A command whose arguments decode as demanded is settled. -/
lemma settles_of {command : Command} {keys : List Bytes} (known : name ∉ missingNames)
    (h : decodes command = (demands name args).all fun p => p.1.meets p.2) :
    Settles name args (some (command, keys)) := by
  rintro _ _ ⟨⟩ _
  rw [h]
  exact (and_iff_right known).symm

/-- A command without a handler is settled. -/
lemma settles_missing {command : Command} {keys : List Bytes} (missing : name ∈ missingNames)
    (h : decodes command = false) : Settles name args (some (command, keys)) := by
  rintro _ _ ⟨⟩ _
  rw [h]
  exact iff_of_false Bool.false_ne_true fun agreed => agreed.1 missing

/-! ### Numbers -/

variable {arg arg' : Bytes} {n n' : Int}

/-- An argument that is an unsigned integer decodes as demanded. -/
lemma all_unsigned (eq : Bytes.parseInt arg = some n) :
    ([(Demand.unsigned, arg)].all fun p => p.1.meets p.2) = (decodeU64 n).isSome := by
  rw [List.all_cons, List.all_nil, Bool.and_true, Demand.meets, eq, Option.any_some]

/-- An argument that is a signed integer decodes as demanded. -/
lemma all_signed (eq : Bytes.parseInt arg = some n) :
    ([(Demand.signed, arg)].all fun p => p.1.meets p.2) = (decodeI64 n).isSome := by
  rw [List.all_cons, List.all_nil, Bool.and_true, Demand.meets, eq, Option.any_some]

/-- Two signed integers decode as demanded. -/
lemma all_signed_two (eq : Bytes.parseInt arg = some n) (eq' : Bytes.parseInt arg' = some n') :
    ([(Demand.signed, arg), (Demand.signed, arg')].all fun p => p.1.meets p.2) =
      ((decodeI64 n).isSome && (decodeI64 n').isSome) := by
  rw [List.all_cons, all_signed eq', Demand.meets, eq, Option.any_some]

/-- Two unsigned integers decode as demanded. -/
lemma all_unsigned_two (eq : Bytes.parseInt arg = some n) (eq' : Bytes.parseInt arg' = some n') :
    ([(Demand.unsigned, arg), (Demand.unsigned, arg')].all fun p => p.1.meets p.2) =
      ((decodeU64 n).isSome && (decodeU64 n').isSome) := by
  rw [List.all_cons, all_unsigned eq', Demand.meets, eq, Option.any_some]

/-! ### Scores and bounds -/

/-- A score is an atom for the words of the infinities and of no number only. -/
lemma isSome_decodeF64 {s : ScoreTerm} (eq : parseFloat arg = some s) :
    (decodeF64 s).isSome = Demand.finite.meets arg := by
  unfold parseFloat at eq
  simp only [Demand.meets, List.mem_cons, List.not_mem_nil, or_false]
  by_cases posInf : arg = ascii "inf" ∨ arg = ascii "+inf"
  · rw [if_pos posInf] at eq
    cases eq
    refine (decide_eq_false (not_not.mpr ?_)).symm
    exact posInf.elim .inl fun plus => .inr (.inl plus)
  · rw [if_neg posInf] at eq
    by_cases negInf : arg = ascii "-inf"
    · rw [if_pos negInf] at eq
      cases eq
      exact (decide_eq_false (not_not.mpr (.inr (.inr (.inl negInf))))).symm
    · rw [if_neg negInf] at eq
      by_cases nan : arg = ascii "nan"
      · rw [if_pos nan] at eq
        cases eq
        exact (decide_eq_false (not_not.mpr (.inr (.inr (.inr nan))))).symm
      · rw [if_neg nan] at eq
        have float : ∃ bits, s = .float bits := by
          split at eq
          · cases eq
            exact ⟨_, rfl⟩
          · split at eq
            · cases eq
            · cases eq
              exact ⟨_, rfl⟩
          · cases eq
        obtain ⟨bits, rfl⟩ := float
        refine (decide_eq_true ?_).symm
        tauto

/-- An argument that is a score decodes as demanded. -/
lemma all_finite {s : ScoreTerm} (eq : parseFloat arg = some s) :
    ([(Demand.finite, arg)].all fun p => p.1.meets p.2) = (decodeF64 s).isSome := by
  rw [List.all_cons, List.all_nil, Bool.and_true, isSome_decodeF64 eq]

/-- The weights decode when none of their words is one of these. -/
lemma all_weights {words : List Bytes} {weights : List ScoreTerm}
    (eq : words.mapM parseFloat = some weights) :
    ((words.map fun arg => (Demand.finite, arg)).all fun p => p.1.meets p.2) =
      (weights.mapM decodeF64).isSome := by
  induction words generalizing weights with
  | nil =>
    cases eq
    rfl
  | cons word words ih =>
    rw [List.mapM_cons] at eq
    obtain ⟨s, here, eq⟩ := Option.bind_eq_some_iff.mp eq
    obtain ⟨rest, there, eq⟩ := Option.bind_eq_some_iff.mp eq
    cases eq
    rw [List.map_cons, List.all_cons, ih there, List.mapM_cons, ← isSome_decodeF64 here]
    cases decodeF64 s with
    | none => rfl
    | some bits =>
      cases rest.mapM decodeF64 with
      | none => rfl
      | some _ => rfl

omit [Graphemes] in
/-- The weights that are filled in are floats. -/
lemma isSome_ones (sources : List Bytes) :
    ((sources.map fun _ => ScoreTerm.float (Binary64.ofInt 1)).mapM decodeF64).isSome = true := by
  induction sources with
  | nil => rfl
  | cons key sources ih =>
    obtain ⟨ones, eq⟩ := Option.isSome_iff_exists.mp ih
    rw [List.map_cons, List.mapM_cons, eq]
    rfl

/-- The weights decode as demanded. -/
lemma all_zstore {rest sources : List Bytes} {weights : List ScoreTerm} {aggregate : Aggregate}
    (eq : parseZstore rest = some (sources, weights, aggregate)) :
    (((weightTexts rest).map fun arg => (Demand.finite, arg)).all fun p => p.1.meets p.2) =
      (weights.mapM decodeF64).isSome := by
  unfold parseZstore at eq
  dsimp only at eq
  unfold weightTexts
  cases options : rest.dropWhile fun arg => !decide (arg = ascii "WEIGHTS" ∨
    arg = ascii "AGGREGATE") with
  | cons keyword words =>
    rw [options] at eq
    dsimp only at eq ⊢
    by_cases weighted : keyword = ascii "WEIGHTS"
    · rw [if_pos weighted] at eq
      rw [if_pos weighted]
      obtain ⟨weights', found, eq⟩ := Option.bind_eq_some_iff.mp eq
      obtain ⟨mode, _, eq⟩ := Option.bind_eq_some_iff.mp eq
      cases eq
      exact all_weights found
    · rw [if_neg weighted] at eq
      rw [if_neg weighted]
      obtain ⟨mode, _, eq⟩ := Option.bind_eq_some_iff.mp eq
      cases eq
      exact (isSome_ones _).symm
  | nil =>
    rw [options] at eq
    cases eq
    exact (isSome_ones _).symm

omit [Graphemes] in
/-- An excluded score decodes unless it is an infinity. -/
lemma isSome_excluded {score : BoundTerm} (eq : parseScoreToFloat arg = some score) :
    (decodeScoreBound (.excluded score)).isSome =
      !decide (arg ∈ [ascii "inf", ascii "+inf", ascii "-inf"]) := by
  unfold parseScoreToFloat at eq
  simp only [List.mem_cons, List.not_mem_nil, or_false]
  by_cases negInf : arg = ascii "-inf"
  · rw [if_pos negInf] at eq
    cases eq
    rw [decide_eq_true (.inr (.inr negInf))]
    rfl
  · rw [if_neg negInf] at eq
    by_cases posInf : arg = ascii "+inf" ∨ arg = ascii "inf"
    · rw [if_pos posInf] at eq
      cases eq
      rw [decide_eq_true (posInf.elim (fun plus => .inr (.inl plus)) .inl)]
      rfl
    · rw [if_neg posInf] at eq
      have number : ¬ (arg = ascii "inf" ∨ arg = ascii "+inf" ∨ arg = ascii "-inf") := by tauto
      rw [decide_eq_false number]
      split at eq
      · cases eq
        rfl
      · cases eq

/-- A bound decodes unless it excludes an infinity. -/
lemma isSome_decodeScoreBound {b : Bound BoundTerm}
    (eq : CommandParser.parseScoreBound arg = some b) :
    (decodeScoreBound b).isSome = Demand.bound.meets arg := by
  unfold CommandParser.parseScoreBound at eq
  simp only [Demand.meets]
  split at eq
  · rename_i excluded
    obtain ⟨score, found, rfl⟩ := Option.map_eq_some_iff.mp eq
    rw [excluded, Bool.true_and]
    exact isSome_excluded found
  · rename_i included
    obtain ⟨score, _, rfl⟩ := Option.map_eq_some_iff.mp eq
    rw [Bool.not_eq_true] at included
    rw [included]
    cases score with
    | float bits => rfl
    | infinity => rfl
    | negInfinity => rfl

/-- A text decodes when it is UTF-8. -/
lemma isSome_decodeString (arg : Bytes) : (decodeString arg).isSome = Demand.text.meets arg := by
  rw [decodeString, Demand.meets]
  cases Bytes.validUtf8 arg with
  | false => rfl
  | true => rfl

/-- Texts decode when each of them is UTF-8. -/
lemma all_text (words : List Bytes) :
    ((words.map fun arg => (Demand.text, arg)).all fun p => p.1.meets p.2) =
      (words.mapM decodeString).isSome := by
  induction words with
  | nil => rfl
  | cons word words ih =>
    rw [List.map_cons, List.all_cons, ih, List.mapM_cons, ← isSome_decodeString]
    cases decodeString word with
    | none => rfl
    | some _ =>
      cases words.mapM decodeString with
      | none => rfl
      | some _ => rfl

/-! ### The clauses -/

/-- The clauses for strings are settled. -/
lemma settles_string {otherwise : Parsed} (h : Settles name args otherwise) :
    Settles name args (parseString name args otherwise) := by
  unfold parseString
  refine settles_ite ?_
    (settles_ite ?_ (settles_ite ?_ (settles_ite ?_ (settles_ite ?_ (settles_ite ?_
    (settles_ite ?_ (settles_ite ?_
      (settles_ite ?_ (settles_ite ?_ (settles_ite ?_ (settles_ite ?_ h)))))))))))
  · rintro rfl
    split
    · exact settles_of (by decide) rfl
    · exact h
  · rintro rfl
    exact settles_map fun pairs => settles_of (by decide) rfl
  · rintro rfl
    split
    · exact settles_bind fun numkeys _ => settles_bind fun pairs _ => settles_of (by decide) rfl
    · exact h
  · rintro rfl
    split
    · exact settles_of (by decide) rfl
    · exact h
  · rintro rfl
    split
    · exact settles_bind fun n eq => settles_of (by decide) (all_unsigned eq).symm
    · exact h
  · rintro rfl
    split
    · exact settles_bind fun value _ => settles_bind fun offset _ => settles_missing (by decide) rfl
    · exact h
  · rintro rfl
    split
    · exact settles_of (by decide) rfl
    · exact h
  · rintro rfl
    split
    · exact settles_bind fun n eq => settles_of (by decide) (all_signed eq).symm
    · exact h
  · rintro rfl
    split
    · exact settles_of (by decide) rfl
    · exact h
  · rintro rfl
    split
    · exact settles_bind fun n eq => settles_of (by decide) (all_signed eq).symm
    · exact h
  · rintro rfl
    split
    · exact settles_of (by decide) rfl
    · exact h
  · rintro rfl
    exact settles_map fun pairs => settles_of (by decide) rfl

/-- The clauses for lists are settled. -/
lemma settles_list {otherwise : Parsed} (h : Settles name args otherwise) :
    Settles name args (parseList name args otherwise) := by
  unfold parseList
  refine settles_ite ?_
    (settles_ite ?_ (settles_ite ?_ (settles_ite ?_ (settles_ite ?_ (settles_ite ?_
    (settles_ite ?_ (settles_ite ?_
      (settles_ite ?_ (settles_ite ?_ (settles_ite ?_ (settles_ite ?_ h)))))))))))
  · rintro rfl
    split
    · exact settles_of (by decide) rfl
    · exact h
  · rintro rfl
    split
    · exact settles_of (by decide) rfl
    · exact h
  · rintro rfl
    split
    · exact settles_of (by decide) rfl
    · exact h
  · rintro rfl
    split
    · exact settles_of (by decide) rfl
    · exact h
  · rintro rfl
    split
    · exact settles_of (by decide) rfl
    · exact settles_bind fun n eq => settles_of (by decide) (all_unsigned eq).symm
    · exact h
  · rintro rfl
    split
    · exact settles_of (by decide) rfl
    · exact settles_bind fun n eq => settles_of (by decide) (all_unsigned eq).symm
    · exact h
  · rintro rfl
    split
    · exact settles_bind fun n eq => settles_of (by decide) (all_signed eq).symm
    · exact h
  · rintro rfl
    split
    · exact settles_bind fun start eq => settles_bind fun stop eq' =>
        settles_of (by decide) (all_signed_two eq eq').symm
    · exact h
  · rintro rfl
    split
    · exact settles_bind fun n eq => settles_of (by decide) (all_signed eq).symm
    · exact h
  · rintro rfl
    split
    · refine settles_ite (fun _ => settles_of (by decide) rfl)
        (settles_ite (fun _ => ?_) settles_none)
      exact settles_of (by decide) rfl
    · exact h
  · rintro rfl
    split
    · exact settles_of (by decide) rfl
    · exact h
  · rintro rfl
    split
    · exact settles_bind fun wherefrom _ => settles_bind fun whereto _ => settles_of (by decide) rfl
    · exact h

/-- The clauses for sets are settled. -/
lemma settles_set {otherwise : Parsed} (h : Settles name args otherwise) :
    Settles name args (parseSet name args otherwise) := by
  unfold parseSet
  refine settles_ite ?_
    (settles_ite ?_ (settles_ite ?_ (settles_ite ?_ (settles_ite ?_ (settles_ite ?_ h)))))
  · rintro rfl
    split
    · exact settles_of (by decide) rfl
    · exact h
  · rintro rfl
    split
    · exact settles_of (by decide) rfl
    · exact h
  · rintro rfl
    split
    · exact settles_of (by decide) rfl
    · exact h
  · rintro rfl
    split
    · exact settles_of (by decide) rfl
    · exact h
  · rintro rfl
    split
    · exact settles_of (by decide) rfl
    · exact h
  · rintro rfl
    split
    · exact settles_of (by decide) rfl
    · exact h

/-- The clauses for sorted sets are settled. -/
lemma settles_zset {otherwise : Parsed} (h : Settles name args otherwise) :
    Settles name args (parseZset name args otherwise) := by
  unfold parseZset
  refine settles_ite ?_
    (settles_ite ?_ (settles_ite ?_ (settles_ite ?_ (settles_ite ?_ (settles_ite ?_
    (settles_ite ?_ (settles_ite ?_
      (settles_ite ?_ (settles_ite ?_ (settles_ite ?_ (settles_ite ?_ h)))))))))))
  · rintro rfl
    split
    · exact settles_bind fun members _ => settles_of (by decide) rfl
    · exact h
  · rintro rfl
    split
    · exact settles_bind fun increment eq => settles_of (by decide) (all_finite eq).symm
    · exact h
  · rintro rfl
    split
    · exact settles_of (by decide) rfl
    · exact h
  · rintro rfl
    split
    · exact settles_of (by decide) rfl
    · exact settles_bind fun n eq => settles_of (by decide) (all_unsigned eq).symm
    · exact h
  · rintro rfl
    split
    · exact settles_of (by decide) rfl
    · exact settles_bind fun n eq => settles_of (by decide) (all_unsigned eq).symm
    · exact h
  · rintro rfl
    split
    · exact settles_bind fun start eq => settles_bind fun stop eq' =>
        settles_of (by decide) (all_signed_two eq eq').symm
    · exact h
  · rintro rfl
    split
    · rename_i first second
      refine settles_bind fun min eq => settles_bind fun max eq' => settles_of (by decide) ?_
      show (_ && _) = ([(Demand.bound, first), (Demand.bound, second)].all fun p => p.1.meets p.2)
      rw [isSome_decodeScoreBound eq, isSome_decodeScoreBound eq', List.all_cons, List.all_cons,
        List.all_nil, Bool.and_true]
    · exact h
  · rintro rfl
    split
    · exact settles_of (by decide) rfl
    · exact h
  · rintro rfl
    split
    · rename_i destination source first second options
      refine settles_of (by decide) ?_
      show (_ && _ && _) = ((Demand.text, first) :: (Demand.text, second) ::
        options.map fun arg => (Demand.text, toUppercase arg)).all fun p => p.1.meets p.2
      have words := all_text (options.map toUppercase)
      rw [List.map_map] at words
      rw [List.all_cons, List.all_cons, ← Bool.and_assoc]
      refine congrArg₂ (· && ·) (congrArg₂ (· && ·) ?_ ?_) words.symm
      · exact isSome_decodeString first
      · exact isSome_decodeString second
    · exact h
  · rintro rfl
    split
    · exact settles_bind fun parts eq => settles_of (by decide) (all_zstore eq).symm
    · exact h
  · rintro rfl
    split
    · exact settles_bind fun parts eq => settles_of (by decide) (all_zstore eq).symm
    · exact h
  · rintro rfl
    split
    · exact settles_of (by decide) rfl
    · exact h

/-- The clauses for hashes are settled. -/
lemma settles_hash {otherwise : Parsed} (h : Settles name args otherwise) :
    Settles name args (parseHash name args otherwise) := by
  unfold parseHash
  refine settles_ite ?_
    (settles_ite ?_ (settles_ite ?_ (settles_ite ?_ (settles_ite ?_ (settles_ite ?_
    (settles_ite ?_ (settles_ite ?_ h)))))))
  · rintro (rfl | rfl)
    · split
      · exact settles_bind fun fields _ => settles_of (by decide) rfl
      · exact h
    · split
      · exact settles_bind fun fields _ => settles_of (by decide) rfl
      · exact h
  · rintro rfl
    split
    · exact settles_of (by decide) rfl
    · exact h
  · rintro rfl
    split
    · exact settles_bind fun n eq => settles_of (by decide) (all_signed eq).symm
    · exact h
  · rintro rfl
    split
    · exact settles_of (by decide) rfl
    · exact h
  · rintro rfl
    split
    · exact settles_of (by decide) rfl
    · exact h
  · rintro rfl
    split
    · exact settles_bind fun timestamp _ => settles_missing (by decide) rfl
    · exact h
  · rintro rfl
    split
    · exact settles_missing (by decide) rfl
    · exact h
  · rintro rfl
    split
    · unfold parseHsetex
      split
      · refine settles_ite (fun _ => ?_) settles_generic
        exact settles_map fun fields => settles_of (by decide) rfl
      · exact settles_generic
    · exact h

/-- The clauses for keys are settled. -/
lemma settles_key {otherwise : Parsed} (h : Settles name args otherwise) :
    Settles name args (parseKey name args otherwise) := by
  unfold parseKey
  refine settles_ite ?_
    (settles_ite ?_ (settles_ite ?_ (settles_ite ?_ (settles_ite ?_ (settles_ite ?_
    (settles_ite ?_ (settles_ite ?_ (settles_ite ?_ (settles_ite ?_ h)))))))))
  · rintro (rfl | rfl)
    · exact settles_of (by decide) rfl
    · exact settles_of (by decide) rfl
  · rintro rfl
    split
    · exact settles_of (by decide) rfl
    · exact h
  · rintro rfl
    split
    · exact settles_of (by decide) rfl
    · exact h
  · rintro rfl
    split
    · exact settles_of (by decide) rfl
    · exact h
  · rintro rfl
    split
    · exact settles_bind fun n eq => settles_of (by decide) (all_unsigned eq).symm
    · exact h
  · rintro rfl
    split
    · exact settles_bind fun timestamp _ => settles_of (by decide) rfl
    · exact h
  · rintro rfl
    split
    · exact settles_of (by decide) rfl
    · exact h
  · rintro rfl
    exact settles_of (by decide) rfl
  · rintro rfl
    exact settles_of (by decide) rfl
  · rintro rfl
    split
    · exact settles_bind fun db1 eq => settles_bind fun db2 eq' =>
        settles_of (by decide) (all_unsigned_two eq eq').symm
    · exact h

end

/-! ## The tables -/

/-- The dispatcher knows the atom of a command and decodes every argument. -/
def Understands [Indexset] (db : Nat) (command : Command) : Prop :=
  ∃ op, dispatchWriteCommand db (commandTerms command).1 (commandTerms command).2 = .ok op

/-- The dispatcher understands a command when its arguments decode. -/
lemma understands_iff [Indexset] (db : Nat) (command : Command) :
    Understands db command ↔ decodes command = true :=
  WriteCommands.faithful_ok (WriteCommands.dispatch_tuple db command)

/-- A command that is not understood is answered by an error, and nothing is done. -/
lemma ignored_of_not_decodes [Indexset] (db : Nat) {command : Command}
    (fails : decodes command = false) :
    ∃ msg, ∀ s, executeTerm (CommandTuple.tupleOf [.integer db, commandTuple command]) s =
      (s, .error (.err msg)) := by
  rw [WriteCommands.executeTerm_eq, execute]
  cases decodeU64 db with
  | none => exact ⟨_, fun _ => rfl⟩
  | some db =>
    have faithful := WriteCommands.dispatch_tuple db command
    rw [fails] at faithful
    obtain ⟨msg, same⟩ := WriteCommands.faithful_refused faithful
    exact ⟨msg, fun s => congrFun same s⟩

/-- On every list of arguments that the parser makes a tuple of, other than a generic one: the
dispatcher knows the atom and decodes every argument exactly when the arguments are agreed on.
Otherwise the write is lost. -/
theorem parserDispatcher [Graphemes] [Indexset] (db : Nat) {args : List Bytes} {command : Command}
    {keys : List Bytes} (parsed : parse args = some (command, keys))
    (known : ∀ rest, command ≠ .generic rest) :
    (Understands db command ↔ Agreed args) ∧
      (¬ Agreed args → ∃ msg, ∀ s,
      executeTerm (CommandTuple.tupleOf [.integer db, commandTuple command]) s =
      (s, .error (.err msg))) := by
  have settled : decodes command = true ↔ Agreed args := by
    cases args with
    | nil =>
      cases parsed
      exact absurd rfl (known [])
    | cons name args =>
      have settles : Settles name args (parse (name :: args)) :=
        settles_string (settles_list
          (settles_set (settles_zset (settles_hash (settles_key settles_generic)))))
      exact settles command keys parsed known
  refine ⟨(understands_iff db command).trans settled, fun fails => ignored_of_not_decodes db ?_⟩
  rw [← Bool.not_eq_true]
  exact mt settled.mp fails

/-- An infinite score is agreed on. -/
theorem parserDispatcher_zadd :
    @Understands (.exact false) 0 (.zadd (ascii "k") [(.posInf, ascii "m")] []) :=
  (@parserDispatcher ⟨fun _ => false⟩ (.exact false) 0 [ascii "ZADD", ascii "k", ascii "inf",
    ascii "m"] _ [ascii "k"]
    (by decide +kernel) (fun _ => Command.noConfusion)).1.mpr ⟨by decide, by decide⟩

/-- A bit is set on the primary, and the dispatcher does not know the command. -/
theorem parserDispatcher_setbit :
    @parse ⟨fun _ => false⟩ [ascii "SETBIT", ascii "k", ascii "7", ascii "1"] =
      some (.setbit (ascii "k") 7 1, [ascii "k"]) ∧
    ¬ @Understands (.exact false) 0 (.setbit (ascii "k") 7 1) := by
  refine ⟨by decide +kernel, ?_⟩
  rintro ⟨op, eq⟩
  cases eq

end Veidrodelis.TsNif
