import Veidrodelis.RedisStream.ZstoreKeywords

/-!
# Names and keywords in any case

A command is propagated as the client typed it. `upperForm` is the form of a list of arguments with
the name and the option keywords in upper case; `keywordCase_iff` says when `parse` returns the same
for both: the names are compared literally, and so are `WEIGHTS`, `AGGREGATE` and `FIELDS`; all
other keywords may be typed in any case.
-/

namespace Veidrodelis.RedisStream
open CommandParser
open RedisNif.ReplicaParser (toUppercase)
open TsNif (HSetEXMode Side ZAddOption isWord upperAscii)

/-! ## The form in upper case -/

/-- The commands with option keywords that the parser has clauses for. -/
inductive OptionCommand where
  | set | msetex | linsert | lmove | zadd | zrangestore | zunionstore | zinterstore | hgetdel
  | hpexpireat | hpersist
  | hsetex | copy | flushall | flushdb
  deriving DecidableEq

namespace OptionCommand

def name : OptionCommand → String
  | set => "SET"
  | msetex => "MSETEX"
  | linsert => "LINSERT"
  | lmove => "LMOVE"
  | zadd => "ZADD"
  | zrangestore => "ZRANGESTORE"
  | zunionstore => "ZUNIONSTORE"
  | zinterstore => "ZINTERSTORE"
  | hgetdel => "HGETDEL"
  | hpexpireat => "HPEXPIREAT"
  | hpersist => "HPERSIST"
  | hsetex => "HSETEX"
  | copy => "COPY"
  | flushall => "FLUSHALL"
  | flushdb => "FLUSHDB"

def all : List OptionCommand :=
  [set, msetex, linsert, lmove, zadd, zrangestore, zunionstore, zinterstore, hgetdel,
    hpexpireat, hpersist, hsetex,
    copy, flushall, flushdb]

def ofName (name : Bytes) : Option OptionCommand :=
  all.find? fun command => name = ascii command.name

end OptionCommand

/-- An argument, in upper case if it is one of some keywords. -/
def upperWord (keywords : List String) (arg : Bytes) : Bytes :=
  if keywords.any (isWord arg) then arg.map upperAscii else arg

/-- Options anywhere behind the first arguments. -/
def upperFrom (n : Nat) (keywords : List String) (args : List Bytes) : List Bytes :=
  args.take n ++ (args.drop n).map (upperWord keywords)

/-- Options in front, up to the first argument that is none. -/
def upperFront (keywords : List String) : List Bytes → List Bytes
  | [] => []
  | arg :: rest =>
    if keywords.any (isWord arg) then arg.map upperAscii :: upperFront keywords rest
      else arg :: rest

/-- `FIELDS` in front. -/
def upperFields : List Bytes → List Bytes
  | [] => []
  | word :: rest => upperWord ["FIELDS"] word :: rest

def conditionWords : List String := ["NX", "XX", "GT", "LT"]

/-- What follows the condition of a hash field expiration. -/
def behindCondition : List Bytes → List Bytes
  | [] => []
  | arg :: rest => if conditionWords.any (isWord arg) then rest else arg :: rest

/-- A condition, and `FIELDS`. -/
def upperExpire : List Bytes → List Bytes
  | [] => []
  | arg :: rest =>
    if conditionWords.any (isWord arg) then arg.map upperAscii :: upperFields rest
      else upperFields (arg :: rest)

def hsetexFlags : List String := ["FNX", "FXX", "NX", "XX", "KEEPTTL"]

/-- Options, some with a value behind them, and `FIELDS`. -/
def upperHsetex : List Bytes → List Bytes
  | [] => []
  | arg :: rest =>
    if hsetexFlags.any (isWord arg) then arg.map upperAscii :: upperHsetex rest
    else if ["EX", "PX", "EXAT", "PXAT"].any (isWord arg) then
      match rest with
      | [] => [arg.map upperAscii]
      | value :: rest => arg.map upperAscii :: value :: upperHsetex rest
    else upperFields (arg :: rest)

/-- The arguments with the option keywords in upper case. -/
def OptionCommand.upperArgs : OptionCommand → List Bytes → List Bytes
  | set, args => upperFrom 2 ["NX", "XX", "GET", "EX", "PX", "EXAT", "PXAT", "KEEPTTL"] args
  | msetex, args =>
    match args with
    | numkeys :: pairs =>
      match Bytes.parseInt numkeys with
      | some (.ofNat n) =>
        numkeys :: upperFrom (n * 2) ["NX", "XX", "EX", "PX", "EXAT", "PXAT", "KEEPTTL"] pairs
      | _ => args
    | _ => args
  | linsert, args =>
    match args with
    | [key, word, pivot, element] => [key, upperWord ["BEFORE", "AFTER"] word, pivot, element]
    | _ => args
  | lmove, args =>
    match args with
    | [source, destination, wherefrom, whereto] =>
      [source, destination, upperWord ["LEFT", "RIGHT"] wherefrom,
        upperWord ["LEFT", "RIGHT"] whereto]
    | _ => args
  | zadd, args =>
    match args with
    | key :: args => key :: upperFront ["NX", "XX", "GT", "LT", "CH", "INCR"] args
    | _ => args
  | zrangestore, args => upperFrom 4 ["BYSCORE", "BYLEX", "REV", "LIMIT"] args
  | zunionstore, args | zinterstore, args =>
    match args with
    | destination :: numkeys :: rest => destination :: numkeys :: upperZstore numkeys rest
    | _ => args
  | hgetdel, args =>
    match args with
    | key :: rest => key :: upperFields rest
    | _ => args
  | hpexpireat, args =>
    match args with
    | key :: timestamp :: rest => key :: timestamp :: upperExpire rest
    | _ => args
  | hpersist, args =>
    match args with
    | key :: rest => key :: upperExpire rest
    | _ => args
  | hsetex, args =>
    match args with
    | key :: args => key :: upperHsetex args
    | _ => args
  | copy, args => upperFrom 2 ["DB", "REPLACE"] args
  | flushall, args | flushdb, args => args.map (upperWord ["ASYNC", "SYNC"])

/-- The arguments with the name and the option keywords in upper case. -/
def upperForm : List Bytes → List Bytes
  | [] => []
  | name :: args =>
    match OptionCommand.ofName (name.map upperAscii) with
    | some command => name.map upperAscii :: command.upperArgs args
    | none => name.map upperAscii :: args

/-! ### Keywords that are compared literally -/

/-- `FIELDS` in front of some field is typed in upper case. -/
def FieldsLiteral (args : List Bytes) : Prop :=
  ∀ word number field fields, args = word :: number :: field :: fields → isWord word "FIELDS" →
    word = ascii "FIELDS"

/-- Behind the options stands `FIELDS` in upper case, and something behind it. -/
def reachesFields : List Bytes → Bool
  | [] => false
  | arg :: rest =>
    if hsetexFlags.any (isWord arg) then reachesFields rest
    else if isWord arg "PXAT" then
      match rest with
      | [] => false
      | _ :: rest => reachesFields rest
    else arg = ascii "FIELDS" ∧ rest ≠ []

/-- The keywords that the parser compares literally are typed in upper case. -/
def OptionCommand.Literal : OptionCommand → List Bytes → Prop
  | zunionstore, args | zinterstore, args =>
    match args with
    | _ :: numkeys :: rest => ∀ z, readZstore numkeys rest = some z → z.Literal
    | _ => True
  | hgetdel, args =>
    match args with
    | _ :: rest => FieldsLiteral rest
    | _ => True
  | hpexpireat, args =>
    match args with
    | _ :: timestamp :: rest =>
      Bytes.parseInt timestamp ≠ none → FieldsLiteral (behindCondition rest)
    | _ => True
  | hpersist, args =>
    match args with
    | _ :: rest => FieldsLiteral (behindCondition rest)
    | _ => True
  | hsetex, args =>
    match args with
    | _ :: args => upperHsetex args = args ∨ reachesFields args
    | _ => True
  | _, _ => True

/-- The name is typed in upper case, and so are these keywords. -/
def Literal : List Bytes → Prop
  | [] => True
  | name :: args => name.map upperAscii = name ∧
    ∀ command, OptionCommand.ofName name = some command → command.Literal args

/-! ## Names -/

section
variable {name : Bytes} {args : List Bytes} {clause otherwise : Parsed}

/-- Every name of a clause is in upper case. -/
lemma else_of_lower {option : String} (lower : name.map upperAscii ≠ name)
    (upper : (ascii option).map upperAscii = ascii option) :
    (if name = ascii option then clause else otherwise) = otherwise := by
  refine if_neg ?_
  rintro rfl
  exact lower upper

/-- A name that is not in upper case is neither of two literal options. -/
lemma else_of_lower_or {option option' : String} (lower : name.map upperAscii ≠ name)
    (upper : (ascii option).map upperAscii = ascii option)
    (upper' : (ascii option').map upperAscii = ascii option') :
    (if name = ascii option ∨ name = ascii option' then clause else otherwise) = otherwise := by
  refine if_neg ?_
  rintro (rfl | rfl)
  · exact lower upper
  · exact lower upper'

/-- A name that is not in upper case matches no clause for strings. -/
lemma parseString_lower (lower : name.map upperAscii ≠ name) :
    parseString name args otherwise = otherwise := by
  unfold parseString
  iterate 12 rw [else_of_lower lower (by decide)]

/-- A name that is not in upper case matches no clause for lists. -/
lemma parseList_lower (lower : name.map upperAscii ≠ name) :
    parseList name args otherwise = otherwise := by
  unfold parseList
  iterate 12 rw [else_of_lower lower (by decide)]

/-- A name that is not in upper case matches no clause for sets. -/
lemma parseSet_lower (lower : name.map upperAscii ≠ name) :
    parseSet name args otherwise = otherwise := by
  unfold parseSet
  iterate 6 rw [else_of_lower lower (by decide)]

/-- A name that is not in upper case matches no clause for sorted sets. -/
lemma parseZset_lower [Graphemes] (lower : name.map upperAscii ≠ name) :
    parseZset name args otherwise = otherwise := by
  unfold parseZset
  iterate 12 rw [else_of_lower lower (by decide)]

/-- A name that is not in upper case matches no clause for hashes. -/
lemma parseHash_lower (lower : name.map upperAscii ≠ name) :
    parseHash name args otherwise = otherwise := by
  unfold parseHash
  rw [else_of_lower_or lower (by decide) (by decide)]
  iterate 7 rw [else_of_lower lower (by decide)]

/-- A name that is not in upper case matches no clause for keys. -/
lemma parseKey_lower (lower : name.map upperAscii ≠ name) :
    parseKey name args otherwise = otherwise := by
  unfold parseKey
  rw [else_of_lower_or lower (by decide) (by decide)]
  iterate 9 rw [else_of_lower lower (by decide)]

/-- A name that is not in upper case has no clause. -/
lemma parse_lower [Graphemes] (lower : name.map upperAscii ≠ name) :
    parse (name :: args) = some (.generic (name :: args), []) := by
  show parseString _ _ _ = _
  rw [parseString_lower lower, parseList_lower lower, parseSet_lower lower, parseZset_lower lower,
    parseHash_lower lower, parseKey_lower lower]

end

/-! ### Generic tuples -/

/-- A generic tuple holds the arguments as they are. -/
def Verbatim (args : List Bytes) (parsed : Parsed) : Prop :=
  ∀ rest keys, parsed = some (.generic rest, keys) → rest = args

section
variable {args : List Bytes}

/-- Where nothing is parsed, nothing is changed. -/
lemma verbatim_none : Verbatim args none := nofun

/-- A generic command holds its arguments. -/
lemma verbatim_generic {keys : List Bytes} : Verbatim args (some (.generic args, keys)) := by
  rintro _ _ ⟨⟩
  rfl

/-- A command that is not generic changes no arguments. -/
lemma verbatim_of {command : Command} {keys : List Bytes}
    (known : ∀ rest, command ≠ .generic rest) :
    Verbatim args (some (command, keys)) := by
  rintro rest _ ⟨⟩
  exact absurd rfl (known rest)

/-- A choice between verbatim clauses. -/
lemma verbatim_ite {c : Prop} [Decidable c] {x y : Parsed} (h : c → Verbatim args x)
    (h' : Verbatim args y) : Verbatim args (if c then x else y) := by
  split
  · rename_i here
    exact h here
  · exact h'

/-- A clause behind a value that may be missing. -/
lemma verbatim_bind {α : Type} {x : Option α} {f : α → Parsed} (h : ∀ a, Verbatim args (f a)) :
    Verbatim args (x.bind f) := by
  cases x with
  | none => exact verbatim_none
  | some a => exact h a

/-- A command made of a value that may be missing. -/
lemma verbatim_map {α : Type} {x : Option α} {f : α → Command × List Bytes}
    (h : ∀ a, Verbatim args (some (f a))) : Verbatim args (x.map f) := by
  cases x with
  | none => exact verbatim_none
  | some a => exact h a

end

section
variable {name : Bytes} {args : List Bytes} {otherwise : Parsed}

-- clause by clause: the names in turn, the shapes of the arguments, and what may raise
/-- The clauses for strings keep the words of generic commands. -/
lemma verbatim_string (h : Verbatim (name :: args) otherwise) :
    Verbatim (name :: args) (parseString name args otherwise) := by
  unfold parseString
  repeat' first
    | exact h
    | exact verbatim_of nofun
    | refine verbatim_ite (fun _ => ?_) ?_
    | refine verbatim_bind fun _ => ?_
    | refine verbatim_map fun _ => ?_
    | split

/-- The clauses for lists keep the words of generic commands. -/
lemma verbatim_list (h : Verbatim (name :: args) otherwise) :
    Verbatim (name :: args) (parseList name args otherwise) := by
  unfold parseList
  repeat' first
    | exact h
    | exact verbatim_of nofun
    | refine verbatim_ite (fun _ => ?_) ?_
    | refine verbatim_bind fun _ => ?_
    | refine verbatim_map fun _ => ?_
    | exact verbatim_none
    | split

/-- The clauses for sets keep the words of generic commands. -/
lemma verbatim_set (h : Verbatim (name :: args) otherwise) :
    Verbatim (name :: args) (parseSet name args otherwise) := by
  unfold parseSet
  repeat' first
    | exact h
    | exact verbatim_of nofun
    | refine verbatim_ite (fun _ => ?_) ?_
    | refine verbatim_bind fun _ => ?_
    | refine verbatim_map fun _ => ?_
    | split

/-- The clauses for sorted sets keep the words of generic commands. -/
lemma verbatim_zset [Graphemes] (h : Verbatim (name :: args) otherwise) :
    Verbatim (name :: args) (parseZset name args otherwise) := by
  unfold parseZset
  repeat' first
    | exact h
    | exact verbatim_of nofun
    | refine verbatim_ite (fun _ => ?_) ?_
    | refine verbatim_bind fun _ => ?_
    | refine verbatim_map fun _ => ?_
    | split

/-- `HSETEX` keeps the words of generic commands. -/
lemma verbatim_hsetex {key : Bytes} {args : List Bytes} :
    Verbatim (ascii "HSETEX" :: key :: args) (parseHsetex key args) := by
  unfold parseHsetex
  split
  · exact verbatim_ite (fun _ => verbatim_map fun _ => verbatim_of nofun) verbatim_generic
  · exact verbatim_generic

/-- The clauses for hashes keep the words of generic commands. -/
lemma verbatim_hash (h : Verbatim (name :: args) otherwise) :
    Verbatim (name :: args) (parseHash name args otherwise) := by
  unfold parseHash
  iterate 7
    refine verbatim_ite (fun _ => ?_) ?_
    · split
      · first
          | exact verbatim_of nofun
          | exact verbatim_bind fun _ => verbatim_of nofun
      · exact h
  refine verbatim_ite ?_ h
  rintro rfl
  split
  · exact verbatim_hsetex
  · exact h

/-- The clauses for keys keep the words of generic commands. -/
lemma verbatim_key (h : Verbatim (name :: args) otherwise) :
    Verbatim (name :: args) (parseKey name args otherwise) := by
  unfold parseKey
  repeat' first
    | exact h
    | exact verbatim_of nofun
    | refine verbatim_ite (fun _ => ?_) ?_
    | refine verbatim_bind fun _ => ?_
    | refine verbatim_map fun _ => ?_
    | split

/-- A generic tuple holds the arguments of the command. -/
lemma parse_verbatim [Graphemes] (args : List Bytes) : Verbatim args (parse args) := by
  cases args with
  | nil => exact verbatim_generic
  | cons name args =>
    exact verbatim_string
      (verbatim_list (verbatim_set (verbatim_zset (verbatim_hash (verbatim_key verbatim_generic)))))

end

/-! ## Keywords that are read in any case -/

/-- A keyword that is put into upper case compares as before. -/
lemma toUppercase_upperWord (keywords : List String) (arg : Bytes) :
    toUppercase (upperWord keywords arg) = toUppercase arg := by
  unfold upperWord
  split
  · exact toUppercase_upper arg
  · rfl

/-- Keywords that are put into upper case compare as before. -/
lemma map_toUppercase_upperWord (keywords : List String) (args : List Bytes) :
    (args.map (upperWord keywords)).map toUppercase = args.map toUppercase := by
  rw [List.map_map]
  exact List.map_congr_left fun arg _ => toUppercase_upperWord keywords arg

/-- Without an `S` or an `I` a keyword is in upper case only of the words that it is spelled with in
some case. -/
lemma toUppercase_eq_iff {arg : Bytes} {option : String}
    (plain : (83 ∉ ascii option ∧ 73 ∉ ascii option) ∧ toUppercase (ascii option) = ascii option) :
    toUppercase arg = ascii option ↔ isWord arg option = true := by
  have letters (text : Bytes) (other : 83 ∉ toUppercase text ∧ 73 ∉ toUppercase text) :
      toUppercase text = text.map upperAscii := by
    fun_induction toUppercase text with
    | case1 rest ih => exact absurd List.mem_cons_self other.1
    | case2 rest ih => exact absurd List.mem_cons_self other.2
    | case3 b rest _ _ ih =>
      have tail : 83 ∉ toUppercase rest ∧ 73 ∉ toUppercase rest :=
        ⟨fun mem => other.1 (List.mem_cons_of_mem _ mem),
          fun mem => other.2 (List.mem_cons_of_mem _ mem)⟩
      rw [ih tail]
      rfl
    | case4 => rfl
  constructor
  · intro upper
    have other := letters arg (by rw [upper]; exact plain.1)
    exact decide_eq_true (other.symm.trans upper)
  · intro isKeyword
    rw [← toUppercase_upper, map_upper_of_isWord isKeyword, plain.2]

/-- A word that is none of these options is none of them in upper case. -/
lemma toUppercase_ne {arg : Bytes} {options : List String}
    (nowhere : ¬ options.any (isWord arg) = true) (option : String) (mem : option ∈ options)
    (plain : (83 ∉ ascii option ∧ 73 ∉ ascii option) ∧ toUppercase (ascii option) = ascii option) :
    toUppercase arg ≠ ascii option := by
  intro eq
  exact nowhere (List.any_eq_true.mpr ⟨option, mem, (toUppercase_eq_iff plain).mp eq⟩)

/-- A keyword in any case is the option in upper case. -/
lemma toUppercase_of_isWord {arg : Bytes} {option : String} (isKeyword : isWord arg option = true)
    (plain : toUppercase (ascii option) = ascii option) : toUppercase arg = ascii option := by
  rw [← toUppercase_upper, map_upper_of_isWord isKeyword, plain]

/-- The options of `ZADD` are read in any case. -/
lemma extractZaddOptions_upperFront (args : List Bytes) :
    extractZaddOptions (upperFront ["NX", "XX", "GT", "LT", "CH", "INCR"] args) =
    extractZaddOptions args := by
  induction args with
  | nil => rfl
  | cons arg rest ih =>
    rw [upperFront]
    split
    · rename_i found
      obtain ⟨option, mem, isOption⟩ := List.any_eq_true.mp found
      have word (plain : toUppercase (ascii option) = ascii option) :=
        toUppercase_of_isWord isOption plain
      rw [extractZaddOptions, extractZaddOptions, toUppercase_upper, ih]
      simp only [List.mem_cons, List.not_mem_nil, or_false] at mem
      rcases mem with rfl | rfl | rfl | rfl | rfl | rfl
      all_goals
        rw [word (by decide)]
        rfl
    · rfl

/-! ## `FIELDS` -/

/-- Fields are read alike in upper case just where their keyword is literal. -/
lemma extractHexpireFields_iff (args : List Bytes) :
    extractHexpireFields args = extractHexpireFields (upperFields args) ↔ FieldsLiteral args := by
  match args with
  | [] => exact iff_of_true rfl nofun
  | [word] => exact iff_of_true rfl nofun
  | [word, number] =>
    refine iff_of_true ?_ nofun
    rw [upperFields, extractHexpireFields, extractHexpireFields, ite_self, ite_self]
  | word :: number :: field :: fields =>
    have literal : FieldsLiteral (word :: number :: field :: fields)
        ↔ (isWord word "FIELDS" → word = ascii "FIELDS") := by
      refine ⟨fun all => all word number field fields rfl, fun here _ _ _ _ eq => ?_⟩
      cases eq
      exact here
    rw [literal, upperFields, upperWord, extractHexpireFields, extractHexpireFields, List.any_cons,
      List.any_nil, Bool.or_false]
    by_cases isFields : isWord word "FIELDS" = true
    · rw [if_pos isFields, map_upper_of_isWord isFields, if_pos rfl]
      constructor
      · intro eq _
        by_contra other
        rw [if_neg other] at eq
        cases eq
      · intro here
        rw [if_pos (here isFields)]
    · rw [if_neg isFields]
      exact iff_of_true rfl fun here => absurd here isFields

/-- The condition is read in any case. -/
lemma extractHexpireCondition_upper (args : List Bytes) :
    ∃ condition, extractHexpireCondition args = (condition, behindCondition args) ∧
      extractHexpireCondition (upperExpire args) =
      (condition, upperFields (behindCondition args)) := by
  cases args with
  | nil => exact ⟨none, rfl, rfl⟩
  | cons arg rest =>
    rw [behindCondition, upperExpire]
    split
    · rename_i found
      obtain ⟨option, mem, isOption⟩ := List.any_eq_true.mp found
      have word (plain : toUppercase (ascii option) = ascii option) :=
        toUppercase_of_isWord isOption plain
      rw [extractHexpireCondition, extractHexpireCondition, toUppercase_upper]
      simp only [conditionWords, List.mem_cons, List.not_mem_nil, or_false] at mem
      rcases mem with rfl | rfl | rfl | rfl
      all_goals
        rw [word (by decide)]
        exact ⟨_, rfl, rfl⟩
    · rename_i nowhere
      have nx := toUppercase_ne nowhere "NX" (by decide) (by decide)
      have xx := toUppercase_ne nowhere "XX" (by decide) (by decide)
      have gt := toUppercase_ne nowhere "GT" (by decide) (by decide)
      have lt := toUppercase_ne nowhere "LT" (by decide) (by decide)
      refine ⟨Option.none, ?_, ?_⟩
      · rw [extractHexpireCondition]
        simp only [if_neg nx, if_neg xx, if_neg gt, if_neg lt]
      · have same := toUppercase_upperWord ["FIELDS"] arg
        rw [upperFields, extractHexpireCondition]
        simp only [same, if_neg nx, if_neg xx, if_neg gt, if_neg lt]

/-! ### `HSETEX` -/

section
variable {arg : Bytes}

/-- A flag of `HSETEX` is read in any case. -/
lemma extractHsetexOptions_flag (flag : hsetexFlags.any (isWord arg) = true)
    (mode : Option HSetEXMode) :
    ∃ mode', ∀ rest, extractHsetexOptions mode (arg :: rest) = extractHsetexOptions mode' rest ∧
      extractHsetexOptions mode (arg.map upperAscii :: rest) = extractHsetexOptions mode' rest := by
  obtain ⟨option, mem, isOption⟩ := List.any_eq_true.mp flag
  have word (plain : toUppercase (ascii option) = ascii option) :=
    toUppercase_of_isWord isOption plain
  have step (mode' : Option HSetEXMode)
      (h : ∀ arg rest, toUppercase arg = ascii option →
        extractHsetexOptions mode (arg :: rest) = extractHsetexOptions mode' rest)
      (plain : toUppercase (ascii option) = ascii option) : ∃ mode', ∀ rest,
        extractHsetexOptions mode (arg :: rest) = extractHsetexOptions mode' rest ∧
        extractHsetexOptions mode (arg.map upperAscii :: rest) = extractHsetexOptions mode' rest :=
    ⟨mode', fun rest => ⟨h arg rest (word plain),
      h _ rest ((toUppercase_upper arg).trans (word plain))⟩⟩
  simp only [hsetexFlags, List.mem_cons, List.not_mem_nil, or_false] at mem
  rcases mem with rfl | rfl | rfl | rfl | rfl
  · refine step (some .nx) (fun arg rest eq => ?_) (by decide)
    rw [extractHsetexOptions.eq_def]
    simp only [eq]
    rfl
  · refine step (some .xx) (fun arg rest eq => ?_) (by decide)
    rw [extractHsetexOptions.eq_def]
    simp only [eq]
    rfl
  all_goals
    refine step mode (fun arg rest eq => ?_) (by decide)
    rw [extractHsetexOptions.eq_def]
    simp only [eq]
    rfl

/-- The deadline of `HSETEX` is skipped in any case. -/
lemma extractHsetexOptions_pxat (isPxat : isWord arg "PXAT" = true) (mode : Option HSetEXMode)
    (value : Bytes) (rest : List Bytes) :
    extractHsetexOptions mode (arg :: value :: rest) = extractHsetexOptions mode rest := by
  rw [extractHsetexOptions, toUppercase_of_isWord isPxat (by decide)]
  rfl

/-- The options of `HSETEX` end at the first other word. -/
lemma extractHsetexOptions_other (noFlag : ¬ hsetexFlags.any (isWord arg) = true)
    (noPxat : ¬ isWord arg "PXAT" = true) (mode : Option HSetEXMode) (rest : List Bytes) :
    extractHsetexOptions mode (arg :: rest) = (mode, arg :: rest) := by
  have fnx := toUppercase_ne noFlag "FNX" (by decide) (by decide)
  have fxx := toUppercase_ne noFlag "FXX" (by decide) (by decide)
  have nx := toUppercase_ne noFlag "NX" (by decide) (by decide)
  have xx := toUppercase_ne noFlag "XX" (by decide) (by decide)
  have keepttl := toUppercase_ne noFlag "KEEPTTL" (by decide) (by decide)
  have pxat : toUppercase arg ≠ ascii "PXAT" :=
    fun eq => noPxat ((toUppercase_eq_iff (by decide)).mp eq)
  rw [extractHsetexOptions.eq_def]
  simp only [fnx, fxx, nx, xx, keepttl, pxat, or_false, if_false]

end

/-- In any case of the options the parser comes to the same `FIELDS`. -/
lemma extractHsetexOptions_reaches {args : List Bytes} (h : reachesFields args = true)
    (mode : Option HSetEXMode) :
    ∃ mode' number rest, extractHsetexOptions mode args =
      (mode', ascii "FIELDS" :: number :: rest) ∧
      extractHsetexOptions mode (upperHsetex args) = (mode', ascii "FIELDS" :: number :: rest) := by
  fun_induction reachesFields args generalizing mode with
  | case1 => cases h
  | case2 arg rest flag ih =>
    obtain ⟨next, step⟩ := extractHsetexOptions_flag flag mode
    obtain ⟨mode', number, fields, typed, upper⟩ := ih h next
    rw [upperHsetex.eq_def]
    simp only [if_pos flag]
    exact ⟨mode', number, fields, (step _).1.trans typed, (step _).2.trans upper⟩
  | case3 arg noFlag isPxat => cases h
  | case4 arg noFlag isPxat value rest ih =>
    obtain ⟨mode', number, fields, typed, upper⟩ := ih h mode
    have any : ["EX", "PX", "EXAT", "PXAT"].any (isWord arg) = true := by simp [isPxat]
    refine ⟨mode', number, fields, (extractHsetexOptions_pxat isPxat mode value rest).trans typed,
      ?_⟩
    unfold upperHsetex
    rw [if_neg noFlag, if_pos any]
    exact (extractHsetexOptions_pxat (isWord_upper isPxat) mode value _).trans upper
  | case5 arg rest noFlag noPxat =>
    obtain ⟨rfl, filled⟩ := of_decide_eq_true h
    have here := extractHsetexOptions_other noFlag noPxat mode rest
    have same : upperHsetex (ascii "FIELDS" :: rest) = ascii "FIELDS" :: rest := by
      unfold upperHsetex
      rw [if_neg noFlag, if_neg (by decide), upperFields]
      rfl
    cases rest with
    | nil => exact absurd rfl filled
    | cons number fields => exact ⟨mode, number, fields, here, same.symm ▸ here⟩

/-- Otherwise it does not come to `FIELDS`. -/
lemma extractHsetexOptions_misses {args : List Bytes} (h : ¬ reachesFields args = true)
    (mode : Option HSetEXMode) :
    ∀ number rest, (extractHsetexOptions mode args).2 ≠ ascii "FIELDS" :: number :: rest := by
  fun_induction reachesFields args generalizing mode with
  | case1 => nofun
  | case2 arg rest flag ih =>
    obtain ⟨next, step⟩ := extractHsetexOptions_flag flag mode
    rw [(step rest).1]
    exact ih h next
  | case3 arg noFlag isPxat =>
    rw [extractHsetexOptions, toUppercase_of_isWord isPxat (by decide)]
    nofun
  | case4 arg noFlag isPxat value rest ih =>
    rw [extractHsetexOptions_pxat isPxat]
    exact ih h mode
  | case5 arg rest noFlag noPxat =>
    rw [extractHsetexOptions_other noFlag noPxat]
    intro number fields eq
    cases eq
    exact h (decide_eq_true ⟨rfl, nofun⟩)

/-- `HSETEX` is parsed alike in upper case just where it is in it, or its fields are reached. -/
lemma parseHsetex_iff (key : Bytes) (args : List Bytes) :
    parseHsetex key args = parseHsetex key (upperHsetex args) ↔ upperHsetex args = args ∨
      reachesFields args := by
  by_cases reaches : reachesFields args = true
  · obtain ⟨mode, number, rest, typed, upper⟩ := extractHsetexOptions_reaches reaches none
    refine iff_of_true ?_ (.inr reaches)
    rw [parseHsetex, parseHsetex, typed, upper]
    rfl
  · have generic : parseHsetex key args = some (.generic (ascii "HSETEX" :: key :: args), []) := by
      have misses := extractHsetexOptions_misses reaches none
      rw [parseHsetex]
      split
      · rename_i mode keyword number rest eq
        rw [eq] at misses
        rw [if_neg]
        rintro rfl
        exact misses number rest rfl
      · rfl
    rw [or_iff_left reaches]
    refine ⟨fun eq => ?_, fun same => by rw [same]⟩
    rw [generic] at eq
    have whole := verbatim_hsetex _ _ eq.symm
    exact (List.cons.inj (List.cons.inj whole).2).2.symm

/-! ## Commands -/

section
variable [Graphemes]

/-- `SET` is parsed alike in every case of its keywords. -/
lemma set_upper (args : List Bytes) :
    parse (ascii "SET" :: args) = parse (ascii "SET" :: OptionCommand.set.upperArgs args) := by
  match args with
  | [] | [_] | _ :: _ :: _ => rfl

/-- `COPY` is parsed alike in every case of its keywords. -/
lemma copy_upper (args : List Bytes) :
    parse (ascii "COPY" :: args) = parse (ascii "COPY" :: OptionCommand.copy.upperArgs args) := by
  match args with
  | [] | [_] => rfl
  | source :: destination :: options =>
    have parsed (options : List Bytes) : parse (ascii "COPY" :: source :: destination :: options) =
        some (.copy source destination (decide (ascii "REPLACE" ∈ options.map toUppercase)),
        [source, destination]) :=
      rfl
    show _ = parse (ascii "COPY" :: source :: destination ::
      options.map (upperWord ["DB", "REPLACE"]))
    rw [parsed, parsed, map_toUppercase_upperWord]

/-- `ZRANGESTORE` is parsed alike in every case of its keywords. -/
lemma zrangestore_upper (args : List Bytes) :
    parse (ascii "ZRANGESTORE" :: args) =
    parse (ascii "ZRANGESTORE" :: OptionCommand.zrangestore.upperArgs args) := by
  match args with
  | [] | [_] | [_, _] | [_, _, _] => rfl
  | destination :: source :: min :: max :: options =>
    have parsed (options : List Bytes) : parse
      (ascii "ZRANGESTORE" :: destination :: source :: min :: max :: options)
        = some (.zrangestore destination source min max (options.map toUppercase),
        [destination, source]) := rfl
    show _ = parse (ascii "ZRANGESTORE" :: destination :: source :: min :: max ::
      options.map (upperWord ["BYSCORE", "BYLEX", "REV", "LIMIT"]))
    rw [parsed, parsed, map_toUppercase_upperWord]

/-- The pairs are those that are counted. -/
lemma msetex_upper (args : List Bytes) :
    parse (ascii "MSETEX" :: args) =
    parse (ascii "MSETEX" :: OptionCommand.msetex.upperArgs args) := by
  match args with
  | [] => rfl
  | numkeys :: pairs =>
    rw [OptionCommand.upperArgs]
    cases number : Bytes.parseInt numkeys with
    | none => rfl
    | some n =>
      cases n with
      | negSucc n => rfl
      | ofNat n =>
        have parsed (pairs : List Bytes) : parse (ascii "MSETEX" :: numkeys :: pairs) =
            (Bytes.parseInt numkeys).bind
              fun numkeys => (parsePairs (splitFront pairs (numkeys * 2))).bind
              fun pairs => some (.msetex pairs, pairs.map (·.1)) := rfl
        have front (pairs : List Bytes) : splitFront pairs (Int.ofNat n * 2) =
          pairs.take (n * 2) := by
          have pos : 0 ≤ Int.ofNat n * 2 := Int.mul_nonneg (Int.natCast_nonneg n) (by decide)
          exact if_pos pos
        have same (keywords : List String) : (upperFrom (n * 2) keywords pairs).take (n * 2) =
          pairs.take (n * 2) := by
          rw [upperFrom]
          by_cases long : n * 2 ≤ pairs.length
          · exact List.take_left' (List.length_take_of_le long)
          · rw [List.drop_of_length_le (by omega), List.map_nil, List.append_nil, List.take_take,
              min_self]
        show _ = parse (ascii "MSETEX" :: numkeys :: upperFrom (n * 2) _ pairs)
        rw [parsed, parsed, number, Option.bind_some, Option.bind_some, front, front, same]

/-- `LINSERT` is parsed alike in every case of its keywords. -/
lemma linsert_upper (args : List Bytes) :
    parse (ascii "LINSERT" :: args) =
    parse (ascii "LINSERT" :: OptionCommand.linsert.upperArgs args) := by
  match args with
  | [] | [_] | [_, _] | [_, _, _] | _ :: _ :: _ :: _ :: _ :: _ => rfl
  | [key, word, pivot, element] =>
    have parsed (word : Bytes) : parse [ascii "LINSERT", key, word, pivot, element] =
        if toUppercase word = ascii "BEFORE" then one (.linsert key true pivot element) key
        else if toUppercase word = ascii "AFTER" then one (.linsert key false pivot element) key
        else none := rfl
    show _ = parse [ascii "LINSERT", key, upperWord ["BEFORE", "AFTER"] word, pivot, element]
    rw [parsed, parsed, toUppercase_upperWord]

/-- `LMOVE` is parsed alike in every case of its keywords. -/
lemma lmove_upper (args : List Bytes) :
    parse (ascii "LMOVE" :: args) =
    parse (ascii "LMOVE" :: OptionCommand.lmove.upperArgs args) := by
  match args with
  | [] | [_] | [_, _] | [_, _, _] | _ :: _ :: _ :: _ :: _ :: _ => rfl
  | [source, destination, wherefrom, whereto] =>
    have parsed (wherefrom whereto : Bytes) : parse [ascii "LMOVE", source,
      destination, wherefrom, whereto] =
        (parseSide wherefrom).bind fun wherefrom => (parseSide whereto).bind fun whereto =>
          some (.lmove source destination wherefrom whereto, [source, destination]) := rfl
    have side (word : Bytes) : parseSide (upperWord ["LEFT", "RIGHT"] word) = parseSide word := by
      rw [parseSide, parseSide, toUppercase_upperWord]
    show _ = parse [ascii "LMOVE", source, destination, upperWord ["LEFT", "RIGHT"] wherefrom,
      upperWord ["LEFT", "RIGHT"] whereto]
    rw [parsed, parsed, side, side]

/-- `ZADD` is parsed alike in every case of its keywords. -/
lemma zadd_upper (args : List Bytes) :
    parse (ascii "ZADD" :: args) = parse (ascii "ZADD" :: OptionCommand.zadd.upperArgs args) := by
  match args with
  | [] => rfl
  | key :: args =>
    have parsed (args : List Bytes) : parse (ascii "ZADD" :: key :: args) =
        (parseScoreMemberPairs (extractZaddOptions args).2).bind fun members =>
          one (.zadd key members (extractZaddOptions args).1) key := rfl
    show _ = parse (ascii "ZADD" :: key :: upperFront _ args)
    rw [parsed, parsed, extractZaddOptions_upperFront]

/-- A store whose arguments `parse_zstore_command` takes apart. -/
lemma zstoreCommand_iff {name : Bytes}
    (make : Bytes → List Bytes → List ScoreTerm → TsNif.Aggregate → Command)
    (destination numkeys : Bytes)
    (injective : Function.Injective fun z : List Bytes × List ScoreTerm ×
      TsNif.Aggregate => make destination z.1 z.2.1 z.2.2)
    (parsed : ∀ rest, parse (name :: destination :: numkeys :: rest) =
      (parseZstore rest).bind fun z => some (make destination z.1 z.2.1 z.2.2, destination :: z.1))
    (rest : List Bytes) :
    parse (name :: destination :: numkeys :: rest) =
      parse (name :: destination :: numkeys :: upperZstore numkeys rest) ↔
      ∀ z, readZstore numkeys rest = some z → z.Literal := by
  rw [parsed, parsed, ← upperZstore_iff]
  refine ⟨fun eq => ?_, fun same => by rw [← same]⟩
  cases typed : parseZstore rest with
  | none =>
    rw [typed] at eq
    cases upper : parseZstore (upperZstore numkeys rest) with
    | none => rfl
    | some z =>
      rw [upper] at eq
      cases eq
  | some z =>
    rw [typed] at eq
    cases upper : parseZstore (upperZstore numkeys rest) with
    | none =>
      rw [upper] at eq
      cases eq
    | some z' =>
      rw [upper] at eq
      exact congrArg some (injective (Prod.mk.inj (Option.some.inj eq)).1)

/-- `ZUNIONSTORE` is parsed alike just with literal keywords. -/
lemma zunionstore_iff (args : List Bytes) :
    parse (ascii "ZUNIONSTORE" :: args) =
    parse (ascii "ZUNIONSTORE" :: OptionCommand.zunionstore.upperArgs args)
      ↔ OptionCommand.zunionstore.Literal args := by
  match args with
  | [] | [_] => exact iff_of_true rfl trivial
  | destination :: numkeys :: rest =>
    refine zstoreCommand_iff Command.zunionstore destination numkeys ?_ (fun _ => rfl) rest
    rintro ⟨sources, weights, mode⟩ ⟨sources', weights', mode'⟩ eq
    cases eq
    rfl

/-- `ZINTERSTORE` is parsed alike just with literal keywords. -/
lemma zinterstore_iff (args : List Bytes) :
    parse (ascii "ZINTERSTORE" :: args) =
    parse (ascii "ZINTERSTORE" :: OptionCommand.zinterstore.upperArgs args)
      ↔ OptionCommand.zinterstore.Literal args := by
  match args with
  | [] | [_] => exact iff_of_true rfl trivial
  | destination :: numkeys :: rest =>
    refine zstoreCommand_iff Command.zinterstore destination numkeys ?_ (fun _ => rfl) rest
    rintro ⟨sources, weights, mode⟩ ⟨sources', weights', mode'⟩ eq
    cases eq
    rfl

/-- `HGETDEL` is parsed alike just with a literal keyword. -/
lemma hgetdel_iff (args : List Bytes) :
    parse (ascii "HGETDEL" :: args) =
    parse (ascii "HGETDEL" :: OptionCommand.hgetdel.upperArgs args)
      ↔ OptionCommand.hgetdel.Literal args := by
  match args with
  | [] => exact iff_of_true rfl trivial
  | key :: rest =>
    have parsed (rest : List Bytes) : parse (ascii "HGETDEL" :: key :: rest) =
        some (.hgetdel key (extractHexpireFields rest), [key]) := rfl
    show _ = parse (ascii "HGETDEL" :: key :: upperFields rest) ↔ FieldsLiteral rest
    rw [parsed, parsed, ← extractHexpireFields_iff]
    simp

/-- `HPERSIST` is parsed alike just with a literal keyword. -/
lemma hpersist_iff (args : List Bytes) :
    parse (ascii "HPERSIST" :: args) =
    parse (ascii "HPERSIST" :: OptionCommand.hpersist.upperArgs args)
      ↔ OptionCommand.hpersist.Literal args := by
  match args with
  | [] => exact iff_of_true rfl trivial
  | key :: rest =>
    have parsed (rest : List Bytes) : parse (ascii "HPERSIST" :: key :: rest) =
        some (.hpersist key (extractHexpireFields (extractHexpireCondition rest).2), [key]) := rfl
    obtain ⟨condition, typed, upper⟩ := extractHexpireCondition_upper rest
    show _ = parse (ascii "HPERSIST" :: key :: upperExpire rest) ↔
      FieldsLiteral (behindCondition rest)
    rw [parsed, parsed, typed, upper, ← extractHexpireFields_iff]
    simp

/-- `HPEXPIREAT` is parsed alike just with literal keywords. -/
lemma hpexpireat_iff (args : List Bytes) :
    parse (ascii "HPEXPIREAT" :: args) =
    parse (ascii "HPEXPIREAT" :: OptionCommand.hpexpireat.upperArgs args)
      ↔ OptionCommand.hpexpireat.Literal args := by
  match args with
  | [] | [_] => exact iff_of_true rfl trivial
  | key :: timestamp :: rest =>
    have parsed (rest : List Bytes) : parse (ascii "HPEXPIREAT" :: key :: timestamp :: rest) =
        (Bytes.parseInt timestamp).bind fun timestamp => some (.hpexpireat key timestamp
          (extractHexpireCondition rest).1 (extractHexpireFields (extractHexpireCondition rest).2),
          [key]) := rfl
    obtain ⟨condition, typed, upper⟩ := extractHexpireCondition_upper rest
    show _ = parse (ascii "HPEXPIREAT" :: key :: timestamp :: upperExpire rest) ↔
      (Bytes.parseInt timestamp ≠ none → FieldsLiteral (behindCondition rest))
    rw [parsed, parsed, typed, upper, ← extractHexpireFields_iff]
    cases Bytes.parseInt timestamp with
    | none => exact iff_of_true rfl fun raised => absurd rfl raised
    | some timestamp => simp

omit [Graphemes] in
/-- A command with options is found by its name. -/
lemma ofName_eq {name : Bytes} {command : OptionCommand}
    (found : OptionCommand.ofName name = some command) : name = ascii command.name := by
  unfold OptionCommand.ofName at found
  have holds := List.find?_some found
  exact of_decide_eq_true holds

/-- The commands with option keywords. -/
lemma command_iff (command : OptionCommand) (args : List Bytes) :
    parse (ascii command.name :: args) = parse (ascii command.name :: command.upperArgs args)
      ↔ command.Literal args := by
  cases command with
  | set => exact iff_of_true (set_upper args) trivial
  | msetex => exact iff_of_true (msetex_upper args) trivial
  | linsert => exact iff_of_true (linsert_upper args) trivial
  | lmove => exact iff_of_true (lmove_upper args) trivial
  | zadd => exact iff_of_true (zadd_upper args) trivial
  | zrangestore => exact iff_of_true (zrangestore_upper args) trivial
  | zunionstore => exact zunionstore_iff args
  | zinterstore => exact zinterstore_iff args
  | hgetdel => exact hgetdel_iff args
  | hpexpireat => exact hpexpireat_iff args
  | hpersist => exact hpersist_iff args
  | hsetex =>
    cases args with
    | nil => exact iff_of_true rfl trivial
    | cons key args => exact parseHsetex_iff key args
  | copy => exact iff_of_true (copy_upper args) trivial
  | flushall => exact iff_of_true rfl trivial
  | flushdb => exact iff_of_true rfl trivial

end

/-- The case of the name and of the option keywords does not matter exactly where those that are
compared literally are in upper case. -/
theorem keywordCase_iff [Graphemes] (args : List Bytes) :
    parse args = parse (upperForm args) ↔ Literal args := by
  cases args with
  | nil => exact iff_of_true rfl trivial
  | cons name args =>
    rw [upperForm, Literal]
    by_cases upper : name.map upperAscii = name
    · rw [and_iff_right upper, upper]
      cases found : OptionCommand.ofName name with
      | none => exact iff_of_true rfl nofun
      | some command =>
        obtain rfl := ofName_eq found
        refine (command_iff command args).trans ⟨fun literal _ eq => ?_, fun all => all command rfl⟩
        cases eq
        exact literal
    · refine iff_of_false (fun eq => ?_) fun literal => upper literal.1
      rw [parse_lower upper] at eq
      have whole := parse_verbatim _ _ _ eq.symm
      split at whole
      · exact upper (List.cons.inj whole).1.symm
      · exact upper (List.cons.inj whole).1.symm

/-- `set k v` is a generic tuple. -/
theorem keywordCase_fails :
    @parse ⟨fun _ => false⟩ [ascii "set", ascii "k", ascii "v"]
      = some (.generic [ascii "set", ascii "k", ascii "v"], []) ∧
    upperForm [ascii "set", ascii "k", ascii "v"] = [ascii "SET", ascii "k", ascii "v"] ∧
    @parse ⟨fun _ => false⟩ [ascii "SET", ascii "k", ascii "v"] =
      some (.set (ascii "k") (ascii "v"), [ascii "k"]) ∧
    ¬ ∀ args, @parse ⟨fun _ => false⟩ args = @parse ⟨fun _ => false⟩ (upperForm args) := by
  have typed : @parse ⟨fun _ => false⟩ [ascii "set", ascii "k", ascii "v"]
      = some (.generic [ascii "set", ascii "k", ascii "v"], []) :=
        @parse_lower _ _ ⟨fun _ => false⟩ (by decide)
  have upper : upperForm [ascii "set", ascii "k", ascii "v"] =
    [ascii "SET", ascii "k", ascii "v"] := by
    decide +kernel
  have spoken : @parse ⟨fun _ => false⟩ [ascii "SET", ascii "k", ascii "v"]
      = some (.set (ascii "k") (ascii "v"), [ascii "k"]) := by decide +kernel
  refine ⟨typed, upper, spoken, fun all => ?_⟩
  have same := all [ascii "set", ascii "k", ascii "v"]
  rw [upper, typed, spoken] at same
  cases same

end Veidrodelis.RedisStream
