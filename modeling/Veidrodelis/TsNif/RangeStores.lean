import Veidrodelis.TsNif.EmptyContainers
import Veidrodelis.TsNif.Ranges
import Veidrodelis.TsNif.ScoreModel

/-!
# Stored ranges

`ZRANGESTORE` stores what `ZRANGE` selects. What `ZRANGE` selects is said here on its own, by the
arguments as they are written (`readOptions`, `readQuery`): ranks are counted from the end at which
the range starts, score and name bounds come in the order of the range, an infinity and `-` or `+`
are values like others, and the part that `LIMIT` leaves is a page. The storage reads the same
arguments in its own way, and `Straight` is where that makes no difference.
-/

namespace Veidrodelis.TsNif
open RedisNif (Fault)
open RedisNif.ReplicaParser (toUppercase)
open RedisStream (Command Graphemes)
open RedisStream.CommandParser (parse)
open StorageValue (zsets)

/-! ## What `ZRANGE` selects -/

/-- A place among the names, for the bounds of `BYLEX`. -/
inductive LexPoint where
  | lowest
  | name (member : Bytes)
  | highest
  deriving DecidableEq, Repr

/-- The order of the names, between its two ends. -/
def LexPoint.cmp : LexPoint → LexPoint → Ordering
  | lowest, lowest => .eq
  | lowest, _ => .lt
  | _, lowest => .gt
  | highest, highest => .eq
  | highest, _ => .gt
  | _, highest => .lt
  | name member, name member' => compare member member'

/-- A value lies between two bounds. -/
def inBounds {β : Type} (cmp : β → β → Ordering) (lower upper : Bound β) (b : β) : Bool :=
  lower.admitsFrom cmp b && upper.admitsUpTo cmp b

/-- What a range is asked by: ranks, scores or names. -/
inductive RangeQuery where
  | ranks (start stop : Int)
  | scores (lower upper : Bound Score)
  | names (lower upper : Bound LexPoint)
  deriving DecidableEq, Repr

/-- The other way round. -/
def directed {α : Type} (rev : Bool) (items : List α) : List α :=
    if rev then items.reverse else items

/-- The members in the range, in the order in which they are returned. -/
def RangeQuery.members (z : ZSet) (rev : Bool) : RangeQuery → List (Bytes × Score)
  | ranks start stop => slice (directed rev z.ranked) start stop
  | scores lower upper => directed rev (z.ranked.filter fun p => inBounds Score.cmp lower upper p.2)
  | names lower upper =>
    directed rev (z.entries.toList.filter fun p => inBounds LexPoint.cmp lower upper (.name p.1))

/-- An ASCII letter in upper case. -/
def upperAscii (b : UInt8) : UInt8 := if 97 ≤ b ∧ b ≤ 122 then b - 32 else b

/-- A word in any case. -/
def isWord (word : Bytes) (option : String) : Bool := word.map upperAscii = ascii option

/-- The options, in any order: `BYSCORE` and `BYLEX` exclude each other, and `LIMIT` has an offset
and a count. -/
def readOptions (options : RangeOptions) : List Bytes → Option RangeOptions
  | [] => if options.byScore && options.byLex then none else some options
  | word :: rest =>
    if isWord word "BYSCORE" then readOptions { options with byScore := true } rest
    else if isWord word "BYLEX" then readOptions { options with byLex := true } rest
    else if isWord word "REV" then readOptions { options with rev := true } rest
    else if isWord word "LIMIT" then
      match rest with
      | offset :: count :: rest =>
        match parseI64 offset, parseI64 count with
        | some offset, some count => readOptions { options with limit := some (offset, count) } rest
        | _, _ => none
      | _ => none
    else none

/-- A score: a number or an infinity. -/
def readScore (text : Bytes) : Option Score :=
  (Binary64.parse text).filter fun score => !Binary64.isNaN score

/-- A bound of `BYSCORE`, which an opening parenthesis excludes. -/
def readScoreBound (text : Bytes) : Option (Bound Score) :=
  match stripByte 40 text with
  | some rest => (readScore rest).map .excluded
  | none => (readScore text).map .included

/-- A bound of `BYLEX`. -/
def readLexBound (text : Bytes) : Option (Bound LexPoint) :=
  if text = ascii "-" then some (.included .lowest)
  else if text = ascii "+" then some (.included .highest)
  else
    match stripByte 91 text, stripByte 40 text with
    | some member, _ => some (.included (.name member))
    | none, some member => some (.excluded (.name member))
    | none, none => none

/-- The bounds are given in the order of the range: with `REV`, the upper one comes first. -/
def readQuery (first second : Bytes) (options : RangeOptions) : Option RangeQuery :=
  let (lower, upper) := if options.rev then (second, first) else (first, second)
  if options.byLex then do return .names (← readLexBound lower) (← readLexBound upper)
  else if options.byScore then do return .scores (← readScoreBound lower) (← readScoreBound upper)
  else do return .ranks (← parseI64 first) (← parseI64 second)

/-- The sorted set at a key; an absent one is empty. -/
def zsetAt (s : StorageInner) (db : Nat) (key : Bytes) : Option ZSet :=
  match s.lookup db key with
  | none => some .new
  | some (.zset z) => some z
  | some _ => none

/-- What `ZRANGE` returns. -/
def selected (z : ZSet) (query : RangeQuery) (options : RangeOptions) : List (Bytes × Score) :=
  page (query.members z options.rev) options.limit

/-- The selected members with their scores and no others are stored, and nothing is when there are
none. -/
structure HoldsSelected (slot : Slot) (members : List (Bytes × Score)) : Prop where
  absent : slot = none ↔ members = []
  held : members ≠ [] → ∃ z, slot = some (.zset z) ∧
    ∀ member score, z.entries[member]? = some score ↔ (member, score) ∈ members

/-! ## Where the storage selects the same -/

/-- The bounds, as the storage reads them, and whether they admit a value. -/
def admitted {β : Type} (parse : Bytes → Except Fault (Bound β)) (cmp : β → β → Ordering)
    (first second : Bytes) (b : β) : Bool :=
  match parse first, parse second with
  | .ok min, .ok max => inBounds cmp min max b
  | _, _ => false

/-- The ranks are counted from the first member: a stop in front of it does not select it, and with
`REV` the range is as far from the one end as from the other. -/
def SameRanks (n : Nat) (rev : Bool) (start stop : Int) : Prop :=
  if sliceStart n start ≤ sliceStop n stop then rev = true →
    sliceStart n start + sliceStop n stop = n - 1
  else n ≠ 0 → sliceStop n stop < 0 → sliceStart n start ≠ 0

/-- The storage takes the same members for the range. -/
def SameRange (z : ZSet) (rev : Bool) (first second : Bytes) : RangeQuery → Prop
  | .ranks start stop => SameRanks z.len rev start stop
  | .scores lower upper => ∀ p ∈ z.ranked,
    admitted parseScoreBound Score.cmp first second p.2 = inBounds Score.cmp lower upper p.2
  | .names lower upper => ∀ p ∈ z.entries.toList,
    admitted parseLexBound compare first second p.1 = inBounds LexPoint.cmp lower upper (.name p.1)

/-- No negative offset or count changes what is left of a range of so many members. -/
def SameLimit (n : Nat) : Option (Int × Int) → Prop
  | none => True
  | some (offset, count) => if offset < 0 then count ≤ 0 ∨ n = 0 else count < 0 → n ≤ offset

/-- Bounds that are no text are refused, and nothing is done. A source that is the destination is
gone when it is read. Otherwise it takes the same range and the same page. -/
def Straight (s : StorageInner) (db : Nat) (destKey sourceKey first second : Bytes) (z : ZSet)
    (query : RangeQuery) (options : RangeOptions) : Prop :=
  if ¬ (Bytes.validUtf8 first ∧ Bytes.validUtf8 second) then
    HoldsSelected (s.lookup db destKey) (selected z query options)
  else if sourceKey = destKey then selected z query options = []
  else SameRange z options.rev first second query ∧
    SameLimit (query.members z options.rev).length options.limit

/-! ## The options -/

/-- All bytes are ASCII characters. -/
def IsAscii (text : Bytes) : Prop := ∀ b ∈ text, b ≤ 0x7F

instance (text : Bytes) : Decidable (IsAscii text) :=
  inferInstanceAs (Decidable (∀ b ∈ text, b ≤ 0x7F))

/-- ASCII texts are put into upper case byte by byte. -/
lemma toUppercase_ascii {text : Bytes} (h : IsAscii text) :
    toUppercase text = text.map upperAscii := by
  induction text with
  | nil => rfl
  | cons b rest ih =>
    have small : b ≤ 0x7F := h b List.mem_cons_self
    have tail := ih fun b mem => h b (List.mem_cons_of_mem _ mem)
    unfold toUppercase
    split
    · -- the lead byte of a letter that is no ASCII character
      rename_i eq
      cases eq
      exact absurd small (by decide)
    · rename_i eq
      cases eq
      exact absurd small (by decide)
    · rename_i eq
      cases eq
      rw [tail]
      rfl
    · rename_i eq
      cases eq

/-- ASCII texts are UTF-8. -/
lemma validUtf8_ascii {text : Bytes} (h : IsAscii text) : Bytes.validUtf8 text = true := by
  unfold Bytes.validUtf8
  induction text with
  | nil => rfl
  | cons b rest ih =>
    rw [Bytes.validUtf8From, if_pos (h b List.mem_cons_self)]
    exact ih fun b mem => h b (List.mem_cons_of_mem _ mem)

/-- A byte that is ASCII in upper case is ASCII. -/
lemma upperAscii_ascii {b : UInt8} (h : upperAscii b ≤ 0x7F) : b ≤ 0x7F := by
  unfold upperAscii at h
  split at h
  · rename_i letter
    exact UInt8.le_trans letter.2 (by decide)
  · exact h

/-- An option is ASCII text, and it is the word in upper case. -/
lemma isWord_spec {word : Bytes} {option : String} (h : isWord word option = true)
    (ascii_option : IsAscii (ascii option)) : IsAscii word ∧ toUppercase word = ascii option := by
  have eq : word.map upperAscii = ascii option := of_decide_eq_true h
  have plain : IsAscii word := by
    intro b mem
    apply upperAscii_ascii
    apply ascii_option
    rw [← eq]
    exact List.mem_map_of_mem mem
  exact ⟨plain, (toUppercase_ascii plain).trans eq⟩

/-- A digit is ASCII, and its own upper case. -/
lemma digit_plain {b : UInt8} (h : Bytes.isDigit b = true) : b ≤ 0x7F ∧ upperAscii b = b := by
  have range : 48 ≤ b ∧ b ≤ 57 := by simpa [Bytes.isDigit] using h
  refine ⟨UInt8.le_trans range.2 (by decide), ?_⟩
  rw [upperAscii, if_neg]
  intro letter
  exact absurd (UInt8.le_trans letter.1 range.2) (by decide)

/-- A number has no letters. -/
lemma parseI64_plain {text : Bytes} {i : Int} (h : parseI64 text = some i) :
    IsAscii text ∧ toUppercase text = text := by
  have each : ∀ b ∈ text, b ≤ 0x7F ∧ upperAscii b = b := by
    have digits (rest : Bytes) (all : rest.all Bytes.isDigit = true) : ∀ b ∈ rest, b ≤ 0x7F ∧
      upperAscii b = b :=
      fun b mem => digit_plain (List.all_eq_true.mp all b mem)
    obtain ⟨found, _⟩ := Option.filter_eq_some_iff.mp h
    unfold Bytes.parseInt at found
    split at found
    rename_i negative rest split_eq
    split at found
    · rename_i all
      split at split_eq
      · cases split_eq
        rintro b (_ | ⟨_, mem⟩)
        · decide
        · exact digits _ all.2 b mem
      · cases split_eq
        rintro b (_ | ⟨_, mem⟩)
        · decide
        · exact digits _ all.2 b mem
      · cases split_eq
        exact digits _ all.2
    · cases found
  have plain : IsAscii text := fun b mem => (each b mem).1
  refine ⟨plain, ?_⟩
  rw [toUppercase_ascii plain]
  exact (List.map_congr_left fun b mem => (each b mem).2).trans (List.map_id text)

/-- ASCII texts decode. -/
lemma decodeString_ascii {text : Bytes} (h : IsAscii text) : decodeString text = some text :=
  if_pos (validUtf8_ascii h)

/-- The parser puts the options into upper case, and the storage finds the same ones. -/
lemma rangeOptions_eq {options options' : RangeOptions} {words : List Bytes}
    (h : readOptions options words = some options') :
    (∀ word ∈ words, IsAscii (toUppercase word)) ∧
      rangeOptions options (words.map toUppercase) = options' := by
  have keyword {word : Bytes} {option : String} (found : isWord word option = true)
      (ascii_option : IsAscii (ascii option)) :
      IsAscii (toUppercase word) ∧ toUppercase word = ascii option := by
    obtain ⟨_, upper⟩ := isWord_spec found ascii_option
    rw [upper]
    exact ⟨ascii_option, rfl⟩
  fun_induction readOptions options words with
  | case1 => cases h
  | case2 => exact ⟨nofun, Option.some.inj h⟩
  | case3 options word rest found ih =>
    obtain ⟨here, upper⟩ := keyword found (by decide +kernel)
    obtain ⟨later, eq⟩ := ih h
    refine ⟨List.forall_mem_cons.mpr ⟨here, later⟩, ?_⟩
    rw [List.map_cons, rangeOptions.eq_def, upper]
    exact eq
  | case4 options word rest _ found ih =>
    obtain ⟨here, upper⟩ := keyword found (by decide +kernel)
    obtain ⟨later, eq⟩ := ih h
    refine ⟨List.forall_mem_cons.mpr ⟨here, later⟩, ?_⟩
    rw [List.map_cons, rangeOptions.eq_def, upper]
    exact eq
  | case5 options word rest _ _ found ih =>
    obtain ⟨here, upper⟩ := keyword found (by decide +kernel)
    obtain ⟨later, eq⟩ := ih h
    refine ⟨List.forall_mem_cons.mpr ⟨here, later⟩, ?_⟩
    rw [List.map_cons, rangeOptions.eq_def, upper]
    exact eq
  | case6 options word _ _ _ found offsetText countText rest offset count count_eq offset_eq ih =>
    obtain ⟨here, upper⟩ := keyword found (by decide +kernel)
    obtain ⟨later, eq⟩ := ih h
    -- numbers have no letters, so they stay as they are
    obtain ⟨offset_plain, offset_upper⟩ := parseI64_plain offset_eq
    obtain ⟨count_plain, count_upper⟩ := parseI64_plain count_eq
    constructor
    · rintro word (_ | ⟨_, _ | ⟨_, _ | ⟨_, mem⟩⟩⟩)
      · exact here
      · rwa [offset_upper]
      · rwa [count_upper]
      · exact later word mem
    · rw [List.map_cons, List.map_cons, List.map_cons, rangeOptions.eq_def, upper, offset_upper,
        count_upper]
      show (match parseI64 offsetText, parseI64 countText with
        | some offset, some count =>
          rangeOptions { options with limit := some (offset, count) } (rest.map toUppercase)
        | _, _ => _) = options'
      rw [offset_eq, count_eq]
      exact eq
  | case7 => cases h
  | case8 => cases h
  | case9 => cases h

/-- Lists of ASCII texts decode. -/
lemma mapM_decodeString {words : List Bytes} (h : ∀ word ∈ words, IsAscii word) :
    words.mapM decodeString = some words := by
  induction words with
  | nil => rfl
  | cons word rest ih =>
    rw [List.mapM_cons, decodeString_ascii (h word List.mem_cons_self),
      ih fun word mem => h word (List.mem_cons_of_mem _ mem)]
    rfl

/-! ## What the storage collects -/

namespace ZSet

variable {z : ZSet} {score score' : Score} {member : Bytes}

/-- A boundary key is around the members of its score. -/
lemma minScoreKey_cmp : (ZSetIndexKey.minScoreKey score).cmp (.key score' member) =
    (Score.cmp score score').then .lt := rfl

/-- A member is in front of the end of its score. -/
lemma cmp_maxScoreKey : (ZSetIndexKey.key score member).cmp (.maxScoreKey score') =
    (Score.cmp score score').then .lt := rfl

/-- Only what is greater at first stays greater. -/
lemma then_lt_eq_gt {o : Ordering} : o.then .lt = .gt ↔ o = .gt := by
  cases o with
  | lt => decide
  | eq => decide
  | gt => decide

/-- The range of the index has all members between the bounds. -/
lemma keys_admit {min max : Bound Score} (h : inBounds Score.cmp min max score = true) :
    ((minKey min).admitsFrom ZSetIndexKey.cmp (.key score member) &&
      (maxKey max).admitsUpTo ZSetIndexKey.cmp (.key score member)) = true := by
  obtain ⟨first, last⟩ := Bool.and_eq_true_iff.mp h
  rw [Bool.and_eq_true]
  constructor
  · cases min with
    | unbounded => rfl
    | included lower =>
      simp only [minKey, Bound.admitsFrom, bne_iff_ne, ne_eq, minScoreKey_cmp,
        then_lt_eq_gt] at first ⊢
      exact first
    | excluded lower =>
      simp only [minKey, Bound.admitsFrom, bne_iff_ne, ne_eq, minScoreKey_cmp, then_lt_eq_gt,
        beq_iff_eq] at first ⊢
      simp [first]
  · cases max with
    | unbounded => rfl
    | included upper =>
      simp only [maxKey, Bound.admitsUpTo, bne_iff_ne, ne_eq, cmp_maxScoreKey,
        then_lt_eq_gt] at last ⊢
      exact last
    | excluded upper =>
      simp only [maxKey, Bound.admitsUpTo, bne_iff_ne, ne_eq, cmp_maxScoreKey, then_lt_eq_gt,
        beq_iff_eq] at last ⊢
      simp [last]

/-- A range by scores collects the members between the bounds, or it is refused and there are
none. -/
lemma scoreRange_eq [Indexset] (h : z.Consistent) (min max : Bound Score) :
    z.scoreRange min max = .ok (z.ranked.filter fun p => inBounds Score.cmp min max p.2) ∨
      (∃ msg, z.scoreRange min max = .error (.panic msg)) ∧
        z.ranked.filter (fun p => inBounds Score.cmp min max p.2) = [] := by
  have elements : ∀ k ∈ z.index.elems, ∃ score member, k = .key score member := by
    intro k mem
    obtain ⟨member, score, _, rfl⟩ := (h k).mp mem
    exact ⟨score, member, rfl⟩
  unfold scoreRange
  split
  · rename_i refused
    refine .inr ⟨⟨_, rfl⟩, List.filter_eq_nil_iff.mpr fun p mem inside => ?_⟩
    obtain ⟨k, inIndex, rfl⟩ := List.mem_map.mp mem
    obtain ⟨score, member, rfl⟩ := elements k inIndex
    have admitted : ((minKey min).admitsFrom ZSetIndexKey.cmp (.key score member) &&
        (maxKey max).admitsUpTo ZSetIndexKey.cmp (.key score member)) = true :=
      keys_admit inside
    rw [Bound.not_admits_of_crossed (Bool.and_eq_true_iff.mp refused).2] at admitted
    cases admitted
  · left
    rw [membersOf_eq fun k mem => elements k ((Indexset.sublist _ _ _).subset mem)]
    refine congrArg Except.ok ?_
    rw [ranked, List.filter_map, List.filter_map]
    congr 1
    -- whatever else the range yields does not pass the filter
    refine OrderedSet.filter_of_sublist (Indexset.sublist _ _ _)
      fun k mem inside => Indexset.covers _ _ _ ?_
    obtain ⟨score, member, rfl⟩ := elements k mem
    exact List.mem_filter.mpr ⟨mem, keys_admit inside⟩

/-- A range by names. -/
lemma lexRange_eq (z : ZSet) (min max : Bound Bytes) :
    z.lexRange min max = .ok (z.entries.toList.filter fun p => inBounds compare min max p.1) ∨
      (∃ msg, z.lexRange min max = .error (.panic msg)) ∧
        z.entries.toList.filter (fun p => inBounds compare min max p.1) = [] := by
  unfold lexRange
  split
  · rename_i refused
    refine .inr ⟨⟨_, rfl⟩, List.filter_eq_nil_iff.mpr fun p _ inside => ?_⟩
    rw [inBounds, Bound.not_admits_of_crossed refused] at inside
    cases inside
  · exact .inl rfl

end ZSet

/-- The members that the storage collects. -/
def taken (z : ZSet) (first second : Bytes) : RangeQuery → List (Bytes × Score)
  | .ranks start stop =>
    if rankStart z.len start ≤ rankStop z.len stop ∧ rankStart z.len start < z.len then
      (z.ranked.drop (rankStart z.len start)).take (rankStop z.len stop + 1 - rankStart z.len start)
    else []
  | .scores _ _ => z.ranked.filter fun p => admitted parseScoreBound Score.cmp first second p.2
  | .names _ _ => z.entries.toList.filter fun p => admitted parseLexBound compare first second p.1

/-- The storage reads a finite bound as it is meant. -/
lemma parseScoreBound_eq {text : Bytes} {bound : Bound Score}
    (read : readScoreBound text = some bound)
    (finite : ¬ (text = ascii "-inf" ∨ text = ascii "+inf")) :
    parseScoreBound text = .ok bound := by
  have number {rest : Bytes} {score : Score} (h : readScore rest = some score) : parseScore rest =
    .ok score := by
    rw [parseScore, (Option.filter_eq_some_iff.mp h).1]
  rw [readScoreBound] at read
  rw [parseScoreBound, if_neg finite]
  cases stripped : stripByte 40 text with
  | some rest =>
    rw [stripped] at read
    obtain ⟨score, found, rfl⟩ := Option.map_eq_some_iff.mp read
    exact congrArg (Except.map _) (number found)
  | none =>
    rw [stripped] at read
    obtain ⟨score, found, rfl⟩ := Option.map_eq_some_iff.mp read
    exact congrArg (Except.map _) (number found)

/-- A bound that is read is parsed. -/
lemma parseScoreBound_ok {text : Bytes} {bound : Bound Score}
    (read : readScoreBound text = some bound) : ∃ bound', parseScoreBound text = .ok bound' := by
  by_cases finite : text = ascii "-inf" ∨ text = ascii "+inf"
  · exact ⟨.unbounded, if_pos finite⟩
  · exact ⟨bound, parseScoreBound_eq read finite⟩

/-- The storage reads a bound that is a name as it is meant. -/
lemma parseLexBound_eq {text : Bytes} {bound : Bound LexPoint}
    (read : readLexBound text = some bound) (name : ¬ (text = ascii "-" ∨ text = ascii "+")) :
    ∃ bound', parseLexBound text = .ok bound' ∧
      ∀ member, bound'.admitsFrom compare member = bound.admitsFrom LexPoint.cmp (.name member) ∧
        bound'.admitsUpTo compare member = bound.admitsUpTo LexPoint.cmp (.name member) := by
  rw [parseLexBound, if_neg name]
  rw [not_or] at name
  rw [readLexBound, if_neg name.1, if_neg name.2] at read
  cases closed : stripByte 91 text with
  | some stripped =>
    rw [closed] at read
    cases read
    exact ⟨_, rfl, fun member => ⟨rfl, rfl⟩⟩
  | none =>
    rw [closed] at read
    cases opened : stripByte 40 text with
    | some stripped =>
      rw [opened] at read
      cases read
      exact ⟨_, rfl, fun member => ⟨rfl, rfl⟩⟩
    | none =>
      rw [opened] at read
      cases read

/-- A bound that is read is parsed. -/
lemma parseLexBound_ok {text : Bytes} {bound : Bound LexPoint}
    (read : readLexBound text = some bound) : ∃ bound', parseLexBound text = .ok bound' := by
  by_cases point : text = ascii "-" ∨ text = ascii "+"
  · exact ⟨.unbounded, if_pos point⟩
  · obtain ⟨bound', parsed, _⟩ := parseLexBound_eq read point
    exact ⟨bound', parsed⟩

/-- What a query is read from: the texts of both bounds are bounds for the storage. -/
inductive Readable (first second : Bytes) (options : RangeOptions) : RangeQuery → Prop where
  | ranks {start stop : Int} (byLex : options.byLex = false) (byScore : options.byScore = false)
    (start_eq : parseI64 first = some start) (stop_eq : parseI64 second = some stop) :
    Readable first second options (.ranks start stop)
  | scores {lower upper : Bound Score} {min max : Bound Score} (byLex : options.byLex = false)
      (byScore : options.byScore = true) (min_eq : parseScoreBound first = .ok min)
      (max_eq : parseScoreBound second = .ok max) : Readable first second options
      (.scores lower upper)
  | names {lower upper : Bound LexPoint} {min max : Bound Bytes} (byLex : options.byLex = true)
    (min_eq : parseLexBound first = .ok min) (max_eq : parseLexBound second = .ok max) :
    Readable first second options (.names lower upper)

/-- A query that is read is readable. -/
lemma readQuery_readable {first second : Bytes} {options : RangeOptions} {query : RangeQuery}
    (read : readQuery first second options = some query) : Readable first second options query := by
  unfold readQuery at read
  split at read
  rename_i lower upper order
  -- the texts are the same, in one order or the other
  have both {p : Bytes → Prop} (h : p lower) (h' : p upper) : p first ∧ p second := by
    split at order
    · cases order
      exact ⟨h', h⟩
    · cases order
      exact ⟨h, h'⟩
  split at read
  · rename_i byLex
    obtain ⟨low, low_eq, read⟩ := Option.bind_eq_some_iff.mp read
    obtain ⟨up, up_eq, read⟩ := Option.bind_eq_some_iff.mp read
    cases read
    obtain ⟨⟨min, min_eq⟩, ⟨max, max_eq⟩⟩ :=
      both (p := fun text => ∃ bound, parseLexBound text = .ok bound)
      (parseLexBound_ok low_eq) (parseLexBound_ok up_eq)
    exact .names byLex min_eq max_eq
  · rename_i byLex
    split at read
    · rename_i byScore
      obtain ⟨low, low_eq, read⟩ := Option.bind_eq_some_iff.mp read
      obtain ⟨up, up_eq, read⟩ := Option.bind_eq_some_iff.mp read
      cases read
      obtain ⟨⟨min, min_eq⟩, ⟨max, max_eq⟩⟩ :=
        both (p := fun text => ∃ bound, parseScoreBound text = .ok bound)
        (parseScoreBound_ok low_eq) (parseScoreBound_ok up_eq)
      exact .scores (Bool.not_eq_true _ ▸ byLex) byScore min_eq max_eq
    · rename_i byScore
      obtain ⟨start, start_eq, read⟩ := Option.bind_eq_some_iff.mp read
      obtain ⟨stop, stop_eq, read⟩ := Option.bind_eq_some_iff.mp read
      cases read
      exact .ranks (Bool.not_eq_true _ ▸ byLex) (Bool.not_eq_true _ ▸ byScore) start_eq stop_eq

/-- The storage collects its range, or it panics where there is nothing to collect. -/
lemma collectRange_eq [Indexset] {z : ZSet} (h : z.Consistent) {first second : Bytes}
    {options : RangeOptions} {query : RangeQuery} (readable : Readable first second options query) :
    collectRange z first second options = .ok (taken z first second query) ∨
      (∃ msg, collectRange z first second options = .error (.panic msg)) ∧
      taken z first second query = [] := by
  cases readable with
  | @ranks start stop byLex byScore start_eq stop_eq =>
    left
    simp only [collectRange, byLex, byScore, start_eq, stop_eq, taken, Bool.false_eq_true, if_false]
    by_cases ordered : rankStart z.len start ≤ rankStop z.len stop ∧ rankStart z.len start < z.len
    · rw [if_pos ordered, if_pos ordered]
      exact ZSet.rankRange_eq h _ _
    · rw [if_neg ordered, if_neg ordered]
  | scores byLex byScore min_eq max_eq =>
    simp only [collectRange, byLex, byScore, min_eq, max_eq, taken, admitted]
    exact ZSet.scoreRange_eq h _ _
  | names byLex min_eq max_eq =>
    simp only [collectRange, byLex, min_eq, max_eq, taken, admitted]
    exact ZSet.lexRange_eq z _ _

/-! ## What is stored -/

/-- A direction loses no item. -/
lemma mem_directed {α : Type} (rev : Bool) {items : List α} {a : α} :
    a ∈ directed rev items ↔ a ∈ items := by
  unfold directed
  split
  · exact List.mem_reverse
  · exact Iff.rfl

/-- Members with different names are stored with their scores. -/
lemma getElem?_ofMembers {members : List (Bytes × Score)} (names : (members.map (·.1)).Nodup)
    (member : Bytes) (score : Score) :
    (ZSet.ofMembers members).entries[member]? = some score ↔ (member, score) ∈ members := by
  obtain ⟨found, missed⟩ := getElem?_foldl_update (fun _ score _ => score) names ∅ member
  rw [entries_foldl]
  constructor
  · intro here
    by_cases exist : ∃ score, (member, score) ∈ members
    · obtain ⟨score', mem⟩ := exist
      rw [found score' mem] at here
      cases here
      exact mem
    · rw [missed (not_exists.mp exist)] at here
      simp at here
  · exact found score

/-- A sorted set made of members holds the wanted ones when they are the same. -/
lemma holdsSelected_iff {members wanted : List (Bytes × Score)}
    (names : (members.map (·.1)).Nodup) :
    HoldsSelected (zsets.unlessEmpty (ZSet.ofMembers members)) wanted ↔ ∀ p, p ∈ members ↔
      p ∈ wanted := by
  have slot : zsets.unlessEmpty (ZSet.ofMembers members) =
      if members = [] then none else some (.zset (ZSet.ofMembers members)) := by
    rw [Container.unlessEmpty]
    show (if (ZSet.ofMembers members).isEmpty = true then _ else _) = _
    rw [isEmpty_ofMembers]
    simp only [List.isEmpty_iff]
    rfl
  rw [slot]
  by_cases isNil : members = []
  · rw [if_pos isNil, isNil]
    constructor
    · intro h p
      rw [h.absent.mp rfl]
    · intro same
      have nothing : wanted = [] := List.eq_nil_iff_forall_not_mem.mpr fun p mem =>
      List.not_mem_nil ((same p).mpr mem)
      exact ⟨iff_of_true rfl nothing, fun filled => absurd nothing filled⟩
  · rw [if_neg isNil]
    constructor
    · rintro h ⟨member, score⟩
      have nonempty : wanted ≠ [] := mt h.absent.mpr (by rintro ⟨⟩)
      obtain ⟨z, eq, entries⟩ := h.held nonempty
      cases eq
      rw [← entries, getElem?_ofMembers names]
    · intro same
      refine ⟨iff_of_false (by rintro ⟨⟩) ?_, fun _ => ⟨_, rfl, fun member score => ?_⟩⟩
      · rintro rfl
        exact isNil (List.eq_nil_iff_forall_not_mem.mpr
          fun p mem => List.not_mem_nil ((same p).mp mem))
      · rw [getElem?_ofMembers names, same]

section
variable {z : ZSet} {first second : Bytes} {query : RangeQuery} {start stop : Int} {rev : Bool}

/-- No member is taken twice. -/
lemma names_taken (h : z.Consistent) : ((taken z first second query).map (·.1)).Nodup := by
  cases query with
  | ranks start stop =>
    simp only [taken]
    split
    · exact (ZSet.ranked_nodup h).sublist
        (((List.take_sublist _ _).trans (List.drop_sublist _ _)).map _)
    · exact List.nodup_nil
  | scores lower upper => exact (ZSet.ranked_nodup h).sublist (List.filter_sublist.map _)
  | names lower upper => exact (ZSet.names_toList z.entries).sublist (List.filter_sublist.map _)

/-- No items have no direction. -/
@[simp] lemma directed_nil {α : Type} (rev : Bool) : directed rev ([] : List α) = [] := by
  unfold directed
  split
  · rfl
  · rfl

/-- A limit takes nothing of nothing. -/
@[simp] lemma applyLimit_nil (limit : Option (Int × Int)) : applyLimit [] limit = [] := by
  cases limit with
  | none => rfl
  | some bounds => rw [applyLimit, List.drop_nil, List.take_nil]

/-- Nothing is taken out of an empty sorted set. -/
lemma taken_empty (h : z.Consistent) (isEmpty : z.isEmpty = true) :
    taken z first second query = [] := by
  have size : z.len = 0 :=
    Std.ExtTreeMap.eq_empty_iff_size_eq_zero.mp (Std.ExtTreeMap.isEmpty_iff.mp isEmpty)
  have ranked : z.ranked = [] := List.length_eq_zero_iff.mp ((ZSet.length_ranked h).trans size)
  have entries : z.entries.toList = [] := by
    rw [← List.length_eq_zero_iff, Std.ExtTreeMap.length_toList]
    exact size
  cases query with
  | ranks start stop => exact if_neg fun ordered => absurd ordered.2 (by omega)
  | scores lower upper => rw [taken, ranked, List.filter_nil]
  | names lower upper => rw [taken, entries, List.filter_nil]

/-- What is at the destination after the command, when the source is another key. -/
lemma lookup_zrangestore [Indexset] {s : StorageInner} {db : Nat} {destKey sourceKey : Bytes}
    {options : RangeOptions} (found : zsetAt s db sourceKey = some z) (h : z.Consistent)
    (other : sourceKey ≠ destKey) (readable : Readable first second options query) :
    (zrangestore db destKey sourceKey first second options s).1.lookup db destKey =
      zsets.unlessEmpty (ZSet.ofMembers
      (applyLimit (directed options.rev (taken z first second query)) options.limit)) := by
  have nothing (isNil : taken z first second query = []) : zsets.unlessEmpty
      (ZSet.ofMembers (applyLimit
        (directed options.rev (taken z first second query)) options.limit)) =
      Option.none := by
    rw [isNil, directed_nil, applyLimit_nil]
    rfl
  rw [zrangestore, lookup_storeResult, lookup_source, StorageInner.source, if_neg other]
  unfold zsetAt at found
  split at found
  · rename_i absent
    cases found
    rw [absent, nothing (taken_empty h rfl)]
    rfl
  · rename_i z' held
    cases found
    rw [held]
    simp only
    by_cases isEmpty : z.isEmpty = true
    · rw [if_pos isEmpty, nothing (taken_empty h isEmpty)]
      rfl
    · rw [if_neg isEmpty]
      rcases collectRange_eq h readable with collected | ⟨⟨msg, refused⟩, isNil⟩
      · rw [collected]
        rfl
      · rw [refused, nothing isNil]
        rfl
  · cases found

/-! ## The same range -/

/-- The start of a range of ranks is cut to the length. -/
lemma rankStart_eq (n : Nat) (start : Int) :
    (rankStart n start : Int) = min (n : Int) (sliceStart n start) := by
  unfold rankStart sliceStart fromFront
  split
  · omega
  · omega

/-- The stop of a range of ranks is not negative. -/
lemma rankStop_eq (n : Nat) (stop : Int) : (rankStop n stop : Int) = max 0 (sliceStop n stop) := by
  unfold rankStop sliceStop fromFront
  split
  · omega
  · omega

/-- A slice does not start in front of the list. -/
lemma sliceStart_nonneg (n : Nat) (start : Int) : 0 ≤ sliceStart n start := Int.le_max_left _ _

/-- A slice does not stop behind the list. -/
lemma sliceStop_lt (n : Nat) (stop : Int) : sliceStop n stop < n := by
  have last : sliceStop n stop ≤ (n : Int) - 1 := Int.min_le_left _ _
  omega

/-- The storage takes the ranks from the first member on. -/
lemma taken_ranks (ordered : sliceStart z.len start ≤ sliceStop z.len stop) :
    taken z first second (.ranks start stop) =
      between z.ranked (sliceStart z.len start) (sliceStop z.len stop) := by
  have low := sliceStart_nonneg z.len start
  have high := sliceStop_lt z.len stop
  have start_eq := rankStart_eq z.len start
  have stop_eq := rankStop_eq z.len stop
  have inside : rankStart z.len start ≤ rankStop z.len stop ∧ rankStart z.len start < z.len := by
    omega
  rw [taken, if_pos inside, between_eq _ low]
  congr 1
  · omega
  · congr 1
    omega

/-- The slice of the members, from either end. -/
lemma members_ranks (h : z.Consistent) :
    RangeQuery.members z rev (.ranks start stop) = directed rev (if rev then
        between z.ranked (z.len - 1 - sliceStop z.len stop) (z.len - 1 - sliceStart z.len start)
      else between z.ranked (sliceStart z.len start) (sliceStop z.len stop)) := by
  have size := ZSet.length_ranked h
  cases rev with
  | false =>
    show slice z.ranked start stop = _
    rw [slice, size]
    rfl
  | true =>
    show slice z.ranked.reverse start stop = _
    rw [slice, List.length_reverse, size, between_reverse _ (sliceStart_nonneg _ _), size]
    · rfl
    · rw [size]
      exact sliceStop_lt _ _

/-- A range of ranks that ends before it starts is empty. -/
lemma members_ranks_nil (h : z.Consistent)
    (crossed : ¬ sliceStart z.len start ≤ sliceStop z.len stop) :
    RangeQuery.members z rev (.ranks start stop) = [] := by
  have size : (directed rev z.ranked).length = z.len := by
    cases rev with
    | false => exact ZSet.length_ranked h
    | true => exact (List.length_reverse).trans (ZSet.length_ranked h)
  rw [RangeQuery.members, slice_eq_nil, size]
  exact .inl (not_le.mp crossed)

/-- The same range gives the same members in the same order. -/
lemma directed_taken (h : z.Consistent) (same : SameRange z rev first second query) :
    directed rev (taken z first second query) = query.members z rev := by
  cases query with
  | ranks start stop =>
    have same : SameRanks z.len rev start stop := same
    unfold SameRanks at same
    split at same
    · rename_i ordered
      rw [taken_ranks ordered, members_ranks h]
      cases rev with
      | false => rfl
      | true =>
        have middle := same rfl
        rw [if_pos rfl]
        congr 2
        · omega
        · omega
    · rename_i crossed
      rw [members_ranks_nil h crossed]
      have start_eq := rankStart_eq z.len start
      have stop_eq := rankStop_eq z.len stop
      have outside : ¬ (rankStart z.len start ≤ rankStop z.len stop ∧
        rankStart z.len start < z.len) := by
        have low := sliceStart_nonneg z.len start
        omega
      rw [taken, if_neg outside, directed_nil]
  | scores lower upper =>
    rw [taken, List.filter_congr same]
    rfl
  | names lower upper =>
    rw [taken, List.filter_congr same]
    rfl

/-- Where the same members are taken, it is the same range. -/
lemma sameRange_of_taken (h : z.Consistent)
    (same : ∀ p, p ∈ directed rev (taken z first second query) ↔ p ∈ query.members z rev) :
    SameRange z rev first second query := by
  cases query with
  | ranks start stop =>
    have nodup : z.ranked.Nodup := (ZSet.ranked_nodup h).of_map
    have size := ZSet.length_ranked h
    have low := sliceStart_nonneg z.len start
    have high := sliceStop_lt z.len stop
    show SameRanks z.len rev start stop
    unfold SameRanks
    split
    · rename_i ordered
      rintro rfl
      -- the members at the first ranks of both ranges are in both
      have ranks (i : Nat) (inside : i < z.len) : (sliceStart z.len start ≤ i ∧
        i ≤ sliceStop z.len stop) ↔
          (z.len - 1 - sliceStop z.len stop ≤ i ∧ i ≤ z.len - 1 - sliceStart z.len start) := by
        have lt : i < z.ranked.length := size ▸ inside
        have here := same z.ranked[i]
        rw [taken_ranks ordered, members_ranks h, mem_directed, mem_directed, if_pos rfl,
          mem_between nodup, mem_between nodup, nodup.idxOf_getElem i lt] at here
        simpa only [List.getElem_mem lt, true_and] using here
      have first := (ranks (sliceStart z.len start).toNat (by omega)).mp (by omega)
      have last := (ranks (z.len - 1 - sliceStop z.len stop).toNat (by omega)).mpr (by omega)
      omega
    · rename_i crossed
      intro filled negative front
      -- the first member is taken
      have start_eq := rankStart_eq z.len start
      have stop_eq := rankStop_eq z.len stop
      have first : rankStart z.len start = 0 := by omega
      have last : rankStop z.len stop = 0 := by omega
      obtain ⟨p, rest, eq⟩ :=
        List.exists_cons_of_ne_nil (mt List.length_eq_zero_iff.mpr (size ▸ filled))
      have here := (same p).mp (by
        rw [mem_directed, taken, first, last, if_pos (by omega), eq]
        exact List.mem_cons_self)
      rw [members_ranks_nil h crossed] at here
      cases here
  | scores lower upper =>
    intro p mem
    have here := same p
    simp only [taken, RangeQuery.members, mem_directed, List.mem_filter, mem, true_and] at here
    exact Bool.eq_iff_iff.mpr here
  | names lower upper =>
    intro p mem
    have here := same p
    simp only [taken, RangeQuery.members, mem_directed, List.mem_filter, mem, true_and] at here
    exact Bool.eq_iff_iff.mpr here

/-- The limit leaves the same members. -/
lemma sameLimit_iff {items : List (Bytes × Score)} {limit : Option (Int × Int)} :
    (∀ p, p ∈ applyLimit items limit ↔ p ∈ page items limit) ↔ SameLimit items.length limit := by
  have nothing {xs : List (Bytes × Score)} : (∀ p, p ∈ xs ↔ p ∈ ([] : List (Bytes × Score))) ↔
    xs = [] := by
    rw [List.eq_nil_iff_forall_not_mem]
    exact forall_congr' fun p => by simp
  cases limit with
  | none => exact iff_of_true (fun _ => Iff.rfl) trivial
  | some bounds =>
    obtain ⟨offset, count⟩ := bounds
    simp only [applyLimit, page, SameLimit]
    by_cases front : offset < 0
    · -- the storage starts at the first member, and nothing is selected
      rw [if_pos front, if_pos front, nothing, List.take_eq_nil_iff, List.drop_eq_nil_iff]
      omega
    · rw [if_neg front, if_neg front, Int.max_eq_left (not_lt.mp front)]
      by_cases unlimited : count < 0
      · -- the storage takes none of them
        have isZero : (max count 0).toNat = 0 := by omega
        have flip : (∀ p, p ∈ ([] : List (Bytes × Score)) ↔ p ∈ items.drop offset.toNat) ↔
            items.drop offset.toNat = [] := by
          rw [← nothing]
          exact forall_congr' fun p => iff_comm
        rw [if_pos unlimited, isZero, List.take_zero, flip, List.drop_eq_nil_iff]
        omega
      · rw [if_neg unlimited, Int.max_eq_left (not_lt.mp unlimited)]
        exact iff_of_true (fun _ => Iff.rfl) fun negative => absurd negative unlimited

end

/-! ## Ranges that are read alike -/

/-- Below all numbers, the storage has no bound. -/
lemma admitsFrom_scores {text : Bytes} {lower min : Bound Score}
    (read : readScoreBound text = some lower) (parsed : parseScoreBound text = .ok min)
    (low : text ≠ ascii "+inf") {score : Score} (number : Binary64.isNaN score = false) :
    min.admitsFrom Score.cmp score =
      lower.admitsFrom Score.cmp score := by
  by_cases infinite : text = ascii "-inf"
  · subst infinite
    have bound : readScoreBound (ascii "-inf") =
      some (.included (Binary64.withSign true Binary64.infBits)) := by
      decide +kernel
    cases bound.symm.trans read
    cases parsed
    have place : Binary64.place (Binary64.withSign true Binary64.infBits) =
      -(Binary64.infBits : Int) := by
      decide +kernel
    have least : (compare (-(Binary64.infBits : Int)) (Binary64.place score)).isLE = true :=
      Int.isLE_compare.mpr (Binary64.place_bounds number).1
    show true = (compare (Binary64.place _) (Binary64.place score) != .gt)
    rw [place, eq_comm, bne_iff_ne]
    exact Ordering.isLE_iff_ne_gt.mp least
  · cases (parseScoreBound_eq read (not_or.mpr ⟨infinite, low⟩)).symm.trans parsed
    rfl

/-- Above all numbers, it has none either. -/
lemma admitsUpTo_scores {text : Bytes} {upper max : Bound Score}
    (read : readScoreBound text = some upper) (parsed : parseScoreBound text = .ok max)
    (high : text ≠ ascii "-inf") {score : Score} (number : Binary64.isNaN score = false) :
    max.admitsUpTo Score.cmp score =
      upper.admitsUpTo Score.cmp score := by
  by_cases infinite : text = ascii "+inf"
  · subst infinite
    have bound : readScoreBound (ascii "+inf") = some (.included Binary64.infBits) := by
      decide +kernel
    cases bound.symm.trans read
    cases parsed
    have place : Binary64.place Binary64.infBits = Binary64.infBits := by decide +kernel
    have greatest : (compare (Binary64.place score) (Binary64.infBits : Int)).isLE = true :=
      Int.isLE_compare.mpr (Binary64.place_bounds number).2
    show true = (compare (Binary64.place score) (Binary64.place _) != .gt)
    rw [place, eq_comm, bne_iff_ne]
    exact Ordering.isLE_iff_ne_gt.mp greatest
  · cases (parseScoreBound_eq read (not_or.mpr ⟨high, infinite⟩)).symm.trans parsed
    rfl

/-- Bounds in the order of the scores, none of them at the wrong infinity, are read alike. -/
lemma sameRange_scores {z : ZSet} (numbers : ∀ p ∈ z.ranked, Binary64.isNaN p.2 = false)
    {first second : Bytes} {lower upper : Bound Score}
    (first_eq : readScoreBound first = some lower) (second_eq : readScoreBound second = some upper)
    (low : first ≠ ascii "+inf") (high : second ≠ ascii "-inf") :
    SameRange z false first second (.scores lower upper) := by
  obtain ⟨min, min_eq⟩ := parseScoreBound_ok first_eq
  obtain ⟨max, max_eq⟩ := parseScoreBound_ok second_eq
  intro p mem
  rw [admitted, min_eq, max_eq]
  simp only [inBounds]
  rw [admitsFrom_scores first_eq min_eq low (numbers p mem),
    admitsUpTo_scores second_eq max_eq high (numbers p mem)]

/-- Bounds in the order of the names, none of them at the wrong end, are read alike. -/
lemma sameRange_names (z : ZSet) {first second : Bytes} {lower upper : Bound LexPoint}
    (first_eq : readLexBound first = some lower) (second_eq : readLexBound second = some upper)
    (low : first ≠ ascii "+") (high : second ≠ ascii "-") :
      SameRange z false first second (.names lower upper) := by
  have from_lower : ∃ min, parseLexBound first = .ok min ∧
      ∀ member, min.admitsFrom compare member = lower.admitsFrom LexPoint.cmp (.name member) := by
    by_cases lowest : first = ascii "-"
    · subst lowest
      cases first_eq
      exact ⟨.unbounded, rfl, fun _ => rfl⟩
    · obtain ⟨min, parsed, same⟩ := parseLexBound_eq first_eq (not_or.mpr ⟨lowest, low⟩)
      exact ⟨min, parsed, fun member => (same member).1⟩
  have to_upper : ∃ max, parseLexBound second = .ok max ∧
      ∀ member, max.admitsUpTo compare member = upper.admitsUpTo LexPoint.cmp (.name member) := by
    by_cases highest : second = ascii "+"
    · subst highest
      cases second_eq
      exact ⟨.unbounded, rfl, fun _ => rfl⟩
    · obtain ⟨max, parsed, same⟩ := parseLexBound_eq second_eq (not_or.mpr ⟨high, highest⟩)
      exact ⟨max, parsed, fun member => (same member).2⟩
  obtain ⟨min, min_eq, same_from⟩ := from_lower
  obtain ⟨max, max_eq, same_to⟩ := to_upper
  intro p _
  rw [admitted, min_eq, max_eq]
  simp only [inBounds, same_from, same_to]

/-- In ascending order, a range of scores or of names is read alike unless a bound of it is the
infinity or the end of the other side. -/
theorem sameRange_ascending {z : ZSet} (numbers : ∀ p ∈ z.ranked, Binary64.isNaN p.2 = false)
    {first second : Bytes} {options : RangeOptions} {query : RangeQuery}
    (query_eq : readQuery first second options = some query) (ascending : options.rev = false)
    (bounds : options.byScore = true ∨ options.byLex = true)
    (low : first ≠ ascii "+inf" ∧ first ≠ ascii "+")
    (high : second ≠ ascii "-inf" ∧ second ≠ ascii "-") :
    SameRange z options.rev first second query := by
  rw [readQuery, ascending] at query_eq
  rw [ascending]
  by_cases lex : options.byLex = true
  · simp only [lex, if_true] at query_eq
    obtain ⟨lower, lower_eq, query_eq⟩ := Option.bind_eq_some_iff.mp query_eq
    obtain ⟨upper, upper_eq, query_eq⟩ := Option.bind_eq_some_iff.mp query_eq
    cases query_eq
    exact sameRange_names z lower_eq upper_eq low.2 high.2
  · have score := bounds.resolve_right lex
    simp only [lex, score, if_true] at query_eq
    obtain ⟨lower, lower_eq, query_eq⟩ := Option.bind_eq_some_iff.mp query_eq
    obtain ⟨upper, upper_eq, query_eq⟩ := Option.bind_eq_some_iff.mp query_eq
    cases query_eq
    exact sameRange_scores numbers lower_eq upper_eq low.1 high.1

/-! ## The command -/

section
variable {s : StorageInner} {db : Nat} {destKey sourceKey first second : Bytes} {words : List Bytes}
  {options : RangeOptions} {query : RangeQuery} {z : ZSet}

/-- A key that is gone holds no members. -/
lemma holdsSelected_none {members : List (Bytes × Score)} :
    HoldsSelected none members ↔ members = [] :=
  ⟨fun h => h.absent.mp rfl,
    fun nowhere => ⟨iff_of_true rfl nowhere, fun filled => absurd nowhere filled⟩⟩

/-- Bounds that are no text: nothing is done. -/
lemma handleZrangestore_refused [Indexset]
    (invalid : ¬ (Bytes.validUtf8 first ∧ Bytes.validUtf8 second)) :
    (handleZrangestore db destKey sourceKey first second words s).1 = s := by
  unfold handleZrangestore decodeString
  by_cases valid : Bytes.validUtf8 first = true
  · rw [if_pos valid, if_neg fun valid' => invalid ⟨valid, valid'⟩]
    rfl
  · rw [if_neg valid]
    rfl

/-- Otherwise the storage gets the options that are meant. -/
lemma handleZrangestore_eq [Indexset] (valid : Bytes.validUtf8 first ∧ Bytes.validUtf8 second)
    (options_eq : readOptions ⟨false, false, false, none⟩ words = some options) :
    handleZrangestore db destKey sourceKey first second (words.map toUppercase) =
      zrangestore db destKey sourceKey first second options := by
  obtain ⟨plain, eq⟩ := rangeOptions_eq options_eq
  have decoded_words : (words.map toUppercase).mapM decodeString =
    some (words.map toUppercase) := by
    apply mapM_decodeString
    intro word mem
    obtain ⟨word', mem', rfl⟩ := List.mem_map.mp mem
    exact plain word' mem'
  unfold handleZrangestore
  rw [decodeString, if_pos valid.1, decodeString, if_pos valid.2, decoded_words]
  show zrangestore db destKey sourceKey first second (rangeOptions _ _) = _
  rw [eq]

/-- A source that is the destination is gone when it is read. -/
lemma lookup_zrangestore_aliased [Indexset] :
    (zrangestore db destKey destKey first second options s).1.lookup db destKey = none := by
  rw [zrangestore, lookup_storeResult, lookup_source, StorageInner.source, if_pos rfl]
  rfl

/-- The storage keeps its page of its range. -/
lemma stored_iff [Indexset] (h : z.Consistent) (found : zsetAt s db sourceKey = some z)
    (other : sourceKey ≠ destKey) (readable : Readable first second options query) :
    HoldsSelected ((zrangestore db destKey sourceKey first second options s).1.lookup db destKey)
        (selected z query options) ↔
      ∀ p, p ∈ applyLimit (directed options.rev (taken z first second query)) options.limit ↔
        p ∈ page (query.members z options.rev) options.limit := by
  rw [lookup_zrangestore found h other readable]
  exact holdsSelected_iff (names_limited (names_taken h) options)

/-- A range that is read alike is stored. -/
lemma stored_of_straight [Indexset] (h : z.Consistent) (found : zsetAt s db sourceKey = some z)
    (options_eq : readOptions ⟨false, false, false, none⟩ words = some options)
    (readable : Readable first second options query)
    (straight : Straight s db destKey sourceKey first second z query options) :
    HoldsSelected
      ((handleZrangestore db destKey sourceKey first second (words.map toUppercase) s).1.lookup db
      destKey) (selected z query options) := by
  unfold Straight at straight
  split at straight
  · rename_i invalid
    rwa [handleZrangestore_refused invalid]
  · rename_i valid
    rw [handleZrangestore_eq (not_not.mp valid) options_eq]
    split at straight
    · rename_i aliased
      rwa [aliased, lookup_zrangestore_aliased, holdsSelected_none]
    · rename_i other
      rw [stored_iff h found other readable, directed_taken h straight.1]
      exact sameLimit_iff.mpr straight.2

/-- Where the range is the same or not limited, nothing else than a straight command stores what is
selected. -/
lemma straight_of_stored [Indexset] (h : z.Consistent) (found : zsetAt s db sourceKey = some z)
    (options_eq : readOptions ⟨false, false, false, none⟩ words = some options)
    (readable : Readable first second options query)
    (clear : options.limit = none ∨ SameRange z options.rev first second query)
    (holds : HoldsSelected
      ((handleZrangestore db destKey sourceKey first second (words.map toUppercase) s).1.lookup db
      destKey) (selected z query options)) :
    Straight s db destKey sourceKey first second z query options := by
  unfold Straight
  split
  · rename_i invalid
    rwa [handleZrangestore_refused invalid] at holds
  · rename_i valid
    rw [handleZrangestore_eq (not_not.mp valid) options_eq] at holds
    split
    · rename_i aliased
      rwa [aliased, lookup_zrangestore_aliased, holdsSelected_none] at holds
    · rename_i other
      rw [stored_iff h found other readable] at holds
      rcases clear with unlimited | same
      · rw [unlimited] at holds ⊢
        exact ⟨sameRange_of_taken h holds, trivial⟩
      · rw [directed_taken h same] at holds
        exact ⟨same, sameLimit_iff.mp holds⟩

end

/-- In every state that commands make out of the empty storage, for all keys, all bounds and all
options that `ZRANGE` takes: a straight command stores what `ZRANGE` selects. When no part of a
misread range is cut off by `LIMIT`, no other command does. -/
theorem storesRange [Indexset] [Graphemes] (commands : List (Nat × Command)) {db : Nat}
    {destKey sourceKey first second : Bytes} {words : List Bytes} {options : RangeOptions}
    {query : RangeQuery} {z : ZSet}
    (options_eq : readOptions ⟨false, false, false, none⟩ words = some options)
    (query_eq : readQuery first second options = some query)
    (found : zsetAt (executeAll commands .new) db sourceKey = some z) :
    ∃ command, parse (ascii "ZRANGESTORE" :: destKey :: sourceKey :: first :: second :: words) =
        some (command, [destKey, sourceKey]) ∧
      (Straight (executeAll commands .new) db destKey sourceKey first second z query options →
        HoldsSelected ((dispatch db command (executeAll commands .new)).1.lookup db destKey)
          (selected z query options)) ∧
      (options.limit = none ∨ SameRange z options.rev first second query →
        HoldsSelected ((dispatch db command (executeAll commands .new)).1.lookup db destKey)
          (selected z query options) →
        Straight (executeAll commands .new) db destKey sourceKey first second z query options) := by
  have readable := readQuery_readable query_eq
  have h : z.Consistent := by
    unfold zsetAt at found
    split at found
    · cases found
      exact ZSet.new_consistent
    · rename_i held
      cases found
      exact lookup_consistent (executeAll_consistent commands new_consistent) held
    · cases found
  refine ⟨.zrangestore destKey sourceKey first second (words.map toUppercase), ?_, ?_, ?_⟩
  · rfl
  · exact stored_of_straight h found options_eq readable
  · exact straight_of_stored h found options_eq readable

/-- The options of `byscore Limit 0 1`. -/
def firstByScore : RangeOptions := ⟨true, false, false, some (0, 1)⟩

/-- The scores above one. -/
def aboveOne : RangeQuery := .scores (.excluded (Binary64.ofInt 1)) (.included Binary64.infBits)

/-- Of three members the first above one is stored. -/
theorem storesRange_three :
    ∃ command, @parse ⟨fun _ => false⟩ [ascii "ZRANGESTORE", ascii "d", ascii "k",
    ascii "(1", ascii "+inf",
        ascii "byscore", ascii "Limit", ascii "0", ascii "1"] =
        some (command, [ascii "d", ascii "k"]) ∧
      HoldsSelected
        ((@dispatch (.exact false) 0 command (@executeAll (.exact false) addThree .new)).1.lookup
          0 (ascii "d"))
        (selected threeMembers aboveOne firstByScore) := by
  obtain ⟨command, parsed, stores, _⟩ :=
    @storesRange (.exact false) ⟨fun _ => false⟩ addThree 0 (ascii "d") (ascii "k")
    (ascii "(1") (ascii "+inf") [ascii "byscore", ascii "Limit", ascii "0",
      ascii "1"] firstByScore aboveOne
    threeMembers (by decide +kernel) (by decide +kernel) (by decide +kernel)
  refine ⟨command, parsed, stores ?_⟩
  have valid : Bytes.validUtf8 (ascii "(1") ∧ Bytes.validUtf8 (ascii "+inf") := by decide +kernel
  have range : SameRange threeMembers firstByScore.rev (ascii "(1") (ascii "+inf") aboveOne :=
    sameRange_ascending (by decide +kernel) (by decide +kernel) rfl (.inl rfl)
      (by decide) (by decide)
  rw [Straight, if_neg (not_not.mpr valid), if_neg (by decide)]
  exact ⟨range, nofun⟩

/-- With `REV`, the rank 0 is that of the last member, but the first one is stored. -/
theorem storesRange_reversed :
    readOptions ⟨false, false, false, none⟩ [ascii "REV"] = some ⟨false, false, true, none⟩ ∧
    readQuery (ascii "0") (ascii "0") ⟨false, false, true, none⟩ = some (.ranks 0 0) ∧
    zsetAt (@executeAll (.exact false) addThree .new) 0 (ascii "k") = some threeMembers ∧
    ∃ command, @parse ⟨fun _ => false⟩ [ascii "ZRANGESTORE", ascii "d",
      ascii "k", ascii "0", ascii "0",
        ascii "REV"] = some (command, [ascii "d", ascii "k"]) ∧
      ¬ HoldsSelected
        ((@dispatch (.exact false) 0 command (@executeAll (.exact false) addThree .new)).1.lookup
          0 (ascii "d"))
        (selected threeMembers (.ranks 0 0) ⟨false, false, true, none⟩) := by
  refine ⟨by decide +kernel, by decide +kernel, by decide +kernel, _, rfl, fun h => ?_⟩
  obtain ⟨z, eq, entries⟩ := h.held (by decide +kernel)
  have first : (@dispatch (.exact false) 0
    (.zrangestore (ascii "d") (ascii "k") (ascii "0") (ascii "0")
      ([ascii "REV"].map toUppercase)) (@executeAll (.exact false) addThree .new)).1.lookup
        0 (ascii "d") =
      some (.zset (.ofMembers [(ascii "a", Binary64.ofInt 1)])) := by decide +kernel
  cases first.symm.trans eq
  exact absurd ((entries (ascii "c") (Binary64.ofInt 3)).mpr (by decide +kernel))
    (by decide +kernel)

end Veidrodelis.TsNif
