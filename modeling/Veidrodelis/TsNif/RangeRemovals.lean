import Mathlib.Data.List.TakeWhile
import Veidrodelis.TsNif.Ranks

/-!
# Removal of ranges

`ZREMRANGEBYSCORE` and `ZREMRANGEBYLEX` from the text of their bounds to the members that are left.
What the bounds mean is said by `readScoreBound` and `readLexBound`. What they are taken for on the
way through the parser and the tuple is said here on the text (`takenScore`, `takenLex`): an
infinity is no bound, on either side, the numbers are those of `Float.parse`, and the first
character of a name may go with the bracket in front of it. A range is removed as it is meant where
that makes no difference to any member.
-/

namespace Veidrodelis.TsNif
open RedisNif (Fault)
open RedisStream (BoundTerm Command Graphemes)
open RedisStream.CommandParser (dropContinuing exponentOf floatParse parse parseScoreToFloat
  sliceRest)
open StorageValue (zsets)

/-! ## Removed members -/

/-- Some members are gone from the sorted set at a key, and the others are left, in the entries and
in the index; the key goes with the last member. Nothing else changes. -/
structure RemovesMembers (s s' : StorageInner) (db : Nat) (key : Bytes) (z : ZSet)
    (goes : Bytes × Score → Bool) : Prop where
  left : ∃ z' : ZSet, z'.Consistent ∧ s'.lookup db key = zsets.unlessEmpty z' ∧
    ∀ member score, z'.entries[member]? = some score ↔ z.entries[member]? = some score ∧
    ¬ goes (member, score)
  gone : s'.lookup db key = none ↔ ∀ p ∈ z.entries.toList, goes p
  others : ∀ db' key', ¬ (db' = db ∧ key' = key) → s'.lookup db' key' = s.lookup db' key'

section
variable {s : StorageInner} {db : Nat} {key : Bytes} {z : ZSet} {goes goes' : Bytes × Score → Bool}

/-- A sorted set is not kept when it has no members. -/
lemma unlessEmpty_zset_eq_none {z : ZSet} : zsets.unlessEmpty z = none ↔ z.entries.toList = [] := by
  have isEmpty : z.entries.isEmpty = true ↔ z.entries.toList = [] := by
    rw [← Std.ExtTreeMap.isEmpty_toList, List.isEmpty_iff]
  exact Container.unlessEmpty_eq_none.trans isEmpty

/-- Collected members are removed. -/
lemma removesMembers_of_collected {op : SlotOp} (members : List (Bytes × Score))
    (held : s.lookup db key = some (.zset z)) (h : z.Consistent)
    (same : ∀ p, p ∈ members ↔ p ∈ z.entries.toList ∧ goes p = true)
    (removes : op (some (.zset z)) = (zsets.unlessEmpty (z.removeAll members), .ok ())) :
    (atKey db key op s).2 = .ok () ∧ RemovesMembers s (atKey db key op s).1 db key z goes := by
  have entry {member : Bytes} {score : Score} : z.entries[member]? = some score ↔
    (member, score) ∈ z.entries.toList :=
    Std.ExtTreeMap.mem_toList_iff_getElem?_eq_some.symm
  have consistent : (z.removeAll members).Consistent := by
    refine ZSet.removeAll_consistent h fun p mem other found => ?_
    rw [entry.mpr ((same p).mp mem).1] at found
    exact (Option.some.inj found).symm
  have here : (atKey db key op s).1.lookup db key = zsets.unlessEmpty (z.removeAll members) := by
    rw [lookup_atKey, held, removes]
  -- a member that is collected goes with the score that it has
  have kept (member : Bytes) (score : Score) : (z.removeAll members).entries[member]? = some score ↔
      z.entries[member]? = some score ∧ ¬ goes (member, score) := by
    rw [ZSet.entries_removeAll]
    by_cases named : member ∈ members.map (·.1)
    · rw [if_pos named]
      refine iff_of_false nofun fun stays => stays.2 ?_
      obtain ⟨⟨_, score'⟩, mem, rfl⟩ := List.mem_map.mp named
      obtain ⟨inside, removed⟩ := (same _).mp mem
      rw [← entry, stays.1] at inside
      rwa [Option.some.inj inside]
    · rw [if_neg named]
      refine ⟨fun found => ⟨found, fun removed => named ?_⟩, And.left⟩
      exact List.mem_map.mpr ⟨(member, score), (same _).mpr ⟨entry.mp found, removed⟩, rfl⟩
  refine ⟨?_, ⟨_, consistent, here, kept⟩, ?_, fun db' key' other => lookup_atKey_ne other op s⟩
  · rw [atKey, held, removes]
  · rw [here, unlessEmpty_zset_eq_none, List.eq_nil_iff_forall_not_mem]
    constructor
    · rintro nowhere ⟨member, score⟩ mem
      by_contra stays
      exact nowhere (member, score) (Std.ExtTreeMap.mem_toList_iff_getElem?_eq_some.mpr
        ((kept member score).mpr ⟨entry.mpr mem, stays⟩))
    · rintro all ⟨member, score⟩ mem
      obtain ⟨inside, stays⟩ :=
        (kept member score).mp (Std.ExtTreeMap.mem_toList_iff_getElem?_eq_some.mp mem)
      exact stays (all _ (entry.mp inside))

/-- Which members are gone is seen from what is left. -/
lemma removesMembers_unique {s' : StorageInner} (first : RemovesMembers s s' db key z goes)
    (second : RemovesMembers s s' db key z goes') : ∀ p ∈ z.entries.toList, goes p = goes' p := by
  rintro ⟨member, score⟩ mem
  have entry := Std.ExtTreeMap.mem_toList_iff_getElem?_eq_some.mp mem
  obtain ⟨z₁, _, left₁, kept₁⟩ := first.left
  obtain ⟨z₂, _, left₂, kept₂⟩ := second.left
  have same : z₁.entries[member]? = z₂.entries[member]? := by
    have scores := (zscore_unlessEmpty left₁ member).symm.trans (zscore_unlessEmpty left₂ member)
    exact Except.ok.inj scores
  have stays : ¬ goes (member, score) ↔ ¬ goes' (member, score) := by
    have both := (kept₁ member score).symm.trans (same ▸ kept₂ member score)
    rwa [and_iff_right entry, and_iff_right entry] at both
  exact Bool.eq_iff_iff.mpr (not_iff_not.mp stays)

/-- The same members are removed by a condition that is the same on them. -/
lemma RemovesMembers.congr {s' : StorageInner} (removes : RemovesMembers s s' db key z goes)
    (same : ∀ p ∈ z.entries.toList, goes p = goes' p) : RemovesMembers s s' db key z goes' := by
  obtain ⟨z', consistent, here, kept⟩ := removes.left
  refine ⟨⟨z', consistent, here, fun member score => ?_⟩, ?_, removes.others⟩
  · rw [kept]
    refine and_congr_right fun entry => ?_
    rw [same _ (Std.ExtTreeMap.mem_toList_iff_getElem?_eq_some.mpr entry)]
  · rw [removes.gone]
    exact forall₂_congr fun p mem => by rw [same p mem]

end

/-! ## The text of a bound -/

/-- The infinities of the parser. -/
def isInfinity (text : Bytes) : Bool := text = ascii "-inf" ∨ text = ascii "+inf" ∨
    text = ascii "inf"

/-- The texts of the infinities. -/
lemma isInfinity_iff {text : Bytes} :
    isInfinity text = true ↔ text = ascii "-inf" ∨ text = ascii "+inf" ∨ text = ascii "inf" :=
  decide_eq_true_iff

/-- An infinity is not excluded. -/
lemma isInfinity_excluded (rest : Bytes) : ¬ isInfinity (40 :: rest) = true := by
  intro infinite
  obtain eq | eq | eq := isInfinity_iff.mp infinite
  · cases eq
  · cases eq
  · cases eq

/-- The number that `Float.parse` reads at the front of a text. -/
def floatOf (text : Bytes) : Option Score :=
  match floatParse text with
  | .float bits => some bits
  | _ => none

/-- What a score bound is taken for: an infinity is no bound, and it cannot be excluded. -/
def takenScore (text : Bytes) : Option (Bound Score) :=
  if isInfinity text then some .unbounded
  else
    match stripByte 40 text with
    | some rest => (floatOf rest).map .excluded
    | none => (floatOf text).map .included

section
variable {text rest : Bytes}

/-- A byte is stripped off when it stands in front. -/
lemma stripByte_eq_some {b : UInt8} : stripByte b text = some rest ↔ text = b :: rest := by
  cases text with
  | nil => exact iff_of_false nofun nofun
  | cons first later =>
    rw [stripByte]
    by_cases here : first = b
    · subst here
      rw [if_pos rfl]
      simp
    · rw [if_neg here]
      simp [here]

/-- A byte stands in front when it can be stripped off. -/
lemma isPrefixOf_singleton {b : UInt8} : [b].isPrefixOf text = (stripByte b text).isSome := by
  cases text with
  | nil => rfl
  | cons first later =>
    rw [stripByte, List.isPrefixOf]
    by_cases here : first = b
    · subst here
      simp
    · rw [if_neg here, beq_eq_false_iff_ne.mpr (Ne.symm here)]
      rfl

/-- No number starts with a byte that is not ASCII. -/
lemma parse_ascii {b : UInt8} {score : Score} (number : Binary64.parse (b :: rest) = some score) :
    b < 0x80 := by
  by_contra large
  have other {b' : UInt8} (small : b' < 0x80) : b ≠ b' := by
    rintro rfl
    exact large small
  have sign : Binary64.splitSign (b :: rest) = (false, b :: rest) := by
    unfold Binary64.splitSign
    split
    · rename_i eq
      exact absurd (List.cons.inj eq).1 (other (by decide))
    · rename_i eq
      exact absurd (List.cons.inj eq).1 (other (by decide))
    · rfl
  have upper : Binary64.lower b = b := by
    rw [Binary64.lower, if_neg]
    intro letter
    exact large (UInt8.lt_of_le_of_lt letter.2 (by decide))
  have digit : ¬ Bytes.isDigit b = true := by
    intro digit
    exact large (UInt8.lt_of_le_of_lt (digit_plain digit).1 (by decide))
  -- neither a sign nor a digit nor a point, nor the first letter of a name
  have nothing : Binary64.parseNumber (b :: rest) = none := by
    rw [Binary64.parseNumber, List.takeWhile_cons_of_neg digit, List.dropWhile_cons_of_neg digit]
    split
    · rename_i eq
      split at eq
      · rename_i point
        exact absurd (List.cons.inj point).1 (other (by decide))
      · cases eq
        rfl
  have noLetter : Binary64.lower b ≠ 105 ∧ Binary64.lower b ≠ 110 := by
    rw [upper]
    exact ⟨other (by decide), other (by decide)⟩
  rw [Binary64.parse_eq_parseNumber sign noLetter, nothing] at number
  cases number

/-- A character that does not continue a grapheme is not taken off with the one in front of it. -/
lemma sliceRest_ascii [Graphemes] (plain : ∀ c < 128, Graphemes.continues c = false)
    (bracket : UInt8) {b : UInt8} (small : b < 0x80) :
    sliceRest (bracket :: b :: rest) = b :: rest := by
  have point : RedisStream.CommandParser.codePoint (b :: rest) = some (b.toNat, 1) := by
    have valid : Bytes.validUtf8 [b] = true := validUtf8_ascii fun b' mem => by
      rw [List.mem_singleton.mp mem]
      exact Nat.le_of_lt_succ small
    unfold RedisStream.CommandParser.codePoint
    simp [small, valid]
  rw [sliceRest, List.drop_succ_cons, List.drop_zero, RedisStream.CommandParser.dropContinuing,
    point]
  simp only [plain b.toNat small]
  rfl

/-- The text of a finite number that starts with a digit, and has one behind its point. -/
structure Ordinary (text : Bytes) (score : Score) : Prop where
  number : Binary64.parse text = some score
  below : score ≠ Binary64.infBits
  above : score ≠ Binary64.withSign true Binary64.infBits
  whole : (Binary64.splitSign text).2.takeWhile Bytes.isDigit ≠ []
  point : ∀ tail, (Binary64.splitSign text).2.dropWhile Bytes.isDigit = 46 :: tail →
    tail.takeWhile Bytes.isDigit ≠ []

/-- Both readers see the same exponent. -/
lemma exponentOf_eq {text : Bytes} {e : Int} (read : Binary64.parseExponent text = some e) :
    (exponentOf text).getD 0 = e := by
  cases text with
  | nil =>
    cases read
    rfl
  | cons marker rest =>
    rw [Binary64.parseExponent] at read
    rw [exponentOf]
    generalize Binary64.splitSign rest = signed at read ⊢
    obtain ⟨negative, digits⟩ := signed
    simp only at read ⊢
    split at read
    · rename_i exponent
      obtain ⟨letter, filled, all⟩ := exponent
      have whole : digits.takeWhile Bytes.isDigit = digits :=
        List.takeWhile_eq_self_iff.mpr (List.all_eq_true.mp all)
      have e_or_E : marker = 101 ∨ marker = 69 := by
        rw [Binary64.lower] at letter
        split at letter
        · right
          have back := congrArg (· - 32) letter
          simpa using back
        · exact .inl letter
      rw [whole, if_pos ⟨e_or_E, filled⟩]
      exact Option.some.inj read
    · cases read

/-- `Float.parse` reads the whole text of such a number. -/
lemma floatOf_eq {text : Bytes} {score : Score} (ordinary : Ordinary text score) :
    floatOf text = some score := by
  obtain ⟨number, below, above, whole, point⟩ := ordinary
  rw [floatOf, floatParse]
  generalize signed : Binary64.splitSign text = split at whole point ⊢
  obtain ⟨negative, unsigned⟩ := split
  simp only at whole point ⊢
  have number : (Binary64.parseNumber unsigned).map (Binary64.withSign negative) = some score := by
    cases unsigned with
    | nil => exact absurd rfl whole
    | cons first later =>
      have digit : Bytes.isDigit first = true := by
        by_contra other
        exact whole (List.takeWhile_cons_of_neg other)
      have range : 48 ≤ first ∧ first ≤ 57 := by simpa [Bytes.isDigit] using digit
      have same : Binary64.lower first = first := by
        rw [Binary64.lower, if_neg]
        exact fun letter => absurd (UInt8.le_trans letter.1 range.2) (by decide)
      have noLetter : Binary64.lower first ≠ 105 ∧ Binary64.lower first ≠ 110 := by
        rw [same]
        constructor
        · rintro rfl
          exact absurd range.2 (by decide)
        · rintro rfl
          exact absurd range.2 (by decide)
      rw [← number, Binary64.parse_eq_parseNumber signed noLetter]
  obtain ⟨mag, parsed, rfl⟩ := Option.map_eq_some_iff.mp number
  have finite : mag ≠ Binary64.infBits := by
    rintro rfl
    cases negative with
    | false => exact below rfl
    | true => exact above rfl
  rw [Binary64.parseNumber] at parsed
  generalize unsigned.takeWhile Bytes.isDigit = digits at parsed whole ⊢
  generalize unsigned.dropWhile Bytes.isDigit = behind at parsed point ⊢
  -- the digits behind the point, and what follows them
  obtain ⟨tail, rfl⟩ | unpointed : (∃ tail, behind = 46 :: tail) ∨ ∀ tail, behind ≠ 46 :: tail := by
    by_cases pointed : ∃ tail, behind = 46 :: tail
    · exact .inl pointed
    · exact .inr (not_exists.mp pointed)
  · have fraction := point tail rfl
    simp only [whole, false_and, if_false] at parsed ⊢
    obtain ⟨e, exponent, rfl⟩ := Option.map_eq_some_iff.mp parsed
    have rest : tail.drop (tail.takeWhile Bytes.isDigit).length = tail.dropWhile Bytes.isDigit := by
      nth_rewrite 2 [← List.takeWhile_append_dropWhile (p := Bytes.isDigit) (l := tail)]
      exact List.drop_left
    simp only [fraction, if_false, List.drop_succ_cons, rest, exponentOf_eq exponent, if_neg finite]
  · simp only [whole, false_and, if_false] at parsed ⊢
    obtain ⟨e, exponent, rfl⟩ := Option.map_eq_some_iff.mp parsed
    simp only [if_true, exponentOf_eq exponent, if_neg finite]

/-- The infinities are no numbers. -/
lemma floatOf_infinity (infinite : isInfinity text = true) : floatOf text = none := by
  obtain rfl | rfl | rfl := isInfinity_iff.mp infinite
  · decide +kernel
  · decide +kernel
  · decide +kernel

/-- The number of a bound, through the parser. -/
lemma parseScoreToFloat_eq (text : Bytes) : parseScoreToFloat text =
    if text = ascii "-inf" then some .negInfinity
    else if text = ascii "+inf" ∨ text = ascii "inf" then some .infinity
    else (floatOf text).map .float := by
  rw [parseScoreToFloat, floatOf]
  split_ifs
  · rfl
  · rfl
  · cases floatParse text with
    | _ => rfl

/-- An excluded bound does not decode if it is infinite. -/
lemma decode_excluded (text : Bytes) :
    ((parseScoreToFloat text).map .excluded).bind decodeScoreBound =
      (floatOf text).map .excluded := by
  rw [parseScoreToFloat_eq]
  split_ifs with low high
  · subst low
    rw [floatOf_infinity (by decide)]
    rfl
  · rw [floatOf_infinity (isInfinity_iff.mpr (.inr high))]
    rfl
  · cases floatOf text with
    | none => rfl
    | some bits => rfl

/-- An included bound is none if it is infinite. -/
lemma decode_included (text : Bytes) :
    ((parseScoreToFloat text).map fun score =>
      if score = .negInfinity ∨ score = .infinity then .unbounded else .included score).bind
        decodeScoreBound =
      if isInfinity text then some .unbounded else (floatOf text).map .included := by
  rw [parseScoreToFloat_eq]
  by_cases low : text = ascii "-inf"
  · rw [if_pos low, if_pos (isInfinity_iff.mpr (.inl low))]
    rfl
  · rw [if_neg low]
    by_cases high : text = ascii "+inf" ∨ text = ascii "inf"
    · rw [if_pos high, if_pos (isInfinity_iff.mpr (.inr high))]
      rfl
    · have finite : ¬ isInfinity text = true := fun infinite => by
        obtain eq | eq := isInfinity_iff.mp infinite
        · exact low eq
        · exact high eq
      rw [if_neg high, if_neg finite]
      cases floatOf text with
      | none => rfl
      | some bits => rfl

/-- What the parser and the decoder make of the text of a score bound. -/
lemma takenScore_eq [Graphemes] (plain : ∀ c < 128, Graphemes.continues c = false)
    {bound : Bound Score} (read : readScoreBound text = some bound) :
    (RedisStream.CommandParser.parseScoreBound text).bind decodeScoreBound = takenScore text := by
  have opening : ascii "(" = [40] := rfl
  rw [RedisStream.CommandParser.parseScoreBound, opening, isPrefixOf_singleton, takenScore]
  rw [readScoreBound] at read
  cases stripped : stripByte 40 text with
  | some rest =>
    rw [stripped] at read
    obtain ⟨score, found, _⟩ := Option.map_eq_some_iff.mp read
    have number := (Option.filter_eq_some_iff.mp found).1
    rw [stripByte_eq_some] at stripped
    subst stripped
    have sliced : sliceRest (40 :: rest) = rest := by
      cases rest with
      | nil =>
        have nothing : Binary64.parse [] = none := by decide +kernel
        cases nothing.symm.trans number
      | cons b rest => exact sliceRest_ascii plain 40 (parse_ascii number)
    rw [if_pos Option.isSome_some, if_neg (isInfinity_excluded rest), sliced]
    exact decode_excluded rest
  | none =>
    rw [if_neg (by simp)]
    exact decode_included text

end

/-! ## ZREMRANGEBYSCORE -/

/-- The text of a command is a tuple that the storage performs, and some members are removed by
it. -/
def Removes [Indexset] [Graphemes] (name : String) (s : StorageInner) (db : Nat)
    (key first second : Bytes) (z : ZSet) (goes : Bytes × Score → Bool) : Prop :=
  ∃ command, parse [ascii name, key, first, second] = some (command, [key]) ∧
    (dispatch db command s).2 = .ok () ∧ RemovesMembers s (dispatch db command s).1 db key z goes

/-- Both texts are taken for bounds, and these admit the same members as what the texts mean. -/
def TakenAlike (z : ZSet) (first second : Bytes) (lower upper : Bound Score) : Prop :=
  ∃ min max, takenScore first = some min ∧ takenScore second = some max ∧
    ∀ p ∈ z.entries.toList, inBounds Score.cmp min max p.2 = inBounds Score.cmp lower upper p.2

/-- The text of a bound that is an ordinary number. -/
inductive OrdinaryBound : Bytes → Prop where
  | included {text : Bytes} {score : Score} (ordinary : Ordinary text score) : OrdinaryBound text
  | excluded {text : Bytes} {score : Score} (ordinary : Ordinary text score) :
    OrdinaryBound (40 :: text)

/-- An ordinary text is no infinity. -/
lemma not_isInfinity {text : Bytes} {score : Score} (ordinary : Ordinary text score) :
    ¬ isInfinity text = true := by
  intro infinite
  obtain rfl | rfl | rfl := isInfinity_iff.mp infinite
  · have infinity : Binary64.parse (ascii "-inf") =
      some (Binary64.withSign true Binary64.infBits) := by decide +kernel
    exact ordinary.above (Option.some.inj (ordinary.number.symm.trans infinity))
  · have infinity : Binary64.parse (ascii "+inf") = some Binary64.infBits := by decide +kernel
    exact ordinary.below (Option.some.inj (ordinary.number.symm.trans infinity))
  · have infinity : Binary64.parse (ascii "inf") = some Binary64.infBits := by decide +kernel
    exact ordinary.below (Option.some.inj (ordinary.number.symm.trans infinity))

/-- A bound that is an ordinary number is taken as it is meant. -/
lemma takenScore_ordinary {text : Bytes} {bound : Bound Score}
    (read : readScoreBound text = some bound) (ordinary : OrdinaryBound text) :
    takenScore text = some bound := by
  cases ordinary with
  | @included _ score ordinary =>
    have closed : stripByte 40 text = none := by
      rw [Option.eq_none_iff_forall_ne_some]
      rintro rest stripped
      rw [stripByte_eq_some] at stripped
      subst stripped
      exact ordinary.whole rfl
    rw [readScoreBound, closed] at read
    obtain ⟨score', found, rfl⟩ := Option.map_eq_some_iff.mp read
    cases ordinary.number.symm.trans (Option.filter_eq_some_iff.mp found).1
    rw [takenScore, if_neg (not_isInfinity ordinary), closed]
    exact congrArg (Option.map Bound.included) (floatOf_eq ordinary)
  | @excluded rest score ordinary =>
    have opened : stripByte 40 (40 :: rest) = some rest := rfl
    rw [readScoreBound, opened] at read
    obtain ⟨score', found, rfl⟩ := Option.map_eq_some_iff.mp read
    cases ordinary.number.symm.trans (Option.filter_eq_some_iff.mp found).1
    rw [takenScore, if_neg (isInfinity_excluded rest), opened]
    exact congrArg (Option.map Bound.excluded) (floatOf_eq ordinary)

/-- Bounds are taken alike if they are ordinary numbers or infinities on their own sides, and the
scores are numbers. -/
theorem takenAlike_ordinary {z : ZSet}
    (numbers : ∀ p ∈ z.entries.toList, Binary64.isNaN p.2 = false) {first second : Bytes}
    {lower upper : Bound Score} (first_eq : readScoreBound first = some lower)
    (second_eq : readScoreBound second = some upper)
    (low : first = ascii "-inf" ∨ OrdinaryBound first)
    (high : second = ascii "+inf" ∨ OrdinaryBound second) :
      TakenAlike z first second lower upper := by
  have from_lower : ∃ min, takenScore first = some min ∧
      ∀ p ∈ z.entries.toList, min.admitsFrom Score.cmp p.2 = lower.admitsFrom Score.cmp p.2 := by
    rcases low with rfl | ordinary
    · exact ⟨.unbounded, rfl,
        fun p mem => admitsFrom_scores first_eq rfl (by decide) (numbers p mem)⟩
    · exact ⟨lower, takenScore_ordinary first_eq ordinary, fun _ _ => rfl⟩
  have to_upper : ∃ max, takenScore second = some max ∧
      ∀ p ∈ z.entries.toList, max.admitsUpTo Score.cmp p.2 = upper.admitsUpTo Score.cmp p.2 := by
    rcases high with rfl | ordinary
    · exact ⟨.unbounded, rfl,
        fun p mem => admitsUpTo_scores second_eq rfl (by decide) (numbers p mem)⟩
    · exact ⟨upper, takenScore_ordinary second_eq ordinary, fun _ _ => rfl⟩
  obtain ⟨min, min_eq, same_from⟩ := from_lower
  obtain ⟨max, max_eq, same_to⟩ := to_upper
  refine ⟨min, max, min_eq, max_eq, fun p mem => ?_⟩
  rw [inBounds, inBounds, same_from p mem, same_to p mem]

section
variable {s : StorageInner} {db : Nat} {key first second : Bytes} {z : ZSet}

/-- `ZREMRANGEBYSCORE` removes the members within its bounds. -/
lemma zremrangebyscore_removes [Indexset] (yields : Indexset.refusesCrossed = false)
    (held : s.lookup db key = some (.zset z)) (h : z.Consistent) (min max : Bound Score) :
    (atKey db key (zremrangebyscore min max) s).2 = .ok () ∧
      RemovesMembers s (atKey db key (zremrangebyscore min max) s).1 db key z
        fun p => inBounds Score.cmp min max p.2 := by
  refine removesMembers_of_collected (z.ranked.filter fun p => inBounds Score.cmp min max p.2) held
    h (fun p => ?_) ?_
  · rw [List.mem_filter, (ZSet.ranked_perm h).mem_iff]
  · have here : zremrangebyscore min max (some (zsets.wrap z)) = _ := Container.existing_wrap
    refine here.trans ?_
    rw [scoreRange_filter yields h]
    rfl

/-- `ZREMRANGEBYSCORE` is parsed to its key and its bounds. -/
lemma parse_zremrangebyscore [Graphemes] : parse [ascii "ZREMRANGEBYSCORE", key, first, second] =
    (RedisStream.CommandParser.parseScoreBound first).bind fun min =>
      (RedisStream.CommandParser.parseScoreBound second).bind fun max =>
        some (.zremrangebyscore key min max, [key]) := rfl

/-- The tuple is performed exactly if both bounds of it decode. -/
lemma dispatch_zremrangebyscore [Indexset] (min max : Bound BoundTerm) :
    dispatch db (.zremrangebyscore key min max) s =
      match decodeScoreBound min, decodeScoreBound max with
      | some min, some max => atKey db key (zremrangebyscore min max) s
      | _, _ => (s, .error (.err ("ZREMRANGEBYSCORE min and max must be valid score bounds " ++
          "(:unbounded, \x7b:included, score\x7d, or \x7b:excluded, score\x7d)"))) := by
  rw [dispatch]
  cases decodeScoreBound min with
  | none => rfl
  | some min =>
    cases decodeScoreBound max with
    | none => rfl
    | some max => rfl

/-- For all bounds that Redis takes, on every sorted set that commands make out of the empty
storage: the command removes the members between the bounds exactly when the bounds are taken
alike. -/
theorem removesScores [Indexset] [Graphemes] (yields : Indexset.refusesCrossed = false)
    (plain : ∀ c < 128, Graphemes.continues c = false) (commands : List (Nat × Command))
    {lower upper : Bound Score} (held : (executeAll commands .new).lookup db key = some (.zset z))
    (first_eq : readScoreBound first = some lower)
    (second_eq : readScoreBound second = some upper) :
    Removes "ZREMRANGEBYSCORE" (executeAll commands .new) db key first second z
      (fun p => inBounds Score.cmp lower upper p.2) ↔ TakenAlike z first second lower upper := by
  have h : z.Consistent := lookup_consistent (executeAll_consistent commands new_consistent) held
  rw [TakenAlike, ← takenScore_eq plain first_eq, ← takenScore_eq plain second_eq]
  constructor
  · rintro ⟨command, parsed, done, removes⟩
    rw [parse_zremrangebyscore] at parsed
    obtain ⟨min, min_eq, parsed⟩ := Option.bind_eq_some_iff.mp parsed
    obtain ⟨max, max_eq, parsed⟩ := Option.bind_eq_some_iff.mp parsed
    cases parsed
    rw [dispatch_zremrangebyscore] at done removes
    rw [min_eq, max_eq, Option.bind_some, Option.bind_some]
    cases min' : decodeScoreBound min with
    | none =>
      rw [min'] at done
      cases done
    | some lower' =>
      cases max' : decodeScoreBound max with
      | none =>
        rw [min', max'] at done
        cases done
      | some upper' =>
        rw [min', max'] at removes
        -- what a command removes, it removes in one way only
        refine ⟨lower', upper', rfl, rfl, ?_⟩
        exact removesMembers_unique (zremrangebyscore_removes yields held h lower' upper').2 removes
  · rintro ⟨lower', upper', first_taken, second_taken, alike⟩
    obtain ⟨min, min_eq, min'⟩ := Option.bind_eq_some_iff.mp first_taken
    obtain ⟨max, max_eq, max'⟩ := Option.bind_eq_some_iff.mp second_taken
    refine ⟨.zremrangebyscore key min max, ?_, ?_⟩
    · rw [parse_zremrangebyscore, min_eq, Option.bind_some, max_eq, Option.bind_some]
    · rw [dispatch_zremrangebyscore, min', max']
      obtain ⟨done, removes⟩ := zremrangebyscore_removes yields held h lower' upper'
      exact ⟨done, removes.congr alike⟩

end

/-- Of three members those above one are removed. -/
theorem removesScores_three :
    @Removes (.exact false) ⟨fun _ => false⟩ "ZREMRANGEBYSCORE"
      (@executeAll (.exact false) addThree .new) 0 (ascii "k")
      (ascii "(1") (ascii "+inf") threeMembers
      (fun p => inBounds Score.cmp (.excluded (Binary64.ofInt 1))
        (.included Binary64.infBits) p.2) ↔
    TakenAlike threeMembers (ascii "(1") (ascii "+inf") (.excluded (Binary64.ofInt 1))
      (.included Binary64.infBits) :=
  @removesScores 0 (ascii "k") (ascii "(1") (ascii "+inf") threeMembers (.exact false)
    ⟨fun _ => false⟩ rfl
    (fun _ _ => rfl) addThree _ _ (by decide +kernel) (by decide +kernel) (by decide +kernel)

/-- No score reaches the upper infinity, but with it as the lower bound all members go. -/
theorem removesScores_infinite :
    readScoreBound (ascii "+inf") = some (.included Binary64.infBits) ∧
    ¬ @Removes (.exact false) ⟨fun _ => false⟩ "ZREMRANGEBYSCORE"
      (@executeAll (.exact false) addThree .new) 0
      (ascii "k") (ascii "+inf") (ascii "+inf") threeMembers
      (fun p => inBounds Score.cmp (.included Binary64.infBits)
        (.included Binary64.infBits) p.2) := by
  refine ⟨by decide +kernel, ?_⟩
  rintro ⟨command, parsed, _, removes⟩
  have tuple : @parse ⟨fun _ => false⟩ [ascii "ZREMRANGEBYSCORE", ascii "k", ascii "+inf",
    ascii "+inf"] =
      some (.zremrangebyscore (ascii "k") .unbounded .unbounded, [ascii "k"]) := by decide +kernel
  cases tuple.symm.trans parsed
  exact absurd (removes.gone.mp (by decide +kernel)) (by decide +kernel)

/-! ## ZREMRANGEBYLEX -/

/-- What a name bound is taken for: both ends are no bound, and a name loses the code points at its
front that continue a grapheme. -/
def takenLex [Graphemes] : Bound LexPoint → Bound Bytes
  | .included (.name member) => .included (dropContinuing 0 member)
  | .excluded (.name member) => .excluded (dropContinuing 0 member)
  | _ => .unbounded

/-- The bounds that are taken are in order, and they admit the same members as the meant ones. -/
def TakenInOrder [Graphemes] (z : ZSet) (lower upper : Bound LexPoint) : Prop :=
  (takenLex lower).crossed compare (takenLex upper) = false ∧
    ∀ p ∈ z.entries.toList,
      inBounds compare (takenLex lower) (takenLex upper) p.1 =
      inBounds LexPoint.cmp lower upper (.name p.1)

/-- A bound on names is parsed to what is taken for it. -/
lemma takenLex_eq [Graphemes] {text : Bytes} {bound : Bound LexPoint}
    (read : readLexBound text = some bound) :
    RedisStream.CommandParser.parseLexBound text = takenLex bound := by
  have square : ascii "[" = [91] := rfl
  have round : ascii "(" = [40] := rfl
  rw [RedisStream.CommandParser.parseLexBound, square, round, isPrefixOf_singleton,
    isPrefixOf_singleton]
  rw [readLexBound] at read
  by_cases low : text = ascii "-"
  · rw [if_pos low] at read
    rw [if_pos (.inl low)]
    cases read
    rfl
  · rw [if_neg low] at read
    by_cases high : text = ascii "+"
    · rw [if_pos high] at read
      rw [if_pos (.inr high)]
      cases read
      rfl
    · rw [if_neg high] at read
      rw [if_neg (not_or.mpr ⟨low, high⟩)]
      cases closed : stripByte 91 text with
      | some member =>
        rw [closed] at read
        cases read
        rw [stripByte_eq_some] at closed
        subst closed
        rfl
      | none =>
        rw [closed] at read
        cases opened : stripByte 40 text with
        | some member =>
          rw [opened] at read
          cases read
          rw [stripByte_eq_some] at opened
          subst opened
          rfl
        | none =>
          rw [opened] at read
          cases read

/-- `ZREMRANGEBYLEX` is parsed to its key and its bounds. -/
lemma parse_zremrangebylex [Graphemes] {key first second : Bytes} :
    parse [ascii "ZREMRANGEBYLEX", key, first, second] =
      some (.zremrangebylex key (RedisStream.CommandParser.parseLexBound first)
        (RedisStream.CommandParser.parseLexBound second), [key]) := rfl

section
variable {s : StorageInner} {db : Nat} {key first second : Bytes} {z : ZSet}

/-- `ZREMRANGEBYLEX` removes the members within bounds in order. -/
lemma zremrangebylex_removes (held : s.lookup db key = some (.zset z)) (h : z.Consistent)
    {min max : Bound Bytes} (ordered : min.crossed compare max = false) :
    (atKey db key (zremrangebylex min max) s).2 = .ok () ∧
      RemovesMembers s (atKey db key (zremrangebylex min max) s).1 db key z
        fun p => inBounds compare min max p.1 := by
  refine removesMembers_of_collected (z.entries.toList.filter fun p => inBounds compare min max p.1)
    held h (fun p => List.mem_filter) ?_
  have here : zremrangebylex min max (some (zsets.wrap z)) = _ := Container.existing_wrap
  refine here.trans ?_
  rw [ZSet.lexRange, ordered]
  rfl

/-- `ZREMRANGEBYLEX` does not succeed with crossed bounds. -/
lemma zremrangebylex_refuses (held : s.lookup db key = some (.zset z)) {min max : Bound Bytes}
    (crossed : min.crossed compare max = true) :
    (atKey db key (zremrangebylex min max) s).2 ≠ .ok () := by
  have here : zremrangebylex min max (some (zsets.wrap z)) = _ := Container.existing_wrap
  rw [atKey, held]
  show (zremrangebylex min max (some (zsets.wrap z))).2 ≠ _
  rw [here, ZSet.lexRange, if_pos crossed]
  rintro ⟨⟩

/-- For all bounds that Redis takes, with any bytes behind the bracket, on every sorted set that
commands make out of the empty storage: the command removes the members between the bounds exactly
when the bounds that are taken are in order and admit the same. -/
theorem removesNames [Indexset] [Graphemes] (commands : List (Nat × Command))
    {lower upper : Bound LexPoint}
    (held : (executeAll commands .new).lookup db key = some (.zset z))
    (first_eq : readLexBound first = some lower) (second_eq : readLexBound second = some upper) :
    Removes "ZREMRANGEBYLEX" (executeAll commands .new) db key first second z
      (fun p => inBounds LexPoint.cmp lower upper (.name p.1)) ↔ TakenInOrder z lower upper := by
  have h : z.Consistent := lookup_consistent (executeAll_consistent commands new_consistent) held
  rw [TakenInOrder]
  constructor
  · rintro ⟨command, parsed, done, removes⟩
    rw [parse_zremrangebylex, takenLex_eq first_eq, takenLex_eq second_eq] at parsed
    cases parsed
    have ordered : (takenLex lower).crossed compare (takenLex upper) = false := by
      rw [← Bool.not_eq_true]
      exact fun crossed => zremrangebylex_refuses held crossed done
    exact ⟨ordered, removesMembers_unique (zremrangebylex_removes held h ordered).2 removes⟩
  · rintro ⟨ordered, alike⟩
    obtain ⟨done, removes⟩ := zremrangebylex_removes held h ordered
    refine ⟨_, parse_zremrangebylex, ?_⟩
    rw [takenLex_eq first_eq, takenLex_eq second_eq]
    exact ⟨done, removes.congr alike⟩

end

/-- Of three members those behind the first are removed. -/
theorem removesNames_three :
    @Removes (.exact false) ⟨fun _ => false⟩ "ZREMRANGEBYLEX"
      (@executeAll (.exact false) addThree .new) 0 (ascii "k")
      (ascii "(a") (ascii "+") threeMembers
      (fun p => inBounds LexPoint.cmp (.excluded (.name (ascii "a")))
        (.included .highest) (.name p.1)) ↔
    @TakenInOrder ⟨fun _ => false⟩ threeMembers (.excluded (.name (ascii "a")))
      (.included .highest) :=
  @removesNames 0 (ascii "k") (ascii "(a") (ascii "+") threeMembers (.exact false)
    ⟨fun _ => false⟩ addThree _ _
    (by decide +kernel) (by decide +kernel) (by decide +kernel)

/-- No name is behind all names, but with `+` as the lower bound all members go. -/
theorem removesNames_highest :
    readLexBound (ascii "+") = some (.included .highest) ∧
    ¬ @Removes (.exact false) ⟨fun _ => false⟩ "ZREMRANGEBYLEX"
      (@executeAll (.exact false) addThree .new) 0
      (ascii "k") (ascii "+") (ascii "+") threeMembers
      (fun p => inBounds LexPoint.cmp (.included .highest) (.included .highest) (.name p.1)) := by
  refine ⟨by decide +kernel, ?_⟩
  rintro ⟨command, parsed, _, removes⟩
  have tuple : @parse ⟨fun _ => false⟩ [ascii "ZREMRANGEBYLEX", ascii "k", ascii "+", ascii "+"] =
      some (.zremrangebylex (ascii "k") .unbounded .unbounded, [ascii "k"]) := by decide +kernel
  cases tuple.symm.trans parsed
  exact absurd (removes.gone.mp (by decide +kernel)) (by decide +kernel)

end Veidrodelis.TsNif
