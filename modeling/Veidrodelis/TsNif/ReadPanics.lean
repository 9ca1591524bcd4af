import Veidrodelis.TsNif.Ranks
import Veidrodelis.TsNif.ReadAnswers
import Veidrodelis.TsNif.WritePanics

/-!
# Reads that raise

`overreads`, on a storage that commands made, is when a read raises: a score in its answer has no
term, a range of scores has its bounds crossed and the index refuses that, or more random elements
are asked for than a vector holds. Every other read is answered, and what is refused has one text
(`read_returns`).
-/

namespace Veidrodelis.TsNif
open RedisNif (Fault isizeMax)
open RedisStream (Command)
open StorageValue (hashes lists sets zsets)
open ReadCommands

/-! ## Encoding -/

/-- There is no term for the score. -/
def termless (score : Score) : Bool := Binary64.infBits ≤ Binary64.magnitude score

/-- There is a term, or the encoding raises. -/
inductive Encodes : Except Fault Term → Bool → Prop where
  | term (t : Term) : Encodes (.ok t) false
  | raised (msg : String) : Encodes (.error (.panic msg)) true

namespace Encodes

/-- A function of the term changes nothing about its encoding. -/
lemma map {r : Except Fault Term} {bad : Bool} (h : Encodes r bad) (f : Term → Term) :
    Encodes (r.map f) bad := by
  cases h with
  | term t => exact .term (f t)
  | raised msg => exact .raised msg

/-- A score has a term unless it is infinite or not a number. -/
lemma float (score : Score) : Encodes (float score) (termless score) := by
  rw [ReadCommands.float, termless]
  by_cases small : Binary64.magnitude score < Binary64.infBits
  · rw [if_pos small, decide_eq_false (Nat.not_le.mpr small)]
    exact .term _
  · rw [if_neg small, decide_eq_true (Nat.not_lt.mp small)]
    exact .raised _

/-- A score that may be missing has a term unless it is one without. -/
lemma optionalFloat (score : Option Score) :
    Encodes (optionalFloat score) (score.any termless) := by
  cases score with
  | none => exact .term nilAtom
  | some score => exact float score

/-- A scored member has a term when its score does. -/
lemma scoreFirst (p : Score × Bytes) : Encodes (scoreFirst p) (termless p.1) :=
  (float p.1).map fun t => CommandTuple.tupleOf [t, .binary p.2]

/-- A member whose score may be missing has a term when its score does. -/
lemma scoredMember (p : Bytes × Option Score) : Encodes (scoredMember p) (p.2.any termless) := by
  obtain ⟨member, score⟩ := p
  cases score with
  | none => exact .term (.binary member)
  | some score => exact (float score).map fun t => CommandTuple.tupleOf [.binary member, t]

/-- A list has a term when each item does. -/
lemma listOf {α : Type} {encode : α → Except Fault Term} {bad : α → Bool}
    (h : ∀ a, Encodes (encode a) (bad a)) (items : List α) :
    Encodes (listOf encode items) (items.any bad) := by
  suffices encoded : (∃ terms, items.mapM encode = .ok terms) ∧ items.any bad = false ∨
      (∃ msg, items.mapM encode = .error (.panic msg)) ∧ items.any bad = true by
    rcases encoded with ⟨⟨terms, eq⟩, calm⟩ | ⟨⟨msg, eq⟩, raises⟩
    · rw [ReadCommands.listOf, eq, calm]
      exact .term _
    · rw [ReadCommands.listOf, eq, raises]
      exact .raised msg
  induction items with
  | nil => exact .inl ⟨⟨[], rfl⟩, rfl⟩
  | cons item rest ih =>
    rw [List.mapM_cons, List.any_cons]
    have here := h item
    generalize encode item = r, bad item = b at here
    cases here with
    | raised msg => exact .inr ⟨⟨msg, rfl⟩, rfl⟩
    | term t =>
      rcases ih with ⟨⟨terms, eq⟩, calm⟩ | ⟨⟨msg, eq⟩, raises⟩
      · exact .inl ⟨⟨t :: terms, by rw [eq]; rfl⟩, calm⟩
      · exact .inr ⟨⟨msg, by rw [eq]; rfl⟩, raises⟩

end Encodes

/-- What comes of a read: an answer, the refusal, or a panic. -/
inductive Outcome : Except Fault Term → Bool → Prop where
  | answer (value : Term) : Outcome (.ok (okTerm value)) false
  | refused : Outcome (WriteCommands.refuse
    "WRONGTYPE: Operation against a key holding the wrong kind of value") false
  | raised (msg : String) : Outcome (.error (.panic msg)) true

namespace Outcome

section
variable {α : Type} {encode : α → Except Fault Term} {bad : Bool}

/-- The outcome of an encoding. -/
lemma encoded {a : α} (h : Encodes (encode a) bad) : Outcome (answered encode (.ok a)) bad := by
  rw [answered]
  generalize encode a = r at h
  cases h with
  | term t => exact .answer t
  | raised msg => exact .raised msg

/-- Where every value has a term. -/
lemma plainly_of_iff {encode : α → Term} {r : Except Fault α} (panics : Panicked r ↔ bad = true) :
    Outcome (plainly encode r) bad := by
  cases r with
  | ok a =>
    rw [Bool.eq_false_iff.mpr fun raises => not_panicked_ok a (panics.mpr raises)]
    exact .answer (encode a)
  | error fault =>
    cases fault with
    | err msg =>
      rw [Bool.eq_false_iff.mpr fun raises => not_panicked_err msg (panics.mpr raises)]
      exact .refused
    | panic msg =>
      rw [panics.mp (panicked_panic msg)]
      exact .raised msg

/-- What has terms always panics only by itself. -/
lemma plainly {encode : α → Term} {r : Except Fault α} (calm : ¬ Panicked r) :
    Outcome (plainly encode r) false :=
  plainly_of_iff (iff_of_false calm Bool.false_ne_true)

end

/-! ## Reads of a container -/

section
variable {α ι ο : Type} {c : Container α} {s : StorageInner} {db : Nat} {key : Bytes}

/-- To read a container never panics. -/
lemma readOf_calm {missing : ο} {read : α → ο} : ¬ Panicked (readOf c missing read s db key) := by
  rw [readOf]
  generalize s.lookup db key = slot
  cases c.view slot with
  | vacant => exact not_panicked_ok _
  | held a =>
    simp only [Container.unwrap_wrap]
    exact not_panicked_ok _
  | other type =>
    simp only [type]
    exact not_panicked_wrongType

/-- Reading items panics when one that is read has no term. -/
lemma readItems {entries : α → List ι} {item : ι → ο} {encode : ο → Except Fault Term}
    {bad : ο → Bool} (h : ∀ o, Encodes (encode o) (bad o)) (count : Nat) :
    Outcome (answered (listOf encode) (readItems c entries item s db key count))
      (c.holds (s.lookup db key) fun a => ((entries a).take count).any fun i => bad (item i)) := by
  have taken (items : List ι) :
      Outcome (answered (listOf encode) (.ok (items.map item)))
        (items.any fun i => bad (item i)) := by
    have outcome := encoded (Encodes.listOf h (items.map item))
    rwa [List.any_map] at outcome
  rw [TsNif.readItems]
  generalize s.lookup db key = slot
  cases c.view slot with
  | vacant =>
    rw [ite_self]
    exact taken []
  | held a =>
    simp only [Container.holds, Container.unwrap_wrap, Option.any_some]
    split
    · rename_i nowhere
      rw [nowhere, List.take_zero]
      exact taken []
    · exact taken _
  | other type =>
    simp only [Container.holds, type, Option.any_none]
    split
    · exact taken []
    · exact .refused

/-- Where every item has a term. -/
lemma plainItems {entries : α → List ι} {item : ι → ο} {encode : List ο → Term} (count : Nat) :
    Outcome (ReadCommands.plainly encode (TsNif.readItems c entries item s db key count))
      false := by
  apply plainly
  rw [TsNif.readItems]
  generalize s.lookup db key = slot
  split
  · exact not_panicked_ok _
  · cases c.view slot with
    | vacant => exact not_panicked_ok _
    | held a =>
      simp only [Container.unwrap_wrap]
      exact not_panicked_ok _
    | other type =>
      simp only [type]
      exact not_panicked_wrongType

end

/-! ## Random elements -/

section
variable {α : Type} {dice : Dice} {items : List α}

/-- Draws panic when a vector cannot hold them. -/
lemma chooseMany (nonempty : items ≠ []) (count size : Nat) :
    Panicked (dice.chooseMany items nonempty count size) ↔ isizeMax < count * size := by
  rw [Dice.chooseMany]
  split
  · rename_i large
    exact iff_of_true (panicked_panic _) large
  · rename_i small
    exact iff_of_false (not_panicked_ok _) small

/-- Draws of members panic when a vector cannot hold them. -/
lemma drawMembers (count : Int) (members : List Bytes) :
    Panicked (TsNif.drawMembers dice count members) ↔ members ≠ [] ∧
      isizeMax < (-count).toNat * 8 := by
  rw [TsNif.drawMembers]
  split
  · rename_i nowhere
    exact iff_of_false (not_panicked_ok _) fun h => h.1 nowhere
  · rename_i filled
    have count_neg (here : count ≠ 0) (there : ¬ 0 < count) : count.natAbs = (-count).toNat := by
      omega
    split
    · rename_i zero
      refine iff_of_false (not_panicked_ok _) fun h => ?_
      have large := h.2
      rw [zero] at large
      exact absurd large (by decide)
    · rename_i here
      split
      · rename_i positive
        refine iff_of_false (not_panicked_ok _) fun h => ?_
        have large := h.2
        rw [show (-count).toNat = 0 by omega] at large
        exact absurd large (by decide)
      · rename_i there
        rw [chooseMany, count_neg here there]
        exact (and_iff_right filled).symm

/-- Draws of fields panic when a vector cannot hold them. -/
lemma drawFields (count : Int) (fields : List (Bytes × Bytes)) :
    Panicked (TsNif.drawFields dice count fields) ↔ fields ≠ [] ∧
      isizeMax < (-count).toNat * 16 := by
  rw [TsNif.drawFields]
  have calm (here : 0 ≤ count) : ¬ isizeMax < (-count).toNat * 16 := by
    rw [show (-count).toNat = 0 by omega]
    decide
  split
  · rename_i nowhere
    exact iff_of_false (not_panicked_ok _) fun h => h.1 nowhere
  · rename_i filled
    split
    · rename_i one
      exact iff_of_false (not_panicked_ok _) fun h => calm (by omega) h.2
    · split
      · rename_i many
        exact iff_of_false (not_panicked_ok _) fun h => calm (by omega) h.2
      · split
        · rename_i negative
          split
          · rw [chooseMany, show count.natAbs = (-count).toNat by omega]
            exact (and_iff_right filled).symm
          · rename_i least
            refine iff_of_true (panicked_panic _) ⟨filled, ?_⟩
            have size : isizeMax = 2 ^ 63 - 1 := rfl
            omega
        · exact iff_of_false (not_panicked_ok _) fun h => calm (by omega) h.2

end

end Outcome

/-! ## Read commands -/

/-- The read raises, in a storage whose sorted sets are consistent. -/
def StorageInner.overreads [Indexset] (s : StorageInner) (db : Nat) : ReadCommand → Bool
  | .srandmember key count => sets.holds (s.lookup db key) fun members =>
    members.toList ≠ [] ∧ isizeMax < (-count).toNat * 8
  | .hrandfield key count _ => hashes.holds (s.lookup db key) fun fields =>
    fields.toList ≠ [] ∧ isizeMax < (-count).toNat * 16
  | .zscore key member => zsets.holds (s.lookup db key) fun z => z.entries[member]?.any termless
  | .zrange key start stop withScores => zsets.holds (s.lookup db key) fun z =>
    withScores && (cut z.ranked start stop).any fun p => termless p.2
  | .zrangebyscore key min max withScores => zsets.holds (s.lookup db key) fun z =>
    (Indexset.refusesCrossed && Score.cmp min max == .gt) ||
      (withScores && (z.ranked.filter
        fun p => inBounds Score.cmp (.included min) (.included max) p.2).any fun p =>
        termless p.2)
  | .zfirst key count =>
    zsets.holds (s.lookup db key) fun z => (z.entries.toList.take count).any fun p => termless p.2
  | .zlast key count => zsets.holds (s.lookup db key) fun z =>
    (z.entries.toList.reverse.take count).any fun p => termless p.2
  | .znext key member count => zsets.holds (s.lookup db key) fun z =>
    ((rangeBy Prod.fst (.excluded member) .unbounded z.entries.toList).take count).any
      fun p => termless p.2
  | .zprev key member count => zsets.holds (s.lookup db key) fun z =>
    ((rangeBy Prod.fst .unbounded (.excluded member) z.entries.toList).reverse.take count).any
      fun p => termless p.2
  | _ => false

section
variable {s : StorageInner} {db : Nat} {key : Bytes}

/-- Some members with their scores, or without them. -/
lemma shown_outcome (withScores : Bool) (members : List (Bytes × Score)) :
    Outcome (answered (listOf scoredMember) (.ok (shown withScores members)))
      (withScores && members.any fun p => termless p.2) := by
  have outcome := Outcome.encoded (Encodes.listOf Encodes.scoredMember (shown withScores members))
  have bad : (shown withScores members).any (fun p => p.2.any termless) =
      (withScores && members.any fun p => termless p.2) := by
    rw [shown, List.any_map]
    cases withScores with
    | true => exact (Bool.true_and _).symm
    | false => exact List.any_eq_false.mpr fun _ _ => Bool.false_ne_true
  rwa [bad] at outcome

/-- What comes of a read of a container is decided by what the key is bound to. -/
lemma outcome_of_view {α ο : Type} (c : Container α) {encode : ο → Except Fault Term}
    {r : Except Fault ο} {bad : α → Bool}
    (vacant : s.lookup db key = none → Outcome (answered encode r) false)
    (held : ∀ a, s.lookup db key = some (c.wrap a) → Outcome (answered encode r) (bad a))
    (other : ∀ value, c.unwrap value = none → s.lookup db key = some value → r = wrongType) :
    Outcome (answered encode r) (c.holds (s.lookup db key) bad) := by
  generalize s.lookup db key = slot at vacant held other ⊢
  cases c.view slot with
  | vacant => exact vacant rfl
  | held a =>
    rw [Container.holds, Container.unwrap_wrap, Option.any_some]
    exact held a rfl
  | @other value type =>
    rw [Container.holds, type, Option.any_none, other value type rfl]
    exact .refused

/-- `ZRANGE` panics when a score that is shown has no term. -/
lemma zrange_outcome (consistent : s.Consistent) (start stop : Int) (withScores : Bool) :
    Outcome (answered (listOf scoredMember) (zrange s db key start stop withScores))
      (zsets.holds (s.lookup db key) fun z => withScores && (cut z.ranked start stop).any
      fun p => termless p.2) := by
  refine outcome_of_view zsets (fun vacant => ?_) (fun z held => ?_) fun value type bound => ?_
  · rw [zrange, vacant]
    exact .answer _
  · have h : z.Consistent := lookup_consistent consistent held
    by_cases isNil : z.len = 0
    · have nothing : z.ranked = [] :=
        List.length_eq_zero_iff.mp ((ZSet.length_ranked h).trans isNil)
      have outcome := shown_outcome withScores (cut z.ranked start stop)
      have isEmpty : cut z.ranked start stop = [] := by
        rw [nothing, cut, List.drop_nil, List.take_nil, ite_self]
      rw [isEmpty] at outcome ⊢
      have range : zrange s db key start stop withScores = .ok [] := by
        rw [zrange, show s.lookup db key = some (.zset z) from held]
        simp only [if_pos isNil]
      rw [range]
      exact outcome
    · rw [zrange_eq held h isNil]
      exact shown_outcome withScores _
  · rw [zrange, bound]
    cases value with
    | zset z => cases type
    | _ => rfl

end

section
variable [Indexset] {s : StorageInner} {db : Nat} {key : Bytes}

omit [Indexset] in
/-- The keys of two scores are crossed when the scores are. -/
lemma crossed_keys {min max : Score} :
    (ZSet.minKey (.included min)).crossed ZSetIndexKey.cmp (ZSet.maxKey (.included max)) =
      (Score.cmp min max == .gt) := by
  show ((ZSetIndexKey.minScoreKey min).cmp (.maxScoreKey max) == .gt) = _
  have cmp : (ZSetIndexKey.minScoreKey min).cmp (.maxScoreKey max) = (Score.cmp min max).then .lt :=
    rfl
  rw [cmp]
  cases Score.cmp min max with
  | lt => rfl
  | eq => rfl
  | gt => rfl

/-- `ZRANGEBYSCORE` panics when its range is crossed or a score has no term. -/
lemma zrangebyscore_outcome (consistent : s.Consistent) (min max : Score) (withScores : Bool) :
    Outcome (answered (listOf scoredMember) (zrangebyscore s db key min max withScores))
      (s.overreads db (.zrangebyscore key min max withScores)) := by
  refine outcome_of_view zsets (fun vacant => ?_) (fun z held => ?_) fun value type bound => ?_
  · rw [zrangebyscore, vacant]
    exact .answer _
  · have h : z.Consistent := lookup_consistent consistent held
    have range : zrangebyscore s db key min max withScores =
        (z.scoreRange (.included min) (.included max)).map
          fun members => shown withScores members := by
      rw [zrangebyscore, show s.lookup db key = some (.zset z) from held]
      rfl
    rw [range]
    cases refused : Indexset.refusesCrossed && Score.cmp min max == .gt with
    | true =>
      rw [ZSet.scoreRange, crossed_keys, refused, if_pos rfl, Bool.true_or]
      exact .raised _
    | false =>
      rw [Bool.false_or]
      rcases ZSet.scoreRange_eq h (.included min)
        (.included max) with collected | ⟨⟨msg, panics⟩, -⟩
      · rw [collected]
        exact shown_outcome withScores _
      · exfalso
        obtain ⟨members, eq, -⟩ := ZSet.collected_sublist h
          (Indexset.sublist (ZSet.minKey (.included min)) (ZSet.maxKey (.included max)) z.index)
        rw [ZSet.scoreRange, crossed_keys, refused, if_neg Bool.false_ne_true, eq] at panics
        cases panics
  · rw [zrangebyscore, bound]
    cases value with
    | zset z => cases type
    | _ => rfl

/-- A read of a storage that commands made is answered, refused or raises, and which one says
`overreads`. -/
theorem answer_outcome (consistent : s.Consistent) (dice : Dice) (command : ReadCommand) :
    Outcome (command.answer dice s db) (s.overreads db command) := by
  cases command with
  | first | last | next | prev => exact .answer _
  | get key =>
    refine .plainly ?_
    rw [TsNif.get]
    split
    · exact not_panicked_ok _
    · exact not_panicked_wrongType
    · exact not_panicked_ok _
  | smembers key =>
    refine .plainly ?_
    rw [TsNif.smembers]
    split
    · exact not_panicked_ok _
    · exact not_panicked_ok _
    · exact not_panicked_wrongType
  | llen | sismember | scard | smismember | hget | hmget | hgetall | hkeys | hvals | hlen | hexists
  | hstrlen | zcard =>
    exact .plainly Outcome.readOf_calm
  | sfirst | slast | snext | sprev | hfirst | hlast | hnext | hprev => exact .plainItems _
  | sunion keys =>
    refine .plainly ?_
    rw [TsNif.sunion, panicked_map]
    exact unionFrom_calm s db ∅ keys
  | sinter keys =>
    refine .plainly ?_
    rw [TsNif.sinter, panicked_map]
    exact fromFirst_calm s db (interFrom_calm s db) keys
  | sdiff keys =>
    refine .plainly ?_
    rw [TsNif.sdiff, panicked_map]
    exact fromFirst_calm s db (diffFrom_calm s db) keys
  | sintercard keys =>
    refine .plainly ?_
    rw [TsNif.sintercard, panicked_map]
    exact fromFirst_calm s db (interFrom_calm s db) keys
  | srandmember key count =>
    refine outcome_of_view sets (fun vacant => ?_) (fun members held => ?_)
      fun value type bound => ?_
    · rw [TsNif.srandmember, vacant]
      exact .answer _
    · rw [TsNif.srandmember, held]
      refine .plainly_of_iff ?_
      rw [decide_eq_true_iff]
      exact Outcome.drawMembers count members.toList
    · rw [TsNif.srandmember, bound]
      cases value with
      | set members => cases type
      | _ => rfl
  | lrange key start stop =>
    refine .plainly ?_
    rw [TsNif.lrange]
    split
    · exact not_panicked_ok _
    · simp only
      split
      · exact not_panicked_ok _
      · split
        · exact not_panicked_ok _
        · exact not_panicked_ok _
    · exact not_panicked_wrongType
  | hrandfield key count withValues =>
    refine outcome_of_view hashes (fun vacant => ?_) (fun fields held => ?_)
      fun value type bound => ?_
    · rw [TsNif.hrandfield, vacant]
      exact .answer _
    · rw [TsNif.hrandfield, held]
      refine .plainly_of_iff ?_
      rw [decide_eq_true_iff]
      exact panicked_map.trans (Outcome.drawFields count fields.toList)
    · rw [TsNif.hrandfield, bound]
      cases value with
      | hash fields => cases type
      | _ => rfl
  | zscore key member =>
    refine outcome_of_view zsets (fun vacant => ?_) (fun z held => ?_) fun value type bound => ?_
    · rw [TsNif.zscore, vacant]
      exact .answer _
    · rw [TsNif.zscore, held]
      exact .encoded (.optionalFloat _)
    · rw [TsNif.zscore, bound]
      cases value with
      | zset z => cases type
      | _ => rfl
  | zrange key start stop withScores => exact zrange_outcome consistent start stop withScores
  | zrangebyscore key min max withScores =>
    exact zrangebyscore_outcome consistent min max withScores
  | zrank key member =>
    refine .plainly ?_
    rw [TsNif.zrank]
    split
    · exact not_panicked_ok _
    · exact not_panicked_ok _
    · exact not_panicked_wrongType
  | zrevrank key member =>
    refine .plainly ?_
    rw [TsNif.zrevrank]
    split
    · exact not_panicked_ok _
    · rename_i z held
      cases entry : z.entries[member]? with
      | none => exact not_panicked_ok _
      | some score =>
        -- a member has fewer members below it than there are
        obtain ⟨rank, ranks⟩ := ranks_of_entry held (lookup_consistent consistent held) entry
        have reverse := ranks.reverse
        rw [TsNif.zrevrank, held] at reverse
        simp only [entry] at reverse ⊢
        rw [reverse]
        exact not_panicked_ok _
    · exact not_panicked_wrongType
  | zcount key min max =>
    refine .plainly ?_
    rw [TsNif.zcount]
    split
    · exact not_panicked_ok _
    · exact not_panicked_ok _
    · exact not_panicked_wrongType
  | zfirst | zlast | znext | zprev => exact .readItems Encodes.scoreFirst _

/-- In a storage that commands make out of the empty one: a read that overreads raises; every other
one is answered, or refused with one text. -/
theorem read_returns (dice : Dice) (commands : List (Nat × Command)) (db : Nat)
    {command : ReadCommand} (fits : command.Fits) :
    ((∃ msg, ReadCommands.execute dice (executeAll commands .new) db command.tuple =
      .error (.panic msg)) ↔
      (executeAll commands .new).overreads db command = true) ∧
    ((executeAll commands .new).overreads db command = false →
      (∃ value, ReadCommands.execute dice (executeAll commands .new) db command.tuple =
      .ok (okTerm value)) ∨
        ReadCommands.execute dice (executeAll commands .new) db command.tuple =
          .ok (encodeError
            "WRONGTYPE: Operation against a key holding the wrong kind of value")) := by
  have outcome :=
    @answer_outcome _ _ db (executeAll_consistent commands new_consistent) dice command
  rw [execute_tuple dice _ db fits]
  generalize command.answer dice _ db = r, StorageInner.overreads _ db command = bad at outcome
  cases outcome with
  | answer value => exact ⟨iff_of_false nofun nofun, fun _ => .inl ⟨value, rfl⟩⟩
  | refused => exact ⟨iff_of_false nofun nofun, fun _ => .inr rfl⟩
  | raised msg => exact ⟨iff_of_true ⟨msg, rfl⟩ rfl, nofun⟩

end

/-- A member with an infinite score. -/
def addInfinite : List (Nat × Command) := [(0, .zadd (ascii "z") [(.posInf, ascii "m")] [])]

/-- Its score is asked for. -/
theorem read_returns_infinite :
    ((∃ msg, @ReadCommands.execute (.exact false) .front
      (@executeAll (.exact false) addInfinite .new) 0
        (ReadCommand.zscore (ascii "z") (ascii "m")).tuple = .error (.panic msg)) ↔
      @StorageInner.overreads (.exact false) (@executeAll (.exact false) addInfinite .new) 0
        (.zscore (ascii "z") (ascii "m")) = true) ∧
    (@StorageInner.overreads (.exact false) (@executeAll (.exact false) addInfinite .new) 0
        (.zscore (ascii "z") (ascii "m")) = false →
      (∃ value, @ReadCommands.execute (.exact false) .front
        (@executeAll (.exact false) addInfinite .new) 0
        (ReadCommand.zscore (ascii "z") (ascii "m")).tuple = .ok (okTerm value)) ∨
      @ReadCommands.execute (.exact false) .front (@executeAll (.exact false) addInfinite .new) 0
        (ReadCommand.zscore (ascii "z") (ascii "m")).tuple =
          .ok (encodeError "WRONGTYPE: Operation against a key holding the wrong kind of value")) :=
  @read_returns (.exact false) .front addInfinite 0 (.zscore (ascii "z") (ascii "m")) trivial

/-- That raises. -/
example : @StorageInner.overreads (.exact false) (@executeAll (.exact false) addInfinite .new) 0
    (.zscore (ascii "z") (ascii "m")) = true := by
  decide +kernel

end Veidrodelis.TsNif
