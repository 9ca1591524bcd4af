import Mathlib.Logic.Function.Basic
import Veidrodelis.TsNif.RangeStores

/-!
# The options of ZADD

What `ZADD` does is said here by one rule for one pair (`ruled`), applied to the scores of the
members pair after pair (`applied`). The loop of the storage does the same to the entries. Whatever
the rule keeps of one score, the pairs keep.
-/

namespace Veidrodelis.TsNif
open RedisNif (Fault)
open RedisStream (Command ScoreTerm)
open StorageValue (zsets)

/-! ## The rules -/

/-- The score of a member when a pair with it has been added, if there is one. -/
def ruled (options : List ZAddOption) (present : Option Score) (score : Score) : Option Score :=
  let new := if .incr ∈ options then Binary64.add (present.getD 0) score else score
  match present with
  | none => if .xx ∈ options then none else some new
  | some old =>
    if .nx ∈ options ∨ .gt ∈ options ∧ Score.cmp new old ≠ .gt ∨ .lt ∈ options ∧
      Score.cmp new old ≠ .lt then some old
    else some new

/-- The scores of the members when some pairs have been added, one after the other. -/
def applied (options : List ZAddOption) : List (Score × Bytes) → (Bytes → Option Score) →
    Bytes → Option Score
  | [], scores => scores
  | (score, member) :: pairs, scores =>
    applied options pairs (Function.update scores member (ruled options (scores member) score))

/-- Options that go together, with so many pairs. -/
def Accepted (options : List ZAddOption) (pairs : Nat) : Prop :=
  ¬ (.nx ∈ options ∧ .xx ∈ options) ∧ ¬ (.nx ∈ options ∧ (.gt ∈ options ∨ .lt ∈ options)) ∧
    (.incr ∈ options → pairs = 1)

instance (options : List ZAddOption) (pairs : Nat) : Decidable (Accepted options pairs) :=
  inferInstanceAs (Decidable (_ ∧ _))

section
variable {options : List ZAddOption} {pairs : List (Score × Bytes)} {scores : Bytes → Option Score}

/-- What one pair keeps of a score, all pairs keep. -/
lemma applied_keeps {P : Option Score → Prop} {member : Bytes}
    (keeps : ∀ present score, P present → P (ruled options present score))
    (here : P (scores member)) : P (applied options pairs scores member) := by
  induction pairs generalizing scores with
  | nil => exact here
  | cons pair pairs ih =>
    obtain ⟨score, member'⟩ := pair
    refine ih ?_
    by_cases same : member = member'
    · subst same
      rw [Function.update_self]
      exact keeps _ _ here
    · rw [Function.update_of_ne same]
      exact here

/-- Members that are not listed keep their scores. -/
lemma applied_unlisted {member : Bytes} (unlisted : member ∉ pairs.map (·.2)) :
    applied options pairs scores member = scores member := by
  induction pairs generalizing scores with
  | nil => rfl
  | cons pair pairs ih =>
    obtain ⟨score, member'⟩ := pair
    rw [List.map_cons, List.mem_cons, not_or] at unlisted
    rw [applied, ih unlisted.2, Function.update_of_ne unlisted.1]

/-- `NX` keeps the score of a member. -/
lemma applied_nx (nx : .nx ∈ options) {member : Bytes} {old : Score}
    (present : scores member = some old) : applied options pairs scores member = some old := by
  refine applied_keeps (P := fun score => score = some old) (fun score' score here => ?_) present
  rw [here, ruled, if_pos (.inl nx)]

/-- `XX` adds no member. -/
lemma applied_xx (xx : .xx ∈ options) {member : Bytes} (absent : scores member = none) :
    applied options pairs scores member = none := by
  refine applied_keeps (P := fun score => score = none) (fun score' score here => ?_) absent
  rw [here, ruled, if_pos xx]

/-- A member stays a member. -/
lemma ruled_some (options : List ZAddOption) (old score : Score) :
    ruled options (some old) score = some old ∨
      ∃ new, ruled options (some old) score = some new ∧
        (.gt ∈ options → Score.cmp new old = .gt) ∧ (.lt ∈ options → Score.cmp new old = .lt) := by
  rw [ruled]
  generalize (if .incr ∈ options then Binary64.add ((some old).getD 0) score else score) = new
  by_cases kept : .nx ∈ options ∨ .gt ∈ options ∧ Score.cmp new old ≠ .gt ∨ .lt ∈ options ∧
    Score.cmp new old ≠ .lt
  · exact .inl (if_pos kept)
  · obtain ⟨_, replaced⟩ := not_or.mp kept
    obtain ⟨gt, lt⟩ := not_or.mp replaced
    refine .inr ⟨new, if_neg kept, fun mem => ?_, fun mem => ?_⟩
    · exact not_not.mp fun other => gt ⟨mem, other⟩
    · exact not_not.mp fun other => lt ⟨mem, other⟩

/-- `GT` lowers no score. -/
lemma applied_gt (gt : .gt ∈ options) {member : Bytes} {old : Score}
    (present : scores member = some old) :
    ∃ new, applied options pairs scores member = some new ∧ Score.cmp new old ≠ .lt := by
  -- the score may go up several times, so it is compared with the one of the beginning
  refine applied_keeps (P := fun score => ∃ new, score = some new ∧ Score.cmp new old ≠ .lt)
    (fun score' score here => ?_) ⟨old, present, by simp [Std.ReflCmp.compare_self]⟩
  obtain ⟨now, rfl, not_lt⟩ := here
  rcases ruled_some options now score with kept | ⟨new, replaced, above, _⟩
  · exact ⟨now, kept, not_lt⟩
  · refine ⟨new, replaced, fun lt => not_lt ?_⟩
    exact Std.TransCmp.lt_trans (Std.OrientedCmp.lt_of_gt (above gt)) lt

/-- `LT` raises none. -/
lemma applied_lt (lt : .lt ∈ options) {member : Bytes} {old : Score}
    (present : scores member = some old) :
    ∃ new, applied options pairs scores member = some new ∧ Score.cmp new old ≠ .gt := by
  refine applied_keeps (P := fun score => ∃ new, score = some new ∧ Score.cmp new old ≠ .gt)
    (fun score' score here => ?_) ⟨old, present, by simp [Std.ReflCmp.compare_self]⟩
  obtain ⟨now, rfl, not_gt⟩ := here
  rcases ruled_some options now score with kept | ⟨new, replaced, _, below⟩
  · exact ⟨now, kept, not_gt⟩
  · refine ⟨new, replaced, fun gt => not_gt ?_⟩
    exact Std.OrientedCmp.gt_of_lt (Std.TransCmp.lt_trans (Std.OrientedCmp.lt_of_gt gt) (below lt))

end

/-! ## The loop -/

namespace ZSet

/-- One turn of the loop follows the rule. -/
lemma entries_addMember (options : List ZAddOption) (z : ZSet) (score : Score)
    (member other : Bytes) :
    (z.addMember (.ofOptions options) score member).entries[other]? =
      Function.update (fun m => z.entries[m]?) member
      (ruled options z.entries[member]? score) other := by
  have inserted (new : Score) : (z.entries.insert member new)[other]? =
      Function.update (fun m => z.entries[m]?) member (some new) other := by
    simp only [Std.ExtTreeMap.getElem?_insert, Std.LawfulEqCmp.compare_eq_iff_eq]
    by_cases here : member = other
    · rw [if_pos here, here, Function.update_self]
    · rw [if_neg here, Function.update_of_ne (Ne.symm here)]
  have kept : z.entries[other]? =
    Function.update (fun m => z.entries[m]?) member z.entries[member]? other :=
    (congrFun (Function.update_eq_self member fun m => z.entries[m]?) other).symm
  unfold addMember
  cases present : z.entries[member]? with
  | none =>
    rw [present] at kept
    simp only [ZAddFlags.ofOptions, Option.isSome_none, Option.isNone_none, Bool.and_false,
      Bool.and_true, decide_eq_true_eq, ruled, Bool.false_eq_true, if_false]
    split
    · exact kept
    · exact inserted _
  | some old =>
    rw [present] at kept
    simp only [ZAddFlags.ofOptions, Option.isSome_some, Option.isNone_some, Bool.and_false,
      Bool.and_true, decide_eq_true_eq, ruled, Bool.false_eq_true, if_false, Bool.and_eq_true,
      bne_iff_ne]
    generalize (if .incr ∈ options then Binary64.add ((some old).getD 0) score else score) = new
    -- the guards of the loop, in the order of the source
    by_cases nx : .nx ∈ options
    · rw [if_pos nx, if_pos (.inl nx)]
      exact kept
    · rw [if_neg nx]
      by_cases gt : .gt ∈ options ∧ Score.cmp new old ≠ .gt
      · rw [if_pos gt, if_pos (.inr (.inl gt))]
        exact kept
      · rw [if_neg gt]
        by_cases lt : .lt ∈ options ∧ Score.cmp new old ≠ .lt
        · rw [if_pos lt, if_pos (.inr (.inr lt))]
          exact kept
        · rw [if_neg lt, if_neg (not_or.mpr ⟨nx, not_or.mpr ⟨gt, lt⟩⟩)]
          exact inserted new

/-- The loop applies the rules to the entries. -/
lemma entries_add (options : List ZAddOption) (pairs : List (Score × Bytes)) (z : ZSet) :
    (fun member => (z.add (.ofOptions options) pairs).entries[member]?) =
      applied options pairs fun member => z.entries[member]? := by
  induction pairs generalizing z with
  | nil => rfl
  | cons pair pairs ih =>
    obtain ⟨score, member⟩ := pair
    have first : (fun other => (z.addMember (.ofOptions options) score member).entries[other]?) =
        Function.update (fun m => z.entries[m]?) member (ruled options z.entries[member]? score) :=
      funext (entries_addMember options z score member)
    rw [applied, ← first]
    exact ih _

end ZSet

/-! ## The command -/

/-- The pairs of the tuple, with their scores decoded. -/
def scorePairs (members : List (ScoreTerm × Bytes)) : List (Score × Bytes) :=
  members.map fun (score, member) => (decodeScore score, member)

/-- The pairs are added by the rules, and nothing else changes. -/
structure AddsScores (s s' : StorageInner) (db : Nat) (key : Bytes) (z : ZSet)
    (options : List ZAddOption) (pairs : List (Score × Bytes)) : Prop where
  scores : ∀ member, zscore s' db key member =
    .ok (applied options pairs (fun m => z.entries[m]?) member)
  nx : .nx ∈ options → ∀ member old, z.entries[member]? = some old →
    zscore s' db key member = .ok (some old)
  xx : .xx ∈ options → ∀ member, z.entries[member]? = none → zscore s' db key member = .ok none
  gt : .gt ∈ options → ∀ member old, z.entries[member]? = some old →
    ∃ new, zscore s' db key member = .ok (some new) ∧ Score.cmp new old ≠ .lt
  lt : .lt ∈ options → ∀ member old, z.entries[member]? = some old →
    ∃ new, zscore s' db key member = .ok (some new) ∧ Score.cmp new old ≠ .gt
  unlisted : ∀ member, member ∉ pairs.map (·.2) → zscore s' db key member = .ok z.entries[member]?
  others : ∀ db' key', ¬ (db' = db ∧ key' = key) → s'.lookup db' key' = s.lookup db' key'

section
variable {s : StorageInner} {db : Nat} {key : Bytes} {z : ZSet}

/-- Scores that follow the rules have the properties of the options. -/
lemma addsScores_of_entries {s' : StorageInner} {options : List ZAddOption}
    {pairs : List (Score × Bytes)}
    (scores : ∀ member, zscore s' db key member =
      .ok (applied options pairs (fun m => z.entries[m]?) member))
    (others : ∀ db' key', ¬ (db' = db ∧ key' = key) → s'.lookup db' key' = s.lookup db' key') :
    AddsScores s s' db key z options pairs where
  scores := scores
  nx nx member old present := by rw [scores, applied_nx nx present]
  xx xx member absent := by rw [scores, applied_xx xx absent]
  gt gt member old present := by
    obtain ⟨new, eq, bound⟩ := @applied_gt options pairs _ gt member old present
    exact ⟨new, by rw [scores, eq], bound⟩
  lt lt member old present := by
    obtain ⟨new, eq, bound⟩ := @applied_lt options pairs _ lt member old present
    exact ⟨new, by rw [scores, eq], bound⟩
  unlisted member unlisted := by rw [scores, applied_unlisted unlisted]
  others := others

/-- Accepted options leave it to the loop. -/
lemma zadd_accepted {options : List ZAddOption} {pairs : List (Score × Bytes)}
    (accepted : Accepted options pairs.length) :
    zadd pairs options = zsets.orInsert fun z => (z.add (.ofOptions options) pairs, .ok ()) := by
  obtain ⟨exclusive, conflict, incr⟩ := accepted
  funext slot
  simp only [zadd, ZSet.ZAddFlags.ofOptions, decide_eq_true_eq]
  rw [if_neg exclusive, if_neg fun both => conflict ⟨both.2, both.1⟩,
    if_neg fun more => more.2 (incr more.1)]

/-- Other options are refused. -/
lemma zadd_refused {options : List ZAddOption} {pairs : List (Score × Bytes)}
    (refused : ¬ Accepted options pairs.length) (slot : Slot) :
    ∃ msg, zadd pairs options slot = (slot, .error (.err msg)) := by
  simp only [zadd, ZSet.ZAddFlags.ofOptions, decide_eq_true_eq]
  by_cases exclusive : .nx ∈ options ∧ .xx ∈ options
  · exact ⟨_, if_pos exclusive⟩
  · rw [if_neg exclusive]
    by_cases conflict : (.gt ∈ options ∨ .lt ∈ options) ∧ .nx ∈ options
    · exact ⟨_, if_pos conflict⟩
    · rw [if_neg conflict]
      have more : .incr ∈ options ∧ pairs.length ≠ 1 := by
        by_contra less
        exact refused ⟨exclusive, fun both => conflict ⟨both.2, both.1⟩,
          fun incr => not_not.mp fun ne => less ⟨incr, ne⟩⟩
      exact ⟨_, if_pos more⟩

/-- On every sorted set and on a missing key, for all options and all pairs: accepted options add
the pairs by the rules, and other ones are refused and change nothing. -/
theorem addsScores [Indexset] (found : zsetAt s db key = some z)
    (members : List (ScoreTerm × Bytes)) (options : List ZAddOption) :
    (Accepted options members.length → (dispatch db (.zadd key members options) s).2 = .ok () ∧
      AddsScores s (dispatch db (.zadd key members options) s).1 db key z options
        (scorePairs members)) ∧
    (¬ Accepted options members.length →
      ∃ msg, dispatch db (.zadd key members options) s = (s, .error (.err msg))) := by
  have size : (scorePairs members).length = members.length := List.length_map _
  show (_ → (atKey db key (zadd (scorePairs members) options) s).2 = _ ∧
    AddsScores s (atKey db key (zadd (scorePairs members) options) s).1 _ _ _ _ _) ∧
    (_ → ∃ msg, atKey db key (zadd (scorePairs members) options) s = _)
  rw [← size]
  constructor
  · intro accepted
    -- a missing key is an empty sorted set
    have slot : zadd (scorePairs members) options (s.lookup db key) =
        (some (.zset (z.add (.ofOptions options) (scorePairs members))), .ok ()) := by
      rw [zadd_accepted accepted]
      unfold zsetAt at found
      cases bound : s.lookup db key with
      | none =>
        rw [bound] at found
        cases found
        rfl
      | some value =>
        rw [bound] at found
        cases value with
        | zset z' =>
          cases found
          rfl
        | _ => cases found
    refine ⟨by rw [atKey, slot], ?_⟩
    refine addsScores_of_entries (fun member => ?_) fun db' key' other => lookup_atKey_ne other _ s
    rw [← ZSet.entries_add, zscore, lookup_atKey, slot]
  · intro refused
    obtain ⟨msg, slot⟩ := zadd_refused refused (s.lookup db key)
    refine ⟨msg, ?_⟩
    rw [atKey, slot]
    exact congrArg (·, _) (StorageInner.store_lookup s db key)

end

/-- With `GT`, a member that is listed twice goes up and not down again. -/
theorem addsScores_twice :
    (@dispatch (.exact false) 0 (.zadd (ascii "k") [(.float (Binary64.ofInt 2), ascii "a"),
      (.float (Binary64.ofInt 1), ascii "a")] [.gt]) (@executeAll (.exact false) addThree .new)).2 =
      .ok () ∧
    AddsScores (@executeAll (.exact false) addThree .new)
      (@dispatch (.exact false) 0 (.zadd (ascii "k") [(.float (Binary64.ofInt 2), ascii "a"),
        (.float (Binary64.ofInt 1), ascii "a")] [.gt]) (@executeAll (.exact false) addThree .new)).1
      0 (ascii "k") threeMembers [.gt]
      (scorePairs [(.float (Binary64.ofInt 2), ascii "a"),
        (.float (Binary64.ofInt 1), ascii "a")]) :=
  (@addsScores _ 0 (ascii "k") threeMembers (.exact false) (by decide +kernel) _ [.gt]).1
    (by decide +kernel)

end Veidrodelis.TsNif
