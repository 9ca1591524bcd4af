import Veidrodelis.TsNif.RangeStores

/-!
# Ranks

The members of a sorted set stand in one order, by their scores and then by their names. The index
keeps it: the rank of a member is the number of members below it, a range by ranks is a part of that
order, a range by scores is a filter on it, and `ZCOUNT` counts the same members by two ranks of
keys that are no elements. What is popped from an end is what is removed by the ranks at that end.
-/

namespace Veidrodelis.TsNif
open RedisNif (Fault)
open RedisStream (Command)
open StorageValue (zsets)

/-- The order of the members: by their scores, and those of one score by their names. -/
def Below (p q : Bytes × Score) : Prop :=
  Score.cmp p.2 q.2 = .lt ∨ Score.cmp p.2 q.2 = .eq ∧ compare p.1 q.1 = .lt

instance (p q : Bytes × Score) : Decidable (Below p q) := inferInstanceAs (Decidable (_ ∨ _))

namespace ZSet

variable {z : ZSet}

/-! ## The order of the index -/

/-- Keys are in the order of scores, and of names for one score. -/
lemma key_cmp_lt {score score' : Score} {member member' : Bytes} :
    (ZSetIndexKey.key score member).cmp (.key score' member') = .lt ↔
      Below (member, score) (member', score') := by
  show (Score.cmp score score').then ((Ordering.eq).then (compare member member')) = .lt ↔ _
  rw [Ordering.then_eq_lt, Ordering.then_eq_lt]
  simp [Below]

/-- An element that is looked up by its name has its place. -/
lemma key_cmp_ref {score score' : Score} {member member' : Bytes} :
    (ZSetIndexKey.key score member).cmp (.ref score' member') =
      (ZSetIndexKey.key score member).cmp (.key score' member') := rfl

/-- The index is in the order of the members. -/
lemma ranked_below (h : z.Consistent) : z.ranked.Pairwise Below := by
  rw [ranked, List.pairwise_map]
  apply z.index.ordered.imp_of_mem
  intro k k' mem mem' lt
  obtain ⟨member, score, _, rfl⟩ := (h k).mp mem
  obtain ⟨member', score', _, rfl⟩ := (h k').mp mem'
  exact key_cmp_lt.mp lt

/-- It has the members and no others. -/
lemma ranked_perm (h : z.Consistent) : z.ranked.Perm z.entries.toList := by
  rw [List.perm_ext_iff_of_nodup (List.Nodup.of_map _ (ranked_nodup h))
    (List.Nodup.of_map _ (names_toList _))]
  rintro ⟨member, score⟩
  rw [mem_ranked h, Std.ExtTreeMap.mem_toList_iff_getElem?_eq_some]

/-- What is counted in the index is counted among the members. -/
lemma countP_index (h : z.Consistent) {p : ZSetIndexKey → Bool} {q : Bytes × Score → Bool}
    (same : ∀ member score, p (.key score member) = q (member, score)) :
    z.index.elems.countP p = z.ranked.countP q := by
  rw [ranked, List.countP_map]
  refine List.countP_congr fun k mem => ?_
  obtain ⟨member, score, _, rfl⟩ := (h k).mp mem
  rw [same]
  rfl

/-- The rank of a member is the number of members below it. -/
lemma rank_below (h : z.Consistent) (score : Score) (member : Bytes) :
    z.index.rank (.ref score member) =
      z.entries.toList.countP fun p => Below p (member, score) := by
  rw [OrderedSet.rank_eq_countP, ← (ranked_perm h).countP_eq]
  refine countP_index h fun member' score' => ?_
  rw [key_cmp_ref, Bool.eq_iff_iff, beq_iff_eq, decide_eq_true_iff]
  exact key_cmp_lt

/-- In front of the least key of a score are the members with a smaller score. -/
lemma rank_minScoreKey (h : z.Consistent) (min : Score) :
    z.index.rank (.minScoreKey min) = z.ranked.countP fun p => Score.cmp p.2 min == .lt := by
  rw [OrderedSet.rank_eq_countP]
  refine countP_index h fun member score => ?_
  have cmp : (ZSetIndexKey.key score member).cmp (.minScoreKey min) =
    (Score.cmp score min).then .gt := rfl
  rw [cmp]
  cases Score.cmp score min with
  | lt => rfl
  | eq => rfl
  | gt => rfl

/-- In front of the greatest key of a score are the members with no greater score. -/
lemma rank_maxScoreKey (h : z.Consistent) (max : Score) :
    z.index.rank (.maxScoreKey max) = z.ranked.countP fun p => Score.cmp p.2 max != .gt := by
  rw [OrderedSet.rank_eq_countP]
  refine countP_index h fun member score => ?_
  rw [cmp_maxScoreKey]
  cases Score.cmp score max with
  | lt => rfl
  | eq => rfl
  | gt => rfl

/-- Scores up to the upper bound are below the lower one or between both. -/
lemma countP_upTo (members : List (Bytes × Score)) {min max : Score}
    (ordered : Score.cmp min max ≠ .gt) :
    members.countP (fun p => Score.cmp p.2 max != .gt) =
      members.countP (fun p => Score.cmp p.2 min == .lt) + members.countP
      fun p => inBounds Score.cmp (.included min) (.included max) p.2 := by
  induction members with
  | nil => rfl
  | cons p members ih =>
    rw [List.countP_cons, List.countP_cons, List.countP_cons, ih]
    have inside : inBounds Score.cmp (.included min) (.included max) p.2 =
        (Score.cmp min p.2 != .gt && Score.cmp p.2 max != .gt) := rfl
    by_cases front : Score.cmp p.2 min = .lt
    · have upTo : Score.cmp p.2 max = .lt :=
        Std.TransCmp.lt_of_lt_of_isLE front (Ordering.isLE_iff_ne_gt.mpr ordered)
      have outside : Score.cmp min p.2 = .gt := Std.OrientedCmp.gt_of_lt front
      rw [inside]
      simp only [front, upTo, outside]
      simp
      omega
    · have from_min : Score.cmp min p.2 ≠ .gt := fun gt => front (Std.OrientedCmp.lt_of_gt gt)
      rw [inside]
      simp [front, from_min]
      omega

/-- Between crossed bounds lies nothing, and the ranks are crossed, too. -/
lemma countP_crossed (members : List (Bytes × Score)) {min max : Score}
    (crossed : Score.cmp min max = .gt) :
    members.countP (fun p => Score.cmp p.2 max != .gt) ≤
      members.countP (fun p => Score.cmp p.2 min == .lt) := by
  refine List.countP_mono_left fun p _ upTo => ?_
  rw [bne_iff_ne] at upTo
  rw [beq_iff_eq]
  exact Std.TransCmp.lt_of_isLE_of_lt (Ordering.isLE_iff_ne_gt.mpr upTo)
    (Std.OrientedCmp.lt_of_gt crossed)

end ZSet

/-! ## Ranges by scores -/

/-- The entries of a result: the scores are only there if they are asked for. -/
def shown (withScores : Bool) (members : List (Bytes × Score)) : List (Bytes × Option Score) :=
  members.map fun (member, score) => (member, if withScores then some score else none)

/-- `ZRANGEBYSCORE` returns the members with scores between the bounds, in their order, and `ZCOUNT`
returns how many they are. -/
def RangesScores [Indexset] (s : StorageInner) (db : Nat) (key : Bytes) (z : ZSet)
    (min max : Score) : Prop :=
  ∃ found : List (Bytes × Score),
    found.Perm (z.entries.toList.filter fun p => Score.cmp min p.2 ≠ .gt ∧
    Score.cmp p.2 max ≠ .gt) ∧
    found.Pairwise Below ∧
    (∀ withScores, zrangebyscore s db key min max withScores = .ok (shown withScores found)) ∧
    zcount s db key min max = .ok found.length ∧
    (Score.cmp min max = .gt → found = [])

section
variable {s : StorageInner} {db : Nat} {key : Bytes} {z : ZSet}

/-- Nothing lies between crossed bounds. -/
lemma not_inBounds {min max : Score} (crossed : Score.cmp min max = .gt) (score : Score) :
    ¬ inBounds Score.cmp (.included min) (.included max) score = true := by
  rw [inBounds, Bound.not_admits_of_crossed (by simp [Bound.crossed, crossed])]
  exact Bool.false_ne_true

/-- `ZCOUNT` counts the members between the scores. -/
lemma zcount_eq (held : s.lookup db key = some (.zset z)) (h : z.Consistent) (min max : Score) :
    zcount s db key min max =
      .ok (z.ranked.countP fun p => inBounds Score.cmp (.included min) (.included max) p.2) := by
  simp only [zcount, held, ZSet.rank_minScoreKey h, ZSet.rank_maxScoreKey h]
  refine congrArg Except.ok ?_
  by_cases crossed : Score.cmp min max = .gt
  · have isZero : z.ranked.countP
      (fun p => inBounds Score.cmp (.included min) (.included max) p.2) = 0 := by
      exact List.countP_eq_zero.mpr fun p _ => not_inBounds crossed p.2
    have le := ZSet.countP_crossed z.ranked crossed
    rw [isZero]
    split
    · rfl
    · exact Nat.sub_eq_zero_of_le le
  · have sum := ZSet.countP_upTo z.ranked crossed
    rw [if_neg (by omega)]
    omega

/-- A range that is not refused is a filter on the members. -/
lemma scoreRange_filter [Indexset] (yields : Indexset.refusesCrossed = false) (h : z.Consistent)
    (min max : Bound Score) :
    z.scoreRange min max = .ok (z.ranked.filter fun p => inBounds Score.cmp min max p.2) := by
  obtain collected | ⟨⟨msg, refused⟩, _⟩ := ZSet.scoreRange_eq h min max
  · exact collected
  · exfalso
    rw [ZSet.scoreRange, yields, Bool.false_and, if_neg Bool.false_ne_true] at refused
    obtain ⟨members, eq, _⟩ :=
      ZSet.collected_sublist h (Indexset.sublist (ZSet.minKey min) (ZSet.maxKey max) z.index)
    rw [eq] at refused
    cases refused

/-- On every sorted set that commands make out of the empty storage, with any two scores. -/
theorem rangesScores [Indexset] (yields : Indexset.refusesCrossed = false)
    (commands : List (Nat × Command)) {db : Nat} {key : Bytes} {z : ZSet}
    (held : (executeAll commands .new).lookup db key = some (.zset z)) (min max : Score) :
    RangesScores (executeAll commands .new) db key z min max := by
  have h : z.Consistent := lookup_consistent (executeAll_consistent commands new_consistent) held
  refine ⟨z.ranked.filter fun p => inBounds Score.cmp (.included min) (.included max) p.2, ?_, ?_,
    ?_, ?_, ?_⟩
  · refine ((ZSet.ranked_perm h).filter _).trans (List.Perm.of_eq (List.filter_congr fun p _ => ?_))
    rw [Bool.eq_iff_iff, decide_eq_true_iff, inBounds, Bool.and_eq_true]
    exact and_congr bne_iff_ne bne_iff_ne
  · exact (ZSet.ranked_below h).filter _
  · intro withScores
    simp only [zrangebyscore, held, scoreRange_filter yields h]
    rfl
  · rw [zcount_eq held h, List.countP_eq_length_filter]
  · intro crossed
    exact List.filter_eq_nil_iff.mpr fun p _ => not_inBounds crossed p.2

/-- Of three members those from two on by score. -/
theorem rangesScores_three :
    @RangesScores (.exact false) (@executeAll (.exact false) addThree .new) 0
      (ascii "k") threeMembers
      (Binary64.ofInt 2) Binary64.infBits :=
  @rangesScores (.exact false) rfl addThree 0 (ascii "k") threeMembers (by decide +kernel)
    (Binary64.ofInt 2)
    Binary64.infBits

/-! ## Ranks of members -/

/-- What the rank of a member says: how many members are below it, where it is found, and how far it
is from the other end. -/
structure Ranks (s : StorageInner) (db : Nat) (key : Bytes) (z : ZSet) (member : Bytes)
    (score : Score) (rank : Nat) : Prop where
  found : zrank s db key member = .ok (some rank)
  lt : rank < z.len
  below : rank = z.entries.toList.countP fun p => Below p (member, score)
  here : ∀ withScores, zrange s db key rank rank withScores =
    .ok (shown withScores [(member, score)])
  reverse : zrevrank s db key member = .ok (some (z.len - 1 - rank))

/-- The ranks of the members: each member has one, each number below their number is one of one
member, and the whole range has the members in their order. -/
structure RanksMembers (s : StorageInner) (db : Nat) (key : Bytes) (z : ZSet) : Prop where
  ranks : ∀ member score, z.entries[member]? = some score →
    ∃ rank, Ranks s db key z member score rank
  bijective : ∀ rank < z.len,
    ∃! member, member ∈ z.entries ∧ zrank s db key member = .ok (some rank)
  whole : ∃ found : List (Bytes × Score), found.Perm z.entries.toList ∧ found.Pairwise Below ∧
    ∀ withScores, zrange s db key 0 (-1) withScores = .ok (shown withScores found)

/-- The rank of a member is its position in the order. -/
lemma zrank_getElem (held : s.lookup db key = some (.zset z)) (h : z.Consistent) {rank : Nat}
    (inside : rank < z.ranked.length) : zrank s db key z.ranked[rank].1 = .ok (some rank) := by
  have size : rank < (z.ranked.map (·.1)).length := by rwa [List.length_map]
  have name : (z.ranked.map (·.1))[rank] = z.ranked[rank].1 := List.getElem_map _
  rw [zrank_eq held h, ← name, if_pos (List.getElem_mem size),
    (ZSet.ranked_nodup h).idxOf_getElem rank size]

/-- A cut from a place to itself is the item there. -/
lemma cut_single {α : Type} {items : List α} {i : Nat} (inside : i < items.length) :
    cut items i i = [items[i]] := by
  have here : position items.length i = i := by
    have clamped := position_eq items.length i
    rw [fromFront, if_neg (by omega)] at clamped
    omega
  rw [cut, here, if_neg (Nat.lt_irrefl i), Nat.sub_self, List.drop_eq_getElem_cons inside,
    List.take_succ_cons, List.take_zero]

/-- A cut from the first place to the last is the list. -/
lemma cut_whole {α : Type} (items : List α) (nonempty : items ≠ []) : cut items 0 (-1) = items := by
  have size : 0 < items.length := List.length_pos_iff.mpr nonempty
  have first : position items.length 0 = 0 := by
    have clamped := position_eq items.length 0
    rw [fromFront, if_neg (by omega)] at clamped
    omega
  have last : position items.length (-1) = items.length - 1 := by
    have clamped := position_eq items.length (-1)
    rw [fromFront, if_pos (by omega)] at clamped
    omega
  rw [cut, first, last, if_neg (Nat.not_lt_zero _), List.drop_zero,
    List.take_of_length_le (by omega)]

/-- A member with a score has a rank. -/
lemma ranks_of_entry (held : s.lookup db key = some (.zset z)) (h : z.Consistent) {member : Bytes}
    {score : Score} (entry : z.entries[member]? = some score) :
    ∃ rank, Ranks s db key z member score rank := by
  obtain ⟨rank, inside, here⟩ := List.mem_iff_getElem.mp ((ZSet.mem_ranked h).mpr entry)
  have found : zrank s db key member = .ok (some rank) := by
    have ranked := zrank_getElem held h inside
    rwa [here] at ranked
  have index : z.index.rank (.ref score member) = rank := by
    simp only [zrank, held, entry, Option.map_some] at found
    exact Option.some.inj (Except.ok.inj found)
  have lt : rank < z.len := ZSet.length_ranked h ▸ inside
  refine ⟨rank, found, lt, ?_, fun withScores => ?_, ?_⟩
  · rw [← index, ZSet.rank_below h]
  · rw [zrange_eq held h (Nat.ne_zero_of_lt lt), cut_single inside, here]
    rfl
  · simp only [zrevrank, held, entry, index]
    rw [if_pos (Nat.succ_le_of_lt lt)]

/-- On every sorted set that commands make out of the empty storage. -/
theorem ranksMembers [Indexset] (commands : List (Nat × Command)) {db : Nat} {key : Bytes}
    {z : ZSet} (held : (executeAll commands .new).lookup db key = some (.zset z)) :
    RanksMembers (executeAll commands .new) db key z := by
  have h : z.Consistent := lookup_consistent (executeAll_consistent commands new_consistent) held
  refine ⟨fun member score entry => ranks_of_entry held h entry, fun rank lt => ?_, ?_⟩
  · have inside : rank < z.ranked.length := (ZSet.length_ranked h).symm ▸ lt
    refine ⟨z.ranked[rank].1, ⟨?_, zrank_getElem held h inside⟩, ?_⟩
    · exact (ZSet.mem_ranked_names h).mp (List.mem_map_of_mem (List.getElem_mem inside))
    · rintro member ⟨mem, found⟩
      obtain ⟨rank', inside', here⟩ := List.mem_iff_getElem.mp ((ZSet.mem_ranked_names h).mpr mem)
      rw [List.getElem_map] at here
      rw [← here, zrank_getElem held h] at found
      cases found
      exact here.symm
  · by_cases isZero : z.len = 0
    · refine ⟨[], ?_, List.Pairwise.nil, fun withScores => ?_⟩
      · have size := (ZSet.ranked_perm h).length_eq
        rw [ZSet.length_ranked h, isZero] at size
        rw [List.length_eq_zero_iff.mp size.symm]
      · simp only [zrange, held, if_pos isZero]
        rfl
    · have filled : z.ranked ≠ [] := by
        rwa [ne_eq, ← List.length_eq_zero_iff, ZSet.length_ranked h]
      refine ⟨z.ranked, ZSet.ranked_perm h, ZSet.ranked_below h, fun withScores => ?_⟩
      rw [zrange_eq held h isZero, cut_whole z.ranked filled]
      rfl

/-- Three members and their ranks. -/
theorem ranksMembers_three :
    RanksMembers (@executeAll (.exact false) addThree .new) 0 (ascii "k") threeMembers :=
  @ranksMembers (.exact false) addThree 0 (ascii "k") threeMembers (by decide +kernel)

end

/-! ## Pops -/

namespace ZSet

variable {z z' : ZSet}

/-- The entries of a sorted set determine its index. -/
lemma eq_of_entries (h : z.Consistent) (h' : z'.Consistent) (same : z.entries = z'.entries) :
    z = z' := by
  have index : z.index = z'.index := OrderedSet.ext_of_mem fun k => by rw [h k, h' k, same]
  cases z
  cases z'
  cases same
  cases index
  rfl

/-- What is left of the index when it is popped so often. -/
lemma popWith_elems {pop : ZSetIndex → Option (ZSetIndexKey × ZSetIndex)}
    (pops : OrderedSet.Pops pop) {rest : List ZSetIndexKey → List ZSetIndexKey}
    (left : ∀ {index k index'}, pop index = some (k, index') → index'.elems = rest index.elems)
    (nothing : rest [] = []) (count : Nat) (h : z.Consistent) :
    (z.popWith pop count).1.index.elems = rest^[count] z.index.elems := by
  induction count generalizing z with
  | zero => rfl
  | succ count ih =>
    rw [popWith, Function.iterate_succ_apply]
    cases popped : pop z.index with
    | none =>
      -- the loop ends, and there is nothing left to take
      rw [pops.none_iff.mp popped, nothing, Function.iterate_fixed nothing]
    | some p =>
      obtain ⟨k, index⟩ := p
      obtain ⟨member, score, _, rfl⟩ := (h k).mp (pops.mem popped)
      rw [← left popped]
      exact ih (pop_consistent pops h popped)

/-- Taking off the last item many times. -/
lemma dropLast_iterate {α : Type} (items : List α) (n : Nat) :
    List.dropLast^[n] items = items.take (items.length - n) := by
  induction n generalizing items with
  | zero => rw [Function.iterate_zero_apply, Nat.sub_zero, List.take_length]
  | succ n ih =>
    rw [Function.iterate_succ_apply, ih, List.length_dropLast, List.dropLast_eq_take,
      List.take_take]
    congr 1
    omega

/-- Popping from the front leaves the ranking behind it. -/
lemma ranked_popFirst (h : z.Consistent) (count : Nat) :
    (z.popWith OrderedSet.popFirst count).1.ranked = z.ranked.drop count := by
  have left : (z.popWith OrderedSet.popFirst count).1.index.elems =
    List.tail^[count] z.index.elems := by
    refine popWith_elems OrderedSet.pops_first (fun popped => ?_) rfl count h
    rw [OrderedSet.popFirst_eq_some popped, List.tail_cons]
  rw [ranked, left, List.tail_iterate, ranked, List.map_drop]

/-- Popping from the back leaves the ranking in front of it. -/
lemma ranked_popLast (h : z.Consistent) (count : Nat) :
    (z.popWith OrderedSet.popLast count).1.ranked = z.ranked.take (z.len - count) := by
  have left : (z.popWith OrderedSet.popLast count).1.index.elems =
    List.dropLast^[count] z.index.elems := by
    refine popWith_elems OrderedSet.pops_last (fun popped => ?_) rfl count h
    rw [OrderedSet.popLast_eq_some popped, List.dropLast_concat]
  rw [ranked, left, dropLast_iterate, ranked, List.map_take, length_index h]
  rfl

/-- Removing the members that the one sorted set has more than the other makes it the other one. -/
lemma removeAll_eq (h : z.Consistent) (h' : z'.Consistent) {removed : List (Bytes × Score)}
    (split : (removed ++ z'.ranked).Perm z.ranked) : z.removeAll removed = z' := by
  have names : ((removed ++ z'.ranked).map (·.1)).Nodup :=
    (split.map _).nodup_iff.mpr (ranked_nodup h)
  rw [List.map_append, List.nodup_append] at names
  have consistent : (z.removeAll removed).Consistent := by
    refine removeAll_consistent h fun p mem other entry => ?_
    rw [(mem_ranked h).mp (split.subset (List.mem_append_left _ mem))] at entry
    exact (Option.some.inj entry).symm
  refine eq_of_entries consistent h' (Std.ExtTreeMap.ext_getElem?
    fun {member} => Option.ext fun score => ?_)
  rw [entries_removeAll, ← mem_ranked h']
  by_cases gone : member ∈ removed.map (·.1)
  · rw [if_pos gone]
    refine iff_of_false nofun fun kept => ?_
    exact names.2.2 member gone member (List.mem_map_of_mem kept) rfl
  · rw [if_neg gone, ← mem_ranked h, ← split.mem_iff, List.mem_append]
    exact ⟨fun mem => mem.resolve_left fun mem => gone (List.mem_map_of_mem mem), .inr⟩

end ZSet

/-- Popping at an end does what removing the ranks at that end does. -/
structure PopsRanks (s : StorageInner) (db : Nat) (key : Bytes) (count : Nat) : Prop where
  least : atKey db key (zpopmin count) s = atKey db key (zremrangebyrank 0 (count - 1)) s
  greatest : atKey db key (zpopmax count) s = atKey db key (zremrangebyrank (-count) (-1)) s

section
variable {z : ZSet} {count : Nat}

/-- A sorted set is dropped when its last member is popped. -/
lemma afterRemoval_popWith {pop : ZSetIndex → Option (ZSetIndexKey × ZSetIndex)}
    (pops : OrderedSet.Pops pop) (h : z.Consistent) :
    afterRemoval (z.popWith pop count) = (zsets.unlessEmpty (z.popWith pop count).1, .ok ()) := by
  have result := (ZSet.popWith_consistent pops count h).2
  generalize z.popWith pop count = popped at result ⊢
  obtain ⟨z', r⟩ := popped
  cases result
  rfl

/-- The first ranks are the members at the lower end. -/
lemma cut_first {α : Type} {items : List α} (nonempty : items ≠ []) (positive : 1 ≤ count) :
    cut items 0 (count - 1) = items.take count := by
  have size : 0 < items.length := List.length_pos_iff.mpr nonempty
  have first := position_eq items.length 0
  have last := position_eq items.length (count - 1)
  rw [fromFront, if_neg (by omega)] at first last
  have start : position items.length 0 = 0 := by omega
  rw [cut, if_neg (by omega), start, List.drop_zero, List.take_eq_take_iff]
  omega

/-- The last ranks are the members at the upper end. -/
lemma cut_last {α : Type} {items : List α} (nonempty : items ≠ []) (positive : 1 ≤ count) :
    cut items (-count) (-1) = items.drop (items.length - count) := by
  have size : 0 < items.length := List.length_pos_iff.mpr nonempty
  have first := position_eq items.length (-count)
  have last := position_eq items.length (-1)
  rw [fromFront, if_pos (by omega)] at first last
  have start : position items.length (-count) = items.length - count := by omega
  rw [cut, if_neg (by omega), start]
  apply List.take_of_length_le
  rw [List.length_drop]
  omega

/-- A pop removes some ranks if these and the ranks that it leaves are all. -/
lemma afterRemoval_eq_zremrangebyrank {pop : ZSetIndex → Option (ZSetIndexKey × ZSetIndex)}
    (pops : OrderedSet.Pops pop) (h : z.Consistent) (nonzero : z.len ≠ 0) {start stop : Int}
    (split : (cut z.ranked start stop ++ (z.popWith pop count).1.ranked).Perm z.ranked) :
    afterRemoval (z.popWith pop count) = zremrangebyrank start stop (.some (.zset z)) := by
  rw [afterRemoval_popWith pops h, zremrangebyrank_eq h nonzero,
    ZSet.removeAll_eq h (ZSet.popWith_consistent pops count h).1 split]

/-- `ZPOPMIN` removes the first ranks. -/
lemma zpopmin_eq (h : z.Consistent) (nonzero : z.len ≠ 0) (positive : 1 ≤ count) :
    zpopmin count (.some (.zset z)) = zremrangebyrank 0 (count - 1) (.some (.zset z)) := by
  have filled : z.ranked ≠ [] := by rwa [ne_eq, ← List.length_eq_zero_iff, ZSet.length_ranked h]
  have held : zpopmin count (.some (zsets.wrap z)) = _ := Container.existing_wrap
  refine held.trans (afterRemoval_eq_zremrangebyrank OrderedSet.pops_first h nonzero ?_)
  rw [cut_first filled positive, ZSet.ranked_popFirst h, List.take_append_drop]

/-- `ZPOPMAX` removes the last ranks. -/
lemma zpopmax_eq (h : z.Consistent) (nonzero : z.len ≠ 0) (positive : 1 ≤ count) :
    zpopmax count (.some (.zset z)) = zremrangebyrank (-count) (-1) (.some (.zset z)) := by
  have filled : z.ranked ≠ [] := by rwa [ne_eq, ← List.length_eq_zero_iff, ZSet.length_ranked h]
  have held : zpopmax count (.some (zsets.wrap z)) = _ := Container.existing_wrap
  refine held.trans (afterRemoval_eq_zremrangebyrank OrderedSet.pops_last h nonzero ?_)
  rw [cut_last filled positive, ZSet.ranked_popLast h, ZSet.length_ranked h]
  exact List.perm_append_comm.trans (List.Perm.of_eq (List.take_append_drop _ _))

/-- A range of ranks does not remove a sorted set that is empty, and a pop does. -/
lemma zremrangebyrank_empty (isEmpty : z.len = 0) (start stop : Int) :
    zremrangebyrank start stop (.some (.zset z)) = (.some (.zset z), .ok ()) := by
  have held : zremrangebyrank start stop (.some (zsets.wrap z)) = _ := Container.existing_wrap
  refine held.trans ?_
  rw [if_pos isEmpty]

/-- `ZPOPMIN` drops an empty sorted set. -/
lemma zpopmin_empty (h : z.Consistent) (isEmpty : z.len = 0) :
    zpopmin count (.some (.zset z)) = (none, .ok ()) := by
  have held : zpopmin count (.some (zsets.wrap z)) = _ := Container.existing_wrap
  have left : (z.popWith OrderedSet.popFirst count).1.len = 0 := by
    rw [← ZSet.length_ranked (ZSet.popWith_consistent OrderedSet.pops_first count h).1,
      ZSet.ranked_popFirst h, List.length_drop, ZSet.length_ranked h, isEmpty, Nat.zero_sub]
  have gone : zsets.isEmpty (z.popWith OrderedSet.popFirst count).1 = true := by
    show (z.popWith OrderedSet.popFirst count).1.entries.isEmpty = true
    rw [Std.ExtTreeMap.isEmpty_eq_size_beq_zero]
    exact beq_iff_eq.mpr left
  refine held.trans ?_
  rw [afterRemoval_popWith OrderedSet.pops_first h, Container.unlessEmpty_of_empty gone]

/-- In every state that commands make out of the empty storage, and for every number of members:
popping is removing by rank exactly when the key does not hold an empty sorted set. -/
theorem popsRanks [Indexset] (commands : List (Nat × Command)) (db : Nat) (key : Bytes)
    (positive : 1 ≤ count) :
    PopsRanks (executeAll commands .new) db key count ↔
      ∀ z, (executeAll commands .new).lookup db key = some (.zset z) → z.len ≠ 0 := by
  constructor
  · intro pops z held isEmpty
    have h : z.Consistent := lookup_consistent (executeAll_consistent commands new_consistent) held
    have left := congrArg (fun r => r.1.lookup db key) pops.least
    simp only [lookup_atKey, held, zpopmin_empty h isEmpty, zremrangebyrank_empty isEmpty] at left
    cases left
  · intro filled
    -- a missing key and a value of another type are treated alike by both
    have same : ∀ slot, (executeAll commands .new).lookup db key = slot →
        zpopmin count slot = zremrangebyrank 0 (count - 1) slot ∧
          zpopmax count slot = zremrangebyrank (-count) (-1) slot := by
      intro slot bound
      cases zsets.view slot with
      | vacant => exact ⟨rfl, rfl⟩
      | held z =>
        have h : z.Consistent :=
          lookup_consistent (executeAll_consistent commands new_consistent) bound
        exact ⟨zpopmin_eq h (filled z bound) positive, zpopmax_eq h (filled z bound) positive⟩
      | other type =>
        exact ⟨(Container.existing_other type).trans (Container.existing_other type).symm,
          (Container.existing_other type).trans (Container.existing_other type).symm⟩
    obtain ⟨least, greatest⟩ := same _ rfl
    refine ⟨?_, ?_⟩
    · rw [atKey, atKey, least]
    · rw [atKey, atKey, greatest]

/-- Of three members two are popped. -/
theorem popsRanks_three :
    PopsRanks (@executeAll (.exact false) addThree .new) 0 (ascii "k") 2 ↔
      ∀ z, (@executeAll (.exact false) addThree .new).lookup 0 (ascii "k") =
      some (.zset z) → z.len ≠ 0 :=
  @popsRanks 2 (.exact false) addThree 0 (ascii "k") (by decide)

/-- The option `XX` makes a sorted set without members, which is popped away but not removed. -/
theorem popsRanks_emptied :
    ¬ PopsRanks (@executeAll (.exact false)
      [(0, .zadd (ascii "k") [(.float (Binary64.ofInt 1), ascii "m")] [.xx])]
      .new) 0 (ascii "k") 1 := by
  intro pops
  have left := congrArg (fun r => r.1.lookup 0 (ascii "k")) pops.least
  exact absurd left (by decide +kernel)

end

end Veidrodelis.TsNif
