import Veidrodelis.Lib.Slice
import Veidrodelis.TsNif.DualIndex

/-!
# Ranges of positions

`LRANGE`, `LTRIM`, `ZRANGE` and `ZREMRANGEBYRANK` cut a part out of a list or of a sorted set. All
four clamp both positions onto the elements (`cut`). That is the slice which Redis selects as long
as no position that lies outside is clamped onto an element that the other one allows (`Inside`).
-/

namespace Veidrodelis.TsNif
open RedisNif (Fault)
open RedisStream (Command)
open StorageValue (lists zsets)

variable {α : Type}

/-! ## Clamped positions -/

/-- What the commands cut out of a sequence that is not empty. -/
def cut (items : List α) (start stop : Int) : List α :=
  if position items.length stop < position items.length start then []
  else (items.drop (position items.length start)).take
    (position items.length stop - position items.length start + 1)

/-- A slice that starts behind the end does not stop at the last element, and one that stops in
front of the beginning does not start at the first one. -/
def Inside (n : Nat) (start stop : Int) : Prop :=
  ¬ (n ≤ sliceStart n start ∧ (n : Int) - 1 ≤ max 0 (sliceStop n stop)) ∧
    ¬ (sliceStop n stop < 0 ∧ min ((n : Int) - 1) (sliceStart n start) = 0)

instance (n : Nat) (start stop : Int) : Decidable (Inside n start stop) :=
  inferInstanceAs (Decidable (_ ∧ _))

/-- The position of an index is cut at both ends. -/
lemma position_eq (n : Nat) (i : Int) :
    (position n i : Int) = max 0 (min ((n : Int) - 1) (fromFront n i)) := by
  unfold position fromFront
  split
  · omega
  · omega

/-- A position is inside a list that is not empty. -/
lemma position_lt {n : Nat} (nonzero : n ≠ 0) (i : Int) : position n i < n := by
  have clamped := position_eq n i
  omega

/-- A cut is empty when it stops before it starts. -/
lemma cut_eq_nil {items : List α} (nonempty : items ≠ []) (start stop : Int) :
    cut items start stop = [] ↔ position items.length stop < position items.length start := by
  have inside := position_lt (mt List.length_eq_zero_iff.mp nonempty) start
  unfold cut
  split
  · rename_i crossed
    exact iff_of_true rfl crossed
  · rename_i ordered
    rw [List.take_eq_nil_iff, List.drop_eq_nil_iff]
    omega

/-- What is cut out is the slice exactly when the positions are inside. -/
lemma cut_eq_slice {items : List α} (nonempty : items ≠ []) (start stop : Int) :
    cut items start stop = slice items start stop ↔ Inside items.length start stop := by
  have size : items.length ≠ 0 := mt List.length_eq_zero_iff.mp nonempty
  have first := position_eq items.length start
  have last := position_eq items.length stop
  by_cases isNil : slice items start stop = []
  · rw [isNil, cut_eq_nil nonempty]
    rw [slice_eq_nil] at isNil
    simp only [Inside, sliceStart, sliceStop] at isNil ⊢
    omega
  · rw [slice_eq_nil] at isNil
    simp only [sliceStart, sliceStop] at isNil
    refine iff_of_true ?_ ?_
    · have ordered : ¬ position items.length stop < position items.length start := by omega
      rw [cut, if_neg ordered, slice_eq]
      simp only [sliceStart, sliceStop]
      congr 1
      · omega
      · congr 1
        omega
    · simp only [Inside, sliceStart, sliceStop]
      omega

/-! ## Lists -/

/-- `LRANGE` returns the slice, and `LTRIM` leaves it; the key goes with the last element. -/
structure SlicesList (s : StorageInner) (db : Nat) (key : Bytes) (items : List Bytes)
    (start stop : Int) :
    Prop where
  range : lrange s db key start stop = .ok (slice items start stop)
  trimmed : (atKey db key (ltrim start stop) s).2 = .ok ()
  left : (atKey db key (ltrim start stop) s).1.lookup db key =
    lists.unlessEmpty (slice items start stop)

/-- `LRANGE` answers with the cut. -/
lemma lrange_eq {s : StorageInner} {db : Nat} {key : Bytes} {items : List Bytes}
    (held : s.lookup db key = some (.list items)) (nonempty : items ≠ []) (start stop : Int) :
    lrange s db key start stop = .ok (cut items start stop) := by
  have inside := position_lt (mt List.length_eq_zero_iff.mp nonempty) start
  rw [lrange, held]
  simp only [if_neg nonempty, cut]
  by_cases crossed : position items.length stop < position items.length start
  · rw [if_pos (.inl crossed), if_pos crossed]
  · rw [if_neg (by omega), if_neg crossed]

/-- `LTRIM` keeps the cut. -/
lemma ltrim_eq {items : List Bytes} (nonempty : items ≠ []) (start stop : Int) :
    ltrim start stop (Option.some (.list items)) =
      (lists.unlessEmpty (cut items start stop), .ok ()) := by
  have inside := position_lt (mt List.length_eq_zero_iff.mp nonempty) start
  have held : ltrim start stop (Option.some (lists.wrap items)) = _ := Container.existing_wrap
  refine held.trans ?_
  simp only [if_neg nonempty, cut]
  by_cases crossed : position items.length stop < position items.length start
  · rw [if_pos (.inl crossed), if_pos crossed]
    rfl
  · rw [if_neg (by omega), if_neg crossed]

/-- On a list of any length, with any start and stop: no addition leaves the range of `i64`, and
`LRANGE` and `LTRIM` select the slice exactly when the list is not empty and the positions are
inside. -/
theorem slicesList {s : StorageInner} {db : Nat} {key : Bytes} {items : List Bytes}
    (held : s.lookup db key = some (.list items)) (start stop : Int) :
    (∀ i : Int, inI64 i → i < 0 → inI64 items.length → inI64 (items.length + i)) ∧
    (SlicesList s db key items start stop ↔ items ≠ [] ∧ Inside items.length start stop) := by
  refine ⟨?_, ?_, ?_⟩
  · intro i fits negative size
    simp only [inI64, Bool.and_eq_true, decide_eq_true_eq] at fits size ⊢
    omega
  · intro h
    have nonempty : items ≠ [] := by
      rintro rfl
      have left := h.left
      rw [lookup_atKey, held] at left
      cases left
    refine ⟨nonempty, (cut_eq_slice nonempty start stop).mp ?_⟩
    have range := h.range
    rw [lrange_eq held nonempty] at range
    exact Except.ok.inj range
  · rintro ⟨filled, inside⟩
    have same := (cut_eq_slice filled start stop).mpr inside
    refine ⟨?_, ?_, ?_⟩
    · rw [lrange_eq held filled, same]
    · rw [atKey, held, ltrim_eq filled]
    · rw [lookup_atKey, held, ltrim_eq filled, same]

/-- Three elements. -/
def threeItems : List Bytes := [ascii "a", ascii "b", ascii "c"]

/-- Of three items the last two. -/
theorem slicesList_three :
    (∀ i : Int, inI64 i → i < 0 → inI64 threeItems.length → inI64 (threeItems.length + i)) ∧
    (SlicesList (.put .new 0 (ascii "k") (.list threeItems)) 0 (ascii "k") threeItems (-2) 5 ↔
      threeItems ≠ [] ∧ Inside threeItems.length (-2) 5) :=
  slicesList (by decide +kernel) (-2) 5

/-- A slice that starts behind the last element is not empty: it is the last element. -/
theorem slicesList_clamped :
    ¬ SlicesList (.put .new 0 (ascii "k") (.list threeItems)) 0 (ascii "k") threeItems 10 20 := by
  intro h
  have range := h.range
  exact absurd range (by decide +kernel)

/-! ## Sorted sets -/

namespace ZSet

/-- The members in the order of the index, with their scores. -/
def ranked (z : ZSet) : List (Bytes × Score) := z.index.elems.map fun k => (k.entry, k.score)

variable {z : ZSet}

/-- The ranked names are those of the index. -/
lemma ranked_names (z : ZSet) : z.ranked.map (·.1) = z.index.elems.map (·.entry) := by
  rw [ranked, List.map_map]
  rfl

/-- No name is ranked twice. -/
lemma ranked_nodup (h : z.Consistent) : (z.ranked.map (·.1)).Nodup := by
  rw [ranked_names]
  exact names_index h

/-- As many are ranked as there are members. -/
lemma length_ranked (h : z.Consistent) : z.ranked.length = z.len := by
  rw [ranked, List.length_map]
  exact length_index h

/-- A member is ranked with its score. -/
lemma mem_ranked (h : z.Consistent) {member : Bytes} {score : Score} :
    (member, score) ∈ z.ranked ↔ z.entries[member]? = some score := by
  rw [ranked, List.mem_map]
  constructor
  · rintro ⟨k, mem, eq⟩
    obtain ⟨member', score', entry, rfl⟩ := (h k).mp mem
    cases eq
    exact entry
  · intro entry
    exact ⟨.key score member, (h _).mpr ⟨member, score, entry, rfl⟩, rfl⟩

/-- The ranked names are the members. -/
lemma mem_ranked_names (h : z.Consistent) {member : Bytes} :
    member ∈ z.ranked.map (·.1) ↔ member ∈ z.entries := by
  rw [List.mem_map, Std.ExtTreeMap.mem_iff_isSome_getElem?, Option.isSome_iff_exists]
  constructor
  · rintro ⟨⟨_, score⟩, mem, rfl⟩
    exact ⟨score, (mem_ranked h).mp mem⟩
  · rintro ⟨score, entry⟩
    exact ⟨(member, score), (mem_ranked h).mpr entry, rfl⟩

/-- Elements of the index stand for their members. -/
lemma membersOf_eq {keys : List ZSetIndexKey}
    (elements : ∀ k ∈ keys, ∃ score member, k = .key score member) :
    membersOf keys = .ok (keys.map fun k => (k.entry, k.score)) := by
  unfold membersOf
  induction keys with
  | nil => rfl
  | cons k keys ih =>
    obtain ⟨score, member, rfl⟩ := elements k List.mem_cons_self
    rw [List.mapM_cons, ih fun k mem => elements k (List.mem_cons_of_mem _ mem)]
    rfl

/-- A range of ranks is part of the ranking. -/
lemma rankRange_eq (h : z.Consistent) (start stop : Nat) :
    z.rankRange start stop = .ok ((z.ranked.drop start).take (stop + 1 - start)) := by
  rw [rankRange, membersOf_eq]
  · rw [OrderedSet.rangeIdx, ranked, List.drop_take, List.map_take, List.map_drop]
  · intro k mem
    obtain ⟨member, score, _, rfl⟩ := (h k).mp ((OrderedSet.rangeIdx_sublist _ _ _).subset mem)
    exact ⟨score, member, rfl⟩

/-- The index counts the members in front of one. -/
lemma rank_eq (h : z.Consistent) {member : Bytes} {score : Score}
    (entry : z.entries[member]? = some score) :
    z.index.rank (.ref score member) = (z.ranked.map (·.1)).idxOf member := by
  obtain ⟨i, inside, here⟩ := List.mem_iff_getElem.mp ((h _).mpr ⟨member, score, entry, rfl⟩)
  have same : z.index.elems[i].cmp (.ref score member) = .eq := by
    rw [here, cmp_eq]
    exact ⟨rfl, rfl, rfl⟩
  have size : i < (z.ranked.map (·.1)).length := by
    rwa [ranked_names, List.length_map]
  have name : (z.ranked.map (·.1))[i] = member := by
    simp only [ranked_names, List.getElem_map, here]
    rfl
  rw [OrderedSet.rank_getElem same, ← (ranked_nodup h).idxOf_getElem i size, name]

/-- Members are removed, and the others keep their scores. -/
lemma entries_removeAll (z : ZSet) (members : List (Bytes × Score)) (member : Bytes) :
    (z.removeAll members).entries[member]? =
      if member ∈ members.map (·.1) then none else z.entries[member]? := by
  unfold removeAll
  induction members generalizing z with
  | nil => simp
  | cons first rest ih =>
    rw [List.foldl_cons, ih]
    simp only [forget, Std.ExtTreeMap.getElem?_erase, Std.LawfulEqCmp.compare_eq_iff_eq,
      List.map_cons, List.mem_cons]
    by_cases later : member ∈ rest.map (·.1)
    · rw [if_pos later, if_pos (.inr later)]
    · rw [if_neg later]
      by_cases here : first.1 = member
      · rw [if_pos here, if_pos (.inl here.symm)]
      · rw [if_neg here, if_neg]
        rintro (eq | mem)
        · exact here eq.symm
        · exact later mem

end ZSet

/-- The rank of the member lies between two bounds. -/
def InRanks (s : StorageInner) (db : Nat) (key : Bytes) (first last : Int) (member : Bytes) :
    Prop :=
  ∃ rank : Nat, zrank s db key member = .ok (some rank) ∧ first ≤ rank ∧ rank ≤ last

/-- One member stands in front of another one. -/
def InFront (s : StorageInner) (db : Nat) (key : Bytes) (member member' : Bytes) : Prop :=
  ∃ rank rank' : Nat, zrank s db key member = .ok (some rank) ∧
    zrank s db key member' = .ok (some rank') ∧
    rank < rank'

/-- `ZRANGE` returns the members in some ranks, in their order. -/
def RangesRanks (s : StorageInner) (db : Nat) (key : Bytes) (z : ZSet) (start stop : Int) : Prop :=
  ∀ withScores, ∃ found, zrange s db key start stop withScores = .ok found ∧
    (∀ member, member ∈ found.map (·.1) ↔
      InRanks s db key (sliceStart z.len start) (sliceStop z.len stop) member) ∧
    (found.map (·.1)).Pairwise (InFront s db key) ∧
    ∀ p ∈ found, p.2 = if withScores then z.entries[p.1]? else none

/-- `ZREMRANGEBYRANK` removes the members in some ranks and leaves the others; the key goes with the
last member. -/
structure RemovesRanks (s : StorageInner) (db : Nat) (key : Bytes) (z : ZSet) (start stop : Int) :
    Prop where
  removed : (atKey db key (zremrangebyrank start stop) s).2 = .ok ()
  inside : ∀ member, InRanks s db key (sliceStart z.len start) (sliceStop z.len stop) member →
    zscore (atKey db key (zremrangebyrank start stop) s).1 db key member = .ok none
  outside : ∀ member, ¬ InRanks s db key (sliceStart z.len start) (sliceStop z.len stop) member →
    zscore (atKey db key (zremrangebyrank start stop) s).1 db key member = .ok z.entries[member]?
  gone : (atKey db key (zremrangebyrank start stop) s).1.lookup db key = none ↔
    ∀ member ∈ z.entries, InRanks s db key (sliceStart z.len start) (sliceStop z.len stop) member

section
variable {s : StorageInner} {db : Nat} {key : Bytes} {z : ZSet} {start stop : Int}

/-- The rank of a member is its place in the ranking. -/
lemma zrank_eq (held : s.lookup db key = some (.zset z)) (h : z.Consistent) (member : Bytes) :
    zrank s db key member = .ok (if member ∈ z.ranked.map (·.1)
      then some ((z.ranked.map (·.1)).idxOf member) else none) := by
  simp only [zrank, held]
  cases entry : z.entries[member]? with
  | none =>
    have absent : member ∉ z.ranked.map (·.1) := by
      rw [ZSet.mem_ranked_names h, Std.ExtTreeMap.mem_iff_isSome_getElem?, entry]
      simp
    rw [if_neg absent]
    rfl
  | some score =>
    have present : member ∈ z.ranked.map (·.1) :=
      List.mem_map.mpr ⟨(member, score), (ZSet.mem_ranked h).mpr entry, rfl⟩
    rw [if_pos present, Option.map_some, ZSet.rank_eq h entry]

/-- The members in some ranks are those between two positions. -/
lemma inRanks_iff (held : s.lookup db key = some (.zset z)) (h : z.Consistent) {first last : Int}
    (member : Bytes) : InRanks s db key first last member ↔
      member ∈ between (z.ranked.map (·.1)) first last := by
  rw [mem_between (ZSet.ranked_nodup h), InRanks, zrank_eq held h]
  by_cases present : member ∈ z.ranked.map (·.1)
  · rw [if_pos present]
    simp only [Except.ok.injEq, Option.some.injEq, exists_eq_left', present, true_and]
  · rw [if_neg present]
    simp [present]

/-- The ranking is in the order of the ranks. -/
lemma pairwise_inFront (held : s.lookup db key = some (.zset z)) (h : z.Consistent) :
    (z.ranked.map (·.1)).Pairwise (InFront s db key) := by
  rw [List.pairwise_iff_getElem]
  intro i j hi hj lt
  have nodup := ZSet.ranked_nodup h
  refine ⟨i, j, ?_, ?_, lt⟩
  · rw [zrank_eq held h, if_pos (List.getElem_mem hi), nodup.idxOf_getElem i hi]
  · rw [zrank_eq held h, if_pos (List.getElem_mem hj), nodup.idxOf_getElem j hj]

/-- `ZRANGE` answers with the cut of the ranking. -/
lemma zrange_eq (held : s.lookup db key = some (.zset z)) (h : z.Consistent) (nonzero : z.len ≠ 0)
    (withScores : Bool) : zrange s db key start stop withScores =
      .ok ((cut z.ranked start stop).map
        fun p => (p.1, if withScores then .some p.2 else none)) := by
  have inside := position_lt nonzero start
  simp only [zrange, held, if_neg nonzero, cut, ZSet.length_ranked h]
  by_cases crossed : position z.len stop < position z.len start
  · rw [if_pos (.inl crossed), if_pos crossed, List.map_nil]
  · rw [if_neg (by omega), if_neg crossed, ZSet.rankRange_eq h]
    have size : position z.len stop + 1 - position z.len start =
        position z.len stop - position z.len start + 1 := by omega
    rw [size]
    rfl

/-- `ZREMRANGEBYRANK` removes the cut of the ranking. -/
lemma zremrangebyrank_eq (h : z.Consistent) (nonzero : z.len ≠ 0) :
    zremrangebyrank start stop (.some (.zset z)) =
      (zsets.unlessEmpty (z.removeAll (cut z.ranked start stop)), .ok ()) := by
  have held : zremrangebyrank start stop (.some (zsets.wrap z)) = _ := Container.existing_wrap
  refine held.trans ?_
  simp only [if_neg nonzero, cut, ZSet.length_ranked h]
  by_cases crossed : position z.len stop < position z.len start
  · rw [if_pos crossed, if_pos crossed]
    have filled : zsets.isEmpty z = false := by
      rw [← Bool.not_eq_true]
      intro isEmpty
      exact nonzero (Std.ExtTreeMap.eq_empty_iff_size_eq_zero.mp
        (Std.ExtTreeMap.isEmpty_iff.mp isEmpty))
    show _ = (zsets.unlessEmpty z, _)
    rw [Container.unlessEmpty_of_filled filled]
    rfl
  · rw [if_neg crossed, if_neg crossed, ZSet.rankRange_eq h]
    have size : position z.len stop + 1 - position z.len start =
        position z.len stop - position z.len start + 1 := by omega
    rw [size]
    rfl

/-- A score after a removal, whether the key is left or not. -/
lemma zscore_unlessEmpty {s' : StorageInner} {z' : ZSet}
    (left : s'.lookup db key = zsets.unlessEmpty z') (member : Bytes) :
    zscore s' db key member = .ok z'.entries[member]? := by
  simp only [zscore, left, Container.unlessEmpty]
  cases isEmpty : zsets.isEmpty z' with
  | false => rfl
  | true =>
    have isNil : z'.entries = ∅ := Std.ExtTreeMap.isEmpty_iff.mp isEmpty
    simp [isNil]

/-- The members at the positions of the slice are those in the ranks. -/
lemma mem_slice_iff (held : s.lookup db key = some (.zset z)) (h : z.Consistent) (member : Bytes) :
    InRanks s db key (sliceStart z.len start) (sliceStop z.len stop) member ↔
      member ∈ (slice z.ranked start stop).map (·.1) := by
  rw [inRanks_iff held h, slice_map, slice, List.length_map, ZSet.length_ranked h]

/-- `ZRANGE` answers as documented just where the cut is the slice. -/
lemma rangesRanks_iff (held : s.lookup db key = some (.zset z)) (h : z.Consistent)
    (nonzero : z.len ≠ 0) :
    RangesRanks s db key z start stop ↔ cut z.ranked start stop = slice z.ranked start stop := by
  have filled : z.ranked ≠ [] := by
    rw [ne_eq, ← List.length_eq_zero_iff, ZSet.length_ranked h]
    exact nonzero
  constructor
  · intro ranges
    obtain ⟨found, eq, members, _⟩ := ranges false
    rw [zrange_eq held h nonzero] at eq
    cases eq
    -- otherwise the slice is empty, and one member is cut out
    rw [cut_eq_slice filled]
    by_contra outside
    have isNil : slice z.ranked start stop = [] := by
      rw [slice_eq_nil]
      simp only [Inside, sliceStart, sliceStop] at outside ⊢
      omega
    have one : cut z.ranked start stop ≠ [] := by
      rw [← isNil]
      exact mt (cut_eq_slice filled start stop).mp outside
    obtain ⟨p, mem⟩ := List.exists_mem_of_ne_nil _ one
    have inRanks := (members p.1).mp (by
      rw [List.map_map]
      exact List.mem_map.mpr ⟨p, mem, rfl⟩)
    rw [mem_slice_iff held h, isNil] at inRanks
    exact absurd inRanks List.not_mem_nil
  · intro same withScores
    refine ⟨_, zrange_eq held h nonzero withScores, fun member => ?_, ?_, ?_⟩
    · rw [mem_slice_iff held h, same, List.map_map]
      rfl
    · rw [List.map_map, same]
      exact (pairwise_inFront held h).sublist ((slice_sublist _ _ _).map _)
    · intro p mem
      obtain ⟨q, inside, rfl⟩ := List.mem_map.mp mem
      rw [same] at inside
      rw [(ZSet.mem_ranked h).mp ((slice_sublist _ _ _).subset inside)]

/-- `ZREMRANGEBYRANK` removes as documented where the cut is the slice. -/
lemma removesRanks_of_same (held : s.lookup db key = some (.zset z)) (h : z.Consistent)
    (nonzero : z.len ≠ 0) (same : cut z.ranked start stop = slice z.ranked start stop) :
    RemovesRanks s db key z start stop := by
  have left : (atKey db key (zremrangebyrank start stop) s).1.lookup db key =
      zsets.unlessEmpty (z.removeAll (slice z.ranked start stop)) := by
    rw [lookup_atKey, held, zremrangebyrank_eq h nonzero, same]
  have entries (member : Bytes) := ZSet.entries_removeAll z (slice z.ranked start stop) member
  refine ⟨?_, ?_, ?_, ?_⟩
  · rw [atKey, held, zremrangebyrank_eq h nonzero]
  · intro member inRanks
    rw [mem_slice_iff held h] at inRanks
    rw [zscore_unlessEmpty left, entries, if_pos inRanks]
  · intro member inRanks
    rw [mem_slice_iff held h] at inRanks
    rw [zscore_unlessEmpty left, entries, if_neg inRanks]
  · have gone : zsets.unlessEmpty (z.removeAll (slice z.ranked start stop)) = none ↔
        (z.removeAll (slice z.ranked start stop)).entries.isEmpty = true :=
          Container.unlessEmpty_eq_none
    rw [left, gone, Std.ExtTreeMap.isEmpty_iff, Std.ExtTreeMap.eq_empty_iff_forall_not_mem]
    simp only [Std.ExtTreeMap.mem_iff_isSome_getElem?, entries, mem_slice_iff held h]
    constructor
    · intro nowhere member present
      by_contra outside
      exact nowhere member (by rwa [if_neg outside])
    · intro all member present
      split at present
      · cases present
      · rename_i outside
        exact outside (all member present)

end

/-- On every sorted set that commands make out of the empty storage, with any start and stop:
`ZRANGE` returns and `ZREMRANGEBYRANK` removes the members in the ranks of the slice, exactly when
the sorted set is not empty and the positions are inside. -/
theorem rankRanges [Indexset] (commands : List (Nat × Command)) {db : Nat} {key : Bytes} {z : ZSet}
    (held : (executeAll commands .new).lookup db key = some (.zset z)) (start stop : Int) :
    RangesRanks (executeAll commands .new) db key z start stop ∧
      RemovesRanks (executeAll commands .new) db key z start stop ↔
    z.len ≠ 0 ∧ Inside z.len start stop := by
  have h : z.Consistent := lookup_consistent (executeAll_consistent commands new_consistent) held
  have same (nonzero : z.len ≠ 0) : cut z.ranked start stop = slice z.ranked start stop ↔
      Inside z.len start stop := by
    rw [cut_eq_slice, ZSet.length_ranked h]
    rwa [ne_eq, ← List.length_eq_zero_iff, ZSet.length_ranked h]
  constructor
  · rintro ⟨ranges, removes⟩
    have nonzero : z.len ≠ 0 := by
      intro isEmpty
      -- an isEmpty sorted set is not removed
      have kept : (atKey db key (zremrangebyrank start stop) (executeAll commands .new)).1.lookup db
        key =
          some (.zset z) := by
        rw [lookup_atKey, held]
        show (Container.existing zsets _ (some (zsets.wrap z))).1 = _
        rw [Container.existing_wrap, if_pos isEmpty]
      have nowhere : ∀ member, member ∉ z.entries :=
        Std.ExtTreeMap.eq_empty_iff_forall_not_mem.mp
          (Std.ExtTreeMap.eq_empty_iff_size_eq_zero.mpr isEmpty)
      have gone := removes.gone.mpr fun member mem => absurd mem (nowhere member)
      rw [kept] at gone
      cases gone
    exact ⟨nonzero, (same nonzero).mp ((rangesRanks_iff held h nonzero).mp ranges)⟩
  · rintro ⟨nonzero, inside⟩
    have eq := (same nonzero).mpr inside
    exact ⟨(rangesRanks_iff held h nonzero).mpr eq, removesRanks_of_same held h nonzero eq⟩

/-- A sorted set of three members. -/
def addThree : List (Nat × Command) :=
  [(0, .zadd (ascii "k") [(.float (Binary64.ofInt 1), ascii "a"),
    (.float (Binary64.ofInt 2), ascii "b"),
    (.float (Binary64.ofInt 3), ascii "c")] [])]

/-- The sorted set itself. -/
def threeMembers : ZSet :=
  .ofMembers [(ascii "a", Binary64.ofInt 1), (ascii "b", Binary64.ofInt 2),
    (ascii "c", Binary64.ofInt 3)]

/-- Of three members the last two by rank. -/
theorem rankRanges_three :
    RangesRanks (@executeAll (.exact false) addThree .new) 0 (ascii "k") threeMembers (-2) 5 ∧
      RemovesRanks (@executeAll (.exact false) addThree .new) 0 (ascii "k") threeMembers (-2) 5 ↔
    threeMembers.len ≠ 0 ∧ Inside threeMembers.len (-2) 5 :=
  @rankRanges (.exact false) addThree 0 (ascii "k") threeMembers (by decide +kernel) (-2) 5

/-- A range that starts behind the last rank selects nothing, but the last member is removed. -/
theorem rankRanges_clamped :
    ¬ RemovesRanks (@executeAll (.exact false) addThree .new) 0 (ascii "k") threeMembers 10 20 := by
  intro h
  have last := h.outside (ascii "c") (by
    rintro ⟨rank, found, first, _⟩
    have third : zrank (@executeAll (.exact false) addThree .new) 0 (ascii "k") (ascii "c") =
      .ok (some 2) := by
      decide +kernel
    cases third.symm.trans found
    exact absurd first (by decide))
  exact absurd last (by decide +kernel)

end Veidrodelis.TsNif
