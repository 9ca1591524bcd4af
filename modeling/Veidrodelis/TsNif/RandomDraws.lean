import Veidrodelis.TsNif.DualIndex
import Veidrodelis.TsNif.Reads

/-!
# What is drawn

The random elements of `SRANDMEMBER` and `HRANDFIELD`, for every generator (`Dice`).
-/

namespace Veidrodelis.TsNif
open RedisNif (isizeMax)

/-- Some items are drawn: up to so many different ones, or exactly so many if the count is
negative. -/
structure Drawn {α : Type} (items : List α) (count : Int) (drawn : List α) : Prop where
  known : drawn ⊆ items
  different : 0 ≤ count → drawn.Subperm items ∧ drawn.length = min count.toNat items.length
  exactly : count < 0 → items ≠ [] → drawn.length = (-count).toNat

section
variable {α : Type} {dice : Dice} {items : List α} {count : Int}

/-- What is drawn of distinct items is distinct. -/
lemma nodup_of_subperm {β : Type} {name : α → β} {drawn : List α} (part : drawn.Subperm items)
    (distinct : (items.map name).Nodup) : (drawn.map name).Nodup := by
  obtain ⟨sorted, same, sub⟩ := part
  exact (same.map name).nodup_iff.mp (distinct.sublist (sub.map name))

/-- Nothing is drawn of nothing, and for a count of zero. -/
lemma Drawn.nothing (isNil : items = [] ∨ count = 0) : Drawn items count [] where
  known := List.nil_subset _
  different _ := by
    refine ⟨List.nil_subperm, ?_⟩
    rcases isNil with rfl | rfl
    · exact (Nat.min_zero _).symm
    · exact (Nat.zero_min _).symm
  exactly negative some := by
    rcases isNil with isEmpty | rfl
    · exact absurd isEmpty some
    · exact absurd negative (Int.lt_irrefl 0)

/-- A positive count draws distinct items, as many as there are. -/
lemma Drawn.distinct {drawn : List α} (part : drawn.Subperm items)
    (size : drawn.length = min count.toNat items.length) (positive : 0 < count) :
    Drawn items count drawn where
  known := part.subset
  different _ := ⟨part, size⟩
  exactly negative := absurd negative (not_lt_of_gt positive)

/-- A negative count draws as often as it says, if a vector can hold so many. -/
lemma Drawn.repeated (nonempty : items ≠ []) (negative : count < 0) {size : Nat}
    (room : (-count).toNat * size ≤ isizeMax) :
    ∃ drawn, dice.chooseMany items nonempty count.natAbs size = .ok drawn ∧
      Drawn items count drawn := by
  have times : count.natAbs = (-count).toNat := by omega
  rw [Dice.chooseMany, times, if_neg (Nat.not_lt.mpr room)]
  refine ⟨_, rfl, fun item mem => ?_,
    fun positive => absurd negative (not_lt_of_ge positive), fun _ _ => ?_⟩
  · obtain ⟨turn, -, rfl⟩ := List.mem_map.mp mem
    exact (dice.choose turn items nonempty).property
  · rw [List.length_map, List.length_range]

/-- Members are drawn as the count says. -/
lemma drawMembers_drawn {members : List Bytes} (room : (-count).toNat * 8 ≤ isizeMax) :
    ∃ drawn, drawMembers dice count members = .ok drawn ∧ Drawn members count drawn := by
  rw [drawMembers]
  split
  · rename_i nowhere
    exact ⟨[], rfl, .nothing (.inl nowhere)⟩
  · split
    · rename_i zero
      exact ⟨[], rfl, .nothing (.inr zero)⟩
    · split
      · rename_i positive
        have shuffled := (dice.shuffle members).property
        refine ⟨_, rfl, .distinct ?_ ?_ positive⟩
        · exact (List.take_sublist _ _).subperm.trans shuffled.subperm
        · rw [List.length_take, shuffled.length_eq, Nat.min_assoc, Nat.min_self]
      · exact Drawn.repeated _ (by omega) room

/-- Fields are drawn as the count says. -/
lemma drawFields_drawn {fields : List (Bytes × Bytes)} (room : (-count).toNat * 16 ≤ isizeMax) :
    ∃ drawn, drawFields dice count fields = .ok drawn ∧ Drawn fields count drawn := by
  rw [drawFields]
  split
  · rename_i nowhere
    exact ⟨[], rfl, .nothing (.inl nowhere)⟩
  · rename_i filled'
    split
    · rename_i one
      refine ⟨_, rfl, .distinct ?_ ?_ (by omega)⟩
      · exact List.singleton_subperm_iff.mpr (dice.choose 0 fields filled').property
      · have filled := List.length_pos_iff.mpr filled'
        rw [one, List.length_singleton]
        omega
    · split
      · rename_i many
        obtain ⟨part, size⟩ := (dice.sample fields (min count.toNat fields.length)).property
        refine ⟨_, rfl, .distinct part ?_ (by omega)⟩
        rw [size, Nat.min_assoc, Nat.min_self]
      · split
        · rename_i negative
          have least : -count < 2 ^ 63 := by
            have size : isizeMax = 2 ^ 63 - 1 := rfl
            omega
          rw [if_pos least]
          exact Drawn.repeated filled' negative room
        · exact ⟨[], rfl, .nothing (.inr (by omega))⟩

end

/-- Whatever the generator draws: `SRANDMEMBER` answers with members of the set and `HRANDFIELD`
with fields of the hash and their values. For a count that is not negative these are different ones,
as many as there are of them up to the count; for a negative count they are exactly so many, and may
come more than once. -/
theorem random_draws (dice : Dice) (s : StorageInner) (db : Nat) (key : Bytes) {count : Int}
    (room : (-count).toNat * 16 ≤ isizeMax) :
    (∀ members, s.lookup db key = some (.set members) →
      ∃ drawn, srandmember dice s db key count = .ok drawn ∧
      (∀ member ∈ drawn, member ∈ members) ∧
      (0 ≤ count → drawn.Nodup ∧ drawn.length = min count.toNat members.size) ∧
      (count < 0 → members.size ≠ 0 → drawn.length = (-count).toNat)) ∧
    ∀ fields, s.lookup db key = some (.hash fields) → ∀ withValues, ∃ drawn : List (Bytes × Bytes),
      hrandfield dice s db key count withValues =
        .ok (drawn.map fun p => (p.1, if withValues then some p.2 else none)) ∧
      (∀ p ∈ drawn, fields[p.1]? = some p.2) ∧
      (0 ≤ count → (drawn.map (·.1)).Nodup ∧ drawn.length = min count.toNat fields.size) ∧
      (count < 0 → fields.size ≠ 0 → drawn.length = (-count).toNat) := by
  constructor
  · intro members held
    obtain ⟨drawn, eq, known, different, exactly⟩ :=
      @drawMembers_drawn dice count members.toList (by omega)
    refine ⟨drawn, ?_, ?_, ?_, ?_⟩
    · rw [srandmember, held]
      exact eq
    · exact fun member mem => Std.ExtTreeSet.mem_toList.mp (known mem)
    · intro positive
      obtain ⟨part, size⟩ := different positive
      rw [Std.ExtTreeSet.length_toList] at size
      have distinct : members.toList.Nodup := Std.ExtTreeSet.distinct_toList.imp fun differ eq =>
        differ (Std.LawfulEqCmp.compare_eq_iff_eq.mpr eq)
      rw [← List.map_id members.toList] at distinct
      exact ⟨List.map_id drawn ▸ nodup_of_subperm part distinct, size⟩
    · intro negative filled
      refine exactly negative fun nowhere => filled ?_
      rw [← Std.ExtTreeSet.length_toList, nowhere, List.length_nil]
  · intro fields held withValues
    obtain ⟨drawn, eq, known, different, exactly⟩ := @drawFields_drawn dice count fields.toList room
    refine ⟨drawn, ?_, ?_, ?_, ?_⟩
    · rw [hrandfield, held]
      simp only [eq]
      rfl
    · exact fun p mem => Std.ExtTreeMap.mem_toList_iff_getElem?_eq_some.mp (known mem)
    · intro positive
      obtain ⟨part, size⟩ := different positive
      rw [Std.ExtTreeMap.length_toList] at size
      exact ⟨nodup_of_subperm part (ZSet.names_toList fields), size⟩
    · intro negative filled'
      refine exactly negative fun nowhere' => filled' ?_
      rw [← Std.ExtTreeMap.length_toList, nowhere', List.length_nil]

/-- One of two members. -/
theorem random_draws_one : ∃ drawn,
    srandmember .front (.put .new 0 (ascii "s") (.set {ascii "a", ascii "b"})) 0 (ascii "s") 1 =
    .ok drawn ∧
      (∀ member ∈ drawn, member ∈ ({ascii "a", ascii "b"} : Std.ExtTreeSet Bytes compare)) ∧
      (0 ≤ (1 : Int) → drawn.Nodup ∧
        drawn.length =
        min (1 : Int).toNat ({ascii "a", ascii "b"} : Std.ExtTreeSet Bytes compare).size) ∧
      ((1 : Int) < 0 → ({ascii "a", ascii "b"} : Std.ExtTreeSet Bytes compare).size ≠ 0 →
        drawn.length = (-(1 : Int)).toNat) :=
  (@random_draws .front (.put .new 0 (ascii "s") (.set {ascii "a", ascii "b"})) 0
    (ascii "s") 1 (by decide)).1 _
    (by rw [StorageInner.lookup_put, if_pos ⟨rfl, rfl⟩])

end Veidrodelis.TsNif
