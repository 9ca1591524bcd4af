import Veidrodelis.Lib.Occurrences
import Veidrodelis.TsNif.Lists

/-!
# Laws of the list commands

`LREM` removes occurrences of a value from one end or from both, and `LMOVE` moves one element from
an end of a list to an end of a list. The loops of `LREM` are followed through what they have pushed
so far; `LMOVE` and `RPOPLPUSH` lose no element and put none in twice.
-/

namespace Veidrodelis.TsNif
open RedisNif (Fault)
open StorageValue (lists)
open scoped List

/-! ## LREM -/

/-- The loop from the head pushes what is left behind what it has pushed. -/
lemma removeLoop_forth (maxRemove : Nat) (value : Bytes) (removed : Nat)
    (newList items : List Bytes) :
    removeLoop (fun item newList => newList ++ [item]) maxRemove value removed newList items =
      newList ++ withoutFirst (maxRemove - removed) value items := by
  induction items generalizing removed newList with
  | nil => rw [removeLoop, withoutFirst_nil, List.append_nil]
  | cons item items ih =>
    have budget : (item = value ∧ maxRemove - removed ≠ 0) ↔
      (removed < maxRemove ∧ item = value) := by
      rw [and_comm, Nat.sub_ne_zero_iff_lt]
    rw [removeLoop, withoutFirst_cons]
    by_cases goes : removed < maxRemove ∧ item = value
    · rw [if_pos goes, if_pos (budget.mpr goes), ih, Nat.sub_sub]
    · rw [if_neg goes, if_neg (mt budget.mp goes), ih, List.append_assoc, List.singleton_append]

/-- The loop from the tail pushes it in front. -/
lemma removeLoop_back (maxRemove : Nat) (value : Bytes) (removed : Nat)
    (newList items : List Bytes) :
    removeLoop List.cons maxRemove value removed newList items =
      (withoutFirst (maxRemove - removed) value items).reverse ++ newList := by
  induction items generalizing removed newList with
  | nil => rfl
  | cons item items ih =>
    have budget : (item = value ∧ maxRemove - removed ≠ 0) ↔
      (removed < maxRemove ∧ item = value) := by
      rw [and_comm, Nat.sub_ne_zero_iff_lt]
    rw [removeLoop, withoutFirst_cons]
    by_cases goes : removed < maxRemove ∧ item = value
    · rw [if_pos goes, if_pos (budget.mpr goes), ih, Nat.sub_sub]
    · rw [if_neg goes, if_neg (mt budget.mp goes), ih, List.reverse_cons, List.append_assoc,
        List.singleton_append]

/-- What `LREM` leaves of a list. -/
def leftBy (count : Int) (value : Bytes) (items : List Bytes) : List Bytes :=
  if count = 0 then items.filter (· ≠ value)
  else if 0 < count then withoutFirst count.natAbs value items
  else withoutLast count.natAbs value items

/-- `LREM` leaves the list without the occurrences it counts. -/
lemma lrem_eq {count : Int} (negates : inI64 (-count)) (value : Bytes) (items : List Bytes) :
    lrem count value (some (.list items)) =
      (lists.unlessEmpty (leftBy count value items), .ok ()) := by
  have held : lrem count value (some (lists.wrap items)) = _ := Container.existing_wrap
  refine held.trans ?_
  unfold leftBy
  by_cases all : count = 0
  · rw [if_pos all, if_pos all]
  · rw [if_neg all, if_neg all]
    by_cases forth : 0 < count
    · have size : count.toNat = count.natAbs := by omega
      rw [if_pos forth, if_pos forth, removeLoop_forth, List.nil_append, Nat.sub_zero, size]
    · have size : (-count).toNat = count.natAbs := by omega
      rw [if_neg forth, if_neg forth, if_pos negates, removeLoop_back, List.append_nil,
        Nat.sub_zero, size, withoutLast_eq]

/-- The result of a command on the reversed list. -/
def mirrored : Slot × Except Fault Unit → Slot × Except Fault Unit
  | (some (.list items), result) => (some (.list items.reverse), result)
  | result => result

/-- `LREM` on a list: the other elements stay in their order; of the occurrences, as many go as it
says (all of them, if it says none), the first or the last ones; the key goes with the last element.
From the tail it does what it does from the head of the reversed list. -/
structure RemovesOccurrences (s : StorageInner) (db : Nat) (key : Bytes) (items : List Bytes)
    (count : Int) (value : Bytes) : Prop where
  left : ∃ kept : List Bytes,
    kept.filter (· ≠ value) = items.filter (· ≠ value) ∧
    kept.count value = items.count value -
      (if count = 0 then items.count value else min count.natAbs (items.count value)) ∧
    (0 < count → kept = withoutFirst count.natAbs value items) ∧
    (count < 0 → kept = withoutLast count.natAbs value items) ∧
    (atKey db key (lrem count value) s).2 = .ok () ∧
    (atKey db key (lrem count value) s).1.lookup db key =
      if kept = [] then none else some (.list kept)
  others : ∀ db' key', ¬ (db' = db ∧ key' = key) →
    (atKey db key (lrem count value) s).1.lookup db' key' = s.lookup db' key'
  mirror : count < 0 →
    lrem count value (some (.list items)) =
    mirrored (lrem (-count) value (some (.list items.reverse)))

section
variable {s : StorageInner} {db : Nat} {key value : Bytes} {items : List Bytes} {count : Int}

/-- What is left has lost the occurrences that it should, and nothing else. -/
lemma filter_leftBy (count : Int) (value : Bytes) (items : List Bytes) :
    (leftBy count value items).filter (· ≠ value) = items.filter (· ≠ value) := by
  unfold leftBy
  split
  · rw [List.filter_filter]
    simp
  · split
    · exact filter_withoutFirst items
    · exact filter_withoutLast items

/-- As many occurrences are gone as were counted. -/
lemma count_leftBy (count : Int) (value : Bytes) (items : List Bytes) :
    (leftBy count value items).count value = items.count value -
      (if count = 0 then items.count value else min count.natAbs (items.count value)) := by
  unfold leftBy
  split
  · rw [Nat.sub_self, List.count_eq_zero]
    simp
  · split
    · exact count_withoutFirst items
    · exact count_withoutLast items

/-- A negative count takes from the other end. -/
lemma leftBy_neg (back : count < 0) (value : Bytes) (items : List Bytes) :
    leftBy count value items = (leftBy (-count) value items.reverse).reverse := by
  rw [leftBy, leftBy, if_neg (by omega), if_neg (by omega), if_neg (by omega),
    if_pos (by omega), withoutLast_eq, Int.natAbs_neg]

/-- A list is kept unless it is empty. -/
lemma unlessEmpty_lists (items : List Bytes) :
    lists.unlessEmpty items = if items = [] then none else some (.list items) := by
  cases items with
  | nil => rfl
  | cons item items => rfl

/-- A positive number is the negation of an `i64`, and so is its negation. -/
lemma lrem_mirrored (negates : inI64 (-count)) (back : count < 0) (value : Bytes)
    (items : List Bytes) :
    lrem count value (some (.list items)) =
      mirrored (lrem (-count) value (some (.list items.reverse))) := by
  have fits : inI64 (- -count) := by
    simp only [inI64, Bool.and_eq_true, decide_eq_true_eq] at negates ⊢
    omega
  rw [lrem_eq negates, lrem_eq fits, leftBy_neg back, unlessEmpty_lists, unlessEmpty_lists]
  by_cases isNil : leftBy (-count) value items.reverse = []
  · rw [if_pos isNil, if_pos (List.reverse_eq_nil_iff.mpr isNil)]
    rfl
  · rw [if_neg isNil, if_neg (mt List.reverse_eq_nil_iff.mp isNil)]
    rfl

/-- On every list, with every value and every `i64`: `LREM` removes the occurrences that it should
exactly when the number is not the least one, which cannot be negated. -/
theorem removesOccurrences (held : s.lookup db key = some (.list items)) (fits : inI64 count)
    (value : Bytes) : RemovesOccurrences s db key items count value ↔ count ≠ -2 ^ 63 := by
  constructor
  · rintro removes rfl
    obtain ⟨kept, _, _, _, _, done, _⟩ := removes.left
    rw [atKey, held] at done
    cases done
  · intro least
    have negates : inI64 (-count) := by
      simp only [inI64, Bool.and_eq_true, decide_eq_true_eq] at fits ⊢
      omega
    refine ⟨⟨leftBy count value items, filter_leftBy count value items,
      count_leftBy count value items,
      fun forth => ?_, fun back => ?_, ?_, ?_⟩, ?_, ?_⟩
    · rw [leftBy, if_neg (by omega), if_pos forth]
    · rw [leftBy, if_neg (by omega), if_neg (by omega)]
    · rw [atKey, held, lrem_eq negates]
    · rw [lookup_atKey, held, lrem_eq negates, unlessEmpty_lists]
    · intro db' key' other
      exact lookup_atKey_ne other _ s
    · exact fun back => lrem_mirrored negates back value items

end

/-- Two of three occurrences go, from the tail. -/
theorem removesOccurrences_two :
    RemovesOccurrences (.put .new 0 (ascii "k")
      (.list [ascii "a", ascii "b", ascii "a", ascii "a"])) 0 (ascii "k")
      [ascii "a", ascii "b", ascii "a", ascii "a"] (-2) (ascii "a") ↔ (-2 : Int) ≠ -2 ^ 63 :=
  removesOccurrences (by decide +kernel) (by decide +kernel) (ascii "a")

/-- The least number of occurrences makes the negation overflow. -/
theorem removesOccurrences_least :
    ¬ RemovesOccurrences (.put .new 0 (ascii "k") (.list [ascii "a"])) 0 (ascii "k")
      [ascii "a"] (-2 ^ 63)
      (ascii "a") := by
  intro removes
  obtain ⟨kept, _, _, _, _, done, _⟩ := removes.left
  exact absurd done (by decide +kernel)

/-! ## LMOVE -/

/-- The elements of the list at a key. -/
def StorageInner.items (s : StorageInner) (db : Nat) (key : Bytes) : List Bytes :=
  match s.lookup db key with
  | some (.list items) => items
  | _ => []

/-- `LMOVE` moves one element from an end of the source to an end of the destination, if there is
one. Both may be the same list. -/
structure Moves (s s' : StorageInner) (db : Nat) (sourceKey destKey : Bytes)
    (wherefrom whereto : Side) : Prop where
  /-- Without an element to move, nothing changes. -/
  idle : s.items db sourceKey = [] → s' = s
  /-- One element changes its place, and the others stay in their order. -/
  moved : s.items db sourceKey ≠ [] → ∃ item rest, s.items db sourceKey =
    pushEnd wherefrom item rest ∧
    if sourceKey = destKey then s'.lookup db sourceKey = some (.list (pushEnd whereto item rest))
    else s'.items db sourceKey = rest ∧
      s'.lookup db destKey = some (.list (pushEnd whereto item (s.items db destKey)))
  /-- No element is lost, and none is there twice. -/
  conserved : if sourceKey = destKey then (s'.items db sourceKey).Perm (s.items db sourceKey)
    else (s'.items db sourceKey ++ s'.items db destKey).Perm
      (s.items db sourceKey ++ s.items db destKey)
  /-- The source goes with its last element. -/
  gone : s.items db sourceKey ≠ [] → (s'.lookup db sourceKey = none ↔ s'.items db sourceKey = [])
  others : ∀ db' key, ¬ (db' = db ∧ (key = sourceKey ∨ key = destKey)) →
    s'.lookup db' key = s.lookup db' key

/-- An item that was taken off an end stood there. -/
lemma pushEnd_of_takeEnd {side : Side} {item : Bytes} {items rest : List Bytes}
    (taken : takeEnd side items = some (item, rest)) : items = pushEnd side item rest := by
  cases side with
  | left =>
    cases items with
    | nil => cases taken
    | cons first later =>
      cases taken
      rfl
  | right =>
    obtain ⟨last, found, eq⟩ := Option.map_eq_some_iff.mp taken
    cases eq
    exact (List.dropLast_append_getLast? item found).symm

/-- Wherever an element is pushed, it is one more element. -/
lemma pushEnd_perm (side : Side) (item : Bytes) (items : List Bytes) :
    (pushEnd side item items).Perm (item :: items) := by
  cases side with
  | left => exact List.Perm.refl _
  | right => exact List.perm_append_singleton item items

/-- The items of a key are those of its list. -/
lemma items_eq {s : StorageInner} {db : Nat} {key : Bytes} {items : List Bytes}
    (held : s.lookup db key = some (.list items)) : s.items db key = items := by
  rw [StorageInner.items, held]

/-- Elements are in a list. -/
lemma held_items {s : StorageInner} {db : Nat} {key : Bytes} (nonempty : s.items db key ≠ []) :
    s.lookup db key = .some (.list (s.items db key)) := by
  unfold StorageInner.items at nonempty ⊢
  split at nonempty
  · assumption
  · exact absurd rfl nonempty

/-- The items of a key whose list is kept unless it is empty. -/
lemma items_unlessEmpty {s : StorageInner} {db : Nat} {key : Bytes} {items : List Bytes}
    (left : s.lookup db key = lists.unlessEmpty items) :
    s.items db key = items ∧ (s.lookup db key = none ↔ items = []) := by
  rw [unlessEmpty_lists] at left
  by_cases isNil : items = []
  · rw [if_pos isNil] at left
    rw [StorageInner.items, left, isNil]
    exact ⟨rfl, iff_of_true rfl rfl⟩
  · rw [if_neg isNil] at left
    exact ⟨items_eq left, iff_of_false (by simp [left]) isNil⟩

section
variable {s : StorageInner} {db : Nat} {sourceKey destKey : Bytes} {wherefrom whereto : Side}

/-- Without an element in the source, nothing is done. -/
lemma Moves.of_idle (isNil : s.items db sourceKey = []) :
    Moves s s db sourceKey destKey wherefrom whereto where
  idle _ := rfl
  moved filled := absurd isNil filled
  conserved := by
    split
    · exact List.Perm.refl _
    · exact List.Perm.refl _
  gone filled := absurd isNil filled
  others _ _ _ := rfl

/-- A list is rotated: its element goes from one end to the other or to the same one. -/
lemma Moves.of_rotated {item : Bytes} {items rest : List Bytes}
    (held : s.lookup db sourceKey = some (.list items))
    (taken : takeEnd wherefrom items = some (item, rest)) :
    Moves s (s.put db sourceKey (.list (pushEnd whereto item rest))) db sourceKey sourceKey
      wherefrom whereto := by
  have split := pushEnd_of_takeEnd taken
  have here : (s.put db sourceKey (.list (pushEnd whereto item rest))).lookup db sourceKey =
      some (.list (pushEnd whereto item rest)) := by
    rw [StorageInner.lookup_put, if_pos ⟨rfl, rfl⟩]
  have nonempty : pushEnd whereto item rest ≠ [] := by
    intro nowhere
    have isEmpty := pushEnd_perm whereto item rest
    rw [nowhere, List.nil_perm] at isEmpty
    cases isEmpty
  refine ⟨fun idle => ?_, fun _ => ⟨item, rest, ?_, ?_⟩, ?_, fun _ => ?_, fun db' key other => ?_⟩
  · rw [items_eq held] at idle
    cases (takeEnd_eq_none.mpr idle).symm.trans taken
  · rw [items_eq held, split]
  · rw [if_pos rfl, here]
  · rw [if_pos rfl, items_eq here, items_eq held, split]
    exact (pushEnd_perm whereto item rest).trans (pushEnd_perm wherefrom item rest).symm
  · rw [items_eq here, here]
    exact iff_of_false nofun nonempty
  · rw [StorageInner.lookup_put, if_neg fun same => other ⟨same.1, .inl same.2⟩]

/-- An element goes from one list to another one, which may be new. -/
lemma Moves.of_moved {item : Bytes} {items rest : List Bytes} (apart : sourceKey ≠ destKey)
    (held : s.lookup db sourceKey = some (.list items))
    (taken : takeEnd wherefrom items = some (item, rest)) :
    Moves s ((s.store db sourceKey (lists.unlessEmpty rest)).put db destKey
      (.list (pushEnd whereto item (s.items db destKey)))) db sourceKey destKey
      wherefrom whereto := by
  have split := pushEnd_of_takeEnd taken
  have there (s' : StorageInner) (value : StorageValue) :
      (s'.put db destKey value).lookup db destKey = some value := by
    rw [StorageInner.lookup_put, if_pos ⟨rfl, rfl⟩]
  have here (value : StorageValue) :
      ((s.store db sourceKey (lists.unlessEmpty rest)).put db destKey value).lookup db sourceKey =
        lists.unlessEmpty rest := by
    rw [StorageInner.lookup_put, if_neg fun same => apart same.2,
      StorageInner.lookup_store, if_pos ⟨rfl, rfl⟩]
  have left := items_unlessEmpty (here (.list (pushEnd whereto item (s.items db destKey))))
  refine ⟨fun idle => ?_, fun _ => ⟨item, rest, ?_, ?_⟩, ?_, fun _ => ?_, fun db' key other => ?_⟩
  · rw [items_eq held] at idle
    cases (takeEnd_eq_none.mpr idle).symm.trans taken
  · rw [items_eq held, split]
  · rw [if_neg apart]
    exact ⟨left.1, there _ _⟩
  · rw [if_neg apart, left.1, items_eq (there _ _), items_eq held, split]
    -- the element is counted with the one list or with the other
    calc rest ++ pushEnd whereto item (s.items db destKey)
      _ ~ rest ++ item :: s.items db destKey := (pushEnd_perm _ _ _).append_left rest
      _ ~ item :: (rest ++ s.items db destKey) := List.perm_middle
      _ ~ pushEnd wherefrom item rest ++ s.items db destKey :=
        (pushEnd_perm _ _ _).symm.append_right _
  · rw [left.1]
    exact left.2
  · rw [StorageInner.lookup_put, if_neg fun same => other ⟨same.1, .inr same.2⟩,
      StorageInner.lookup_store,
      if_neg fun same => other ⟨same.1, .inl same.2⟩]

/-- On one list, `lmove` rotates it. -/
lemma lmove_rotates (ok : (lmove db sourceKey sourceKey wherefrom whereto s).2 = .ok ()) :
    Moves s (lmove db sourceKey sourceKey wherefrom whereto s).1 db sourceKey sourceKey
      wherefrom whereto := by
  rw [lmove, if_pos rfl, atKey] at ok ⊢
  have view := lists.view (s.lookup db sourceKey)
  generalize bound : s.lookup db sourceKey = slot at view ok ⊢
  cases view with
  | vacant =>
    show Moves s (s.store db sourceKey none) _ _ _ _ _
    rw [← bound, StorageInner.store_lookup]
    exact .of_idle (by rw [StorageInner.items, bound])
  | held items =>
    rw [Container.existing_wrap] at ok ⊢
    cases taken : takeEnd wherefrom items with
    | none =>
      show Moves s (s.store db sourceKey (some (lists.wrap items))) _ _ _ _ _
      rw [← bound, StorageInner.store_lookup]
      exact .of_idle ((items_eq bound).trans (takeEnd_eq_none.mp taken))
    | some split => exact .of_rotated bound taken
  | other type =>
    rw [Container.existing_other type] at ok
    cases ok

/-- Between two keys, `lmove` takes the element before it looks at the destination. -/
lemma lmove_taken {item : Bytes} {items rest : List Bytes} (apart : sourceKey ≠ destKey)
    (held : s.lookup db sourceKey = some (.list items))
    (taken : takeEnd wherefrom items = some (item, rest)) :
    lmove db sourceKey destKey wherefrom whereto s =
      atKey db destKey (lists.orInsert fun items => (pushEnd whereto item items, .ok ()))
      (s.store db sourceKey (lists.unlessEmpty rest)) := by
  rw [lmove, if_neg apart, held]
  simp only [taken]

/-- Nothing moves from an empty list to another key. -/
lemma lmove_idle (apart : sourceKey ≠ destKey) (isNil : s.items db sourceKey = [])
    (ok : (lmove db sourceKey destKey wherefrom whereto s).2 = .ok ()) :
    (lmove db sourceKey destKey wherefrom whereto s).1 = s := by
  unfold StorageInner.items at isNil
  rw [lmove, if_neg apart] at ok ⊢
  cases bound : s.lookup db sourceKey with
  | none => rfl
  | some value =>
    rw [bound] at isNil ok
    cases value with
    | list items =>
      subst isNil
      have nothing : takeEnd wherefrom [] = none := takeEnd_eq_none.mpr rfl
      simp only [nothing]
    | _ => cases ok

/-- An item moves from one list to another. -/
lemma lmove_apart (apart : sourceKey ≠ destKey)
    (ok : (lmove db sourceKey destKey wherefrom whereto s).2 = .ok ()) :
    Moves s (lmove db sourceKey destKey wherefrom whereto s).1 db sourceKey destKey
      wherefrom whereto := by
  cases taken : takeEnd wherefrom (s.items db sourceKey) with
  | none =>
    have nowhere := takeEnd_eq_none.mp taken
    rw [lmove_idle apart nowhere ok]
    exact .of_idle nowhere
  | some split =>
    obtain ⟨item, rest⟩ := split
    have held : s.lookup db sourceKey = some (.list (s.items db sourceKey)) := by
      refine held_items fun nowhere' => ?_
      rw [takeEnd_eq_none.mpr nowhere'] at taken
      cases taken
    -- the destination is another key, and is looked up after the source is stored
    have untouched : (s.store db sourceKey (lists.unlessEmpty rest)).lookup db destKey =
      s.lookup db destKey := by
      rw [StorageInner.lookup_store, if_neg fun same => apart same.2.symm]
    have moved :=
      @Moves.of_moved s db sourceKey destKey wherefrom whereto item _ rest apart held taken
    rw [lmove_taken apart held taken, atKey, untouched] at ok ⊢
    have view := lists.view (s.lookup db destKey)
    generalize dest : s.lookup db destKey = slot at view ok ⊢
    cases view with
    | vacant =>
      rw [show s.items db destKey = [] by rw [StorageInner.items, dest]] at moved
      exact moved
    | held items =>
      rw [items_eq dest] at moved
      rw [Container.orInsert_wrap]
      exact moved
    | other type =>
      rw [Container.orInsert_other type] at ok
      cases ok

/-- In every state, `RPOPLPUSH` does what `LMOVE` does from the right to the left; and whenever
`LMOVE` returns `Ok`, it moves one element, or none if there is none. -/
theorem lmove_conserves (s : StorageInner) (db : Nat) (sourceKey destKey : Bytes) :
    rpoplpush db sourceKey destKey s = lmove db sourceKey destKey .right .left s ∧
    ∀ wherefrom whereto, (lmove db sourceKey destKey wherefrom whereto s).2 = .ok () →
      Moves s (lmove db sourceKey destKey wherefrom whereto s).1 db sourceKey destKey
        wherefrom whereto := by
  refine ⟨congrFun (rpoplpush_eq db sourceKey destKey) s, fun wherefrom whereto ok => ?_⟩
  by_cases rotates : sourceKey = destKey
  · subst rotates
    exact lmove_rotates ok
  · exact lmove_apart rotates ok

/-- The last element of a list becomes the first one of another list. -/
theorem lmove_conserves_two :
    Moves (.put .new 0 (ascii "s") (.list [ascii "a", ascii "b"]))
      (lmove 0 (ascii "s") (ascii "d") .right .left
        (.put .new 0 (ascii "s") (.list [ascii "a", ascii "b"]))).1
      0 (ascii "s") (ascii "d") .right .left :=
  (lmove_conserves _ 0 (ascii "s") (ascii "d")).2 .right .left (by decide +kernel)

end

end Veidrodelis.TsNif
