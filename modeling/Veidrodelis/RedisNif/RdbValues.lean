import Veidrodelis.RedisNif.RdbStrings

/-!
# Values of the RDB format

`parse_value` computes the size of a value before it loads it. Here the two walks over the same
bytes are compared: `loadObject_fits` says that a value of the computed size is loaded by consuming
exactly that size (or is faulty), so that `load_object` never asks for more, and `loadObject_stable`
that the result does not depend on what stands behind it. The readers of the opcodes are items in
the sense of `Reader.Item`.
-/

namespace Veidrodelis.RedisNif.Rdb
open Incremental

/-! ## Fixed widths -/

/-- `split_to` is stable on buffers that are long enough. -/
lemma splitTo_stableFrom (n : Nat) : Reader.StableFrom n (splitTo n) := by
  intro b x le
  have le' : n ≤ (b ++ x).length := by simp only [List.length_append]; omega
  rw [splitTo_of_le le, splitTo_of_le le', List.take_append_of_le_length le,
    List.drop_append_of_le_length le]
  refine ⟨fun a rest h => ?_, fun e h => by cases h⟩
  cases h
  rfl

/-- `advance` is stable on buffers that are long enough. -/
lemma advance_stableFrom (n : Nat) : Reader.StableFrom n (advance n) := by
  intro b x le
  have le' : n ≤ (b ++ x).length := by simp only [List.length_append]; omega
  rw [advance_of_le le, advance_of_le le', List.drop_append_of_le_length le]
  refine ⟨fun a rest h => ?_, fun e h => by cases h⟩
  cases h
  rfl

/-- A number is read stably from buffers that are long enough. -/
lemma getUIntLe_stableFrom (n : Nat) : Reader.StableFrom n (getUIntLe n) :=
  (splitTo_stableFrom n).bind fun _ => Reader.stable_pure _

/-- A number that is there is read. -/
lemma getUIntLe_of_le {n : Nat} {b : Bytes} (h : n ≤ b.length) :
    getUIntLe n b = .done (Bytes.leNat (b.take n)) (b.drop n) := by
  rw [getUIntLe, Reader.bind_done (splitTo_of_le h)]
  rfl

/-! ## The size of a value -/

/-- A value type is known by its code. -/
lemma ofCode_code (t : ValueType) : ValueType.ofCode t.code = some t := by
  cases t <;> rfl

/-- On the pairs that the size loops reach, total and offset are one number. -/
lemma grow_done {c n : Nat} {acc : Nat × Nat} (h : grow (c, c) n = .done acc) :
    acc = (c + n, c + n) := by
  obtain ⟨total, ht, h⟩ := Outcome.bind_eq_done.mp h
  obtain ⟨off, ho, h⟩ := Outcome.bind_eq_done.mp h
  cases h
  rw [usizeAdd_done ht, usizeAdd_done ho]

/-- A size that has grown by a string grew by its size. -/
lemma growString_done {b : Bytes} {c : Nat} {acc : Nat × Nat}
    (h : growString b (c, c) = .done acc) :
    ∃ n, calculateStringSize b c = .done n ∧ acc = (c + n, c + n) := by
  obtain ⟨n, hn, h⟩ := Outcome.bind_eq_done.mp h
  exact ⟨n, hn, grow_done h⟩

/-- Growing by a string is stable. -/
lemma growString_stable (acc : Nat × Nat) : Outcome.Stable (growString · acc) :=
  Outcome.Stable.bind (calculateStringSize_stable acc.2) fun _ => Outcome.stable_const _

/-- Growing many times is stable. -/
lemma growTimes_stable {entry : Bytes → Nat × Nat → Outcome Fault (Nat × Nat)}
    (h : ∀ acc, Outcome.Stable (entry · acc)) (count : Nat) (acc : Nat × Nat) :
    Outcome.Stable fun b => growTimes (entry b) count acc := by
  induction count generalizing acc with
  | zero => exact Outcome.stable_const _
  | succ n ih => exact Outcome.Stable.bind (h acc) fun acc => ih acc

/-- Growing by a member is stable. -/
lemma growZset2Entry_stable (acc : Nat × Nat) : Outcome.Stable (growZset2Entry · acc) :=
  Outcome.Stable.bind (growString_stable acc) fun _ => Outcome.stable_const _

/-- Growing by a field is stable. -/
lemma growHashEntry_stable (acc : Nat × Nat) : Outcome.Stable (growHashEntry · acc) :=
  Outcome.Stable.bind (growString_stable acc) fun acc => growString_stable acc

/-- Growing by a field with a deadline is stable. -/
lemma growHash2Entry_stable (acc : Nat × Nat) : Outcome.Stable (growHash2Entry · acc) :=
  Outcome.Stable.bind (growString_stable acc) fun acc =>
    Outcome.Stable.bind (growString_stable acc) fun _ => Outcome.stable_const _

/-- Growing by a node is stable. -/
lemma growQuicklist2Entry_stable (acc : Nat × Nat) :
    Outcome.Stable (growQuicklist2Entry · acc) := by
  intro b x h
  by_cases inside : acc.2 < b.length
  · have inside' : acc.2 < (b ++ x).length := by simp only [List.length_append]; omega
    simp only [growQuicklist2Entry, inside, inside', if_true] at h ⊢
    exact Outcome.Stable.bind (Outcome.stable_const (grow acc 1))
      (fun acc => growString_stable acc) b x h
  · simp [growQuicklist2Entry, inside] at h

/-- The size of a counted value is stable. -/
lemma calculateCounted_stable {entry : Bytes → Nat × Nat → Outcome Fault (Nat × Nat)} (offset : Nat)
    (h : ∀ acc, Outcome.Stable (entry · acc)) :
    Outcome.Stable fun b => calculateCounted b offset (entry b) := by
  refine Outcome.Stable.bind (peekLengthAt_stable offset) fun p => ?_
  refine Outcome.Stable.bind (Outcome.stable_const (usizeAdd offset p.2)) fun c => ?_
  exact Outcome.Stable.bind (growTimes_stable h p.1 (p.2, c)) fun acc => Outcome.stable_const _

/-- The size computed for a value does not change when the buffer grows. -/
theorem calculateValueSize_stable (valueType : UInt8) (offset : Nat) :
    Outcome.Stable (calculateValueSize · valueType offset) := by
  unfold calculateValueSize
  cases ValueType.ofCode valueType with
  | none => exact Outcome.stable_const _
  | some t =>
    cases t with
    | string | setIntset | hashListpack | zsetListpack | setListpack =>
      exact calculateStringSize_stable offset
    | zset2 => exact calculateCounted_stable offset growZset2Entry_stable
    | hash => exact calculateCounted_stable offset growHashEntry_stable
    | listQuicklist2 => exact calculateCounted_stable offset growQuicklist2Entry_stable
    | hash2 => exact calculateCounted_stable offset growHash2Entry_stable

/-! ## Loading what was sized -/

/-- The reader `m` loads, from any offset, the entry that `entry` computes the size of. -/
def Loads {α : Type} (entry : Bytes → Nat × Nat → Outcome Fault (Nat × Nat)) (m : Load α) : Prop :=
  ∀ b c acc, entry b (c, c) = .done acc → ∃ d, acc = (d, d) ∧ c ≤ d ∧
    (d ≤ b.length → (∃ e, m (b.drop c) = .fault e) ∨ ∃ a, m (b.drop c) = .done a (b.drop d))

/-- A string of known size inside the buffer is read or refused. -/
lemma loadString_at {b : Bytes} {c n : Nat} (h : calculateStringSize b c = .done n)
    (inside : c + n ≤ b.length) :
    (∃ e, loadString (b.drop c) = .fault e) ∨
      ∃ s, loadString (b.drop c) = .done s (b.drop (c + n)) := by
  have h' : calculateStringSize (b.drop c) 0 = .done n := by rw [calculateStringSize_drop, h]
  have inside' : n ≤ (b.drop c).length := by simp only [List.length_drop]; omega
  simpa only [List.drop_drop] using loadString_fits (b.drop c) n h' inside'

/-- A member is loaded as it is sized. -/
lemma loadZset2Entry_loads : Loads growZset2Entry loadZset2Entry := by
  intro b c acc h
  obtain ⟨acc1, h1, h2⟩ := Outcome.bind_eq_done.mp h
  obtain ⟨n, hn, rfl⟩ := growString_done h1
  refine ⟨c + n + 8, grow_done h2, by omega, fun inside => ?_⟩
  unfold loadZset2Entry
  obtain ⟨e, he⟩ | ⟨s, hs⟩ := loadString_at hn (by omega)
  · exact .inl ⟨e, Reader.bind_fault he⟩
  · have eight : 8 ≤ (b.drop (c + n)).length := by simp only [List.length_drop]; omega
    have there : Reader.ensure (ε := Fault) 8 (b.drop (c + n)) = .done () (b.drop (c + n)) :=
      if_neg (by omega)
    rw [Reader.bind_done hs, Reader.bind_done there, Reader.bind_done (getUIntLe_of_le eight),
      List.drop_drop]
    exact .inr ⟨_, rfl⟩

/-- A field is loaded as it is sized. -/
lemma loadHashEntry_loads : Loads growHashEntry loadHashEntry := by
  intro b c acc h
  obtain ⟨acc1, h1, h2⟩ := Outcome.bind_eq_done.mp h
  obtain ⟨n, hn, rfl⟩ := growString_done h1
  obtain ⟨m, hm, rfl⟩ := growString_done h2
  refine ⟨c + n + m, rfl, by omega, fun inside => ?_⟩
  unfold loadHashEntry
  obtain ⟨e, he⟩ | ⟨s, hs⟩ := loadString_at hn (by omega)
  · exact .inl ⟨e, Reader.bind_fault he⟩
  · rw [Reader.bind_done hs]
    obtain ⟨e, he⟩ | ⟨v, hv⟩ := loadString_at hm (by omega)
    · exact .inl ⟨e, Reader.bind_fault he⟩
    · rw [Reader.bind_done hv]
      exact .inr ⟨_, rfl⟩

/-- A field with a deadline is loaded as it is sized. -/
lemma loadHash2Entry_loads : Loads growHash2Entry loadHash2Entry := by
  intro b c acc h
  obtain ⟨acc1, h1, h⟩ := Outcome.bind_eq_done.mp h
  obtain ⟨n, hn, rfl⟩ := growString_done h1
  obtain ⟨acc2, h2, h3⟩ := Outcome.bind_eq_done.mp h
  obtain ⟨m, hm, rfl⟩ := growString_done h2
  refine ⟨c + n + m + 8, grow_done h3, by omega, fun inside => ?_⟩
  unfold loadHash2Entry
  obtain ⟨e, he⟩ | ⟨s, hs⟩ := loadString_at hn (by omega)
  · exact .inl ⟨e, Reader.bind_fault he⟩
  · rw [Reader.bind_done hs]
    obtain ⟨e, he⟩ | ⟨v, hv⟩ := loadString_at hm (by omega)
    · exact .inl ⟨e, Reader.bind_fault he⟩
    · have eight : 8 ≤ (b.drop (c + n + m)).length := by simp only [List.length_drop]; omega
      have there : Reader.ensure (ε := Fault) 8 (b.drop (c + n + m)) =
        .done () (b.drop (c + n + m)) :=
        if_neg (by omega)
      rw [Reader.bind_done hv, Reader.bind_done there, Reader.bind_done (getUIntLe_of_le eight),
        List.drop_drop]
      exact .inr ⟨_, rfl⟩

/-- A node is loaded as it is sized. -/
lemma loadQuicklist2Node_loads : Loads growQuicklist2Entry loadQuicklist2Node := by
  intro b c acc h
  unfold growQuicklist2Entry at h
  split at h
  · obtain ⟨acc1, h1, h2⟩ := Outcome.bind_eq_done.mp h
    obtain rfl := grow_done h1
    obtain ⟨n, hn, rfl⟩ := growString_done h2
    refine ⟨c + 1 + n, rfl, by omega, fun inside => ?_⟩
    have one : 1 ≤ (b.drop c).length := by simp only [List.length_drop]; omega
    have there : Reader.ensure (ε := Fault) 1 (b.drop c) = .done () (b.drop c) := if_neg (by omega)
    have skip : advance 1 (b.drop c) = .done () (b.drop (c + 1)) := by
      rw [advance_of_le one, List.drop_drop]
    rw [loadQuicklist2Node_eq, Reader.bind_done there, Reader.bind_done skip]
    obtain ⟨e, he⟩ | ⟨s, hs⟩ := loadString_at hn (by omega)
    · exact .inl ⟨e, Reader.bind_fault he⟩
    · rw [Reader.bind_done hs]
      cases r : parseListpack s with
      | error e => exact .inl ⟨e, by simp [Reader.lift]⟩
      | ok entries => exact .inr ⟨entries, by simp [Reader.lift]⟩
  · cases h

/-- The induction over the entries of a value. -/
lemma Loads.times {α : Type} {entry : Bytes → Nat × Nat → Outcome Fault (Nat × Nat)} {m : Load α}
    (hm : Loads entry m) (count : Nat) :
    Loads (fun b => growTimes (entry b) count) (Reader.times count m) := by
  induction count with
  | zero =>
    intro b c acc h
    cases h
    exact ⟨c, rfl, le_refl c, fun _ => .inr ⟨[], rfl⟩⟩
  | succ n ih =>
    intro b c acc h
    obtain ⟨acc1, h1, h2⟩ := Outcome.bind_eq_done.mp h
    obtain ⟨d, rfl, cd, hd⟩ := hm b c acc1 h1
    obtain ⟨k, rfl, dk, hk⟩ := ih b d acc h2
    refine ⟨k, rfl, by omega, fun inside => ?_⟩
    unfold Reader.times
    obtain ⟨e, he⟩ | ⟨a, ha⟩ := hd (by omega)
    · exact .inl ⟨e, Reader.bind_fault he⟩
    · rw [Reader.bind_done ha]
      obtain ⟨e, he⟩ | ⟨as, has⟩ := hk inside
      · exact .inl ⟨e, Reader.bind_fault he⟩
      · rw [Reader.bind_done has]
        exact .inr ⟨_, rfl⟩

/-- A count and its entries. -/
lemma counted_fits {α : Type} {entry : Bytes → Nat × Nat → Outcome Fault (Nat × Nat)} {m : Load α}
    (hm : Loads entry m) :
    Reader.Fits (fun b => calculateCounted b 0 (entry b))
      (do let count ← loadLength; Reader.times count m) := by
  intro b n h inside
  obtain ⟨⟨count, used⟩, hp, h⟩ := Outcome.bind_eq_done.mp h
  obtain ⟨c, hc, h⟩ := Outcome.bind_eq_done.mp h
  obtain ⟨acc, ha, h⟩ := Outcome.bind_eq_done.mp h
  have hc' := usizeAdd_done hc
  simp only [Nat.zero_add] at hc'
  subst hc'
  obtain ⟨d, rfl, -, hd⟩ := hm.times count b c acc ha
  cases h
  rw [Reader.bind_done (loadLength_of_peek hp)]
  exact hd inside

/-- What is made of a loaded value afterwards does not change what it takes. -/
lemma fits_bind {α β : Type} {f : Bytes → Outcome Fault Nat} {m : Load α} {k : α → Load β}
    (hm : Reader.Fits f m) (hk : ∀ a b, (∃ e, k a b = .fault e) ∨ ∃ c, k a b = .done c b) :
    Reader.Fits f (m >>= k) := by
  intro b n h inside
  obtain ⟨e, he⟩ | ⟨a, ha⟩ := hm b n h inside
  · exact .inl ⟨e, Reader.bind_fault he⟩
  · rw [Reader.bind_done ha]
    exact hk a _

/-- A result that is there already leaves the buffer alone. -/
lemma lift_keeps {α : Type} (r : Except Fault α) (b : Bytes) :
    (∃ e, Reader.lift r b = .fault e) ∨ ∃ c, Reader.lift r b = .done c b := by
  cases r with
  | ok a => exact .inr ⟨a, rfl⟩
  | error e => exact .inl ⟨e, rfl⟩

/-- What is parsed out of a string consumes nothing behind the string. -/
lemma lift_bind_keeps {α β : Type} {r : Except Fault α} {k : α → Load β} {b : Bytes}
    (keeps : ∀ a, (∃ e, k a b = .fault e) ∨ ∃ c, k a b = .done c b) :
    (∃ e, (Reader.lift r >>= k) b = .fault e) ∨ ∃ c, (Reader.lift r >>= k) b = .done c b := by
  obtain ⟨e, he⟩ | ⟨a, ha⟩ := lift_keeps r b
  · exact .inl ⟨e, Reader.bind_fault he⟩
  · rw [Reader.bind_done ha]
    exact keeps a

/-- A value of the computed size is loaded by consuming exactly that size, or it is faulty. -/
theorem loadObject_fits (valueType : UInt8) (db : Nat) (key : Bytes) :
    Reader.Fits (calculateValueSize · valueType 0) (loadObject valueType db key) := by
  unfold calculateValueSize loadObject
  cases ValueType.ofCode valueType with
  | none => intro b n h; cases h
  | some t =>
    cases t with
    | string => exact fits_bind loadString_fits fun s b => .inr ⟨_, rfl⟩
    | zset2 =>
      have fits := fits_bind (counted_fits loadZset2Entry_loads)
        (β := List RawCommand) (k :=
          fun members => pure [⟨db, ascii "ZADD", key :: members.flatten⟩])
        fun s b => .inr ⟨_, rfl⟩
      rwa [Reader.bind_assoc] at fits
    | hash =>
      have fits := fits_bind (counted_fits loadHashEntry_loads)
        (β := List RawCommand) (k := fun fields => pure [⟨db, ascii "HSET", key :: fields.flatten⟩])
        fun s b => .inr ⟨_, rfl⟩
      rwa [Reader.bind_assoc] at fits
    | hash2 =>
      have fits := fits_bind (counted_fits loadHash2Entry_loads)
        (β := List RawCommand) (k := fun fields => if fields.flatten = [] then pure []
          else pure [⟨db, ascii "HSET", key :: fields.flatten⟩])
        fun s b => .inr (by split <;> exact ⟨_, rfl⟩)
      rwa [Reader.bind_assoc] at fits
    | listQuicklist2 =>
      have fits := fits_bind (counted_fits loadQuicklist2Node_loads)
        (β := List RawCommand) (k := fun nodes => if nodes.flatten = [] then pure []
          else pure [⟨db, ascii "RPUSH", key :: nodes.flatten⟩])
        fun s b => .inr (by split <;> exact ⟨_, rfl⟩)
      rwa [Reader.bind_assoc] at fits
    | setIntset =>
      exact fits_bind loadString_fits fun s b => lift_bind_keeps fun elements => .inr ⟨_, rfl⟩
    | setListpack =>
      exact fits_bind loadString_fits fun s b => lift_bind_keeps fun elements => .inr ⟨_, rfl⟩
    | hashListpack =>
      refine fits_bind loadString_fits fun s b => lift_bind_keeps fun entries => ?_
      split
      · exact .inl ⟨_, rfl⟩
      · exact .inr ⟨_, rfl⟩
    | zsetListpack =>
      refine fits_bind loadString_fits fun s b => lift_bind_keeps fun entries => ?_
      split
      · exact .inl ⟨_, rfl⟩
      · rename_i even
        obtain ⟨args, read⟩ := zsetListpackArgs_even entries (not_not.mp even)
        rw [read]
        exact .inr ⟨_, rfl⟩

/-! ## Stability of the loaders -/

/-- Reading a member is stable. -/
lemma loadZset2Entry_stable : Reader.Stable loadZset2Entry := by
  refine Reader.stable_bind loadString_stable fun member => ?_
  exact Reader.stable_ensure_bind ((getUIntLe_stableFrom 8).bind fun _ => Reader.stable_pure _)

/-- Reading a field is stable. -/
lemma loadHashEntry_stable : Reader.Stable loadHashEntry := by
  refine Reader.stable_bind loadString_stable fun field => ?_
  exact Reader.stable_bind loadString_stable fun value => Reader.stable_pure _

/-- Reading a field with a deadline is stable. -/
lemma loadHash2Entry_stable : Reader.Stable loadHash2Entry := by
  refine Reader.stable_bind loadString_stable fun field => ?_
  refine Reader.stable_bind loadString_stable fun value => ?_
  exact Reader.stable_ensure_bind ((getUIntLe_stableFrom 8).bind fun _ => Reader.stable_pure _)

/-- Reading a node is stable. -/
lemma loadQuicklist2Node_stable : Reader.Stable loadQuicklist2Node := by
  rw [loadQuicklist2Node_eq]
  refine Reader.stable_ensure_bind ((advance_stableFrom 1).bind fun _ => ?_)
  exact Reader.stable_bind loadString_stable fun listpackBin => Reader.stable_lift _

/-- A value that was loaded, or refused, stays so when more bytes arrive behind it. -/
theorem loadObject_stable (valueType : UInt8) (db : Nat) (key : Bytes) :
    Reader.Stable (loadObject valueType db key) := by
  have counted {α : Type} {m : Load α} {k : List α → Load (List RawCommand)} (hm : Reader.Stable m)
      (hk : ∀ as, Reader.Stable (k as)) :
      Reader.Stable (do let count ← loadLength; let as ← Reader.times count m; k as) :=
    Reader.stable_bind loadLength_stable fun count =>
      Reader.stable_bind (Reader.stable_times hm count) hk
  unfold loadObject
  cases ValueType.ofCode valueType with
  | none => exact Reader.stable_pure []
  | some t =>
    cases t with
    | string => exact Reader.stable_bind loadString_stable fun _ => Reader.stable_pure _
    | zset2 => exact counted loadZset2Entry_stable fun _ => Reader.stable_pure _
    | hash => exact counted loadHashEntry_stable fun _ => Reader.stable_pure _
    | hash2 =>
      refine counted loadHash2Entry_stable fun fields => ?_
      split <;> exact Reader.stable_pure _
    | listQuicklist2 =>
      refine counted loadQuicklist2Node_stable fun nodes => ?_
      dsimp only
      split <;> exact Reader.stable_pure _
    | setIntset | setListpack =>
      refine Reader.stable_bind loadString_stable fun bin => ?_
      exact Reader.stable_bind (Reader.stable_lift _) fun _ => Reader.stable_pure _
    | hashListpack =>
      refine Reader.stable_bind loadString_stable fun bin => ?_
      refine Reader.stable_bind (Reader.stable_lift _) fun entries => ?_
      split
      · exact Reader.stable_fail _
      · exact Reader.stable_pure _
    | zsetListpack =>
      refine Reader.stable_bind loadString_stable fun bin => ?_
      refine Reader.stable_bind (Reader.stable_lift _) fun entries => ?_
      split
      · exact Reader.stable_fail _
      · exact Reader.stable_bind (Reader.stable_lift _) fun args => Reader.stable_pure _

/-! ## The readers of the state machine -/

/-- A length is an item. -/
lemma loadLength_item : Reader.Item loadLength where
  stable := loadLength_stable
  keeps {b rest} h := by
    rw [loadLength_eq] at h
    split at h <;> cases h
    rfl
  consumes {b a rest} h := by
    rw [loadLength_eq] at h
    split at h <;> cases h
    rename_i used e
    have := peekLengthAt_used e
    exact ⟨used, by omega, by omega, rfl⟩

/-- A string is an item. -/
lemma loadString_item : Reader.Item loadString where
  stable := loadString_stable
  keeps := loadString_need
  consumes {b a rest} h := by
    obtain ⟨n, -, pos, inside, rfl⟩ := loadString_done h
    exact ⟨n, pos, inside, rfl⟩

/-- The check of the length passes on a long buffer. -/
lemma ensure_of_le {n : Nat} {b : Bytes} (h : n ≤ b.length) :
    Reader.ensure (ε := Fault) n b = .done () b := if_neg (by omega)

/-- The check of the length waits on a short buffer. -/
lemma ensure_of_lt {n : Nat} {b : Bytes} (h : b.length < n) :
    Reader.ensure (ε := Fault) n b = .need b := if_pos h

/-- An integer of fixed width that is waited for. -/
lemma uint_item {n : Nat} (pos : 0 < n) :
    Reader.Item (do Reader.ensure n; getUIntLe n : Load Nat) where
  stable := Reader.stable_ensure_bind (getUIntLe_stableFrom n)
  keeps {b rest} h := by
    by_cases short : b.length < n
    · rw [Reader.bind_need (ensure_of_lt short)] at h
      cases h
      rfl
    · rw [Reader.bind_done (ensure_of_le (by omega)), getUIntLe_of_le (by omega)] at h
      cases h
  consumes {b a rest} h := by
    by_cases short : b.length < n
    · rw [Reader.bind_need (ensure_of_lt short)] at h
      cases h
    · rw [Reader.bind_done (ensure_of_le (by omega)), getUIntLe_of_le (by omega)] at h
      cases h
      exact ⟨n, pos, by omega, rfl⟩

end Veidrodelis.RedisNif.Rdb
