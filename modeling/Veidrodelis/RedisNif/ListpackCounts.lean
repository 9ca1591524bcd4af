import Veidrodelis.RedisNif.ListpackFormat

/-!
# The count of a listpack

The header of a listpack has 16 bits for the number of the entries, with `0xFFFF` for a number that
is not known; what ends the entries is the end marker. The loop of `parse_listpack` takes the count
as a bound, so it returns the first of the entries that `parse_listpack_entry` reads, as many as the
count says (`ReadsToEnd.listpackEntries`). Where the count is the number of the entries, or `0xFFFF`
and no less than it, nothing is lost; of more than 65535 entries only the first 65535 are returned
(`Listpack.complete_iff`).
-/

namespace Veidrodelis.RedisNif.ListpackFormat

/-! ## Reading without a count -/

/-- The entries up to the end marker, or to the end of the buffer, as `parse_listpack_entry` reads
them. -/
inductive ReadsToEnd : Bytes → List Bytes → Prop where
  | empty :
    ReadsToEnd [] []
  | marker (rest : Bytes) :
    ReadsToEnd (0xFF :: rest) []
  | entry {b : UInt8} {buf text rest : Bytes} {texts : List Bytes} :
    b ≠ 0xFF →
    parseListpackEntry (b :: buf) = .ok (text, rest) →
    ReadsToEnd rest texts →
    ReadsToEnd (b :: buf) (text :: texts)

/-- The loop of `parse_listpack` returns the first of these entries, as many as its count. -/
lemma ReadsToEnd.listpackEntries {buf : Bytes} {texts : List Bytes} (reads : ReadsToEnd buf texts)
    (n : Nat) : listpackEntries n buf = .ok (texts.take n) := by
  induction reads generalizing n with
  | empty => cases n <;> rfl
  | marker rest =>
    rw [List.take_nil]
    exact listpackEntries_end n rest
  | entry other first _ ih =>
    cases n with
    | zero => rfl
    | succ n => exact (listpackEntries_succ_iff other).mpr ⟨_, _, _, first, ih n, rfl⟩

/-- A loop with rounds left over has read to the end. -/
lemma readsToEnd_of_lt {n : Nat} {buf : Bytes} {texts : List Bytes}
    (read : listpackEntries n buf = .ok texts) (rounds : texts.length < n) :
    ReadsToEnd buf texts := by
  induction n generalizing buf texts with
  | zero => exact absurd rounds (Nat.not_lt_zero _)
  | succ n ih =>
    cases buf with
    | nil =>
      cases read
      exact .empty
    | cons b buf =>
      by_cases marker : b = 0xFF
      · subst marker
        rw [listpackEntries_end] at read
        cases read
        exact .marker buf
      · obtain ⟨text, rest, later, first, tail, rfl⟩ := (listpackEntries_succ_iff marker).mp read
        exact .entry marker first (ih tail (Nat.lt_of_succ_lt_succ rounds))

/-- Reading to the end has one result. -/
lemma ReadsToEnd.unique {buf : Bytes} {texts others : List Bytes} (reads : ReadsToEnd buf texts)
    (reads' : ReadsToEnd buf others) : texts = others := by
  -- a loop with rounds for both returns both
  have here := reads.listpackEntries (texts.length + others.length)
  have there := reads'.listpackEntries (texts.length + others.length)
  rw [List.take_of_length_le (by omega)] at here there
  exact Except.ok.inj (here.symm.trans there)

/-- Entries that are read back are all there is up to the end marker. -/
lemma ReadableEntries.readsToEnd {entries : List Entry} (readable : ReadableEntries entries) :
    ReadsToEnd (entries.flatMap (·.encode) ++ [0xFF]) (entries.map (·.text)) := by
  have read := listpackEntries_entries_iff.mpr ⟨Nat.le_succ entries.length, readable⟩
  apply readsToEnd_of_lt read
  rw [List.length_map]
  exact Nat.lt_succ_self _

/-! ## What the count does -/

/-- The count never drops an entry: what can be read up to the end is returned. -/
def Listpack.Uncounted (l : Listpack) : Prop :=
  ∀ texts, ReadsToEnd l.content texts → parseListpack l.bytes = .ok texts

/-- All entries up to the end marker are returned, whatever the count. -/
structure Listpack.Complete (l : Listpack) : Prop where
  all : parseListpack l.bytes = .ok l.texts
  uncounted : l.Uncounted

/-- Of the entries that can be read up to the end, the first are returned, as many as the count. -/
theorem Listpack.parse_take (l : Listpack) {texts : List Bytes}
    (reads : ReadsToEnd l.content texts) :
    parseListpack l.bytes = .ok (texts.take l.count) := by
  rw [l.parse_eq]
  exact reads.listpackEntries l.count

/-- The count drops entries exactly when more than its number can be read. -/
theorem Listpack.uncounted_iff (l : Listpack) :
    l.Uncounted ↔ ∀ texts, ReadsToEnd l.content texts → texts.length ≤ l.count := by
  refine forall₂_congr fun texts reads => ?_
  rw [l.parse_take reads, Except.ok.injEq, List.take_eq_self_iff]

/-- Of entries that are read back, the count drops some exactly when there are more than 16 bits can
count. -/
lemma Listpack.uncounted_iff_of_readable (l : Listpack) (readable : ReadableEntries l.entries) :
    l.Uncounted ↔ l.entries.length ≤ 65535 := by
  have reads : ReadsToEnd l.content l.texts := readable.readsToEnd
  rw [l.uncounted_iff, ← l.length_le_count_iff, ← List.length_map (f := Entry.text)]
  constructor
  · intro all
    exact all l.texts reads
  · intro le texts reads'
    rw [← reads.unique reads']
    exact le

/-- Of entries that are read back, the first 65535 are returned. -/
theorem Listpack.parse_readable (l : Listpack) (readable : ReadableEntries l.entries) :
    parseListpack l.bytes = .ok (l.texts.take 65535) := by
  rw [l.parse_take readable.readsToEnd, ← texts]
  rcases l.counted with full | ⟨below, eq⟩
  · rw [full]
  · have all : l.texts.length = l.count := by rw [texts, List.length_map, eq]
    rw [List.take_of_length_le (Nat.le_of_eq all), List.take_of_length_le (by omega)]

/-- All entries of a listpack are returned, whatever its count, exactly when there are at most 65535
of them, no negative integer of 13 bits among them, and none but the last has a size at a bound of
the back-length. The count alone drops entries exactly when there are more than 65535. -/
theorem Listpack.complete_iff (l : Listpack) :
    (l.Complete ↔ l.entries.length ≤ 65535 ∧ ReadableEntries l.entries) ∧
      (ReadableEntries l.entries → (l.Uncounted ↔ l.entries.length ≤ 65535)) := by
  refine ⟨⟨fun complete => l.all_iff.mp complete.all, fun h => ?_⟩, l.uncounted_iff_of_readable⟩
  obtain ⟨few, readable⟩ := h
  exact ⟨l.all_iff.mpr ⟨few, readable⟩, (l.uncounted_iff_of_readable readable).mpr few⟩

/-- Many copies of a short entry fit in a listpack. -/
lemma fits_replicate {n : Nat} {e : Entry} (small : n * e.encode.length < 2 ^ 32 - 7) :
    7 + ((List.replicate n e).flatMap (·.encode)).length < 2 ^ 32 := by
  rw [List.flatMap_replicate, List.length_flatten, List.map_replicate, List.sum_replicate_nat]
  omega

/-- The integer 0 in its shortest encoding. -/
def Entry.zero : Entry := .int7 0 (by decide)

/-- 65536 times the integer 0. -/
def zeros : Listpack where
  entries := List.replicate 65536 .zero
  count := 0xFFFF
  counted := .inl rfl
  fits := fits_replicate (by decide)

/-- The sample of many zeros is readable. -/
lemma readable_zeros : ReadableEntries zeros.entries := by
  constructor
  · intro e he
    rw [List.eq_of_mem_replicate he]
    exact id
  · intro e he
    rw [List.eq_of_mem_replicate (List.mem_of_mem_dropLast he)]
    decide

/-- The last of 65536 entries is dropped. -/
theorem complete_fails :
    zeros.count = 0xFFFF ∧ zeros.texts = List.replicate 65536 (ascii "0") ∧
      parseListpack zeros.bytes = .ok (List.replicate 65535 (ascii "0")) ∧ ¬ zeros.Complete := by
  have texts : zeros.texts = List.replicate 65536 (ascii "0") := List.map_replicate
  have read := zeros.parse_readable readable_zeros
  rw [texts, List.take_replicate] at read
  refine ⟨rfl, texts, read, fun complete => ?_⟩
  have length := (zeros.all_iff.mp complete.all).1
  rw [zeros, List.length_replicate] at length
  omega

end Veidrodelis.RedisNif.ListpackFormat
