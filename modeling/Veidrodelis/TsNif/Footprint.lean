import Veidrodelis.TsNif.WriteCommands

/-!
# Where operations write

An operation is within some keys of a database if nothing else changes (`Op.Within`).
-/

namespace Veidrodelis.TsNif
open RedisNif (Fault)
open RedisStream (Command)

/-- Nothing changes but what is bound to some keys of a database. -/
def Op.Within (op : Op) (db : Nat) (keys : List Bytes) : Prop :=
  ∀ s d key, (d = db → key ∉ keys) → (op s).1.lookup d key = s.lookup d key

namespace Op.Within

variable {db : Nat}

/-- What stays within some keys stays within more. -/
lemma mono {op : Op} {keys keys' : List Bytes} (h : op.Within db keys) (sub : keys ⊆ keys') :
    op.Within db keys' :=
  fun s d key outside => h s d key fun same mem => outside same (sub mem)

/-- An operation that does nothing stays within any keys. -/
lemma idle {r : Except Fault Unit} {keys : List Bytes} : Op.Within (fun s => (s, r)) db keys :=
  fun _ _ _ _ => rfl

/-- An operation stays within keys if it does for every argument that decodes. -/
lemma decoded {α : Type} {arg : Option α} {msg : String} {op : α → Op} {keys : List Bytes}
    (h : ∀ a, (op a).Within db keys) : (decoded arg msg op).Within db keys := by
  cases arg with
  | none => exact idle
  | some a => exact h a

/-- An operation on a slot stays within its key. -/
lemma atKey (key : Bytes) (op : SlotOp) : (atKey db key op).Within db [key] := by
  intro s d key' outside
  show (s.store db key _).lookup d key' = _
  rw [StorageInner.lookup_store, if_neg]
  rintro ⟨rfl, rfl⟩
  exact outside rfl (List.mem_singleton_self _)

end Op.Within

/-! ## Binding -/

section
variable {s : StorageInner} {db d : Nat} {key : Bytes}

/-- To put a value changes no other key. -/
lemma put_outside {at_ : Bytes} (value : StorageValue) (outside : d = db → key ≠ at_) :
    (s.put db at_ value).lookup d key = s.lookup d key := by
  rw [StorageInner.lookup_put, if_neg]
  rintro ⟨rfl, rfl⟩
  exact outside rfl rfl

/-- To delete a key changes no other key. -/
lemma del_outside {at_ : Bytes} (outside : d = db → key ≠ at_) :
    (s.del db at_).lookup d key = s.lookup d key := by
  rw [StorageInner.lookup_del, if_neg]
  rintro ⟨rfl, rfl⟩
  exact outside rfl rfl

/-- To store a slot changes no other key. -/
lemma store_outside {at_ : Bytes} (slot : Slot) (outside : d = db → key ≠ at_) :
    (s.store db at_ slot).lookup d key = s.lookup d key := by
  cases slot with
  | none => exact del_outside outside
  | some value => exact put_outside value outside

end

/-! ## Commands on several keys -/

/-- `SET` stays within its key. -/
lemma set_within (db : Nat) (key value : Bytes) : (set db key value).Within db [key] := by
  intro s d key' outside
  apply put_outside
  exact fun same => List.ne_of_not_mem_cons (outside same)

/-- `MSET` stays within its keys. -/
lemma mset_within (db : Nat) (pairs : List (Bytes × Bytes)) :
    (mset db pairs).Within db (pairs.map (·.1)) := by
  intro s d key outside
  unfold mset
  simp only
  induction pairs generalizing s with
  | nil => rfl
  | cons pair rest ih =>
    rw [List.foldl_cons, ih]
    · apply put_outside
      exact fun same => List.ne_of_not_mem_cons (outside same)
    · exact fun same => List.not_mem_of_not_mem_cons (outside same)

/-- `DEL` and `UNLINK` stay within their keys. -/
lemma delAll_within (db : Nat) (keys : List Bytes) : (delAll db keys).Within db keys := by
  intro s d key outside
  unfold delAll
  simp only
  induction keys generalizing s with
  | nil => rfl
  | cons at_ rest ih =>
    rw [List.foldl_cons, ih]
    · apply del_outside
      exact fun same => List.ne_of_not_mem_cons (outside same)
    · exact fun same => List.not_mem_of_not_mem_cons (outside same)

/-- A key that is neither of two. -/
lemma ne_of_not_mem_pair {key key1 key2 : Bytes} (h : key ∉ [key1, key2]) :
    key ≠ key1 ∧ key ≠ key2 := by
  constructor
  · exact List.ne_of_not_mem_cons h
  · exact List.ne_of_not_mem_cons (List.not_mem_of_not_mem_cons h)

/-- `RENAME` stays within its two keys. -/
lemma rename_within (db : Nat) (oldKey newKey : Bytes) :
    (rename db oldKey newKey).Within db [oldKey, newKey] := by
  intro s d key outside
  unfold rename
  cases s.lookup db oldKey with
  | none => rfl
  | some value =>
    simp only
    rw [put_outside value fun same => (ne_of_not_mem_pair (outside same)).2,
      del_outside fun same => (ne_of_not_mem_pair (outside same)).1]

/-- `RENAMENX` stays within its two keys. -/
lemma renamenx_within (db : Nat) (oldKey newKey : Bytes) :
    (renamenx db oldKey newKey).Within db [oldKey, newKey] := by
  intro s d key outside
  unfold renamenx
  split
  · rfl
  · exact rename_within db oldKey newKey s d key outside

/-- `MOVE` writes in two databases. -/
lemma moveKey_outside {s : StorageInner} {sourceDb destDb d : Nat} {at_ key : Bytes}
    (source : d = sourceDb → key ≠ at_) (dest : d = destDb → key ≠ at_) :
    (moveKey sourceDb destDb at_ s).1.lookup d key = s.lookup d key := by
  unfold moveKey
  cases s.lookup sourceDb at_ with
  | none => rfl
  | some value =>
    simp only
    rw [put_outside value dest, del_outside source]

/-- `COPY` stays within its two keys. -/
lemma copyKey_within (db : Nat) (source destination : Bytes) (replace : Bool) :
    (copyKey db source destination replace).Within db [source, destination] := by
  intro s d key outside
  unfold copyKey
  split
  · rfl
  · cases s.lookup db source with
    | none => rfl
    | some value => exact put_outside _ fun same => (ne_of_not_mem_pair (outside same)).2

/-- `FLUSHDB` changes no other database. -/
lemma flushdb_outside {s : StorageInner} {db d : Nat} (other : d ≠ db) (key : Bytes) :
    (flushdb db s).1.lookup d key = s.lookup d key := by
  rw [lookup_flushdb, if_neg other]

/-- `SWAPDB` changes no other database. -/
lemma swapdb_outside {s : StorageInner} {db1 db2 d : Nat} (first : d ≠ db1) (second : d ≠ db2)
    (key : Bytes) : (swapdb db1 db2 s).1.lookup d key = s.lookup d key := by
  rw [lookup_swapdb, if_neg first, if_neg second]

/-- `LMOVE` and `RPOPLPUSH` stay within their two keys. -/
lemma lmove_within (db : Nat) (source destination : Bytes) (wherefrom whereto : Side) :
    (lmove db source destination wherefrom whereto).Within db [source, destination] := by
  intro s d key outside
  unfold lmove
  split
  · exact (Op.Within.atKey source _).mono (by simp) s d key outside
  · split
    · rfl
    · split
      · rfl
      · rw [(Op.Within.atKey destination _).mono (by simp) _ d key outside]
        exact store_outside _ fun same => (ne_of_not_mem_pair (outside same)).1
    · rfl

/-- `SMOVE` stays within its two keys. -/
lemma smove_within (db : Nat) (source destination member : Bytes) :
    (smove db source destination member).Within db [source, destination] := by
  intro s d key outside
  unfold smove
  split
  · rfl
  · split
    · rw [(Op.Within.atKey destination _).mono (by simp) _ d key outside]
      exact store_outside _ fun same => (ne_of_not_mem_pair (outside same)).1
    · rfl
  · rfl

/-- A command that stores stays within its destination. -/
lemma storeResult_within {α : Type} (c : Container α) (db : Nat) (destination : Bytes)
    (compute : StorageInner → Except Fault α) :
    (storeResult c db destination compute).Within db [destination] := by
  intro s d key outside
  have other : d = db → key ≠ destination := fun same => List.ne_of_not_mem_cons (outside same)
  unfold storeResult
  simp only
  cases compute (s.del db destination) with
  | error fault => exact del_outside other
  | ok a =>
    simp only
    split
    · exact del_outside other
    · rw [put_outside _ other, del_outside other]

end Veidrodelis.TsNif
