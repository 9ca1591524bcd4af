import Veidrodelis.RedisNif.Rdb

/-!
# Lengths and strings of the RDB format

How the looks `peek_length_at` and `calculate_string_size` relate to the readers `load_length` and
`load_string`, and that both are stable when the buffer grows. `loadString_eq` is the one statement
about `load_string` that the other modules use: it asks for more until the size it computes is there
and then consumes exactly that size.
-/

namespace Veidrodelis.RedisNif.Rdb
open Incremental

/-! ## Lengths -/

/-- A look at an offset is a look behind it. -/
lemma peekLengthAt_drop (b : Bytes) (i j : Nat) :
    peekLengthAt (b.drop i) j = peekLengthAt b (i + j) := by
  simp [peekLengthAt_eq]

/-- A length that is seen is seen with more input. -/
lemma peekLengthAt_stable (offset : Nat) : Outcome.Stable (peekLengthAt · offset) := by
  intro b x h
  cases e : b.drop offset with
  | nil => simp [peekLengthAt_eq, e] at h
  | cons first tail =>
    simp only [peekLengthAt_eq, e, drop_append_of_cons e] at h ⊢
    split
    · rfl
    · cases tail with
      | nil => simp_all
      | cons second tail => rfl
    · split
      · have long : ¬ tail.length < 4 := by intro short; simp_all
        have long' : ¬ (tail ++ x).length < 4 := by simp only [List.length_append]; omega
        rw [if_neg long, if_neg long', List.take_append_of_le_length (by omega)]
      · split
        · have long : ¬ tail.length < 8 := by intro short; simp_all
          have long' : ¬ (tail ++ x).length < 8 := by simp only [List.length_append]; omega
          rw [if_neg long, if_neg long', List.take_append_of_le_length (by omega)]
        · rfl
    · rfl

/-- The bytes of a length are in the buffer. -/
lemma peekLengthAt_used {b : Bytes} {offset v used : Nat}
    (h : peekLengthAt b offset = .done (v, used)) : 0 < used ∧ offset + used ≤ b.length := by
  cases e : b.drop offset with
  | nil => simp [peekLengthAt_eq, e] at h
  | cons first tail =>
    have len : b.length = offset + tail.length + 1 := by
      have := congrArg List.length e
      simp only [List.length_drop, List.length_cons] at this
      omega
    simp only [peekLengthAt_eq, e] at h
    split at h
    · cases h; omega
    · cases tail with
      | nil => cases h
      | cons second tail => cases h; simp at len; omega
    · split at h
      · split at h
        · cases h
        · cases h; omega
      · split at h
        · split at h
          · cases h
          · cases h; omega
        · cases h
    · cases h

/-- A length is looked at and dropped. -/
lemma loadLength_eq (b : Bytes) :
    loadLength b = match peekLengthAt b 0 with
      | .fault e => .fault e
      | .need => .need b
      | .done (v, used) => .done v (b.drop used) := by
  cases e : peekLengthAt b 0 with
  | fault f => simp [loadLength, Reader.bind_apply, Reader.peek, e]
  | need => simp [loadLength, Reader.bind_apply, Reader.peek, e]
  | done p =>
    obtain ⟨v, used⟩ := p
    have inside := (peekLengthAt_used e).2
    have enough : used ≤ b.length := by omega
    simp [loadLength, Reader.bind_apply, Reader.peek, e, advance_of_le enough]

/-- A length that is seen is read. -/
lemma loadLength_of_peek {b : Bytes} {v used : Nat} (h : peekLengthAt b 0 = .done (v, used)) :
    loadLength b = .done v (b.drop used) := by
  rw [loadLength_eq, h]

/-- A length that is read is read with more input. -/
lemma loadLength_stable : Reader.Stable loadLength := by
  intro b x _
  cases e : peekLengthAt b 0 with
  | fault f =>
    have e' := (peekLengthAt_stable 0).fault e x
    simp [loadLength_eq, e, e']
  | need => simp [loadLength_eq, e]
  | done p =>
    obtain ⟨v, used⟩ := p
    have inside := (peekLengthAt_used e).2
    have e' := (peekLengthAt_stable 0).done e x
    simp only [loadLength_eq, e, e', List.drop_append_of_le_length (show used ≤ b.length by omega)]
    refine ⟨fun a rest h => ?_, fun f h => by cases h⟩
    cases h
    rfl

/-! ## Strings -/

/-- The size at an offset is the size behind it. -/
lemma calculateStringSize_drop (b : Bytes) (i : Nat) :
    calculateStringSize (b.drop i) 0 = calculateStringSize b i := by
  simp [calculateStringSize_eq, peekLengthAt_drop, Nat.add_assoc]

/-- A size that is computed is computed with more input. -/
lemma calculateStringSize_stable (offset : Nat) :
    Outcome.Stable (calculateStringSize · offset) := by
  intro b x h
  cases e : b.drop offset with
  | nil => simp [calculateStringSize_eq, e] at h
  | cons first tail =>
    simp only [calculateStringSize_eq, e, drop_append_of_cons e] at h ⊢
    split
    · rename_i special
      simp only [special, if_true] at h
      split <;> try rfl
      rename_i lzf
      simp only [lzf] at h
      exact Outcome.Stable.bind (peekLengthAt_stable (offset + 1))
        (fun p => Outcome.Stable.bind (peekLengthAt_stable (offset + 1 + p.2))
          fun q => Outcome.stable_const (usizeAdd (1 + p.2 + q.2) p.1)) b x h
    · rename_i plain
      simp only [plain, if_false] at h
      exact Outcome.Stable.bind (peekLengthAt_stable offset)
        (fun p => Outcome.stable_const (usizeAdd p.2 p.1)) b x h

/-- The text of the string at the front of a buffer that holds it whole. -/
def stringText (b : Bytes) : Except Fault Bytes :=
  match b with
  | [] => .ok []
  | first :: tail =>
    if encType first = 3 then
      match (first &&& 0x3F).toNat with
      | 0 => .ok (Bytes.intText (Bytes.signed 1 (Bytes.leNat (tail.take 1))))
      | 1 => .ok (Bytes.intText (Bytes.signed 2 (Bytes.leNat (tail.take 2))))
      | 2 => .ok (Bytes.intText (Bytes.signed 4 (Bytes.leNat (tail.take 4))))
      | 3 =>
        match peekLengthAt b 1 with
        | .done (clen, clenBytes) =>
          match peekLengthAt b (1 + clenBytes) with
          | .done (ulen, ulenBytes) =>
            lzfDecompress ((b.drop (1 + clenBytes + ulenBytes)).take clen) ulen
          | _ => .ok []
        | _ => .ok []
      | _ => .ok []
    else
      match peekLengthAt b 0 with
      | .done (len, lenBytes) => .ok ((b.drop lenBytes).take len)
      | _ => .ok []

/-- A value of the given size, or the fault of its decoding. -/
def readSized (b : Bytes) (size : Nat) (text : Except Fault Bytes) : Reading UInt8 Fault Bytes :=
  if b.length < size then .need b
  else match text with
    | .ok s => .done s (b.drop size)
    | .error e => .fault e

/-- An integer string has the size of its width and one byte. -/
lemma loadIntString_eq (width : Nat) (first : UInt8) (tail : Bytes) :
    loadIntString width (first :: tail) = readSized (first :: tail) (1 + width)
      (.ok (Bytes.intText (Bytes.signed width (Bytes.leNat (tail.take width))))) := by
  by_cases h : (first :: tail).length < 1 + width
  · simp only [loadIntString, readSized, Reader.bind_apply, Reader.ensure, h, if_true]
  · have inside : width ≤ tail.length := by simp only [List.length_cons] at h; omega
    have drop1 : (first :: tail).drop (1 + width) = tail.drop width := by
      rw [Nat.add_comm, List.drop_succ_cons]
    have one : 1 ≤ (first :: tail).length := by simp
    simp only [loadIntString, Reader.bind_apply, Reader.ensure, h, if_false, getIntLe,
      advance_of_le one, List.drop_succ_cons, List.drop_zero,
      splitTo_of_le inside, Reader.pure_apply, readSized, drop1]

/-- A plain string has the size of its length and its bytes. -/
lemma loadRawString_eq (b : Bytes) :
    loadRawString b = match peekLengthAt b 0 with
      | .fault e => .fault e
      | .need => .need b
      | .done (len, lenBytes) =>
        match usizeAdd lenBytes len with
        | .fault e => .fault e
        | .need => .need b
        | .done n => readSized b n (.ok ((b.drop lenBytes).take len)) := by
  cases e : peekLengthAt b 0 with
  | fault f => simp [loadRawString, Reader.bind_apply, Reader.peek, e]
  | need => simp [loadRawString, Reader.bind_apply, Reader.peek, e]
  | done p =>
    obtain ⟨len, lenBytes⟩ := p
    cases a : usizeAdd lenBytes len with
    | fault f => simp [loadRawString, Reader.bind_apply, Reader.peek, checked, e, a]
    | need => exact absurd a (usizeAdd_ne_need _ _)
    | done n =>
      have sum := usizeAdd_done a
      by_cases h : b.length < n
      · simp [loadRawString, readSized, Reader.bind_apply, Reader.peek, checked, Reader.ensure, e,
          a, h]
      · have inside : len ≤ (b.drop lenBytes).length := by simp only [List.length_drop]; omega
        simp only [loadRawString, readSized, Reader.bind_apply, Reader.peek, checked, Reader.ensure,
          e, a, h, if_false, loadLength_of_peek e, splitTo_of_le inside, List.drop_drop, ← sum]

/-- A compressed string has the size of its two lengths and its bytes. -/
lemma loadLzfString_eq (b : Bytes) (ne : b ≠ []) :
    loadLzfString b = match peekLengthAt b 1 with
      | .fault e => .fault e
      | .need => .need b
      | .done (clen, clenBytes) =>
        match peekLengthAt b (1 + clenBytes) with
        | .fault e => .fault e
        | .need => .need b
        | .done (ulen, ulenBytes) =>
          match usizeAdd (1 + clenBytes + ulenBytes) clen with
          | .fault e => .fault e
          | .need => .need b
          | .done n =>
            readSized b n (lzfDecompress
              ((b.drop (1 + clenBytes + ulenBytes)).take clen) ulen) := by
  by_cases two : b.length < 2
  · have single : b.length = 1 := by
      have := List.length_pos_iff.mpr ne
      omega
    have nowhere : peekLengthAt b 1 = .need := by
      simp [peekLengthAt_eq, List.drop_eq_nil_of_le (show b.length ≤ 1 by omega)]
    simp [loadLzfString, Reader.bind_apply, Reader.ensure, two, nowhere]
  · cases e1 : peekLengthAt b 1 with
    | fault f => simp [loadLzfString, Reader.bind_apply, Reader.ensure, Reader.peek, two, e1]
    | need => simp [loadLzfString, Reader.bind_apply, Reader.ensure, Reader.peek, two, e1]
    | done p =>
      obtain ⟨clen, clenBytes⟩ := p
      cases e2 : peekLengthAt b (1 + clenBytes) with
      | fault f => simp [loadLzfString, Reader.bind_apply, Reader.ensure, Reader.peek, two, e1, e2]
      | need => simp [loadLzfString, Reader.bind_apply, Reader.ensure, Reader.peek, two, e1, e2]
      | done q =>
        obtain ⟨ulen, ulenBytes⟩ := q
        cases a : usizeAdd (1 + clenBytes + ulenBytes) clen with
        | fault f =>
          simp [loadLzfString, Reader.bind_apply, Reader.ensure, Reader.peek, checked, two, e1, e2,
            a]
        | need => exact absurd a (usizeAdd_ne_need _ _)
        | done n =>
          have sum := usizeAdd_done a
          by_cases h : b.length < n
          · simp [loadLzfString, readSized, Reader.bind_apply, Reader.ensure, Reader.peek, checked,
              two, e1, e2, a, h]
          · -- the two lengths read again are the ones looked at
            have p1 : peekLengthAt (b.drop 1) 0 = .done (clen, clenBytes) := by
              rw [peekLengthAt_drop]
              exact e1
            have r1 : loadLength (b.drop 1) = .done clen (b.drop (1 + clenBytes)) := by
              rw [loadLength_of_peek p1, List.drop_drop]
            have p2 : peekLengthAt (b.drop (1 + clenBytes)) 0 = .done (ulen, ulenBytes) := by
              rw [peekLengthAt_drop]
              exact e2
            have r2 : loadLength (b.drop (1 + clenBytes))
                = .done ulen (b.drop (1 + clenBytes + ulenBytes)) := by
              rw [loadLength_of_peek p2, List.drop_drop]
            have one : 1 ≤ b.length := by omega
            have inside : clen ≤ (b.drop (1 + clenBytes + ulenBytes)).length := by
              simp only [List.length_drop]
              omega
            simp only [loadLzfString, readSized, Reader.bind_apply, Reader.ensure, Reader.peek,
              checked, two, e1, e2, a, h, if_false, advance_of_le one, unwrap, r1, r2,
              splitTo_of_le inside, List.drop_drop, ← sum, Reader.lift]
            cases lzfDecompress ((b.drop (1 + clenBytes + ulenBytes)).take clen) ulen <;> rfl

/-- The special encodings: integers of three widths, compressed strings, and codes that are not in
use. -/
lemma special_cases {motive : Nat → Prop} (int8 : motive 0) (int16 : motive 1) (int32 : motive 2)
    (lzf : motive 3) (other : ∀ n, motive (n + 4)) (sub : Nat) : motive sub := by
  rcases sub with _ | _ | _ | _ | n
  · exact int8
  · exact int16
  · exact int32
  · exact lzf
  · exact other n

/-- `load_string` asks for more until the size of the string is known and there, and then consumes
exactly that size. -/
theorem loadString_eq (b : Bytes) :
    loadString b = match calculateStringSize b 0 with
      | .fault e => .fault e
      | .need => .need b
      | .done n => readSized b n (stringText b) := by
  cases b with
  | nil => rfl
  | cons first tail =>
    simp only [loadString_cons, calculateStringSize_eq, stringText, List.drop_zero]
    split
    · generalize (first &&& 0x3F).toNat = sub
      cases sub using special_cases with
      | int8 => exact loadIntString_eq 1 first tail
      | int16 => exact loadIntString_eq 2 first tail
      | int32 => exact loadIntString_eq 4 first tail
      | lzf =>
        show loadLzfString (first :: tail) = _
        rw [loadLzfString_eq _ (by simp)]
        simp only [Nat.zero_add]
        cases e1 : peekLengthAt (first :: tail) 1 with
        | fault f => rfl
        | need => rfl
        | done p =>
          simp only [Outcome.done_bind]
          cases e2 : peekLengthAt (first :: tail) (1 + p.2) with
          | fault f => rfl
          | need => rfl
          | done q => simp only [Outcome.done_bind]
      | other n => rfl
    · rw [loadRawString_eq]
      cases e : peekLengthAt (first :: tail) 0 with
      | fault f => rfl
      | need => rfl
      | done p => simp only [Outcome.done_bind]

/-- A string takes at least one byte. -/
lemma calculateStringSize_pos {b : Bytes} {offset n : Nat}
    (h : calculateStringSize b offset = .done n) : 0 < n := by
  rw [calculateStringSize_eq] at h
  split at h
  · cases h
  · split at h
    · split at h
      · cases h
        decide
      · cases h
        decide
      · cases h
        decide
      · obtain ⟨p, -, h⟩ := Outcome.bind_eq_done.mp h
        obtain ⟨q, -, h⟩ := Outcome.bind_eq_done.mp h
        have := usizeAdd_done h
        omega
      · cases h
    · obtain ⟨⟨v, used⟩, hp, h⟩ := Outcome.bind_eq_done.mp h
      have := usizeAdd_done h
      have := (peekLengthAt_used hp).1
      omega

/-- The text of a string that is there does not depend on what stands behind it. -/
lemma stringText_append {b : Bytes} {n : Nat} (h : calculateStringSize b 0 = .done n)
    (inside : n ≤ b.length) (x : Bytes) : stringText (b ++ x) = stringText b := by
  cases b with
  | nil => simp [calculateStringSize_eq] at h
  | cons first tail =>
    simp only [calculateStringSize_eq, List.drop_zero] at h
    simp only [stringText, List.cons_append]
    split at h
    · rename_i special
      simp only [special, if_true]
      -- the bytes of the integer are all there
      have short (width : Nat) (fits : 1 + width ≤ (first :: tail).length) :
          (tail ++ x).take width = tail.take width := by
        rw [List.take_append_of_le_length (by simp only [List.length_cons] at fits; omega)]
      generalize (first &&& 0x3F).toNat = sub at h ⊢
      cases sub using special_cases with
      | int8 =>
        cases h
        simp only [short 1 inside]
      | int16 =>
        cases h
        simp only [short 2 inside]
      | int32 =>
        cases h
        simp only [short 4 inside]
      | lzf =>
        obtain ⟨⟨clen, clenBytes⟩, e1, h⟩ := Outcome.bind_eq_done.mp h
        obtain ⟨⟨ulen, ulenBytes⟩, e2, h⟩ := Outcome.bind_eq_done.mp h
        have sum := usizeAdd_done h
        simp only [Nat.zero_add] at e1 e2
        simp only
        rw [← List.cons_append, (peekLengthAt_stable 1).done e1 x, e1]
        simp only
        rw [(peekLengthAt_stable (1 + clenBytes)).done e2 x, e2]
        simp only
        rw [take_drop_append (by omega)]
      | other n => cases h
    · rename_i plain
      simp only [plain, if_false]
      obtain ⟨⟨len, lenBytes⟩, e, h⟩ := Outcome.bind_eq_done.mp h
      have sum := usizeAdd_done h
      rw [← List.cons_append, (peekLengthAt_stable 0).done e x, e]
      simp only
      rw [take_drop_append (by omega)]

/-- A string that is read is read with more input. -/
lemma loadString_stable : Reader.Stable loadString := by
  intro b x _
  cases e : calculateStringSize b 0 with
  | fault f =>
    have e' := (calculateStringSize_stable 0).fault e x
    simp [loadString_eq, e, e']
  | need => simp [loadString_eq, e]
  | done n =>
    have e' := (calculateStringSize_stable 0).done e x
    by_cases short : b.length < n
    · simp [loadString_eq, e, readSized, short]
    · have long : ¬ (b ++ x).length < n := by simp only [List.length_append]; omega
      simp only [loadString_eq, e, e', readSized, short, long, if_false,
        stringText_append e (by omega) x]
      cases stringText b with
      | error f => simp
      | ok s => simp [List.drop_append_of_le_length (show n ≤ b.length by omega)]

/-- Reading a string fits the size computed for it. -/
lemma loadString_fits : Reader.Fits (calculateStringSize · 0) loadString := by
  intro b n h inside
  have long : ¬ b.length < n := by omega
  simp only [loadString_eq, h, readSized, long, if_false]
  cases stringText b with
  | error e => exact .inl ⟨e, rfl⟩
  | ok s => exact .inr ⟨s, rfl⟩

/-- A string that was read was at the front of the buffer with the size computed for it. -/
lemma loadString_done {b rest s : Bytes} (h : loadString b = .done s rest) :
    ∃ n, calculateStringSize b 0 = .done n ∧ 0 < n ∧ n ≤ b.length ∧ rest = b.drop n := by
  rw [loadString_eq] at h
  cases e : calculateStringSize b 0 with
  | fault f => simp [e] at h
  | need => simp [e] at h
  | done n =>
    simp only [e, readSized] at h
    split at h
    · cases h
    · rename_i long
      split at h
      · cases h
        exact ⟨n, rfl, calculateStringSize_pos e, by omega, rfl⟩
      · cases h

/-- A string that is not there yet is left in the buffer. -/
lemma loadString_need {b rest : Bytes} (h : loadString b = .need rest) : rest = b := by
  rw [loadString_eq] at h
  cases e : calculateStringSize b 0 with
  | fault f => simp [e] at h
  | need => simp only [e, Reading.need.injEq] at h; exact h.symm
  | done n =>
    simp only [e, readSized] at h
    split at h
    · cases h; rfl
    · split at h <;> cases h

end Veidrodelis.RedisNif.Rdb
