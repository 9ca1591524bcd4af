import Veidrodelis.RedisNif.RdbSkip
import Veidrodelis.RedisNif.Switch

/-!
# Panics of the parsers

The operations of both parsers on their bytes (`index`, `slice`, `Cut.advance`, `Cut.splitTo`,
`usizeSub`) panic out of range. Here none of them does, in the readers of values, listpacks and
intsets as in the replica parser; the only panics are those of the sizes that are computed and
allocated. `neverPanics_iff`: the calls with any chunks return, and do not panic, exactly when no
round declares more than 64 bits (a size added up from declared lengths) or than a `Vec` can hold
(the text of a compressed string): `Rdb.TooLarge`, `ReplicaParser.TooLarge`. What `lzf_decompress`
does in memory is in `LzfMemory`.
-/

namespace Veidrodelis.RedisNif
open Incremental

namespace Rdb

/-! ## Declared sizes -/

/-- How many bytes the string at `offset` declares to take. -/
def declaredSize (b : Bytes) (offset : Nat) : Option Nat :=
  match b.drop offset with
  | [] => none
  | first :: _ =>
    if encType first = 3 then
      match (first &&& 0x3F).toNat with
      | 0 => some 2
      | 1 => some 3
      | 2 => some 5
      | 3 =>
        match peekLengthAt b (offset + 1) with
        | .done (clen, clenBytes) =>
          match peekLengthAt b (offset + 1 + clenBytes) with
          | .done (_, ulenBytes) => some (1 + clenBytes + ulenBytes + clen)
          | _ => none
        | _ => none
      | _ => none
    else
      match peekLengthAt b offset with
      | .done (len, lenBytes) => some (lenBytes + len)
      | _ => none

/-- How many bytes the compressed string at `offset` declares to unpack to. -/
def unpackedSize (b : Bytes) (offset : Nat) : Option Nat :=
  match b.drop offset with
  | [] => none
  | first :: _ =>
    if encType first = 3 ∧ (first &&& 0x3F).toNat = 3 then
      match peekLengthAt b (offset + 1) with
      | .done (_, clenBytes) =>
        match peekLengthAt b (offset + 1 + clenBytes) with
        | .done (ulen, _) => some ulen
        | _ => none
      | _ => none
    else none

/-- A part of a value: a string, a number of fixed width, or the byte in front of a list node. -/
inductive Piece where
  | string
  | fixed (width : Nat)
  | container

/-- Where a piece ends. -/
def Piece.endAt (b : Bytes) : Piece → Nat → Option Nat
  | .string, offset => (declaredSize b offset).map (offset + ·)
  | .fixed width, offset => some (offset + width)
  | .container, offset => if offset < b.length then some (offset + 1) else none

/-- Where the last of the pieces ends. -/
def endOfPieces (b : Bytes) : List Piece → Nat → Option Nat
  | [], offset => some offset
  | p :: ps, offset => (p.endAt b offset).bind (endOfPieces b ps)

/-- One of the pieces ends beyond the 64-bit range. -/
def Overruns (b : Bytes) : List Piece → Nat → Prop
  | [], _ => False
  | p :: ps, offset => ∃ e, p.endAt b offset = some e ∧ (usizeSize ≤ e ∨ Overruns b ps e)

/-- Behind strings that can be read and used, one declares to unpack to more than a `Vec` can
hold. -/
def Unpacks (b : Bytes) (usable : Bytes → Prop) : List Piece → Nat → Prop
  | [], _ => False
  | .string :: ps, offset =>
    (∃ ulen, unpackedSize b offset = some ulen ∧ isizeMax < ulen) ∨
      ∃ e text, Piece.string.endAt b offset = some e ∧ stringText (b.drop offset) = .ok text ∧
        usable text ∧ Unpacks b usable ps e
  | p :: ps, offset => ∃ e, p.endAt b offset = some e ∧ Unpacks b usable ps e

/-- The pieces at `offset` declare too much: more than 64 bits, or, when they are all there, more
than a `Vec` can hold. -/
def DeclaresTooMuch (b : Bytes) (usable : Bytes → Prop) (pieces : List Piece) (offset : Nat) :
    Prop :=
  Overruns b pieces offset ∨
    ∃ e, endOfPieces b pieces offset = some e ∧ e ≤ b.length ∧ Unpacks b usable pieces offset

/-! ## The size of a string -/

/-- A look at a length never panics. -/
lemma peekLengthAt_fault {b : Bytes} {offset : Nat} {f : Fault}
    (h : peekLengthAt b offset = .fault f) : ¬ f.IsPanic := by
  rw [peekLengthAt_eq] at h
  repeat' split at h
  all_goals cases h
  all_goals exact id

/-- The computation of the size of a string stops early, without a panic. -/
def Stops {α : Type} (o : Outcome Fault α) : Prop := o = .need ∨ ∃ f, o = .fault f ∧ ¬ f.IsPanic

/-- The computation of a size that is `declared` to be a number answers with what is made of the
number, or panics when it has more than 64 bits. -/
def Answers {α : Type} (make : Nat → α) : Option Nat → Outcome Fault α → Prop
  | some n, o =>
    o = if n < usizeSize then .done (make n) else .fault (.panic "attempt to add with overflow")
  | none, o => Stops o

/-- The size of a string is the one it declares, or a panic above 64 bits. -/
lemma calculateStringSize_answers (b : Bytes) (offset : Nat) :
    Answers id (declaredSize b offset) (calculateStringSize b offset) := by
  rw [declaredSize, calculateStringSize_eq]
  cases b.drop offset with
  | nil => exact .inl rfl
  | cons first tail =>
    dsimp only
    by_cases special : encType first = 3
    · simp only [special, if_true]
      generalize (first &&& 0x3F).toNat = sub
      cases sub using special_cases with
      | int8 => rfl
      | int16 => rfl
      | int32 => rfl
      | lzf =>
        cases e1 : peekLengthAt b (offset + 1) with
        | fault f => exact .inr ⟨f, rfl, peekLengthAt_fault e1⟩
        | need => exact .inl rfl
        | done p =>
          obtain ⟨clen, clenBytes⟩ := p
          simp only [Outcome.done_bind]
          cases e2 : peekLengthAt b (offset + 1 + clenBytes) with
          | fault f => exact .inr ⟨f, rfl, peekLengthAt_fault e2⟩
          | need => exact .inl rfl
          | done q => rfl
      | other n => exact .inl rfl
    · simp only [special, if_false]
      cases e : peekLengthAt b offset with
      | fault f => exact .inr ⟨f, rfl, peekLengthAt_fault e⟩
      | need => exact .inl rfl
      | done p => rfl

/-- Reading the text of a string panics when it declares to unpack to too much. -/
lemma stringText_panics {b : Bytes} {n : Nat} (h : declaredSize b 0 = some n) :
    (∃ f, stringText b = .error f ∧ f.IsPanic) ↔ ∃ ulen, unpackedSize b 0 = some ulen ∧
      isizeMax < ulen := by
  have lzf (compressed : Bytes) (ulen : Nat) :
      (∃ f, lzfDecompress compressed ulen = .error f ∧ f.IsPanic) ↔ isizeMax < ulen := by
    unfold lzfDecompress
    by_cases large : isizeMax < ulen
    · simp [large, Fault.IsPanic]
    · simp only [large, if_false, iff_false]
      rintro ⟨f, e, panic⟩
      repeat' split at e
      all_goals cases e
      all_goals exact panic
  unfold declaredSize at h
  unfold stringText unpackedSize
  rw [List.drop_zero] at h ⊢
  cases b with
  | nil => cases h
  | cons first tail =>
    dsimp only at h ⊢
    by_cases special : encType first = 3
    · simp only [special, if_true, true_and] at h ⊢
      generalize (first &&& 0x3F).toNat = sub at h ⊢
      cases sub using special_cases with
      | int8 => simp
      | int16 => simp
      | int32 => simp
      | lzf =>
        simp only [Nat.zero_add, if_true] at h ⊢
        cases e1 : peekLengthAt (first :: tail) 1 with
        | fault f => rw [e1] at h; cases h
        | need => rw [e1] at h; cases h
        | done p =>
          obtain ⟨clen, clenBytes⟩ := p
          rw [e1] at h
          dsimp only at h ⊢
          cases e2 : peekLengthAt (first :: tail) (1 + clenBytes) with
          | fault f => rw [e2] at h; cases h
          | need => rw [e2] at h; cases h
          | done q => simp [lzf]
      | other n => cases h
    · simp only [special, if_false, false_and] at h ⊢
      cases e : peekLengthAt (first :: tail) 0 with
      | fault f => rw [e] at h; cases h
      | need => rw [e] at h; cases h
      | done p => simp

/-- The declared size at an offset is that at the front behind it. -/
lemma declaredSize_drop (b : Bytes) (i : Nat) : declaredSize (b.drop i) 0 = declaredSize b i := by
  simp [declaredSize, peekLengthAt_drop, Nat.add_assoc]

/-- The unpacked size at an offset is that at the front behind it. -/
lemma unpackedSize_drop (b : Bytes) (i : Nat) : unpackedSize (b.drop i) 0 = unpackedSize b i := by
  simp [unpackedSize, peekLengthAt_drop, Nat.add_assoc]

/-! ## The size of a value -/

/-- The size loops, piece by piece. -/
def growPiece (b : Bytes) : Piece → Nat × Nat → Outcome Fault (Nat × Nat)
  | .string, acc => growString b acc
  | .fixed width, acc => grow acc width
  | .container, acc => if acc.2 < b.length then grow acc 1 else .need

def growPieces (b : Bytes) : List Piece → Nat × Nat → Outcome Fault (Nat × Nat)
  | [], acc => .done acc
  | p :: ps, acc => growPiece b p acc >>= growPieces b ps

/-- The size loop goes on with the second part of the pieces. -/
lemma growPieces_append (b : Bytes) (ps qs : List Piece) (acc : Nat × Nat) :
    growPieces b (ps ++ qs) acc = growPieces b ps acc >>= growPieces b qs := by
  induction ps generalizing acc with
  | nil => rfl
  | cons p ps ih =>
    simp only [List.cons_append, growPieces]
    cases growPiece b p acc with
    | fault f => rfl
    | need => rfl
    | done acc => exact ih acc

/-- Growing by an entry many times is growing by all its pieces. -/
lemma growTimes_pieces {b : Bytes} {entry : Nat × Nat → Outcome Fault (Nat × Nat)}
    {pieces : List Piece} (h : ∀ acc, entry acc = growPieces b pieces acc) (n : Nat)
    (acc : Nat × Nat) :
    growTimes entry n acc = growPieces b (List.replicate n pieces).flatten acc := by
  induction n generalizing acc with
  | zero => rfl
  | succ n ih =>
    rw [growTimes, List.replicate_succ, List.flatten_cons, growPieces_append, h]
    cases growPieces b pieces acc with
    | fault f => rfl
    | need => rfl
    | done acc => exact ih acc

/-- A size grows, or panics when it leaves the 64-bit range. -/
lemma grow_eq (c n : Nat) :
    grow (c, c) n = if c + n < usizeSize then .done (c + n, c + n)
      else .fault (.panic "attempt to add with overflow") := by
  unfold grow usizeAdd
  split <;> rfl

/-- The size loop moves to where a piece ends, or panics above 64 bits. -/
lemma growPiece_answers (b : Bytes) (p : Piece) (offset : Nat) :
    Answers (fun e => (e, e)) (p.endAt b offset) (growPiece b p (offset, offset)) := by
  cases p with
  | string =>
    have size := calculateStringSize_answers b offset
    rw [Piece.endAt, growPiece, growString]
    cases d : declaredSize b offset with
    | none =>
      rw [d] at size
      rcases size with need | ⟨f, fault, quiet⟩
      · exact .inl (by simp only [need, Outcome.need_bind])
      · exact .inr ⟨f, by simp only [fault, Outcome.fault_bind], quiet⟩
    | some n =>
      rw [d] at size
      have here : calculateStringSize b offset =
        if n < usizeSize then .done n else .fault (.panic "attempt to add with overflow") := size
      rw [Option.map_some, Answers, here]
      by_cases small : n < usizeSize
      · rw [if_pos small, Outcome.done_bind, grow_eq]
      · have large : ¬ offset + n < usizeSize := by omega
        rw [if_neg small, if_neg large, Outcome.fault_bind]
  | fixed width => exact grow_eq offset width
  | container =>
    rw [Piece.endAt, growPiece]
    by_cases inside : offset < b.length
    · rw [if_pos inside, if_pos inside]
      exact grow_eq offset 1
    · rw [if_neg inside, if_neg inside]
      exact .inl rfl

/-- The size loop panics when a piece ends beyond the 64-bit range. -/
lemma growPieces_panics {b : Bytes} {pieces : List Piece} {offset : Nat} :
    (∃ f, growPieces b pieces (offset, offset) = .fault f ∧ f.IsPanic) ↔
      Overruns b pieces offset := by
  induction pieces generalizing offset with
  | nil => simp [growPieces, Overruns]
  | cons p ps ih =>
    have one := growPiece_answers b p offset
    rw [growPieces, Overruns]
    cases e : p.endAt b offset with
    | none =>
      rw [e] at one
      rcases one with need | ⟨f, fault, quiet⟩
      · simp [need]
      · simp [fault, quiet]
    | some n =>
      rw [e] at one
      rw [Answers] at one
      rw [one]
      by_cases small : n < usizeSize
      · simp [small, ih]
      · simp [small, Fault.IsPanic, Nat.le_of_not_lt small]

/-- A size loop that ends is where the last piece ends. -/
lemma growPieces_done {b : Bytes} {pieces : List Piece} {offset : Nat} {acc : Nat × Nat}
    (h : growPieces b pieces (offset, offset) = .done acc) :
    ∃ e, acc = (e, e) ∧ endOfPieces b pieces offset = some e := by
  induction pieces generalizing offset with
  | nil =>
    cases h
    exact ⟨offset, rfl, rfl⟩
  | cons p ps ih =>
    have one := growPiece_answers b p offset
    rw [growPieces] at h
    cases e : p.endAt b offset with
    | none =>
      rw [e] at one
      rcases one with need | ⟨f, fault, -⟩
      · rw [need] at h; cases h
      · rw [fault] at h; cases h
    | some n =>
      rw [e] at one
      rw [Answers] at one
      rw [one] at h
      by_cases small : n < usizeSize
      · rw [if_pos small, Outcome.done_bind] at h
        obtain ⟨last, rfl, ends⟩ := ih h
        exact ⟨last, rfl, by rw [endOfPieces, e, Option.bind_some, ends]⟩
      · rw [if_neg small] at h; cases h

/-- A value that ends in time is sized. -/
lemma growPieces_of_end {b : Bytes} {pieces : List Piece} {offset e : Nat}
    (ends : endOfPieces b pieces offset = some e) (fits : ¬ Overruns b pieces offset) :
    growPieces b pieces (offset, offset) = .done (e, e) := by
  induction pieces generalizing offset with
  | nil =>
    cases ends
    rfl
  | cons p ps ih =>
    have one := growPiece_answers b p offset
    rw [endOfPieces] at ends
    obtain ⟨n, here, later⟩ := Option.bind_eq_some_iff.mp ends
    rw [here] at one
    rw [Answers] at one
    have small : n < usizeSize := by
      by_contra large
      exact fits ⟨n, here, .inl (not_lt.mp large)⟩
    rw [growPieces, one, if_pos small, Outcome.done_bind]
    exact ih later fun large => fits ⟨n, here, .inr large⟩

/-- Pieces that are not sized, although none of them overruns, have no end yet. -/
lemma endOfPieces_eq_none {b : Bytes} {pieces : List Piece} {offset : Nat}
    (fits : ¬ Overruns b pieces offset)
    (stuck : ∀ acc, growPieces b pieces (offset, offset) ≠ .done acc) :
    endOfPieces b pieces offset = none := by
  cases e : endOfPieces b pieces offset with
  | none => rfl
  | some e' => exact absurd (growPieces_of_end e fits) (stuck _)

/-! ## Computations that do not panic -/

/-- A computation that does not panic. -/
def Quiet {α : Type} (r : Except Fault α) : Prop := ∀ f, r = .error f → ¬ f.IsPanic

/-- A value is no panic. -/
lemma quiet_ok {α : Type} (a : α) : Quiet (.ok a) := fun _ h => by cases h

/-- An error with a message is no panic. -/
lemma quiet_err {α : Type} (msg : String) : Quiet (.error (.err msg) : Except Fault α) := by
  intro f h
  cases h
  exact id

/-- A choice between computations that do not panic does not panic. -/
lemma quiet_ite {α : Type} {c : Prop} [Decidable c] {r s : Except Fault α} (hr : Quiet r)
    (hs : Quiet s) : Quiet (if c then r else s) := by
  split
  · exact hr
  · exact hs

/-- A sequence of computations that do not panic does not panic. -/
lemma quiet_bind {α β : Type} {r : Except Fault α} {k : α → Except Fault β} (hr : Quiet r)
    (hk : ∀ a, Quiet (k a)) : Quiet (r >>= k) := by
  cases r with
  | ok a => exact hk a
  | error f =>
    rintro g h
    cases h
    exact hr f rfl

/-! ## Loading a value -/

/-- The reader panics exactly where one of the pieces unpacks to too much, provided that they are
all there. -/
def Follows {α : Type} (usable : Bytes → Prop) (m : Load α) (pieces : List Piece) : Prop :=
  ∀ b offset e, endOfPieces b pieces offset = some e → e ≤ b.length → ¬ Overruns b pieces offset →
    ((∃ f, m (b.drop offset) = .fault f ∧ f.IsPanic) ↔ Unpacks b usable pieces offset)

/-- Reading the pieces first and going on behind them. -/
def Leads {α : Type} (usable : Bytes → Prop) (m : Load α) (pieces : List Piece) : Prop :=
  ∀ (β : Type) (k : α → Load β) (ps : List Piece), (∀ a, Follows usable (k a) ps) →
    Follows usable (m >>= k) (pieces ++ ps)

variable {α β : Type} {usable : Bytes → Prop}

/-- A reader that never panics follows no pieces. -/
lemma follows_quiet {m : Load α} (quiet : ∀ b f, m b = .fault f → ¬ f.IsPanic) :
    Follows usable m [] := by
  intro b offset e _ _ _
  simp only [Unpacks, iff_false]
  rintro ⟨f, fault, panic⟩
  exact quiet _ f fault panic

/-- A reader of some pieces and one of the pieces behind them. -/
lemma Leads.bind {m : Load α} {n : α → Load β} {ps qs : List Piece} (hm : Leads usable m ps)
    (hn : ∀ a, Leads usable (n a) qs) : Leads usable (m >>= n) (ps ++ qs) := by
  intro γ k rest hk
  rw [Reader.bind_assoc, List.append_assoc]
  exact hm γ _ _ fun a => hn a γ k rest hk

/-- A value is read from no pieces. -/
lemma leads_pure (a : α) : Leads usable (pure a) [] := fun _ _ _ hk => hk a

/-- `Leads` from `Follows`, for the pieces of one entry after the other. -/
lemma Leads.times {m : Load α} {entry : List Piece} (hm : Leads usable m entry) (n : Nat) :
    Leads usable (Reader.times n m) (List.replicate n entry).flatten := by
  induction n with
  | zero => exact leads_pure []
  | succ n ih =>
    rw [Reader.times, List.replicate_succ, List.flatten_cons]
    refine hm.bind fun a => ?_
    rw [← List.append_nil (List.replicate n entry).flatten]
    exact ih.bind fun as => leads_pure _

/-- What comes behind the pieces adds no panic. -/
lemma Leads.follows {m : Load α} {k : α → Load β} {ps : List Piece} (hm : Leads usable m ps)
    (quiet : ∀ a b f, k a b = .fault f → ¬ f.IsPanic) : Follows usable (m >>= k) ps := by
  rw [← List.append_nil ps]
  exact hm β k [] fun a => follows_quiet (quiet a)

/-- A piece ends behind its start. -/
lemma le_endAt {b : Bytes} {p : Piece} {offset n : Nat} (h : p.endAt b offset = some n) :
    offset ≤ n := by
  cases p with
  | string =>
    obtain ⟨size, -, rfl⟩ :=
      Option.map_eq_some_iff.mp (show (declaredSize b offset).map _ = _ from h)
    exact Nat.le_add_right _ _
  | fixed width =>
    obtain rfl : offset + width = n := Option.some.inj h
    exact Nat.le_add_right _ _
  | container =>
    rw [Piece.endAt] at h
    split at h
    · cases h
      exact Nat.le_succ _
    · cases h

/-- The last piece ends behind the first one's start. -/
lemma le_endOfPieces {b : Bytes} {pieces : List Piece} {offset e : Nat}
    (h : endOfPieces b pieces offset = some e) : offset ≤ e := by
  induction pieces generalizing offset with
  | nil =>
    cases h
    exact le_refl _
  | cons p ps ih =>
    obtain ⟨n, here, later⟩ := Option.bind_eq_some_iff.mp h
    exact (le_endAt here).trans (ih later)

/-- Going over one piece: where it ends, and what is known of the pieces behind it. -/
lemma pieces_cons {b : Bytes} {p : Piece} {ps : List Piece} {offset e : Nat}
    (ends : endOfPieces b (p :: ps) offset = some e) (fits : ¬ Overruns b (p :: ps) offset) :
    ∃ n, p.endAt b offset = some n ∧ n ≤ e ∧ n < usizeSize ∧ endOfPieces b ps n = some e ∧
      ¬ Overruns b ps n := by
  obtain ⟨n, here, later⟩ := Option.bind_eq_some_iff.mp ends
  refine ⟨n, here, le_endOfPieces later, ?_, later, fun large => fits ⟨n, here, .inr large⟩⟩
  by_contra large
  exact fits ⟨n, here, .inl (not_lt.mp large)⟩

/-- A string that is there is read, or its text is refused. -/
lemma loadString_there {b : Bytes} {offset size : Nat} (d : declaredSize b offset = some size)
    (small : size < usizeSize) (inside : offset + size ≤ b.length) :
    loadString (b.drop offset) = match stringText (b.drop offset) with
      | .ok text => .done text (b.drop (offset + size))
      | .error f => .fault f := by
  have answer := calculateStringSize_answers (b.drop offset) 0
  rw [declaredSize_drop, d, Answers, if_pos small] at answer
  have long : ¬ (b.drop offset).length < size := by
    rw [List.length_drop]
    omega
  cases text : stringText (b.drop offset) <;>
    simp only [loadString_eq, answer, readSized, long, if_false, id, List.drop_drop, text]

/-- A string whose text goes through a check that does not panic. -/
lemma leads_string {check : Bytes → Except Fault α} (quiet : ∀ text, Quiet (check text)) :
    Leads (fun text => ∃ a, check text = .ok a)
      (do let text ← loadString; Reader.lift (check text)) [.string] := by
  intro β k ps hk b offset e ends inside fits
  obtain ⟨n, here, le, small, later, fits'⟩ := pieces_cons ends fits
  obtain ⟨size, d, rfl⟩ :=
    Option.map_eq_some_iff.mp (show (declaredSize b offset).map _ = _ from here)
  have read := loadString_there d (by omega) (le.trans inside)
  have panics := stringText_panics ((declaredSize_drop b offset).trans d)
  rw [unpackedSize_drop] at panics
  show _ ↔ (∃ ulen, _) ∨ _
  rw [← panics, Reader.bind_assoc]
  cases text : stringText (b.drop offset) with
  | error f =>
    rw [text] at read
    rw [Reader.bind_fault read]
    simp
  | ok t =>
    rw [text] at read
    rw [Reader.bind_done read, here]
    cases c : check t with
    | error f =>
      have silent := quiet t f c
      rw [Reader.bind_fault (by rw [Reader.lift])]
      simp [c, silent]
    | ok a =>
      rw [Reader.bind_done (by rw [Reader.lift]), hk a b _ e later inside fits']
      simp [c]

/-- A string is a piece. -/
lemma leads_plain : Leads (fun _ => True) loadString [.string] := by
  have checked := leads_string (α := Bytes) quiet_ok
  have plain : (do let text ← loadString; Reader.lift (.ok text) : Load Bytes) = loadString := by
    funext b
    rw [Reader.bind_apply]
    cases loadString b <;> rfl
  simpa [plain] using checked

/-- A number of fixed width is a piece. -/
lemma leads_fixed (width : Nat) :
    Leads usable (do Reader.ensure width; getUIntLe width : Load Nat) [.fixed width] := by
  intro β k ps hk b offset e ends inside fits
  obtain ⟨n, here, le, -, later, fits'⟩ := pieces_cons ends fits
  obtain rfl : offset + width = n := Option.some.inj here
  have there : width ≤ (b.drop offset).length := by
    rw [List.length_drop]
    omega
  rw [Reader.bind_assoc, Reader.bind_done (ensure_of_le there),
    Reader.bind_done (getUIntLe_of_le there), List.drop_drop, hk _ b _ e later inside fits']
  exact ⟨fun h => ⟨_, rfl, h⟩, fun ⟨n, eq, h⟩ => by cases eq; exact h⟩

/-- The container byte is a piece. -/
lemma leads_container : Leads usable (do Reader.ensure 1; advance 1 : Load Unit) [.container] := by
  intro β k ps hk b offset e ends inside fits
  obtain ⟨n, here, le, -, later, fits'⟩ := pieces_cons ends fits
  have next : n = offset + 1 := by
    rw [Piece.endAt] at here
    split at here
    · exact (Option.some.inj here).symm
    · cases here
  have there : 1 ≤ (b.drop offset).length := by
    rw [List.length_drop]
    omega
  rw [Reader.bind_assoc, Reader.bind_done (ensure_of_le there),
    Reader.bind_done (advance_of_le there), List.drop_drop, ← next, hk _ b _ e later inside fits']
  exact ⟨fun h => ⟨_, here, h⟩, fun ⟨m, eq, h⟩ => by rw [here] at eq; cases eq; exact h⟩

/-! ## The layout of a value -/

/-- The pieces of an entry of a counted value. -/
def entryPieces : ValueType → Option (List Piece)
  | .zset2 => some [.string, .fixed 8]
  | .hash => some [.string, .string]
  | .listQuicklist2 => some [.container, .string]
  | .hash2 => some [.string, .string, .fixed 8]
  | _ => none

/-- The pieces of a value, and where they begin: one string, or as many entries as the count
says. -/
def valuePieces (b : Bytes) (t : ValueType) : Option (List Piece × Nat) :=
  match entryPieces t with
  | none => some ([.string], 0)
  | some entry =>
    match peekLengthAt b 0 with
    | .done (count, lenBytes) => some ((List.replicate count entry).flatten, lenBytes)
    | _ => none

/-- The strings that a value can use: the nodes of a list have to be listpacks. -/
def ValueType.Usable (t : ValueType) (text : Bytes) : Prop :=
  t = .listQuicklist2 → ∃ entries, parseListpack text = .ok entries

/-- The value in the buffer declares too much. -/
def ValueTooLarge (b : Bytes) (t : ValueType) : Prop :=
  ∃ pieces start, valuePieces b t = some (pieces, start) ∧ DeclaresTooMuch b t.Usable pieces start

/-- The round that begins in this state declares too much. -/
def ParserState.TooLarge (s : ParserState) : Prop :=
  match s.parseState with
  | .processingKey _ => DeclaresTooMuch s.buffer (fun _ => True) [.string] 0
  | .processingOpcode opcode =>
    opcode = opcodeAux ∧ DeclaresTooMuch s.buffer (fun _ => True) [.string, .string] 0
  | .processingValue valueType =>
    ∃ t, ValueType.ofCode valueType = some t ∧ ValueTooLarge s.buffer t
  | _ => False

/-! ## Containers do not panic -/

/-- The sizes of a string entry are inside the 64-bit range. -/
lemma backlen_fits {len : Nat} (small : len < 256 ^ 4) (entrySize : Nat) :
    len + calculateBacklenSize entrySize < usizeSize := by
  have five : calculateBacklenSize entrySize ≤ 5 := by
    unfold calculateBacklenSize
    repeat' split
    all_goals decide
  rw [Nat.add_comm]
  exact add_small five small

/-- A string of a listpack is cut off within bounds. -/
lemma listpackString_quiet {len backlen : Nat} (fits : len + backlen < usizeSize) (b : Bytes) :
    Quiet (listpackString len backlen b) := by
  rw [listpackString_eq fits]
  exact quiet_ite (quiet_err _) (quiet_ok _)

/-- An integer of a listpack is read within bounds. -/
lemma listpackInt_quiet (width : Nat) (b : Bytes) : Quiet (listpackInt width b) := by
  rw [listpackInt_eq]
  exact quiet_ite (quiet_err _) (quiet_ok _)

/-- An integer of 7 bits is read within bounds. -/
lemma listpackSeven_quiet (enc : UInt8) (b : Bytes) : Quiet (listpackSeven enc b) := by
  rw [listpackSeven_eq]
  exact quiet_ite (quiet_err _) (quiet_ok _)

/-- An integer of 13 bits is read within bounds. -/
lemma listpackThirteen_quiet (enc : UInt8) (b : Bytes) : Quiet (listpackThirteen enc b) := by
  rw [listpackThirteen_eq]
  split
  · exact quiet_ok _
  · exact quiet_err _

/-- A string with a length of 16 bits is cut off within bounds. -/
lemma listpackSixteen_quiet (b : Bytes) : Quiet (listpackSixteen b) := by
  rw [listpackSixteen_eq]
  by_cases short : b.length < 2
  · rw [if_pos short]
    exact quiet_err _
  · have small : Bytes.beNat (b.take 2) < 256 ^ 4 := by
      have lt := Bytes.beNat_lt (b.take 2)
      rw [List.length_take_of_le (not_lt.mp short)] at lt
      omega
    rw [if_neg short]
    exact listpackString_quiet (backlen_fits small _) _

/-- A string with a length of 12 bits is cut off within bounds. -/
lemma listpackTwelve_quiet (enc : UInt8) (b : Bytes) : Quiet (listpackTwelve enc b) := by
  rw [listpackTwelve_eq]
  cases b with
  | nil => exact quiet_err _
  | cons next rest =>
    have small : (enc &&& 0x0F).toNat * 256 + next.toNat < 256 ^ 4 := by
      have high := (enc &&& 0x0F).toNat_lt
      have low := next.toNat_lt
      omega
    exact listpackString_quiet (backlen_fits small _) _

/-- A string with a length of 32 bits is cut off within bounds. -/
lemma listpackThirtyTwo_quiet (b : Bytes) : Quiet (listpackThirtyTwo b) := by
  rw [listpackThirtyTwo_eq]
  by_cases short : b.length < 4
  · rw [if_pos short]
    exact quiet_err _
  · have small : Bytes.leNat (b.take 4) < 256 ^ 4 := by
      have lt := Bytes.leNat_lt (b.take 4)
      rwa [List.length_take_of_le (not_lt.mp short)] at lt
    rw [if_neg short]
    exact listpackString_quiet (backlen_fits small _) _

/-- Each encoding checks the length before it reads. -/
lemma parseListpackEntry_quiet (b : Bytes) : Quiet (parseListpackEntry b) := by
  cases b with
  | nil => exact quiet_err _
  | cons enc b =>
    have six : (enc &&& 0x3F).toNat + 1 < usizeSize := by
      have lt := (enc &&& 0x3F).toNat_lt
      simp only [usizeSize]
      omega
    rw [parseListpackEntry_cons]
    refine quiet_ite (listpackSeven_quiet _ _) (quiet_ite (listpackString_quiet six _) ?_)
    refine quiet_ite (listpackThirteen_quiet _ _) (quiet_ite (listpackSixteen_quiet _) ?_)
    refine quiet_ite (listpackTwelve_quiet _ _) (quiet_ite (listpackThirtyTwo_quiet _) ?_)
    refine quiet_ite (listpackInt_quiet _ _) (quiet_ite (listpackInt_quiet _ _) ?_)
    exact quiet_ite (listpackInt_quiet _ _) (quiet_ite (listpackInt_quiet _ _) (quiet_err _))

/-- No entry of a listpack is read out of bounds. -/
lemma listpackEntries_quiet (n : Nat) (b : Bytes) : Quiet (listpackEntries n b) := by
  induction n generalizing b with
  | zero => exact quiet_ok _
  | succ n ih =>
    cases b with
    | nil => exact quiet_ok _
    | cons first tail =>
      rw [listpackEntries_cons]
      refine quiet_ite (quiet_ok _) (quiet_bind (parseListpackEntry_quiet _) fun p => ?_)
      exact quiet_bind (ih p.2) fun _ => quiet_ok _

/-- A listpack never panics, whatever its bytes. -/
lemma parseListpack_quiet (b : Bytes) : Quiet (parseListpack b) := by
  rw [parseListpack_eq]
  exact quiet_ite (quiet_err _) (listpackEntries_quiet _ _)

/-- A function of a result adds no panic. -/
lemma quiet_map {α β : Type} {r : Except Fault α} (hr : Quiet r) (k : α → β) : Quiet (r.map k) := by
  cases r with
  | ok a => exact quiet_ok _
  | error f =>
    rintro g h
    cases h
    exact hr f rfl

/-- No entry of an intset is read out of bounds. -/
lemma intsetEntries_quiet (encoding n : Nat) (b : Bytes) : Quiet (intsetEntries encoding n b) := by
  induction n generalizing b with
  | zero => exact quiet_ok _
  | succ n ih =>
    by_cases known : encoding = 2 ∨ encoding = 4 ∨ encoding = 8
    · rw [intsetEntries_succ known]
      exact quiet_ite (quiet_err _) (quiet_map (ih _) _)
    · rw [intsetEntries, if_neg known]
      exact quiet_err _

/-- An intset never panics, whatever its bytes. -/
lemma parseIntset_quiet (b : Bytes) : Quiet (parseIntset b) := by
  rw [parseIntset_eq]
  exact quiet_ite (quiet_err _) (quiet_map (intsetEntries_quiet _ _ _) _)

/-! ## The values -/

/-- A member of a sorted set is a string and a score. -/
lemma loadZset2Entry_leads : Leads (fun _ => True) loadZset2Entry [.string, .fixed 8] := by
  refine (leads_plain.bind fun member => ?_ : Leads _ _ ([.string] ++ [.fixed 8]))
  have score : Leads (fun _ => True) _ _ := (leads_fixed 8).bind (n := fun score =>
    (pure [Binary64.display score, member] : Load (List Bytes))) fun score => leads_pure _
  rwa [Reader.bind_assoc] at score

/-- Two strings, one after the other. -/
lemma leads_pair {n : Bytes → Bytes → Load α} {ps : List Piece}
    (hn : ∀ field value, Leads (fun _ => True) (n field value) ps) :
    Leads (fun _ => True) (do let field ← loadString; let value ← loadString; n field value)
      (.string :: .string :: ps) :=
  (leads_plain.bind fun field => (leads_plain.bind fun value => hn field value :
    Leads _ _ ([.string] ++ ps)) : Leads _ _ ([.string] ++ ([.string] ++ ps)))

/-- A field of a hash is two strings. -/
lemma loadHashEntry_leads : Leads (fun _ => True) loadHashEntry [.string, .string] :=
  leads_pair fun _ _ => leads_pure _

/-- A field with a deadline is two strings and a number. -/
lemma loadHash2Entry_leads : Leads (fun _ => True) loadHash2Entry [.string, .string, .fixed 8] := by
  refine leads_pair fun field value => ?_
  have expiry : Leads (fun _ => True) _ _ := (leads_fixed 8).bind (n := fun _ =>
    (pure [field, value] : Load (List Bytes))) fun _ => leads_pure _
  rwa [Reader.bind_assoc] at expiry

/-- A node is a container byte and a string. -/
lemma loadQuicklist2Node_leads :
    Leads (fun text => ∃ entries, parseListpack text = .ok entries) loadQuicklist2Node
      [.container, .string] := by
  have node := leads_container.bind (n := fun _ : Unit =>
    (do let listpackBin ← loadString; Reader.lift (parseListpack listpackBin) : Load (List Bytes)))
    fun _ => leads_string parseListpack_quiet
  rwa [Reader.bind_assoc, ← loadQuicklist2Node_eq] at node

/-- A count, its entries, and what is made of them. -/
lemma counted_panics {m : Load (List Bytes)} {entry : List Piece}
    {k : List (List Bytes) → Load (List RawCommand)} (hm : Leads usable m entry)
    (quiet : ∀ a b f, k a b = .fault f → ¬ f.IsPanic) {b : Bytes} {count lenBytes e : Nat}
    (hp : peekLengthAt b 0 = .done (count, lenBytes))
    (ends : endOfPieces b (List.replicate count entry).flatten lenBytes = some e)
    (inside : e ≤ b.length) (fits : ¬ Overruns b (List.replicate count entry).flatten lenBytes) :
    (∃ f, (do let count ← loadLength; let items ← Reader.times count m; k items) b =
      .fault f ∧ f.IsPanic) ↔
      Unpacks b usable (List.replicate count entry).flatten lenBytes := by
  rw [Reader.bind_done (loadLength_of_peek hp)]
  exact (hm.times count).follows quiet b lenBytes e ends inside fits

/-- A length takes at most nine bytes. -/
lemma peekLengthAt_short {b : Bytes} {offset v used : Nat}
    (h : peekLengthAt b offset = .done (v, used)) : used ≤ 9 := by
  rw [peekLengthAt_eq] at h
  repeat' split at h
  all_goals cases h
  all_goals decide

/-- One piece. -/
lemma growPieces_single (b : Bytes) (p : Piece) : growPieces b [p] = growPiece b p := by
  funext acc
  rw [growPieces]
  cases growPiece b p acc <;> rfl

/-- The first piece, and the others behind it. -/
lemma growPieces_cons (b : Bytes) (p : Piece) (ps : List Piece) (acc : Nat × Nat) :
    growPieces b (p :: ps) acc = growPiece b p acc >>= growPieces b ps := rfl

/-- Two pieces. -/
lemma growPieces_pair (b : Bytes) (p q : Piece) :
    growPieces b [p, q] = fun acc => growPiece b p acc >>= growPiece b q := by
  funext acc
  rw [growPieces_cons, growPieces_single]

/-- The size of a member is that of its pieces. -/
lemma growZset2Entry_pieces (b : Bytes) (acc : Nat × Nat) :
    growZset2Entry b acc = growPieces b [.string, .fixed 8] acc := by
  rw [growPieces_pair]
  rfl

/-- The size of a field is that of its pieces. -/
lemma growHashEntry_pieces (b : Bytes) (acc : Nat × Nat) :
    growHashEntry b acc = growPieces b [.string, .string] acc := by
  rw [growPieces_pair]
  rfl

/-- The size of a field with a deadline is that of its pieces. -/
lemma growHash2Entry_pieces (b : Bytes) (acc : Nat × Nat) :
    growHash2Entry b acc = growPieces b [.string, .string, .fixed 8] acc := by
  rw [growPieces_cons, growPieces_pair]
  rfl

/-- The size of a node is that of its pieces. -/
lemma growQuicklist2Entry_pieces (b : Bytes) (acc : Nat × Nat) :
    growQuicklist2Entry b acc = growPieces b [.container, .string] acc := by
  rw [growPieces_pair, growQuicklist2Entry]
  dsimp only [growPiece]
  split <;> rfl

/-- The size of a string is where its piece ends. -/
lemma calculateStringSize_pieces (b : Bytes) :
    calculateStringSize b 0 = growPieces b [.string] (0, 0) >>= fun acc => pure acc.1 := by
  have size := calculateStringSize_answers b 0
  rw [growPieces_single, growPiece, growString]
  cases d : declaredSize b 0 with
  | none =>
    rw [d] at size
    rcases size with need | ⟨f, fault, -⟩
    · simp [need]
    · simp [fault]
  | some n =>
    rw [d, Answers] at size
    rw [size]
    by_cases small : n < usizeSize
    · simp [small, grow_eq]
    · simp [small]

/-- The size of a counted value is that of the pieces of all its entries. -/
lemma calculateCounted_pieces {b : Bytes} {grown : Nat × Nat → Outcome Fault (Nat × Nat)}
    {entry : List Piece} (same : ∀ acc, grown acc = growPieces b entry acc) {count lenBytes : Nat}
    (hp : peekLengthAt b 0 = .done (count, lenBytes)) :
    calculateCounted b 0 grown =
      growPieces b (List.replicate count entry).flatten (lenBytes, lenBytes) >>=
      fun acc => pure acc.1 := by
  have short : 0 + lenBytes < usizeSize := by
    have nine := peekLengthAt_short hp
    simp only [usizeSize]
    omega
  rw [calculateCounted, hp, Outcome.done_bind]
  show (usizeAdd 0 lenBytes >>= fun offset => growTimes grown count (lenBytes, offset) >>=
    fun acc => pure acc.1) = _
  rw [usizeAdd_of_lt short, Outcome.done_bind, Nat.zero_add, growTimes_pieces same]

/-- The size of a value is that of its pieces. -/
lemma calculateValueSize_pieces {b : Bytes} {valueType : UInt8} {t : ValueType}
    {pieces : List Piece} {start : Nat} (code : ValueType.ofCode valueType = some t)
    (layout : valuePieces b t = some (pieces, start)) :
    calculateValueSize b valueType 0 =
      growPieces b pieces (start, start) >>= fun acc => pure acc.1 := by
  have counted {entry : List Piece} {grown : Nat × Nat → Outcome Fault (Nat × Nat)}
      (same : ∀ acc, grown acc = growPieces b entry acc) (e : entryPieces t = some entry) :
      calculateCounted b 0 grown =
        growPieces b pieces (start, start) >>= fun acc => pure acc.1 := by
    rw [valuePieces, e] at layout
    cases hp : peekLengthAt b 0 with
    | fault f => rw [hp] at layout; cases layout
    | need => rw [hp] at layout; cases layout
    | done p =>
      rw [hp] at layout
      cases layout
      exact calculateCounted_pieces same hp
  have single (e : entryPieces t = none) :
      calculateStringSize b 0 = growPieces b pieces (start, start) >>= fun acc => pure acc.1 := by
    rw [valuePieces, e] at layout
    cases layout
    exact calculateStringSize_pieces b
  rw [calculateValueSize, code]
  cases t with
  | string => exact single rfl
  | hash => exact counted (growHashEntry_pieces b) rfl
  | zset2 => exact counted (growZset2Entry_pieces b) rfl
  | setIntset => exact single rfl
  | hashListpack => exact single rfl
  | zsetListpack => exact single rfl
  | listQuicklist2 => exact counted (growQuicklist2Entry_pieces b) rfl
  | setListpack => exact single rfl
  | hash2 => exact counted (growHash2Entry_pieces b) rfl

/-- Without a layout the size is not computed. -/
lemma calculateValueSize_stops {b : Bytes} {valueType : UInt8} {t : ValueType}
    (code : ValueType.ofCode valueType = some t) (layout : valuePieces b t = none) :
    Stops (calculateValueSize b valueType 0) := by
  have counted {entry : List Piece} (grown : Nat × Nat → Outcome Fault (Nat × Nat))
      (e : entryPieces t = some entry) : Stops (calculateCounted b 0 grown) := by
    rw [valuePieces, e] at layout
    rw [calculateCounted]
    cases hp : peekLengthAt b 0 with
    | fault f => exact .inr ⟨f, rfl, peekLengthAt_fault hp⟩
    | need => exact .inl rfl
    | done p => rw [hp] at layout; cases layout
  rw [calculateValueSize, code]
  cases t with
  | hash => exact counted _ rfl
  | zset2 => exact counted _ rfl
  | listQuicklist2 => exact counted _ rfl
  | hash2 => exact counted _ rfl
  | string | setIntset | hashListpack | zsetListpack | setListpack => cases layout

/-- Loading a value that is there panics where one of its strings unpacks to too much. -/
lemma loadObject_panics {b key : Bytes} {db : Nat} {valueType : UInt8} {t : ValueType}
    {pieces : List Piece} {start e : Nat} (code : ValueType.ofCode valueType = some t)
    (layout : valuePieces b t = some (pieces, start)) (ends : endOfPieces b pieces start = some e)
    (inside : e ≤ b.length) (fits : ¬ Overruns b pieces start) :
    (∃ f, loadObject valueType db key b = .fault f ∧ f.IsPanic) ↔
      Unpacks b t.Usable pieces start := by
  have any (other : t ≠ .listQuicklist2) : t.Usable = fun _ => True := by
    funext text
    simp [ValueType.Usable, other]
  have counted {m : Load (List Bytes)} {entry : List Piece}
      {k : List (List Bytes) → Load (List RawCommand)} (hm : Leads t.Usable m entry)
      (quiet : ∀ a b f, k a b = .fault f → ¬ f.IsPanic) (e : entryPieces t = some entry) :
      (∃ f, (do let count ← loadLength; let items ← Reader.times count m; k items) b =
        .fault f ∧ f.IsPanic) ↔
        Unpacks b t.Usable pieces start := by
    rw [valuePieces, e] at layout
    cases hp : peekLengthAt b 0 with
    | fault f => rw [hp] at layout; cases layout
    | need => rw [hp] at layout; cases layout
    | done p =>
      rw [hp] at layout
      cases layout
      exact counted_panics hm quiet hp ends inside fits
  have single {k : Bytes → Load (List RawCommand)} (quiet : ∀ a b f, k a b = .fault f → ¬ f.IsPanic)
      (e : entryPieces t = none) (other : t ≠ .listQuicklist2) :
      (∃ f, (loadString >>= k) b = .fault f ∧ f.IsPanic) ↔ Unpacks b t.Usable pieces start := by
    rw [valuePieces, e] at layout
    cases layout
    rw [any other]
    exact leads_plain.follows quiet b 0 _ ends inside fits
  have lifted {γ : Type} {r : Except Fault γ} {k : γ → Load (List RawCommand)} (quiet : Quiet r)
      (later : ∀ a b f, k a b = .fault f → ¬ f.IsPanic) (b : Bytes) (f : Fault)
      (h : (Reader.lift r >>= k) b = .fault f) : ¬ f.IsPanic := by
    cases r with
    | ok a => exact later a b f h
    | error g =>
      cases h
      exact quiet _ rfl
  rw [loadObject, code]
  cases t with
  | string => exact single (fun _ _ _ h => by cases h) rfl (by decide)
  | hash =>
    refine counted ?_ (fun _ _ _ h => by cases h) rfl
    rw [any (by decide)]
    exact loadHashEntry_leads
  | zset2 =>
    refine counted ?_ (fun _ _ _ h => by cases h) rfl
    rw [any (by decide)]
    exact loadZset2Entry_leads
  | setIntset =>
    exact single (fun text => lifted (parseIntset_quiet text) fun _ _ _ h => by cases h)
      rfl (by decide)
  | hashListpack =>
    refine single (fun text => lifted (parseListpack_quiet text) fun entries b f h => ?_)
      rfl (by decide)
    split at h <;> cases h
    exact id
  | zsetListpack =>
    refine single (fun text => lifted (parseListpack_quiet text) fun entries b f h => ?_)
      rfl (by decide)
    by_cases odd : entries.length % 2 ≠ 0
    · rw [if_pos odd] at h
      cases h
      exact id
    · -- an even number of entries is taken apart
      obtain ⟨args, read⟩ := zsetListpackArgs_even entries (not_not.mp odd)
      rw [if_neg odd, read] at h
      cases h
  | listQuicklist2 =>
    refine counted ?_ (fun nodes b f h => ?_) rfl
    · have usable : ValueType.listQuicklist2.Usable = fun text => ∃ entries, parseListpack text =
        .ok entries := by
        funext text
        simp [ValueType.Usable]
      rw [usable]
      exact loadQuicklist2Node_leads
    · split at h <;> cases h
  | setListpack =>
    exact single (fun text => lifted (parseListpack_quiet text) fun _ _ _ h => by cases h)
      rfl (by decide)
  | hash2 =>
    refine counted ?_ (fun fields b f h => ?_) rfl
    · rw [any (by decide)]
      exact loadHash2Entry_leads
    · split at h <;> cases h

/-! ## The rounds of the RDB parser -/

/-- One piece overruns when it ends beyond 64 bits. -/
lemma overruns_single {b : Bytes} {p : Piece} {offset : Nat} :
    Overruns b [p] offset ↔ ∃ e, p.endAt b offset = some e ∧ usizeSize ≤ e := by
  simp [Overruns]

/-- Reading a string panics just where it declares too much. -/
lemma loadString_panics (b : Bytes) :
    (∃ f, loadString b = .fault f ∧ f.IsPanic) ↔ DeclaresTooMuch b (fun _ => True) [.string] 0 := by
  have size := calculateStringSize_answers b 0
  rw [DeclaresTooMuch, overruns_single, loadString_eq]
  cases d : declaredSize b 0 with
  | none =>
    rw [d] at size
    have absent : Piece.string.endAt b 0 = none := by rw [Piece.endAt, d, Option.map_none]
    rcases size with need | ⟨f, fault, quiet⟩
    · simp [need, absent, endOfPieces]
    · simp [fault, absent, endOfPieces, quiet]
  | some n =>
    have here : Piece.string.endAt b 0 = some n := by
      rw [Piece.endAt, d, Option.map_some, Nat.zero_add]
    rw [d, Answers] at size
    rw [size]
    by_cases small : n < usizeSize
    · have panics := stringText_panics d
      simp only [small, if_true, id, readSized, here, Option.some.injEq, exists_eq_left',
        endOfPieces, Option.bind_some, not_le.mpr small, false_or, Unpacks, and_false, exists_false,
        or_false, ← panics]
      by_cases short : b.length < n
      · simp [short, not_le.mpr short]
      · simp only [short, if_false, not_lt.mp short, true_and]
        cases stringText b with
        | error f => simp
        | ok text => simp
    · simp [small, Fault.IsPanic, here, not_lt.mp small]

/-- Reading an auxiliary field panics just where its strings declare too much. -/
lemma loadAux_panics (b : Bytes) :
    (∃ f, loadAux b = .fault f ∧ f.IsPanic) ↔
      DeclaresTooMuch b (fun _ => True) [.string, .string] 0 := by
  have tail : Follows (fun _ => True) (do let _ ← loadString; let _ ← loadString : Load Unit)
      [.string, .string] := by
    have both := (leads_plain.bind fun _ => leads_plain).follows
      (k := fun _ => (pure () : Load Unit)) fun _ _ _ h => by cases h
    rwa [Reader.bind_assoc] at both
  have first := calculateStringSize_answers b 0
  rw [DeclaresTooMuch, loadAux]
  cases d1 : declaredSize b 0 with
  | none =>
    rw [d1] at first
    have absent : Piece.string.endAt b 0 = none := by rw [Piece.endAt, d1, Option.map_none]
    rcases first with need | ⟨f, fault, quiet⟩
    · simp [Reader.bind_apply, Reader.peek, need, Overruns, absent, endOfPieces]
    · simp [Reader.bind_apply, Reader.peek, fault, Overruns, absent, endOfPieces, quiet]
  | some n =>
    have here : Piece.string.endAt b 0 = some n := by
      rw [Piece.endAt, d1, Option.map_some, Nat.zero_add]
    rw [d1, Answers] at first
    by_cases small : n < usizeSize
    · rw [if_pos small] at first
      have second := calculateStringSize_answers b n
      cases d2 : declaredSize b n with
      | none =>
        rw [d2] at second
        have absent' : Piece.string.endAt b n = none := by rw [Piece.endAt, d2, Option.map_none]
        rcases second with need | ⟨f, fault, quiet⟩
        · simp [Reader.bind_apply, Reader.peek, first, need, Overruns, here, absent', endOfPieces,
            not_le.mpr small]
        · simp [Reader.bind_apply, Reader.peek, first, fault, Overruns, here, absent', endOfPieces,
            not_le.mpr small, quiet]
      | some m =>
        have there : Piece.string.endAt b n = some (n + m) := by
          rw [Piece.endAt, d2, Option.map_some]
        rw [d2, Answers] at second
        have overruns : Overruns b [.string, .string] 0 ↔ usizeSize ≤ n + m := by
          simp [Overruns, here, there, not_le.mpr small]
        have ends : endOfPieces b [.string, .string] 0 = some (n + m) := by
          simp [endOfPieces, here, there]
        by_cases fits : n + m < usizeSize
        · rw [if_pos (by omega)] at second
          have sum := usizeAdd_of_lt fits
          have follows := tail b 0 (n + m) ends
          rw [overruns, not_le, List.drop_zero] at follows
          by_cases short : b.length < n + m
          · simp [Reader.bind_apply, Reader.peek, first, second, checked, sum, Reader.ensure, short,
              overruns, ends, not_le.mpr fits, not_le.mpr short]
          · have there := ensure_of_le (not_lt.mp short)
            rw [Reader.bind_done (by simp only [Reader.peek, first]; rfl)]
            rw [Reader.bind_done (by simp only [Reader.peek, id, second]; rfl)]
            rw [Reader.bind_done (by simp only [checked, Reader.peek, id, sum]; rfl),
              Reader.bind_done there]
            simp only [overruns, not_le.mpr fits, false_or, ends, Option.some.injEq,
              exists_eq_left', not_lt.mp short, true_and]
            exact follows (not_lt.mp short) fits
        · by_cases large : m < usizeSize
          · rw [if_pos large] at second
            have sum : usizeAdd n m = .fault (.panic "attempt to add with overflow") := if_neg fits
            simp [Reader.bind_apply, Reader.peek, first, second, checked, sum, Fault.IsPanic,
              overruns, not_lt.mp fits]
          · rw [if_neg large] at second
            simp [Reader.bind_apply, Reader.peek, first, second, Fault.IsPanic, overruns,
              not_lt.mp fits]
    · rw [if_neg small] at first
      simp [Reader.bind_apply, Reader.peek, first, Fault.IsPanic, Overruns, here, not_lt.mp small]

/-- A state that consumes an item panics just where the reader of the item does. -/
lemma consume_panics {α : Type} {s : ParserState} {m : Load α} {k : α → ParserState → ParserState} :
    (∃ f, s.consume m k = .fault f ∧ f.IsPanic) ↔ ∃ f, m s.buffer = .fault f ∧ f.IsPanic := by
  unfold ParserState.consume
  cases m s.buffer <;> simp

/-- Reading a value panics just where it is of a known type and too large. -/
lemma parseValue_panics {s : ParserState} (valueType : UInt8) :
    (∃ f, parseValue valueType s = .fault f ∧ f.IsPanic) ↔
      ∃ t, ValueType.ofCode valueType = some t ∧ ValueTooLarge s.buffer t := by
  rw [parseValue]
  cases code : ValueType.ofCode valueType with
  | none =>
    have unknown : calculateValueSize s.buffer valueType 0 =
        .fault (.err ("unknown_rdb_type: " ++ toString valueType.toNat)) := by
      rw [calculateValueSize, code]
    simp [unknown]
  | some t =>
    simp only [Option.some.injEq, exists_eq_left']
    cases layout : valuePieces s.buffer t with
    | none =>
      have nowhere : ¬ ValueTooLarge s.buffer t := by
        rintro ⟨pieces, start, eq, -⟩
        rw [layout] at eq
        cases eq
      rcases calculateValueSize_stops code layout with need | ⟨f, fault, quiet⟩
      · simp [need, nowhere]
      · cases f with
        | panic msg => exact absurd trivial quiet
        | err msg => simp [fault, nowhere]
    | some p =>
      obtain ⟨pieces, start⟩ := p
      have value : ValueTooLarge s.buffer t ↔ DeclaresTooMuch s.buffer t.Usable pieces start := by
        simp [ValueTooLarge, layout]
      have panics : _ ↔ Overruns s.buffer pieces start := growPieces_panics
      rw [value, DeclaresTooMuch, calculateValueSize_pieces code layout]
      cases g : growPieces s.buffer pieces (start, start) with
      | fault f =>
        rw [g] at panics
        have overrun : f.IsPanic ↔ Overruns s.buffer pieces start := by simpa using panics
        cases f with
        | panic msg =>
          have large := overrun.mp trivial
          simp [large, Fault.IsPanic]
        | err msg =>
          have small : ¬ Overruns s.buffer pieces start := fun large => overrun.mpr large
          simp [small, endOfPieces_eq_none small (by simp [g])]
      | need =>
        rw [g] at panics
        have small : ¬ Overruns s.buffer pieces start := by simpa using panics
        simp [small, endOfPieces_eq_none small (by simp [g])]
      | done acc =>
        rw [g] at panics
        have small : ¬ Overruns s.buffer pieces start := by simpa using panics
        obtain ⟨e, rfl, ends⟩ := growPieces_done g
        simp only [Outcome.done_bind, Outcome.pure_eq, small, false_or, ends, Option.some.injEq,
          exists_eq_left']
        by_cases short : s.buffer.length < e
        · simp [short, not_le.mpr short]
        · have loads := @loadObject_panics s.buffer s.savedKey s.currentDb _ _ _ _ _ code layout
            ends (not_lt.mp short) small
          simp only [short, if_false, not_lt.mp short, true_and, ← loads]
          cases loadObject valueType s.currentDb s.savedKey s.buffer <;> simp

/-- The magic string and the version are slices of the nine bytes. -/
lemma checkVersion_quiet {magicVersion : Bytes} (nine : magicVersion.length = 9) :
    Quiet (checkVersion magicVersion) := by
  rw [checkVersion, slice_of_le (by decide) (by omega)]
  refine quiet_ite ?_ ?_
  · rw [slice_of_le (by decide) (by omega)]
    dsimp only [bind, Except.bind]
    split
    · exact quiet_err _
    · exact quiet_ite (quiet_ok _) (quiet_err _)
  · rw [slice_of_le (by decide) (by omega)]
    refine quiet_ite ?_ (quiet_err _)
    rw [slice_of_le (by decide) (by omega)]
    dsimp only [bind, Except.bind]
    split
    · exact quiet_err _
    · exact quiet_ite (quiet_ok _) (quiet_err _)

/-- A round panics exactly when it declares too much. -/
theorem parseNext_panics (s : ParserState) :
    (∃ f, parseNext s = .fault f ∧ f.IsPanic) ↔ s.TooLarge := by
  have quietItem {α : Type} {m : Load α} {k : α → ParserState → ParserState}
      (quiet : ∀ f, m s.buffer = .fault f → ¬ f.IsPanic) :
      ¬ ∃ f, s.consume m k = .fault f ∧ f.IsPanic := by
    rw [consume_panics]
    exact fun ⟨f, fault, panic⟩ => quiet f fault panic
  have uint (width : Nat) (f : Fault)
      (h : (do Reader.ensure width; getUIntLe width : Load Nat) s.buffer = .fault f) :
        ¬ f.IsPanic := by
    by_cases short : s.buffer.length < width
    · rw [Reader.bind_need (ensure_of_lt short)] at h
      cases h
    · rw [Reader.bind_done (ensure_of_le (by omega)), getUIntLe_of_le (by omega)] at h
      cases h
  unfold parseNext ParserState.TooLarge
  cases st : s.parseState with
  | magic =>
    refine iff_of_false (quietItem fun f h => ?_) id
    rw [loadMagic_eq] at h
    by_cases short : s.buffer.length < 9
    · rw [Reader.bind_need (ensure_of_lt short)] at h
      cases h
    · have nine : (s.buffer.take 9).length = 9 := List.length_take_of_le (not_lt.mp short)
      rw [Reader.bind_done (ensure_of_le (by omega)),
        Reader.bind_done (splitTo_of_le (by omega))] at h
      cases r : checkVersion (s.buffer.take 9) with
      | error g =>
        rw [r, Reader.lift] at h
        cases h
        exact checkVersion_quiet nine _ r
      | ok u =>
        rw [r, Reader.lift] at h
        cases h
  | opcode =>
    refine iff_of_false ?_ id
    dsimp only
    rw [parseOpcode_eq]
    cases s.buffer <;> simp
  | processingOpcode opcode =>
    dsimp only [processOpcode]
    by_cases selectdb : opcode = opcodeSelectdb
    · rw [if_pos selectdb]
      refine iff_of_false (quietItem fun f h => ?_)
        fun h => absurd (selectdb.symm.trans h.1) (by decide)
      rw [loadLength_eq] at h
      split at h <;> cases h
      rename_i e
      exact peekLengthAt_fault e
    by_cases resizedb : opcode = opcodeResizedb
    · rw [if_neg selectdb, if_pos resizedb]
      refine iff_of_false (quietItem fun f h => ?_)
        fun h => absurd (resizedb.symm.trans h.1) (by decide)
      rw [loadResizedb_eq] at h
      split at h
      · cases h
        rename_i e
        exact peekLengthAt_fault e
      · cases h
      · split at h <;> cases h
        rename_i e
        exact peekLengthAt_fault e
    by_cases aux : opcode = opcodeAux
    · rw [if_neg selectdb, if_neg resizedb, if_pos aux, consume_panics, loadAux_panics]
      simp [aux]
    · rw [if_neg selectdb, if_neg resizedb, if_neg aux]
      refine iff_of_false ?_ fun h => aux h.1
      by_cases seconds : opcode = opcodeExpiretime
      · rw [if_pos seconds]
        exact quietItem (uint 4)
      · rw [if_neg seconds]
        by_cases milliseconds : opcode = opcodeExpiretimeMs
        · rw [if_pos milliseconds]
          exact quietItem (uint 8)
        · rw [if_neg milliseconds]
          simp [Fault.IsPanic]
  | processingKey valueType => exact consume_panics.trans (loadString_panics s.buffer)
  | processingValue valueType => exact parseValue_panics valueType
  | waitingChecksum =>
    refine iff_of_false ?_ id
    dsimp only
    rw [parseChecksum_eq]
    split <;> simp
  | finished => simp

/-! ## Runs of the RDB parser -/

/-- A call panics just where one of its rounds meets something too large. -/
lemma feedData_panics (s : ParserState) (data : Bytes) :
    (∃ f, feedData s data = .error f ∧ f.IsPanic) ↔
      s.finished = false ∧
        ∃ t ∈ trail parseNext ((s.push data).size + 1) (s.push data), ParserState.TooLarge t := by
  rw [feedData]
  cases fin : s.finished with
  | true => simp [Fault.IsPanic]
  | false =>
    simp only [Bool.false_eq_true, if_false, true_and, drive_eq_error, ← parseNext_panics]
    constructor
    · rintro ⟨f, ⟨t, mem, fault⟩, panic⟩
      exact ⟨t, mem, f, fault, panic⟩
    · rintro ⟨t, mem, f, fault, panic⟩
      exact ⟨f, ⟨t, mem, fault⟩, panic⟩

/-- The calls panic just where one of their rounds meets something too large. -/
theorem feedAll_panics (s : ParserState) (chunks : List Bytes) :
    (∃ f, feedAll s chunks = .error f ∧ f.IsPanic) ↔
      ∃ v ∈ RdbFormat.visits s chunks, v.1.TooLarge := by
  induction chunks generalizing s with
  | nil => simp [feedAll, RdbFormat.visits]
  | cons chunk chunks ih =>
    have now := feedData_panics s chunk
    rw [feedAll, RdbFormat.visits]
    cases fin : s.finished with
    | true => simp [feedData, fin, Fault.IsPanic]
    | false =>
      have here : (∃ v ∈ (trail parseNext ((s.push chunk).size + 1) (s.push chunk)).map
          (fun t => (t, t.buffer.length + chunks.flatten.length)), v.1.TooLarge) ↔
          ∃ f, feedData s chunk = .error f ∧ f.IsPanic := by
        rw [now]
        simp [fin]
      simp only [Bool.false_eq_true, if_false, List.mem_append, or_and_right, exists_or, here]
      cases d : feedData s chunk with
      | error f => simp
      | ok r =>
        obtain ⟨t, commands⟩ := r
        dsimp only
        rw [← ih t]
        cases feedAll t chunks with
        | error f => simp
        | ok r => simp

end Rdb

namespace ReplicaParser

/-! ## The command stream -/

/-- The header of a bulk string: where its data begins and how long they are declared to be. -/
def bulkHeader (b : Bytes) (cursor : Nat) : Option (Nat × Nat) :=
  match b.drop cursor with
  | [] => none
  | first :: tail =>
    if first = 36 then
      match findCrlf tail with
      | some pos => (parseUsize (tail.take pos)).map fun len => (cursor + 1 + pos + 2, len)
      | none => none
    else none

/-- Behind bulk strings that are there, one declares to end beyond the 64-bit range. -/
def BulkOverruns (b : Bytes) : Nat → Nat → Prop
  | 0, _ => False
  | count + 1, cursor =>
    ∃ dataStart len, bulkHeader b cursor = some (dataStart, len) ∧
      (usizeSize ≤ dataStart + len + 2 ∨
        (dataStart + len + 2 ≤ b.length ∧ BulkOverruns b count (dataStart + len + 2)))

/-- The same of the array at the front of a buffer. -/
def ArrayOverruns (b : Bytes) : Prop :=
  ∃ tail pos count, b = 42 :: tail ∧ findCrlf tail = some pos ∧
    parseUsize (tail.take pos) = some count ∧
    BulkOverruns b count (1 + pos + 2)

/-- The round that begins in this state declares too much: itself, or in the round of the RDB parser
that it hands a piece of the payload to. -/
def ParserState.TooLarge (s : ParserState) : Prop :=
  match s.state with
  | .waitingRdb => False
  | .readingRdb =>
    ∃ n p, s.rdbBulkSize = some n ∧ s.rdbParser = some p ∧ s.rdbBytesRead < n ∧ s.buffer ≠ [] ∧
      ∃ v ∈ RdbFormat.visits p [s.buffer.take (n - s.rdbBytesRead)], v.1.TooLarge
  | .streaming => ArrayOverruns (skipNewlines s.buffer)

/-- The elements of an array panic just where a bulk string declares to end too far. -/
lemma parseElements_panics (b : Bytes) (count cursor : Nat) :
    (∃ f, parseElements b count cursor = .fault f ∧ f.IsPanic) ↔ BulkOverruns b count cursor := by
  induction count generalizing cursor with
  | zero => simp [parseElements_zero, BulkOverruns]
  | succ count ih =>
    rw [parseElements_succ, BulkOverruns, bulkHeader]
    cases e : b.drop cursor with
    | nil => simp
    | cons first tail =>
      by_cases dollar : first = 36
      · subst dollar
        simp only [ne_eq, not_true_eq_false, if_false, if_true]
        cases c : findCrlf tail with
        | none => simp
        | some pos =>
          dsimp only
          cases l : parseUsize (tail.take pos) with
          | none => simp [Fault.IsPanic]
          | some len =>
            rw [Option.map_some]
            have header (P : Nat → Nat → Prop) :
                (∃ dataStart size, some (cursor + 1 + pos + 2, len) = some (dataStart, size) ∧
                  P dataStart size) ↔ P (cursor + 1 + pos + 2) len := by
              constructor
              · rintro ⟨_, _, eq, h⟩
                cases eq
                exact h
              · exact fun h => ⟨_, _, rfl, h⟩
            rw [header]
            by_cases fits : cursor + 1 + pos + 2 + len + 2 < usizeSize
            · dsimp only
              rw [usizeAdd_of_lt (by omega), Outcome.done_bind, usizeAdd_of_lt fits,
                Outcome.done_bind]
              by_cases short : b.length < cursor + 1 + pos + 2 + len + 2
              · rw [if_pos short]
                simp only [not_le.mpr fits, not_le.mpr short, false_and, or_self, iff_false]
                rintro ⟨f, need, -⟩
                cases need
              · rw [if_neg short, ← ih]
                simp only [not_le.mpr fits, not_lt.mp short, true_and, false_or]
                cases parseElements b count (cursor + 1 + pos + 2 + len + 2) <;> simp
            · simp only [not_lt.mp fits, true_or, iff_true]
              by_cases first : cursor + 1 + pos + 2 + len < usizeSize
              · rw [usizeAdd_of_lt first, Outcome.done_bind, usizeAdd, if_neg fits]
                exact ⟨_, rfl, trivial⟩
              · rw [usizeAdd, if_neg first]
                exact ⟨_, rfl, trivial⟩
      · simp [Fault.IsPanic, dollar]

/-- A command panics just where its array overruns. -/
lemma parseCommand_panics (s : ParserState) :
    (∃ f, parseCommand s = .fault f ∧ f.IsPanic) ↔ ArrayOverruns (skipNewlines s.buffer) := by
  have array (b : Bytes) : (∃ f, parseArray b = .fault f ∧ f.IsPanic) ↔ ArrayOverruns b := by
    rw [parseArray_eq, ArrayOverruns]
    cases b with
    | nil => simp
    | cons first tail =>
      dsimp only
      by_cases star : first = 42
      · subst star
        simp only [ne_eq, not_true_eq_false, if_false, List.cons.injEq, true_and]
        cases c : findCrlf tail with
        | none => simp [c]
        | some pos =>
          cases l : parseUsize (tail.take pos) with
          | none => simp [c, l, Fault.IsPanic]
          | some count => simp [c, l, parseElements_panics]
      · simp [star, Fault.IsPanic]
  rw [← array, parseCommand_eq]
  cases parseArray (skipNewlines s.buffer) <;> simp

/-- Not more has been read of the payload than there is. -/
def ParserState.Within (s : ParserState) : Prop := ∀ n, s.rdbBulkSize = some n → s.rdbBytesRead ≤ n

/-- A new parser has read nothing of the payload. -/
lemma within_new (skipRdb : Bool) : (ParserState.new skipRdb).Within := nofun

/-- A round that waits has read no more than there is. -/
lemma within_stall {s s' : ParserState} (e : parseNext s = .stall s') (h : s.Within) :
    s'.Within := by
  cases st : s.state with
  | waitingRdb =>
    simp only [parseNext, st] at e
    obtain ⟨rfl, -⟩ := parseRdbHeader_stall e
    exact h
  | readingRdb =>
    simp only [parseNext, st] at e
    cases size : s.rdbBulkSize with
    | none =>
      simp only [streamRdbData, size] at e
      cases e
    | some n =>
      rw [streamRdbData_within size (h n size)] at e
      dsimp only at e
      repeat' split at e
      all_goals cases e
      exact h
  | streaming =>
    simp only [parseNext, st, parseCommand_eq] at e
    split at e <;> cases e
    exact h

/-- A round that goes on has read no more than there is. -/
lemma within_next {s s' : ParserState} {events : List Event} (e : parseNext s = .next s' events)
    (h : s.Within) : s'.Within := by
  cases st : s.state with
  | waitingRdb =>
    simp only [parseNext, st] at e
    obtain ⟨-, pos, size, -, rfl⟩ := parseRdbHeader_next e
    exact fun n _ => Nat.zero_le n
  | readingRdb =>
    simp only [parseNext, st] at e
    cases size : s.rdbBulkSize with
    | none =>
      simp only [streamRdbData, size] at e
      cases e
    | some n =>
      rw [streamRdbData_within size (h n size)] at e
      dsimp only at e
      -- the payload is complete, or goes on
      repeat' split at e
      all_goals cases e
      · intro m hm
        cases hm
      · rename_i missing
        intro m hm
        obtain rfl : n = m := Option.some.inj (size.symm.trans hm)
        exact le_of_not_ge missing
  | streaming =>
    simp only [parseNext, st, parseCommand_eq] at e
    split at e <;> cases e
    exact h

/-- A round panics exactly when it declares too much. -/
theorem parseNext_panics {s : ParserState} (within : s.Within) :
    (∃ f, parseNext s = .fault f ∧ f.IsPanic) ↔ s.TooLarge := by
  unfold parseNext ParserState.TooLarge
  cases st : s.state with
  | waitingRdb =>
    refine iff_of_false ?_ id
    rintro ⟨f, fault, panic⟩
    dsimp only at fault
    rw [parseRdbHeader_eq] at fault
    repeat' split at fault
    all_goals cases fault
    all_goals exact panic
  | readingRdb =>
    dsimp only
    cases size : s.rdbBulkSize with
    | none => simp [streamRdbData, size, Fault.IsPanic]
    | some n =>
      rw [streamRdbData_within size (within n size)]
      by_cases complete : n - s.rdbBytesRead = 0
      · have large : ¬ s.rdbBytesRead < n := by omega
        simp [complete, large, Fault.IsPanic]
      · have under : s.rdbBytesRead < n := by omega
        by_cases isEmpty : s.buffer.length = 0
        · simp [complete, List.eq_nil_of_length_eq_zero isEmpty]
        · have filled : s.buffer ≠ [] := fun nil => isEmpty (by rw [nil, List.length_nil])
          simp only [complete, isEmpty, if_false]
          cases parser : s.rdbParser with
          | none => simp [Fault.IsPanic]
          | some p =>
            -- the piece of this round ends with the buffer or with the payload
            have piece : s.buffer.take (min s.buffer.length (n - s.rdbBytesRead)) =
                s.buffer.take (n - s.rdbBytesRead) := by
              rw [min_comm, ← List.take_take, List.take_length]
            have fed := Rdb.feedAll_panics p [s.buffer.take (n - s.rdbBytesRead)]
            simp only [Option.some.injEq, exists_and_left, exists_eq_left', under, filled, ne_eq,
              not_false_eq_true, true_and, ← fed, piece, Rdb.feedAll]
            cases Rdb.feedData p (s.buffer.take (n - s.rdbBytesRead)) with
            | error f => simp
            | ok r =>
              simp only [reduceCtorEq, false_and, exists_false, iff_false]
              split <;> simp
  | streaming => exact parseCommand_panics s

/-! ## Runs -/

/-- A call panics just where one of its rounds meets something too large. -/
lemma feedData_panics {s : ParserState} (within : s.Within) (chunk : Bytes) :
    (∃ f, feedData s chunk = .error f ∧ f.IsPanic) ↔ ∃ t ∈ rounds (s.push chunk), t.TooLarge := by
  have drained : (∃ f, drain (s.push chunk) = .error f ∧ f.IsPanic) ↔
      ∃ t ∈ rounds (s.push chunk), t.TooLarge := by
    have each : ∀ t ∈ rounds (s.push chunk), t.Within :=
      trail_preserves (P := ParserState.Within) within_next (s := s.push chunk) within
    simp only [drain, drive_eq_error]
    constructor
    · rintro ⟨f, ⟨t, mem, fault⟩, panic⟩
      exact ⟨t, mem, (parseNext_panics (each t mem)).mp ⟨f, fault, panic⟩⟩
    · rintro ⟨t, mem, large⟩
      obtain ⟨f, fault, panic⟩ := (parseNext_panics (each t mem)).mpr large
      exact ⟨f, ⟨t, mem, fault⟩, panic⟩
  rw [← drained, feedData]
  cases drain (s.push chunk) <;> simp

/-- The calls keep what was read within what there is. -/
lemma within_feedData {s t : ParserState} {chunk : Bytes} {fed : Fed}
    (e : feedData s chunk = .ok (t, fed)) (h : s.Within) : t.Within := by
  obtain ⟨events, drained, -⟩ := drain_of_feedData e
  exact drive_preserves (P := ParserState.Within) within_next within_stall
    (s := s.push chunk) drained h

/-- The calls panic just where one of their rounds meets something too large. -/
theorem feedAll_panics {s : ParserState} (within : s.Within) (chunks : List Bytes) :
    (∃ f, feedAll s chunks = .error f ∧ f.IsPanic) ↔ ∃ t ∈ roundsAll s chunks, t.TooLarge := by
  induction chunks generalizing s with
  | nil => simp [feedAll, roundsAll]
  | cons chunk chunks ih =>
    rw [feedAll, roundsAll]
    simp only [List.mem_append, or_and_right, exists_or, ← feedData_panics within]
    cases fed : feedData s chunk with
    | error f => simp
    | ok r =>
      dsimp only
      rw [← ih (within_feedData fed within)]
      cases feedAll r.1 chunks with
      | error f => simp
      | ok r => simp

end ReplicaParser

/-- The calls of both parsers, with any chunks, return `Ok` or an `Err` exactly when no round
declares more than 64 bits or than a `Vec` can hold. -/
theorem neverPanics_iff (skipRdb : Bool) (chunks : List Bytes) :
    ((∀ f, ReplicaParser.feedAll (.new skipRdb) chunks = .error f → ¬ f.IsPanic) ↔
      ∀ t ∈ ReplicaParser.roundsAll (.new skipRdb) chunks, ¬ t.TooLarge) ∧
    ((∀ f, Rdb.feedAll .new chunks = .error f → ¬ f.IsPanic) ↔
      ∀ v ∈ RdbFormat.visits .new chunks, ¬ v.1.TooLarge) := by
  have replica := ReplicaParser.feedAll_panics (ReplicaParser.within_new skipRdb) chunks
  have rdb := Rdb.feedAll_panics .new chunks
  constructor
  · rw [← not_iff_not]
    simpa using replica
  · rw [← not_iff_not]
    simpa using rdb

/-- A bulk string that declares the largest length there is. -/
theorem neverPanics_fails :
    ReplicaParser.feedAll (.new true) [ascii "*1\r\n$18446744073709551615\r\n"] =
        .error (.panic "attempt to add with overflow") ∧
      Rdb.feedAll .new [ascii "REDIS0011" ++ [0, 129, 255, 255, 255, 255, 255, 255, 255, 255]] =
        .error (.panic "attempt to add with overflow") :=
  ⟨by decide +kernel, by decide +kernel⟩

end Veidrodelis.RedisNif
