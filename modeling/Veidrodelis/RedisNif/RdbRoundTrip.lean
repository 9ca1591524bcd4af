import Veidrodelis.RedisNif.RdbFormat
import Veidrodelis.RedisNif.RdbMachine

/-!
# Reading back what was written

The parser's looks and readers on the encodings of `RdbFormat`, from the lengths up to the values:
`peekLengthAt_encode`, `loadString_encode`, `calculateValueSize_encode`, `loadObject_encode`. Every
lemma has the rest of the input behind the encoding as a parameter. What a loader makes of a value
is `Value.reading`: an error, or the command that it read, which need not be the one that the value
means.
-/

namespace Veidrodelis.RedisNif.RdbFormat
open Incremental Rdb
open Bytes (FitsSigned)

/-! ## Lengths -/

/-- The first byte of a length of 6 bits. -/
lemma first_six {n : Nat} (h : n < 64) :
    encType (UInt8.ofNat n) = 0 ∧ (UInt8.ofNat n &&& 0x3F).toNat = n := by
  interval_cases n <;> decide

/-- The first byte of a length of 14 bits. -/
lemma first_fourteen {n : Nat} (h : n < 64) :
    encType (UInt8.ofNat (64 + n)) = 1 ∧ (UInt8.ofNat (64 + n) &&& 0x3F).toNat = n := by
  interval_cases n <;> decide

/-- An encoded length is seen with its value and its size. -/
lemma peekLengthAt_encode (l : Length) (rest : Bytes) :
    peekLengthAt (l.encode ++ rest) 0 = .done (l.value, l.encode.length) := by
  obtain ⟨form, value, fits⟩ := l
  cases form with
  | six =>
    obtain ⟨enc, low⟩ := first_six fits
    simp only [Length.encode, peekLengthAt_eq, List.drop_zero, List.cons_append, List.nil_append,
      enc, low, List.length_singleton]
  | fourteen =>
    simp only [LengthForm.bound] at fits
    obtain ⟨enc, low⟩ := first_fourteen (n := value / 256) (by omega)
    have byte : (UInt8.ofNat (value % 256)).toNat = value % 256 :=
      UInt8.toNat_ofNat_of_lt (by simp only [UInt8.size]; omega)
    have sum : value / 256 * 256 + value % 256 = value := by omega
    simp only [Length.encode, peekLengthAt_eq, List.drop_zero, List.cons_append, List.nil_append,
      enc, low, byte, sum, List.length_cons, List.length_nil, Nat.zero_add, Nat.reduceAdd]
  | thirtyTwo =>
    simp only [LengthForm.bound] at fits
    have enc : encType 0x80 = 2 := by decide
    have long : ¬ (Bytes.beBytes 4 value ++ rest).length < 4 := by
      simp only [List.length_append, Bytes.length_beBytes]
      omega
    have bytes : (Bytes.beBytes 4 value ++ rest).take 4 = Bytes.beBytes 4 value :=
      List.take_left' (Bytes.length_beBytes 4 value)
    simp only [Length.encode, peekLengthAt_eq, List.drop_zero, List.cons_append, enc, long, if_true,
      if_false, bytes,
      Bytes.beNat_beBytes (show value < 256 ^ 4 by omega), List.length_cons, Bytes.length_beBytes,
      Nat.reduceAdd]
  | sixtyFour =>
    simp only [LengthForm.bound] at fits
    have enc : encType 0x81 = 2 := by decide
    have ne : ¬ (0x81 : UInt8) = 0x80 := by decide
    have long : ¬ (Bytes.beBytes 8 value ++ rest).length < 8 := by
      simp only [List.length_append, Bytes.length_beBytes]
      omega
    have bytes : (Bytes.beBytes 8 value ++ rest).take 8 = Bytes.beBytes 8 value :=
      List.take_left' (Bytes.length_beBytes 8 value)
    simp only [Length.encode, peekLengthAt_eq, List.drop_zero, List.cons_append, enc, ne, long,
      if_true, if_false, bytes,
      Bytes.beNat_beBytes (show value < 256 ^ 8 by omega), List.length_cons, Bytes.length_beBytes,
      Nat.reduceAdd]

/-- A length that stands behind `front`. -/
lemma peekLengthAt_encode_at (front : Bytes) (l : Length) (rest : Bytes) :
    peekLengthAt (front ++ (l.encode ++ rest)) front.length = .done (l.value, l.encode.length) := by
  rw [← peekLengthAt_encode l rest, ← Nat.add_zero front.length, ← peekLengthAt_drop,
    List.drop_left]

/-- An encoded length is read as its value. -/
lemma loadLength_encode (l : Length) : Reader.Reads loadLength l.encode l.value := by
  intro rest
  rw [loadLength_of_peek (peekLengthAt_encode l rest), List.drop_left]

/-- A length takes at least one byte. -/
lemma Length.encode_ne_nil (l : Length) : l.encode ≠ [] := by
  unfold Length.encode
  split <;> simp

/-- The first byte of a length is not that of a special string. -/
lemma encType_length (l : Length) (rest : Bytes) :
    ∃ first tail, l.encode ++ rest = first :: tail ∧ encType first ≠ 3 := by
  have look := peekLengthAt_encode l rest
  cases b : l.encode ++ rest with
  | nil => simp [l.encode_ne_nil] at b
  | cons first tail =>
    refine ⟨first, tail, rfl, fun special => ?_⟩
    simp only [b, peekLengthAt_eq, List.drop_zero, special] at look
    cases look

/-! ## Strings -/

/-- The two lengths of a compressed string. -/
lemma lzf_lengths (clen ulen : Length) (rest : Bytes) :
    peekLengthAt (0xC3 :: (clen.encode ++ (ulen.encode ++ rest))) 1
      = .done (clen.value, clen.encode.length) ∧
    peekLengthAt (0xC3 :: (clen.encode ++ (ulen.encode ++ rest))) (1 + clen.encode.length)
      = .done (ulen.value, ulen.encode.length) := by
  refine ⟨peekLengthAt_encode_at [0xC3] clen (ulen.encode ++ rest), ?_⟩
  have second := peekLengthAt_encode_at (0xC3 :: clen.encode) ulen rest
  rwa [List.length_cons, Nat.add_comm, List.cons_append] at second

/-- The size of a string that is written in the buffer. -/
lemma calculateStringSize_encode (s : EncodedString) (rest : Bytes)
    (h : s.encode.length < usizeSize) :
    calculateStringSize (s.encode ++ rest) 0 = .done s.encode.length := by
  cases s with
  | raw length bytes exact =>
    simp only [EncodedString.encode, List.length_append, List.append_assoc] at h ⊢
    obtain ⟨first, tail, b, plain⟩ := encType_length length (bytes ++ rest)
    have look := peekLengthAt_encode length (bytes ++ rest)
    rw [b] at look ⊢
    simp only [calculateStringSize_eq, List.drop_zero, plain, if_false, look, Outcome.done_bind,
      exact]
    exact usizeAdd_of_lt h
  | int form value fits =>
    cases form <;>
      simp [EncodedString.encode, calculateStringSize_eq, IntForm.code, IntForm.width, encType]
  | lzf clen ulen compressed text exact inverse =>
    have enc : encType 0xC3 = 3 := by decide
    have sub : ((0xC3 : UInt8) &&& 0x3F).toNat = 3 := by decide
    obtain ⟨look1, look2⟩ := lzf_lengths clen ulen (compressed ++ rest)
    simp only [EncodedString.encode, List.length_cons, List.length_append, List.cons_append,
      List.append_assoc] at h ⊢
    simp only [calculateStringSize_eq, List.drop_zero, enc, sub, if_true, Nat.zero_add, look1,
      Outcome.done_bind, look2]
    rw [usizeAdd_of_lt (by omega)]
    congr 1
    omega

/-- A string that stands behind `front`. -/
lemma calculateStringSize_encode_at (front : Bytes) {s : EncodedString}
    (h : s.encode.length < usizeSize) (rest : Bytes) :
    calculateStringSize (front ++ (s.encode ++ rest)) front.length = .done s.encode.length := by
  rw [← calculateStringSize_drop, List.drop_left, calculateStringSize_encode s rest h]

/-- An encoded string has its text. -/
lemma stringText_encode (s : EncodedString) (rest : Bytes) :
    stringText (s.encode ++ rest) = .ok s.text := by
  cases s with
  | raw length bytes exact =>
    simp only [EncodedString.encode, EncodedString.text, List.append_assoc]
    obtain ⟨first, tail, b, plain⟩ := encType_length length (bytes ++ rest)
    have look := peekLengthAt_encode length (bytes ++ rest)
    have text : ((length.encode ++ (bytes ++ rest)).drop length.encode.length).take length.value =
      bytes := by
      rw [List.drop_left, exact, List.take_left]
    rw [b] at look text ⊢
    simp only [stringText, plain, if_false, look, text]
  | int form value fits =>
    have back := Bytes.signed_unsigned fits.1 fits.2
    have bytes (x : Bytes) : (Bytes.leBytes form.width (Bytes.unsigned form.width value) ++ x).take
      form.width
        = Bytes.leBytes form.width (Bytes.unsigned form.width value) :=
      List.take_left' (Bytes.length_leBytes _ _)
    have number := Bytes.leNat_leBytes (Bytes.unsigned_lt form.width value)
    cases form with
    | int8 =>
      have enc : encType 0xC0 = 3 := by decide
      have sub : ((0xC0 : UInt8) &&& 0x3F).toNat = 0 := by decide
      simp only [IntForm.width] at back bytes number
      simp only [EncodedString.encode, EncodedString.text, IntForm.code, IntForm.width,
        List.cons_append, stringText, enc, sub, if_true, bytes, number, back]
    | int16 =>
      have enc : encType 0xC1 = 3 := by decide
      have sub : ((0xC1 : UInt8) &&& 0x3F).toNat = 1 := by decide
      simp only [IntForm.width] at back bytes number
      simp only [EncodedString.encode, EncodedString.text, IntForm.code, IntForm.width,
        List.cons_append, stringText, enc, sub, if_true, bytes, number, back]
    | int32 =>
      have enc : encType 0xC2 = 3 := by decide
      have sub : ((0xC2 : UInt8) &&& 0x3F).toNat = 2 := by decide
      simp only [IntForm.width] at back bytes number
      simp only [EncodedString.encode, EncodedString.text, IntForm.code, IntForm.width,
        List.cons_append, stringText, enc, sub, if_true, bytes, number, back]
  | lzf clen ulen compressed text exact inverse =>
    have enc : encType 0xC3 = 3 := by decide
    have sub : ((0xC3 : UInt8) &&& 0x3F).toNat = 3 := by decide
    obtain ⟨look1, look2⟩ := lzf_lengths clen ulen (compressed ++ rest)
    have behind : (0xC3 :: (clen.encode ++ (ulen.encode ++ (compressed ++ rest)))).drop
        (1 + clen.encode.length + ulen.encode.length) = compressed ++ rest := by
      rw [Nat.add_assoc, Nat.add_comm 1, List.drop_succ_cons, ← List.append_assoc,
        ← List.length_append, List.drop_left]
    simp only [EncodedString.encode, EncodedString.text, List.cons_append, List.append_assoc]
    simp only [stringText, enc, sub, if_true, look1, look2, behind, exact, List.take_left, inverse]

/-- An encoded string is read as its text. -/
lemma loadString_encode {s : EncodedString} (h : s.encode.length < usizeSize) :
    Reader.Reads loadString s.encode s.text := by
  intro rest
  have long : ¬ (s.encode ++ rest).length < s.encode.length := by
    simp only [List.length_append]
    omega
  rw [loadString_eq, calculateStringSize_encode s rest h]
  simp only [readSized, long, if_false, stringText_encode, List.drop_left]

/-! ## Sizes -/

/-- A size loop moves over `enc`, wherever it stands. -/
def Grows (entry : Bytes → Nat × Nat → Outcome Fault (Nat × Nat)) (enc : Bytes) : Prop :=
  ∀ front rest : Bytes, (front ++ enc).length < usizeSize →
    entry (front ++ (enc ++ rest)) (front.length, front.length)
      = .done ((front ++ enc).length, (front ++ enc).length)

/-- Size loops over two encodings, one behind the other. -/
lemma Grows.seq {e1 e2 : Bytes → Nat × Nat → Outcome Fault (Nat × Nat)} {x y : Bytes}
    (h1 : Grows e1 x) (h2 : Grows e2 y) :
    Grows (fun b acc => do let acc ← e1 b acc; e2 b acc) (x ++ y) := by
  intro front rest bound
  simp only [List.length_append] at bound
  have first := h1 front (y ++ rest) (by simp only [List.length_append]; omega)
  have second := h2 (front ++ x) rest (by simp only [List.length_append]; omega)
  simp only [List.append_assoc] at first second ⊢
  simp only [first, Outcome.done_bind, second]

/-- A size loop over the encodings of many items. -/
lemma Grows.times {α : Type} {entry : Bytes → Nat × Nat → Outcome Fault (Nat × Nat)}
    {items : List α} {enc : α → Bytes} (h : ∀ i ∈ items, Grows entry (enc i)) :
    Grows (fun b => growTimes (entry b) items.length) (items.flatMap enc) := by
  induction items with
  | nil =>
    intro front rest _
    simp only [List.length_nil, List.flatMap_nil, growTimes, List.append_nil]
  | cons i items ih =>
    have tail := ih fun j hj => h j (by simp [hj])
    exact (h i (by simp)).seq tail

/-- A size grows within 64 bits. -/
lemma grow_done_of_lt {c n : Nat} (h : c + n < usizeSize) :
    grow (c, c) n = .done (c + n, c + n) := by
  simp only [grow, usizeAdd_of_lt h, Outcome.done_bind, Outcome.pure_eq]

/-- The size loop moves over a string. -/
lemma growString_grows (s : EncodedString) : Grows growString s.encode := by
  intro front rest bound
  rw [List.length_append] at bound ⊢
  have size := calculateStringSize_encode_at front (s := s) (by omega) rest
  simp only [growString, size, Outcome.done_bind]
  exact grow_done_of_lt bound

/-- Eight bytes behind an entry. -/
lemma grow_grows (bytes : Bytes) : Grows (fun _ acc => grow acc bytes.length) bytes := by
  intro front rest bound
  rw [List.length_append] at bound ⊢
  exact grow_done_of_lt bound

/-- The size loop moves over a field. -/
lemma hashField_grows (f : HashField) : Grows growHashEntry f.encode :=
  (growString_grows f.field).seq (growString_grows f.value)

/-- The size loop moves over a member. -/
lemma zsetMember_grows (m : ZsetMember) : Grows growZset2Entry m.encode := by
  have eight := grow_grows (Bytes.leBytes 8 m.score.toNat)
  rw [Bytes.length_leBytes] at eight
  exact (growString_grows m.member).seq eight

/-- The size loop moves over a field with a deadline. -/
lemma hash2Field_grows (f : Hash2Field) : Grows growHash2Entry f.encode := by
  have eight := grow_grows (Bytes.leBytes 8 f.expiry.toNat)
  rw [Bytes.length_leBytes] at eight
  have grows := (growString_grows f.field).seq ((growString_grows f.value).seq eight)
  rwa [← List.append_assoc] at grows

/-- The size loop moves over a node. -/
lemma quicklistNode_grows (n : QuicklistNode) : Grows growQuicklist2Entry n.encode := by
  have grows := (grow_grows [n.container]).seq (growString_grows n.blob)
  intro front rest bound
  have inside : front.length < (front ++ (n.encode ++ rest)).length := by
    simp only [QuicklistNode.encode, List.length_append, List.length_cons]
    omega
  simp only [growQuicklist2Entry, inside, if_true]
  exact grows front rest bound

/-- A count and its entries. -/
lemma calculateCounted_encode {α : Type} {entry : Bytes → Nat × Nat → Outcome Fault (Nat × Nat)}
    {items : List α} {enc : α → Bytes} (h : ∀ i, Grows entry (enc i)) {count : Length}
    (exact : count.value = items.length) (rest : Bytes)
    (bound : (count.encode ++ items.flatMap enc).length < usizeSize) :
    calculateCounted (count.encode ++ items.flatMap enc ++ rest) 0
        (entry (count.encode ++ items.flatMap enc ++ rest))
      = .done (count.encode ++ items.flatMap enc).length := by
  have sizes := Grows.times (fun i _ => h i) count.encode rest bound
  rw [List.append_assoc, ← exact] at *
  have small : 0 + count.encode.length < usizeSize := by
    rw [List.length_append] at bound
    omega
  simp only [calculateCounted, peekLengthAt_encode, Outcome.done_bind, usizeAdd_of_lt small,
    Nat.zero_add, sizes, Outcome.pure_eq]

/-- The size of a value that is written in the buffer. -/
theorem calculateValueSize_encode (v : Value) (rest : Bytes) (bound : v.encode.length < usizeSize) :
    calculateValueSize (v.encode ++ rest) v.type.code 0 = .done v.encode.length := by
  simp only [calculateValueSize, ofCode_code]
  cases v with
  | string value => exact calculateStringSize_encode value rest bound
  | hash count fields exact => exact calculateCounted_encode hashField_grows exact rest bound
  | zset2 count members exact => exact calculateCounted_encode zsetMember_grows exact rest bound
  | setIntset blob set holds => exact calculateStringSize_encode blob rest bound
  | hashListpack listpack even => exact calculateStringSize_encode listpack.blob rest bound
  | zsetListpack listpack even numbers => exact calculateStringSize_encode listpack.blob rest bound
  | listQuicklist2 count nodes exact nonempty =>
    exact calculateCounted_encode quicklistNode_grows exact rest bound
  | setListpack listpack => exact calculateStringSize_encode listpack.blob rest bound
  | hash2 count fields exact nonempty =>
    exact calculateCounted_encode hash2Field_grows exact rest bound

/-! ## Values -/

/-- A number of fixed width is read as written. -/
lemma uint_reads (n v : Nat) (h : v < 256 ^ n) :
    Reader.Reads (do Reader.ensure n; getUIntLe n : Load Nat) (Bytes.leBytes n v) v := by
  intro rest
  have long : n ≤ (Bytes.leBytes n v ++ rest).length := by
    simp only [List.length_append, Bytes.length_leBytes]
    omega
  have front : (Bytes.leBytes n v ++ rest).take n = Bytes.leBytes n v :=
    List.take_left' (Bytes.length_leBytes n v)
  have behind : (Bytes.leBytes n v ++ rest).drop n = rest :=
    List.drop_left' (Bytes.length_leBytes n v)
  rw [Reader.bind_done (ensure_of_le long), getUIntLe_of_le long, front, behind,
    Bytes.leNat_leBytes h]

/-- A field is read as its name and its value. -/
lemma hashField_reads {f : HashField} (h : f.encode.length < usizeSize) :
    Reader.Reads loadHashEntry f.encode [f.field.text, f.value.text] := by
  simp only [HashField.encode, List.length_append] at h
  have field := loadString_encode (s := f.field) (by omega)
  have value := loadString_encode (s := f.value) (by omega)
  intro rest
  unfold loadHashEntry HashField.encode
  rw [List.append_assoc, Reader.bind_done (field _), Reader.bind_done (value _)]
  rfl

/-- A member is read as the text of its score and its name. -/
lemma zsetMember_reads {m : ZsetMember} (h : m.encode.length < usizeSize) :
    Reader.Reads loadZset2Entry m.encode [Binary64.display m.score.toNat, m.member.text] := by
  simp only [ZsetMember.encode, List.length_append] at h
  have member := loadString_encode (s := m.member) (by omega)
  have score := uint_reads 8 m.score.toNat m.score.toNat_lt
  intro rest
  unfold loadZset2Entry ZsetMember.encode
  rw [List.append_assoc, Reader.bind_done (member _), ← Reader.bind_assoc,
    Reader.bind_done (score _)]
  rfl

/-- A field with a deadline is read without it. -/
lemma hash2Field_reads {f : Hash2Field} (h : f.encode.length < usizeSize) :
    Reader.Reads loadHash2Entry f.encode [f.field.text, f.value.text] := by
  simp only [Hash2Field.encode, List.length_append] at h
  have field := loadString_encode (s := f.field) (by omega)
  have value := loadString_encode (s := f.value) (by omega)
  have expiry := uint_reads 8 f.expiry.toNat f.expiry.toNat_lt
  intro rest
  unfold loadHash2Entry Hash2Field.encode
  rw [List.append_assoc, List.append_assoc, Reader.bind_done (field _), Reader.bind_done (value _),
    ← Reader.bind_assoc, Reader.bind_done (expiry _)]
  rfl

/-- A node is read as a listpack, whatever its container byte says. -/
lemma loadQuicklist2Node_encode (container : UInt8) {blob : EncodedString}
    (h : blob.encode.length < usizeSize) (rest : Bytes) :
    loadQuicklist2Node ((container :: blob.encode) ++ rest)
      = Reader.lift (parseListpack blob.text) rest := by
  have one : 1 ≤ ((container :: blob.encode) ++ rest).length := by
    simp only [List.cons_append, List.length_cons]
    omega
  rw [loadQuicklist2Node_eq, Reader.bind_done (ensure_of_le one),
    Reader.bind_done (advance_of_le one)]
  simp only [List.cons_append, List.drop_succ_cons, List.drop_zero]
  rw [Reader.bind_done (loadString_encode h rest)]

/-- The nodes of a list one after another, each a container byte and a string. -/
lemma loadNodes {α : Type} {nodes : List α} (container : α → UInt8) (blob : α → EncodedString)
    (bound : ∀ n ∈ nodes, (blob n).encode.length < usizeSize) (rest : Bytes) :
    Reader.times nodes.length loadQuicklist2Node
      ((nodes.flatMap fun n => container n :: (blob n).encode) ++ rest) =
      Reader.lift (nodes.mapM fun n => parseListpack (blob n).text) rest := by
  induction nodes with
  | nil => rfl
  | cons n nodes ih =>
    have tail := ih fun m hm => bound m (by simp [hm])
    have head := loadQuicklist2Node_encode (container n) (bound n (by simp))
      ((nodes.flatMap fun n => container n :: (blob n).encode) ++ rest)
    rw [List.flatMap_cons, List.append_assoc, List.length_cons, Reader.times, List.mapM_cons]
    cases first : parseListpack (blob n).text with
    | error f =>
      rw [first] at head
      exact Reader.bind_fault head
    | ok entries =>
      rw [first] at head
      rw [Reader.bind_done (show loadQuicklist2Node _ = .done entries _ from head)]
      cases later : nodes.mapM fun n => parseListpack (blob n).text with
      | error f =>
        rw [later] at tail
        exact Reader.bind_fault tail
      | ok all =>
        rw [later] at tail
        rw [Reader.bind_done (show _ = Reading.done all rest from tail)]
        rfl

/-- A count and its entries, read. -/
lemma counted_reads {α β : Type} {m : Load β} {items : List α} {enc : α → Bytes} {val : α → β}
    {count : Length} (exact : count.value = items.length)
    (bound : (count.encode ++ items.flatMap enc).length < usizeSize)
    (h : ∀ i, (enc i).length < usizeSize → Reader.Reads m (enc i) (val i)) :
    Reader.Reads (do let n ← loadLength; Reader.times n m : Load (List β))
      (count.encode ++ items.flatMap enc) (items.map val) := by
  have each : ∀ i ∈ items, Reader.Reads m (enc i) (val i) := by
    intro i hi
    refine h i ?_
    have le : (enc i).length ≤ (items.flatMap enc).length :=
      (List.sublist_flatten_of_mem (List.mem_map_of_mem hi)).length_le
    rw [List.length_append] at bound
    omega
  refine Reader.Reads.bind (loadLength_encode count) ?_
  rw [exact]
  exact Reader.Reads.times each

/-- The entries of an intset are read as its members. -/
lemma intsetEntries_encode {w : IntsetWidth} {members : List Int}
    (fits : ∀ m ∈ members, FitsSigned w.bytes m) :
    intsetEntries w.bytes members.length
      (members.flatMap fun m => Bytes.leBytes w.bytes (Bytes.unsigned w.bytes m)) =
      .ok (members, []) := by
  induction members with
  | nil => rfl
  | cons m members ih =>
    have known : w.bytes = 2 ∨ w.bytes = 4 ∨ w.bytes = 8 := by cases w <;> decide
    have tail := ih fun k hk => fits k (by simp [hk])
    have head := fits m (by simp)
    have long (x : Bytes) :
        ¬ (Bytes.leBytes w.bytes (Bytes.unsigned w.bytes m) ++ x).length < w.bytes := by
      simp only [List.length_append, Bytes.length_leBytes]
      omega
    have front (x : Bytes) :
        (Bytes.leBytes w.bytes (Bytes.unsigned w.bytes m) ++ x).take w.bytes =
          Bytes.leBytes w.bytes (Bytes.unsigned w.bytes m) :=
      List.take_left' (Bytes.length_leBytes _ _)
    have behind (x : Bytes) :
        (Bytes.leBytes w.bytes (Bytes.unsigned w.bytes m) ++ x).drop w.bytes = x :=
      List.drop_left' (Bytes.length_leBytes _ _)
    simp only [List.length_cons, List.flatMap_cons, intsetEntries_succ known, long, if_false, front,
      behind, tail, Bytes.leNat_leBytes (Bytes.unsigned_lt _ _),
      Bytes.signed_unsigned head.1 head.2]
    rfl

/-- An intset is read as its members. -/
lemma parseIntset_encode (s : Intset) : parseIntset s.encode = .ok s.members := by
  have small : s.members.length < 256 ^ 4 := s.small
  have width : s.width.bytes < 256 ^ 4 := by cases s.width <;> decide
  have long : ¬ s.encode.length < 8 := by
    simp only [Intset.encode, List.length_append, Bytes.length_leBytes]
    omega
  have enc : s.encode.take 4 = Bytes.leBytes 4 s.width.bytes := by
    rw [Intset.encode, List.append_assoc]
    exact List.take_left' (Bytes.length_leBytes _ _)
  have behind : s.encode.drop 4 = Bytes.leBytes 4 s.members.length ++
      s.members.flatMap fun m => Bytes.leBytes s.width.bytes (Bytes.unsigned s.width.bytes m) := by
    rw [Intset.encode, List.append_assoc]
    exact List.drop_left' (Bytes.length_leBytes _ _)
  have count : (s.encode.drop 4).take 4 = Bytes.leBytes 4 s.members.length := by
    rw [behind]
    exact List.take_left' (Bytes.length_leBytes _ _)
  have entries : s.encode.drop 8
      = s.members.flatMap fun m => Bytes.leBytes s.width.bytes
        (Bytes.unsigned s.width.bytes m) := by
    rw [show 8 = 4 + 4 from rfl, ← List.drop_drop, behind]
    exact List.drop_left' (Bytes.length_leBytes _ _)
  simp only [parseIntset_eq, long, if_false, enc, count, entries, Bytes.leNat_leBytes small,
    Bytes.leNat_leBytes width, intsetEntries_encode s.fits]
  rfl

/-! ## What is made of a value -/

/-- What the loaders make of the entries of a listpack that should come in pairs. -/
def paired (refusal : String) (entries : List Bytes) : Except Fault (List Bytes) :=
  if entries.length % 2 ≠ 0 then .error (.err refusal) else .ok entries

/-- What the loader reads from a value: the command and its arguments behind the key; no command for
a list without elements. -/
def Value.reading : Value → Except Fault (Option (Bytes × List Bytes))
  | .hashListpack listpack _ => do
    let entries ← parseListpack listpack.blob.text
    let pairs ← paired "odd_hash_entries" entries
    return some (ascii "HSET", pairs)
  | .zsetListpack listpack _ _ => do
    let entries ← parseListpack listpack.blob.text
    let pairs ← paired "odd_zset_entries" entries
    let args ← zsetListpackArgs pairs
    return some (ascii "ZADD", args)
  | .setListpack listpack => do
    let entries ← parseListpack listpack.blob.text
    return some (ascii "SADD", entries)
  | .listQuicklist2 _ nodes _ _ => do
    let all ← nodes.mapM fun n => parseListpack n.blob.text
    return if all.flatten = [] then none else some (ascii "RPUSH", all.flatten)
  | v => .ok (some v.meaning)

/-- A command on a key. -/
def commandOn (db : Nat) (key : Bytes) : Option (Bytes × List Bytes) → List RawCommand
  | none => []
  | some (name, args) => [⟨db, name, key :: args⟩]

/-- The loader turns the encoding into a value, whatever stands behind it, or refuses it. -/
def Becomes {α : Type} (m : Load α) (enc : Bytes) (r : Except Fault α) : Prop :=
  ∀ rest, m (enc ++ rest) = Reader.lift r rest

/-- An encoding that becomes a value is read as it. -/
lemma Becomes.reads {α : Type} {m : Load α} {enc : Bytes} {r : Except Fault α} {a : α}
    (h : Becomes m enc r) (ok : r = .ok a) : Reader.Reads m enc a := by
  intro rest
  rw [h rest, ok]
  rfl

/-- A set in a listpack becomes `SADD` of its entries. -/
lemma loadSetListpack_encode {blob : EncodedString} (bound : blob.encode.length < usizeSize)
    (db : Nat) (key : Bytes) :
    Becomes (loadSetListpackValue db key) blob.encode
      ((fun entries => [⟨db, ascii "SADD", key :: entries⟩]) <$> parseListpack blob.text) := by
  intro rest
  rw [loadSetListpackValue, Reader.bind_done (loadString_encode bound rest)]
  cases parseListpack blob.text <;> rfl

/-- A hash in a listpack becomes `HSET` of its pairs. -/
lemma loadHashListpack_encode {blob : EncodedString} (bound : blob.encode.length < usizeSize)
    (db : Nat) (key : Bytes) :
    Becomes (loadHashListpackValue db key) blob.encode
      ((fun pairs => [⟨db, ascii "HSET", key :: pairs⟩]) <$>
        (parseListpack blob.text >>= paired "odd_hash_entries")) := by
  intro rest
  rw [loadHashListpackValue, Reader.bind_done (loadString_encode bound rest)]
  cases parseListpack blob.text with
  | error f => rfl
  | ok entries =>
    show (if entries.length % 2 ≠ 0 then _ else _ : Load (List RawCommand)) rest
      = Reader.lift (_ <$> (if entries.length % 2 ≠ 0 then _ else _)) rest
    by_cases odd : entries.length % 2 ≠ 0
    · rw [if_pos odd, if_pos odd]
      rfl
    · rw [if_neg odd, if_neg odd]
      rfl

/-- A sorted set in a listpack becomes `ZADD` of its scores and members. -/
lemma loadZsetListpack_encode {blob : EncodedString} (bound : blob.encode.length < usizeSize)
    (db : Nat) (key : Bytes) :
    Becomes (loadZsetListpackValue db key) blob.encode
      ((fun args => [⟨db, ascii "ZADD", key :: args⟩]) <$>
        (parseListpack blob.text >>= paired "odd_zset_entries" >>= zsetListpackArgs)) := by
  intro rest
  rw [loadZsetListpackValue, Reader.bind_done (loadString_encode bound rest)]
  cases parseListpack blob.text with
  | error f => rfl
  | ok entries =>
    show (if entries.length % 2 ≠ 0 then _ else _ : Load (List RawCommand)) rest
      = Reader.lift (_ <$> ((if entries.length % 2 ≠ 0 then _ else _) >>= zsetListpackArgs)) rest
    by_cases odd : entries.length % 2 ≠ 0
    · rw [if_pos odd, if_pos odd]
      rfl
    · rw [if_neg odd, if_neg odd]
      show (Reader.lift (zsetListpackArgs entries) >>= _) rest =
        Reader.lift (_ <$> zsetListpackArgs entries) rest
      cases zsetListpackArgs entries <;> rfl

/-- A list becomes `RPUSH` of what its nodes are read as. -/
lemma loadQuicklist2_encode {nodes : List QuicklistNode} {count : Length}
    (exact : count.value = nodes.length)
    (bound : (count.encode ++ nodes.flatMap (·.encode)).length < usizeSize) (db : Nat)
    (key : Bytes) :
    Becomes (loadQuicklist2Value db key) (count.encode ++ nodes.flatMap (·.encode))
      ((fun all => if all.flatten = [] then [] else [⟨db, ascii "RPUSH", key :: all.flatten⟩]) <$>
        nodes.mapM fun n => parseListpack n.blob.text) := by
  intro rest
  have each : ∀ n ∈ nodes, n.blob.encode.length < usizeSize := by
    intro n hn
    have le : n.encode.length ≤ (nodes.flatMap (·.encode)).length :=
      (List.sublist_flatten_of_mem (List.mem_map_of_mem hn)).length_le
    simp only [QuicklistNode.encode, List.length_append, List.length_cons] at le bound
    omega
  have read : Reader.times nodes.length loadQuicklist2Node (nodes.flatMap (·.encode) ++ rest)
      = Reader.lift (nodes.mapM fun n => parseListpack n.blob.text) rest :=
    loadNodes QuicklistNode.container QuicklistNode.blob each rest
  rw [loadQuicklist2Value, List.append_assoc, Reader.bind_done (loadLength_encode count _), exact]
  cases all : nodes.mapM fun n => parseListpack n.blob.text with
  | error f =>
    rw [all] at read
    exact Reader.bind_fault read
  | ok all' =>
    rw [all] at read
    rw [Reader.bind_done (show _ = Reading.done all' rest from read)]
    show (if all'.flatten = [] then _ else _ : Load (List RawCommand)) rest =
      .done (if all'.flatten = [] then _ else _) rest
    split <;> rfl

/-- A value that is written in the buffer is loaded as the command that was read from it. -/
theorem loadObject_encode (v : Value) (db : Nat) (key : Bytes)
    (bound : v.encode.length < usizeSize) :
    Becomes (loadObject v.type.code db key) v.encode (commandOn db key <$> v.reading) := by
  intro rest
  simp only [loadObject, ofCode_code]
  cases v with
  | string value =>
    simp only [Value.type, Value.encode, loadStringValue]
    rw [Reader.bind_done (loadString_encode bound rest)]
    rfl
  | hash count fields exact =>
    have reads := counted_reads exact bound fun f => hashField_reads (f := f)
    simp only [Value.type, Value.encode, Value.reading, Value.meaning, loadHashValue]
    rw [← Reader.bind_assoc, Reader.bind_done (reads rest), List.flatMap_def]
    rfl
  | zset2 count members exact =>
    have reads := counted_reads exact bound fun m => zsetMember_reads (m := m)
    simp only [Value.type, Value.encode, Value.reading, Value.meaning, loadZset2Value]
    rw [← Reader.bind_assoc, Reader.bind_done (reads rest), List.flatMap_def]
    rfl
  | hash2 count fields exact nonempty =>
    have reads := counted_reads exact bound fun f => hash2Field_reads (f := f)
    have some1 : (fields.map fun f => [f.field.text, f.value.text]).flatten ≠ [] := by
      cases fields with
      | nil => exact absurd rfl nonempty
      | cons f fields => simp
    simp only [Value.type, Value.encode, Value.reading, Value.meaning, loadHash2Value]
    rw [← Reader.bind_assoc, Reader.bind_done (reads rest), List.flatMap_def]
    simp only [some1, if_false, Reader.pure_apply]
    rfl
  | setIntset blob set holds =>
    simp only [Value.type, Value.encode, loadSetIntsetValue]
    rw [Reader.bind_done (loadString_encode bound rest), holds, parseIntset_encode]
    rfl
  | listQuicklist2 count nodes exact nonempty =>
    refine (loadQuicklist2_encode exact bound db key rest).trans ?_
    show Reader.lift (_ <$> nodes.mapM _) rest =
      Reader.lift (commandOn db key <$> (nodes.mapM _ >>= _)) rest
    cases nodes.mapM fun n => parseListpack n.blob.text with
    | error f => rfl
    | ok all =>
      show Reader.lift (.ok (if all.flatten = [] then _ else _)) rest
        = Reader.lift (.ok (commandOn db key (if all.flatten = [] then _ else _))) rest
      split <;> rfl
  | setListpack listpack =>
    refine (loadSetListpack_encode bound db key rest).trans ?_
    show _ = Reader.lift (commandOn db key <$> (parseListpack listpack.blob.text >>= _)) rest
    cases parseListpack listpack.blob.text <;> rfl
  | hashListpack listpack even =>
    refine (loadHashListpack_encode bound db key rest).trans ?_
    show _ = Reader.lift (commandOn db key <$> (parseListpack listpack.blob.text >>= _)) rest
    cases parseListpack listpack.blob.text with
    | error f => rfl
    | ok entries =>
      show Reader.lift (_ <$> paired _ entries) rest =
        Reader.lift (commandOn db key <$> (paired _ entries >>= _)) rest
      cases paired "odd_hash_entries" entries <;> rfl
  | zsetListpack listpack even numbers =>
    refine (loadZsetListpack_encode bound db key rest).trans ?_
    show _ = Reader.lift (commandOn db key <$> (parseListpack listpack.blob.text >>= _)) rest
    cases parseListpack listpack.blob.text with
    | error f => rfl
    | ok entries =>
      show Reader.lift (_ <$> (paired _ entries >>= _)) rest
        = Reader.lift (commandOn db key <$> (paired _ entries >>= _)) rest
      cases paired "odd_zset_entries" entries with
      | error f => rfl
      | ok pairs =>
        show Reader.lift (_ <$> zsetListpackArgs pairs) rest
          = Reader.lift (commandOn db key <$> (zsetListpackArgs pairs >>= _)) rest
        cases zsetListpackArgs pairs <;> rfl

/-! ## Values that can be read -/

/-- The pairs of a sorted set that can be read are its scores and members. -/
lemma zsetListpackArgs_numbers : ∀ {entries : List Bytes}, entries.length % 2 = 0 →
    (∀ score ∈ scoreTexts entries, (Binary64.parse score).isSome) →
      zsetListpackArgs entries = .ok (scoreArgs entries)
  | [], _, _ => rfl
  | [_], odd, _ => by
    rw [List.length_singleton] at odd
    cases odd
  | member :: score :: rest, even, numbers => by
    have rest_even : rest.length % 2 = 0 := by
      simp only [List.length_cons] at even
      omega
    have later := zsetListpackArgs_numbers rest_even
      fun s hs => numbers s (List.mem_cons_of_mem _ hs)
    obtain ⟨bits, parsed⟩ := Option.isSome_iff_exists.mp (numbers score List.mem_cons_self)
    rw [zsetListpackArgs, later, scoreArgs, binaryToFloatSafe, parsed]
    rfl

/-- An even number of entries is not refused. -/
lemma paired_even {refusal : String} {entries : List Bytes} (even : entries.length % 2 = 0) :
    paired refusal entries = .ok entries := if_neg (not_not.mpr even)

/-- A listpack that can be read is parsed as its entries. -/
lemma Listpack.parse (l : Listpack) (readable : l.content.Readable) :
    parseListpack l.blob.text = .ok l.entries := by
  rw [l.holds]
  exact l.content.all_iff.mpr readable

/-- Lists of values are the same as results when they are the same. -/
lemma map_ok_inj {β ε : Type} {bs cs : List β} : bs.map (@Except.ok ε β) = cs.map .ok ↔ bs = cs :=
  (List.map_injective_iff.mpr fun _ _ eq => Except.ok.inj eq).eq_iff

/-- A sequence of computations succeeds with the values that each of them has. -/
lemma mapM_eq_ok {α β ε : Type} {f : α → Except ε β} {as : List α} {bs : List β} :
    as.mapM f = .ok bs ↔ as.map f = bs.map .ok := by
  induction as generalizing bs with
  | nil => cases bs <;> simp [pure, Except.pure]
  | cons a as ih =>
    rw [List.mapM_cons]
    cases first : f a with
    | error e => cases bs <;> simp [first, bind, Except.bind]
    | ok b =>
      cases later : as.mapM f with
      | error e =>
        have none (cs : List β) : as.map f ≠ cs.map .ok := fun eq => by
          rw [ih.mpr eq] at later
          cases later
        cases bs with
        | nil => simp [first, bind, Except.bind]
        | cons c cs => simp [first, bind, Except.bind, none cs]
      | ok cs =>
        have tail := ih.mp later
        cases bs with
        | nil => simp [first, bind, Except.bind, pure, Except.pure]
        | cons c ds => simp [first, tail, bind, Except.bind, pure, Except.pure, map_ok_inj]

/-- The value is read as what it is. -/
def Value.Right (v : Value) : Prop := v.reading = .ok (some v.meaning)

/-- A value that can be read is read as what it is. -/
lemma Value.Readable.right {v : Value} (readable : v.Readable) : v.Right := by
  cases v with
  | hashListpack listpack even =>
    rw [Value.Right, Value.reading, listpack.parse readable]
    show (paired _ listpack.entries >>= _) = _
    rw [paired_even even]
    rfl
  | zsetListpack listpack even numbers =>
    rw [Value.Right, Value.reading, listpack.parse readable]
    show (paired _ listpack.entries >>= _) = _
    rw [paired_even even]
    show (zsetListpackArgs listpack.entries >>= _) = _
    rw [zsetListpackArgs_numbers even numbers]
    rfl
  | setListpack listpack =>
    rw [Value.Right, Value.reading, listpack.parse readable]
    rfl
  | listQuicklist2 count nodes exact nonempty =>
    have each : (nodes.mapM fun n => parseListpack n.blob.text) = .ok (nodes.map (·.elements)) := by
      rw [mapM_eq_ok, List.map_map]
      refine List.map_congr_left fun n hn => ?_
      have here : n.Readable := readable n hn
      cases n with
      | plain blob => exact here.elim
      | packed listpack => exact listpack.parse here
    rw [Value.Right, Value.reading, each]
    show Except.ok (if (nodes.map (·.elements)).flatten = [] then _ else _) = _
    rw [← List.flatMap_def, if_neg nonempty]
    rfl
  | _ => rfl

end Veidrodelis.RedisNif.RdbFormat
