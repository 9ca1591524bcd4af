import Veidrodelis.RedisNif.ListpackFormat
import Veidrodelis.RedisNif.RdbRoundTrip

/-!
# Values that hold a listpack

A listpack is the content of a string: of the value of a small set, hash or sorted set, or of a node
of a list. `loads_iff`: a listpack of the sizes that the server writes is decoded to its elements,
on its own and in each of these places, exactly when no element is a negative integer of 13 bits.
-/

namespace Veidrodelis.RedisNif.ListpackFormat
open Incremental Rdb RdbFormat

/-- A listpack whose header counts its elements, which are no larger than a value of this kind may
hold. -/
structure Compact where
  elements : List Element
  few : elements.length < 65535
  small : ∀ e ∈ elements, e.body.length ≤ 16382

def Compact.texts (l : Compact) : List Bytes := l.elements.map (·.text)

/-- The string holds the listpack. -/
def Compact.HeldBy (l : Compact) (blob : EncodedString) : Prop :=
  blob.text = encodeListpack l.elements ∧ blob.encode.length < usizeSize

/-- A hash or a sorted set: the elements in pairs. -/
def inPairs (pairs : List (Element × Element)) : List Element := pairs.flatMap fun p => [p.1, p.2]

/-- The listpack is decoded to its elements, on its own and wherever it stands. -/
structure Compact.Loads (l : Compact) : Prop where
  parsed : parseListpack (encodeListpack l.elements) = .ok l.texts
  set : ∀ blob db key, l.HeldBy blob →
    Reader.Reads (loadObject ValueType.setListpack.code db key) blob.encode
      [⟨db, ascii "SADD", key :: l.texts⟩]
  hash : ∀ pairs blob db key, l.elements = inPairs pairs → l.HeldBy blob →
    Reader.Reads (loadObject ValueType.hashListpack.code db key) blob.encode
      [⟨db, ascii "HSET", key :: pairs.flatMap fun p => [p.1.text, p.2.text]⟩]
  zset : ∀ pairs blob db key, l.elements = inPairs pairs → l.HeldBy blob →
    Reader.Reads (loadObject ValueType.zsetListpack.code db key) blob.encode
      [⟨db, ascii "ZADD",
        key :: pairs.flatMap fun p => [Binary64.display (binaryToFloatSafe p.2.text), p.1.text]⟩]
  node : ∀ blob, l.HeldBy blob →
    Reader.Reads loadQuicklist2Node ((2 : UInt8) :: blob.encode) l.texts

/-- The texts of pairs, one after the other. -/
lemma texts_inPairs (pairs : List (Element × Element)) :
    (inPairs pairs).map (·.text) = pairs.flatMap fun p => [p.1.text, p.2.text] := by
  simp [inPairs, List.map_flatMap]

/-- Pairs make an even number of elements. -/
lemma even_inPairs (pairs : List (Element × Element)) : (inPairs pairs).length % 2 = 0 := by
  induction pairs with
  | nil => rfl
  | cons p pairs ih =>
    simp only [inPairs, List.flatMap_cons, List.length_append, List.length_cons,
      List.length_nil] at ih ⊢
    omega

/-- The scores of a sorted set stand behind the members, those of its command in front of them. -/
lemma zsetListpackArgs_inPairs (pairs : List (Element × Element)) :
    zsetListpackArgs ((inPairs pairs).map (·.text))
      = .ok (pairs.flatMap fun p => [Binary64.display (binaryToFloatSafe p.2.text), p.1.text]) := by
  induction pairs with
  | nil => rfl
  | cons p pairs ih =>
    simp only [inPairs, List.flatMap_cons, List.map_cons, List.cons_append, List.nil_append,
      zsetListpackArgs] at ih ⊢
    rw [ih]
    rfl

/-- No entry of this size is at a bound of the back-length. -/
lemma Compact.parsed_iff (l : Compact) :
    parseListpack (encodeListpack l.elements) = .ok l.texts ↔ ∀ e ∈ l.elements, ¬ e.IsNegative := by
  have few := l.few
  have inside : ∀ e ∈ l.elements.dropLast, ¬ AtBound e.body.length := by
    intro e he bound
    have small := l.small e (List.mem_of_mem_dropLast he)
    unfold AtBound at bound
    omega
  rw [Compact.texts, parseListpack_encode_iff, Readable]
  constructor
  · rintro ⟨-, negatives, -⟩
    exact negatives
  · intro negatives
    exact ⟨by omega, negatives, inside⟩

/-- The elements come back exactly when none is a negative integer of 13 bits. -/
theorem loads_iff (l : Compact) : l.Loads ↔ ∀ e ∈ l.elements, ¬ e.IsNegative := by
  rw [← l.parsed_iff]
  refine ⟨Compact.Loads.parsed, fun parsed => ?_⟩
  have holds {blob : EncodedString} (held : l.HeldBy blob) : parseListpack blob.text =
    .ok l.texts := by
    rw [held.1, parsed]
  have even {pairs : List (Element × Element)} (eq : l.elements = inPairs pairs) :
    l.texts.length % 2 = 0 := by
    rw [Compact.texts, List.length_map, eq, even_inPairs]
  refine ⟨parsed, ?_, ?_, ?_, ?_⟩
  · intro blob db key held
    refine (loadSetListpack_encode held.2 db key).reads ?_
    rw [holds held]
    rfl
  · intro pairs blob db key eq held
    have texts : l.texts = pairs.flatMap fun p => [p.1.text, p.2.text] := by
      rw [Compact.texts, eq, texts_inPairs]
    refine (loadHashListpack_encode held.2 db key).reads ?_
    rw [holds held]
    show _ <$> paired _ l.texts = _
    rw [paired_even (even eq), texts]
    rfl
  · intro pairs blob db key eq held
    have args : zsetListpackArgs l.texts
        = .ok (pairs.flatMap
          fun p => [Binary64.display (binaryToFloatSafe p.2.text), p.1.text]) := by
      rw [Compact.texts, eq, zsetListpackArgs_inPairs]
    refine (loadZsetListpack_encode held.2 db key).reads ?_
    rw [holds held]
    show _ <$> (paired _ l.texts >>= _) = _
    rw [paired_even (even eq)]
    show _ <$> zsetListpackArgs l.texts = _
    rw [args]
    rfl
  · intro blob held rest
    rw [loadQuicklist2Node_encode 2 held.2, holds held]
    rfl

/-- The listpack of the one integer -1 is refused: its entry is taken for a string of 65282
bytes. -/
theorem loads_fails :
    ∃ l : Compact, l.elements = [.int (-1) (by decide)] ∧
      parseListpack (encodeListpack l.elements) = .error (.err "listpack_entry_string_too_short") ∧
      ¬ l.Loads := by
  have refused : parseListpack (encodeListpack [.int (-1) (by decide)])
      = .error (.err "listpack_entry_string_too_short") := by decide
  refine ⟨⟨[.int (-1) (by decide)], by decide, by decide⟩, rfl, refused, fun loads => ?_⟩
  have read := loads.parsed
  rw [refused] at read
  cases read

end Veidrodelis.RedisNif.ListpackFormat
