import Veidrodelis.RedisNif.RdbImages

/-!
# Decoding undoes encoding

`feedAll_image`: an image of known types whose values can be read, cut anywhere, is read as the
commands that recreate its dataset, each in the database of the latest `SELECTDB` and followed by
its own expiry, and the parser finishes. Only values with listpacks can be unreadable.
-/

namespace Veidrodelis.RedisNif.RdbFormat
open Incremental

/-- What is written for an image is one for the parser. -/
lemma isImage_encode {img : Image} (known : img.Known) (readable : img.Readable)
    (bound : img.encode.length < usizeSize) : Rdb.IsImage img.encode := by
  obtain ⟨q, a, flag, -, isEmpty⟩ := absorb_image known readable.right bound
  exact ⟨q, img.commands, (Rdb.feedData_absorb rfl _).trans a, flag, isEmpty⟩

/-- Feeding an image of known types whose values can be read, in nonempty pieces, gives the commands
of its entries and leaves the parser finished. -/
theorem feedAll_image {img : Image} (known : img.Known) (readable : img.Readable)
    (bound : img.encode.length < usizeSize) {chunks : List Bytes} (ne : ∀ c ∈ chunks, c ≠ [])
    (cut : chunks.flatten = img.encode) :
    ∃ q, Rdb.feedAll .new chunks = .ok (q, img.commands) ∧ q.finished = true ∧
      q.parseState = .finished ∧ q.buffer = [] := by
  rw [Rdb.feedAll_of_isImage (isImage_encode known readable bound) ne cut]
  exact absorb_image known readable.right bound

/-! ## An image -/

def text (s : String) (h : (ascii s).length < 64) : EncodedString :=
  .raw ⟨.six, (ascii s).length, h⟩ (ascii s) rfl

/-- The compressed form of ten times the letter a. -/
def compressed : EncodedString :=
  .lzf ⟨.fourteen, 5, by decide⟩ ⟨.thirtyTwo, 10, by decide⟩ [0, 97, 224, 0, 0]
    (List.replicate 10 97)
    rfl (by decide +kernel)

/-- The version that the images below name. -/
lemma checkVersion_eleven : Rdb.checkVersion (ascii "REDIS0011") = .ok () := by decide +kernel

/-- The magic of version 11 has nine characters. -/
lemma length_eleven : (ascii "REDIS0011").length = 9 := rfl

/-- The key of the sample is short. -/
lemma length_s : (ascii "s").length < 64 := by decide

/-- Two databases, the four ways of writing a string, an expiry of each kind. -/
def sample : Image where
  magic := ascii "REDIS0011"
  magicSize := length_eleven
  version := checkVersion_eleven
  entries :=
    [{ opcodes := [.aux (text "redis-bits" (by decide)) (.int .int8 64 (by decide)),
         .selectdb ⟨.six, 3, by decide⟩ (by decide),
         .resizedb ⟨.six, 2, by decide⟩ ⟨.six, 1, by decide⟩,
         .expiretime 7]
       key := text "s" length_s
       body := .known (.string compressed) },
     { opcodes := []
       key := text "h" (by decide)
       body := .known (.hash ⟨.sixtyFour, 1, by decide⟩
         [⟨text "f" (by decide), .int .int32 (-70000) (by decide)⟩] rfl) },
     { opcodes := [.selectdb ⟨.fourteen, 5, by decide⟩ (by decide), .expiretimeMs 9]
       key := .int .int16 300 (by decide)
       body := .known (.zset2 ⟨.six, 1, by decide⟩ [⟨text "m" (by decide), 0x3FF8000000000000⟩] rfl)
         }]
  opcodes := []
  checksum := [1, 2, 3, 4, 5, 6, 7, 8]
  checksumSize := rfl

/-- The sample image is of known types and opcodes. -/
lemma sample_known : sample.Known :=
  by simp [sample, Image.Known, Entry.Known, Opcode.Known, Body.Known]

/-- The values of the sample image are readable. -/
lemma sample_readable : sample.Readable :=
  by simp [sample, Image.Readable, Body.Readable, Value.Readable]

example : sample.commands =
    [⟨3, ascii "SET", [ascii "s", ascii "aaaaaaaaaa"]⟩,
     ⟨3, ascii "PEXPIREAT", [ascii "s", ascii "7000"]⟩,
     ⟨3, ascii "HSET", [ascii "h", ascii "f", ascii "-70000"]⟩,
     ⟨5, ascii "ZADD", [ascii "300", ascii "1.5", ascii "m"]⟩,
     ⟨5, ascii "PEXPIREAT", [ascii "300", ascii "9"]⟩] := by decide +kernel

/-- The sample image in two chunks is read as its commands. -/
theorem feedAll_image_sample :
    ∃ q, Rdb.feedAll .new [sample.encode.take 20, sample.encode.drop 20] =
      .ok (q, sample.commands) ∧ q.finished = true ∧ q.parseState = .finished ∧ q.buffer = [] :=
  feedAll_image sample_known sample_readable (by decide +kernel) (by decide +kernel)
    (by decide +kernel)

end Veidrodelis.RedisNif.RdbFormat
