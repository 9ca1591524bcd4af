import Veidrodelis.RedisNif.ListpackFormat
import Veidrodelis.RedisNif.RdbStrings

/-!
# The RDB format

The images a server sends, as data: what a dataset is written as, and the commands it stands for. A
value of these types carries its well-formedness: a count is the number of its entries, a compressed
string decompresses to its text, an integer fits its width. A length, a string and an expiry can be
written in several ways, so the data keeps which one was chosen.

Listpacks are those of `ListpackFormat`, whatever the parser makes of them, and a node of a list is
a string or a listpack; a compressed string is one that decompresses to its text, which
`lzfLoop_eq_some` says in LZF tokens. An image may hold value types and opcodes that the parser does
not know (`Body.unknown`, `Opcode.unknown`), listpacks that it misreads and nodes that are no
listpacks; `Known` and `Readable` exclude them.
-/

namespace Veidrodelis.RedisNif.RdbFormat
open Rdb
open Bytes (FitsSigned)

/-! ## Lengths and strings -/

inductive LengthForm where
  | six
  | fourteen
  | thirtyTwo
  | sixtyFour
  deriving DecidableEq

def LengthForm.bound : LengthForm → Nat
  | .six => 2 ^ 6
  | .fourteen => 2 ^ 14
  | .thirtyTwo => 2 ^ 32
  | .sixtyFour => 2 ^ 64

/-- A number and the form it is written in. -/
structure Length where
  form : LengthForm
  value : Nat
  fits : value < form.bound

def Length.encode (l : Length) : Bytes :=
  match l.form with
  | .six => [UInt8.ofNat l.value]
  | .fourteen => [UInt8.ofNat (64 + l.value / 256), UInt8.ofNat (l.value % 256)]
  | .thirtyTwo => 0x80 :: Bytes.beBytes 4 l.value
  | .sixtyFour => 0x81 :: Bytes.beBytes 8 l.value

inductive IntForm where
  | int8
  | int16
  | int32
  deriving DecidableEq

def IntForm.width : IntForm → Nat
  | .int8 => 1
  | .int16 => 2
  | .int32 => 4

def IntForm.code : IntForm → UInt8
  | .int8 => 0xC0
  | .int16 => 0xC1
  | .int32 => 0xC2

/-- A string and the way it is written: raw, as an integer, or compressed. -/
inductive EncodedString where
  | raw (length : Length) (bytes : Bytes) (exact : length.value = bytes.length)
  | int (form : IntForm) (value : Int) (fits : FitsSigned form.width value)
  | lzf (clen ulen : Length) (compressed text : Bytes) (exact : clen.value = compressed.length)
      (inverse : lzfDecompress compressed ulen.value = .ok text)

def EncodedString.encode : EncodedString → Bytes
  | .raw length bytes _ => length.encode ++ bytes
  | .int form value _ => form.code :: Bytes.leBytes form.width (Bytes.unsigned form.width value)
  | .lzf clen ulen compressed _ _ _ => 0xC3 :: (clen.encode ++ ulen.encode ++ compressed)

/-- The string that is meant. -/
def EncodedString.text : EncodedString → Bytes
  | .raw _ bytes _ => bytes
  | .int _ value _ => Bytes.intText value
  | .lzf _ _ _ text _ _ => text

/-! ## Values -/

inductive IntsetWidth where
  | two
  | four
  | eight
  deriving DecidableEq

def IntsetWidth.bytes : IntsetWidth → Nat
  | .two => 2
  | .four => 4
  | .eight => 8

/-- The members of an integer set, written in one width. -/
structure Intset where
  width : IntsetWidth
  members : List Int
  fits : ∀ m ∈ members, FitsSigned width.bytes m
  small : members.length < 2 ^ 32

def Intset.encode (s : Intset) : Bytes :=
  Bytes.leBytes 4 s.width.bytes ++ Bytes.leBytes 4 s.members.length ++
    s.members.flatMap fun m => Bytes.leBytes s.width.bytes (Bytes.unsigned s.width.bytes m)

/-- A field of a hash. -/
structure HashField where
  field : EncodedString
  value : EncodedString

def HashField.encode (f : HashField) : Bytes := f.field.encode ++ f.value.encode

/-- A field of a hash with an expiry of its own, which the parser reads and drops. -/
structure Hash2Field where
  field : EncodedString
  value : EncodedString
  expiry : UInt64

def Hash2Field.encode (f : Hash2Field) : Bytes :=
  f.field.encode ++ f.value.encode ++ Bytes.leBytes 8 f.expiry.toNat

/-- A member of a sorted set with the bits of its score. -/
structure ZsetMember where
  member : EncodedString
  score : UInt64

def ZsetMember.encode (m : ZsetMember) : Bytes := m.member.encode ++ Bytes.leBytes 8 m.score.toNat

/-- A listpack inside a string. -/
structure Listpack where
  blob : EncodedString
  content : ListpackFormat.Listpack
  holds : blob.text = content.bytes

def Listpack.entries (l : Listpack) : List Bytes := l.content.texts

/-- A node of a list: one element as it is, or a listpack of elements. -/
inductive QuicklistNode where
  | plain (blob : EncodedString)
  | packed (listpack : Listpack)

/-- The container byte. -/
def QuicklistNode.container : QuicklistNode → UInt8
  | .plain _ => 1
  | .packed _ => 2

def QuicklistNode.blob : QuicklistNode → EncodedString
  | .plain blob => blob
  | .packed listpack => listpack.blob

def QuicklistNode.encode (n : QuicklistNode) : Bytes := n.container :: n.blob.encode

/-- The elements of the list that stand in the node. -/
def QuicklistNode.elements : QuicklistNode → List Bytes
  | .plain blob => [blob.text]
  | .packed listpack => listpack.entries

/-- The texts of the scores in the listpack of a sorted set, which holds members and scores in
turn. -/
def scoreTexts : List Bytes → List Bytes
  | _ :: score :: rest => score :: scoreTexts rest
  | _ => []

/-- The members and scores of the listpack as the arguments of `ZADD`; a score is the double that
its text is rounded to. -/
def scoreArgs : List Bytes → List Bytes
  | member :: score :: rest =>
    Binary64.display ((Binary64.parse score).getD 0) :: member :: scoreArgs rest
  | _ => []

/-- The values of the types that the parser knows. -/
inductive Value where
  | string (value : EncodedString)
  | hash (count : Length) (fields : List HashField) (exact : count.value = fields.length)
  | zset2 (count : Length) (members : List ZsetMember) (exact : count.value = members.length)
  | setIntset (blob : EncodedString) (set : Intset) (holds : blob.text = set.encode)
  | hashListpack (listpack : Listpack) (even : listpack.entries.length % 2 = 0)
  | zsetListpack (listpack : Listpack) (even : listpack.entries.length % 2 = 0)
      (numbers : ∀ score ∈ scoreTexts listpack.entries, (Binary64.parse score).isSome)
  | listQuicklist2 (count : Length) (nodes : List QuicklistNode)
      (exact : count.value = nodes.length) (nonempty : nodes.flatMap (·.elements) ≠ [])
  | setListpack (listpack : Listpack)
  | hash2 (count : Length) (fields : List Hash2Field) (exact : count.value = fields.length)
      (nonempty : fields ≠ [])

def Value.type : Value → ValueType
  | .string .. => .string
  | .hash .. => .hash
  | .zset2 .. => .zset2
  | .setIntset .. => .setIntset
  | .hashListpack .. => .hashListpack
  | .zsetListpack .. => .zsetListpack
  | .listQuicklist2 .. => .listQuicklist2
  | .setListpack .. => .setListpack
  | .hash2 .. => .hash2

def Value.encode : Value → Bytes
  | .string value => value.encode
  | .hash count fields _ => count.encode ++ fields.flatMap (·.encode)
  | .zset2 count members _ => count.encode ++ members.flatMap (·.encode)
  | .setIntset blob _ _ => blob.encode
  | .hashListpack listpack _ => listpack.blob.encode
  | .zsetListpack listpack _ _ => listpack.blob.encode
  | .listQuicklist2 count nodes _ _ => count.encode ++ nodes.flatMap (·.encode)
  | .setListpack listpack => listpack.blob.encode
  | .hash2 count fields _ _ => count.encode ++ fields.flatMap (·.encode)

/-- The command that creates the value, and its arguments behind the key. -/
def Value.meaning : Value → Bytes × List Bytes
  | .string value => (ascii "SET", [value.text])
  | .hash _ fields _ => (ascii "HSET", fields.flatMap fun f => [f.field.text, f.value.text])
  | .zset2 _ members _ =>
    (ascii "ZADD", members.flatMap fun m => [Binary64.display m.score.toNat, m.member.text])
  | .setIntset _ set _ => (ascii "SADD", set.members.map Bytes.intText)
  | .hashListpack listpack _ => (ascii "HSET", listpack.entries)
  | .zsetListpack listpack _ _ => (ascii "ZADD", scoreArgs listpack.entries)
  | .listQuicklist2 _ nodes _ _ => (ascii "RPUSH", nodes.flatMap (·.elements))
  | .setListpack listpack => (ascii "SADD", listpack.entries)
  | .hash2 _ fields _ _ => (ascii "HSET", fields.flatMap fun f => [f.field.text, f.value.text])

/-- The command that creates the value under a key. -/
def Value.command (db : Nat) (key : Bytes) (v : Value) : RawCommand :=
  ⟨db, v.meaning.1, key :: v.meaning.2⟩

/-! ## Images -/

/-- The byte is neither a value type nor an opcode that the parser knows. -/
def Unsupported (code : UInt8) : Prop :=
  ValueType.ofCode code = none ∧ code < opcodeAux

instance (code : UInt8) : Decidable (Unsupported code) := inferInstanceAs (Decidable (_ ∧ _))

/-- What may stand in front of an entry. -/
inductive Opcode where
  | aux (key value : EncodedString)
  | resizedb (dbSize expiresSize : Length)
  | selectdb (db : Length) (small : db.value < 2 ^ 32)
  | expiretime (seconds : UInt32)
  | expiretimeMs (milliseconds : UInt64)
  | unknown (code : UInt8) (args : Bytes) (unsupported : Unsupported code) (nonempty : args ≠ [])

def Opcode.encode : Opcode → Bytes
  | .aux key value => opcodeAux :: (key.encode ++ value.encode)
  | .resizedb dbSize expiresSize => opcodeResizedb :: (dbSize.encode ++ expiresSize.encode)
  | .selectdb db _ => opcodeSelectdb :: db.encode
  | .expiretime seconds => opcodeExpiretime :: Bytes.leBytes 4 seconds.toNat
  | .expiretimeMs milliseconds => opcodeExpiretimeMs :: Bytes.leBytes 8 milliseconds.toNat
  | .unknown code args _ _ => code :: args

/-- The database an opcode selects. -/
def Opcode.selected : Opcode → Option Nat
  | .selectdb db _ => some db.value
  | _ => none

/-- The expiry, in milliseconds, that an opcode announces. -/
def Opcode.deadline : Opcode → Option Nat
  | .expiretime seconds => some (seconds.toNat * 1000)
  | .expiretimeMs milliseconds => some milliseconds.toNat
  | _ => none

/-- The value of an entry: of a known type, or of another type with bytes the parser cannot size. -/
inductive Body where
  | known (value : Value)
  | unknown (code : UInt8) (bytes : Bytes) (unsupported : Unsupported code) (nonempty : bytes ≠ [])

def Body.code : Body → UInt8
  | .known value => value.type.code
  | .unknown code _ _ _ => code

def Body.encode : Body → Bytes
  | .known value => value.encode
  | .unknown _ bytes _ _ => bytes

/-- An entry with the opcodes in front of it. -/
structure Entry where
  opcodes : List Opcode
  key : EncodedString
  body : Body

def Entry.encode (e : Entry) : Bytes :=
  e.opcodes.flatMap (·.encode) ++ e.body.code :: (e.key.encode ++ e.body.encode)

/-- The database in which an entry stands: that of the latest `SELECTDB` up to it. -/
def Entry.db (db : Nat) (e : Entry) : Nat := (e.opcodes.filterMap (·.selected)).getLast?.getD db

/-- The expiry of an entry: the last one announced in front of it. -/
def Entry.expiry (e : Entry) : Option Nat := (e.opcodes.filterMap (·.deadline)).getLast?

/-- The command for an expiry. -/
def deadlineCommand (db : Nat) (key : Bytes) : Option Nat → List RawCommand
  | none => []
  | some ms => [⟨db, ascii "PEXPIREAT", [key, Bytes.natText ms]⟩]

/-- The commands of an entry in its database; an entry of an unknown type has none. -/
def Entry.commands (db : Nat) (e : Entry) : List RawCommand :=
  match e.body with
  | .known value => value.command db e.key.text :: deadlineCommand db e.key.text e.expiry
  | .unknown .. => []

/-- The commands of entries behind which database `db` is selected. -/
def commandsFrom : Nat → List Entry → List RawCommand
  | _, [] => []
  | db, e :: es => e.commands (e.db db) ++ commandsFrom (e.db db) es

/-- An RDB image. -/
structure Image where
  magic : Bytes
  magicSize : magic.length = 9
  version : checkVersion magic = .ok ()
  entries : List Entry
  opcodes : List Opcode
  checksum : Bytes
  checksumSize : checksum.length = 8

/-- What stands behind the entries. -/
def Image.tail (img : Image) : Bytes :=
  img.opcodes.flatMap (·.encode) ++ opcodeEof :: img.checksum

def Image.encode (img : Image) : Bytes :=
  img.magic ++ (img.entries.flatMap (·.encode) ++ img.tail)

/-- The commands that recreate the dataset, in the order of the image. -/
def Image.commands (img : Image) : List RawCommand := commandsFrom 0 img.entries

def Opcode.Known : Opcode → Prop
  | .unknown .. => False
  | _ => True

def Body.Known : Body → Prop
  | .unknown .. => False
  | .known _ => True

def Entry.Known (e : Entry) : Prop := (∀ op ∈ e.opcodes, op.Known) ∧ e.body.Known

/-- Every value type and every opcode of the image is known to the parser. -/
def Image.Known (img : Image) : Prop := (∀ e ∈ img.entries, e.Known) ∧ ∀ op ∈ img.opcodes, op.Known

/-! ## What the parser can read -/

/-- The parser takes every node for a listpack. -/
def QuicklistNode.Readable : QuicklistNode → Prop
  | .plain _ => False
  | .packed listpack => listpack.content.Readable

/-- The listpacks of the value are read as what they hold, and a list has no node that is a
string. -/
def Value.Readable : Value → Prop
  | .hashListpack listpack _ => listpack.content.Readable
  | .zsetListpack listpack _ _ => listpack.content.Readable
  | .setListpack listpack => listpack.content.Readable
  | .listQuicklist2 _ nodes _ _ => ∀ n ∈ nodes, n.Readable
  | _ => True

def Body.Readable : Body → Prop
  | .known value => value.Readable
  | .unknown .. => True

/-- Every value of the image is read as what it is: no listpack in it has a negative integer of 13
bits, an entry in front of others with a size at a bound of the back-length, or more than 65535
entries, and no list has a PLAIN node. -/
def Image.Readable (img : Image) : Prop := ∀ e ∈ img.entries, e.body.Readable

end Veidrodelis.RedisNif.RdbFormat
