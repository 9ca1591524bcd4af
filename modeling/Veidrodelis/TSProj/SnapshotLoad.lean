import Veidrodelis.RedisNif.RdbDecode
import Veidrodelis.RedisStream.ScoreRoundTrip
import Veidrodelis.TSProj.SnapshotSwitch
import Veidrodelis.TsNif.ScoreModel
import Veidrodelis.TsNif.ZAddRules

/-!
# Loading a snapshot

The dataset of an RDB image is said here by the values of the format alone (`dataset`). `rdb.rs`
makes commands of the image, `command_parser.ex` parses them and the storage executes them: what is
then in an empty storage is the dataset, value by value and bit by bit (`image_loads`). Expiries are
dropped on the way, and a NaN becomes zero.
-/

namespace Veidrodelis.TSProj
open RedisNif Rdb RdbFormat
open RedisStream (Command CommandParser.parse Graphemes ScoreTerm)
open RedisStream
open TsNif (Indexset Keyspace Score StorageInner StorageValue execute tx)

/-! ## The dataset of an image -/

/-- Neighbours, in pairs. -/
def inPairs : List Bytes → List (Bytes × Bytes)
  | first :: second :: rest => (first, second) :: inPairs rest
  | _ => []

/-- The score with these bits; there are no NaNs. -/
def scoreOf (bits : Nat) : Score := if Binary64.isNaN bits then 0 else bits

/-- A hash, of whose fields the last ones of a name count. -/
def hashOf (fields : List (Bytes × Bytes)) : TsNif.Value Score := .hash (.ofList fields compare)

def setOf (members : List Bytes) : TsNif.Value Score := .set (.ofList members compare)

def zsetOf (members : List (Bytes × Nat)) : TsNif.Value Score :=
  .zset (.ofList (members.map fun p => (p.1, scoreOf p.2)) compare)

/-- What is bound to the key of a value. -/
def content : RdbFormat.Value → TsNif.Value Score
  | .string value => .string value.text
  | .hash _ fields _ => hashOf (fields.map fun f => (f.field.text, f.value.text))
  | .zset2 _ members _ => zsetOf (members.map fun m => (m.member.text, m.score.toNat))
  | .setIntset _ set _ => setOf (set.members.map Bytes.intText)
  | .hashListpack listpack _ => hashOf (inPairs listpack.entries)
  | .zsetListpack listpack _ _ =>
    zsetOf ((inPairs listpack.entries).map fun p => (p.1, (Binary64.parse p.2).getD 0))
  | .listQuicklist2 _ nodes _ _ => .list (nodes.flatMap (·.elements))
  | .setListpack listpack => setOf listpack.entries
  | .hash2 _ fields _ _ => hashOf (fields.map fun f => (f.field.text, f.value.text))

/-- Entries in front of which database `db` is selected, with the databases in which they stand. -/
def placed : Nat → List Entry → List (Nat × Entry)
  | _, [] => []
  | db, e :: es => (e.db db, e) :: placed (e.db db) es

/-- Where an entry is bound. -/
def placeOf (p : Nat × Entry) : Nat × Bytes := (p.1, p.2.key.text)

/-- What is bound by entries of the known types, in front of others the first one of a key. -/
def datasetOf (entries : List (Nat × Entry)) : Keyspace Score := fun db key =>
  entries.findSome? fun p =>
    match p.2.body with
    | .known value => if placeOf p = (db, key) then some (content value) else none
    | .unknown .. => none

/-- The dataset of an image. -/
def dataset (img : Image) : Keyspace Score := datasetOf (placed 0 img.entries)

/-- No key of a database has two entries. -/
def Distinct (img : Image) : Prop := ((placed 0 img.entries).map placeOf).Nodup

instance (img : Image) : Decidable (Distinct img) := inferInstanceAs (Decidable (List.Nodup _))

/-- The first entry, or one of the others. -/
lemma datasetOf_cons (p : Nat × Entry) (entries : List (Nat × Entry)) (db : Nat) (key : Bytes) :
    datasetOf (p :: entries) db key = (datasetOf [p] db key).or (datasetOf entries db key) :=
  @List.findSome?_append _ _ _ [p] entries

/-- Only keys that have an entry are bound. -/
lemma datasetOf_eq_none {entries : List (Nat × Entry)} {db : Nat} {key : Bytes}
    (unbound : ∀ p ∈ entries, placeOf p ≠ (db, key)) : datasetOf entries db key = none := by
  refine List.findSome?_eq_none_iff.mpr fun p mem => ?_
  cases p.2.body with
  | known value => exact if_neg (unbound p mem)
  | unknown => rfl

/-- Databases are numbered with 32 bits. -/
lemma entry_db_lt {e : Entry} {db : Nat} (small : db < 2 ^ 32) : e.db db < 2 ^ 32 := by
  rw [Entry.db]
  cases last : (e.opcodes.filterMap (·.selected)).getLast? with
  | none => exact small
  | some selected =>
    obtain ⟨opcode, -, eq⟩ := List.mem_filterMap.mp (List.mem_of_getLast? last)
    cases opcode with
    | selectdb length fits =>
      cases eq
      exact fits
    | _ => cases eq

section
variable {p : Nat × Entry} {entries : List (Nat × Entry)} {s t : StorageInner}

/-- When one key has been bound, the others are still vacant. -/
lemma vacant_behind (distinct : ∀ q ∈ entries, placeOf q ≠ placeOf p)
    (bound : ∀ db key, t.view db key = (datasetOf [p] db key).or (s.view db key))
    (vacant : ∀ q ∈ entries, s.lookup q.1 q.2.key.text = none) :
    ∀ q ∈ entries, t.lookup q.1 q.2.key.text = none := by
  intro q mem
  have unbound : datasetOf [p] q.1 q.2.key.text = none :=
    datasetOf_eq_none fun r only => by
      rw [List.mem_singleton.mp only]
      exact (distinct q mem).symm
  have view := bound q.1 q.2.key.text
  rw [unbound, Option.none_or, StorageInner.view, StorageInner.view, vacant q mem] at view
  exact Option.map_eq_none_iff.mp view

/-- It is the same to bind the first key before the others. -/
lemma view_behind {s' : StorageInner} (distinct : ∀ q ∈ entries, placeOf q ≠ placeOf p)
    (bound : ∀ db key, t.view db key = (datasetOf [p] db key).or (s.view db key))
    (bound' : ∀ db key, s'.view db key = (datasetOf entries db key).or (t.view db key)) (db : Nat)
    (key : Bytes) : s'.view db key = (datasetOf (p :: entries) db key).or (s.view db key) := by
  rw [bound', bound, datasetOf_cons p entries]
  by_cases place : placeOf p = (db, key)
  · -- no other entry has this key
    have unbound : datasetOf entries db key = none :=
      datasetOf_eq_none fun q mem => place ▸ distinct q mem
    rw [unbound, Option.none_or, Option.or_none]
  · have unbound : datasetOf [p] db key = none :=
      datasetOf_eq_none fun q only => by rwa [List.mem_singleton.mp only]
    rw [unbound, Option.none_or, Option.none_or]

end

/-! ## Parsed and executed commands -/

section
variable [Graphemes] [Indexset]

/-- The commands are all parsed, and executed without errors. -/
def Performs (cmds : List RawCommand) (s s' : StorageInner) : Prop :=
  ∃ commands results, RedisStream.Parser.convertCommands CommandParser.parse cmds = some commands ∧
    tx (convertible (received commands)) s = (s', .ok results) ∧ ∀ result ∈ results, result = .ok ()

/-- No commands change nothing. -/
lemma performs_nil (s : StorageInner) : Performs [] s s := ⟨[], [], rfl, rfl, List.forall_mem_nil _⟩

/-- One command in front of others. -/
lemma Performs.cons {cmd : RawCommand} {cmds : List RawCommand} {s t s' : StorageInner} {db : Nat}
    {command : Command} {keys : List Bytes} (here : cmd.db = db)
    (parsed : CommandParser.parse (cmd.name :: cmd.args) = some (command, keys))
    (kept : convertCommand db command = some (db, command))
    (executed : execute db command s = (t, .ok ())) (rest : Performs cmds t s') :
    Performs (cmd :: cmds) s s' := by
  subst here
  obtain ⟨commands, results, converted, ran, fine⟩ := rest
  have first : RedisStream.Parser.convertCommand CommandParser.parse cmd =
      some ⟨cmd.db, command, cmd.name :: cmd.args, keys⟩ := by
    rw [RedisStream.Parser.convertCommand, parsed]
  refine ⟨⟨cmd.db, command, cmd.name :: cmd.args, keys⟩ :: commands, .ok () :: results, ?_, ?_, ?_⟩
  · rw [RedisStream.Parser.convertCommands] at converted
    rw [RedisStream.Parser.convertCommands, List.mapM_cons, first, converted]
    rfl
  · have batch : convertible
      (received (⟨cmd.db, command, cmd.name :: cmd.args, keys⟩ :: commands)) =
        (cmd.db, command) :: convertible (received commands) := List.filterMap_cons_some kept
    rw [batch, tx, executed]
    simp only [ran]
    rfl
  · intro result mem
    rcases List.mem_cons.mp mem with rfl | later
    · rfl
    · exact fine result later

end

/-! ## The commands of the values -/

/-- The words of a sorted set: the scores, as decimals, in front of the members. -/
def scoreWords (members : List (Bytes × Nat)) : List Bytes :=
  members.flatMap fun p => [Binary64.display p.2, p.1]

/-- The arguments of a sorted set are its scores and members. -/
lemma scoreArgs_eq (entries : List Bytes) :
    scoreArgs entries =
      scoreWords ((inPairs entries).map fun p => (p.1, (Binary64.parse p.2).getD 0)) := by
  induction entries using inPairs.induct with
  | case1 member score rest ih =>
    show _ :: _ :: scoreArgs rest = _ :: _ :: scoreWords _
    rw [ih]
  | case2 rest single =>
    rw [inPairs, scoreArgs]
    · rfl
    · exact single
    · exact single

/-- A score that is read fits in 64 bits. -/
lemma parse_getD_lt (text : Bytes) : (Binary64.parse text).getD 0 < 2 ^ 64 := by
  cases float : Binary64.parse text with
  | some bits => exact Binary64.parse_lt float
  | none => exact Nat.two_pow_pos 64

/-- Pairs are read back from their words. -/
lemma parsePairs_flatMap (fields : List (Bytes × Bytes)) :
    CommandParser.parsePairs (fields.flatMap fun p => [p.1, p.2]) = some fields := by
  induction fields with
  | nil => rfl
  | cons p fields ih =>
    show (CommandParser.parsePairs (fields.flatMap fun p => [p.1, p.2])).map _ = _
    rw [ih]
    rfl

/-- Arguments in pairs, if their number is even. -/
lemma flatMap_inPairs {args : List Bytes} (even : args.length % 2 = 0) :
    (inPairs args).flatMap (fun p => [p.1, p.2]) = args := by
  induction args using inPairs.induct with
  | case1 first second rest ih =>
    have rest_even : rest.length % 2 = 0 := by
      rw [List.length_cons, List.length_cons] at even
      omega
    show first :: second :: (inPairs rest).flatMap (fun p => [p.1, p.2]) = _
    rw [ih rest_even]
  | case2 args single =>
    cases args with
    | nil => rfl
    | cons first args =>
      cases args with
      | nil => cases even
      | cons second rest => exact (single first second rest rfl).elim

/-- The text of a score is a word or starts with a digit or a sign. -/
lemma display_head (bits : Nat) : Binary64.display bits = ascii "NaN" ∨
    Binary64.display bits = ascii "inf" ∨
    ∃ first rest, Binary64.display bits = first :: rest ∧ first < 65 := by
  have signed {text : Bytes} (head : ∃ first rest, text = first :: rest ∧ first < 65) :
      ∃ first rest, (if Binary64.isNegative bits then ascii "-" else []) ++ text = first :: rest ∧
      first < 65 := by
    split
    · exact ⟨45, text, rfl, by decide⟩
    · exact head
  rcases Nat.lt_trichotomy (Binary64.magnitude bits) Binary64.infBits with finite | infinite | nan
  · right
    right
    by_cases zero : Binary64.magnitude bits = 0
    · rw [Binary64.display_zero zero]
      exact signed ⟨48, [], rfl, by decide⟩
    · obtain ⟨first, rest, text, digit⟩ :=
        Binary64.positional_head (Binary64.shortest (Binary64.magnitude bits)).1
        (Binary64.shortest (Binary64.magnitude bits)).2
      have range : 48 ≤ first ∧ first ≤ 57 := by simpa [Bytes.isDigit] using digit
      rw [Binary64.display_finite finite zero]
      exact signed ⟨first, rest, text, UInt8.lt_of_le_of_lt range.2 (by decide)⟩
  · rw [Binary64.display_infinite infinite]
    cases Binary64.isNegative bits with
    | true => exact .inr (.inr ⟨45, ascii "inf", rfl, by decide⟩)
    | false => exact .inr (.inl rfl)
  · exact .inl (if_pos nan)

/-- The text of a score is no option of `ZADD`. -/
lemma extractZaddOptions_display (bits : Nat) (rest : List Bytes) :
    CommandParser.extractZaddOptions (Binary64.display bits :: rest) =
      ([], Binary64.display bits :: rest) := by
  rcases display_head bits with nan | infinite | ⟨first, later, text, small⟩
  · rw [nan, CommandParser.extractZaddOptions]
    rfl
  · rw [infinite, CommandParser.extractZaddOptions]
    rfl
  · have upper : ReplicaParser.toUppercase (first :: later) =
      first :: ReplicaParser.toUppercase later := by
      have low : ¬ (97 ≤ first ∧ first ≤ 122) :=
        fun h => absurd (UInt8.lt_of_le_of_lt h.1 small) (by decide)
      rw [ReplicaParser.toUppercase, if_neg low]
      · rintro tail rfl
        exact absurd small (by decide)
      · rintro tail rfl
        exact absurd small (by decide)
    have other {option : Bytes} (letter : 65 ≤ option.headD 0) :
        first :: ReplicaParser.toUppercase later ≠ option := by
      rintro rfl
      exact absurd (UInt8.lt_of_le_of_lt letter small) (by decide)
    rw [text, CommandParser.extractZaddOptions]
    simp only [upper]
    rw [if_neg (other (by decide)), if_neg (other (by decide)), if_neg (other (by decide)),
      if_neg (other (by decide)),
      if_neg (other (by decide)), if_neg (other (by decide))]

/-- A score is no option of `ZADD`. -/
lemma extractZaddOptions_scoreWords (members : List (Bytes × Nat)) :
    CommandParser.extractZaddOptions (scoreWords members) = ([], scoreWords members) := by
  cases members with
  | nil => rfl
  | cons p members => exact extractZaddOptions_display p.2 _

/-- The scores are parsed as terms. -/
lemma parseScoreMemberPairs_scoreWords {members : List (Bytes × Nat)}
    (small : ∀ p ∈ members, p.2 < 2 ^ 64) :
    CommandParser.parseScoreMemberPairs (scoreWords members) =
      some (members.map fun p => (scoreTerm p.2, p.1)) := by
  induction members with
  | nil => rfl
  | cons p members ih =>
    obtain ⟨here, later⟩ := List.forall_mem_cons.mp small
    have rest := ih later
    show (CommandParser.parseScoreMemberPairs (Binary64.display p.2 :: p.1 :: scoreWords members)) =
      _
    rw [CommandParser.parseScoreMemberPairs, parseFloat_display here, rest]
    rfl

/-- `PEXPIREAT` is parsed to its key and its time. -/
lemma parse_expiry [Graphemes] (key : Bytes) (ms : Nat) :
    CommandParser.parse [ascii "PEXPIREAT", key, Bytes.natText ms] =
    some (.pexpireat key ms, [key]) := by
  have timestamp : Bytes.parseInt (Bytes.natText ms) = some (ms : Int) := Bytes.parseInt_intText ms
  show (Bytes.parseInt (Bytes.natText ms)).bind _ = _
  rw [timestamp]
  rfl

/-! ## What the commands make of a vacant key -/

/-- Added without options, the last score of a member counts. -/
lemma entries_add_plain (pairs : List (Score × Bytes)) (z : TsNif.ZSet) :
    (z.add (.ofOptions []) pairs).entries =
      pairs.foldl (fun entries p => entries.insert p.2 p.1) z.entries := by
  induction pairs generalizing z with
  | nil => rfl
  | cons pair pairs ih =>
    have first : (z.addMember (.ofOptions []) pair.1 pair.2).entries =
      z.entries.insert pair.2 pair.1 := by
      apply Std.ExtTreeMap.ext_getElem?
      intro member
      have rule : TsNif.ruled [] z.entries[pair.2]? pair.1 = some pair.1 := by
        cases z.entries[pair.2]? with
        | none => rfl
        | some old => rfl
      rw [TsNif.ZSet.entries_addMember, rule, Std.ExtTreeMap.getElem?_insert]
      by_cases here : pair.2 = member
      · rw [here, Function.update_self, if_pos Std.ReflCmp.compare_self]
      · rw [Function.update_of_ne (Ne.symm here),
          if_neg fun eq => here (Std.LawfulEqCmp.eq_of_compare eq)]
    rw [List.foldl_cons, ← first]
    exact ih _

section
variable [Indexset] {db : Nat} {key : Bytes} {s : StorageInner}

/-- A command on a vacant key. -/
lemma execute_vacant (small : db < 2 ^ 64) (vacant : s.lookup db key = none) {command : Command}
    (op : TsNif.SlotOp) {stored : StorageValue}
    (dispatched : TsNif.dispatch db command = TsNif.atKey db key op)
    (bound : op none = (some stored, .ok ())) :
    execute db command s = (s.put db key stored, .ok ()) := by
  rw [TsNif.execute_of_lt small, dispatched, TsNif.atKey, vacant, bound]
  rfl

variable [Graphemes]

/-- The command of a value is parsed, and binds a key to it. A transaction is begun by the marker
only. -/
def Creates (cmd : RawCommand) (db : Nat) (key : Bytes) (s : StorageInner)
    (value : TsNif.Value Score) : Prop :=
  cmd.db = db ∧ ∃ command keys stored, CommandParser.parse (cmd.name :: cmd.args) =
    some (command, keys) ∧
    (startsTx command = true → key = txKey) ∧ convertCommand db command = some (db, command) ∧
    execute db command s = (s.put db key stored, .ok ()) ∧ stored.view = value

/-- `SET` creates the string. -/
lemma creates_string (small : db < 2 ^ 64) (value : Bytes) :
    Creates ⟨db, ascii "SET", [key, value]⟩ db key s (.string value) :=
  ⟨rfl, .set key value, [key], .string value, rfl, of_decide_eq_true, rfl,
    by rw [TsNif.execute_of_lt small]; rfl, rfl⟩

/-- `RPUSH` creates the list at a vacant key. -/
lemma creates_list (small : db < 2 ^ 64) (vacant : s.lookup db key = none) (items : List Bytes) :
    Creates ⟨db, ascii "RPUSH", key :: items⟩ db key s (.list items) :=
  ⟨rfl, .rpush key items, [key], .list items, rfl, Bool.noConfusion, rfl,
    execute_vacant small vacant (TsNif.rpush items) rfl rfl, rfl⟩

/-- `SADD` creates the set at a vacant key. -/
lemma creates_set (small : db < 2 ^ 64) (vacant : s.lookup db key = none) (members : List Bytes) :
    Creates ⟨db, ascii "SADD", key :: members⟩ db key s (setOf members) := by
  refine ⟨rfl, .sadd key members, [key], .set _, rfl, Bool.noConfusion, rfl,
    execute_vacant small vacant (TsNif.sadd members) rfl rfl, ?_⟩
  rw [setOf, Std.ExtTreeSet.ofList_eq_foldl]
  rfl

/-- `HSET` creates the hash at a vacant key. -/
lemma creates_hash (small : db < 2 ^ 64) (vacant : s.lookup db key = none)
    (fields : List (Bytes × Bytes)) :
    Creates ⟨db, ascii "HSET", key :: fields.flatMap fun p => [p.1, p.2]⟩ db key s
      (hashOf fields) := by
  refine ⟨rfl, .hmset key fields, [key], .hash _, ?_, Bool.noConfusion, rfl,
    execute_vacant small vacant (TsNif.hmset fields) rfl rfl, ?_⟩
  · show (CommandParser.parsePairs _).bind _ = _
    rw [parsePairs_flatMap]
    rfl
  · rw [hashOf, Std.ExtTreeMap.ofList_eq_foldl]
    rfl

/-- `ZADD` creates the sorted set at a vacant key. -/
lemma creates_zset (small : db < 2 ^ 64) (vacant : s.lookup db key = none)
    {members : List (Bytes × Nat)} (bits : ∀ p ∈ members, p.2 < 2 ^ 64) :
    Creates ⟨db, ascii "ZADD", key :: scoreWords members⟩ db key s (zsetOf members) := by
  refine ⟨rfl, .zadd key (members.map fun p => (scoreTerm p.2, p.1)) [], [key], .zset _, ?_,
    Bool.noConfusion, rfl, execute_vacant small vacant (TsNif.zadd (TsNif.scorePairs _) []) rfl rfl,
    ?_⟩
  · show (CommandParser.parseScoreMemberPairs
      (CommandParser.extractZaddOptions (scoreWords members)).2).bind
      (fun terms => CommandParser.one
        (.zadd key terms (CommandParser.extractZaddOptions (scoreWords members)).1) key) = _
    rw [extractZaddOptions_scoreWords, parseScoreMemberPairs_scoreWords bits]
    rfl
  · have pairs : TsNif.scorePairs (members.map fun p => (scoreTerm p.2, p.1)) =
        members.map fun p => (scoreOf p.2, p.1) := by
      rw [TsNif.scorePairs, List.map_map]
      exact List.map_congr_left fun p mem => congrArg (·, p.1) (decodeScore_scoreTerm (bits p mem))
    show TsNif.Value.zset (TsNif.ZSet.add (.ofOptions []) .new _).entries = _
    rw [entries_add_plain, pairs, zsetOf, Std.ExtTreeMap.ofList_eq_foldl, List.foldl_map,
      List.foldl_map]
    rfl

/-- The command of a value creates it. -/
lemma creates_value (small : db < 2 ^ 64) (vacant : s.lookup db key = none)
    (value : RdbFormat.Value) : Creates (value.command db key) db key s (content value) := by
  cases value with
  | string value => exact creates_string small value.text
  | hash count fields exact' =>
    have created := creates_hash small vacant (fields.map fun f => (f.field.text, f.value.text))
    rwa [List.flatMap_map] at created
  | zset2 count members exact' =>
    have created :=
      @creates_zset _ db key s _ small vacant
      (members.map fun m => (m.member.text, m.score.toNat)) <| by
      intro p mem
      obtain ⟨m, -, rfl⟩ := List.mem_map.mp mem
      exact m.score.toNat_lt
    rwa [scoreWords, List.flatMap_map] at created
  | setIntset blob set holds => exact creates_set small vacant _
  | hashListpack listpack even =>
    have created := creates_hash small vacant (inPairs listpack.entries)
    rwa [flatMap_inPairs even] at created
  | zsetListpack listpack even numbers =>
    have created := @creates_zset _ db key s _ small vacant
      ((inPairs listpack.entries).map fun p => (p.1, (Binary64.parse p.2).getD 0)) <| by
        intro p mem
        obtain ⟨q, -, rfl⟩ := List.mem_map.mp mem
        exact parse_getD_lt q.2
    rwa [← scoreArgs_eq] at created
  | listQuicklist2 count nodes exact' nonempty => exact creates_list small vacant _
  | setListpack listpack => exact creates_set small vacant _
  | hash2 count fields exact' nonempty =>
    have created := creates_hash small vacant (fields.map fun f => (f.field.text, f.value.text))
    rwa [List.flatMap_map] at created

/-- An expiry is parsed and ignored. -/
lemma performs_expiry (small : db < 2 ^ 64) (ms : Nat) {cmds : List RawCommand} {s' : StorageInner}
    (rest : Performs cmds s s') : Performs
      (⟨db, ascii "PEXPIREAT", [key, Bytes.natText ms]⟩ :: cmds) s s' := by
  refine Performs.cons rfl (parse_expiry key ms) rfl ?_ rest
  rw [TsNif.execute_of_lt small]
  rfl

/-- The commands of an entry bind its key, which was vacant, in front of other commands; and so do
the first ones of them, if there are any. -/
lemma performs_entry {e : Entry} (small : db < 2 ^ 64) (vacant : s.lookup db e.key.text = none) :
    ∃ t : StorageInner, (∀ cmds s', Performs cmds t s' → Performs (e.commands db ++ cmds) s s') ∧
      (∀ front, front <+: e.commands db → front = [] ∨ Performs front s t) ∧
      ∀ db' key', t.view db' key' = (datasetOf [(db, e)] db' key').or (s.view db' key') := by
  obtain ⟨opcodes, key, body⟩ := e
  cases body with
  | unknown code bytes unsupported nonempty =>
    exact ⟨s, fun cmds s' rest => rest,
      fun front inside => .inl (List.prefix_nil.mp inside), fun _ _ => rfl⟩
  | known value =>
    obtain ⟨here, command, keys, stored, parsed, -, kept, executed, view⟩ :=
      creates_value small vacant value
    have first {cmds : List RawCommand} {s' : StorageInner}
      (rest : Performs cmds (s.put db key.text stored) s') :
        Performs (value.command db key.text :: cmds) s s' :=
          Performs.cons here parsed kept executed rest
    refine ⟨s.put db key.text stored, fun cmds s' rest => ?_,
      fun front inside => ?_, fun db' key' => ?_⟩
    · rw [Entry.commands, List.cons_append]
      refine first ?_
      cases Entry.expiry ⟨opcodes, key, .known value⟩ with
      | none => exact rest
      | some ms => exact performs_expiry small ms rest
    · rw [Entry.commands, List.prefix_cons_iff] at inside
      obtain rfl | ⟨front, rfl, inside⟩ := inside
      · exact .inl rfl
      · refine .inr (first ?_)
        cases expiry : Entry.expiry ⟨opcodes, key, .known value⟩ with
        | none =>
          rw [expiry] at inside
          rw [List.prefix_nil.mp inside]
          exact performs_nil _
        | some ms =>
          rw [expiry] at inside
          obtain rfl | ⟨front, rfl, nowhere⟩ := List.prefix_cons_iff.mp inside
          · exact performs_nil _
          · rw [List.prefix_nil.mp nowhere]
            exact performs_expiry small ms (performs_nil _)
    · rw [TsNif.view_put, view, Keyspace.bind, datasetOf, List.findSome?_cons]
      by_cases bound : db' = db ∧ key' = key.text
      · have place : placeOf (db, ⟨opcodes, key, .known value⟩) = (db', key') :=
          Prod.ext bound.1.symm bound.2.symm
        simp only [if_pos bound, if_pos place]
        rfl
      · have place : placeOf (db, ⟨opcodes, key, .known value⟩) ≠ (db', key') := by
          intro eq
          exact bound ⟨(Prod.mk.inj eq).1.symm, (Prod.mk.inj eq).2.symm⟩
        simp only [if_neg bound, if_neg place]
        rfl

/-- The commands of entries bind their keys, which were vacant. -/
lemma performs_entries {es : List Entry} (small : db < 2 ^ 32)
    (vacant : ∀ p ∈ placed db es, s.lookup p.1 p.2.key.text = none)
    (distinct : ((placed db es).map placeOf).Nodup) :
    ∃ s' : StorageInner, Performs (commandsFrom db es) s s' ∧ ∀ db' key', s'.view db' key' =
      (datasetOf (placed db es) db' key').or (s.view db' key') := by
  induction es generalizing db s with
  | nil => exact ⟨s, performs_nil s, fun _ _ => rfl⟩
  | cons e es ih =>
    have small' : e.db db < 2 ^ 32 := entry_db_lt small
    rw [placed, List.map_cons, List.nodup_cons] at distinct
    have other : ∀ p ∈ placed (e.db db) es, placeOf p ≠ placeOf (e.db db, e) :=
      fun p mem eq => distinct.1 (List.mem_map.mpr ⟨p, mem, eq⟩)
    obtain ⟨here, later⟩ := List.forall_mem_cons.mp vacant
    obtain ⟨t, front, -, bound⟩ := performs_entry (Nat.lt_trans small' (by decide)) here
    obtain ⟨s', rest, bound'⟩ := ih small' (vacant_behind other bound later) distinct.2
    exact ⟨s', front _ _ rest, view_behind other bound bound'⟩

/-- The first commands of entries bind the keys of the first of them. -/
lemma performs_part {es : List Entry} (small : db < 2 ^ 32)
    (vacant : ∀ p ∈ placed db es, s.lookup p.1 p.2.key.text = none)
    (distinct : ((placed db es).map placeOf).Nodup) {front : List RawCommand}
    (inside : front <+: commandsFrom db es) :
    ∃ entries s', entries <+: placed db es ∧ Performs front s s' ∧ ∀ db' key', s'.view db' key' =
      (datasetOf entries db' key').or (s.view db' key') := by
  induction es generalizing db s front with
  | nil =>
    rw [List.prefix_nil.mp inside]
    exact ⟨[], s, List.nil_prefix, performs_nil s, fun _ _ => rfl⟩
  | cons e es ih =>
    have small' : e.db db < 2 ^ 32 := entry_db_lt small
    rw [placed, List.map_cons, List.nodup_cons] at distinct
    obtain ⟨here, later⟩ := List.forall_mem_cons.mp vacant
    obtain ⟨t, whole, filled, bound⟩ := performs_entry (Nat.lt_trans small' (by decide)) here
    rcases List.prefix_or_prefix_of_prefix inside (List.prefix_append _ _) with part | ⟨front, rfl⟩
    · obtain rfl | performs := filled _ part
      · exact ⟨[], s, List.nil_prefix, performs_nil s, fun _ _ => rfl⟩
      · exact ⟨[(e.db db, e)], t, (List.prefix_append_right_inj [_]).mpr List.nil_prefix, performs,
          bound⟩
    · have other : ∀ p ∈ placed (e.db db) es, placeOf p ≠ placeOf (e.db db, e) :=
        fun p mem eq => distinct.1 (List.mem_map.mpr ⟨p, mem, eq⟩)
      obtain ⟨entries, s', first, rest, bound'⟩ :=
        ih small' (vacant_behind other bound later) distinct.2
        ((List.prefix_append_right_inj _).mp inside)
      exact ⟨(e.db db, e) :: entries, s', (List.prefix_append_right_inj [_]).mpr first,
        whole _ _ rest,
        view_behind (fun q mem => other q (first.subset mem)) bound bound'⟩

/-- What an image stands for is in the storage that is new when its commands have been executed. -/
lemma image_loads {img : Image} (distinct : Distinct img) :
    ∃ s : StorageInner, Performs img.commands .new s ∧ s.view = dataset img := by
  obtain ⟨s, performs, view⟩ :=
    @performs_entries _ 0 .new _ img.entries (by decide) (fun p _ => rfl) distinct
  refine ⟨s, performs, ?_⟩
  funext db key
  rw [view, StorageInner.view, StorageInner.lookup_new, Option.map_none, Option.or_none]
  rfl

/-- An image whose values can be read, cut anywhere, is read as commands that are all parsed and
executed, and in the storage that was new is its dataset. -/
theorem snapshot_loads {img : Image} (known : img.Known) (readable : img.Readable)
    (distinct : Distinct img) (bound : img.encode.length < usizeSize) {chunks : List Bytes}
    (ne : ∀ c ∈ chunks, c ≠ []) (cut : chunks.flatten = img.encode) :
    ∃ q cmds s, Rdb.feedAll .new chunks = .ok (q, cmds) ∧ q.finished = true ∧ Performs cmds .new s ∧
      s.view = dataset img := by
  obtain ⟨q, read, finished, -, -⟩ := absorb_image known readable.right bound
  obtain ⟨s, performs, view⟩ := image_loads distinct
  refine ⟨q, img.commands, s, ?_, finished, performs, view⟩
  rw [Rdb.feedAll_of_isImage (isImage_encode known readable bound) ne cut]
  exact read

end

/-- The sample image in two chunks loads its dataset. -/
theorem snapshot_loads_sample :
    ∃ q cmds s, Rdb.feedAll .new [sample.encode.take 20, sample.encode.drop 20] = .ok (q, cmds) ∧
      q.finished = true ∧ @Performs ⟨fun _ => false⟩ (.exact false) cmds .new s ∧
      s.view = dataset sample :=
  @snapshot_loads (.exact false) ⟨fun _ => false⟩ sample
    sample_known sample_readable (by decide +kernel) (by decide +kernel) _ (by decide +kernel)
      (by decide +kernel)

end Veidrodelis.TSProj
