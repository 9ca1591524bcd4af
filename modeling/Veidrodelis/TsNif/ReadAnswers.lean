import Veidrodelis.TsNif.Locality
import Veidrodelis.TsNif.ReadCommands

/-!
# What reads answer

A read command looks at some keys (`ReadCommand.looksAt`), and its answer depends on nothing else
(`answer_alike`): so it is the same in front of a batch and behind it, if the batch writes none of
these keys.
-/

namespace Veidrodelis.TsNif
open RedisNif (Fault)
open RedisStream (Command)
open ReadCommands
open WriteCommands (arg binaryArg both i64Arg)

/-- What decides the answer of a command. -/
def ReadCommand.looksAt (db : Nat) : ReadCommand → Set (Nat × Bytes)
  | .first _ | .last _ | .next _ _ | .prev _ _ => {p | p.1 = db}
  | .sunion keys | .sinter keys | .sdiff keys | .sintercard keys => keysOf db keys
  | .get key | .llen key | .lrange key _ _ => keysOf db [key]
  | .smembers key | .sismember key _ | .scard key | .sfirst key _ | .slast key _ | .snext key _ _
  | .sprev key _ _
  | .smismember key _ | .srandmember key _ => keysOf db [key]
  | .hget key _ | .hmget key _ | .hgetall key | .hkeys key | .hvals key | .hlen key | .hexists key _
  | .hfirst key _
  | .hlast key _ | .hnext key _ _ | .hprev key _ _ | .hstrlen key _
  | .hrandfield key _ _ => keysOf db [key]
  | .zscore key _ | .zcard key | .zrange key _ _ _ | .zrangebyscore key _ _ _ | .zrank key _
  | .zrevrank key _
  | .zcount key _ _ | .zfirst key _ | .zlast key _ | .znext key _ _
  | .zprev key _ _ => keysOf db [key]

/-! ## One read -/

section
variable {db : Nat} {s t : StorageInner}

/-- Whether a database has an empty map or none is not seen. -/
lemma dbMap_alike (same : Alike slotAt {p | p.1 = db} s t) :
    s.map[db]?.getD ∅ = t.map[db]?.getD ∅ := by
  apply Std.ExtTreeMap.ext_getElem?
  intro key
  have here : s.lookup db key = t.lookup db key := same (db, key) rfl
  rw [StorageInner.lookup, StorageInner.lookup] at here
  cases left : s.map[db]? with
  | none =>
    cases right : t.map[db]? with
    | none => rfl
    | some dbMap =>
      rw [left, right] at here
      exact (Std.ExtTreeMap.getElem?_empty).trans here
  | some dbMap =>
    cases right : t.map[db]? with
    | none =>
      rw [left, right] at here
      exact here.trans Std.ExtTreeMap.getElem?_empty.symm
    | some dbMap' =>
      rw [left, right] at here
      exact here

/-- The keys of a database are read alike in storages alike there. -/
lemma readKeys_alike
    {entries : Std.ExtTreeMap Bytes StorageValue compare → List (Bytes × StorageValue)}
    (nothing : entries ∅ = []) (same : Alike slotAt {p | p.1 = db} s t) (count : Nat) :
    readKeys entries s db count = readKeys entries t db count := by
  have read (s : StorageInner) : readKeys entries s db count =
      if count = 0 then [] else ((entries (s.map[db]?.getD ∅)).take count).map
        fun entry => entry.1 := by
    rw [readKeys]
    cases s.map[db]? with
    | none => rw [Option.getD_none, nothing, List.take_nil, List.map_nil]
    | some dbMap => rfl
  rw [read s, read t, dbMap_alike same]

section
variable {α ι ο : Type} {c : Container α} {key : Bytes}

/-- A container is read alike at a key bound alike. -/
lemma readOf_alike {missing : ο} {read : α → ο} (same : s.lookup db key = t.lookup db key) :
    readOf c missing read s db key = readOf c missing read t db key := by
  rw [readOf, readOf, same]

/-- The items of a container are read alike at a key bound alike. -/
lemma readItems_alike {entries : α → List ι} {item : ι → ο}
    (same : s.lookup db key = t.lookup db key) (count : Nat) :
    readItems c entries item s db key count = readItems c entries item t db key count := by
  rw [readItems, readItems, same]

end

/-- The answer of a command depends only on what it looks at. -/
theorem answer_alike [Indexset] (dice : Dice) (command : ReadCommand)
    (same : Alike slotAt (command.looksAt db) s t) :
    command.answer dice s db = command.answer dice t db := by
  have bound {key : Bytes} (same : Alike slotAt (keysOf db [key]) s t) : s.lookup db key =
    t.lookup db key :=
    lookup_alike same (List.mem_singleton_self key)
  cases command with
  -- the keys of a database
  | first | last | next | prev =>
    exact congrArg (fun keys => Except.ok (okTerm (CommandTuple.binaries keys)))
      (readKeys_alike rfl same _)
  -- operations on some sets
  | sunion =>
    rw [ReadCommand.answer, ReadCommand.answer, TsNif.sunion, TsNif.sunion, unionFrom_alike same]
  | sinter =>
    rw [ReadCommand.answer, ReadCommand.answer, TsNif.sinter, TsNif.sinter,
    fromFirst_inter_alike same]
  | sdiff =>
    rw [ReadCommand.answer, ReadCommand.answer, TsNif.sdiff, TsNif.sdiff, fromFirst_diff_alike same]
  | sintercard =>
    rw [ReadCommand.answer, ReadCommand.answer, TsNif.sintercard, TsNif.sintercard,
      fromFirst_inter_alike same]
  -- reads of one container
  | llen | sismember | scard | smismember | hget | hmget | hgetall | hkeys | hvals | hlen | hexists
  | hstrlen | zcard =>
    exact congrArg (plainly _) (readOf_alike (bound same))
  | sfirst | slast | snext | sprev | hfirst | hlast | hnext | hprev =>
    exact congrArg (plainly _) (readItems_alike (bound same) _)
  | zfirst | zlast | znext | zprev => exact congrArg (answered _) (readItems_alike (bound same) _)
  | get => simp only [ReadCommand.answer, TsNif.get, bound same]
  | smembers => simp only [ReadCommand.answer, TsNif.smembers, bound same]
  | srandmember => simp only [ReadCommand.answer, TsNif.srandmember, bound same]
  | lrange => simp only [ReadCommand.answer, TsNif.lrange, bound same]
  | hrandfield => simp only [ReadCommand.answer, TsNif.hrandfield, bound same]
  | zscore => simp only [ReadCommand.answer, TsNif.zscore, bound same]
  | zrange => simp only [ReadCommand.answer, TsNif.zrange, bound same]
  | zrangebyscore => simp only [ReadCommand.answer, TsNif.zrangebyscore, bound same]
  | zrank => simp only [ReadCommand.answer, TsNif.zrank, bound same]
  | zrevrank => simp only [ReadCommand.answer, TsNif.zrevrank, bound same]
  | zcount => simp only [ReadCommand.answer, TsNif.zcount, bound same]

end

/-! ## Read transactions -/

/-- What a term of a read transaction looks at: nothing, if it is refused. -/
def looksAt (db : Nat) (cmdTerm : Term) : Set (Nat × Bytes) :=
  match WriteCommands.getTuple cmdTerm with
  | some (first :: args) =>
    match (WriteCommands.decodeAtom first).map fun name => handlerOf name args with
    | some (.ok command) => command.looksAt db
    | _ => ∅
  | _ => ∅

/-- Bounds are taken for floats where they are integers. -/
example : looksAt 0 (CommandTuple.tupleOf [.atom "zcount", .binary (ascii "k"),
    .integer 2, .integer 3]) =
    keysOf 0 [ascii "k"] := rfl

/-- What a read transaction looks at. -/
def looksAtAll (db : Nat) (commands : List Term) : Set (Nat × Bytes) :=
  {p | ∃ cmdTerm ∈ commands, p ∈ looksAt db cmdTerm}

section
variable [Indexset] {db : Nat} {s t : StorageInner} {commands : List Term}

/-- A term is answered alike in storages alike where it looks. -/
lemma execute_alike (dice : Dice) {cmdTerm : Term} (same : Alike slotAt (looksAt db cmdTerm) s t) :
    ReadCommands.execute dice s db cmdTerm = ReadCommands.execute dice t db cmdTerm := by
  rw [looksAt] at same
  rw [ReadCommands.execute, ReadCommands.execute]
  cases tuple : WriteCommands.getTuple cmdTerm with
  | none => rfl
  | some terms =>
    cases terms with
    | nil => rfl
    | cons first args =>
      cases atom : WriteCommands.decodeAtom first with
      | none => simp only [atom]
      | some name =>
        simp only [tuple, atom, Option.map_some] at same ⊢
        rw [dispatchReadCommand, dispatchReadCommand]
        cases handled : handlerOf name args with
        | error fault => rfl
        | ok command =>
          rw [handled] at same
          exact congrArg orError (answer_alike dice command same)

/-- The answers of a read transaction depend only on what it looks at. -/
theorem executeAll_alike (dice : Nat → Dice) (same : Alike slotAt (looksAtAll db commands) s t) :
    ReadCommands.executeAll dice s db commands = ReadCommands.executeAll dice t db commands := by
  induction commands generalizing dice with
  | nil => rfl
  | cons cmdTerm rest ih =>
    have here := execute_alike (dice 0) (same.mono fun _ mem => ⟨cmdTerm, List.mem_cons_self, mem⟩)
    have later := ih (fun i => dice (i + 1)) (same.mono fun _ ⟨other, within, mem⟩ =>
      ⟨other, List.mem_cons_of_mem _ within, mem⟩)
    rw [ReadCommands.executeAll, ReadCommands.executeAll, here, later]

end

/-! ## Tuples -/

open CommandTuple in
/-- The atom in front and the arguments behind it. -/
def ReadCommand.terms : ReadCommand → String × List Term
  | .get key => ("get", [.binary key])
  | .first count => ("first", [integer count])
  | .last count => ("last", [integer count])
  | .next key count => ("next", [.binary key, integer count])
  | .prev key count => ("prev", [.binary key, integer count])
  | .smembers key => ("smembers", [.binary key])
  | .sismember key member => ("sismember", [.binary key, .binary member])
  | .scard key => ("scard", [.binary key])
  | .sfirst key count => ("sfirst", [.binary key, integer count])
  | .slast key count => ("slast", [.binary key, integer count])
  | .snext key member count => ("snext", [.binary key, .binary member, integer count])
  | .sprev key member count => ("sprev", [.binary key, .binary member, integer count])
  | .smismember key members => ("smismember", [.binary key, binaries members])
  | .srandmember key count => ("srandmember", [.binary key, .integer count])
  | .sunion keys => ("sunion", [binaries keys])
  | .sinter keys => ("sinter", [binaries keys])
  | .sdiff keys => ("sdiff", [binaries keys])
  | .sintercard keys => ("sintercard", [binaries keys])
  | .llen key => ("llen", [.binary key])
  | .lrange key start stop => ("lrange", [.binary key, .integer start, .integer stop])
  | .hget key field => ("hget", [.binary key, .binary field])
  | .hmget key fields => ("hmget", [.binary key, binaries fields])
  | .hgetall key => ("hgetall", [.binary key])
  | .hkeys key => ("hkeys", [.binary key])
  | .hvals key => ("hvals", [.binary key])
  | .hlen key => ("hlen", [.binary key])
  | .hexists key field => ("hexists", [.binary key, .binary field])
  | .hfirst key count => ("hfirst", [.binary key, integer count])
  | .hlast key count => ("hlast", [.binary key, integer count])
  | .hnext key field count => ("hnext", [.binary key, .binary field, integer count])
  | .hprev key field count => ("hprev", [.binary key, .binary field, integer count])
  | .hstrlen key field => ("hstrlen", [.binary key, .binary field])
  | .hrandfield key count withValues =>
    ("hrandfield", [.binary key, .integer count, boolean withValues])
  | .zscore key member => ("zscore", [.binary key, .binary member])
  | .zcard key => ("zcard", [.binary key])
  | .zrange key start stop withScores =>
    ("zrange", [.binary key, .integer start, .integer stop, boolean withScores])
  | .zrangebyscore key min max withScores =>
    ("zrangebyscore", [.binary key, .float min, .float max, boolean withScores])
  | .zrank key member => ("zrank", [.binary key, .binary member])
  | .zrevrank key member => ("zrevrank", [.binary key, .binary member])
  | .zcount key min max => ("zcount", [.binary key, .float min, .float max])
  | .zfirst key count => ("zfirst", [.binary key, integer count])
  | .zlast key count => ("zlast", [.binary key, integer count])
  | .znext key member count => ("znext", [.binary key, .binary member, integer count])
  | .zprev key member count => ("zprev", [.binary key, .binary member, integer count])

/-- The tuple that stands for a command. -/
def ReadCommand.tuple (command : ReadCommand) : Term :=
  CommandTuple.tupleOf (.atom command.terms.1 :: command.terms.2)

/-- Counts and positions are machine integers. -/
def ReadCommand.Fits : ReadCommand → Prop
  | .first count | .last count | .next _ count | .prev _ count | .sfirst _ count | .slast _ count
  | .snext _ _ count
  | .sprev _ _ count | .hfirst _ count | .hlast _ count | .hnext _ _ count | .hprev _ _ count
  | .zfirst _ count
  | .zlast _ count | .znext _ _ count | .zprev _ _ count => count < 2 ^ 64
  | .srandmember _ count | .hrandfield _ count _ => inI64 count
  | .lrange _ start stop | .zrange _ start stop _ => inI64 start ∧ inI64 stop
  | _ => True

section

variable {args : List Term} {i : Nat}

/-- A count of 64 bits decodes. -/
lemma countArg_some {n : Nat} (here : args[i]? = some (integer n)) (small : n < 2 ^ 64) :
    countArg i args = .ok (some n) := by
  have fits : decodeU64 n = some n := decodeU64_eq_some.mpr ⟨rfl, small⟩
  rw [countArg, WriteCommands.u64Arg, arg, here, ← fits]
  rfl

/-- An `i64` decodes. -/
lemma i64Arg_some {n : Int} (here : args[i]? = some (.integer n)) (fits : inI64 n) :
    i64Arg i args = .ok (some n) := by
  rw [i64Arg, arg, here]
  simp only [WriteCommands.decodeInteger, decodeI64, if_pos fits]

/-- A boolean decodes. -/
lemma boolArg_some {b : Bool} (here : args[i]? = some (CommandTuple.boolean b)) :
    boolArg i args = .ok (some b) := by
  rw [boolArg, arg, here]
  cases b with
  | true => rfl
  | false => rfl

/-- A count beyond 64 bits does not decode. -/
lemma countArg_none {n : Nat} (here : args[i]? = some (integer n)) (large : ¬ n < 2 ^ 64) :
    countArg i args = .ok none := by
  have unfit : decodeU64 n = none := by
    rw [Option.eq_none_iff_forall_ne_some]
    intro m eq
    obtain ⟨same, small⟩ := decodeU64_eq_some.mp eq
    obtain rfl := Int.natCast_inj.mp same
    exact large small
  rw [countArg, WriteCommands.u64Arg, arg, here, ← unfit]
  rfl

/-- An integer beyond `i64` does not decode. -/
lemma i64Arg_none {n : Int} (here : args[i]? = some (.integer n)) (unfit : ¬ inI64 n = true) :
    i64Arg i args = .ok none := by
  rw [i64Arg, arg, here]
  simp only [WriteCommands.decodeInteger, decodeI64, if_neg unfit]

variable {α β : Type}

/-- Two arguments that decode are a pair. -/
lemma both_some {first : List Term → Except Fault (Option α)}
    {second : List Term → Except Fault (Option β)} {a : α} {b : β} (h : first args = .ok (some a))
    (h' : second args = .ok (some b)) : both first second args = .ok (some (a, b)) := by
  rw [both, h, h']
  rfl

/-- Arguments of the right number that decode are a command. -/
lemma handled {arity : Nat} {countMsg msg : String} {decode : List Term → Except Fault (Option α)}
    {command : α → ReadCommand} {a : α} (many : args.length = arity)
    (h : decode args = .ok (some a)) :
    handler arity countMsg decode msg command args = .ok (command a) := by
  rw [handler, if_neg (not_not_intro many), h]
  rfl

/-- The handler of a tuple takes it for the command that it stands for. -/
theorem handlerOf_terms {command : ReadCommand} (fits : command.Fits) :
    handlerOf command.terms.1 command.terms.2 = .ok command := by
  cases command with
  -- binaries only
  | get | smembers | scard | llen | hgetall | hkeys | hvals | hlen | zcard => rfl
  | sismember | hget | hexists | hstrlen | zscore | zrank | zrevrank => rfl
  | zcount => rfl
  | sunion keys =>
    exact (handled rfl (WriteCommands.decode_binaries keys) : handleSunion
      [CommandTuple.binaries keys] = _)
  | sinter keys =>
    exact (handled rfl (WriteCommands.decode_binaries keys) : handleSinter
      [CommandTuple.binaries keys] = _)
  | sdiff keys =>
    exact (handled rfl (WriteCommands.decode_binaries keys) : handleSdiff
      [CommandTuple.binaries keys] = _)
  | sintercard keys =>
    exact (handled rfl (WriteCommands.decode_binaries keys) : handleSintercard
      [CommandTuple.binaries keys] = _)
  | smismember key members =>
    exact (handled rfl (both_some rfl (WriteCommands.decode_binaries members)) :
      handleSmismember [.binary key, CommandTuple.binaries members] = _)
  | hmget key fields =>
    exact (handled rfl (both_some rfl (WriteCommands.decode_binaries fields)) :
      handleHmget [.binary key, CommandTuple.binaries fields] = _)
  -- a count behind the others
  | first count => exact (handled rfl (countArg_some rfl fits) : handleFirst [integer count] = _)
  | last count => exact (handled rfl (countArg_some rfl fits) : handleLast [integer count] = _)
  | next key count =>
    exact (handled rfl (both_some rfl (countArg_some rfl fits)) : handleNext
      [.binary key, integer count] = _)
  | prev key count =>
    exact (handled rfl (both_some rfl (countArg_some rfl fits)) : handlePrev
      [.binary key, integer count] = _)
  | sfirst key count =>
    exact (handled rfl (both_some rfl (countArg_some rfl fits)) : handleSfirst
      [.binary key, integer count] = _)
  | slast key count =>
    exact (handled rfl (both_some rfl (countArg_some rfl fits)) : handleSlast
      [.binary key, integer count] = _)
  | hfirst key count =>
    exact (handled rfl (both_some rfl (countArg_some rfl fits)) : handleHfirst
      [.binary key, integer count] = _)
  | hlast key count =>
    exact (handled rfl (both_some rfl (countArg_some rfl fits)) : handleHlast
      [.binary key, integer count] = _)
  | zfirst key count =>
    exact (handled rfl (both_some rfl (countArg_some rfl fits)) : handleZfirst
      [.binary key, integer count] = _)
  | zlast key count =>
    exact (handled rfl (both_some rfl (countArg_some rfl fits)) : handleZlast
      [.binary key, integer count] = _)
  | snext key item count =>
    exact (handled rfl (both_some rfl (both_some rfl (countArg_some rfl fits))) :
      handleSnext [.binary key, .binary item, integer count] = _)
  | sprev key item count =>
    exact (handled rfl (both_some rfl (both_some rfl (countArg_some rfl fits))) :
      handleSprev [.binary key, .binary item, integer count] = _)
  | hnext key item count =>
    exact (handled rfl (both_some rfl (both_some rfl (countArg_some rfl fits))) :
      handleHnext [.binary key, .binary item, integer count] = _)
  | hprev key item count =>
    exact (handled rfl (both_some rfl (both_some rfl (countArg_some rfl fits))) :
      handleHprev [.binary key, .binary item, integer count] = _)
  | znext key item count =>
    exact (handled rfl (both_some rfl (both_some rfl (countArg_some rfl fits))) :
      handleZnext [.binary key, .binary item, integer count] = _)
  | zprev key item count =>
    exact (handled rfl (both_some rfl (both_some rfl (countArg_some rfl fits))) :
      handleZprev [.binary key, .binary item, integer count] = _)
  | srandmember key count =>
    exact (handled rfl (both_some rfl (i64Arg_some rfl fits)) : handleSrandmember
      [.binary key, .integer count] = _)
  | hrandfield key count withValues =>
    exact (handled rfl (both_some rfl (both_some (i64Arg_some rfl fits) (boolArg_some rfl))) :
      handleHrandfield [.binary key, .integer count, CommandTuple.boolean withValues] = _)
  -- two positions or scores
  | lrange key start stop =>
    exact (handled rfl (both_some rfl
      (both_some (i64Arg_some rfl fits.1) (i64Arg_some rfl fits.2))) :
      handleLrange [.binary key, .integer start, .integer stop] = _)
  | zrange key start stop withScores =>
    exact (handled rfl (both_some rfl (both_some (i64Arg_some rfl fits.1)
      (both_some (i64Arg_some rfl fits.2) (boolArg_some rfl)))) :
      handleZrange [.binary key, .integer start, .integer stop, CommandTuple.boolean withScores] =
        _)
  | zrangebyscore key min max withScores =>
    exact (handled rfl (both_some rfl (both_some rfl (both_some rfl (boolArg_some rfl)))) :
      handleZrangebyscore [.binary key, .float min, .float max, CommandTuple.boolean withScores] =
      _)

/-- The first of two arguments does not decode, and the second one does not panic. -/
lemma first_none {first : List Term → Except Fault (Option α)}
    {second : List Term → Except Fault (Option β)} {y : Option β} (h : first args = .ok none)
    (h' : second args = .ok y) : both first second args = .ok none := by
  rw [both, h, h']
  rfl

/-- A second argument that does not decode spoils the pair. -/
lemma second_none {first : List Term → Except Fault (Option α)}
    {second : List Term → Except Fault (Option β)} {x : Option α} (h : first args = .ok x)
    (h' : second args = .ok none) : both first second args = .ok none := by
  rw [both, h, h']
  cases x with
  | none => rfl
  | some a => rfl

/-- Arguments that do not decode are refused. -/
lemma unhandled {arity : Nat} {countMsg msg : String} {decode : List Term → Except Fault (Option α)}
    {command : α → ReadCommand} (many : args.length = arity) (h : decode args = .ok none) :
    handler arity countMsg decode msg command args = WriteCommands.refuse msg := by
  rw [handler, if_neg (not_not_intro many), h]
  rfl

/-- A number that is no machine integer is refused. -/
lemma handlerOf_unfit {command : ReadCommand} (unfit : ¬ command.Fits) :
    ∃ msg, handlerOf command.terms.1 command.terms.2 = WriteCommands.refuse msg := by
  cases command with
  | first count =>
    exact ⟨_, (unhandled rfl (countArg_none rfl unfit) : handleFirst [integer count] = _)⟩
  | last count =>
    exact ⟨_, (unhandled rfl (countArg_none rfl unfit) : handleLast [integer count] = _)⟩
  | next key count =>
    exact ⟨_,
      (unhandled rfl (second_none rfl (countArg_none rfl unfit)) : handleNext
      [.binary key, integer count] = _)⟩
  | prev key count =>
    exact ⟨_,
      (unhandled rfl (second_none rfl (countArg_none rfl unfit)) : handlePrev
      [.binary key, integer count] = _)⟩
  | sfirst key count =>
    exact ⟨_,
      (unhandled rfl (second_none rfl (countArg_none rfl unfit)) : handleSfirst
      [.binary key, integer count] = _)⟩
  | slast key count =>
    exact ⟨_,
      (unhandled rfl (second_none rfl (countArg_none rfl unfit)) : handleSlast
      [.binary key, integer count] = _)⟩
  | hfirst key count =>
    exact ⟨_,
      (unhandled rfl (second_none rfl (countArg_none rfl unfit)) : handleHfirst
      [.binary key, integer count] = _)⟩
  | hlast key count =>
    exact ⟨_,
      (unhandled rfl (second_none rfl (countArg_none rfl unfit)) : handleHlast
      [.binary key, integer count] = _)⟩
  | zfirst key count =>
    exact ⟨_,
      (unhandled rfl (second_none rfl (countArg_none rfl unfit)) : handleZfirst
      [.binary key, integer count] = _)⟩
  | zlast key count =>
    exact ⟨_,
      (unhandled rfl (second_none rfl (countArg_none rfl unfit)) : handleZlast
      [.binary key, integer count] = _)⟩
  | snext key item count =>
    exact ⟨_, (unhandled rfl (second_none rfl (second_none rfl (countArg_none rfl unfit))) :
      handleSnext [.binary key, .binary item, integer count] = _)⟩
  | sprev key item count =>
    exact ⟨_, (unhandled rfl (second_none rfl (second_none rfl (countArg_none rfl unfit))) :
      handleSprev [.binary key, .binary item, integer count] = _)⟩
  | hnext key item count =>
    exact ⟨_, (unhandled rfl (second_none rfl (second_none rfl (countArg_none rfl unfit))) :
      handleHnext [.binary key, .binary item, integer count] = _)⟩
  | hprev key item count =>
    exact ⟨_, (unhandled rfl (second_none rfl (second_none rfl (countArg_none rfl unfit))) :
      handleHprev [.binary key, .binary item, integer count] = _)⟩
  | znext key item count =>
    exact ⟨_, (unhandled rfl (second_none rfl (second_none rfl (countArg_none rfl unfit))) :
      handleZnext [.binary key, .binary item, integer count] = _)⟩
  | zprev key item count =>
    exact ⟨_, (unhandled rfl (second_none rfl (second_none rfl (countArg_none rfl unfit))) :
      handleZprev [.binary key, .binary item, integer count] = _)⟩
  | srandmember key count =>
    exact ⟨_, (unhandled rfl (second_none rfl (i64Arg_none rfl unfit)) :
      handleSrandmember [.binary key, .integer count] = _)⟩
  | hrandfield key count withValues =>
    exact ⟨_, (unhandled rfl (second_none rfl (first_none (i64Arg_none rfl unfit) rfl)) :
      handleHrandfield [.binary key, .integer count, CommandTuple.boolean withValues] = _)⟩
  | lrange key start stop =>
    have positions : both (i64Arg 1) (i64Arg 2) [.binary key, .integer start, .integer stop] =
      .ok none := by
      rcases not_and_or.mp unfit with first | second
      · exact first_none (i64Arg_none rfl first) rfl
      · exact second_none rfl (i64Arg_none rfl second)
    exact ⟨_, (unhandled rfl (second_none rfl positions) :
      handleLrange [.binary key, .integer start, .integer stop] = _)⟩
  | zrange key start stop withScores =>
    have positions : both (i64Arg 1) (both (i64Arg 2) (boolArg 3))
        [.binary key, .integer start, .integer stop, CommandTuple.boolean withScores] =
        .ok none := by
      rcases not_and_or.mp unfit with first | second
      · exact first_none (i64Arg_none rfl first) rfl
      · exact second_none rfl (first_none (i64Arg_none rfl second) rfl)
    exact ⟨_, (unhandled rfl (second_none rfl positions) :
      handleZrange [.binary key, .integer start, .integer stop, CommandTuple.boolean withScores] =
      _)⟩
  | _ => exact absurd trivial unfit

/-- The NIF answers to the tuple what the command answers. -/
theorem execute_tuple [Indexset] (dice : Dice) (s : StorageInner) (db : Nat) {command : ReadCommand}
    (fits : command.Fits) :
    ReadCommands.execute dice s db command.tuple = orError (command.answer dice s db) := by
  have tuple : WriteCommands.getTuple command.tuple =
    some (.atom command.terms.1 :: command.terms.2) :=
    Term.toList_ofList _
  rw [ReadCommands.execute, tuple]
  simp only [WriteCommands.decodeAtom]
  rw [dispatchReadCommand, handlerOf_terms fits]
  rfl

/-- So the tuple looks at what the command looks at. -/
lemma looksAt_tuple {command : ReadCommand} (fits : command.Fits) (db : Nat) :
    looksAt db command.tuple = command.looksAt db := by
  have tuple : WriteCommands.getTuple command.tuple =
    some (.atom command.terms.1 :: command.terms.2) :=
    Term.toList_ofList _
  rw [looksAt, tuple]
  simp only [WriteCommands.decodeAtom, Option.map_some, handlerOf_terms fits]

/-- The NIF takes the tuple of a command for the command if its numbers are machine integers, and
refuses it otherwise. -/
theorem tuple_answers [Indexset] (dice : Dice) (s : StorageInner) (db : Nat)
    (command : ReadCommand) :
    (command.Fits →
      ReadCommands.execute dice s db command.tuple = orError (command.answer dice s db)) ∧
      (¬ command.Fits → ∃ msg, ReadCommands.execute dice s db command.tuple =
      .ok (encodeError msg)) := by
  refine ⟨execute_tuple dice s db, fun unfit => ?_⟩
  have tuple : WriteCommands.getTuple command.tuple =
    some (.atom command.terms.1 :: command.terms.2) :=
    Term.toList_ofList _
  obtain ⟨msg, refused⟩ := handlerOf_unfit unfit
  refine ⟨msg, ?_⟩
  rw [ReadCommands.execute, tuple]
  simp only [WriteCommands.decodeAtom]
  rw [dispatchReadCommand, refused]
  rfl

end

/-! ## Reads around a batch -/

section
variable [Indexset] {batch : List (Nat × Command)} {places : Set (Nat × Bytes)} {db : Nat}
  {commands : List Term}

/-- A batch that writes elsewhere is not seen, whether it panics or not. -/
lemma tx_unseen (apart : ∀ call ∈ batch, Disjoint (writesOf call) places) (s : StorageInner) :
    Alike slotAt places (tx batch s).1 s := by
  induction batch generalizing s with
  | nil => exact .refl s
  | cons call rest ih =>
    obtain ⟨db, command⟩ := call
    obtain ⟨here, later⟩ := List.forall_mem_cons.mp apart
    have left : Alike slotAt places (execute db command s).1 s :=
      (execute_footprint (db, command)).unseen here s
    by_cases panics : Panicked (execute db command s).2
    · obtain ⟨msg, eq⟩ := tx_of_panicked rest panics
      rw [eq]
      exact left
    · rw [tx_of_not_panicked rest panics]
      exact (ih later _).trans left

/-- A read transaction is answered the same in front of a batch and behind it, if the batch writes
nothing that the transaction looks at. -/
theorem read_unmoved (dice : Nat → Dice)
    (apart : ∀ call ∈ batch, Disjoint (writesOf call) (looksAtAll db commands)) (s : StorageInner) :
    ReadCommands.executeAll dice (tx batch s).1 db commands =
      ReadCommands.executeAll dice s db commands :=
  executeAll_alike dice (tx_unseen apart s)

end

/-- `SDIFF` looks at two sets, and another one is stored. -/
theorem read_unmoved_diff :
    @ReadCommands.executeAll (.exact false) (fun _ => .front) (@tx (.exact false)
        [(0, .sunionstore (ascii "u") [ascii "a", ascii "b"])] .new).1 0
        [(ReadCommand.sdiff [ascii "a", ascii "b"]).tuple] =
      @ReadCommands.executeAll (.exact false) (fun _ => .front) .new 0
        [(ReadCommand.sdiff [ascii "a", ascii "b"]).tuple] := by
  refine @read_unmoved (.exact false) [(0, .sunionstore (ascii "u") [ascii "a", ascii "b"])] 0
    [(ReadCommand.sdiff [ascii "a", ascii "b"]).tuple] (fun _ => .front) ?_ .new
  intro call mem
  obtain rfl := List.mem_singleton.mp mem
  refine Set.disjoint_left.mpr ?_
  rintro p ⟨-, -, written⟩ ⟨cmdTerm, within, looked⟩
  obtain rfl := List.mem_singleton.mp within
  rw [@looksAt_tuple (.sdiff [ascii "a", ascii "b"]) trivial 0] at looked
  obtain ⟨-, read⟩ := looked
  rw [List.mem_singleton.mp written] at read
  exact absurd read (by decide)

end Veidrodelis.TsNif
