import Veidrodelis.TSProj.Watch
import Veidrodelis.TsNif.WriteCommands

/-!
# The projection

`lib/veidrodelis/ts_proj.ex`: the callback module that keeps a storage up to date with the primary.
Parsed commands are buffered and handed to the storage in batches, the commands of a transaction in
one batch; afterwards the watchers of the keys that they affect are told. While a snapshot is loaded
there are two storages, and the registry exposes the old one until streaming starts.

A storage is a resource; it is known by its number among those that were created, and what is in
them is part of the state here. What the module does to the outside is a list of events.
-/

namespace Veidrodelis.TSProj
open RedisStream (Callback Command Reason ReplicaCommand)
open TsNif (Indexset StorageInner tx)

/-- `@tx_key`. -/
def txKey : Bytes := ascii "__vdr_tx"

/-- The reference of a storage. -/
abbrev Storage := Nat

/-! ## State -/

/-- The struct, with the contents of the storages that were created. Monitors are numbered like the
storages. -/
structure State where
  storages : List StorageInner
  tsStorage : Option Storage
  newTsStorage : Option Storage
  ready : Bool
  txBuffer : List (Nat × Command)
  inTransaction : Bool
  watch : Watch
  monitors : Std.ExtTreeMap Pid Nat compare
  monitored : Nat

/-- What the module does to the outside. -/
inductive Event where
  /-- A batch is handed to `Vdr.TS.tx`, and what is in the storage afterwards. -/
  | tx (storage : Storage) (batch : List (Nat × Command)) (content : StorageInner)
  /-- `%Vdr.WatchEvent.Init{}` is sent. -/
  | init (pid : Pid) (ref : Ref)
  /-- `%Vdr.WatchEvent.Update{}` is sent. -/
  | update (pid : Pid) (ref : Ref) (command : Command) (db : Nat)
  /-- The handle in the registry. -/
  | register (storage : Option Storage) (ready : Bool)
  | monitor (pid : Pid) (monitor : Nat)
  | demonitor (monitor : Nat)
  deriving DecidableEq

/-- What a function of the module does, and the state that it returns if it does not raise. -/
abbrev Step := List Event × Except Reason State

/-- Go on with the state that is returned. -/
def Step.andThen (step : Step) (next : State → Step) : Step :=
  match step with
  | (events, .ok s) => (events ++ (next s).1, (next s).2)
  | (events, .error reason) => (events, .error reason)

/-- The content of a storage. -/
def State.content (s : State) (storage : Storage) : StorageInner := s.storages[storage]?.getD .new

/-! ## Notifications -/

/-- `extract_affected_keys_for_notification`. -/
def affectedKeys : Command → List Bytes
  | .del keys => keys
  | .mset pairs => pairs.map (·.1)
  | .msetex pairs => pairs.map (·.1)
  | .msetnx pairs => pairs.map (·.1)
  | .rpoplpush source destination => [source, destination]
  | .lmove source destination _ _ => [source, destination]
  | .rename oldKey newKey => [oldKey, newKey]
  | .renamenx oldKey newKey => [oldKey, newKey]
  | .smove source destination _ => [source, destination]
  | .copy source destination _ => [source, destination]
  | .sunionstore destination keys => destination :: keys
  | .sinterstore destination keys => destination :: keys
  | .sdiffstore destination keys => destination :: keys
  | .zunionstore destination keys _ _ => destination :: keys
  | .zinterstore destination keys _ _ => destination :: keys
  | .zdiffstore destination keys => destination :: keys
  | .zrangestore destination source _ _ _ => [destination, source]
  -- tuples of a name, a key and at most three more
  | .set key _ => [key]
  | .append key _ => [key]
  | .setrange key _ _ => [key]
  | .setbit key _ _ => [key]
  | .incr key => [key]
  | .incrby key _ => [key]
  | .decr key => [key]
  | .decrby key _ => [key]
  | .setnx key _ => [key]
  | .getset key _ => [key]
  | .getdel key => [key]
  | .lpush key _ => [key]
  | .rpush key _ => [key]
  | .lpushx key _ => [key]
  | .rpushx key _ => [key]
  | .lpop key => [key]
  | .lpopCount key _ => [key]
  | .rpop key => [key]
  | .rpopCount key _ => [key]
  | .lrem key _ _ => [key]
  | .ltrim key _ _ => [key]
  | .lset key _ _ => [key]
  | .linsert key _ _ _ => [key]
  | .sadd key _ => [key]
  | .srem key _ => [key]
  | .zadd key _ _ => [key]
  | .zincrby key _ _ => [key]
  | .zrem key _ => [key]
  | .zpopmax key _ => [key]
  | .zpopmin key _ => [key]
  | .zremrangebyrank key _ _ => [key]
  | .zremrangebyscore key _ _ => [key]
  | .zremrangebylex key _ _ => [key]
  | .hset key _ _ => [key]
  | .hmset key _ => [key]
  | .hsetnx key _ _ => [key]
  | .hincrby key _ _ => [key]
  | .hincrbyfloat key _ _ => [key]
  | .hdel key _ => [key]
  | .hgetdel key _ => [key]
  | .hpexpireat key _ _ _ => [key]
  | .hpersist key _ => [key]
  | .hsetex key _ _ => [key]
  | .moveKey key _ => [key]
  | .pexpireat key _ => [key]
  | .persist key => [key]
  | .flushall => []
  | .flushdb => []
  | .swapdb _ _ => []
  | .generic _ => []

/-- An Update for each of the watches. -/
def updates (command : Command) (db : Nat) (watches : List (Ref × Pid)) : List Event :=
  watches.map fun (ref, pid) => .update pid ref command db

/-- The loop of `notify_watchers` over the affected keys. -/
def notifyKeys (watch : Watch) (db : Nat) (command : Command) :
    List Bytes → List Event × Except Reason Unit
  | [] => ([], .ok ())
  | key :: rest =>
    match watch.lookupPrefix db key with
    | .error reason => ([], .error reason)
    | .ok found =>
      let (later, result) := notifyKeys watch db command rest
      (updates command db (watch.lookup db key ++ found).eraseDups ++ later, result)

/-- `notify_watchers`. -/
def notifyWatchers (s : State) (db : Nat) (command : Command) : List Event × Except Reason Unit :=
  if s.ready then
    match command with
    | .flushall =>
      (updates command db (s.watch.allWatchers.map fun (pid, ref) => (ref, pid)), .ok ())
    | .flushdb => (updates command db (s.watch.lookupByDb db), .ok ())
    | .swapdb db1 db2 =>
      (updates command db (s.watch.lookupByDb db1 ++ s.watch.lookupByDb db2).eraseDups, .ok ())
    | _ => notifyKeys s.watch db command (affectedKeys command)
  else ([], .ok ())

/-- The loop of `flush_tx_buffer` around it. -/
def notifyAll (s : State) : List (Nat × Command) → List Event × Except Reason Unit
  | [] => ([], .ok ())
  | (db, command) :: rest =>
    match notifyWatchers s db command with
    | (events, .error reason) => (events, .error reason)
    | (events, .ok ()) => (events ++ (notifyAll s rest).1, (notifyAll s rest).2)

/-! ## Commands -/

/-- `convert_command`. -/
def convertCommand (db : Nat) : Command → Option (Nat × Command)
  | .flushall => some (0, .flushall)
  | .swapdb db1 db2 => some (0, .swapdb db1 db2)
  | .generic _ => none
  | command => some (db, command)

/-- The tuples that are made of buffered commands. -/
def convertible (commands : List (Nat × Command)) : List (Nat × Command) :=
  commands.filterMap fun (db, command) => convertCommand db command

section
variable [Indexset]

/-- The call of `Vdr.TS.tx` in `flush_tx_buffer`. It raises if a command panics, and if there is no
storage. -/
def runTx (s : State) (batch : List (Nat × Command)) : Step :=
  if batch = [] then ([], .ok s)
  else
    match s.newTsStorage.or s.tsStorage with
    | none => ([], .error .raised)
    | some storage =>
      let (content, result) := tx batch (s.content storage)
      ([.tx storage batch content], match result with
        | .ok _ => .ok { s with storages := s.storages.set storage content }
        | .error _ => .error .raised)

/-- `flush_tx_buffer`. -/
def flushTxBuffer (s : State) : Step :=
  if s.txBuffer = [] then ([], .ok s)
  else
    let commands := s.txBuffer.reverse
    (runTx s (convertible commands)).andThen fun s =>
      ((notifyAll s commands).1, (notifyAll s commands).2.map fun () => { s with txBuffer := [] })

/-- Put a command into the buffer. -/
def State.buffer (s : State) (db : Nat) (command : Command) : State :=
  { s with txBuffer := (db, command) :: s.txBuffer }

/-- `SET __vdr_tx`. -/
def startsTx : Command → Bool
  | .set key _ => key = txKey
  | _ => false

/-- `DEL` of `__vdr_tx` and maybe others. -/
def endsTx : Command → Bool
  | .del keys => txKey ∈ keys
  | _ => false

/-- `process_single_command`. -/
def processSingleCommand (s : State) (db : Nat) (command : Command) : Step :=
  if startsTx command then
    (flushTxBuffer s).andThen fun s =>
      ([], .ok { s with inTransaction := true, txBuffer := [(db, command)] })
  else if endsTx command then
    (flushTxBuffer (s.buffer db command)).andThen
      fun s => ([], .ok { s with inTransaction := false })
  else ([], .ok (s.buffer db command))

/-- The commands one after the other. -/
def processCommands : List (Nat × Command) → State → Step
  | [], s => ([], .ok s)
  | (db, command) :: rest, s => (processSingleCommand s db command).andThen (processCommands rest)

/-- `handle_commands`. -/
def handleCommands (s : State) (commands : List (ReplicaCommand Command)) : Step :=
  (processCommands (commands.map fun c => (c.db, c.command)) s).andThen fun s =>
    if s.inTransaction then ([], .ok s) else flushTxBuffer s

end

/-! ## Start of a replication and of streaming -/

/-- `init` and `initialize_state`. -/
def init : Step :=
  ([.register (some 0) false], .ok {
    storages := [.new]
    tsStorage := some 0
    newTsStorage := none
    ready := false
    txBuffer := []
    inTransaction := false
    watch := .create
    monitors := ∅
    monitored := 0 })

/-- `handle_replication_start`. -/
def handleReplicationStart (s : State) : Step :=
  ([], .ok { s with
    storages := s.storages ++ [.new]
    newTsStorage := some s.storages.length
    txBuffer := []
    inTransaction := false })

/-- `handle_streaming_start`. -/
def handleStreamingStart (s : State) : Step :=
  (s.watch.allWatchers.map (fun (pid, ref) => .init pid ref) ++ [.register s.newTsStorage true],
    .ok { s with tsStorage := s.newTsStorage, newTsStorage := none, ready := true })

/-! ## Watches -/

/-- The calls and messages that the module understands. -/
inductive Message where
  | watch (pid : Pid) (db : Int) (key : Bytes) (ref : Ref)
  | watchPrefix (pid : Pid) (db : Int) (pre : Bytes) (ref : Ref)
  | unwatch (pid : Pid) (db : Int) (key : Bytes)
  | unwatchPrefix (pid : Pid) (db : Int) (pre : Bytes)
  | down (pid : Pid)
  | other
  deriving DecidableEq, Repr

/-- `put_watch_and_monitor`. -/
def putWatchAndMonitor (s : State) (watch : Watch) (pid : Pid) : Step :=
  if pid ∈ s.monitors then ([], .ok { s with watch })
  else ([.monitor pid s.monitored], .ok { s with
    watch
    monitors := s.monitors.insert pid s.monitored
    monitored := s.monitored + 1 })

/-- A watch that is added, or refused. -/
def addWatch (s : State) (pid : Pid) (added : Except Reason Watch) : Step :=
  match added with
  | .ok watch => putWatchAndMonitor s watch pid
  | .error .raised => ([], .error .raised)
  | .error _ => ([], .ok s)

/-- A watch that is deleted, or not found. -/
def dropWatch (s : State) (pid : Pid) (deleted : Except Reason (Watch × Nat)) : Step :=
  match deleted with
  | .ok (watch, 0) =>
    (match s.monitors[pid]? with
      | some monitor => [.demonitor monitor]
      | none => [], .ok { s with watch, monitors := s.monitors.erase pid })
  | .ok (watch, _) => ([], .ok { s with watch })
  | .error .raised => ([], .error .raised)
  | .error _ => ([], .ok s)

/-- `handle_call`; the replies are left out. -/
def handleCall [Runtime] (s : State) : Message → Step
  | .watch pid db key ref => addWatch s pid (s.watch.add pid db key ref)
  | .watchPrefix pid db pre ref => addWatch s pid (s.watch.addPrefix pid db pre ref)
  | .unwatch pid db key => dropWatch s pid (s.watch.delete pid db key)
  | .unwatchPrefix pid db pre => dropWatch s pid (s.watch.deletePrefix pid db pre)
  | _ => ([], .ok s)

/-- `handle_info`. -/
def handleInfo (s : State) : Message → Step
  | .down pid =>
    ([], .ok { s with watch := s.watch.deleteAll pid, monitors := s.monitors.erase pid })
  | _ => ([], .ok s)

/-- The module as the replica calls it. -/
def callback [Indexset] [Runtime] : Callback Command State Event Message where
  init := init
  handleReplicationStart := handleReplicationStart
  handleStreamingStart := handleStreamingStart
  handleCommands := handleCommands
  handleCall := handleCall
  handleInfo := handleInfo

end Veidrodelis.TSProj
