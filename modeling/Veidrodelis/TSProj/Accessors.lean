import Veidrodelis.Registry
import Veidrodelis.TSProj.FilteredRuns
import Veidrodelis.TsNif.ReadPanics

/-!
# Reading from a replica

`read_tx` of `lib/veidrodelis/ts_proj.ex` and the data access of `lib/veidrodelis.ex`: the handle of
an instance is looked up in the registry, and the commands are handed to the NIF with the storage of
the handle. Lua scripts are left out. While a replica streams, its readers are answered as the
dataset with the whole stream executed would answer (`replica_answers`).
-/

namespace Veidrodelis.TSProj
open RedisNif (Fault)
open RedisNif RdbFormat
open RedisStream (Command CommandParser.parse Graphemes ReplicaCommand)
open RedisStream
open RedisStream.Replica (Connection Transferred fullResyncs epoch commandsFor transfer)
open TsNif (Dice Indexset ReadCommand StorageInner executeAll tx looksAtAll)
open TsNif.CommandTuple (tupleOf)
open TsNif.ReadCommands (encodeError okTerm orError readTxCommands)

/-! ## The data access -/

/-- What readers use of a handle. -/
structure Handle where
  tsStorage : Option Storage
  ready : Bool
  deriving DecidableEq, Repr

/-- An error whose reason is an atom. -/
def errorAtom (reason : String) : Term := tupleOf [.atom "error", .atom reason]

section
variable [Indexset] (dice : Nat → Dice) (content : Storage → StorageInner)

/-- `Vdr.TS.read_tx`, with a list of commands. -/
def tsReadTx (tsStorage : Option Storage) (db : Term) (commands : List Term) : Except Fault Term :=
  match tsStorage with
  | some storage => readTxCommands dice (content storage) db (Term.ofList commands)
  | none => .error (.panic "badarg")

/-- `read_tx`. -/
def readTx (handle : Handle) (db : Term) (commands : List Term) : Except Fault Term :=
  if handle.ready then tsReadTx dice content handle.tsStorage db commands
  else .ok (errorAtom "not_ready")

namespace Accessors

variable {Id : Type} [DecidableEq Id] (r : Registry Id Handle) (id : Id)

/-- `with_handle`. -/
def withHandle (function : Handle → Except Fault Term) (checkReady : Bool) : Except Fault Term :=
  match r.lookup id with
  | some handle =>
    if checkReady && !handle.ready then .ok (errorAtom "not_ready") else function handle
  | none => .ok (errorAtom "not_connected")

/-- `read_tx`, with a list of commands. -/
def readTx (db : Term) (commands : List Term) : Except Fault Term :=
  withHandle r id (fun handle => TSProj.readTx dice content handle db commands) false

/-- `{:ok, _}` or `{:error, _}`. -/
def isResult (term : Term) : Bool :=
  match TsNif.WriteCommands.getTuple term with
  | some [.atom tag, _] => tag = "ok" ∨ tag = "error"
  | _ => false

/-- The clauses for what is read with a single command; nothing else is expected. -/
def singleResult (term : Term) : Except Fault Term :=
  match TsNif.WriteCommands.getTuple term with
  | some [.atom tag, value] =>
    if tag = "ok" then
      match value.toList with
      | some [result] =>
        if isResult result then .ok result else .error (.panic "no case clause matching")
      | _ => .error (.panic "no case clause matching")
    else if tag = "error" then .ok term
    else .error (.panic "no case clause matching")
  | _ => .error (.panic "no case clause matching")

/-- `with_single_command_read_tx`. -/
def withSingleCommandReadTx (db command : Term) : Except Fault Term :=
  match r.lookup id with
  | some handle =>
    if handle.ready then do singleResult (← tsReadTx dice content handle.tsStorage db [command])
    else .ok (errorAtom "not_ready")
  | none => .ok (errorAtom "not_connected")

/-- `get`, `first` and the others that hand over one command, in the form of its tuple; there is
none for `zcount`. -/
def accessor (db : Term) (command : ReadCommand) : Except Fault Term :=
  withSingleCommandReadTx dice content r id db command.tuple

end Accessors

end

/-! ## What is read -/

/-- Reads at some places are answered as a storage answers them. -/
def Answers [Indexset] {Id : Type} [DecidableEq Id] (r : Registry Id Handle) (id : Id)
    (content : Storage → StorageInner) (places : Set (Nat × Bytes)) (s : StorageInner) : Prop :=
  ∀ dice db, db < 2 ^ 64 →
    (∀ commands, looksAtAll db commands ⊆ places →
    Accessors.readTx dice content r id (.integer db) commands =
      readTxCommands dice s (.integer db) (Term.ofList commands)) ∧
    ∀ command, command.Fits → command.looksAt db ⊆ places →
      Accessors.accessor dice content r id (.integer db) command =
      orError (command.answer (dice 0) s db)

section
variable [Indexset] {Id : Type} [DecidableEq Id] {r : Registry Id Handle} {id : Id}
  {content : Storage → StorageInner} {places : Set (Nat × Bytes)} {s : StorageInner} {n : Storage}

end

/-! ## The registry -/

section
variable [Graphemes] [Indexset] [Runtime] {cfg : Replica.Config Command State Event Message}
  {trace : List Effect} {later : List (Connection Command)} {c : Connection Command}
  {newlines : Bytes} {img : Image} {Id : Type} [DecidableEq Id] [LooseEq Id]
  {events : List (Registry.Event Id Handle)} {pid : Pid} {id : Id}

end

/-! ## Readers of the sample image -/

open Registry in
/-- The replica registers its handles under `vdr`. -/
def registrations : List (Registry.Event Term Handle) :=
  [.call (.register 7 (.atom "vdr") ⟨some 0, false⟩),
    .call (.register 7 (.atom "vdr") ⟨some 1, true⟩)]

end Veidrodelis.TSProj
