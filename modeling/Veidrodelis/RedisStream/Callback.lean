import Veidrodelis.RedisNif.Replica

/-!
# What the replica hands to its callback module

`lib/veidrodelis/redis_stream`: the struct `ReplicaCommand`, the filter in front of the callback
(`command_filter.ex`), the behaviour `Callback`, and `Parser.data`, which turns what the replica
parser emits into commands.

The types that a callback module brings along are variables: `κ` the parsed commands, `σ` the
callback state, `ε` what the callback does to the outside, `μ` the messages it understands.
`CommandParser.parse` is a variable as well; it returns nothing where it raises.
-/

namespace Veidrodelis.RedisStream
open RedisNif

variable {κ σ ε μ : Type}

/-- Why a handler gives up: an exception, or the term of an `{:error, reason}`. -/
inductive Reason where
  | raised
  | redisError (error : Bytes)
  | parserError (msg : String)
  | text (what : String)
  | failed (what : String) (reason : Reason)
  deriving DecidableEq, Repr

/-- `Vdr.RedisStream.ReplicaCommand`. -/
structure ReplicaCommand (κ : Type) where
  db : Nat
  command : κ
  rawCommand : List Bytes
  affectedKeys : List Bytes
  deriving DecidableEq, Repr

/-! ## Filters -/

/-- `Vdr.RedisStream.CommandFilter`: `pre_handle`, which returns nothing for `:skip`. What
`post_handle` does afterwards does not come back to the replica and is left out, as is the context
of a command. -/
structure CommandFilter (κ : Type) where
  preHandle : ReplicaCommand κ → Option (ReplicaCommand κ)

namespace CommandFilter

/-- The default filter. -/
def identity : CommandFilter κ where
  preHandle := some

/-- `combine`. -/
def combine (outer inner : CommandFilter κ) : CommandFilter κ where
  preHandle command :=
    match outer.preHandle command with
    | some command => inner.preHandle command
    | none => none

/-- `apply_pre` with its accumulator. -/
def applyPreFrom (filter : CommandFilter κ) :
    List (ReplicaCommand κ) → List (ReplicaCommand κ) → List (ReplicaCommand κ)
  | [], filtered => filtered.reverse
  | command :: rest, filtered =>
    match filter.preHandle command with
    | some command => applyPreFrom filter rest (command :: filtered)
    | none => applyPreFrom filter rest filtered

/-- `apply_pre`. -/
def applyPre (filter : CommandFilter κ) (commands : List (ReplicaCommand κ)) :
    List (ReplicaCommand κ) :=
  filter.applyPreFrom commands []

/-- The loop of the filter keeps what it has, and filters the others. -/
lemma applyPreFrom_eq (filter : CommandFilter κ) (commands filtered : List (ReplicaCommand κ)) :
    filter.applyPreFrom commands filtered =
      filtered.reverse ++ commands.filterMap filter.preHandle := by
  induction commands generalizing filtered with
  | nil => simp [applyPreFrom]
  | cons command rest ih =>
    cases e : filter.preHandle command with
    | none => simp [applyPreFrom, e, ih]
    | some kept => simp [applyPreFrom, e, ih]

/-- The filter maps each command on its own. -/
lemma applyPre_eq (filter : CommandFilter κ) (commands : List (ReplicaCommand κ)) :
    filter.applyPre commands = commands.filterMap filter.preHandle := by
  simp [applyPre, applyPreFrom_eq]

/-- The filter works one part after the other. -/
lemma applyPre_append (filter : CommandFilter κ) (a b : List (ReplicaCommand κ)) :
    filter.applyPre (a ++ b) = filter.applyPre a ++ filter.applyPre b := by
  simp [applyPre_eq]

/-- A combined filter is applied as the outer filter and then the inner one. -/
lemma combine_applyPre (outer inner : CommandFilter κ) (commands : List (ReplicaCommand κ)) :
    (outer.combine inner).applyPre commands = inner.applyPre (outer.applyPre commands) := by
  have each (command : ReplicaCommand κ) :
      (outer.combine inner).preHandle command = (outer.preHandle command).bind inner.preHandle := by
    simp only [combine]
    cases outer.preHandle command with
    | none => rfl
    | some kept => rfl
  rw [applyPre_eq, applyPre_eq, applyPre_eq, List.filterMap_filterMap]
  exact congrArg (fun f => commands.filterMap f) (funext each)

/-- The identity keeps every command. -/
@[simp] lemma identity_applyPre (commands : List (ReplicaCommand κ)) :
    identity.applyPre commands = commands := by
  simp [applyPre_eq, identity]

end CommandFilter

/-! ## The behaviour -/

/-- The behaviour `Vdr.RedisStream.Callback`: what each function does to the outside, and its new
state or why it fails. -/
structure Callback (κ σ ε μ : Type) where
  init : List ε × Except Reason σ
  handleReplicationStart : σ → List ε × Except Reason σ
  handleStreamingStart : σ → List ε × Except Reason σ
  handleCommands : σ → List (ReplicaCommand κ) → List ε × Except Reason σ
  handleCall : σ → μ → List ε × Except Reason σ
  handleInfo : σ → μ → List ε × Except Reason σ

/-- The functions of the behaviour. -/
inductive CallbackFunction where
  | init
  | handleReplicationStart
  | handleStreamingStart
  | handleCommands
  | handleCall
  | handleInfo
  deriving DecidableEq, Repr

/-! ## Parsed commands -/

/-- What `CommandParser.parse` returns: the command and the keys it affects. -/
abbrev CommandParse (κ : Type) := List Bytes → Option (κ × List Bytes)

namespace Parser

/-- The flags of `Parser.data`. -/
structure Flags where
  ping : Bool
  replconfGetack : Bool
  deriving DecidableEq, Repr

/-- `convert_command`, and the struct that `process_commands` makes of its tuple. -/
def convertCommand (parse : CommandParse κ) (cmd : RawCommand) : Option (ReplicaCommand κ) :=
  match parse (cmd.name :: cmd.args) with
  | some (command, affectedKeys) =>
    some { db := cmd.db, command, rawCommand := cmd.name :: cmd.args, affectedKeys }
  | none => none

/-- `convert_commands`. -/
def convertCommands (parse : CommandParse κ) (cmds : List RawCommand) :
    Option (List (ReplicaCommand κ)) :=
  cmds.mapM (convertCommand parse)

/-- `Parser.data`. -/
def data (parse : CommandParse κ) (parser : ReplicaParser.ParserState) (chunk : Bytes) :
    Except Reason (List (ReplicaCommand κ) × ReplicaParser.ParserState × Flags) :=
  match ReplicaParser.feedData parser chunk with
  | .ok (parser, fed) =>
    match convertCommands parse fed.commands with
    | some commands => .ok (commands, parser, ⟨fed.pingReceived, fed.replconfGetackReceived⟩)
    | none => .error .raised
  | .error (.err msg) => .error (.parserError msg)
  | .error (.panic _) => .error .raised

/-- Commands are converted one part after the other. -/
lemma convertCommands_append {parse : CommandParse κ} {a b : List RawCommand}
    {ca cb : List (ReplicaCommand κ)} (ha : convertCommands parse a = some ca)
    (hb : convertCommands parse b = some cb) :
    convertCommands parse (a ++ b) = some (ca ++ cb) := by
  simp [convertCommands, List.mapM_append] at ha hb ⊢
  simp [ha, hb]

/-- A converted command keeps its database and its words. -/
lemma rawCommand_convertCommand {parse : CommandParse κ} {cmd : RawCommand}
    {command : ReplicaCommand κ} (h : convertCommand parse cmd = some command) :
    command.db = cmd.db ∧ command.rawCommand = cmd.name :: cmd.args := by
  unfold convertCommand at h
  split at h
  · cases h
    exact ⟨rfl, rfl⟩
  · cases h

/-- A conversion of two parts converts both. -/
lemma convertCommands_eq_append {parse : CommandParse κ} {a b : List RawCommand}
    {commands : List (ReplicaCommand κ)} (h : convertCommands parse (a ++ b) = some commands) :
    ∃ ca cb, convertCommands parse a = some ca ∧ convertCommands parse b = some cb ∧
      commands = ca ++ cb := by
  simp only [convertCommands, List.mapM_append] at h ⊢
  cases ea : a.mapM (convertCommand parse) with
  | none => simp [ea] at h
  | some ca =>
    cases eb : b.mapM (convertCommand parse) with
    | none => simp [ea, eb] at h
    | some cb =>
      simp [ea, eb] at h
      exact ⟨ca, cb, rfl, rfl, h.symm⟩

/-- Names and arguments go through. -/
lemma rawCommand_convertCommands {parse : CommandParse κ} {cmds : List RawCommand}
    {commands : List (ReplicaCommand κ)} (h : convertCommands parse cmds = some commands) :
    commands.map (·.rawCommand) = cmds.map fun cmd => cmd.name :: cmd.args := by
  induction cmds generalizing commands with
  | nil =>
    cases h
    rfl
  | cons cmd cmds ih =>
    rw [convertCommands, List.mapM_cons] at h
    cases e : convertCommand parse cmd with
    | none => simp [e] at h
    | some command =>
      cases e' : cmds.mapM (convertCommand parse) with
      | none => simp [e, e'] at h
      | some rest =>
        simp [e, e'] at h
        subst h
        rw [List.map_cons, List.map_cons, ih e', (rawCommand_convertCommand e).2]

end Parser

end Veidrodelis.RedisStream
