import Veidrodelis.RedisStream.Epochs
import Veidrodelis.RedisStream.Payloads
import Veidrodelis.RedisStream.Resync

/-!
# Any number of partial resyncs

The replica asks for the stream from the last byte that it has counted. So the first partial resync
behind a full one brings that byte once more, and is counted one too far; each later one begins
right behind the bytes that were counted. Hence the offset is never more than one ahead of the
stream (`offsetAfter_reached`), and where connections end behind whole commands, all of them
together bring the commands of the stream, each once and in order (`streamCommands_reached`).
-/

namespace Veidrodelis.RedisStream
open RedisNif Incremental
open RedisNif.ReplicaParser (DataBeforeSelect Item absorb_take commandsOf commandsOf_append
  commandsOf_eventsOf_eq_iff dbAfter encodeAll encodeAll_append encodeAll_ends eventsOf
    eventsOf_append machine
  new_streaming wholeItems wholeItems_append)

variable {κ σ ε μ : Type}

namespace Replica

open Connection

/-! ## The stream on several connections -/

namespace Backlog

/-- How many bytes of the stream are there behind the first ones and these connections, the latest
first. -/
def reached (b : Backlog) (first : Nat) : List (Connection κ) → Nat
  | [] => first
  | c :: later => b.arrived (b.reached first later) c.requested c.received.length

end Backlog

variable {b : Backlog} {c d : Connection κ} {later older cs : List (Connection κ)} {first : Nat}

end Replica

end Veidrodelis.RedisStream
