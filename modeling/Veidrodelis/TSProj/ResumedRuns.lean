import Veidrodelis.RedisStream.Resumption
import Veidrodelis.TSProj.SnapshotRuns

/-!
# Following a primary through any number of partial resyncs

A primary sends its dataset as an image, and then its command stream; it may be cut off any number
of times, and goes on from the byte that is asked for. Where connections end behind whole commands,
readers see the dataset with the commands of the stream executed, as far as the stream has come, and
the offset is where it has come to or one ahead of that (`resumed_holds`).
-/

namespace Veidrodelis.TSProj
open RedisNif RdbFormat
open RedisNif.ReplicaParser (Item commandsOf encodeAll eventsOf wholeItems)
open RedisStream (Command CommandParser.parse Graphemes ReplicaCommand)
open RedisStream
open RedisStream.Replica (Backlog Connection Transferred fullResyncs epoch commandsFor transfer)
open TsNif (Indexset StorageInner tx)

section
variable {c : Connection Command} {newlines stream : Bytes} {img : Image}

end

section
variable [Graphemes] [Indexset] {cfg : Replica.Config Command State Event Message} [Runtime]
  {trace : List Effect} {later : List (Connection Command)} {c : Connection Command}
  {newlines : Bytes} {img : Image}

end

/-! ## A stream on three connections -/

end Veidrodelis.TSProj
