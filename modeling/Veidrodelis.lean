import Veidrodelis.Lib.Incremental
import Veidrodelis.Lib.Reader
import Veidrodelis.Lib.Bytes
import Veidrodelis.Lib.Binary64
import Veidrodelis.RedisNif.Panics
import Veidrodelis.RedisNif.Quicklists
import Veidrodelis.RedisNif.SizeAgreement
import Veidrodelis.TsNif.EmptyContainers
import Veidrodelis.TsNif.WritePanics
import Veidrodelis.TSProj.Visible
import Veidrodelis.TsNif.ErrorAtomicity
import Veidrodelis.RedisNif.StreamDecode
import Veidrodelis.RedisStream.Resync
import Veidrodelis.RedisStream.Epochs
import Veidrodelis.TsNif.PrefixTreeNodes
import Veidrodelis.TsNif.ListLaws
import Veidrodelis.TsNif.Ranges
import Veidrodelis.Registry
import Veidrodelis.TSProj.WatchRuns
import Veidrodelis.TSProj.Monitors
import Veidrodelis.TSProj.CopyCommand
import Veidrodelis.RedisStream.KeywordCase
import Veidrodelis.RedisStream.Handshake
import Veidrodelis.TSProj.SnapshotSwitch
import Veidrodelis.TsNif.SetStores
import Veidrodelis.TsNif.ScoreModel
import Veidrodelis.TsNif.RangeStores
import Veidrodelis.TsNif.ZAddRules
import Veidrodelis.TsNif.Ranks
import Veidrodelis.TsNif.RangeRemovals
import Veidrodelis.TsNif.ParserAgreement
import Veidrodelis.TsNif.ZSetStores
import Veidrodelis.TsNif.Singles
import Veidrodelis.TsNif.Cursors
import Veidrodelis.TsNif.IntegerCommands
import Veidrodelis.RedisNif.ListpackCounts
import Veidrodelis.RedisNif.LzfRoundTrip
import Veidrodelis.TSProj.SnapshotRuns
import Veidrodelis.Lib.Footprints
import Veidrodelis.TsNif.RandomDraws
import Veidrodelis.TSProj.Accessors
import Veidrodelis.TSProj.ResumedRuns
import Veidrodelis.RedisStream.Reconnecting
