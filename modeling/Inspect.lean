import Inspect.Lib.HashMap
import Inspect.Lib.Text
import Inspect.Flow.StateStore
import Inspect.Flow.Correctness.StateStoreAccounting
import Inspect.Flow.Correctness.StateStoreRuns
import Inspect.Flow.SseCapture
import Inspect.Flow.Correctness.SseFraming
import Inspect.Lib.Json.Patch
import Inspect.Filters.Engine.Diff
import Inspect.Filters.Engine.JsonCapture
import Inspect.Filters.Correctness.JsonDiffPatch
import Inspect.Lib.Json.Codec
import Inspect.Filters.Correctness.JsonDiff
import Inspect.Filters.Correctness.JsonChanges
import Inspect.Filters.Correctness.JsonPatchCodec
import Inspect.Filters.Correctness.JsonComments
import Inspect.Lib.Toml
import Inspect.Filters.Generator
import Inspect.Filters.Manager.Source
import Inspect.Lib.Literal
import Inspect.Filters.Correctness.FrontMatter
import Inspect.Filters.Correctness.QuotedString
import Inspect.Filters.Correctness.FrontMatterOffset
import Inspect.Filters.Manager.Load
import Inspect.Filters.Manager.ReloadLoop
import Inspect.Filters.Correctness.Reload
import Inspect.Filters.Engine.BodyTreeSitter
import Inspect.Filters.Editor
import Inspect.Filters.Runtime.Action
import Inspect.Filters.Correctness.EditorBody
import Inspect.Filters.Correctness.EditorJsonPatch
import Inspect.Lib.Edit
import Inspect.Filters.Correctness.BodyEdit
import Inspect.Filters.Correctness.BodyRewrite
import Inspect.Filters.Correctness.LiteralExpansion
import Inspect.Filters.Correctness.SingleReplacement
import Inspect.Filters.EditorText
import Inspect.Filters.Correctness.EditText
import Inspect.Flow.BodyEncoding
import Inspect.Flow.CaptureService
import Inspect.Tui.Body
import Inspect.Tui.Search
import Inspect.Flow.Correctness.ContentEncoding
import Inspect.Flow.Correctness.StoredBodies
import Inspect.Filters.Runtime.Compiled
import Inspect.Lib.Chain
import Inspect.Flow.FilterBridge
import Inspect.Flow.Correctness.PatchHeaders
import Inspect.Flow.FilterRuntime
import Inspect.Flow.Correctness.FilterChain
import Inspect.Flow.HttpTypes
import Inspect.Flow.Dispatcher
import Inspect.Flow.Client
import Inspect.Flow.Correctness.Streaming
import Inspect.Flow.Correctness.Dispatch
import Inspect.Flow.Correctness.BodyTransfer
import Inspect.Flow.WebSocket
import Inspect.Mitm.Correctness.EmulateMode
import Inspect.Mitm.Proxy
import Inspect.Filters.Correctness.Glob
import Inspect.Flow.Correctness.StateStoreExpiry
import Inspect.Tui.PacketRow
import Inspect.Tui.PacketList
import Inspect.Lib.Split
import Inspect.Lib.Hex
import Inspect.Tui.Correctness.FilterQuery
import Inspect.Tui.Correctness.Preview
import Inspect.Tui.Highlight
import Inspect.Tui.Correctness.Highlight
import Inspect.Tui.Correctness.Hexdump
import Inspect.Tui.Correctness.PacketIndex
import Inspect.Lib.Run
import Inspect.Tui.Correctness.SearchList
import Inspect.Tui.Correctness.RowLimit
import Inspect.Tui.Correctness.Selection
import Inspect.Filters.Correctness.GeneratedMatch
import Inspect.Tui.EditorPane
import Inspect.Tui.ReadMetadata
import Inspect.Lib.Json.Layout
import Inspect.Flow.Correctness.StoredHeaders
import Inspect.Tui.Correctness.ContentType
import Inspect.Tui.Correctness.EditedHeaders
import Inspect.Filters.Manager.Status
import Inspect.Filters.Correctness.StatusTable
import Inspect.Flow.Correctness.StateStoreMap
import Inspect.Flow.Correctness.RecordedItems
import Inspect.Filters.Correctness.ScriptCalls
import Inspect.Flow.Correctness.SseSegments
import Inspect.Flow.Correctness.SseLineEnds
import Inspect.Flow.Correctness.SseBuffer
import Inspect.Filters.Correctness.HeaderEdits
import Inspect.Filters.Correctness.ChangeDetectors
import Inspect.Flow.CaptureCommit
import Inspect.Flow.Correctness.StorageInfo
import Inspect.Mitm.Har
import Inspect.Flow.Correctness.CapturedFlow
import Inspect.Mitm.Correctness.HarHeaders
import Inspect.Mitm.Correctness.HarBodies
import Inspect.Flow.PrefixThenBody
import Inspect.Flow.Correctness.Probe
import Inspect.Lib.Ascii
import Inspect.Mitm.Client
import Inspect.Mitm.Correctness.StatusText
import Inspect.Lib.Sorting
import Inspect.Lib.Windows
import Inspect.Tui.ExternalDiff
import Inspect.Tui.Correctness.SseView
import Inspect.Mitm.FlowKeys
import Inspect.Mitm.Correctness.FlowKeys
import Inspect.Lib.Path
import Inspect.Filters.Manager.Quarantine
import Inspect.Mitm.Capture
import Inspect.Mitm.Correctness.GeneratedPaths
import Inspect.Lib.Channel
import Inspect.Mitm.EventPath
import Inspect.Tui.Correctness.PacketHistory
import Inspect.Mitm.Correctness.EventPath
import Inspect.Lib.Interleaving
import Inspect.Mitm.Store
import Inspect.Flow.Correctness.FlowRecords
import Inspect.Mitm.Correctness.StoredPackets
import Inspect.Lib.Spool
import Inspect.Flow.SseWriter
import Inspect.Flow.Correctness.SseFiles
import Inspect.Tui.Correctness.SseReading
import Inspect.Mitm.WebSocket
import Inspect.Mitm.Correctness.WebSocket
import Inspect.Flow.SlowFilters
import Inspect.Flow.Correctness.SlowFilters
import Inspect.Tui.Correctness.Tab
import Inspect.Tui.PacketView
import Inspect.Tui.Correctness.PacketView
import Inspect.Tui.Correctness.RetainedResults
import Inspect.Tui.RootPane
import Inspect.Tui.Correctness.RootPane
