import DiscogsIngestion.Lib.Machine
import DiscogsIngestion.Lib.Table
import DiscogsIngestion.Lib.Disk
import DiscogsIngestion.Lib.Json
import DiscogsIngestion.Lib.Notify
import DiscogsIngestion.Lib.Interleave
import DiscogsIngestion.Lib.Walk
import DiscogsIngestion.Types
import DiscogsIngestion.Map
import DiscogsIngestion.Names
import DiscogsIngestion.Parser.Element
import DiscogsIngestion.Parser.Machine
import DiscogsIngestion.Parser.Forest
import DiscogsIngestion.Parser.Isolation
import DiscogsIngestion.Parser.Dump
import DiscogsIngestion.Parser.Truncation
import DiscogsIngestion.Parser.Evidence
import DiscogsIngestion.Parser.Recovery
import DiscogsIngestion.Record.Block
import DiscogsIngestion.Record.Companies
import DiscogsIngestion.Record.Event
import DiscogsIngestion.Record.Stability
import DiscogsIngestion.Record.Published
import DiscogsIngestion.Record.Survival
import DiscogsIngestion.Rules.Engine
import DiscogsIngestion.Rules.Reach
import DiscogsIngestion.Rules.Required
import DiscogsIngestion.Rules.Unmapped
import DiscogsIngestion.Pipeline.Machine
import DiscogsIngestion.Pipeline.NoLoss
import DiscogsIngestion.Pipeline.Quiescence
import DiscogsIngestion.Pipeline.Counts
import DiscogsIngestion.Downloader.Versions
import DiscogsIngestion.FileTask
import DiscogsIngestion.StateMarker
import DiscogsIngestion.Marker.Encoding
import DiscogsIngestion.Marker.Save
import DiscogsIngestion.Marker.Commute
import DiscogsIngestion.Session.Machine
import DiscogsIngestion.Session.Advance
import DiscogsIngestion.Session.Completion
import DiscogsIngestion.Session.Progress
import DiscogsIngestion.Session.Purge
import DiscogsIngestion.Session.Skip
import DiscogsIngestion.Session.Legacy
import DiscogsIngestion.Session.Provenance
import DiscogsIngestion.Session.Files
import DiscogsIngestion.Session.Health
import DiscogsIngestion.Session.Integrity
import DiscogsIngestion.Session.Reported
import DiscogsIngestion.Session.Exchanges
import DiscogsIngestion.Session.Totals
import DiscogsIngestion.Loop.Check
import DiscogsIngestion.Loop.Machine
import DiscogsIngestion.Loop.Shutdown
import DiscogsIngestion.Loop.Status
import DiscogsIngestion.Loop.Trigger
import DiscogsIngestion.Lib.Passes
import DiscogsIngestion.Record.Lists
import DiscogsIngestion.Rules.Accounting
import DiscogsIngestion.Rules.Validator
import DiscogsIngestion.MessageQueue
import DiscogsIngestion.Pipeline.Batcher
import DiscogsIngestion.Lib.Schema
import DiscogsIngestion.Lib.Words
import DiscogsIngestion.Record.Canonical
import DiscogsIngestion.Record.Consistent
import DiscogsIngestion.Record.IdentifierBlock
import DiscogsIngestion.Record.IdentifierSchema
import DiscogsIngestion.Downloader.Checksums
import DiscogsIngestion.Downloader.Download
import DiscogsIngestion.Downloader.Listing
import DiscogsIngestion.Downloader.Run
import DiscogsIngestion.Lib.Pairs
import DiscogsIngestion.Lib.Reservations
import DiscogsIngestion.LocalManifest
import DiscogsIngestion.Marker.Keys
import DiscogsIngestion.Pacing
import DiscogsIngestion.PoliteHttp
import DiscogsIngestion.Rules.Evidence
import DiscogsIngestion.Session.Keys
import DiscogsIngestion.Downloader.Acquisition
import DiscogsIngestion.Session.Acquisition
import DiscogsIngestion.Lib.Mutex
import DiscogsIngestion.Reconnect
import DiscogsIngestion.Lib.Spacing
import DiscogsIngestion.PoliteGate
import DiscogsIngestion.Session.System
import DiscogsIngestion.Lib.Rank
import DiscogsIngestion.Pipeline.Progress
import DiscogsIngestion.Session.Liveness
import DiscogsIngestion.Rules.Report
import DiscogsIngestion.Pipeline.Stages
import DiscogsIngestion.Pipeline.Turns
import DiscogsIngestion.Rules.Alike
