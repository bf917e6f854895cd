import ShardKeeper.Broadcast
import ShardKeeper.Catalog.Basic
import ShardKeeper.Catalog.Condition
import ShardKeeper.Catalog.Feed
import ShardKeeper.Catalog.FileSync
import ShardKeeper.Catalog.Timeline
import ShardKeeper.Catalog.Wait
import ShardKeeper.Durability.CommitPoint
import ShardKeeper.Durability.History
import ShardKeeper.Durability.Ledger
import ShardKeeper.Durability.MemoryStore
import ShardKeeper.FileTree
import ShardKeeper.FileTree.Change
import ShardKeeper.HashSpace
import ShardKeeper.Json.Access
import ShardKeeper.Json.Basic
import ShardKeeper.Json.Lexer
import ShardKeeper.Json.Printer
import ShardKeeper.Json.Reader
import ShardKeeper.Json.Record
import ShardKeeper.Node.Activity
import ShardKeeper.Node.Basic
import ShardKeeper.Node.Configured
import ShardKeeper.Node.Operation
import ShardKeeper.Path
import ShardKeeper.Process.Event
import ShardKeeper.Process.Role
import ShardKeeper.Process.Supervision
import ShardKeeper.Process.Table
import ShardKeeper.Process.Watch
import ShardKeeper.Proofs.Durability.Advance
import ShardKeeper.Proofs.Durability.Course
import ShardKeeper.Proofs.Durability.Flushing
import ShardKeeper.Proofs.Durability.Lookup
import ShardKeeper.Proofs.Durability.Rounding
import ShardKeeper.Proofs.Durability.Settled
import ShardKeeper.Proofs.Numbered
import ShardKeeper.Proofs.Reclaim.Desk
import ShardKeeper.Proofs.Reclaim.Saga
import ShardKeeper.Reclaim.Desk
import ShardKeeper.Reclaim.Key
import ShardKeeper.Reclaim.Locks
import ShardKeeper.Reclaim.Removal
import ShardKeeper.Reclaim.Saga
import ShardKeeper.Searcher.Backoff
import ShardKeeper.Searcher.Call
import ShardKeeper.Searcher.Channel
import ShardKeeper.Searcher.Conversation
import ShardKeeper.Searcher.DocumentChange
import ShardKeeper.Searcher.Message
import ShardKeeper.Searcher.Rehearsal
import ShardKeeper.Searcher.Retry
import ShardKeeper.Searcher.Stream
import ShardKeeper.Searcher.Wire
import ShardKeeper.Settings.Basic
import ShardKeeper.Settings.Reading
import ShardKeeper.Shard.Documents
import ShardKeeper.Shard.Error
import ShardKeeper.Shard.Hosted
import ShardKeeper.Shard.Opening
import ShardKeeper.Shard.Refresh
import ShardKeeper.Shard.Report
import ShardKeeper.Shard.Roster
import ShardKeeper.Status
import ShardKeeper.Storage.Fault
import ShardKeeper.Storage.Layout
import ShardKeeper.Storage.LocalCheckpoint
import ShardKeeper.Storage.RecordFile
import ShardKeeper.Storage.VersionMarker
import ShardKeeper.Task.Board
import ShardKeeper.Task.Group
import ShardKeeper.Task.Job
import ShardKeeper.Task.Shutdown
import ShardKeeper.Task.Token
import ShardKeeper.Task.Workplace
import ShardKeeper.Text.Blank
import ShardKeeper.Text.Decimal
import ShardKeeper.Text.Double
import ShardKeeper.Text.Invisible
import ShardKeeper.Text.NameMap
import ShardKeeper.Text.Quoted
import ShardKeeper.Text.Substring
import ShardKeeper.Text.Utf8
import ShardKeeper.Time
import ShardKeeper.Timed
import ShardKeeper.Toml.Basic
import ShardKeeper.Toml.Document
import ShardKeeper.Toml.Record
import ShardKeeper.Toml.Scalar
import ShardKeeper.Toml.Statement
import ShardKeeper.Toml.Text
import ShardKeeper.Proofs.Node.Aside
import ShardKeeper.Proofs.Reclaim.Course
import ShardKeeper.Proofs.Reclaim.Absence
import ShardKeeper.Proofs.Reclaim.Account
import ShardKeeper.Proofs.HashSpace
import ShardKeeper.Proofs.Node.Hosting
import ShardKeeper.Proofs.Reclaim.Closing
import ShardKeeper.Proofs.FileTree.Resolve
import ShardKeeper.Proofs.Reclaim.Coverage
import ShardKeeper.Proofs.Path.LastName
import ShardKeeper.Proofs.FileTree.Change
import ShardKeeper.Proofs.Json.Lexing
import ShardKeeper.Proofs.Json.Indented
import ShardKeeper.Proofs.Durability.CommitPoint
import ShardKeeper.Proofs.Storage.RecordFile
import ShardKeeper.Proofs.Durability.Lives
import ShardKeeper.Proofs.Searcher.Schedule
import ShardKeeper.Proofs.Text.Line
import ShardKeeper.Proofs.Json.Compact
import ShardKeeper.Proofs.Json.Record
import ShardKeeper.Proofs.Searcher.Wire
import ShardKeeper.Proofs.Searcher.Stream
import ShardKeeper.Proofs.Searcher.Dialogue
import ShardKeeper.Proofs.Searcher.Traffic
import ShardKeeper.Proofs.Searcher.Attribution
import ShardKeeper.Proofs.Settings.HostedShards
import ShardKeeper.Proofs.Node.Moves
import ShardKeeper.Proofs.Node.Service
import ShardKeeper.Proofs.Node.Exactness
import ShardKeeper.Proofs.Node.Rest
import ShardKeeper.Proofs.Node.Uses
import ShardKeeper.Proofs.Durability.Retention
import ShardKeeper.Proofs.Durability.Refreshing
import ShardKeeper.Proofs.Catalog.Wait
import ShardKeeper.Proofs.Reclaim.Ending
import ShardKeeper.Proofs.Searcher.Attempts
import ShardKeeper.Proofs.Node.Startup
import ShardKeeper.Proofs.Settings.Tunables
import ShardKeeper.Proofs.HashSpace.Tiling
import ShardKeeper.Proofs.Json.Members
import ShardKeeper.Proofs.Catalog.Document
import ShardKeeper.Proofs.Catalog.Following
import ShardKeeper.Proofs.Reclaim.Attempts
import ShardKeeper.Proofs.Reclaim.Whole
import ShardKeeper.Proofs.Searcher.DocumentChange
import ShardKeeper.Proofs.Storage.VersionMarker
import ShardKeeper.Proofs.Searcher.Lines
import ShardKeeper.Proofs.Process.Table
import ShardKeeper.Proofs.Process.Stopping
import ShardKeeper.Proofs.Process.Watch
import ShardKeeper.Proofs.Timed
import ShardKeeper.Proofs.Process.Check
import ShardKeeper.Proofs.Node.Ticks
import ShardKeeper.Proofs.Node.Turns
import ShardKeeper.Proofs.Broadcast
import ShardKeeper.Proofs.Node.Health
import ShardKeeper.Proofs.Task.Shutdown
import ShardKeeper.Proofs.Searcher.Delays
import ShardKeeper.Proofs.Storage.ShardRecords
import ShardKeeper.Proofs.Task.Waiting
import ShardKeeper.Proofs.Shard.Statistics
