import ShardKeeper.Json.Access
import ShardKeeper.Node.Basic
import ShardKeeper.Process.Supervision
import ShardKeeper.Searcher.Wire
import ShardKeeper.Settings.Basic
import ShardKeeper.Task.Job

/-!
# Status documents

The state of a node and of its parts, as JSON documents for those who look at it from outside.

## Main definitions

* `Settings.status`, `HostedShard.status`, `Catalog.status`, `TaskBoard.status` and others of that
  name, one for each part that is looked at
-/

namespace ShardKeeper

open Json (record text nat ofOption)

/-- A commit point. -/
def CommitPoint.status (p : CommitPoint) : Json :=
  record [("timestamp", .integer p.timestamp), ("version", .integer p.version),
    ("checkpoint", .integer p.checkpoint)]

/-- The size of a checkpoint history, and its newest sample. -/
def CheckpointHistory.status (h : CheckpointHistory) : Json :=
  record [("len", nat h.samples.length), ("empty", .bool h.samples.isEmpty),
    ("newest", ofOption (fun s : Sample => record [("timestamp", .integer s.timestamp),
      ("checkpoint", .integer s.checkpoint)]) h.newest?)]

/-- The latest generation of each table, with its partitions in order. -/
def Catalog.status (c : Catalog) : Json :=
  record (c.tables.map fun (table, _) =>
    (table, ofOption (fun (number, generation) =>
      record [("generation", nat number),
        ("partitions", .array ((generation.partitions.mergeSort fun a b => a ≤ b).map text))])
      (c.latest? table)))

/-- A hosted shard. -/
def HostedShard.status (s : HostedShard) : Json :=
  Json.record [("shard", text s.id.text), ("range", WireMessage.toJson s.slice),
    ("commit", s.ledger.point.status),
    ("commit_local_checkpoint", .integer s.ledger.point.checkpoint),
    ("should_flush", .bool s.ledger.needsFlush), ("failure", ofOption text s.failure),
    ("closed", .bool s.isClosed)]

/-- A document that was found. -/
def FoundDocument.status (d : FoundDocument) : Json :=
  record [("seq_no", .integer d.sequence), ("primary_term", .integer d.term),
    ("version", .integer d.version), ("source", ofOption text d.source),
    ("routing", ofOption text d.routing)]

/-- The name and the class of each task. -/
def TaskBoard.status (b : TaskBoard) : Json :=
  .array (b.listing.map fun r => .array [text r.name, text r.kind.name])

/-- The end of a saga. -/
def ReclaimOutcome.status : ReclaimOutcome → Json
  | .removed n => record [("outcome", text "Removed"), ("attempts", nat n)]
  | .abandoned n e =>
    record [("outcome", text "Abandoned"), ("attempts", nat n), ("last_error", text e)]
  | .interrupted => record [("outcome", text "Interrupted")]
  | .invalidSettings => record [("outcome", text "InvalidSettings")]

/-- A removal that was begun. -/
def Removal.status (r : Removal) : Json :=
  record [("path", text r.path.trimmed.text), ("at_ms", nat (r.instant / 1000000)),
    ("locks_held", nat r.held)]

/-- A health event. -/
def HealthEvent.status : HealthEvent → Json
  | .dead role => record [("event", text "Dead"), ("role", text role)]
  | .ambiguous role n =>
    record [("event", text "Ambiguous"), ("role", text role), ("matches", nat n)]
  | .restarted role => record [("event", text "Restarted"), ("role", text role)]
  | .restartFailed role e =>
    record [("event", text "RestartFailed"), ("role", text role), ("error", text e)]

/-- A verdict on an answer. -/
def Verdict.status : Verdict → Json
  | .success => text "Success"
  | .retryable => text "Retryable"
  | .fatal => text "Fatal"

/-- The end of a repeated call. -/
def CallOutcome.status : CallOutcome → Json
  | .success => text "Success"
  | .fatal => text "Fatal"
  | .exhausted => text "Exhausted"
  | .interrupted => text "Interrupted"

/-- The end of a job. -/
def JobEnding.status : JobEnding → Json
  | .done => text "done"
  | .doneAfterCancel => text "done after cancel"
  | .cancelled => text "cancelled"
  | .failed => text "panicked"
  | .aborted => text "aborted"

/-- What a stop came to. -/
def StopOutcome.status : StopOutcome → Json
  | .notRunning => record [("ok", text "NotRunning")]
  | .stopped => record [("ok", text "Stopped")]
  | .killed n => record [("ok", text "Killed"), ("survivors", nat n)]

/-- A request to the engine. -/
def Request.status : Request → Json
  | .write r => record [("write", WireMessage.toJson r)]
  | .query r => record [("query_table", WireMessage.toJson r)]

/-- A role. -/
def Role.status (r : Role) : Json :=
  record [("name", text r.name), ("start_command", text r.startCommand),
    ("signature", text r.signature)]

/-- All settings. -/
def Settings.status (s : Settings) : Json :=
  record [
    ("rpc", record [("address", text s.searcher.address),
      ("request_timeout_ms", nat s.searcher.requestTimeout),
      ("base_delay_ms", nat s.searcher.baseDelay), ("multiplier", nat s.searcher.multiplier),
      ("max_attempts", nat s.searcher.maxAttempts), ("max_delay_ms", nat s.searcher.maxDelay)]),
    ("paths", record [("runtime_root", text s.places.runtimeRoot.text),
      ("commit_dir", text s.places.commitDirectory.text)]),
    ("target", record [("poll_interval_ms", nat s.target.pollInterval),
      ("timeout_ms", nat s.target.timeout),
      ("document", ofOption (fun p : Path => text p.text) s.target.document)]),
    ("deletion", record [("max_retries", nat s.deletion.maxRetries),
      ("retry_interval_ms", nat s.deletion.retryInterval)]),
    ("refresh", record [("interval_ms", nat s.refresh.interval)]),
    ("checkpoint", record [("max_samples", nat s.checkpoints.maxSamples),
      ("max_age_secs", nat s.checkpoints.maxAge)]),
    ("process", record [("roles", .array (s.processes.roles.map Role.status)),
      ("health_interval_ms", nat s.processes.healthInterval),
      ("stop_timeout_ms", nat s.processes.stopTimeout)]),
    ("shards", .array (s.shards.map fun s =>
      record [("id", text s.id.text), ("table", text s.table), ("index", nat s.index),
        ("shard_count", nat s.count), ("checkpoint_file", text s.checkpointFile.text)]))]

end ShardKeeper
