import ShardKeeper.FileTree
import ShardKeeper.Settings.Basic
import ShardKeeper.Toml.Document
import ShardKeeper.Toml.Record

/-!
# Reading settings

## Main definitions

* `Settings.ofToml?` — the settings in a document
* `Settings.defect?` — what is wrong with settings that could be read
* `SettingsError` — why there are no settings to work with
* `Settings.ofText`, `Settings.load` — the settings in a text and in a file

Every section and every field may be missing, but none may be unknown. The first defect counts, in
the order of `Settings.checks`.
-/

namespace ShardKeeper

/-- Why there are no settings to work with. -/
inductive SettingsError where
  /-- The file could not be read as text. -/
  | unreadable
  /-- The text is no document of the right shape. -/
  | malformed
  /-- A value makes no sense. -/
  | invalid (field reason : String)
deriving DecidableEq

/-- The text of an error, where a value is to blame. -/
def SettingsError.message? : SettingsError → Option String
  | .invalid field reason => some ("invalid value for " ++ field ++ ": " ++ reason)
  | _ => none

namespace Settings

/-! ### Sections -/

/-- The path that a text is. -/
def path? (v : Toml) : Option Path := v.string?.map Path.mk

/-- The section `rpc`. -/
def searcherOf? (v : Toml) : Option Searcher := do
  match ← v.fields? false ["address", "request_timeout_ms", "base_delay_ms", "multiplier",
    "max_attempts", "max_delay_ms"] with
  | [address, requestTimeout, baseDelay, multiplier, maxAttempts, maxDelay] =>
    let d : Searcher := {}
    return ⟨← address.orElse d.address Toml.string?,
      ← requestTimeout.orElse d.requestTimeout Toml.nat64?,
      ← baseDelay.orElse d.baseDelay Toml.nat64?, ← multiplier.orElse d.multiplier Toml.nat32?,
      ← maxAttempts.orElse d.maxAttempts Toml.nat32?, ← maxDelay.orElse d.maxDelay Toml.nat64?⟩
  | _ => none

/-- The section `paths`. -/
def placesOf? (v : Toml) : Option Places := do
  match ← v.fields? false ["runtime_root", "commit_dir"] with
  | [runtimeRoot, commitDirectory] =>
    let d : Places := {}
    return ⟨← runtimeRoot.orElse d.runtimeRoot path?,
      ← commitDirectory.orElse d.commitDirectory path?⟩
  | _ => none

/-- The section `target`. -/
def targetOf? (v : Toml) : Option Target := do
  match ← v.fields? false ["poll_interval_ms", "timeout_ms", "document"] with
  | [pollInterval, timeout, document] =>
    let d : Target := {}
    return ⟨← pollInterval.orElse d.pollInterval Toml.nat64?,
      ← timeout.orElse d.timeout Toml.nat64?,
      ← document.orElse d.document fun v => (path? v).map some⟩
  | _ => none

/-- The section `deletion`. -/
def deletionOf? (v : Toml) : Option Deletion := do
  match ← v.fields? false ["max_retries", "retry_interval_ms"] with
  | [maxRetries, retryInterval] =>
    let d : Deletion := {}
    return ⟨← maxRetries.orElse d.maxRetries Toml.nat32?,
      ← retryInterval.orElse d.retryInterval Toml.nat64?⟩
  | _ => none

/-- The section `refresh`. -/
def refreshOf? (v : Toml) : Option Refresh := do
  match ← v.fields? false ["interval_ms"] with
  | [interval] => return ⟨← interval.orElse ({} : Refresh).interval Toml.nat64?⟩
  | _ => none

/-- The section `checkpoint`. -/
def checkpointsOf? (v : Toml) : Option Checkpoints := do
  match ← v.fields? false ["max_samples", "max_age_secs"] with
  | [maxSamples, maxAge] =>
    let d : Checkpoints := {}
    return ⟨← maxSamples.orElse d.maxSamples Toml.nat64?, ← maxAge.orElse d.maxAge Toml.nat64?⟩
  | _ => none

/-- A role; what else is said about it does not matter. -/
def roleOf? (v : Toml) : Option Role := do
  match ← v.fields? true ["name", "start_command", "signature"] with
  | [name, startCommand, signature] =>
    return ⟨← name.required Toml.string?, ← startCommand.required Toml.string?,
      ← signature.required Toml.string?⟩
  | _ => none

/-- The section `process`. -/
def processesOf? (v : Toml) : Option Processes := do
  match ← v.fields? false ["roles", "health_interval_ms", "stop_timeout_ms"] with
  | [roles, healthInterval, stopTimeout] =>
    let d : Processes := {}
    return ⟨← roles.orElse d.roles (Toml.list? roleOf?),
      ← healthInterval.orElse d.healthInterval Toml.nat64?,
      ← stopTimeout.orElse d.stopTimeout Toml.nat64?⟩
  | _ => none

/-- One of the `shards`. -/
def shardOf? (v : Toml) : Option Shard := do
  match ← v.fields? false ["table", "index", "shard_count", "checkpoint_file"] with
  | [table, index, count, checkpointFile] =>
    return ⟨← table.required Toml.string?, ← index.required Toml.nat32?,
      ← count.required Toml.nat32?, ← checkpointFile.required path?⟩
  | _ => none

/-- The settings in a document. -/
def ofToml? (v : Toml) : Option Settings := do
  match ← v.fields? false ["rpc", "paths", "target", "deletion", "refresh", "checkpoint", "process",
    "shards"] with
  | [searcher, places, target, deletion, refresh, checkpoints, processes, shards] =>
    return ⟨← searcher.orElse {} searcherOf?, ← places.orElse {} placesOf?,
      ← target.orElse {} targetOf?, ← deletion.orElse {} deletionOf?,
      ← refresh.orElse {} refreshOf?, ← checkpoints.orElse {} checkpointsOf?,
      ← processes.orElse {} processesOf?, ← shards.orElse [] (Toml.list? shardOf?)⟩
  | _ => none

/-! ### Validity -/

/-- What is wrong with a list of hosted shards, after those in `seen`. -/
def shardsDefect? (seen : List ShardId) : List Shard → Option SettingsError
  | [] => none
  | s :: rest =>
    if (HashSlice.ofShard? s.count s.index).isNone then
      some (.invalid "shards" ("shard " ++ toString s.index ++ " of " ++ toString s.count
        ++ " does not exist for table " ++ s.table))
    else if seen.contains s.id then
      some (.invalid "shards" (s.id.text ++ " is listed twice"))
    else shardsDefect? (s.id :: seen) rest

/-- What is wrong with the signatures of the roles. -/
def rolesDefect? (roles : List Role) : Option SettingsError :=
  (roles.find? fun r => Text.isBlankText r.signature.toList).map fun r =>
    .invalid "process.roles" ("role " ++ r.name ++ " has an empty signature")

/-- The numbers that must not be zero, with the names and reasons to give. -/
def positives (s : Settings) : List (String × Nat × String) :=
  [("rpc.max_attempts", s.searcher.maxAttempts, "at least one attempt is required"),
    ("rpc.multiplier", s.searcher.multiplier, "must be positive"),
    ("target.poll_interval_ms", s.target.pollInterval, "interval must be positive"),
    ("refresh.interval_ms", s.refresh.interval, "interval must be positive"),
    ("deletion.retry_interval_ms", s.deletion.retryInterval, "interval must be positive"),
    ("process.health_interval_ms", s.processes.healthInterval, "interval must be positive"),
    ("deletion.max_retries", s.deletion.maxRetries, "at least one attempt is required")]

/-- All checks, in order, each with what it finds. -/
def checks (s : Settings) : List (Option SettingsError) :=
  (s.positives.map fun (field, value, reason) =>
    if value = 0 then some (.invalid field reason) else none)
  ++ [rolesDefect? s.processes.roles, shardsDefect? [] s.shards]

/-- The first defect of the settings, if there is one. -/
def defect? (s : Settings) : Option SettingsError := s.checks.findSome? id

/-! ### Texts and files -/

/-- The settings in a text. -/
def ofText (text : List Char) : Except SettingsError Settings :=
  match (Toml.ofText? text).bind fun entries => ofToml? (.table entries) with
  | none => .error .malformed
  | some s =>
    match s.defect? with
    | some e => .error e
    | none => .ok s

/-- The settings in a file. -/
def load (tree : FileTree) (path : Path) : Except SettingsError Settings :=
  match tree.read path with
  | .error _ => .error .unreadable
  | .ok bytes =>
    match Utf8.decode? bytes with
    | none => .error .unreadable
    | some text => ofText text

end Settings

end ShardKeeper
