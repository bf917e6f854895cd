import ShardKeeper.Shard.Hosted

/-!
# Reports on a hosted shard

## Main definitions

* `HostedShard.counters` — what is counted at once
* `ReportPhase`, `ReportPhase.next?` — a report step by step

## Design notes

Measuring the size of the data takes a while, so statistics that were reported before are reported
again while they are young, and also when they are old but nothing has changed.
-/

namespace ShardKeeper

/-- The statistics of a shard without the size of its data. -/
def HostedShard.counters (s : HostedShard) : Statistics :=
  ⟨s.indexed, s.deleted, none, s.ledger.point.timestamp⟩

/-- Whether two reports agree in everything but the size. -/
def Statistics.sameCounters (a b : Statistics) : Bool :=
  a.indexed == b.indexed && a.deleted == b.deleted && a.commitTimestamp == b.commitTimestamp

/-- The statistics reported before, if they can be reported again at a time, in nanoseconds. -/
def HostedShard.reusable? (s : HostedShard) (counters : Statistics) (clock : Int) :
    Option Statistics :=
  match s.reported with
  | none => none
  | some (old, computed) =>
    let young := clock - computed < s.statisticsAge.nanos
    let unchanged := old.sameCounters counters && old.size.isSome
    if young || unchanged then some old else none

/-- Where a report stands. -/
inductive ReportPhase where
  /-- It is about to read the counters and to look for statistics to report again. -/
  | loading
  /-- It is about to measure the size of the data. -/
  | measuring (counters : Statistics)
  /-- It is about to keep the statistics for later reports. -/
  | keeping (statistics : Statistics)
  | done (statistics : Statistics)
deriving DecidableEq

/-- The statistics of a report that has ended. -/
def ReportPhase.result? : ReportPhase → Option Statistics
  | .done statistics => some statistics
  | _ => none

/-- The next step of a report at a time on the machine's clock, in nanoseconds, where the data has a
size if it can be measured; nothing when the report has ended. -/
def ReportPhase.next? (phase : ReportPhase) (s : HostedShard) (clock : Int) (size : Option Nat) :
    Option (HostedShard × ReportPhase) :=
  match phase with
  | .loading =>
    match s.reusable? s.counters clock with
    | some old => some (s, .done old)
    | none => some (s, .measuring s.counters)
  | .measuring counters => some (s, .keeping { counters with size })
  | .keeping statistics =>
    some ({ s with reported := some (statistics, clock) }, .done statistics)
  | .done _ => none

end ShardKeeper
