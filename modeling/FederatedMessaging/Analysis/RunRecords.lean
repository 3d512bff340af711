import FederatedMessaging.Benchmark.Engine

/-!
# The runs the analysis reads

`fam.analysis.e3.RunRecords` and the failure rate of `fam.common.validity`: one benchmark
run as `load_campaign` assembles it, and the estimators over its records.

## 1.  Records

A raw record is a dictionary, and `get` answers `None` for a field that is missing as it
does for one that is null; both are `none` here.  `initiated_monotonic_ns` is read with
brackets and every interaction record has it.

## 2.  Estimators

Membership in the window is decided here from the completion time.  Three populations
are chosen by the `phase` label instead: the measured interactions, those the throughput
failure rate is over, and the drain of the boundary diagnostics.

Floats are rationals; `round` keeps its ties-to-even rule.
-/

namespace FederatedMessaging
namespace Analysis

open PythonText Human Benchmark

/-! ## 1.  Records -/

/-- `SUCCESS`. -/
def success : Text := ['s', 'u', 'c', 'c', 'e', 's', 's']

/-- The values of `InteractionOutcome`. -/
def outcomeValue : InteractionOutcome → Text
  | .success => success
  | .timeout => ['t', 'i', 'm', 'e', 'o', 'u', 't']
  | .sendError => ['s', 'e', 'n', 'd', '_', 'e', 'r', 'r', 'o', 'r']
  | .malformedResponse =>
    ['m', 'a', 'l', 'f', 'o', 'r', 'm', 'e', 'd', '_', 'r', 'e', 's', 'p', 'o', 'n', 's', 'e']
  | .unexpectedResponse =>
    ['u', 'n', 'e', 'x', 'p', 'e', 'c', 't', 'e', 'd', '_', 'r', 'e', 's', 'p', 'o', 'n', 's', 'e']
  | .runnerError => ['r', 'u', 'n', 'n', 'e', 'r', '_', 'e', 'r', 'r', 'o', 'r']
  | .offlineSend => ['o', 'f', 'f', 'l', 'i', 'n', 'e', '_', 's', 'e', 'n', 'd']

/-- The values of the phase labels. -/
def phaseValue : RunPhase → Text
  | .warmup => ['w', 'a', 'r', 'm', 'u', 'p']
  | .window => ['w', 'i', 'n', 'd', 'o', 'w']
  | .drain => ['d', 'r', 'a', 'i', 'n']
  | .measured => ['m', 'e', 'a', 's', 'u', 'r', 'e', 'd']

/-- `E3_WORKLOAD_LATENCY`. -/
def latencyWorkload : Text := ['l', 'a', 't', 'e', 'n', 'c', 'y']

/-- `E3_WORKLOAD_THROUGHPUT`. -/
def throughputWorkload : Text := ['t', 'h', 'r', 'o', 'u', 'g', 'h', 'p', 'u', 't']

/-- A raw interaction record, with the fields the estimators and the checks read. -/
structure RawRecord where
  phase : Option Text
  outcome : Option Text
  initiatedMonotonicNs : ℤ
  completedMonotonicNs : Option ℤ
  windowStartNs : Option ℤ
  windowEndNs : Option ℤ
  deriving DecidableEq

/-- `RunRecords`, without the manifest it was assembled from. -/
structure RunRecords where
  runId : Text
  workload : Text
  topology : Text
  blockId : Text
  concurrency : ℕ
  campaignId : Text
  valid : Bool
  invalidClass : Option Text
  windowStartNs : Option ℤ
  windowEndNs : Option ℤ
  records : List RawRecord
  deriving DecidableEq

/-- `r.get("outcome") == SUCCESS`. -/
def RawRecord.isSuccess (r : RawRecord) : Bool := r.outcome == some success

/-- `r.get("phase") == …`. -/
def RawRecord.hasPhase (r : RawRecord) (phase : RunPhase) : Bool :=
  r.phase == some (phaseValue phase)

/-- The record completed inside `[start, end)`. -/
def RawRecord.completedWithin (r : RawRecord) (windowStart windowEnd : ℤ) : Bool :=
  r.completedMonotonicNs.any fun completed => windowStart ≤ completed && completed < windowEnd

/-- The record was initiated before `bound` and had not completed at it. -/
def RawRecord.outstandingAt (r : RawRecord) (bound : ℤ) : Bool :=
  r.initiatedMonotonicNs < bound && r.completedMonotonicNs.all fun completed => bound ≤ completed

/-! ## 2.  Estimators -/

/-- The outcomes that enter neither side of the failure rate:
`EXCLUDED_FROM_FAILURE_RATE`. -/
def excludedFromFailureRate : List Text := [outcomeValue .offlineSend]

/-- `failure_rate` of `fam.common.validity`. -/
def frozenFailureRate (outcomes : List (Option Text)) : Option ℚ :=
  let counted := outcomes.filter fun o => o.all fun o => o ∉ excludedFromFailureRate
  if counted = [] then none
  else
    let failures := counted.countP fun o => o ≠ some success
    some (failures / counted.length)

/-- Python's `round(x)`: to the nearest integer, a tie to the even one. -/
def roundHalfEven (x : ℚ) : ℤ :=
  let fraction := x - ⌊x⌋
  if fraction < 1 / 2 then ⌊x⌋
  else if 1 / 2 < fraction then ⌊x⌋ + 1
  else if ⌊x⌋ % 2 = 0 then ⌊x⌋
  else ⌊x⌋ + 1

/-- `round(x, 4)`. -/
def round4 (x : ℚ) : ℚ := roundHalfEven (x * 10 ^ 4) / 10 ^ 4

/-- The dictionary `stationarity` builds. -/
structure Stationarity where
  firstHalfCompletions : ℕ
  secondHalfCompletions : ℕ
  firstHalfRatePerSecond : ℚ
  secondHalfRatePerSecond : ℚ
  secondOverFirst : Option ℚ
  deriving DecidableEq

/-- The dictionary `boundary_diagnostics` builds. -/
structure BoundaryDiagnostics where
  outstandingAtWindowStart : ℕ
  successfulCompletionsInWindow : ℕ
  failuresInWindow : ℕ
  outstandingAtWindowEnd : ℕ
  drainCompletions : ℕ
  drainFailures : ℕ
  unresolvedAfterDrain : ℕ
  deriving DecidableEq

namespace RunRecords

/-- `measured`. -/
def measured (run : RunRecords) : List RawRecord := run.records.filter (·.hasPhase .measured)

/-- `counted_in_window`. -/
def countedInWindow (run : RunRecords) : List RawRecord :=
  match run.windowStartNs, run.windowEndNs with
  | some windowStart, some windowEnd =>
    run.records.filter fun r => r.isSuccess && r.completedWithin windowStart windowEnd
  | _, _ => []

/-- `observed_throughput`. -/
def observedThroughput (run : RunRecords) : Option ℚ :=
  match run.windowStartNs, run.windowEndNs with
  | some windowStart, some windowEnd =>
    if windowEnd ≤ windowStart then none
    else some (run.countedInWindow.length / ((windowEnd - windowStart : ℤ) / 10 ^ 9))
  | _, _ => none

/-- The interactions the failure rate of the run's workload is over. -/
def population (run : RunRecords) : List RawRecord :=
  if run.workload = latencyWorkload then run.measured
  else run.records.filter fun r => !r.hasPhase .warmup

/-- `failure_rate`.  A missing outcome is read as the empty text, which no outcome
equals; `none` stands for it. -/
def failureRate (run : RunRecords) : Option ℚ :=
  frozenFailureRate (run.population.map RawRecord.outcome)

/-- `stationarity`; `none` is the empty dictionary. -/
def stationarity (run : RunRecords) : Option Stationarity :=
  match run.windowStartNs, run.windowEndNs with
  | some windowStart, some windowEnd =>
    if windowEnd ≤ windowStart then none
    else
      let midpoint := windowStart + (windowEnd - windowStart) / 2
      let halfSeconds : ℚ := (windowEnd - windowStart : ℤ) / (2 * 10 ^ 9)
      let first := run.countedInWindow.countP fun r => r.completedMonotonicNs.any (· < midpoint)
      let second := run.countedInWindow.length - first
      let firstRate := first / halfSeconds
      let secondRate := second / halfSeconds
      some
        { firstHalfCompletions := first
          secondHalfCompletions := second
          firstHalfRatePerSecond := round4 firstRate
          secondHalfRatePerSecond := round4 secondRate
          secondOverFirst :=
            if firstRate = 0 then none else some (round4 (secondRate / firstRate)) }
  | _, _ => none

/-- `boundary_diagnostics`; `none` is the empty dictionary. -/
def boundaryDiagnostics (run : RunRecords) : Option BoundaryDiagnostics :=
  match run.windowStartNs, run.windowEndNs with
  | some windowStart, some windowEnd =>
    let drain := run.records.filter (·.hasPhase .drain)
    some
      { outstandingAtWindowStart := run.records.countP (·.outstandingAt windowStart)
        successfulCompletionsInWindow := run.countedInWindow.length
        failuresInWindow := run.records.countP fun r =>
          !r.isSuccess && r.completedWithin windowStart windowEnd
        outstandingAtWindowEnd := run.records.countP (·.outstandingAt windowEnd)
        drainCompletions := drain.countP (·.isSuccess)
        drainFailures := drain.countP fun r => !r.isSuccess
        unresolvedAfterDrain := run.records.countP fun r =>
          r.completedMonotonicNs.isNone && r.outcome != some (outcomeValue .sendError) }
  | _, _ => none

end RunRecords

/-! ## 3.  A run of the engine, as the analysis loads it -/

/-- The fields of a written record that the estimators read. -/
def RawRecord.ofRecord (r : Record) : RawRecord :=
  { phase := some (phaseValue r.phase)
    outcome := some (outcomeValue r.outcome)
    initiatedMonotonicNs := r.initiatedMonotonicNs
    completedMonotonicNs := r.completedMonotonicNs.map fun t : ℕ => (t : ℤ)
    windowStartNs := r.windowStartNs
    windowEndNs := r.windowEndNs }

/-- `load_campaign` on a valid run: the identity and the window bounds come from the
manifest, which has them from the configuration and the workload's result, and the
records from the run's stream. -/
def RunRecords.ofResult (campaignId : Text) (config : RunConfig) (result : WorkloadResult) :
    RunRecords :=
  { runId := config.runId
    workload := config.workload
    topology := config.topologyName
    blockId := config.blockId
    concurrency := config.concurrency
    campaignId := campaignId
    valid := true
    invalidClass := none
    windowStartNs := result.windowStartNs
    windowEndNs := result.windowEndNs
    records := result.records.map RawRecord.ofRecord }

@[simp] theorem isSuccess_ofRecord (r : Record) :
    (RawRecord.ofRecord r).isSuccess = decide (r.outcome = .success) := by
  unfold RawRecord.isSuccess RawRecord.ofRecord
  cases r.outcome <;> rfl

@[simp] theorem hasPhase_ofRecord (r : Record) (phase : RunPhase) :
    (RawRecord.ofRecord r).hasPhase phase = decide (r.phase = phase) := by
  unfold RawRecord.hasPhase RawRecord.ofRecord
  cases r.phase <;> cases phase <;> rfl

end Analysis
end FederatedMessaging
