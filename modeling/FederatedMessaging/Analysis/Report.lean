import FederatedMessaging.Analysis.PointEstimates
import FederatedMessaging.Foundations.DynamicValues

/-!
# The dictionary the analysis builds

`analyse` of `fam.analysis.e3`: one nested dictionary about a campaign, with its optional
parts.  The estimates in it are those of `Analysis.PointEstimates`; here they are put under
the keys the source puts them under.

## What is left out

Entries that only document the artifact: seeds, digests, fingerprints and the explanatory
notes.  The two random samplings are lists of drawn positions, which depend on the number of
blocks to draw from; `math.sqrt` is a parameter.
-/

namespace FederatedMessaging
namespace Analysis
namespace Report

open PythonText DynamicValues

/-! ## Keys -/

/-- The keys of the dictionary, each named as in the source, except that `class` is `runClass`. -/
inductive Key where
  -- the summary
  | campaignId | runsTotal | runsValid | runsInvalid | integrityProblems | latency | throughput
  | derivedC1Consistency | diagnostics | agentSendFailures | environmentDrift
  | campaignInventory | inputIntegrity
  -- runs and blocks
  | runId | runClass | topology | workload | concurrency | blockId | runs | lastCompletion
  -- the input check
  | runsChecked | manifestFieldsCompared | rawRecordsCompared | mismatches
  | fieldsNotReconstructableFromRaw
  -- the workloads
  | byTopology | byConcurrency | pairedBlocks | incompleteBlocks | bootstrap
  | initiatedInteractions | successfulInteractions | failuresByCategory | failureRate
  | p50Ms | p95Ms | p99Ms | meanMs | minMs | maxMs
  | observedThroughputRuns | medianObservedThroughputPerSecond | minPerSecond | maxPerSecond
  | meanFailureRate | stationarity | boundaryDiagnostics
  | firstHalfCompletions | secondHalfCompletions | firstHalfRatePerSecond
  | secondHalfRatePerSecond | secondOverFirst
  | outstandingAtWindowStart | successfulCompletionsInWindow | failuresInWindow
  | outstandingAtWindowEnd | drainCompletions | drainFailures | unresolvedAfterDrain
  -- the bootstrap
  | blocks | localMeasuredInteractions | federatedMeasuredInteractions | percentiles
  | localMs | federatedMs | differenceMs | ratio | localCiMs | federatedCiMs | differenceCiMs
  | ratioCi | low | high
  | localPerSecond | federatedPerSecond | differencePerSecond | localCi | federatedCi
  | differenceCi | localRunThroughputs | federatedRunThroughputs
  -- the comparison with one slot
  | meanRttMs | predictedC1ThroughputPerSecond | observedMedianByConcurrency
  | observedOverPredictedByConcurrency
  -- the diagnostics
  | duplicateAckObservationsTotal | runsWithDuplicateAcks | runsWithoutDuplicateAckEvidence
  | runsWithLiveRecovery | runsWithLiveRecoveryCount | runsWithSetupOnlyRecoveryCount
  | interactionsOverlappingRecoveryTotal | runsWithMLimitExceeded
  | runsWithMLimitExceededCount | senderRecoveryEpisodes | senderRecoveryPages
  | agentRecoveryEpisodes | agentProductiveRecoveryEpisodes | agentEventsRecoveredFromHistory
  | interactionsOverlappingRecovery | mLimitExceededSends | duplicateAckObservations
  | requestsWithDuplicateAcks
  -- the agent's send failures
  | agentSendFailedTotal | agentMLimitExceededTotal | runsAffected | agentSendFailed
  | agentMLimitExceeded | requestEventIds
  -- the drift
  | perRun | joinedRoomsFirst | joinedRoomsLast | p50VsCampaignPositionPearsonByTopology
  | p50ByCampaignHalf | campaignPosition | senderJoinedRooms | loadAverage1515 | successful
  | firstHalfMeanP50Ms | secondHalfMeanP50Ms
  /-- a name that occurs in the data: a topology, a percentile, a campaign, an outcome -/
  | text (t : Text)
  /-- `str(level)` -/
  | level (n : ℕ)
  deriving DecidableEq, Repr

/-- A value of the dictionary. -/
abbrev Value := Item Key

/-! ## Runs -/

/-- A raw record with its integrity fields.  `duplicateAckCount` tells a missing key from a
null one. -/
structure ReportRecord where
  raw : RawRecord
  liveRecoveryEpisode : Option ℤ
  sendErrcode : Option Text
  duplicateAckCount : Option (Option ℤ)

/-- The counters of a transport, as a manifest has them. -/
structure TransportDiagnostics where
  liveRecoveryEpisodes : Option ℤ
  liveRecoveryPages : Option ℤ
  productiveRecoveryEpisodes : Option ℤ
  eventsRecoveredFromHistory : Option ℤ

/-- `{}`. -/
def TransportDiagnostics.empty : TransportDiagnostics := ⟨none, none, none, none⟩

/-- The part of a manifest that the analysis goes back to. -/
structure RunManifest where
  senderTransportDiagnostics : Option TransportDiagnostics
  agentTransportDiagnostics : Option TransportDiagnostics
  startTimestamp : Option Text
  senderJoinedRooms : Option ℤ
  loadAverage : Value
  /-- the path of the artifact whose role is `agent_telemetry_stream` -/
  agentTelemetryStream : Option Text

/-- `RunRecords`, with its manifest. -/
structure AnalysedRun where
  runId : Text
  workload : Text
  topology : Text
  blockId : Text
  concurrency : ℕ
  campaignId : Text
  valid : Bool
  invalidClass : Option Text
  windowStartNs : Option ℤ
  windowEndNs : Option ℤ
  records : List ReportRecord
  manifest : RunManifest

namespace AnalysedRun

/-- The run, with the fields the estimators read. -/
def typed (run : AnalysedRun) : RunRecords :=
  { runId := run.runId
    workload := run.workload
    topology := run.topology
    blockId := run.blockId
    concurrency := run.concurrency
    campaignId := run.campaignId
    valid := run.valid
    invalidClass := run.invalidClass
    windowStartNs := run.windowStartNs
    windowEndNs := run.windowEndNs
    records := run.records.map ReportRecord.raw }

/-- `recovery_overlap`. -/
def recoveryOverlap (run : AnalysedRun) : ℕ :=
  run.records.countP fun r => r.liveRecoveryEpisode.any (· ≠ 0)

/-- `rate_limited`. -/
def rateLimited (run : AnalysedRun) : ℕ :=
  run.records.countP fun r => r.sendErrcode = some Human.limitExceeded

/-- `duplicate_ack_observations`. -/
def duplicateAckObservations (run : AnalysedRun) : ℤ :=
  (run.records.map fun r => (r.duplicateAckCount.join).getD 0).sum

/-- `requests_with_duplicate_acks`. -/
def requestsWithDuplicateAcks (run : AnalysedRun) : ℕ :=
  run.records.countP fun r => (r.duplicateAckCount.join).any (· ≠ 0)

/-- `carries_duplicate_evidence`. -/
def carriesDuplicateEvidence (run : AnalysedRun) : Bool :=
  run.records.any fun r => r.duplicateAckCount.isSome

/-- `run.manifest.get("sender_transport_diagnostics") or {}`. -/
def sender (run : AnalysedRun) : TransportDiagnostics :=
  run.manifest.senderTransportDiagnostics.getD .empty

/-- `run.manifest.get("agent_transport_diagnostics") or {}`. -/
def agent (run : AnalysedRun) : TransportDiagnostics :=
  run.manifest.agentTransportDiagnostics.getD .empty

/-- `workload_episodes`. -/
def workloadEpisodes (run : AnalysedRun) : ℤ :=
  run.sender.liveRecoveryEpisodes.getD 0 + run.agent.productiveRecoveryEpisodes.getD 0

/-- `{"run_id": …, "topology": …, "workload": …, "concurrency": …}`. -/
def identity (run : AnalysedRun) : List (Key × Value) :=
  [(.runId, .str run.runId), (.topology, .str run.topology), (.workload, .str run.workload),
    (.concurrency, .ofNat run.concurrency)]

end AnalysedRun

/-! ## The estimates, as dictionaries -/

/-- An interval. -/
def intervalItem (i : Interval) : Value := .dict [(.low, .ofFloat i.low), (.high, .ofFloat i.high)]

/-- One entry for each topology. -/
def byTopologyItem {α : Type} (f : α → Value) (s : ByTopology α) : Value :=
  .dict [(.text topologyLocal, f s.localValue), (.text topologyFederated, f s.federatedValue)]

/-- The entry of a topology in `latency_topology_summary`. -/
def latencyItem (s : LatencySummary) : Value :=
  .dict
    [(.runs, .ofNat s.runs), (.initiatedInteractions, .ofNat s.initiatedInteractions),
      (.successfulInteractions, .ofNat s.successfulInteractions),
      (.failuresByCategory,
        .dict (s.failuresByCategory.entries.map fun entry => (.text entry.1, .ofNat entry.2))),
      (.failureRate, .ofFloat s.failureRate), (.p50Ms, .ofFloat s.p50Ms),
      (.p95Ms, .ofFloat s.p95Ms), (.p99Ms, .ofFloat s.p99Ms), (.meanMs, .ofFloat s.meanMs),
      (.minMs, .ofFloat s.minMs), (.maxMs, .ofFloat s.maxMs)]

/-- `stationarity`. -/
def stationarityItem : Option Stationarity → Value
  | none => .dict []
  | some s => .dict
    [(.firstHalfCompletions, .ofNat s.firstHalfCompletions),
      (.secondHalfCompletions, .ofNat s.secondHalfCompletions),
      (.firstHalfRatePerSecond, .float s.firstHalfRatePerSecond),
      (.secondHalfRatePerSecond, .float s.secondHalfRatePerSecond),
      (.secondOverFirst, .ofFloat s.secondOverFirst)]

/-- `boundary_diagnostics`. -/
def boundaryItem : Option BoundaryDiagnostics → Value
  | none => .dict []
  | some d => .dict
    [(.outstandingAtWindowStart, .ofNat d.outstandingAtWindowStart),
      (.successfulCompletionsInWindow, .ofNat d.successfulCompletionsInWindow),
      (.failuresInWindow, .ofNat d.failuresInWindow),
      (.outstandingAtWindowEnd, .ofNat d.outstandingAtWindowEnd),
      (.drainCompletions, .ofNat d.drainCompletions), (.drainFailures, .ofNat d.drainFailures),
      (.unresolvedAfterDrain, .ofNat d.unresolvedAfterDrain)]

/-- The entry of a topology in `throughput_topology_summary`. -/
def throughputItem (s : ThroughputSummary) : Value :=
  .dict
    [(.runs, .ofNat s.runs), (.observedThroughputRuns, .list (s.observedThroughputRuns.map .float)),
      (.medianObservedThroughputPerSecond, .ofFloat s.medianObservedThroughputPerSecond),
      (.minPerSecond, .ofFloat s.minPerSecond), (.maxPerSecond, .ofFloat s.maxPerSecond),
      (.meanFailureRate, .ofFloat s.meanFailureRate),
      (.stationarity, .list (s.stationarity.map stationarityItem)),
      (.boundaryDiagnostics, .list (s.boundaryDiagnostics.map boundaryItem))]

/-- The entry of one percentile in `paired_bootstrap_latency`. -/
def percentileItem (e : PercentileEstimate) : Value :=
  .dict
    [(.localMs, .ofFloat e.localMs), (.federatedMs, .ofFloat e.federatedMs),
      (.differenceMs, .ofFloat e.differenceMs), (.ratio, .ofFloat e.ratio),
      (.localCiMs, intervalItem e.localCiMs), (.federatedCiMs, intervalItem e.federatedCiMs),
      (.differenceCiMs, intervalItem e.differenceCiMs), (.ratioCi, intervalItem e.ratioCi)]

/-- `paired_bootstrap_latency`. -/
def latencyBootstrapItem : Option LatencyBootstrap → Value
  | none => .dict []
  | some b => .dict
    [(.blocks, .ofNat b.blocks),
      (.localMeasuredInteractions, .ofNat b.localMeasuredInteractions),
      (.federatedMeasuredInteractions, .ofNat b.federatedMeasuredInteractions),
      (.percentiles, .dict
        [(.text ['p', '5', '0'], percentileItem b.p50),
          (.text ['p', '9', '5'], percentileItem b.p95),
          (.text ['p', '9', '9'], percentileItem b.p99)])]

/-- `paired_bootstrap_throughput`. -/
def throughputBootstrapItem : Option ThroughputBootstrap → Value
  | none => .dict []
  | some b => .dict
    [(.blocks, .ofNat b.blocks), (.localPerSecond, .float b.localPerSecond),
      (.federatedPerSecond, .float b.federatedPerSecond),
      (.differencePerSecond, .float b.differencePerSecond), (.ratio, .ofFloat b.ratio),
      (.localCi, intervalItem b.localCi), (.federatedCi, intervalItem b.federatedCi),
      (.differenceCi, intervalItem b.differenceCi), (.ratioCi, intervalItem b.ratioCi),
      (.localRunThroughputs, .list (b.localRunThroughputs.map .float)),
      (.federatedRunThroughputs, .list (b.federatedRunThroughputs.map .float))]

/-! ## The comparison with one slot -/

/-- The body of the loop of `derived_c1_check`. -/
def derivedItem (meanRtt : Option ℚ) (medians : List (ℕ × Option ℚ)) : Value :=
  let predicted := (nonzero meanRtt).map fun mean => 1000 / mean
  .dict
    [(.meanRttMs, .ofFloat meanRtt),
      (.predictedC1ThroughputPerSecond, .ofFloat ((nonzero predicted).map round4)),
      (.observedMedianByConcurrency,
        .dict (medians.map fun entry => (.level entry.1, .ofFloat entry.2))),
      (.observedOverPredictedByConcurrency, .dict (medians.map fun entry =>
        (.level entry.1, .ofFloat (do
          let p ← nonzero predicted
          let value ← nonzero entry.2
          some (round4 (value / p))))))]

/-- `derived_c1_check`. -/
def derivedC1Check (latency : ByTopology LatencySummary)
    (throughput : List (ℕ × ByTopology ThroughputSummary)) : Value :=
  .dict
    [(.text topologyLocal, derivedItem latency.localValue.meanMs (throughput.map fun entry =>
        (entry.1, entry.2.localValue.medianObservedThroughputPerSecond))),
      (.text topologyFederated, derivedItem latency.federatedValue.meanMs
        (throughput.map fun entry =>
          (entry.1, entry.2.federatedValue.medianObservedThroughputPerSecond)))]

/-! ## The agent's send failures -/

/-- A record of the agent's telemetry, with the fields that are read. -/
structure AgentRecord where
  action : Option Text
  requestEventId : Option Text
  sequenceId : Option ℤ
  note : Text

/-- `record.get("request_event_id") or f"seq:{record.get('sequence_id')}"`. -/
def AgentRecord.failureKey (r : AgentRecord) : Text :=
  match Matrix.truthy r.requestEventId with
  | some eventId => eventId
  | none => "seq:".toList ++ match r.sequenceId with
    | none => "None".toList
    | some n => (toString n).toList

/-- The failed requests of a run, and those that were rate limited, with their notes. -/
def failuresOf (records : List AgentRecord) : OrderedDict Text Text × OrderedDict Text Text :=
  let failures := records.filter fun r =>
    r.action = some "send_failed".toList || r.action = some "execution_failed".toList
  (failures.foldl (fun failed r => failed.set r.failureKey r.note) .empty,
    (failures.filter fun r => decide (Human.limitExceeded <:+: r.note)).foldl
      (fun limited r => limited.set r.failureKey r.note) .empty)

/-- `sorted(texts)`. -/
def sortedTexts (texts : List Text) : List Text := texts.insertionSort fun s t => s ≤ t

/-- `agent_send_failures`.  `telemetry` reads a stream that exists. -/
def agentSendFailures (telemetry : Text → Option (List AgentRecord)) (runs : List AnalysedRun) :
    Value :=
  let affected := runs.filterMap fun run => do
    let path ← run.manifest.agentTelemetryStream
    let records ← telemetry path
    let (failed, limited) := failuresOf records
    if failed.entries.isEmpty then none else some (run, failed, limited)
  .dict
    [(.agentSendFailedTotal, .ofNat (affected.map fun entry => entry.2.1.entries.length).sum),
      (.agentMLimitExceededTotal, .ofNat (affected.map fun entry => entry.2.2.entries.length).sum),
      (.runsAffected, .list (affected.map fun entry => .dict (entry.1.identity ++
        [(.agentSendFailed, .ofNat entry.2.1.entries.length),
          (.agentMLimitExceeded, .ofNat entry.2.2.entries.length),
          (.requestEventIds,
            .list (((sortedTexts entry.2.1.keys).take 20).map .str))])))]

/-! ## Recovery and rate limits -/

/-- The entry of a run with workload recovery episodes. -/
def liveRecoveryItem (run : AnalysedRun) : Value :=
  .dict (run.identity ++
    [(.senderRecoveryEpisodes, .ofInt run.sender.liveRecoveryEpisodes),
      (.senderRecoveryPages, .ofInt run.sender.liveRecoveryPages),
      (.agentProductiveRecoveryEpisodes, .ofInt run.agent.productiveRecoveryEpisodes),
      (.agentEventsRecoveredFromHistory, .ofInt run.agent.eventsRecoveredFromHistory),
      (.interactionsOverlappingRecovery, .ofNat run.recoveryOverlap)])

/-- `recovery_and_rate_limit_diagnostics`. -/
def recoveryAndRateLimitDiagnostics (runs : List AnalysedRun) : Value :=
  let affected := runs.filter fun run => run.workloadEpisodes ≠ 0
  let setupOnly := runs.countP fun run =>
    run.workloadEpisodes = 0 ∧ run.agent.liveRecoveryEpisodes.getD 0 ≠ 0
  let rateLimited := runs.filter fun run => run.rateLimited ≠ 0
  let duplicates := runs.filter fun run => run.duplicateAckObservations ≠ 0
  .dict
    [(.duplicateAckObservationsTotal, .int (runs.map AnalysedRun.duplicateAckObservations).sum),
      (.runsWithDuplicateAcks, .list (duplicates.map fun run => .dict (run.identity ++
        [(.duplicateAckObservations, .int run.duplicateAckObservations),
          (.requestsWithDuplicateAcks, .ofNat run.requestsWithDuplicateAcks)]))),
      (.runsWithoutDuplicateAckEvidence,
        .ofNat (runs.countP fun run => !run.carriesDuplicateEvidence)),
      (.runsWithLiveRecovery, .list (affected.map liveRecoveryItem)),
      (.runsWithLiveRecoveryCount, .ofNat affected.length),
      (.runsWithSetupOnlyRecoveryCount, .ofNat setupOnly),
      (.interactionsOverlappingRecoveryTotal,
        .ofNat (runs.map AnalysedRun.recoveryOverlap).sum),
      (.runsWithMLimitExceeded, .list (rateLimited.map fun run => .dict
        [(.runId, .str run.runId), (.topology, .str run.topology),
          (.mLimitExceededSends, .ofNat run.rateLimited)])),
      (.runsWithMLimitExceededCount, .ofNat rateLimited.length)]

/-! ## The drift of the environment -/

/-- A row of `environment_drift`. -/
structure DriftRow where
  run : AnalysedRun
  campaignPosition : ℕ
  p50Ms : Option ℚ
  successful : ℕ

/-- A row, as a dictionary. -/
def DriftRow.item (row : DriftRow) : Value :=
  .dict
    [(.runId, .str row.run.runId), (.campaignPosition, .ofNat row.campaignPosition),
      (.blockId, .str row.run.blockId), (.topology, .str row.run.topology),
      (.senderJoinedRooms, .ofInt row.run.manifest.senderJoinedRooms),
      (.loadAverage1515, row.run.manifest.loadAverage), (.p50Ms, .ofFloat row.p50Ms),
      (.successful, .ofNat row.successful)]

/-- The rows: the valid latency runs, in the order they were started. -/
def driftRows (runs : List AnalysedRun) : List DriftRow :=
  let ordered := (runs.filter fun r => r.workload = latencyWorkload ∧ r.valid = true).insertionSort
    fun r s => r.manifest.startTimestamp.getD [] ≤ s.manifest.startTimestamp.getD []
  ordered.zipIdx.map fun entry =>
    { run := entry.1
      campaignPosition := entry.2 + 1
      p50Ms := nsToMs (percentile entry.1.typed.rttsNs (50 / 100))
      successful := entry.1.typed.rttsNs.length }

/-- The mean of a list of numbers. -/
def mean (xs : List ℚ) : ℚ := xs.sum / xs.length

/-- `_pearson`. -/
def pearson (sqrt : ℚ → ℚ) (xs ys : List ℚ) : Option ℚ :=
  if xs.length < 3 then none
  else
    let cov := ((xs.zip ys).map fun pair => (pair.1 - mean xs) * (pair.2 - mean ys)).sum
    let varX := (xs.map fun x => (x - mean xs) ^ 2).sum
    let varY := (ys.map fun y => (y - mean ys) ^ 2).sum
    if varX = 0 ∨ varY = 0 then none else some (round4 (cov / sqrt (varX * varY)))

/-- `round(x, 3)`. -/
def round3 (x : ℚ) : ℚ := roundHalfEven (x * 10 ^ 3) / 10 ^ 3

/-- `environment_drift`. -/
def environmentDrift (sqrt : ℚ → ℚ) (runs : List AnalysedRun) : Value :=
  let rows := driftRows runs
  let usable := rows.filterMap fun row => row.p50Ms.map fun p50 => (row, p50)
  let names := [topologyLocal, topologyFederated]
  let subset := fun name : Text => usable.filter fun entry => entry.1.run.topology = name
  .dict
    [(.perRun, .list (rows.map DriftRow.item)),
      (.joinedRoomsFirst, .ofInt (usable.head?.bind (·.1.run.manifest.senderJoinedRooms))),
      (.joinedRoomsLast, .ofInt (usable.getLast?.bind (·.1.run.manifest.senderJoinedRooms))),
      (.p50VsCampaignPositionPearsonByTopology, .dict (names.map fun name =>
        (.text name, .ofFloat (pearson sqrt
          ((subset name).map fun entry => (entry.1.campaignPosition : ℚ))
          ((subset name).map Prod.snd))))),
      (.p50ByCampaignHalf, .dict (names.filterMap fun name =>
        if (subset name).length < 4 then none
        else
          let middle := (subset name).length / 2
          let p50s := (subset name).map Prod.snd
          some (.text name, .dict
            [(.firstHalfMeanP50Ms, .float (round3 (mean (p50s.take middle)))),
              (.secondHalfMeanP50Ms, .float (round3 (mean (p50s.drop middle))))])))]

/-! ## The summary -/

/-- The text of a line of `integrity_problems`. -/
def IntegrityProblem.text (p : IntegrityProblem) : Text :=
  p.runId ++ ": ".toList ++ Nat.toDigits 10 p.count ++ ' ' :: p.description.toList

/-- What the analysis takes from its surroundings. -/
structure Environment where
  confidence : ℚ
  /-- the positions drawn by the replicates, among so many -/
  draws : ℕ → List (List ℕ)
  sqrt : ℚ → ℚ
  telemetry : Text → Option (List AgentRecord)

/-- `analyse`. -/
def analyse (env : Environment) (runs : List AnalysedRun) : List (Key × Value) :=
  let typed := runs.map AnalysedRun.typed
  let latencyBlocks := pairBlocks (latencyRuns typed)
  let levels := concurrencies typed
  let latency := latencyTopologySummary (latencyRuns typed)
  let throughput := levels.map fun level =>
    (level, throughputTopologySummary (levelRuns typed level) level)
  [(.campaignId, .ofText (runs.head?.map AnalysedRun.campaignId)),
    (.runsTotal, .ofNat runs.length),
    (.runsValid, .ofNat (runs.countP AnalysedRun.valid)),
    (.runsInvalid, .list ((runs.filter fun r => !r.valid).map fun r =>
      .dict [(.runId, .str r.runId), (.runClass, .ofText r.invalidClass)])),
    (.integrityProblems,
      .list ((integrityProblems typed).map fun p => .str (IntegrityProblem.text p))),
    (.latency, .dict
      [(.byTopology, byTopologyItem latencyItem latency),
        (.pairedBlocks, .ofNat latencyBlocks.length),
        (.incompleteBlocks, .list ((incompleteBlocks (latencyRuns typed)).map .str)),
        (.bootstrap, latencyBootstrapItem
          (pairedBootstrapLatency env.confidence (env.draws latencyBlocks.length)
            latencyBlocks))]),
    (.throughput, .dict
      [(.byConcurrency, .dict (throughput.map fun entry =>
          (.level entry.1, byTopologyItem throughputItem entry.2))),
        (.bootstrap, .dict (levels.map fun level =>
          let blocks := pairBlocks (levelRuns typed level)
          (.level level, throughputBootstrapItem (pairedBootstrapThroughput env.confidence
            (env.draws (blocks.filterMap PairedBlock.throughputs).length) blocks)))),
        (.pairedBlocks, .dict (levels.map fun level =>
          (.level level, .ofNat (pairBlocks (levelRuns typed level)).length)))]),
    (.derivedC1Consistency, derivedC1Check latency throughput),
    (.diagnostics, recoveryAndRateLimitDiagnostics runs),
    (.agentSendFailures, agentSendFailures env.telemetry runs),
    (.environmentDrift, environmentDrift env.sqrt runs)]

/-- An entry of `campaign_inventory`. -/
structure InventoryEntry where
  runs : ℕ
  lastCompletion : Text

/-- `IntegrityReport.to_dict`. -/
structure InputIntegrity where
  runsChecked : ℕ
  fieldsCompared : ℕ
  recordsCompared : ℕ
  mismatches : List Text
  unverifiableFields : List Text

/-- The report, as a dictionary. -/
def InputIntegrity.item (r : InputIntegrity) : Value :=
  .dict
    [(.runsChecked, .ofNat r.runsChecked), (.manifestFieldsCompared, .ofNat r.fieldsCompared),
      (.rawRecordsCompared, .ofNat r.recordsCompared),
      (.mismatches, .list (r.mismatches.map .str)),
      (.fieldsNotReconstructableFromRaw, .list (r.unverifiableFields.map .str))]

/-- `summarize_e3`, on a campaign with runs. -/
def summarizeE3 (env : Environment) (runs : List AnalysedRun)
    (inventory : OrderedDict Text InventoryEntry) (integrity : InputIntegrity) : Value :=
  .dict (analyse env runs ++
    [(.campaignInventory, .dict (inventory.entries.map fun entry =>
        (.text entry.1, .dict
          [(.runs, .ofNat entry.2.runs), (.lastCompletion, .str entry.2.lastCompletion)]))),
      (.inputIntegrity, integrity.item)])

end Report
end Analysis
end FederatedMessaging
