import FederatedMessaging.Analysis.Report

/-!
# The report that is printed

`print_e3` of `scripts/analyse.py` reads the dictionary of `Analysis.Report` and prints it,
before the script decides between PASS and FAIL.  It reads some entries by `d.get(key)` and
most by `d[key]`, so it aborts when a key is missing.

## Which entries are missing

One.  The entry of a run with workload recovery has the key
`agent_productive_recovery_episodes`; the printer asks for `agent_recovery_episodes`.  No
other read fails: the optional parts of the dictionary are guarded, and what stands behind a
guard is complete when it is there.  So the printer gets through exactly when no run had an
episode of workload recovery (`printE3_succeeds_iff`).

How a value is turned into text is left open.
-/

namespace FederatedMessaging
namespace Analysis
namespace Report

open PythonText DynamicValues

/-- What is printed, or what was raised. -/
abbrev Printing := Except (ReadError Key)

/-- How values are turned into text. -/
structure Formatting where
  /-- `str(key)` -/
  key : Key → Text
  /-- `str(value)` -/
  str : Value → Text
  /-- `f"{value:.3f}"` -/
  fixed3 : ℚ → Text

/-- `len(value)`, of a list. -/
def len (value : Value) : Printing Text := do
  let elements ← value.elements
  pure (Nat.toDigits 10 elements.length)

/-- `f"{name:<10}"`. -/
def padded (name : Text) : Text := name ++ List.replicate (10 - name.length) ' '

/-- `sorted(value.items())`: two entries of a dictionary have different keys. -/
def sortedItems (fmt : Formatting) (entries : List (Key × Value)) : List (Key × Value) :=
  entries.insertionSort fun a b => fmt.key a.1 ≤ fmt.key b.1

/-- `int(key)`. -/
def intKey : Key → Printing ℕ
  | .level n => .ok n
  | _ => .error .value

namespace Formatting

variable (fmt : Formatting)

/-- `_fmt(value)`. -/
def optional (value : Value) : Text := if value.isNone then "n/a".toList else fmt.str value

/-- `_fmt(value.get(key))`. -/
def shownGet (value : Value) (key : Key) : Printing Text := do
  let item ← value.get key
  pure (fmt.optional item)

/-- `_fmt(value[key])`. -/
def shownItem (value : Value) (key : Key) : Printing Text := do
  let item ← value.getItem key
  pure (fmt.optional item)

/-- `f"{value.get(key)}"`. -/
def strGet (value : Value) (key : Key) : Printing Text := do
  let item ← value.get key
  pure (fmt.str item)

/-- `f"{value[key]}"`. -/
def strItem (value : Value) (key : Key) : Printing Text := do
  let item ← value.getItem key
  pure (fmt.str item)

/-! ## The parts of the report -/

/-- The campaign, and the other campaigns that are present. -/
def printInventory (summary : Value) : Printing (List Text) := do
  let campaign ← summary.getItem .campaignId
  let inventory ← summary.get .campaignInventory
  let entries ← inventory.orEmpty.items
  let others := entries.filter fun entry =>
    ¬ campaign.isText (fmt.key entry.1) ∧ fmt.key entry.1 ≠ "e3-pilot".toList
  let lines ← (sortedItems fmt others).mapM fun entry => do
    let runs ← fmt.strItem entry.2 .runs
    let last ← fmt.strItem entry.2 .lastCompletion
    pure ("     (superseded campaign present: ".toList ++ fmt.key entry.1 ++ ", ".toList ++ runs ++
      " runs, last completion ".toList ++ last ++ " — not analysed)".toList)
  pure (("   campaign ".toList ++ fmt.str campaign) :: lines)

/-- The number of runs, the invalid ones, and the integrity problems. -/
def printRuns (summary : Value) : Printing (List Text) := do
  let valid ← fmt.strItem summary .runsValid
  let total ← fmt.strItem summary .runsTotal
  let invalid ← summary.getItem .runsInvalid
  let count ← len invalid
  let entries ← invalid.elements
  let lines ← entries.mapM fun entry => do
    let run ← fmt.strItem entry .runId
    let cls ← fmt.strItem entry .runClass
    pure ("     ! ".toList ++ run ++ " — ".toList ++ cls)
  let problems ← summary.getD .integrityProblems (.list [])
  let texts ← problems.elements
  pure (("   runs ".toList ++ valid ++ '/' :: total ++ " valid".toList ++
      if invalid.truthy then ", invalid ".toList ++ count else []) ::
    lines ++ texts.map fun problem => "     ! integrity: ".toList ++ fmt.str problem)

/-- The input check. -/
def printInputIntegrity (summary : Value) : Printing (List Text) := do
  let report ← summary.get .inputIntegrity
  let inputs := report.orEmpty
  if inputs.truthy then
    let checked ← fmt.strItem inputs .runsChecked
    let compared ← fmt.strItem inputs .manifestFieldsCompared
    let raw ← fmt.strItem inputs .rawRecordsCompared
    let mismatches ← inputs.getItem .mismatches
    let count ← len mismatches
    let problems ← mismatches.elements
    let rest ← fmt.strItem inputs .fieldsNotReconstructableFromRaw
    pure (("   input integrity: ".toList ++ checked ++ " runs, ".toList ++ compared ++
        " manifest fields vs ".toList ++ raw ++ " raw records, ".toList ++ count ++
        " mismatches".toList) ::
      ((problems.take 10).map fun problem => "     ! input mismatch: ".toList ++ fmt.str problem) ++
      ["     not reconstructable from raw (manifest-only): ".toList ++ rest])
  else pure []

/-- The agent's send failures. -/
def printAgentSendFailures (summary : Value) : Printing (List Text) := do
  let failures ← summary.get .agentSendFailures
  let agentFail := failures.orEmpty
  if agentFail.truthy then
    let failed ← fmt.strGet agentFail .agentSendFailedTotal
    let limited ← fmt.strGet agentFail .agentMLimitExceededTotal
    let affected ← agentFail.getD .runsAffected (.list [])
    let entries ← affected.elements
    let lines ← (entries.take 5).mapM fun entry => do
      let run ← fmt.strItem entry .runId
      let failed ← fmt.strItem entry .agentSendFailed
      let limited ← fmt.strItem entry .agentMLimitExceeded
      pure ("     ~ ".toList ++ run ++ ": ".toList ++ failed ++ " failed, ".toList ++ limited ++
        " rate limited".toList)
    pure (("   agent-side delivery: send_failed=".toList ++ failed ++
      " M_LIMIT_EXCEEDED=".toList ++ limited) :: lines)
  else pure []

/-- `[{low}, {high}]`. -/
def printInterval (interval : Value) : Printing Text := do
  let low ← fmt.shownItem interval .low
  let high ← fmt.shownItem interval .high
  pure ('[' :: low ++ ", ".toList ++ high ++ [']'])

/-- The line of a topology under workload A. -/
def printLatencyTopology (byTopology : Value) (name : Text) : Printing Text := do
  let entry ← byTopology.get (.text name)
  let item := entry.orEmpty
  let runs ← fmt.strGet item .runs
  let successful ← fmt.strGet item .successfulInteractions
  let initiated ← fmt.strGet item .initiatedInteractions
  let p50 ← fmt.shownGet item .p50Ms
  let p95 ← fmt.shownGet item .p95Ms
  let p99 ← fmt.shownGet item .p99Ms
  let rate ← fmt.shownGet item .failureRate
  pure ("     ".toList ++ padded name ++ " runs=".toList ++ runs ++ " n=".toList ++ successful ++
    '/' :: initiated ++ " p50=".toList ++ p50 ++ "ms p95=".toList ++ p95 ++ "ms p99=".toList ++
    p99 ++ "ms fail=".toList ++ rate)

/-- The line of a percentile. -/
def printPercentile (entry : Key × Value) : Printing Text := do
  let diff ← entry.2.getItem .differenceCiMs
  let ratio ← entry.2.getItem .ratioCi
  let difference ← fmt.shownItem entry.2 .differenceMs
  let diffCi ← fmt.printInterval diff
  let ratioText ← fmt.shownItem entry.2 .ratio
  let ratioCi ← fmt.printInterval ratio
  pure ("     ".toList ++ fmt.key entry.1 ++ ": diff=".toList ++ difference ++ "ms ".toList ++
    diffCi ++ "  ratio=".toList ++ ratioText ++ ' ' :: ratioCi)

/-- Workload A. -/
def printLatency (summary : Value) : Printing (List Text) := do
  let latency ← summary.getItem .latency
  let paired ← fmt.strItem latency .pairedBlocks
  let byTopology ← latency.getItem .byTopology
  let topologies ← [topologyLocal, topologyFederated].mapM (fmt.printLatencyTopology byTopology)
  let bootstrap ← latency.get .bootstrap
  let percentiles ← bootstrap.orEmpty.get .percentiles
  let entries ← percentiles.orEmpty.items
  let lines ← entries.mapM fmt.printPercentile
  let incomplete ← latency.get .incompleteBlocks
  pure (("   Workload A — latency (".toList ++ paired ++ " paired blocks)".toList) ::
    topologies ++ lines ++
      if incomplete.truthy then ["     incomplete blocks: ".toList ++ fmt.str incomplete] else [])

/-- The line of a topology under workload B. -/
def printThroughputTopology (topologies : Value) (name : Text) : Printing Text := do
  let entry ← topologies.get (.text name)
  let item := entry.orEmpty
  let runs ← fmt.strGet item .runs
  let median ← fmt.shownGet item .medianObservedThroughputPerSecond
  let low ← fmt.shownGet item .minPerSecond
  let high ← fmt.shownGet item .maxPerSecond
  let rate ← fmt.shownGet item .meanFailureRate
  pure ("       ".toList ++ padded name ++ " runs=".toList ++ runs ++ " median=".toList ++ median ++
    "/s range=[".toList ++ low ++ ", ".toList ++ high ++ "] fail=".toList ++ rate)

/-- The comparison of a level, when there is one. -/
def printThroughputBootstrap (boot : Value) : Printing (List Text) :=
  if boot.truthy then do
    let diff ← boot.getItem .differenceCi
    let ratio ← boot.getItem .ratioCi
    let difference ← fmt.shownItem boot .differencePerSecond
    let diffCi ← fmt.printInterval diff
    let ratioText ← fmt.shownItem boot .ratio
    let ratioCi ← fmt.printInterval ratio
    pure ["       diff=".toList ++ difference ++ "/s ".toList ++ diffCi ++ "  ratio=".toList ++
      ratioText ++ ' ' :: ratioCi]
  else pure []

/-- The halves of the windows of a topology. -/
def printHalves (topologies : Value) (name : Text) : Printing (List Text) := do
  let entry ← topologies.get (.text name)
  let found ← entry.orEmpty.getD .stationarity (.list [])
  let entries ← found.elements
  let values ← entries.mapM fun s => s.get .secondOverFirst
  let halves ← (values.filter fun value => !value.isNone).mapM Item.toFloat
  pure (match halves with
    | [] => []
    | first :: rest => ["       ".toList ++ padded name ++
        " stationarity second/first min=".toList ++
        fmt.fixed3 (rest.foldl min first) ++ " max=".toList ++ fmt.fixed3 (rest.foldl max first)])

/-- A level of workload B. -/
def printLevel (throughput : Value) (entry : Key × Value) : Printing (List Text) := do
  let pairs ← throughput.getItem .pairedBlocks
  let paired ← fmt.strGet pairs entry.1
  let topologies ← [topologyLocal, topologyFederated].mapM (fmt.printThroughputTopology entry.2)
  let bootstraps ← throughput.getItem .bootstrap
  let bootstrap ← bootstraps.orEmpty.get entry.1
  let comparison ← fmt.printThroughputBootstrap bootstrap.orEmpty
  let halves ← [topologyLocal, topologyFederated].mapM (fmt.printHalves entry.2)
  pure (("     C=".toList ++ fmt.key entry.1 ++ "  (".toList ++ paired ++
      " paired blocks)".toList) :: topologies ++ comparison ++ halves.flatten)

/-- Workload B. -/
def printThroughput (summary : Value) : Printing (List Text) := do
  let throughput ← summary.getItem .throughput
  let byConcurrency ← throughput.getItem .byConcurrency
  let entries ← byConcurrency.orEmpty.items
  let keyed ← entries.mapM fun entry => do
    let level ← intKey entry.1
    pure (level, entry)
  let lines ← (keyed.insertionSort fun a b => a.1 ≤ b.1).mapM fun entry =>
    fmt.printLevel throughput entry.2
  pure ("   Workload B — observed throughput at tested concurrency".toList :: lines.flatten)

/-- The line of a run with workload recovery. -/
def printLiveRecovery (entry : Value) : Printing Text := do
  let run ← fmt.strItem entry .runId
  let sender ← fmt.strItem entry .senderRecoveryEpisodes
  let agent ← fmt.strItem entry .agentRecoveryEpisodes
  let overlapping ← fmt.strItem entry .interactionsOverlappingRecovery
  pure ("     ~ ".toList ++ run ++ ": sender=".toList ++ sender ++ " agent=".toList ++ agent ++
    " episodes, ".toList ++ overlapping ++ " interactions overlap".toList)

/-- The transport diagnostics. -/
def printDiagnostics (summary : Value) : Printing (List Text) := do
  let diagnostics ← summary.getItem .diagnostics
  let recovery ← fmt.strItem diagnostics .runsWithLiveRecoveryCount
  let overlapping ← fmt.strItem diagnostics .interactionsOverlappingRecoveryTotal
  let setupOnly ← fmt.strItem diagnostics .runsWithSetupOnlyRecoveryCount
  let limited ← fmt.strItem diagnostics .runsWithMLimitExceededCount
  let affected ← diagnostics.getItem .runsWithLiveRecovery
  let entries ← affected.elements
  let lines ← entries.mapM fmt.printLiveRecovery
  pure (("   transport diagnostics: ".toList ++ recovery ++
      " runs with workload gap recovery (".toList ++ overlapping ++
      " interactions affected), ".toList ++ setupOnly ++ " with a setup-only episode, ".toList ++
      limited ++ " with M_LIMIT_EXCEEDED".toList) :: lines)

/-- The line of a topology under the drift. -/
def printHalf (entry : Key × Value) : Printing Text := do
  let first ← fmt.strItem entry.2 .firstHalfMeanP50Ms
  let second ← fmt.strItem entry.2 .secondHalfMeanP50Ms
  pure ("     ".toList ++ padded (fmt.key entry.1) ++ " mean run p50 ".toList ++ first ++
    "ms -> ".toList ++ second ++ "ms across the campaign".toList)

/-- The drift of the environment. -/
def printDrift (summary : Value) : Printing (List Text) := do
  let found ← summary.get .environmentDrift
  let drift := found.orEmpty
  let roomsFirst ← drift.get .joinedRoomsFirst
  if roomsFirst.isNone then pure []
  else
    let correlation ← fmt.strGet drift .p50VsCampaignPositionPearsonByTopology
    let first ← fmt.strItem drift .joinedRoomsFirst
    let last ← fmt.strItem drift .joinedRoomsLast
    let halves ← drift.get .p50ByCampaignHalf
    let entries ← halves.orEmpty.items
    let lines ← entries.mapM fmt.printHalf
    pure (("   campaign drift: p50 vs execution order ".toList ++ correlation ++
        " (sender joined rooms ".toList ++ first ++ " -> ".toList ++ last ++
        "; order and rooms are confounded)".toList) :: lines)

/-- The line of a topology under the comparison with one slot. -/
def printDerivedTopology (entry : Key × Value) : Printing Text := do
  let found ← entry.2.get .observedOverPredictedByConcurrency
  let ratios ← found.orEmpty.items
  let shown := List.intercalate ", ".toList ((sortedItems fmt ratios).map fun ratio =>
    "C=".toList ++ fmt.key ratio.1 ++ ": ".toList ++ fmt.optional ratio.2 ++ ['x'])
  let predicted ← fmt.shownItem entry.2 .predictedC1ThroughputPerSecond
  let rtt ← fmt.shownItem entry.2 .meanRttMs
  pure ("   derived C=1 comparison (".toList ++ fmt.key entry.1 ++ "): predicted ".toList ++
    predicted ++ "/s from mean RTT ".toList ++ rtt ++ "ms; observed/predicted ".toList ++
    if shown = [] then "n/a".toList else shown)

/-- The comparison with one slot. -/
def printDerived (summary : Value) : Printing (List Text) := do
  let found ← summary.get .derivedC1Consistency
  let entries ← found.orEmpty.items
  let lines ← entries.mapM fmt.printDerivedTopology
  pure (lines ++ if found.truthy then
    ["     descriptive only — the frozen protocol defines no acceptance threshold ".toList ++
      "for this comparison".toList] else [])

end Formatting

/-- `print_e3`. -/
def printE3 (fmt : Formatting) (summary : Value) : Printing (List Text) := do
  let inventory ← fmt.printInventory summary
  let runs ← fmt.printRuns summary
  let inputs ← fmt.printInputIntegrity summary
  let failures ← fmt.printAgentSendFailures summary
  let latency ← fmt.printLatency summary
  let throughput ← fmt.printThroughput summary
  let diagnostics ← fmt.printDiagnostics summary
  let drift ← fmt.printDrift summary
  let derived ← fmt.printDerived summary
  pure (inventory ++ runs ++ inputs ++ failures ++ latency ++ throughput ++ diagnostics ++ drift ++
    derived ++ ["   observed throughput at tested concurrency — never maximum, capacity, ".toList ++
      "achievable or saturation throughput".toList])

/-! ## What the printer finds -/

section Reads

variable {fmt : Formatting}

theorem items_orEmpty (fields : List (Key × Value)) :
    (Item.dict fields).orEmpty.items = .ok fields := by
  cases fields <;> rfl

theorem get_orEmpty (fields : List (Key × Value)) (key : Key) :
    (Item.dict fields).orEmpty.get key = .ok ((fields.lookup key).getD .none) := by
  cases fields <;> rfl

/-- What is found in a dictionary made entry by entry. -/
theorem lookup_map {α : Type} (key : α → Key) (value : α → Value) (l : List α) (k : Key) :
    (l.map fun a => (key a, value a)).lookup k = none ∨
      ∃ a ∈ l, (l.map fun a => (key a, value a)).lookup k = some (value a) := by
  induction l with
  | nil => exact .inl rfl
  | cons a l ih =>
    rw [List.map_cons, List.lookup_cons]
    cases k == key a with
    | true => exact .inr ⟨a, List.mem_cons_self, rfl⟩
    | false =>
      refine ih.imp id fun ⟨b, hb, found⟩ => ⟨b, List.mem_cons_of_mem a hb, found⟩

theorem mem_of_mem_sortedItems {entries : List (Key × Value)} {entry : Key × Value}
    (h : entry ∈ sortedItems fmt entries) : entry ∈ entries :=
  (List.mem_insertionSort _).mp h

theorem succeeds_printInterval (i : Interval) : Succeeds (fmt.printInterval (intervalItem i)) :=
  ⟨_, rfl⟩

theorem succeeds_printPercentile (name : Text) (e : PercentileEstimate) :
    Succeeds (fmt.printPercentile (.text name, percentileItem e)) := ⟨_, rfl⟩

theorem succeeds_printThroughputBootstrap (o : Option ThroughputBootstrap) :
    Succeeds (fmt.printThroughputBootstrap (throughputBootstrapItem o)) := by
  cases o <;> exact ⟨_, rfl⟩

theorem succeeds_printThroughputTopology (s : ByTopology ThroughputSummary) {name : Text}
    (hname : name ∈ [topologyLocal, topologyFederated]) :
    Succeeds (fmt.printThroughputTopology (byTopologyItem throughputItem s) name) := by
  rcases List.mem_pair.mp hname with rfl | rfl <;> exact ⟨_, rfl⟩

theorem get_stationarityItem (o : Option Stationarity) :
    (stationarityItem o).get .secondOverFirst =
      .ok (.ofFloat (o.bind Stationarity.secondOverFirst)) := by
  cases o <;> rfl

/-- A number that is not `None` is a number. -/
theorem succeeds_toFloat {os : List (Option ℚ)} :
    Succeeds (((os.map (Item.ofFloat (κ := Key))).filter fun value => !value.isNone).mapM
      Item.toFloat) := by
  refine succeeds_mapM_iff.mpr fun value h => ?_
  obtain ⟨hmem, hsome⟩ := List.mem_filter.mp h
  obtain ⟨o, -, rfl⟩ := List.mem_map.mp hmem
  cases o with
  | none => exact absurd hsome Bool.false_ne_true
  | some x => exact succeeds_ok x

theorem succeeds_printHalves_of {entry : Value} {name : Text} {s : ThroughputSummary}
    {topologies : Value} (h : topologies.get (.text name) = .ok entry)
    (hentry : entry.orEmpty = throughputItem s) :
    Succeeds (fmt.printHalves topologies name) := by
  have hvalues : (s.stationarity.map stationarityItem).mapM (fun i => i.get .secondOverFirst) =
      .ok ((s.stationarity.map fun o => o.bind Stationarity.secondOverFirst).map Item.ofFloat) := by
    rw [List.mapM_map, List.map_map]
    exact Fallible.mapM_eq_ok fun o _ => get_stationarityItem o
  refine (succeeds_bind_ok h).mpr ?_
  rw [hentry]
  refine (succeeds_bind_ok rfl).mpr ((succeeds_bind_ok rfl).mpr
    ((succeeds_bind_ok hvalues).mpr ?_))
  exact succeeds_bind succeeds_toFloat fun halves => succeeds_ok _

theorem succeeds_printHalves (s : ByTopology ThroughputSummary) {name : Text}
    (hname : name ∈ [topologyLocal, topologyFederated]) :
    Succeeds (fmt.printHalves (byTopologyItem throughputItem s) name) := by
  rcases List.mem_pair.mp hname with rfl | rfl
  · exact succeeds_printHalves_of (s := s.localValue) rfl rfl
  · exact succeeds_printHalves_of (s := s.federatedValue) rfl rfl

/-- The line of a run with workload recovery asks for a key that is not there. -/
theorem printLiveRecovery_liveRecoveryItem (run : AnalysedRun) :
    fmt.printLiveRecovery (liveRecoveryItem run) = .error (.key .agentRecoveryEpisodes) := rfl

end Reads

/-! ## The parts of the report that are always printed -/

section Parts

variable (fmt : Formatting) (env : Environment) (runs : List AnalysedRun)
    (inventory : OrderedDict Text InventoryEntry) (integrity : InputIntegrity)

theorem succeeds_printInventory :
    Succeeds (fmt.printInventory (summarizeE3 env runs inventory integrity)) := by
  refine (succeeds_bind_ok rfl).mpr ((succeeds_bind_ok rfl).mpr
    ((succeeds_bind_ok (items_orEmpty _)).mpr (succeeds_bind ?_ fun lines => succeeds_ok _)))
  refine succeeds_mapM_iff.mpr fun entry h => ?_
  obtain ⟨e, -, rfl⟩ := List.mem_map.mp (List.mem_filter.mp (mem_of_mem_sortedItems h)).1
  exact ⟨_, rfl⟩

theorem succeeds_printRuns :
    Succeeds (fmt.printRuns (summarizeE3 env runs inventory integrity)) := by
  refine (succeeds_bind_ok rfl).mpr ((succeeds_bind_ok rfl).mpr ((succeeds_bind_ok rfl).mpr
    ((succeeds_bind_ok rfl).mpr ((succeeds_bind_ok rfl).mpr (succeeds_bind ?_ fun lines => ?_)))))
  · refine succeeds_mapM_iff.mpr fun entry h => ?_
    obtain ⟨r, -, rfl⟩ := List.mem_map.mp h
    exact ⟨_, rfl⟩
  · exact ⟨_, rfl⟩

theorem succeeds_printInputIntegrity :
    Succeeds (fmt.printInputIntegrity (summarizeE3 env runs inventory integrity)) := ⟨_, rfl⟩

theorem succeeds_printAgentSendFailures :
    Succeeds (fmt.printAgentSendFailures (summarizeE3 env runs inventory integrity)) := by
  refine (succeeds_bind_ok rfl).mpr ((succeeds_bind_ok rfl).mpr ((succeeds_bind_ok rfl).mpr
    ((succeeds_bind_ok rfl).mpr ((succeeds_bind_ok rfl).mpr
      (succeeds_bind ?_ fun lines => succeeds_ok _)))))
  refine succeeds_mapM_iff.mpr fun entry h => ?_
  obtain ⟨e, -, rfl⟩ := List.mem_map.mp (List.mem_of_mem_take h)
  exact ⟨_, rfl⟩

theorem succeeds_printLatency :
    Succeeds (fmt.printLatency (summarizeE3 env runs inventory integrity)) := by
  refine (succeeds_bind_ok rfl).mpr ((succeeds_bind_ok rfl).mpr ((succeeds_bind_ok rfl).mpr
    ((succeeds_bind_ok rfl).mpr ((succeeds_bind_ok rfl).mpr ?_))))
  generalize pairedBootstrapLatency _ _ _ = o
  cases o with
  | none => exact ⟨_, rfl⟩
  | some b => exact ⟨_, rfl⟩

/-- A level is printed, whatever stands under it in the other two dictionaries. -/
theorem succeeds_printLevel (byConcurrency : Value) (levels : List ℕ)
    (boots : ℕ → Option ThroughputBootstrap) (paired : List (Key × Value)) (level : ℕ)
    (s : ByTopology ThroughputSummary) :
    Succeeds (fmt.printLevel
      (.dict [(.byConcurrency, byConcurrency),
        (.bootstrap, .dict (levels.map fun l => (.level l, throughputBootstrapItem (boots l)))),
        (.pairedBlocks, .dict paired)])
      (.level level, byTopologyItem throughputItem s)) := by
  refine (succeeds_bind_ok rfl).mpr ((succeeds_bind_ok rfl).mpr (succeeds_bind
    (succeeds_mapM_iff.mpr fun name => succeeds_printThroughputTopology s) fun topologies => ?_))
  refine (succeeds_bind_ok rfl).mpr ((succeeds_bind_ok (get_orEmpty _ _)).mpr
    (succeeds_bind ?_ fun comparison => succeeds_bind
      (succeeds_mapM_iff.mpr fun name => succeeds_printHalves s) fun halves => succeeds_ok _))
  rcases lookup_map Key.level (fun l => throughputBootstrapItem (boots l)) levels (.level level)
    with
    h | ⟨l, -, h⟩
  · rw [h]
    exact succeeds_printThroughputBootstrap none
  · rw [h]
    cases hboot : boots l with
    | none => exact succeeds_printThroughputBootstrap none
    | some b => exact succeeds_printThroughputBootstrap (some b)

theorem succeeds_printThroughput :
    Succeeds (fmt.printThroughput (summarizeE3 env runs inventory integrity)) := by
  refine (succeeds_bind_ok rfl).mpr ((succeeds_bind_ok rfl).mpr
    ((succeeds_bind_ok (items_orEmpty _)).mpr ?_))
  rw [List.mapM_map]
  refine (succeeds_bind_ok (Fallible.mapM_eq_ok fun entry _ => rfl)).mpr ?_
  refine succeeds_bind (succeeds_mapM_iff.mpr fun entry h => ?_) fun lines => succeeds_ok _
  obtain ⟨e, -, rfl⟩ := List.mem_map.mp ((List.mem_insertionSort _).mp h)
  exact succeeds_printLevel fmt _ _ _ _ _ _

theorem succeeds_printDrift :
    Succeeds (fmt.printDrift (summarizeE3 env runs inventory integrity)) := by
  refine (succeeds_bind_ok rfl).mpr ((succeeds_bind_ok rfl).mpr ?_)
  split
  · exact succeeds_ok _
  · refine (succeeds_bind_ok rfl).mpr ((succeeds_bind_ok rfl).mpr ((succeeds_bind_ok rfl).mpr
      ((succeeds_bind_ok rfl).mpr ((succeeds_bind_ok (items_orEmpty _)).mpr
        (succeeds_bind ?_ fun lines => succeeds_ok _)))))
    refine succeeds_mapM_iff.mpr fun entry h => ?_
    obtain ⟨name, -, hentry⟩ := List.mem_filterMap.mp h
    split at hentry
    · exact absurd hentry nofun
    · obtain rfl := Option.some.inj hentry
      exact ⟨_, rfl⟩

theorem succeeds_printDerived :
    Succeeds (fmt.printDerived (summarizeE3 env runs inventory integrity)) := by
  refine (succeeds_bind_ok rfl).mpr ((succeeds_bind_ok rfl).mpr
    (succeeds_bind ?_ fun lines => succeeds_ok _))
  refine succeeds_mapM_iff.mpr fun entry h => ?_
  have item : ∀ meanRtt medians name,
      Succeeds (fmt.printDerivedTopology (.text name, derivedItem meanRtt medians)) := by
    intro meanRtt medians name
    exact (succeeds_bind_ok rfl).mpr ((succeeds_bind_ok (items_orEmpty _)).mpr ⟨_, rfl⟩)
  rcases List.mem_pair.mp h with rfl | rfl
  · exact item _ _ _
  · exact item _ _ _

/-! ## The part that is not -/

theorem succeeds_printDiagnostics_iff :
    Succeeds (fmt.printDiagnostics (summarizeE3 env runs inventory integrity)) ↔
      ∀ run ∈ runs, run.workloadEpisodes = 0 := by
  refine (succeeds_bind_ok rfl).trans ((succeeds_bind_ok rfl).trans ((succeeds_bind_ok rfl).trans
    ((succeeds_bind_ok rfl).trans ((succeeds_bind_ok rfl).trans ((succeeds_bind_ok rfl).trans
      ((succeeds_bind_ok rfl).trans ?_))))))
  refine (succeeds_bind_iff fun lines => iff_true_intro (succeeds_ok _)).trans
    ((and_iff_left trivial).trans (succeeds_mapM_iff.trans ?_))
  refine ⟨fun h run hrun => ?_, fun h entry hentry => ?_⟩
  · by_contra hne
    have hmem : run ∈ runs.filter fun r => r.workloadEpisodes ≠ 0 :=
      List.mem_filter.mpr ⟨hrun, decide_eq_true hne⟩
    have hline := h _ (List.mem_map_of_mem hmem)
    rw [printLiveRecovery_liveRecoveryItem] at hline
    exact not_succeeds_error _ hline
  · obtain ⟨run, hmem, -⟩ := List.mem_map.mp hentry
    obtain ⟨hrun, hne⟩ := List.mem_filter.mp hmem
    exact absurd (h run hrun) (of_decide_eq_true hne)

/-- **The report is printed exactly when no run had an episode of workload recovery.** -/
theorem printE3_succeeds_iff :
    Succeeds (printE3 fmt (summarizeE3 env runs inventory integrity)) ↔
      ∀ run ∈ runs, run.workloadEpisodes = 0 := by
  obtain ⟨inventoryLines, hinventory⟩ := succeeds_printInventory fmt env runs inventory integrity
  obtain ⟨runLines, hruns⟩ := succeeds_printRuns fmt env runs inventory integrity
  obtain ⟨inputLines, hinputs⟩ := succeeds_printInputIntegrity fmt env runs inventory integrity
  obtain ⟨failureLines, hfailures⟩ :=
    succeeds_printAgentSendFailures fmt env runs inventory integrity
  obtain ⟨latencyLines, hlatency⟩ := succeeds_printLatency fmt env runs inventory integrity
  obtain ⟨throughputLines, hthroughput⟩ :=
    succeeds_printThroughput fmt env runs inventory integrity
  refine (succeeds_bind_ok hinventory).trans ((succeeds_bind_ok hruns).trans
    ((succeeds_bind_ok hinputs).trans ((succeeds_bind_ok hfailures).trans
      ((succeeds_bind_ok hlatency).trans ((succeeds_bind_ok hthroughput).trans ?_)))))
  rw [← succeeds_printDiagnostics_iff fmt env runs inventory integrity]
  refine (succeeds_bind_iff fun diagnostics => iff_true_intro ?_).trans (and_iff_left trivial)
  exact succeeds_bind (succeeds_printDrift fmt env runs inventory integrity) fun drift =>
    succeeds_bind (succeeds_printDerived fmt env runs inventory integrity) fun derived =>
      succeeds_ok _

end Parts

/-! ## A run with an episode -/

/-- A federated run with one interaction, whose sender recovered once. -/
def recoveredRun : AnalysedRun where
  runId := "r1".toList
  workload := latencyWorkload
  topology := topologyFederated
  blockId := "lat-block00".toList
  concurrency := 1
  campaignId := "e3".toList
  valid := true
  invalidClass := none
  windowStartNs := none
  windowEndNs := none
  records :=
    [{ raw :=
        { phase := some "measured".toList
          outcome := some "success".toList
          initiatedMonotonicNs := 0
          completedMonotonicNs := some 7000000
          windowStartNs := none
          windowEndNs := none }
       liveRecoveryEpisode := some 1
       sendErrcode := none
       duplicateAckCount := some (some 0) }]
  manifest :=
    { senderTransportDiagnostics := some ⟨some 1, some 1, none, some 0⟩
      agentTransportDiagnostics := some ⟨some 0, some 0, some 0, some 0⟩
      startTimestamp := some "2026-01-01T00:00:00Z".toList
      senderJoinedRooms := some 2
      loadAverage := .none
      agentTelemetryStream := none }

/-- Its analysis ends with a `KeyError`, not with a verdict. -/
theorem recoveredRun_not_printed :
    printE3 ⟨fun _ => [], fun _ => [], fun _ => []⟩
      (summarizeE3 ⟨95 / 100, fun _ => [], id, fun _ => none⟩ [recoveredRun] .empty
        ⟨1, 9, 1, [], []⟩) = .error (.key .agentRecoveryEpisodes) := by
  decide +kernel

end Report
end Analysis
end FederatedMessaging
