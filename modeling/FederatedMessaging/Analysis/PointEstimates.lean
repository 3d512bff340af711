import FederatedMessaging.Analysis.Pairing

/-!
# Two ways to one estimate

The descriptive summaries of `fam.analysis.e3` pool the valid runs of a topology; the
paired bootstrap pools the runs of its blocks, in the order of the blocks, and resamples
them.  Both report the same statistics, and this file proves that they report the same
values.

## 1.  Statistics

`percentile` is nearest rank on a sorted sample and `median` the sample median; both
are functions of the sample as a multiset once it is sorted.  Floats are rationals.

## 2.  The two paths

`latencySummary` and `throughputSummary` are one topology's entry of the two summaries.
The bootstraps take the resampled positions as a parameter, `draws`, where the source
draws them from `random.Random(seed)`: nothing below depends on them.

## 3.  Why they agree

In a population of which no block is incomplete, and in which no block repeats a
topology, the local runs of the blocks are the valid local runs, in another order
(`localRuns_perm`).  Sorting forgets the order, so the two pools are one list.
-/

namespace FederatedMessaging
namespace Analysis

open PythonText

/-! ## 1.  Statistics -/

/-- `percentile`. -/
def percentile (sortedValues : List ℚ) (q : ℚ) : Option ℚ :=
  if sortedValues = [] then none
  else
    let rank := max 1 ⌈q * sortedValues.length⌉
    sortedValues[(min rank sortedValues.length - 1).toNat]?

/-- `sorted`, on numbers. -/
def sortedValues (values : List ℚ) : List ℚ := values.insertionSort fun x y => x ≤ y

/-- `median`. -/
def median (values : List ℚ) : Option ℚ :=
  let ordered := sortedValues values
  let middle := ordered.length / 2
  if ordered = [] then none
  else if ordered.length % 2 ≠ 0 then ordered[middle]?
  else do
    let below ← ordered[middle - 1]?
    let above ← ordered[middle]?
    some ((below + above) / 2)

/-- `round(x, 6)`. -/
def round6 (x : ℚ) : ℚ := roundHalfEven (x * 10 ^ 6) / 10 ^ 6

/-- `_ns_to_ms`. -/
def nsToMs (value : Option ℚ) : Option ℚ := value.map fun v => round4 (v / 10 ^ 6)

theorem sortedValues_eq_of_perm {l l' : List ℚ} (h : l.Perm l') :
    sortedValues l = sortedValues l' :=
  List.Perm.eq_of_pairwise (fun _ _ _ _ => le_antisymm) (List.pairwise_insertionSort _ l)
    (List.pairwise_insertionSort _ l')
    ((List.perm_insertionSort _ l).trans (h.trans (List.perm_insertionSort _ l').symm))

/-- A median does not depend on the order of its sample. -/
theorem median_eq_of_perm {l l' : List ℚ} (h : l.Perm l') : median l = median l' := by
  unfold median
  rw [sortedValues_eq_of_perm h]

/-- `E3_BOOTSTRAP_CONFIDENCE`. -/
def e3BootstrapConfidence : ℚ := 95 / 100

/-- What `_interval` builds. -/
structure Interval where
  low : Option ℚ
  high : Option ℚ
  deriving DecidableEq

/-- `_interval`. -/
def confidenceInterval (values : List ℚ) (confidence : ℚ) : Interval :=
  let ordered := sortedValues values
  let tail := (1 - confidence) / 2
  ⟨percentile ordered tail, percentile ordered (1 - tail)⟩

/-- A conversion of both ends. -/
def Interval.map (f : Option ℚ → Option ℚ) (i : Interval) : Interval := ⟨f i.low, f i.high⟩

/-- `_round_interval`. -/
def roundInterval (i : Interval) : Interval := i.map (Option.map round4)

/-- `rtts_ns`. -/
def RunRecords.rttsNs (run : RunRecords) : List ℚ :=
  sortedValues ((run.measured.filter (·.isSuccess)).filterMap fun r =>
    r.completedMonotonicNs.map fun completed => ((completed - r.initiatedMonotonicNs : ℤ) : ℚ))

/-- The pool of the interactions of some runs. -/
def pooled (source : List (List ℚ)) : List ℚ := sortedValues source.flatten

theorem pooled_eq_of_perm {source source' : List (List ℚ)} (h : source.Perm source') :
    pooled source = pooled source' :=
  sortedValues_eq_of_perm h.flatten

/-! ## 2.  The two paths -/

/-- A value for either topology. -/
structure ByTopology (α : Type) where
  localValue : α
  federatedValue : α

/-- The entry of one topology in `latency_topology_summary`. -/
structure LatencySummary where
  runs : ℕ
  initiatedInteractions : ℕ
  successfulInteractions : ℕ
  failuresByCategory : OrderedDict Text ℕ
  failureRate : Option ℚ
  p50Ms : Option ℚ
  p95Ms : Option ℚ
  p99Ms : Option ℚ
  meanMs : Option ℚ
  minMs : Option ℚ
  maxMs : Option ℚ

/-- `"unknown"`. -/
def unknownOutcome : Text := ['u', 'n', 'k', 'n', 'o', 'w', 'n']

/-- The failures among measured interactions, by their outcome. -/
def failuresByCategory (records : List RawRecord) : OrderedDict Text ℕ :=
  records.foldl (fun failures r =>
    let outcome := r.outcome.getD unknownOutcome
    if outcome ≠ success then failures.set outcome ((failures.get? outcome).getD 0 + 1)
    else failures) .empty

/-- The mean of a sample, as the summary reports it. -/
def meanMs (values : List ℚ) : Option ℚ :=
  if values = [] then none else some (round4 (values.sum / values.length / 10 ^ 6))

/-- The body of the loop of `latency_topology_summary`. -/
def latencySummary (runs : List RunRecords) (name : Text) : LatencySummary :=
  let selected := runs.filter fun r =>
    r.workload = latencyWorkload ∧ r.topology = name ∧ r.valid = true
  let pool := pooled (selected.map RunRecords.rttsNs)
  let measured := selected.flatMap RunRecords.measured
  { runs := selected.length
    initiatedInteractions := measured.length
    successfulInteractions := pool.length
    failuresByCategory := failuresByCategory measured
    failureRate :=
      if measured = [] then none
      else some (round6 (((measured.length - pool.length : ℤ) : ℚ) / measured.length))
    p50Ms := nsToMs (percentile pool (50 / 100))
    p95Ms := nsToMs (percentile pool (95 / 100))
    p99Ms := nsToMs (percentile pool (99 / 100))
    meanMs := meanMs pool
    minMs := nsToMs pool.head?
    maxMs := nsToMs pool.getLast? }

/-- `latency_topology_summary`. -/
def latencyTopologySummary (runs : List RunRecords) : ByTopology LatencySummary :=
  ⟨latencySummary runs topologyLocal, latencySummary runs topologyFederated⟩

/-- The entry of one topology in `throughput_topology_summary`. -/
structure ThroughputSummary where
  runs : ℕ
  observedThroughputRuns : List ℚ
  medianObservedThroughputPerSecond : Option ℚ
  minPerSecond : Option ℚ
  maxPerSecond : Option ℚ
  meanFailureRate : Option ℚ
  stationarity : List (Option Stationarity)
  boundaryDiagnostics : List (Option BoundaryDiagnostics)

/-- The body of the loop of `throughput_topology_summary`. -/
def throughputSummary (runs : List RunRecords) (concurrency : ℕ) (name : Text) :
    ThroughputSummary :=
  let selected := runs.filter fun r => r.workload = throughputWorkload ∧ r.topology = name ∧
    r.concurrency = concurrency ∧ r.valid = true
  let ordered := sortedValues (selected.filterMap RunRecords.observedThroughput)
  let failureRates := selected.filterMap RunRecords.failureRate
  { runs := selected.length
    observedThroughputRuns := ordered.map round4
    medianObservedThroughputPerSecond := (median ordered).map round4
    minPerSecond := ordered.head?.map round4
    maxPerSecond := ordered.getLast?.map round4
    meanFailureRate :=
      if failureRates = [] then none else some (round6 (failureRates.sum / failureRates.length))
    stationarity := selected.map RunRecords.stationarity
    boundaryDiagnostics := selected.map RunRecords.boundaryDiagnostics }

/-- `throughput_topology_summary`. -/
def throughputTopologySummary (runs : List RunRecords) (concurrency : ℕ) :
    ByTopology ThroughputSummary :=
  ⟨throughputSummary runs concurrency topologyLocal,
    throughputSummary runs concurrency topologyFederated⟩

/-- The statistics of the replicates of one quantity. -/
structure ReplicateStats where
  localValues : List ℚ
  federatedValues : List ℚ
  differences : List ℚ
  ratios : List ℚ

/-- The statistics of pairs of replicate values. -/
def ReplicateStats.ofPairs (pairs : List (ℚ × ℚ)) : ReplicateStats :=
  { localValues := pairs.map Prod.fst
    federatedValues := pairs.map Prod.snd
    differences := pairs.map fun pair => pair.2 - pair.1
    ratios := pairs.filterMap fun pair => if pair.1 ≠ 0 then some (pair.2 / pair.1) else none }

/-- The entry of one percentile. -/
structure PercentileEstimate where
  localMs : Option ℚ
  federatedMs : Option ℚ
  differenceMs : Option ℚ
  ratio : Option ℚ
  localCiMs : Interval
  federatedCiMs : Interval
  differenceCiMs : Interval
  ratioCi : Interval

/-- A number where Python tests its truth: zero counts as absent. -/
def nonzero (value : Option ℚ) : Option ℚ := value.filter (· ≠ 0)

/-- The items of a list at the drawn positions. -/
def drawn {α : Type} (source : List α) (indices : List ℕ) : List α :=
  indices.filterMap fun i => source[i]?

/-- The part of `paired_bootstrap_latency` that is about one quantile. -/
def percentileEstimate (confidence : ℚ) (draws : List (List ℕ))
    (localSorted federatedSorted : List (List ℚ)) (q : ℚ) : PercentileEstimate :=
  let localPoint := percentile (pooled localSorted) q
  let federatedPoint := percentile (pooled federatedSorted) q
  let stats := ReplicateStats.ofPairs (draws.filterMap fun indices => do
    let lo ← percentile (pooled (drawn localSorted indices)) q
    let fe ← percentile (pooled (drawn federatedSorted indices)) q
    some (lo, fe))
  { localMs := nsToMs localPoint
    federatedMs := nsToMs federatedPoint
    differenceMs := nsToMs (do some ((← federatedPoint) - (← localPoint)))
    ratio := (nonzero (do some ((← federatedPoint) / (← nonzero localPoint)))).map round4
    localCiMs := (confidenceInterval stats.localValues confidence).map nsToMs
    federatedCiMs := (confidenceInterval stats.federatedValues confidence).map nsToMs
    differenceCiMs := (confidenceInterval stats.differences confidence).map nsToMs
    ratioCi := roundInterval (confidenceInterval stats.ratios confidence) }

/-- The result of `paired_bootstrap_latency`. -/
structure LatencyBootstrap where
  blocks : ℕ
  localMeasuredInteractions : ℕ
  federatedMeasuredInteractions : ℕ
  p50 : PercentileEstimate
  p95 : PercentileEstimate
  p99 : PercentileEstimate

/-- `paired_bootstrap_latency`, at its default quantiles; `none` is the empty
dictionary. -/
def pairedBootstrapLatency (confidence : ℚ) (draws : List (List ℕ)) (blocks : List PairedBlock) :
    Option LatencyBootstrap :=
  if blocks.isEmpty then none
  else
    let localSorted := blocks.map fun block => block.localRun.rttsNs
    let federatedSorted := blocks.map fun block => block.federatedRun.rttsNs
    some
      { blocks := blocks.length
        localMeasuredInteractions := (pooled localSorted).length
        federatedMeasuredInteractions := (pooled federatedSorted).length
        p50 := percentileEstimate confidence draws localSorted federatedSorted (50 / 100)
        p95 := percentileEstimate confidence draws localSorted federatedSorted (95 / 100)
        p99 := percentileEstimate confidence draws localSorted federatedSorted (99 / 100) }

/-- The result of `paired_bootstrap_throughput`. -/
structure ThroughputBootstrap where
  blocks : ℕ
  localPerSecond : ℚ
  federatedPerSecond : ℚ
  differencePerSecond : ℚ
  ratio : Option ℚ
  localCi : Interval
  federatedCi : Interval
  differenceCi : Interval
  ratioCi : Interval
  localRunThroughputs : List ℚ
  federatedRunThroughputs : List ℚ

/-- The throughputs of a block both runs of which have one. -/
def PairedBlock.throughputs (block : PairedBlock) : Option (ℚ × ℚ) := do
  let lo ← block.localRun.observedThroughput
  let fe ← block.federatedRun.observedThroughput
  some (lo, fe)

/-- `paired_bootstrap_throughput`; `none` is the empty dictionary, and the positions are
those among the usable blocks. -/
def pairedBootstrapThroughput (confidence : ℚ) (draws : List (List ℕ))
    (blocks : List PairedBlock) : Option ThroughputBootstrap := do
  let usable := blocks.filterMap PairedBlock.throughputs
  let pointLocal ← median (usable.map Prod.fst)
  let pointFederated ← median (usable.map Prod.snd)
  let stats := ReplicateStats.ofPairs (draws.filterMap fun indices => do
    let lo ← median ((drawn usable indices).map Prod.fst)
    let fe ← median ((drawn usable indices).map Prod.snd)
    some (lo, fe))
  some
    { blocks := usable.length
      localPerSecond := round4 pointLocal
      federatedPerSecond := round4 pointFederated
      differencePerSecond := round4 (pointFederated - pointLocal)
      ratio := if pointLocal ≠ 0 then some (round4 (pointFederated / pointLocal)) else none
      localCi := roundInterval (confidenceInterval stats.localValues confidence)
      federatedCi := roundInterval (confidenceInterval stats.federatedValues confidence)
      differenceCi := roundInterval (confidenceInterval stats.differences confidence)
      ratioCi := roundInterval (confidenceInterval stats.ratios confidence)
      localRunThroughputs := (usable.map Prod.fst).map round4
      federatedRunThroughputs := (usable.map Prod.snd).map round4 }

/-! ## 3.  Why they agree -/

/-- **A population the comparison can be made over**: no block has two runs under one
topology, the topologies are the two that are compared, and there is a block and none that
is incomplete. -/
structure Regular (population : List RunRecords) : Prop where
  distinct : NoRepeats population
  topologies : ∀ run ∈ population,
    run.topology = topologyLocal ∨ run.topology = topologyFederated
  nonempty : population ≠ []
  complete : incompleteBlocks population = []

theorem Regular.of_perm {population population' : List RunRecords}
    (h : population.Perm population') (hregular : Regular population) : Regular population' where
  distinct :=
    (h.map fun run : RunRecords => (run.blockId, run.topology)).nodup_iff.mp hregular.distinct
  topologies := fun run hrun => hregular.topologies run (h.mem_iff.mpr hrun)
  nonempty := fun hnil => hregular.nonempty (List.perm_nil.mp (hnil ▸ h))
  complete := by
    rw [incompleteBlocks_eq_nil_iff]
    intro run hrun topology
    rw [← (incompleteBlocks_eq_nil_iff population).mp hregular.complete run
      (h.mem_iff.mpr hrun) topology]
    constructor
    · rintro ⟨run', hrun', hof⟩
      exact ⟨run', h.mem_iff.mpr hrun', hof⟩
    · rintro ⟨run', hrun', hof⟩
      exact ⟨run', h.mem_iff.mp hrun', hof⟩

/-- The valid runs of a topology. -/
def validRuns (population : List RunRecords) (topology : Text) : List RunRecords :=
  population.filter fun run => run.topology = topology ∧ run.valid = true

theorem validRuns_perm {population population' : List RunRecords}
    (h : population.Perm population') (topology : Text) :
    (validRuns population topology).Perm (validRuns population' topology) :=
  h.filter _

section Blocks

variable {population : List RunRecords}

/-- The blocks of a comparison are distinct. -/
theorem nodup_blockIds (population : List RunRecords) :
    ((pairBlocks population).map PairedBlock.blockId).Nodup := by
  unfold pairBlocks
  have hkeys : (((groupRuns population).entries.insertionSort fun x y => x.1 ≤ y.1).map
      Prod.fst).Nodup :=
    ((List.perm_insertionSort _ _).map Prod.fst).nodup_iff.mpr (groupRuns population).nodup
  refine List.Nodup.sublist ?_ hkeys
  generalize ((groupRuns population).entries.insertionSort fun x y => x.1 ≤ y.1) = entries
  induction entries with
  | nil => exact List.Sublist.refl _
  | cons entry entries ih =>
    rw [List.filterMap_cons, List.map_cons]
    split
    · exact ih.cons _
    · rename_i block hblock
      have hid : block.blockId = entry.1 := by
        split at hblock
        · rw [← Option.some_inj.mp hblock]
        · cases hblock
      rw [List.map_cons, hid]
      exact ih.cons_cons _

/-- A filed run is a valid run of the population. -/
theorem mem_of_filedRun {run : RunRecords} {blockId topology : Text}
    (h : filedRun (groupRuns population) blockId topology = some run) :
    run ∈ population ∧ run.valid = true ∧ run.blockId = blockId ∧ run.topology = topology := by
  rw [filedRun_groupRuns] at h
  obtain ⟨hmem, hof⟩ := List.mem_filter.mp (List.mem_of_getLast? h)
  exact ⟨hmem, isOf_iff.mp hof⟩

/-- Both runs of a block of the population are filed. -/
theorem Regular.exists_filedRun (hregular : Regular population) {run : RunRecords}
    (hrun : run ∈ population) {topology : Text}
    (htopology : topology = topologyLocal ∨ topology = topologyFederated) :
    ∃ filed, filedRun (groupRuns population) run.blockId topology = some filed := by
  obtain ⟨filed, hfiled, hof⟩ :=
    ((incompleteBlocks_eq_nil_iff population).mp hregular.complete run hrun topology).mpr htopology
  obtain ⟨hvalid, hblock, rfl⟩ := isOf_iff.mp hof
  exact ⟨filed, hblock ▸ filedRun_of_mem hregular.distinct hfiled hvalid⟩

/-- **The runs of the blocks are the valid runs**, on either side, in another order. -/
theorem Regular.side_perm (hregular : Regular population) {topology : Text}
    {side : PairedBlock → RunRecords}
    (htopology : topology = topologyLocal ∨ topology = topologyFederated)
    (hside : ∀ block ∈ pairBlocks population,
      filedRun (groupRuns population) block.blockId topology = some (side block)) :
    ((pairBlocks population).map side).Perm (validRuns population topology) := by
  have hblocks : ((pairBlocks population).map side).Nodup := by
    refine List.Nodup.of_map RunRecords.blockId ?_
    have hids : (pairBlocks population).map (RunRecords.blockId ∘ side) =
        (pairBlocks population).map PairedBlock.blockId :=
      List.map_congr_left fun block hblock => (mem_of_filedRun (hside block hblock)).2.2.1
    rw [List.map_map, hids]
    exact nodup_blockIds population
  have hruns : (validRuns population topology).Nodup :=
    (List.Nodup.of_map _ hregular.distinct).filter _
  refine (List.perm_ext_iff_of_nodup hblocks hruns).mpr fun run => ?_
  unfold validRuns
  rw [List.mem_map, List.mem_filter, decide_eq_true_iff]
  constructor
  · rintro ⟨block, hblock, rfl⟩
    obtain ⟨hmem, hvalid, -, htopo⟩ := mem_of_filedRun (hside block hblock)
    exact ⟨hmem, htopo, hvalid⟩
  · rintro ⟨hrun, rfl, hvalid⟩
    -- the run is filed, so the block that has both topologies has it
    obtain ⟨localRun, hlocal⟩ := hregular.exists_filedRun hrun (Or.inl rfl)
    obtain ⟨federatedRun, hfederated⟩ := hregular.exists_filedRun hrun (Or.inr rfl)
    have hblock : (⟨run.blockId, localRun, federatedRun⟩ : PairedBlock) ∈ pairBlocks population :=
      mem_pairBlocks.mpr ⟨hlocal, hfederated⟩
    have hself := filedRun_of_mem hregular.distinct hrun hvalid
    exact ⟨_, hblock, Option.some_inj.mp ((hside _ hblock).symm.trans hself)⟩

theorem Regular.localRuns_perm (hregular : Regular population) :
    ((pairBlocks population).map PairedBlock.localRun).Perm
      (validRuns population topologyLocal) :=
  hregular.side_perm (Or.inl rfl) fun _ hblock => (mem_pairBlocks.mp hblock).1

theorem Regular.federatedRuns_perm (hregular : Regular population) :
    ((pairBlocks population).map PairedBlock.federatedRun).Perm
      (validRuns population topologyFederated) :=
  hregular.side_perm (Or.inr rfl) fun _ hblock => (mem_pairBlocks.mp hblock).2

/-- A population with a block has a comparison. -/
theorem Regular.pairBlocks_ne_nil (hregular : Regular population) : pairBlocks population ≠ [] := by
  obtain ⟨run, hrun⟩ := List.exists_mem_of_ne_nil _ hregular.nonempty
  obtain ⟨localRun, hlocal⟩ := hregular.exists_filedRun hrun (Or.inl rfl)
  obtain ⟨federatedRun, hfederated⟩ := hregular.exists_filedRun hrun (Or.inr rfl)
  have hblock : (⟨run.blockId, localRun, federatedRun⟩ : PairedBlock) ∈ pairBlocks population :=
    mem_pairBlocks.mpr ⟨hlocal, hfederated⟩
  exact List.ne_nil_of_mem hblock

end Blocks

/-! ### Latency -/

/-- A summary and a bootstrap report one count and the same percentiles. -/
structure LatencySummary.SameAs (summary : LatencySummary) (interactions : ℕ)
    (p50 p95 p99 : Option ℚ) : Prop where
  interactions : summary.successfulInteractions = interactions
  p50 : summary.p50Ms = p50
  p95 : summary.p95Ms = p95
  p99 : summary.p99Ms = p99

/-- Both topologies of the latency comparison agree. -/
def LatencyAgrees (summary : ByTopology LatencySummary) (b : LatencyBootstrap) : Prop :=
  summary.localValue.SameAs b.localMeasuredInteractions b.p50.localMs b.p95.localMs b.p99.localMs ∧
    summary.federatedValue.SameAs b.federatedMeasuredInteractions b.p50.federatedMs
      b.p95.federatedMs b.p99.federatedMs

theorem filter_latencySummary (runs : List RunRecords) (name : Text) :
    (runs.filter fun r => r.workload = latencyWorkload ∧ r.topology = name ∧ r.valid = true) =
      validRuns (latencyRuns runs) name := by
  unfold validRuns latencyRuns
  rw [List.filter_filter]
  refine List.filter_congr fun run _ => ?_
  simp only [← Bool.decide_and]
  congr 1
  exact propext (by tauto)

/-- What a summary reports of a pool that has the runs in another order. -/
theorem latencySummary_sameAs {runs blockRuns : List RunRecords} {name : Text}
    (h : blockRuns.Perm (validRuns (latencyRuns runs) name)) :
    (latencySummary runs name).SameAs (pooled (blockRuns.map RunRecords.rttsNs)).length
      (nsToMs (percentile (pooled (blockRuns.map RunRecords.rttsNs)) (50 / 100)))
      (nsToMs (percentile (pooled (blockRuns.map RunRecords.rttsNs)) (95 / 100)))
      (nsToMs (percentile (pooled (blockRuns.map RunRecords.rttsNs)) (99 / 100))) := by
  have hpool : pooled (blockRuns.map RunRecords.rttsNs) =
      pooled ((runs.filter fun r => r.workload = latencyWorkload ∧ r.topology = name ∧
        r.valid = true).map RunRecords.rttsNs) := by
    rw [filter_latencySummary]
    exact pooled_eq_of_perm (h.map _)
  rw [hpool]
  exact ⟨rfl, rfl, rfl, rfl⟩

theorem latency_agrees {runs runs' : List RunRecords} (hperm : runs.Perm runs')
    (hregular : Regular (latencyRuns runs)) (confidence : ℚ) (draws : List (List ℕ)) :
    ∃ b, pairedBootstrapLatency confidence draws (pairBlocks (latencyRuns runs')) = some b ∧
      LatencyAgrees (latencyTopologySummary runs) b := by
  have hpopulation : (latencyRuns runs).Perm (latencyRuns runs') := hperm.filter _
  have hregular' := hregular.of_perm hpopulation
  have hlocal := hregular'.localRuns_perm.trans (validRuns_perm hpopulation.symm _)
  have hfederated := hregular'.federatedRuns_perm.trans (validRuns_perm hpopulation.symm _)
  unfold pairedBootstrapLatency
  rw [if_neg (by rw [List.isEmpty_iff]; exact hregular'.pairBlocks_ne_nil)]
  refine ⟨_, rfl, ?_, ?_⟩
  · have h := latencySummary_sameAs hlocal
    rw [List.map_map] at h
    exact h
  · have h := latencySummary_sameAs hfederated
    rw [List.map_map] at h
    exact h

/-! ### Throughput -/

/-- The window of a run is not empty. -/
def RunRecords.HasWindow (run : RunRecords) : Prop :=
  ∃ windowStart windowEnd, run.windowStartNs = some windowStart ∧
    run.windowEndNs = some windowEnd ∧ windowStart < windowEnd

/-- Both topologies of a throughput comparison agree. -/
def ThroughputAgrees (summary : ByTopology ThroughputSummary) (b : ThroughputBootstrap) : Prop :=
  summary.localValue.medianObservedThroughputPerSecond = some b.localPerSecond ∧
    summary.federatedValue.medianObservedThroughputPerSecond = some b.federatedPerSecond

theorem RunRecords.HasWindow.observedThroughput {run : RunRecords} (h : run.HasWindow) :
    ∃ value, run.observedThroughput = some value := by
  obtain ⟨windowStart, windowEnd, hstart, hend, hlt⟩ := h
  unfold RunRecords.observedThroughput
  rw [hstart, hend]
  exact ⟨_, if_neg (not_le.mpr hlt)⟩

theorem median_sortedValues (values : List ℚ) : median (sortedValues values) = median values :=
  median_eq_of_perm (List.perm_insertionSort _ values)

/-- A sample that is not empty has a median. -/
theorem exists_median {values : List ℚ} (h : values ≠ []) : ∃ m, median values = some m := by
  have hpos : 0 < (sortedValues values).length := by
    unfold sortedValues
    rw [List.length_insertionSort]
    exact List.length_pos_iff.mpr h
  unfold median
  dsimp only
  rw [if_neg (List.length_pos_iff.mp hpos)]
  split_ifs
  · exact ⟨_, List.getElem?_eq_getElem (by omega)⟩
  · rw [List.getElem?_eq_getElem (by omega : (sortedValues values).length / 2 - 1 < _),
      List.getElem?_eq_getElem (by omega : (sortedValues values).length / 2 < _)]
    exact ⟨_, rfl⟩

/-- When every run has a throughput, the usable blocks are all of them. -/
theorem throughputs_eq {blocks : List PairedBlock}
    (h : ∀ block ∈ blocks, block.localRun.HasWindow ∧ block.federatedRun.HasWindow) :
    (blocks.filterMap PairedBlock.throughputs).map Prod.fst =
        (blocks.map PairedBlock.localRun).filterMap RunRecords.observedThroughput ∧
      (blocks.filterMap PairedBlock.throughputs).map Prod.snd =
        (blocks.map PairedBlock.federatedRun).filterMap RunRecords.observedThroughput := by
  induction blocks with
  | nil => exact ⟨rfl, rfl⟩
  | cons block blocks ih =>
    obtain ⟨hfirst, hsecond⟩ := ih fun b hb => h b (List.mem_cons_of_mem _ hb)
    obtain ⟨hlocal, hfederated⟩ := h block List.mem_cons_self
    obtain ⟨lo, hlo⟩ := hlocal.observedThroughput
    obtain ⟨fe, hfe⟩ := hfederated.observedThroughput
    have hpair : block.throughputs = some (lo, fe) := by
      unfold PairedBlock.throughputs
      rw [hlo, hfe]
      rfl
    rw [List.filterMap_cons_some hpair, List.map_cons, List.map_cons, List.map_cons, List.map_cons,
      List.filterMap_cons_some hlo, List.filterMap_cons_some hfe, hfirst, hsecond]
    exact ⟨rfl, rfl⟩

theorem filter_throughputSummary (runs : List RunRecords) (level : ℕ) (name : Text) :
    (runs.filter fun r => r.workload = throughputWorkload ∧ r.topology = name ∧
      r.concurrency = level ∧ r.valid = true) = validRuns (levelRuns runs level) name := by
  unfold validRuns levelRuns
  rw [List.filter_filter]
  refine List.filter_congr fun run _ => ?_
  simp only [← Bool.decide_and]
  congr 1
  exact propext (by tauto)

/-- The median of a summary is that of the same runs in another order. -/
theorem throughputSummary_median {runs blockRuns : List RunRecords} {level : ℕ} {name : Text}
    (h : blockRuns.Perm (validRuns (levelRuns runs level) name)) :
    (throughputSummary runs level name).medianObservedThroughputPerSecond =
      (median (blockRuns.filterMap RunRecords.observedThroughput)).map round4 := by
  have hmedian : median (blockRuns.filterMap RunRecords.observedThroughput) =
      median ((runs.filter fun r => r.workload = throughputWorkload ∧ r.topology = name ∧
        r.concurrency = level ∧ r.valid = true).filterMap RunRecords.observedThroughput) := by
    rw [filter_throughputSummary]
    exact median_eq_of_perm (h.filterMap _)
  rw [hmedian, ← median_sortedValues]
  rfl

theorem throughput_agrees {runs runs' : List RunRecords} (hperm : runs.Perm runs') {level : ℕ}
    (hregular : Regular (levelRuns runs level))
    (hwindows : ∀ run ∈ levelRuns runs level, run.HasWindow)
    (confidence : ℚ) (draws : List (List ℕ)) :
    ∃ b, pairedBootstrapThroughput confidence draws (pairBlocks (levelRuns runs' level)) = some b ∧
      ThroughputAgrees (throughputTopologySummary runs level) b := by
  have hpopulation : (levelRuns runs level).Perm (levelRuns runs' level) := hperm.filter _
  have hregular' := hregular.of_perm hpopulation
  have hlocal := hregular'.localRuns_perm.trans (validRuns_perm hpopulation.symm _)
  have hfederated := hregular'.federatedRuns_perm.trans (validRuns_perm hpopulation.symm _)
  have hblocks : ∀ block ∈ pairBlocks (levelRuns runs' level),
      block.localRun.HasWindow ∧ block.federatedRun.HasWindow := by
    intro block hblock
    obtain ⟨hfiledLocal, hfiledFederated⟩ := mem_pairBlocks.mp hblock
    exact ⟨hwindows _ (hpopulation.mem_iff.mpr (mem_of_filedRun hfiledLocal).1),
      hwindows _ (hpopulation.mem_iff.mpr (mem_of_filedRun hfiledFederated).1)⟩
  obtain ⟨hfirst, hsecond⟩ := throughputs_eq hblocks
  have husable : ((pairBlocks (levelRuns runs' level)).filterMap PairedBlock.throughputs) ≠ [] := by
    obtain ⟨block, hblock⟩ := List.exists_mem_of_ne_nil _ hregular'.pairBlocks_ne_nil
    obtain ⟨lo, hlo⟩ := (hblocks block hblock).1.observedThroughput
    obtain ⟨fe, hfe⟩ := (hblocks block hblock).2.observedThroughput
    refine List.ne_nil_of_mem (List.mem_filterMap.mpr ⟨block, hblock, (?_ : _ = some (lo, fe))⟩)
    unfold PairedBlock.throughputs
    rw [hlo, hfe]
    rfl
  obtain ⟨pointLocal, hpointLocal⟩ :=
    exists_median fun h => husable ((List.map_eq_nil_iff (f := Prod.fst)).mp h)
  obtain ⟨pointFederated, hpointFederated⟩ :=
    exists_median fun h => husable ((List.map_eq_nil_iff (f := Prod.snd)).mp h)
  unfold pairedBootstrapThroughput
  dsimp only
  rw [hpointLocal, hpointFederated]
  refine ⟨_, rfl, ?_, ?_⟩
  · have h := throughputSummary_median hlocal
    rw [← hfirst, hpointLocal] at h
    exact h
  · have h := throughputSummary_median hfederated
    rw [← hsecond, hpointFederated] at h
    exact h

/-! ### One statistic, one value -/

/-- **One statistic, one value**, whatever the order in which the runs are listed: over
regular populations, with no empty window in the throughput runs, the summaries of a list
of runs report the counts, percentiles and medians that the bootstrap of any reordering of
the list reports. -/
theorem oneStatistic {runs runs' : List RunRecords} (hperm : runs.Perm runs')
    (confidence : ℚ) (draws : List (List ℕ)) :
    (Regular (latencyRuns runs) →
      ∃ b, pairedBootstrapLatency confidence draws (pairBlocks (latencyRuns runs')) = some b ∧
        LatencyAgrees (latencyTopologySummary runs) b) ∧
    ∀ level, Regular (levelRuns runs level) →
      (∀ run ∈ levelRuns runs level, run.HasWindow) →
      ∃ b, pairedBootstrapThroughput confidence draws (pairBlocks (levelRuns runs' level)) =
          some b ∧
        ThroughputAgrees (throughputTopologySummary runs level) b :=
  ⟨fun hregular => latency_agrees hperm hregular confidence draws,
    fun _ hregular hwindows => throughput_agrees hperm hregular hwindows confidence draws⟩

/-- A latency run and a throughput run of one block under either topology. -/
def fourRuns : List RunRecords :=
  [ runOf throughputWorkload topologyFederated,
    { runOf latencyWorkload topologyFederated with
      records := [⟨some (phaseValue .measured), some success, 0, some (9 * 10 ^ 6), none, none⟩] },
    { runOf latencyWorkload topologyLocal with
      records := [⟨some (phaseValue .measured), some success, 0, some (4 * 10 ^ 6), none, none⟩] },
    runOf throughputWorkload topologyLocal ]

/-- The four runs, and the same runs listed backwards, report one value for each statistic. -/
theorem fourRuns_oneStatistic :
    (∃ b, pairedBootstrapLatency e3BootstrapConfidence [[0]]
        (pairBlocks (latencyRuns fourRuns.reverse)) = some b ∧
      LatencyAgrees (latencyTopologySummary fourRuns) b) ∧
    ∃ b, pairedBootstrapThroughput e3BootstrapConfidence [[0]]
        (pairBlocks (levelRuns fourRuns.reverse 8)) = some b ∧
      ThroughputAgrees (throughputTopologySummary fourRuns 8) b := by
  have h := oneStatistic (List.reverse_perm fourRuns).symm e3BootstrapConfidence [[0]]
  refine ⟨h.1 ⟨by decide +kernel, by decide +kernel, by decide +kernel, by decide +kernel⟩,
    h.2 8 ⟨by decide +kernel, by decide +kernel, by decide +kernel, by decide +kernel⟩
      fun run hrun => ?_⟩
  have hwindow : run.windowStartNs = some 0 ∧ run.windowEndNs = some (60 * 10 ^ 9) := by
    revert run
    decide +kernel
  exact ⟨_, _, hwindow.1, hwindow.2, by decide⟩

end Analysis
end FederatedMessaging
