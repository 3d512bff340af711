import FederatedMessaging.Analysis.RunRecords

/-!
# What the analysis reads of the phase label

A record's `phase` is documented as a convenience label that the analysis never reads.  A
relabelling changes nothing else, so two runs that differ by one should have the same
estimates.

## 1.  What the label cannot reach

Counts of records by their outcome and times do not see the label: with them the
throughput and the stationarity of the window.

## 2.  What it reaches

The failure rate of a throughput run is over the records that are not labelled `warmup`,
and the drain counts are over those labelled `drain`.  `Balanced` is what a relabelling has
to keep of these two groups, and `sameEstimates_iff` that it is exactly what is needed.
Only a run with next to nothing in it keeps its estimates under every relabelling
(`sameEstimates_all_iff`).
-/

namespace FederatedMessaging
namespace Analysis

open PythonText Human Benchmark

/-- The run with the label of its `k`-th record set to `label k`, all else unchanged. -/
def RunRecords.relabel (run : RunRecords) (label : ℕ → Option Text) : RunRecords :=
  { run with records := run.records.mapIdx fun k r => { r with phase := label k } }

/-- The four estimators agree on two runs. -/
structure SameEstimates (run run' : RunRecords) : Prop where
  throughput : run.observedThroughput = run'.observedThroughput
  stationarity : run.stationarity = run'.stationarity
  diagnostics : run.boundaryDiagnostics = run'.boundaryDiagnostics
  failureRate : run.failureRate = run'.failureRate

/-! ## 1.  What the label cannot reach -/

theorem countP_mapIdx {α β : Type*} {p : α → Bool} {q : β → Bool} :
    ∀ (l : List α) (f : ℕ → α → β), (∀ k a, q (f k a) = p a) →
      (l.mapIdx f).countP q = l.countP p
  | [], _, _ => rfl
  | a :: l, f, h => by
    rw [List.mapIdx_cons, List.countP_cons, List.countP_cons, h,
      countP_mapIdx l (fun k => f (k + 1)) fun k => h (k + 1)]

section Relabel

variable {run : RunRecords} {label : ℕ → Option Text}

/-- A count that does not read the label is kept. -/
theorem countP_relabel {p : RawRecord → Bool}
    (h : ∀ (r : RawRecord) phase, p { r with phase := phase } = p r) :
    (run.relabel label).records.countP p = run.records.countP p :=
  countP_mapIdx run.records _ fun _ r => h r _

theorem windowStartNs_relabel : (run.relabel label).windowStartNs = run.windowStartNs := rfl

theorem windowEndNs_relabel : (run.relabel label).windowEndNs = run.windowEndNs := rfl

theorem length_countedInWindow :
    (run.relabel label).countedInWindow.length = run.countedInWindow.length := by
  unfold RunRecords.countedInWindow
  rw [windowStartNs_relabel, windowEndNs_relabel]
  cases run.windowStartNs with
  | none => rfl
  | some windowStart =>
    cases run.windowEndNs with
    | none => rfl
    | some windowEnd =>
      dsimp only
      rw [← List.countP_eq_length_filter, ← List.countP_eq_length_filter]
      exact countP_relabel fun r phase => rfl

theorem countP_countedInWindow {p : RawRecord → Bool}
    (h : ∀ (r : RawRecord) phase, p { r with phase := phase } = p r) :
    (run.relabel label).countedInWindow.countP p = run.countedInWindow.countP p := by
  unfold RunRecords.countedInWindow
  rw [windowStartNs_relabel, windowEndNs_relabel]
  cases run.windowStartNs with
  | none => rfl
  | some windowStart =>
    cases run.windowEndNs with
    | none => rfl
    | some windowEnd =>
      dsimp only
      rw [List.countP_filter, List.countP_filter]
      exact countP_relabel fun r phase => by rw [h r phase]; rfl

/-- **The throughput does not depend on the label.** -/
theorem observedThroughput_relabel :
    (run.relabel label).observedThroughput = run.observedThroughput := by
  unfold RunRecords.observedThroughput
  rw [length_countedInWindow]
  rfl

/-- **Neither does the stationarity.** -/
theorem stationarity_relabel : (run.relabel label).stationarity = run.stationarity := by
  have hfirst : ∀ midpoint : ℤ,
      ((run.relabel label).countedInWindow.countP fun r =>
          r.completedMonotonicNs.any (· < midpoint)) =
        run.countedInWindow.countP fun r => r.completedMonotonicNs.any (· < midpoint) :=
    fun midpoint => countP_countedInWindow fun r phase => rfl
  unfold RunRecords.stationarity
  simp only [hfirst, length_countedInWindow]
  rfl

/-! ## 2.  What it reaches -/

/-- The successes, or the others, that are labelled `drain`. -/
def RunRecords.drained (run : RunRecords) (succeeded : Bool) : ℕ :=
  run.records.countP fun r => (r.isSuccess == succeeded) && r.hasPhase .drain

/-- The interactions the failure rate counts. -/
def RunRecords.initiated (run : RunRecords) : ℕ :=
  run.population.countP fun r => r.outcome.all fun o => o ∉ excludedFromFailureRate

/-- Those among them that failed. -/
def RunRecords.failed (run : RunRecords) : ℕ :=
  run.population.countP fun r =>
    (r.outcome.all fun o => o ∉ excludedFromFailureRate) && !r.isSuccess

/-- **What a relabelling has to keep**: with window bounds, how many successes and how many
others are labelled `drain`; and the proportion of failures among the interactions outside
`warmup`, none of which may appear or disappear altogether. -/
structure Balanced (run run' : RunRecords) : Prop where
  drained : run.windowStartNs ≠ none → run.windowEndNs ≠ none →
    ∀ succeeded, run.drained succeeded = run'.drained succeeded
  empty : run.initiated = 0 ↔ run'.initiated = 0
  proportion : run.failed * run'.initiated = run'.failed * run.initiated

theorem failed_le_initiated (run : RunRecords) : run.failed ≤ run.initiated :=
  List.countP_mono_left fun _ _ h => (Bool.and_eq_true_iff.mp h).1

/-- The failure rate, from its two counts. -/
theorem failureRate_eq (run : RunRecords) :
    run.failureRate =
      if run.initiated = 0 then none else some ((run.failed : ℚ) / run.initiated) := by
  unfold RunRecords.failureRate frozenFailureRate RunRecords.initiated RunRecords.failed
  have hlength : ∀ l : List RawRecord,
      ((l.map RawRecord.outcome).filter
          fun o => o.all fun o => o ∉ excludedFromFailureRate).length =
        l.countP fun r => r.outcome.all fun o => o ∉ excludedFromFailureRate := by
    intro l
    rw [← List.countP_eq_length_filter, List.countP_map]
    rfl
  have hfailed : ∀ l : List RawRecord,
      (((l.map RawRecord.outcome).filter fun o => o.all fun o => o ∉ excludedFromFailureRate).countP
        fun o => o ≠ some success) =
        l.countP fun r => (r.outcome.all fun o => o ∉ excludedFromFailureRate) && !r.isSuccess := by
    intro l
    rw [List.countP_filter, List.countP_map]
    refine List.countP_congr fun r _ => ?_
    simp [RawRecord.isSuccess, and_comm]
  dsimp only
  rw [hfailed, hlength]
  simp only [← List.length_eq_zero_iff, hlength]

/-- Two failure rates agree when one is missing exactly when the other is, and the
fractions are equal. -/
theorem failureRate_eq_iff (run run' : RunRecords) :
    run.failureRate = run'.failureRate ↔
      (run.initiated = 0 ↔ run'.initiated = 0) ∧
        run.failed * run'.initiated = run'.failed * run.initiated := by
  rw [failureRate_eq, failureRate_eq]
  have hle := failed_le_initiated run
  have hle' := failed_le_initiated run'
  by_cases h : run.initiated = 0 <;> by_cases h' : run'.initiated = 0
  · rw [if_pos h, if_pos h', h, h']
    simp
  · rw [if_pos h, if_neg h']
    simp [h, h']
  · rw [if_neg h, if_pos h']
    simp [h, h']
  · have hq : (run.initiated : ℚ) ≠ 0 := Nat.cast_ne_zero.mpr h
    have hq' : (run'.initiated : ℚ) ≠ 0 := Nat.cast_ne_zero.mpr h'
    rw [if_neg h, if_neg h', Option.some_inj, div_eq_div_iff hq hq']
    constructor
    · intro heq
      exact ⟨by simp [h, h'], by exact_mod_cast heq⟩
    · rintro ⟨-, heq⟩
      exact_mod_cast heq

/-- The two drain counts. -/
theorem drained_eq (run : RunRecords) (succeeded : Bool) :
    run.drained succeeded =
      (run.records.filter (·.hasPhase .drain)).countP fun r => r.isSuccess == succeeded := by
  rw [List.countP_filter]
  rfl

/-- **The diagnostics see the label through their drain counts only.** -/
theorem boundaryDiagnostics_eq_iff :
    run.boundaryDiagnostics = (run.relabel label).boundaryDiagnostics ↔
      (run.windowStartNs ≠ none → run.windowEndNs ≠ none →
        ∀ succeeded, run.drained succeeded = (run.relabel label).drained succeeded) := by
  unfold RunRecords.boundaryDiagnostics
  rw [length_countedInWindow, windowStartNs_relabel, windowEndNs_relabel]
  cases run.windowStartNs with
  | none => exact iff_of_true rfl fun h => absurd rfl h
  | some windowStart =>
    cases run.windowEndNs with
    | none => exact iff_of_true rfl fun _ h => absurd rfl h
    | some windowEnd =>
      have hcount : ∀ p : RawRecord → Bool,
          (∀ (r : RawRecord) phase, p { r with phase := phase } = p r) →
            (run.relabel label).records.countP p = run.records.countP p :=
        fun p h => countP_relabel h
      have hsuccess : ∀ run : RunRecords, (run.records.filter (·.hasPhase .drain)).countP
          (·.isSuccess) = run.drained true := by
        intro run
        rw [drained_eq]
        simp
      have hfailure : ∀ run : RunRecords, ((run.records.filter (·.hasPhase .drain)).countP
          fun r => !r.isSuccess) = run.drained false := by
        intro run
        rw [drained_eq]
        simp
      dsimp only
      rw [hcount (·.outstandingAt windowStart) fun _ _ => rfl,
        hcount (·.outstandingAt windowEnd) fun _ _ => rfl,
        hcount (fun r => !r.isSuccess && r.completedWithin windowStart windowEnd) fun _ _ => rfl,
        hcount (fun r => r.completedMonotonicNs.isNone &&
          r.outcome != some (outcomeValue .sendError)) fun _ _ => rfl,
        hsuccess, hsuccess, hfailure, hfailure]
      simp only [Option.some_inj, BoundaryDiagnostics.mk.injEq, true_and, and_true,
        Bool.forall_bool,
        ne_eq, reduceCtorEq, not_false_eq_true, forall_const]
      exact and_comm

theorem sameEstimates_iff_balanced :
    SameEstimates run (run.relabel label) ↔ Balanced run (run.relabel label) := by
  constructor
  · intro h
    obtain ⟨hempty, hproportion⟩ := (failureRate_eq_iff _ _).mp h.failureRate
    exact ⟨boundaryDiagnostics_eq_iff.mp h.diagnostics, hempty, hproportion⟩
  · intro h
    exact ⟨observedThroughput_relabel.symm, stationarity_relabel.symm,
      boundaryDiagnostics_eq_iff.mpr h.drained,
      (failureRate_eq_iff _ _).mpr ⟨h.empty, h.proportion⟩⟩

/-! ### Every relabelling -/

/-- All records under one label. -/
theorem hasPhase_relabel_const {phase : RunPhase} {r : RawRecord}
    (hr : r ∈ (run.relabel fun _ => some (phaseValue phase)).records) (phase' : RunPhase) :
    r.hasPhase phase' = decide (phase = phase') := by
  obtain ⟨k, hk, rfl⟩ := List.mem_mapIdx.mp hr
  cases phase <;> cases phase' <;> rfl

theorem drained_relabel_const (phase : RunPhase) (succeeded : Bool) :
    (run.relabel fun _ => some (phaseValue phase)).drained succeeded =
      if phase = .drain then run.records.countP fun r => r.isSuccess == succeeded else 0 := by
  unfold RunRecords.drained
  split_ifs with h
  · have hkept : (run.relabel fun _ => some (phaseValue phase)).records.countP
        (fun r => r.isSuccess == succeeded) =
        run.records.countP fun r => r.isSuccess == succeeded := countP_relabel fun _ _ => rfl
    rw [← hkept]
    refine List.countP_congr fun r hr => ?_
    rw [hasPhase_relabel_const hr, decide_eq_true h, Bool.and_true]
  · refine List.countP_eq_zero.mpr fun r hr => ?_
    rw [hasPhase_relabel_const hr, decide_eq_false h, Bool.and_false]
    exact Bool.false_ne_true

theorem initiated_relabel_const (hworkload : run.workload = throughputWorkload) (phase : RunPhase) :
    (run.relabel fun _ => some (phaseValue phase)).initiated =
      if phase = .warmup then 0
      else run.records.countP fun r => r.outcome.all fun o => o ∉ excludedFromFailureRate := by
  have hpopulation : (run.relabel fun _ => some (phaseValue phase)).population =
      (run.relabel fun _ => some (phaseValue phase)).records.filter
        fun r => !r.hasPhase .warmup := by
    unfold RunRecords.population
    rw [if_neg]
    change run.workload ≠ latencyWorkload
    rw [hworkload]
    decide
  unfold RunRecords.initiated
  rw [hpopulation, List.countP_filter]
  split_ifs with h
  · refine List.countP_eq_zero.mpr fun r hr => ?_
    rw [hasPhase_relabel_const hr, decide_eq_true h]
    simp
  · have hkept : (run.relabel fun _ => some (phaseValue phase)).records.countP
        (fun r => r.outcome.all fun o => o ∉ excludedFromFailureRate) =
        run.records.countP fun r => r.outcome.all fun o => o ∉ excludedFromFailureRate :=
      countP_relabel fun _ _ => rfl
    rw [← hkept]
    refine List.countP_congr fun r hr => ?_
    rw [hasPhase_relabel_const hr, decide_eq_false h]
    simp

/-- The run has no interaction the failure rate could count, and nothing the diagnostics
could count in the drain. -/
structure NothingToLabel (run : RunRecords) : Prop where
  offline : ∀ r ∈ run.records, r.outcome = some (outcomeValue .offlineSend)
  unbounded : run.records = [] ∨ run.windowStartNs = none ∨ run.windowEndNs = none

/-- An outcome the failure rate does not count. -/
theorem outcome_excluded_iff (r : RawRecord) :
    (r.outcome.all fun o => o ∉ excludedFromFailureRate) = false ↔
      r.outcome = some (outcomeValue .offlineSend) := by
  cases r.outcome <;> simp [excludedFromFailureRate]

/-- With nothing but offline sends, no relabelling has a failure rate. -/
theorem initiated_eq_zero (h : ∀ r ∈ run.records, r.outcome = some (outcomeValue .offlineSend)) :
    run.initiated = 0 := by
  refine List.countP_eq_zero.mpr fun r hr => ?_
  have hmem : r ∈ run.records := by
    unfold RunRecords.population RunRecords.measured at hr
    split_ifs at hr <;> exact List.mem_of_mem_filter hr
  rw [(outcome_excluded_iff r).mpr (h r hmem)]
  exact Bool.false_ne_true

theorem sameEstimates_all_iff (hworkload : run.workload = throughputWorkload) :
    (∀ label, SameEstimates run (run.relabel label)) ↔ NothingToLabel run := by
  constructor
  · intro h
    have hwarmup := sameEstimates_iff_balanced.mp (h fun _ => some (phaseValue .warmup))
    have hwindow := sameEstimates_iff_balanced.mp (h fun _ => some (phaseValue .window))
    have hdrain := sameEstimates_iff_balanced.mp (h fun _ => some (phaseValue .drain))
    have hnone : run.initiated = 0 :=
      hwarmup.empty.mpr (initiated_relabel_const hworkload .warmup)
    have hcounted : (run.records.countP fun r =>
        r.outcome.all fun o => o ∉ excludedFromFailureRate) = 0 :=
      (initiated_relabel_const hworkload .window).symm.trans (hwindow.empty.mp hnone)
    refine ⟨fun r hr => ?_, ?_⟩
    · refine (outcome_excluded_iff r).mp ?_
      exact eq_false_of_ne_true (List.countP_eq_zero.mp hcounted r hr)
    · by_contra hbounded
      rw [not_or, not_or] at hbounded
      obtain ⟨hrecords, hstart, hend⟩ := hbounded
      -- nobody in the drain, and everybody
      have hboth : ∀ succeeded, (run.records.countP fun r => r.isSuccess == succeeded) = 0 := by
        intro succeeded
        have hnobody := hwindow.drained hstart hend succeeded
        have heverybody := hdrain.drained hstart hend succeeded
        rw [drained_relabel_const, if_neg (by decide)] at hnobody
        rw [drained_relabel_const, if_pos rfl] at heverybody
        exact heverybody.symm.trans hnobody
      obtain ⟨r, hr⟩ := List.exists_mem_of_ne_nil _ hrecords
      exact List.countP_eq_zero.mp (hboth r.isSuccess) r hr (beq_self_eq_true _)
  · intro h label
    have hoffline : ∀ r ∈ (run.relabel label).records,
        r.outcome = some (outcomeValue .offlineSend) := by
      intro r hr
      obtain ⟨k, hk, rfl⟩ := List.mem_mapIdx.mp hr
      exact h.offline run.records[k] (List.getElem_mem hk)
    have hnone := initiated_eq_zero h.offline
    have hnone' := initiated_eq_zero hoffline
    refine sameEstimates_iff_balanced.mpr ⟨fun hstart hend succeeded => ?_,
      iff_of_true hnone hnone', by rw [hnone, hnone', mul_zero, mul_zero]⟩
    rcases h.unbounded with hrecords | hstart' | hend'
    · unfold RunRecords.drained RunRecords.relabel
      rw [hrecords]
      rfl
    · exact absurd hstart' hstart
    · exact absurd hend' hend

end Relabel

/-- **When the estimates do not depend on the label.**  A relabelling of a throughput run
keeps the four estimates exactly when it is balanced, and all of them do so exactly when
the run has nothing the two labels could move. -/
theorem sameEstimates_iff (run : RunRecords) (hworkload : run.workload = throughputWorkload) :
    (∀ label, SameEstimates run (run.relabel label) ↔ Balanced run (run.relabel label)) ∧
      ((∀ label, SameEstimates run (run.relabel label)) ↔ NothingToLabel run) :=
  ⟨fun _ => sameEstimates_iff_balanced, sameEstimates_all_iff hworkload⟩

/-! ### One success -/

/-- A run with a success in its window, labelled `window`. -/
def oneSuccess : RunRecords :=
  { runId := [], workload := throughputWorkload, topology := [], blockId := [], concurrency := 1
    campaignId := [], valid := true, invalidClass := none
    windowStartNs := some 0, windowEndNs := some 10
    records := [⟨some (phaseValue .window), some success, 2, some 5, some 0, some 10⟩] }

/-- Labelled `drain` the success is a drain completion, and labelled `warmup` it has no
failure rate, with nothing else changed. -/
theorem oneSuccess_relabelled :
    ¬ ∀ run : RunRecords, run.workload = throughputWorkload →
      ∀ label, SameEstimates run (run.relabel label) := by
  intro h
  have hdrain := (h oneSuccess rfl fun _ => some (phaseValue .drain)).diagnostics
  exact absurd hdrain (by decide +kernel)

/-- Labelled `measured` it is outside both groups still, and the estimates are kept. -/
theorem oneSuccess_sameEstimates :
    SameEstimates oneSuccess (oneSuccess.relabel fun _ => some (phaseValue .measured)) :=
  ((sameEstimates_iff oneSuccess rfl).1 _).mpr ⟨by decide +kernel, by decide +kernel,
    by decide +kernel⟩

end Analysis
end FederatedMessaging
