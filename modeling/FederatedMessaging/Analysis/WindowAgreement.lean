import FederatedMessaging.Analysis.RunRecords
import FederatedMessaging.Benchmark.ClosedLoop

/-!
# The engine and the analysis agree on the window

The window is decided twice: when a record is written, by an if-chain over its two
times, and when it is analysed, from the stored fields.

## 1.  Fields

What a record has of its interaction, and the three intervals the labels stand for.

## 2.  Records of a run

Each clause of `WindowsAgree` for records that were taken as `RecordedAs` says: on a
success the label and the completion time decide each other, and the two definitions of
being outstanding are the same on every interaction, completed or not.
-/

namespace FederatedMessaging
namespace Analysis

open PythonText Human Benchmark LabelledRuns

variable {clock : MonotonicClock} {config : RunConfig} {w : ThroughputState}

/-! ## 1.  Fields -/

/-- The completion times a label stands for, in a window `[windowStart, windowEnd)`. -/
def interval (windowStart windowEnd : ℤ) : RunPhase → Set ℤ
  | .warmup => Set.Iio windowStart
  | .window => Set.Ico windowStart windowEnd
  | .drain => Set.Ici windowEnd
  | .measured => ∅

/-- What a record has of its interaction. -/
theorem fields_of_recordedAs {it : Interaction} {r : Record} (h : RecordedAs config w it r) :
    r.phase = w.phaseOf it ∧ r.outcome = outcomeOf it ∧
      r.initiatedMonotonicNs = it.initiatedMonotonicNs ∧
      r.completedMonotonicNs = it.completedMonotonicNs := by
  unfold RecordedAs recordOf at h
  cases htxn : it.correlation.txnId Message.Direction.response.value with
  | error e =>
    rw [htxn] at h
    cases h
  | ok txnId =>
    rw [htxn] at h
    rw [← Except.ok.inj h]
    exact ⟨rfl, rfl, rfl, rfl⟩

/-- A success has completed. -/
theorem exists_completed_of_success {it : Interaction} (h : outcomeOf it = .success) :
    ∃ t, it.completedMonotonicNs = some t := by
  unfold outcomeOf at h
  split_ifs at h with herr htimeout
  exact Option.ne_none_iff_exists'.mp (not_or.mp htimeout).2

/-- **The label of a completed interaction names the interval of its completion.** -/
theorem phaseOf_eq_iff (hwindow : w.windowStartNs ≤ w.windowEndNs) {it : Interaction} {t : ℕ}
    (ht : it.completedMonotonicNs = some t) (phase : RunPhase) :
    w.phaseOf it = phase ↔ (t : ℤ) ∈ interval w.windowStartNs w.windowEndNs phase := by
  unfold ThroughputState.phaseOf
  rw [ht]
  dsimp only
  split_ifs with hstart hend <;> cases phase <;> simp [interval] <;> omega

/-- The two definitions of being outstanding. -/
theorem outstandingAt_ofRecord {it : Interaction} {r : Record} (h : RecordedAs config w it r)
    (bound : ℤ) :
    (RawRecord.ofRecord r).outstandingAt bound = ThroughputState.outstandingAt bound it := by
  obtain ⟨-, -, hinitiated, hcompleted⟩ := fields_of_recordedAs h
  unfold RawRecord.outstandingAt ThroughputState.outstandingAt RawRecord.ofRecord
  rw [hinitiated, hcompleted]
  cases it.completedMonotonicNs <;> rfl

/-! ## 2.  Records of a run -/

/-- **The two classifiers agree** on a run and the result it was loaded from. -/
structure WindowsAgree (run : RunRecords) (result : WorkloadResult) (windowStart windowEnd : ℤ) :
    Prop where
  start : run.windowStartNs = some windowStart
  finish : run.windowEndNs = some windowEnd
  /-- the counted records are the successes labelled `window` -/
  counted : run.countedInWindow = run.records.filter fun r => r.isSuccess && r.hasPhase .window
  /-- a success carries the label of the interval its completion falls in, and no other -/
  labelled : ∀ r ∈ run.records, r.isSuccess = true →
    ∃ t, r.completedMonotonicNs = some t ∧
      ∀ phase, r.hasPhase phase = true ↔ t ∈ interval windowStart windowEnd phase
  /-- the three labels partition the successes -/
  partitioned : (run.records.filter (·.isSuccess)).Perm
    ((run.records.filter fun r => r.isSuccess && r.hasPhase .warmup) ++
      ((run.records.filter fun r => r.isSuccess && r.hasPhase .window) ++
        run.records.filter fun r => r.isSuccess && r.hasPhase .drain))
  /-- the diagnostics of the analysis are those of the engine -/
  diagnostics : ∃ d, run.boundaryDiagnostics = some d ∧
    d.drainCompletions = (run.records.countP fun r =>
      r.isSuccess && r.completedMonotonicNs.any (windowEnd ≤ ·)) ∧
    d.outstandingAtWindowStart = result.outstandingAtWindowStart ∧
    d.outstandingAtWindowEnd = result.outstandingAtWindowEnd

/-- Counting along two lists whose entries correspond. -/
theorem countP_eq_of_forall₂ {α β : Type*} {R : α → β → Prop} {p : α → Bool} {q : β → Bool}
    {l : List α} {l' : List β} (h : List.Forall₂ R l l') (hpq : ∀ a b, R a b → q b = p a) :
    l'.countP q = l.countP p := by
  induction h with
  | nil => rfl
  | cons hab _ ih => rw [List.countP_cons, List.countP_cons, ih, hpq _ _ hab]

/-- A predicate that splits into two others splits a filtered list. -/
theorem filter_perm_append {α : Type*} {p q r : α → Bool} {l : List α}
    (hor : ∀ a ∈ l, p a = (q a || r a)) (hand : ∀ a ∈ l, (q a && r a) = false) :
    (l.filter p).Perm (l.filter q ++ l.filter r) := by
  induction l with
  | nil => exact .nil
  | cons a l ih =>
    have ih := ih (fun b hb => hor b (List.mem_cons_of_mem a hb))
      fun b hb => hand b (List.mem_cons_of_mem a hb)
    have hor := hor a List.mem_cons_self
    have hand := hand a List.mem_cons_self
    cases hq : q a with
    | true =>
      rw [hq, Bool.true_or] at hor
      rw [hq, Bool.true_and] at hand
      rw [List.filter_cons_of_pos hor, List.filter_cons_of_pos hq,
        List.filter_cons_of_neg (ne_true_of_eq_false hand)]
      exact ih.cons a
    | false =>
      rw [hq, Bool.false_or] at hor
      rw [List.filter_cons_of_neg (ne_true_of_eq_false hq)]
      cases hr : r a with
      | true =>
        rw [List.filter_cons_of_pos (hor.trans hr), List.filter_cons_of_pos hr]
        exact (ih.cons a).trans List.perm_middle.symm
      | false =>
        rw [List.filter_cons_of_neg (ne_true_of_eq_false (hor.trans hr)),
          List.filter_cons_of_neg (ne_true_of_eq_false hr)]
        exact ih

section Loaded

variable {campaignId : Text}

/-- Every loaded record was taken of an interaction. -/
theorem exists_recordedAs (hall : AllRecorded config w) {r : RawRecord}
    (hr : r ∈ (RunRecords.ofResult campaignId config w.result).records) :
    ∃ it r', RecordedAs config w it r' ∧ r = RawRecord.ofRecord r' := by
  obtain ⟨its, -, hrecorded⟩ := hall.interactions
  obtain ⟨r', hr', rfl⟩ := List.mem_map.mp hr
  obtain ⟨k, hk, rfl⟩ := List.mem_iff_getElem.mp hr'
  have hk' : k < its.length := hrecorded.length_eq ▸ hk
  exact ⟨its[k], w.result.records[k], (List.forall₂_iff_get.mp hrecorded).2 k hk' hk, rfl⟩

/-- The label of a loaded success. -/
theorem labelled_of_allRecorded (hall : AllRecorded config w)
    (hwindow : w.windowStartNs ≤ w.windowEndNs) {r : RawRecord}
    (hr : r ∈ (RunRecords.ofResult campaignId config w.result).records)
    (hsuccess : r.isSuccess = true) :
    ∃ t, r.completedMonotonicNs = some t ∧ ∀ phase, r.hasPhase phase = true ↔
      t ∈ interval w.windowStartNs w.windowEndNs phase := by
  obtain ⟨it, r', hrecorded, rfl⟩ := exists_recordedAs hall hr
  obtain ⟨hphase, houtcome, -, hcompleted⟩ := fields_of_recordedAs hrecorded
  rw [isSuccess_ofRecord, decide_eq_true_iff, houtcome] at hsuccess
  obtain ⟨t, ht⟩ := exists_completed_of_success hsuccess
  refine ⟨t, ?_, fun phase => ?_⟩
  · rw [RawRecord.ofRecord, hcompleted, ht]
    rfl
  · rw [hasPhase_ofRecord, decide_eq_true_iff, hphase]
    exact phaseOf_eq_iff hwindow ht phase

/-- The outstanding counts, from the records and from the interactions. -/
theorem countP_outstandingAt (hall : AllRecorded config w) (bound : ℤ) :
    (RunRecords.ofResult campaignId config w.result).records.countP (·.outstandingAt bound) =
      (w.human.calls.map Call.interaction).countP (ThroughputState.outstandingAt bound) := by
  obtain ⟨its, hits, hrecorded⟩ := hall.interactions
  rw [← hits.countP_eq, RunRecords.ofResult, List.countP_map]
  exact countP_eq_of_forall₂ hrecorded fun it r h => outstandingAt_ofRecord h bound

/-- **A returned run, loaded, is classified as it was written.** -/
theorem windowsAgree_of_allRecorded (hall : AllRecorded config w)
    (hwindow : w.windowStartNs ≤ w.windowEndNs) (campaignId : Text) :
    WindowsAgree (RunRecords.ofResult campaignId config w.result) w.result w.windowStartNs
      w.windowEndNs := by
  set run := RunRecords.ofResult campaignId config w.result with hrun
  have hlabelled : ∀ r ∈ run.records, r.isSuccess = true →
      ∃ t, r.completedMonotonicNs = some t ∧ ∀ phase, r.hasPhase phase = true ↔
        t ∈ interval w.windowStartNs w.windowEndNs phase :=
    fun r hr hsuccess => labelled_of_allRecorded hall hwindow hr hsuccess
  have hbounds : run.windowStartNs = some w.windowStartNs ∧
      run.windowEndNs = some w.windowEndNs := ⟨hall.windowStart, hall.windowEnd⟩
  refine ⟨hbounds.1, hbounds.2, ?_, hlabelled, ?_, ?_⟩
  · unfold RunRecords.countedInWindow
    rw [hbounds.1, hbounds.2]
    refine List.filter_congr fun r hr => ?_
    cases hsuccess : r.isSuccess with
    | false => rfl
    | true =>
      obtain ⟨t, ht, hphase⟩ := hlabelled r hr hsuccess
      rw [Bool.true_and, Bool.true_and, Bool.eq_iff_iff, hphase, RawRecord.completedWithin, ht]
      simp [interval]
  · -- `warmup` against the other two, then those apart
    refine (filter_perm_append (q := fun r => r.isSuccess && r.hasPhase .warmup)
      (r := fun r => r.isSuccess && (r.hasPhase .window || r.hasPhase .drain))
      (fun r hr => ?_) fun r hr => ?_).trans (List.Perm.append_left _
        (filter_perm_append (fun r hr => Bool.and_or_distrib_left ..) fun r hr => ?_))
    all_goals
      cases hsuccess : r.isSuccess with
      | false => rfl
      | true =>
        obtain ⟨t, -, hphase⟩ := hlabelled r hr hsuccess
        have hwarmup := hphase .warmup
        have hinside := hphase .window
        have hdrain := hphase .drain
        rw [Bool.eq_iff_iff]
        simp only [Bool.true_and, Bool.and_eq_true, Bool.or_eq_true, hwarmup, hinside, hdrain,
          interval, Set.mem_Iio, Set.mem_Ico, Set.mem_Ici, Bool.false_eq_true, iff_false,
          true_iff]
        omega
  · refine ⟨_, by rw [RunRecords.boundaryDiagnostics, hbounds.1, hbounds.2], ?_, ?_, ?_⟩
    · rw [List.countP_filter]
      refine List.countP_congr fun r hr => ?_
      cases hsuccess : r.isSuccess with
      | false => rfl
      | true =>
        obtain ⟨t, ht, hphase⟩ := hlabelled r hr hsuccess
        rw [Bool.true_and, Bool.true_and, hphase, ht]
        simp [interval]
    · exact (countP_outstandingAt hall w.windowStartNs).trans hall.atWindowStart.symm
    · exact (countP_outstandingAt hall w.windowEndNs).trans hall.atWindowEnd.symm

end Loaded

/-! ## 3.  Every run -/

/-- A duration that is not negative moves the clock forward. -/
theorem truncate_nonneg {q : ℚ} (h : 0 ≤ q) : 0 ≤ truncate q :=
  Int.tdiv_nonneg (Rat.num_nonneg.mpr h) (Int.natCast_nonneg _)

/-- The window of a run does not end before it starts. -/
theorem windowStart_le_windowEnd (hduration : 0 ≤ config.measurementSeconds) {roomId : Option Text}
    {labels : List ThroughputState.Label}
    (hrun : exec (ThroughputState.step clock config)
      (ThroughputState.start clock config (State.initial roomId)) labels = some w)
    (hraised : w.stage ≠ .raised) : w.windowStartNs ≤ w.windowEndNs := by
  have hkeeps := keeps_of_exec (runInv_start clock config roomId) hrun hraised
  have hlength : 0 ≤ truncate (config.measurementSeconds * 10 ^ 9) :=
    truncate_nonneg (mul_nonneg hduration (by positivity))
  rw [hkeeps.windowStart, hkeeps.windowEnd]
  exact le_add_of_nonneg_right hlength

/-- **The engine and the analysis agree on the window**, on every run of the throughput
workload that returns: the counted records are the successes labelled `window`, the labels
partition the successes by the interval each completion falls in, and the boundary
diagnostics count the drain and the outstanding interactions as the engine did. -/
theorem windowsAgree (clock : MonotonicClock) (config : RunConfig)
    (hduration : 0 ≤ config.measurementSeconds) (roomId : Option Text)
    (labels : List ThroughputState.Label) (w : ThroughputState)
    (hrun : exec (ThroughputState.step clock config)
      (ThroughputState.start clock config (State.initial roomId)) labels = some w)
    (hreturned : w.stage = .returned) (campaignId : Text) :
    WindowsAgree (RunRecords.ofResult campaignId config w.result) w.result w.windowStartNs
      w.windowEndNs := by
  have hinv := invariant_of_exec (RunInv config) (fun _ _ _ h => runInv_step h)
    (runInv_start clock config roomId) hrun
  exact windowsAgree_of_allRecorded (hinv.returned hreturned)
    (windowStart_le_windowEnd hduration hrun (by rw [hreturned]; exact nofun)) campaignId

/-- In the run of two slots that cross, two requests complete in the window and one in the
drain, and the analysis counts the two. -/
theorem crossedRequests_windowsAgree :
    ∃ w, exec (ThroughputState.step (steadyClock 1) twoSlots)
        (ThroughputState.start (steadyClock 1) twoSlots (State.initial (some ['!', 'r'])))
        crossedRequests = some w ∧
      (RunRecords.ofResult [] twoSlots w.result).countedInWindow.length = 2 ∧
      WindowsAgree (RunRecords.ofResult [] twoSlots w.result) w.result w.windowStartNs
        w.windowEndNs := by
  have hend : (exec (ThroughputState.step (steadyClock 1) twoSlots)
      (ThroughputState.start (steadyClock 1) twoSlots (State.initial (some ['!', 'r'])))
      crossedRequests).map (fun w => (w.stage,
        (RunRecords.ofResult [] twoSlots w.result).countedInWindow.length)) =
      some (.returned, 2) := by decide +kernel
  obtain ⟨w, hw, hfacts⟩ := Option.map_eq_some_iff.mp hend
  obtain ⟨hstage, hcounted⟩ := Prod.mk.inj hfacts
  exact ⟨w, hw, hcounted, windowsAgree (steadyClock 1) twoSlots (by decide +kernel)
    (some ['!', 'r']) crossedRequests w hw hstage []⟩

end Analysis
end FederatedMessaging
