import FederatedMessaging.Analysis.WindowAgreement
import FederatedMessaging.Benchmark.TimedRuns

/-!
# The outstanding counts

The engine and the analysis both count an interaction as outstanding at a boundary when it
was initiated before it and its record has no completion before it.  A record has no
completion when the interaction timed out or its send was rejected, however long before the
boundary that was.

`StampedEnds` says that this made no difference at a boundary, and `outstandingExact_iff`
that the counts are right, and bounded by the concurrency, exactly in the runs where it
holds at both.
-/

namespace FederatedMessaging
namespace Analysis

open PythonText Human Benchmark LabelledRuns

variable {clock : MonotonicClock} {config : RunConfig} {r : TimedRun}

/-- The interaction was timed out or rejected before the boundary. -/
def EndedUnstamped (config : RunConfig) (rejectedAt : List (ℕ × ℕ)) (bound : ℤ) (i : ℕ)
    (it : Interaction) : Prop :=
  (it.timedOut = true ∧ it.initiatedMonotonicNs + config.timeoutSeconds * 10 ^ 9 < (bound : ℚ)) ∨
    ∃ t, (i, t) ∈ rejectedAt ∧ (t : ℤ) < bound

/-- **No end is missing at the boundary**: an interaction initiated before it, and timed out
or rejected before it, had also accepted an ACK before it. -/
def StampedEnds (config : RunConfig) (r : TimedRun) (bound : ℤ) : Prop :=
  ∀ (i : ℕ) (call : Call), r.state.human.calls[i]? = some call →
    (call.interaction.initiatedMonotonicNs : ℤ) < bound →
      EndedUnstamped config r.rejectedAt bound i call.interaction →
        ∃ t, call.interaction.completedMonotonicNs = some t ∧ (t : ℤ) < bound

/-- **The counts are exact**, in the engine and in the boundary diagnostics, and at most
the concurrency. -/
structure OutstandingExact (config : RunConfig) (r : TimedRun) (run : RunRecords) : Prop where
  atWindowStart : r.state.result.outstandingAtWindowStart =
    r.outstanding config r.state.windowStartNs
  atWindowEnd : r.state.result.outstandingAtWindowEnd = r.outstanding config r.state.windowEndNs
  diagnostics : ∃ d, run.boundaryDiagnostics = some d ∧
    d.outstandingAtWindowStart = r.outstanding config r.state.windowStartNs ∧
    d.outstandingAtWindowEnd = r.outstanding config r.state.windowEndNs
  boundedStart : r.state.result.outstandingAtWindowStart ≤ config.concurrency
  boundedEnd : r.state.result.outstandingAtWindowEnd ≤ config.concurrency

/-! ## One boundary -/

section Boundary

variable {bound : ℤ} {i : ℕ} {it : Interaction} {rejectedAt : List (ℕ × ℕ)}

/-- What the engine counts. -/
theorem outstandingAt_iff :
    ThroughputState.outstandingAt bound it = true ↔
      (it.initiatedMonotonicNs : ℤ) < bound ∧
        ∀ t, it.completedMonotonicNs = some t → ¬ (t : ℤ) < bound := by
  unfold ThroughputState.outstandingAt
  cases it.completedMonotonicNs <;> simp

/-- An end before the boundary leaves a completion, or it leaves none. -/
theorem exists_endTimes_lt_iff :
    (∃ e ∈ endTimes config rejectedAt i it, e < (bound : ℚ)) ↔
      (∃ t, it.completedMonotonicNs = some t ∧ (t : ℤ) < bound) ∨
        EndedUnstamped config rejectedAt bound i it := by
  have hcast : ∀ t : ℕ, ((t : ℚ) < bound ↔ (t : ℤ) < bound) := fun t => by
    rw [← Int.cast_natCast, Int.cast_lt]
  constructor
  · rintro ⟨e, he, hlt⟩
    rcases mem_endTimes.mp he with ⟨t, ht, rfl⟩ | ⟨htimed, rfl⟩ | ⟨t, ht, rfl⟩
    · exact Or.inl ⟨t, ht, (hcast t).mp hlt⟩
    · exact Or.inr (Or.inl ⟨htimed, hlt⟩)
    · exact Or.inr (Or.inr ⟨t, ht, (hcast t).mp hlt⟩)
  · rintro (⟨t, ht, hlt⟩ | ⟨htimed, hlt⟩ | ⟨t, ht, hlt⟩)
    · exact ⟨t, mem_endTimes.mpr (Or.inl ⟨t, ht, rfl⟩), (hcast t).mpr hlt⟩
    · exact ⟨_, mem_endTimes.mpr (Or.inr (Or.inl ⟨htimed, rfl⟩)), hlt⟩
    · exact ⟨t, mem_endTimes.mpr (Or.inr (Or.inr ⟨t, ht, rfl⟩)), (hcast t).mpr hlt⟩

/-- **What is outstanding is counted**, by the engine too. -/
theorem outstandingAt_of_isOutstanding
    (h : isOutstanding config rejectedAt bound i it = true) :
    ThroughputState.outstandingAt bound it = true := by
  obtain ⟨hbegun, hrunning⟩ := isOutstanding_iff.mp h
  refine outstandingAt_iff.mpr ⟨hbegun, fun t ht hlt => ?_⟩
  obtain ⟨e, he, hlt⟩ := exists_endTimes_lt_iff.mpr (Or.inl ⟨t, ht, hlt⟩)
  exact hrunning e he hlt

/-- What the engine counts beyond that. -/
theorem isOutstanding_of_outstandingAt_iff :
    (ThroughputState.outstandingAt bound it = true →
        isOutstanding config rejectedAt bound i it = true) ↔
      ((it.initiatedMonotonicNs : ℤ) < bound → EndedUnstamped config rejectedAt bound i it →
        ∃ t, it.completedMonotonicNs = some t ∧ (t : ℤ) < bound) := by
  rw [outstandingAt_iff, isOutstanding_iff]
  constructor
  · intro h hbegun hended
    by_contra hnone
    obtain ⟨e, he, hlt⟩ := exists_endTimes_lt_iff.mpr (Or.inr hended)
    exact (h ⟨hbegun, fun t ht hlt => hnone ⟨t, ht, hlt⟩⟩).2 e he hlt
  · rintro h ⟨hbegun, hopen⟩
    refine ⟨hbegun, fun e he hlt => ?_⟩
    rcases exists_endTimes_lt_iff.mp ⟨e, he, hlt⟩ with ⟨t, ht, hlt⟩ | hended
    · exact hopen t ht hlt
    · obtain ⟨t, ht, hlt⟩ := h hbegun hended
      exact hopen t ht hlt

/-- Of two counts, one of which counts what the other does. -/
theorem countP_eq_iff_of_imp {α : Type*} {p q : α → Bool} {l : List α}
    (h : ∀ a ∈ l, q a = true → p a = true) :
    l.countP p = l.countP q ↔ ∀ a ∈ l, p a = true → q a = true := by
  constructor
  · intro heq a ha hp
    have hboth : l.countP q = (l.filter p).countP q := by
      rw [List.countP_filter]
      refine List.countP_congr fun b hb => ?_
      rw [Bool.and_eq_true]
      exact ⟨fun hq => ⟨hq, h b hb hq⟩, fun hq => hq.1⟩
    have hall : (l.filter p).countP q = (l.filter p).length := by
      rw [← hboth, ← heq, List.countP_eq_length_filter]
    exact List.countP_eq_length.mp hall a (List.mem_filter.mpr ⟨ha, hp⟩)
  · exact fun hback => List.countP_congr fun a ha => ⟨hback a ha, h a ha⟩

/-- **The engine's count at a boundary is exact when no end is missing at it.** -/
theorem countP_outstandingAt_eq_iff :
    (r.state.human.calls.map Call.interaction).countP (ThroughputState.outstandingAt bound) =
        r.outstanding config bound ↔ StampedEnds config r bound := by
  have hrange : ∀ i ∈ List.range r.state.human.calls.length,
      ∃ call, r.state.human.calls[i]? = some call := fun i hi =>
    ⟨_, List.getElem?_eq_getElem (List.mem_range.mp hi)⟩
  rw [List.countP_map, countP_eq_range, TimedRun.outstanding, countP_eq_iff_of_imp]
  · constructor
    · intro h i call hcall
      have hone := h i (List.mem_range.mpr (List.getElem?_eq_some_iff.mp hcall).1)
      rw [hcall] at hone
      exact isOutstanding_of_outstandingAt_iff.mp hone
    · intro h i hi
      obtain ⟨call, hcall⟩ := hrange i hi
      rw [hcall]
      exact isOutstanding_of_outstandingAt_iff.mpr (h i call hcall)
  · intro i hi
    obtain ⟨call, hcall⟩ := hrange i hi
    rw [hcall]
    exact outstandingAt_of_isOutstanding

end Boundary

/-! ## Every run -/

/-- **When the outstanding counts are exact.**  In every run of the throughput workload that
returns, with its rejected sends at any times the clock allows: the counts of the engine and
of the boundary diagnostics are right at both boundaries, and at most the concurrency, if
and only if each interaction initiated before a boundary, and timed out or rejected before
it, had also accepted an ACK before it. -/
theorem outstandingExact_iff (clock : MonotonicClock) (config : RunConfig) (roomId : Option Text)
    (labels : List (ThroughputState.Label × ℕ)) (r : TimedRun)
    (hrun : exec (TimedRun.step clock config) (TimedRun.start clock config roomId) labels = some r)
    (hreturned : r.state.stage = .returned) (campaignId : Text) :
    OutstandingExact config r (RunRecords.ofResult campaignId config r.state.result) ↔
      StampedEnds config r r.state.windowStartNs ∧ StampedEnds config r r.state.windowEndNs := by
  have hinv := timedInv_of_exec hrun
  have hall := hinv.run.returned hreturned
  have hbounded := outstanding_le hinv (by rw [hreturned]; exact nofun)
  have hcounted : ∀ bound,
      (RunRecords.ofResult campaignId config r.state.result).records.countP
          (·.outstandingAt bound) =
        (r.state.human.calls.map Call.interaction).countP (ThroughputState.outstandingAt bound) :=
    fun bound => countP_outstandingAt hall bound
  rw [← countP_outstandingAt_eq_iff, ← countP_outstandingAt_eq_iff, ← hall.atWindowStart,
    ← hall.atWindowEnd]
  constructor
  · exact fun h => ⟨h.atWindowStart, h.atWindowEnd⟩
  · rintro ⟨hstart, hend⟩
    refine ⟨hstart, hend, ⟨_, by rw [RunRecords.boundaryDiagnostics, RunRecords.ofResult,
      hall.windowStart, hall.windowEnd], ?_, ?_⟩, hstart ▸ hbounded _, hend ▸ hbounded _⟩
    · exact (hcounted _).trans (hall.atWindowStart.symm.trans hstart)
    · exact (hcounted _).trans (hall.atWindowEnd.symm.trans hend)

/-! ### One slot whose sends are rejected -/

/-- One slot, ten nanoseconds of warm-up and a window of two. -/
def oneSlot : RunConfig :=
  { twoRequests with
    concurrency := 1, warmupSeconds := 10 / 10 ^ 9, measurementSeconds := 2 / 10 ^ 9 }

/-- Two requests are rejected during the warm-up, and a third after it. -/
def rejectedSends : List (ThroughputState.Label × ℕ) :=
  [(.slotStarts 0, 1), (.human (.sendRejected 0 [] []), 4), (.human (.sendRejected 1 [] []), 9),
    (.human (.sendRejected 2 [] []), 14), (.gathered, 17)]

/-- A request is answered during the warm-up, and another after the window. -/
def answeredSends : List (ThroughputState.Label × ℕ) :=
  [(.slotStarts 0, 1), (.human (.sendReturned 0 ['$', 'q']), 4),
    (.human (.deliver (ackOf '1' ['$', 'a']) none), 6), (.human (.resume 0), 8),
    (.human (.sendReturned 1 ['$', 'r']), 13),
    (.human (.deliver (ackOf '2' ['$', 'b']) none), 15), (.human (.resume 1), 17),
    (.gathered, 20)]

/-- **Two interactions are counted as outstanding in one slot**, and none is. -/
theorem rejectedSends_not_outstandingExact :
    ∃ r, exec (TimedRun.step (steadyClock 1) oneSlot)
        (TimedRun.start (steadyClock 1) oneSlot (some ['!', 'r'])) rejectedSends = some r ∧
      r.state.stage = .returned ∧
      r.outstanding oneSlot r.state.windowStartNs = 0 ∧
      r.state.result.outstandingAtWindowStart = 2 ∧ oneSlot.concurrency = 1 ∧
      ¬ OutstandingExact oneSlot r (RunRecords.ofResult [] oneSlot r.state.result) := by
  have hend : (exec (TimedRun.step (steadyClock 1) oneSlot)
      (TimedRun.start (steadyClock 1) oneSlot (some ['!', 'r'])) rejectedSends).map (fun r =>
        (r.state.stage, r.outstanding oneSlot r.state.windowStartNs,
          r.state.result.outstandingAtWindowStart)) = some (.returned, 0, 2) := by decide +kernel
  obtain ⟨r, hr, hfacts⟩ := Option.map_eq_some_iff.mp hend
  obtain ⟨hstage, hcounts⟩ := Prod.mk.inj hfacts
  obtain ⟨htrue, hengine⟩ := Prod.mk.inj hcounts
  refine ⟨r, hr, hstage, htrue, hengine, rfl, fun h => ?_⟩
  have heq := h.atWindowStart
  rw [htrue, hengine] at heq
  cases heq

/-- With every request answered the counts are exact. -/
theorem answeredSends_outstandingExact :
    ∃ r, exec (TimedRun.step (steadyClock 1) oneSlot)
        (TimedRun.start (steadyClock 1) oneSlot (some ['!', 'r'])) answeredSends = some r ∧
      OutstandingExact oneSlot r (RunRecords.ofResult [] oneSlot r.state.result) := by
  have hend : (exec (TimedRun.step (steadyClock 1) oneSlot)
      (TimedRun.start (steadyClock 1) oneSlot (some ['!', 'r'])) answeredSends).map (fun r =>
        (r.state.stage, r.rejectedAt,
          r.state.human.calls.all fun call => !call.interaction.timedOut)) =
      some (.returned, [], true) := by decide +kernel
  obtain ⟨r, hr, hfacts⟩ := Option.map_eq_some_iff.mp hend
  obtain ⟨hstage, hrest⟩ := Prod.mk.inj hfacts
  obtain ⟨hrejected, htimed⟩ := Prod.mk.inj hrest
  have hstamped : ∀ bound, StampedEnds oneSlot r bound := by
    rintro bound i call hcall - (⟨htimedOut, -⟩ | ⟨t, ht, -⟩)
    · have hnot := List.all_eq_true.mp htimed call (List.mem_of_getElem? hcall)
      rw [htimedOut] at hnot
      cases hnot
    · rw [hrejected] at ht
      cases ht
  exact ⟨r, hr, (outstandingExact_iff (steadyClock 1) oneSlot (some ['!', 'r']) answeredSends r hr
    hstage []).mpr ⟨hstamped _, hstamped _⟩⟩

end Analysis
end FederatedMessaging
