import FederatedMessaging.Foundations.Sweeps
import Mathlib.Algebra.Order.Archimedean.Real.Basic

/-!
# The peak concurrency of a run

`_peak_concurrency` of `scripts/e3_pilot.py` reports how many interactions of a run were in
flight at once, from the raw timestamps.  It sorts a start and an end for every interaction
that was initiated and sweeps over them; an interaction that never completed ends where it
starts.

`FederatedMessaging.Sweeps` has the argument.  What is left here is the reading of the
records, and that an instant between two nanoseconds sees what the one before it sees.
-/

namespace FederatedMessaging
namespace Pilot

open Sweeps

/-- The timestamps of a record. -/
structure InteractionSpan where
  initiatedMonotonicNs : Option ℤ
  completedMonotonicNs : Option ℤ
  deriving DecidableEq, Repr

/-- What the loop appends for a record. -/
def InteractionSpan.events (record : InteractionSpan) : List (ℤ × ℤ) :=
  match record.initiatedMonotonicNs with
  | none => []
  | some start => [(start, 1), (record.completedMonotonicNs.getD start, -1)]

/-- `events.sort()`. -/
def sortEvents (events : List (ℤ × ℤ)) : List (ℤ × ℤ) :=
  events.insertionSort fun x y => toLex x ≤ toLex y

/-- `_peak_concurrency`. -/
def peakConcurrency (records : List InteractionSpan) : ℤ :=
  highest ((sortEvents (records.flatMap InteractionSpan.events)).map Prod.snd)

/-- The completion, when present, is not before the initiation. -/
def InteractionSpan.Ordered (record : InteractionSpan) : Prop :=
  ∀ start ∈ record.initiatedMonotonicNs, ∀ completed ∈ record.completedMonotonicNs,
    start ≤ completed

instance (record : InteractionSpan) : Decidable record.Ordered :=
  inferInstanceAs (Decidable (∀ start ∈ record.initiatedMonotonicNs, _))

/-- The interaction is in flight at an instant: its interval is empty without a completion. -/
def InteractionSpan.InFlight (record : InteractionSpan) (t : ℝ) : Prop :=
  ∃ start ∈ record.initiatedMonotonicNs, (start : ℝ) ≤ t ∧
    t < (record.completedMonotonicNs.getD start : ℤ)

open Classical in
/-- How many interactions are in flight at an instant. -/
noncomputable def inFlight (records : List InteractionSpan) (t : ℝ) : ℕ :=
  records.countP fun record => record.InFlight t

/-- The interval of a record, if it was initiated. -/
def InteractionSpan.interval (record : InteractionSpan) : Option (ℤ × ℤ) :=
  record.initiatedMonotonicNs.map fun start => (start, record.completedMonotonicNs.getD start)

theorem events_eq_endpoints (records : List InteractionSpan) :
    records.flatMap InteractionSpan.events =
      endpoints (records.filterMap InteractionSpan.interval) := by
  induction records with
  | nil => rfl
  | cons record records ih =>
    rw [List.flatMap_cons, ih, List.filterMap_cons, InteractionSpan.events,
      InteractionSpan.interval]
    cases record.initiatedMonotonicNs with
    | none => rfl
    | some start => rfl

theorem inOrder_sortEvents (events : List (ℤ × ℤ)) : InOrder (sortEvents events) :=
  (List.pairwise_insertionSort (fun x y : ℤ × ℤ => toLex x ≤ toLex y) events).imp
    fun h => Prod.Lex.toLex_le_toLex.mp h

theorem le_of_mem_intervals {records : List InteractionSpan}
    (h : ∀ record ∈ records, record.Ordered)
    {i : ℤ × ℤ} (hi : i ∈ records.filterMap InteractionSpan.interval) : i.1 ≤ i.2 := by
  obtain ⟨record, hrecord, hinterval⟩ := List.mem_filterMap.mp hi
  obtain ⟨start, hstart, rfl⟩ := Option.map_eq_some_iff.mp hinterval
  cases hcompleted : record.completedMonotonicNs with
  | none => exact le_rfl
  | some completed => exact h record hrecord start hstart completed hcompleted

/-- Between two instants of the clock nothing starts and nothing ends. -/
theorem inFlight_iff {record : InteractionSpan} {t : ℝ} :
    record.InFlight t ↔ ∃ i ∈ record.interval, i.1 ≤ ⌊t⌋ ∧ ⌊t⌋ < i.2 := by
  constructor
  · rintro ⟨start, hstart, hle, hlt⟩
    exact ⟨_, Option.map_eq_some_iff.mpr ⟨start, hstart, rfl⟩, Int.le_floor.mpr hle,
      Int.floor_lt.mpr hlt⟩
  · rintro ⟨i, hi, hle, hlt⟩
    obtain ⟨start, hstart, rfl⟩ := Option.map_eq_some_iff.mp hi
    exact ⟨start, hstart, Int.le_floor.mp hle, Int.floor_lt.mp hlt⟩

open Classical in
theorem inFlight_eq_overlap (records : List InteractionSpan) (t : ℝ) :
    inFlight records t = overlap (records.filterMap InteractionSpan.interval) ⌊t⌋ := by
  unfold inFlight overlap
  induction records with
  | nil => rfl
  | cons record records ih =>
    rw [List.countP_cons, ih, List.filterMap_cons]
    have hiff := @inFlight_iff record t
    cases hinterval : record.interval with
    | none =>
      have hnot : ¬ record.InFlight t := by
        rw [hiff, hinterval]
        rintro ⟨i, hi, -⟩
        cases hi
      simp [hnot]
    | some i =>
      have hiff' : record.InFlight t ↔ i.1 ≤ ⌊t⌋ ∧ ⌊t⌋ < i.2 := by
        rw [hiff, hinterval]
        exact ⟨fun ⟨j, hj, h⟩ => Option.some_inj.mp hj ▸ h, fun h => ⟨i, rfl, h⟩⟩
      rw [List.countP_cons]
      by_cases hcovers : i.1 ≤ ⌊t⌋ ∧ ⌊t⌋ < i.2
      · rw [if_pos (decide_eq_true (hiff'.mpr hcovers)), if_pos (decide_eq_true hcovers)]
      · rw [if_neg (by simpa using mt hiff'.mp hcovers), if_neg (by simpa using hcovers)]

/-- **The reported peak is the greatest number of interactions in flight at one instant.** -/
theorem peakConcurrency_isGreatest {records : List InteractionSpan}
    (h : ∀ record ∈ records, record.Ordered) :
    IsGreatest {n : ℤ | ∃ t : ℝ, n = inFlight records t} (peakConcurrency records) := by
  have hperm : (sortEvents (records.flatMap InteractionSpan.events)).Perm
      (endpoints (records.filterMap InteractionSpan.interval)) :=
    (List.perm_insertionSort _ _).trans (List.Perm.of_eq (events_eq_endpoints records))
  obtain ⟨⟨t, ht⟩, hupper⟩ := isGreatest_overlap (fun _ hi => le_of_mem_intervals h hi) hperm
    (inOrder_sortEvents _)
  constructor
  · exact ⟨(t : ℝ), by rw [inFlight_eq_overlap, Int.floor_intCast]; exact ht⟩
  · rintro n ⟨t, rfl⟩
    rw [inFlight_eq_overlap]
    exact hupper ⟨⌊t⌋, rfl⟩

/-- Two interactions that touch, one that never completed and one that was never initiated. -/
theorem peakConcurrency_touching :
    peakConcurrency [⟨some 5, some 10⟩, ⟨some 0, some 5⟩, ⟨some 5, none⟩, ⟨none, some 7⟩] = 1 ∧
      IsGreatest {n : ℤ | ∃ t : ℝ, n = inFlight
        [⟨some 5, some 10⟩, ⟨some 0, some 5⟩, ⟨some 5, none⟩, ⟨none, some 7⟩] t}
        (peakConcurrency
          [⟨some 5, some 10⟩, ⟨some 0, some 5⟩, ⟨some 5, none⟩, ⟨none, some 7⟩]) :=
  ⟨by decide +kernel, peakConcurrency_isGreatest (by decide)⟩

end Pilot
end FederatedMessaging
