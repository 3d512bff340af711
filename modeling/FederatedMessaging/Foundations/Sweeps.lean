import Mathlib.Algebra.Order.BigOperators.Group.List
import Mathlib.Data.Int.Order.Basic
import Mathlib.Data.List.Induction
import Mathlib.Data.List.Sort
import Mathlib.Data.Prod.Lex
import Mathlib.Order.Bounds.Basic
import Mathlib.Tactic.Linarith

/-!
# Sweeping over intervals

How many half-open intervals overlap at most: go over the ends of the intervals in order, add
one where an interval starts, take one away where it ends, and keep the highest sum.

## Ties

The ends are ordered as pairs, so at one instant the ends come before the starts.  The running
sum is then the overlap at an instant only after the last event there; before that it is on
its way, first down and then up.  A sum on its way up is at most the one it ends at, and a sum
on its way down is less than the one it comes from, so none of them is higher than every
overlap (`exists_le_overlap`).  An empty interval is two events at one instant, the end first.
-/

namespace FederatedMessaging
namespace Sweeps

/-! ## The highest running sum -/

/-- One event: the sum, and the highest one. -/
def sweepStep (state : ℤ × ℤ) (delta : ℤ) : ℤ × ℤ :=
  (state.1 + delta, max state.2 (state.1 + delta))

/-- The highest running sum, zero included. -/
def highest (deltas : List ℤ) : ℤ := (deltas.foldl sweepStep (0, 0)).2

theorem sweep_spec (deltas : List ℤ) (current peak : ℤ) :
    (peak ≤ (deltas.foldl sweepStep (current, peak)).2 ∧
      ∀ front, front <+: deltas → front ≠ [] →
        current + front.sum ≤ (deltas.foldl sweepStep (current, peak)).2) ∧
    ((deltas.foldl sweepStep (current, peak)).2 = peak ∨
      ∃ front, front <+: deltas ∧
        (deltas.foldl sweepStep (current, peak)).2 = current + front.sum) := by
  induction deltas generalizing current peak with
  | nil =>
    exact ⟨⟨le_rfl, fun front hfront hne => absurd (List.prefix_nil.mp hfront) hne⟩, .inl rfl⟩
  | cons delta deltas ih =>
    rw [List.foldl_cons, sweepStep]
    obtain ⟨⟨hpeak, hfronts⟩, hattained⟩ := ih (current + delta) (max peak (current + delta))
    refine ⟨⟨(le_max_left _ _).trans hpeak, fun front hfront hne => ?_⟩, ?_⟩
    · obtain ⟨d, front, rfl⟩ := List.exists_cons_of_ne_nil hne
      obtain ⟨rfl, htail⟩ := List.cons_prefix_cons.mp hfront
      rw [List.sum_cons, ← add_assoc]
      by_cases hnil : front = []
      · rw [hnil, List.sum_nil, add_zero]
        exact (le_max_right _ _).trans hpeak
      · exact hfronts front htail hnil
    · rcases hattained with hmax | ⟨front, hfront, hsum⟩
      · rcases max_choice peak (current + delta) with h | h
        · exact .inl (hmax.trans h)
        · exact .inr ⟨[delta], ⟨deltas, rfl⟩, by rw [hmax, h, List.sum_singleton]⟩
      · refine .inr ⟨delta :: front, List.cons_prefix_cons.mpr ⟨rfl, hfront⟩, ?_⟩
        rw [hsum, List.sum_cons, add_assoc]

/-- **It is the greatest sum of a prefix.** -/
theorem isGreatest_highest (deltas : List ℤ) :
    IsGreatest {n | ∃ front, front <+: deltas ∧ n = front.sum} (highest deltas) := by
  obtain ⟨⟨hzero, hfronts⟩, hattained⟩ := sweep_spec deltas 0 0
  constructor
  · rcases hattained with h | ⟨front, hfront, h⟩
    · exact ⟨[], List.nil_prefix, h⟩
    · exact ⟨front, hfront, h.trans (zero_add _)⟩
  · rintro n ⟨front, hfront, rfl⟩
    by_cases hnil : front = []
    · rw [hnil]
      exact hzero
    · rw [← zero_add front.sum]
      exact hfronts front hfront hnil

/-! ## Intervals -/

variable {α : Type*} [LinearOrder α]

/-- The events of some intervals. -/
def endpoints (intervals : List (α × α)) : List (α × ℤ) :=
  intervals.flatMap fun i => [(i.1, 1), (i.2, -1)]

/-- How many of them contain an instant. -/
def overlap (intervals : List (α × α)) (t : α) : ℕ :=
  intervals.countP fun i => i.1 ≤ t ∧ t < i.2

/-- The sum of the events up to an instant. -/
def sumUpTo (t : α) (events : List (α × ℤ)) : ℤ :=
  ((events.filter fun e => e.1 ≤ t).map Prod.snd).sum

theorem sumUpTo_append (t : α) (events events' : List (α × ℤ)) :
    sumUpTo t (events ++ events') = sumUpTo t events + sumUpTo t events' := by
  rw [sumUpTo, List.filter_append, List.map_append, List.sum_append]
  rfl

theorem sumUpTo_eq_of_perm {t : α} {events events' : List (α × ℤ)} (h : events.Perm events') :
    sumUpTo t events = sumUpTo t events' :=
  ((h.filter _).map _).sum_eq

/-- One interval counts where it contains the instant. -/
theorem sumUpTo_interval {i : α × α} (h : i.1 ≤ i.2) (t : α) :
    sumUpTo t [(i.1, 1), (i.2, -1)] = if i.1 ≤ t ∧ t < i.2 then 1 else 0 := by
  unfold sumUpTo
  rcases le_or_gt i.1 t with hstart | hstart
  · rcases le_or_gt i.2 t with hend | hend
    · simp [hstart, hend, not_lt.mpr hend]
    · simp [hstart, hend, not_le.mpr hend]
  · have hend : ¬ i.2 ≤ t := not_le.mpr (hstart.trans_le h)
    simp [not_le.mpr hstart, hend]

/-- **The sum up to an instant is the overlap there.** -/
theorem sumUpTo_endpoints {intervals : List (α × α)} (h : ∀ i ∈ intervals, i.1 ≤ i.2) (t : α) :
    sumUpTo t (endpoints intervals) = overlap intervals t := by
  induction intervals with
  | nil => rfl
  | cons i intervals ih =>
    obtain ⟨hi, hrest⟩ := List.forall_mem_cons.mp h
    rw [endpoints, List.flatMap_cons, sumUpTo_append, sumUpTo_interval hi, ← endpoints, ih hrest,
      overlap, overlap, List.countP_cons, add_comm]
    by_cases hcovers : i.1 ≤ t ∧ t < i.2
    · simp [hcovers]
    · rw [if_neg hcovers, if_neg (by simpa using hcovers)]
      simp

/-- Events in the order of pairs. -/
def InOrder (events : List (α × ℤ)) : Prop :=
  events.Pairwise fun x y => x.1 < y.1 ∨ x.1 = y.1 ∧ x.2 ≤ y.2

/-- The events up to an instant are a prefix. -/
theorem filter_prefix_of_inOrder {events : List (α × ℤ)} (h : InOrder events) (t : α) :
    (events.filter fun e => e.1 ≤ t) <+: events := by
  induction events with
  | nil => exact List.prefix_rfl
  | cons e events ih =>
    obtain ⟨he, hrest⟩ := List.pairwise_cons.mp h
    by_cases hle : e.1 ≤ t
    · rw [List.filter_cons_of_pos (by simpa using hle)]
      exact List.cons_prefix_cons.mpr ⟨rfl, ih hrest⟩
    · have hnone : (e :: events).filter (fun e => decide (e.1 ≤ t)) = [] := by
        rw [List.filter_eq_nil_iff]
        intro e' he' hle'
        rcases List.mem_cons.mp he' with rfl | he'
        · exact hle (of_decide_eq_true hle')
        · have hge : e.1 ≤ e'.1 := (he e' he').elim le_of_lt fun h => h.1.le
          exact hle (hge.trans (of_decide_eq_true hle'))
      rw [hnone]
      exact List.nil_prefix

/-- A sum that has just gone up is at most the one after the last event of the instant. -/
theorem sum_le_sumUpTo {front rest : List (α × ℤ)} {e : α × ℤ}
    (h : InOrder (front ++ [e] ++ rest)) (hup : 0 ≤ e.2) :
    ((front ++ [e]).map Prod.snd).sum ≤ sumUpTo e.1 (front ++ [e] ++ rest) := by
  obtain ⟨hfront, -, hrest⟩ := List.pairwise_append.mp h
  have hmem : e ∈ front ++ [e] := List.mem_append_right _ (List.mem_singleton.mpr rfl)
  have hearlier : ∀ x ∈ front ++ [e], x.1 ≤ e.1 := by
    intro x hx
    rcases List.mem_append.mp hx with hx | hx
    · exact ((List.pairwise_append.mp hfront).2.2 x hx e (List.mem_singleton.mpr rfl)).elim le_of_lt
        fun h => h.1.le
    · rw [List.mem_singleton.mp hx]
  have hall : (front ++ [e]).filter (fun x => decide (x.1 ≤ e.1)) = front ++ [e] :=
    List.filter_eq_self.mpr fun x hx => decide_eq_true (hearlier x hx)
  have hlater : 0 ≤ sumUpTo e.1 rest := by
    refine List.sum_nonneg fun d hd => ?_
    obtain ⟨x, hx, rfl⟩ := List.mem_map.mp hd
    obtain ⟨hx, hle⟩ := List.mem_filter.mp hx
    rcases hrest e hmem x hx with hlt | ⟨-, hdelta⟩
    · exact absurd (of_decide_eq_true hle) (not_le.mpr hlt)
    · exact hup.trans hdelta
  rw [sumUpTo_append, sumUpTo, hall]
  exact le_add_of_nonneg_right hlater

variable {intervals : List (α × α)} {events : List (α × ℤ)}

/-- **No running sum is above every overlap.** -/
theorem exists_le_overlap [Nonempty α] (hordered : ∀ i ∈ intervals, i.1 ≤ i.2)
    (hperm : events.Perm (endpoints intervals)) (hinOrder : InOrder events)
    {front : List (α × ℤ)} (hfront : front <+: events) :
    ∃ t, (front.map Prod.snd).sum ≤ overlap intervals t := by
  induction front using List.reverseRecOn with
  | nil => exact ⟨Classical.arbitrary α, Int.natCast_nonneg _⟩
  | append_singleton front e ih =>
    obtain ⟨rest, hrest⟩ := hfront
    rcases le_or_gt 0 e.2 with hup | hdown
    · refine ⟨e.1, ?_⟩
      rw [← sumUpTo_endpoints hordered, ← sumUpTo_eq_of_perm hperm, ← hrest]
      exact sum_le_sumUpTo (hrest ▸ hinOrder) hup
    · obtain ⟨t, ht⟩ := ih ⟨[e] ++ rest, by rw [← List.append_assoc, hrest]⟩
      refine ⟨t, le_trans ?_ ht⟩
      rw [List.map_append, List.sum_append, List.map_singleton, List.sum_singleton]
      linarith

/-- **The highest sum is the greatest overlap.** -/
theorem isGreatest_overlap [Nonempty α] (hordered : ∀ i ∈ intervals, i.1 ≤ i.2)
    (hperm : events.Perm (endpoints intervals)) (hinOrder : InOrder events) :
    IsGreatest {n : ℤ | ∃ t, n = overlap intervals t} (highest (events.map Prod.snd)) := by
  obtain ⟨⟨front, hfront, hsum⟩, hupper⟩ := isGreatest_highest (events.map Prod.snd)
  have hbound : ∀ t, (overlap intervals t : ℤ) ≤ highest (events.map Prod.snd) := by
    intro t
    rw [← sumUpTo_endpoints hordered, ← sumUpTo_eq_of_perm hperm]
    exact hupper ⟨_, (filter_prefix_of_inOrder hinOrder t).map _, rfl⟩
  constructor
  · obtain ⟨front', hfront', rfl⟩ := List.prefix_map_iff.mp hfront
    obtain ⟨t, ht⟩ := exists_le_overlap hordered hperm hinOrder hfront'
    exact ⟨t, le_antisymm (hsum.le.trans ht) (hbound t)⟩
  · rintro n ⟨t, rfl⟩
    exact hbound t

end Sweeps
end FederatedMessaging
