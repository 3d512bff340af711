import FederatedMessaging.Analysis.WindowAgreement

/-!
# The period an interaction is filed under

A throughput run has three periods, split at the two ends of its window, and every record
carries the name of one.  An interaction that completed belongs to the period of its
completion, and one that did not to the period it was initiated in.

The engine tests the initiation of an interaction without a completion against the start of
the window only.  A slot looks at the clock before it initiates, and the initiation is
stamped later; so a request can be initiated at or past the end of the window, and if it
never completes it is filed under `window`.  `filedRight_iff` says that this is the one way
to a wrong label.
-/

namespace FederatedMessaging
namespace Analysis

open PythonText Human Benchmark LabelledRuns

/-- The half-open period that contains an instant. -/
def periodOf (windowStart windowEnd t : ℤ) : RunPhase :=
  if t < windowStart then .warmup else if t < windowEnd then .window else .drain

/-- The instant that decides an interaction's period: its completion, or its initiation if
it has none. -/
def decisiveNs (r : Record) : ℤ := r.completedMonotonicNs.getD r.initiatedMonotonicNs

/-- **Every record of the run carries the name of its period.** -/
def FiledRight (w : ThroughputState) : Prop :=
  ∀ r ∈ w.result.records, r.phase = periodOf w.windowStartNs w.windowEndNs (decisiveNs r)

/-- The interaction never completed, and was initiated when the window was over. -/
def InitiatedLate (w : ThroughputState) (it : Interaction) : Prop :=
  it.completedMonotonicNs = none ∧ w.windowStartNs ≤ it.initiatedMonotonicNs ∧
    w.windowEndNs ≤ it.initiatedMonotonicNs

/-- A property of one list, read off the other of two that correspond. -/
theorem forall_mem_iff_of_forall₂ {α β : Type*} {R : α → β → Prop} {P : α → Prop} {Q : β → Prop}
    {l : List α} {l' : List β} (h : List.Forall₂ R l l') (hPQ : ∀ a b, R a b → (Q b ↔ P a)) :
    (∀ b ∈ l', Q b) ↔ ∀ a ∈ l, P a := by
  induction h with
  | nil => exact iff_of_true (List.forall_mem_nil Q) (List.forall_mem_nil P)
  | cons hab _ ih => rw [List.forall_mem_cons, List.forall_mem_cons, hPQ _ _ hab, ih]

section Labels

variable {config : RunConfig} {w : ThroughputState}

/-- **One interaction**: the branch without a completion misses the end of the window. -/
theorem phaseOf_eq_periodOf_iff (it : Interaction) :
    w.phaseOf it = periodOf w.windowStartNs w.windowEndNs
      (it.completedMonotonicNs.getD it.initiatedMonotonicNs) ↔ ¬ InitiatedLate w it := by
  unfold ThroughputState.phaseOf periodOf InitiatedLate
  cases hcompleted : it.completedMonotonicNs with
  | some finished =>
    refine iff_of_true ?_ fun h => Option.some_ne_none finished h.1
    simp only [Option.getD_some]
  | none =>
    simp only [Option.getD_none, true_and, not_and, not_le]
    split_ifs with hstart hend
    · exact iff_of_true rfl fun h => absurd hstart (not_lt.mpr h)
    · exact iff_of_true rfl fun _ => hend
    · exact iff_of_false (by decide) fun h => hend (h (not_lt.mp hstart))

/-- The records of a returned run are right if none of its interactions came late. -/
theorem filedRight_iff_of_allRecorded (hall : AllRecorded config w) :
    FiledRight w ↔ ∀ call ∈ w.human.calls, ¬ InitiatedLate w call.interaction := by
  obtain ⟨its, hperm, hrecorded⟩ := hall.interactions
  have hlabel : ∀ it r, RecordedAs config w it r →
      (r.phase = periodOf w.windowStartNs w.windowEndNs (decisiveNs r) ↔ ¬ InitiatedLate w it) := by
    intro it r h
    obtain ⟨hphase, -, hinitiated, hcompleted⟩ := fields_of_recordedAs h
    rw [decisiveNs, hphase, hinitiated, hcompleted]
    exact phaseOf_eq_periodOf_iff it
  have hits : FiledRight w ↔ ∀ it ∈ its, ¬ InitiatedLate w it :=
    forall_mem_iff_of_forall₂ hrecorded hlabel
  rw [hits]
  constructor
  · intro h call hcall
    exact h call.interaction (hperm.mem_iff.mpr (List.mem_map_of_mem hcall))
  · intro h it hit
    obtain ⟨call, hcall, rfl⟩ := List.mem_map.mp (hperm.mem_iff.mp hit)
    exact h call hcall

end Labels

/-- **The labels of a returned run name the right periods exactly when none of its
interactions was initiated after the window and left without a completion.** -/
theorem filedRight_iff (clock : MonotonicClock) (config : RunConfig) (roomId : Option Text)
    (labels : List ThroughputState.Label) (w : ThroughputState)
    (hrun : exec (ThroughputState.step clock config)
      (ThroughputState.start clock config (State.initial roomId)) labels = some w)
    (hreturned : w.stage = .returned) :
    FiledRight w ↔ ∀ call ∈ w.human.calls, ¬ InitiatedLate w call.interaction := by
  have hinv := invariant_of_exec (RunInv config) (fun _ _ _ h => runInv_step h)
    (runInv_start clock config roomId) hrun
  exact filedRight_iff_of_allRecorded (hinv.returned hreturned)

/-! ### A request stamped after the stop check -/

/-- One slot, no warm-up, and a window of two nanoseconds. -/
def briefWindow : RunConfig :=
  { twoRequests with concurrency := 1, warmupSeconds := 0, measurementSeconds := 2 / 10 ^ 9 }

/-- The slot reads the clock inside the window, stamps its request behind it, and the send
is rejected. -/
def lateRequest : List ThroughputState.Label :=
  [.slotStarts 0, .human (.sendRejected 0 [] []), .gathered]

/-- **A request initiated at 3 is filed under the window `[0, 2)`.** -/
theorem lateRequest_not_filedRight :
    ∃ w, exec (ThroughputState.step (steadyClock 1) briefWindow)
        (ThroughputState.start (steadyClock 1) briefWindow (State.initial (some ['!', 'r'])))
        lateRequest = some w ∧
      w.stage = .returned ∧ (w.windowStartNs, w.windowEndNs) = (0, 2) ∧
      w.result.records.map (fun r => (r.phase, r.initiatedMonotonicNs, r.completedMonotonicNs)) =
        [(.window, 3, none)] ∧
      ¬ FiledRight w := by
  have hend : (exec (ThroughputState.step (steadyClock 1) briefWindow)
      (ThroughputState.start (steadyClock 1) briefWindow (State.initial (some ['!', 'r'])))
      lateRequest).any (fun w => w.stage = .returned &&
        ((w.windowStartNs, w.windowEndNs) = (0, 2) && w.result.records.map (fun r =>
          (r.phase, r.initiatedMonotonicNs, r.completedMonotonicNs)) = [(.window, 3, none)])) =
      true := by decide +kernel
  obtain ⟨w, hw, hfacts⟩ := (Option.any_eq_true _ _).mp hend
  simp only [Bool.and_eq_true, decide_eq_true_eq] at hfacts
  obtain ⟨hstage, hbounds, hrecords⟩ := hfacts
  refine ⟨w, hw, hstage, hbounds, hrecords, fun h => ?_⟩
  obtain ⟨r, hr, hfields⟩ : ∃ r ∈ w.result.records,
      (r.phase, r.initiatedMonotonicNs, r.completedMonotonicNs) = (.window, 3, none) :=
    List.mem_map.mp (hrecords ▸ List.mem_cons_self)
  obtain ⟨hphase, htimes⟩ := Prod.mk.inj hfields
  obtain ⟨hinitiated, hcompleted⟩ := Prod.mk.inj htimes
  obtain ⟨hstart, hend'⟩ := Prod.mk.inj hbounds
  have hlabel := h r hr
  rw [decisiveNs, hphase, hinitiated, hcompleted, hstart, hend'] at hlabel
  exact absurd hlabel (by decide)

/-- The two crossing slots leave every label right, one of a rejected request among them. -/
theorem crossedRequests_filedRight :
    ∃ w, exec (ThroughputState.step (steadyClock 1) twoSlots)
        (ThroughputState.start (steadyClock 1) twoSlots (State.initial (some ['!', 'r'])))
        crossedRequests = some w ∧ FiledRight w := by
  have hend : (exec (ThroughputState.step (steadyClock 1) twoSlots)
      (ThroughputState.start (steadyClock 1) twoSlots (State.initial (some ['!', 'r'])))
      crossedRequests).any (fun w => w.stage = .returned && (w.windowEndNs = 25 &&
        w.human.calls.all fun call => call.interaction.initiatedMonotonicNs < 25)) =
      true := by decide +kernel
  obtain ⟨w, hw, hfacts⟩ := (Option.any_eq_true _ _).mp hend
  simp only [Bool.and_eq_true, decide_eq_true_eq, List.all_eq_true] at hfacts
  obtain ⟨hstage, hwindow, hearly⟩ := hfacts
  refine ⟨w, hw, (filedRight_iff (steadyClock 1) twoSlots (some ['!', 'r']) crossedRequests w hw
    hstage).mpr ?_⟩
  rintro call hcall ⟨-, -, hlate⟩
  have hinitiated := hearly call hcall
  rw [hwindow] at hlate
  omega

end Analysis
end FederatedMessaging
