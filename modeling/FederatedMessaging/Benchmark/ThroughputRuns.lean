import FederatedMessaging.Benchmark.Evidence
import FederatedMessaging.Common.TransactionIds

/-!
# What the throughput workload can do

The steps of the throughput workload, once and for all, so that its invariants need not
look into the code again.

## 1.  Slots

The calls of a run are completed or awaited by a slot, each once (`SlotsFit`); completing
a call and beginning the next one keep that.

## 2.  The head of a slot's loop

`Loops` has one constructor for each way through it: the request raises, the next call is
made, or the slot stops.  What is known of the clock and of the new call stands with it.

## 3.  Steps

`Advances` lists the steps: the participant moves and no slot notices, or the slot whose
call has returned goes on; a slot starts; the accounting is done.

## 4.  The accounting

One pass over the completed interactions, which cannot raise, since a request that could
be made has both its transaction ids.
-/

namespace FederatedMessaging
namespace Benchmark

open PythonText Message Human

/-! ## 1.  Slots -/

/-- The call a slot awaits. -/
def Slot.awaited : Slot → Option ℕ
  | .awaiting call => some call
  | .ready => none
  | .stopped => none

/-- The call that slot `j` awaits. -/
def awaitedBy (slots : List Slot) (j : ℕ) : Option ℕ := slots[j]?.bind Slot.awaited

/-- The first `n` calls are completed or awaited, each once. -/
structure SlotsFit (n : ℕ) (completed : List ℕ) (awaited : ℕ → Option ℕ) : Prop where
  nodup : completed.Nodup
  covered : ∀ i, i < n ↔ i ∈ completed ∨ ∃ j, awaited j = some i
  apart : ∀ i j, awaited j = some i → i ∉ completed
  inj : ∀ i j j', awaited j = some i → awaited j' = some i → j = j'

variable {n j : ℕ} {completed : List ℕ} {awaited : ℕ → Option ℕ}

/-- A slot's call is completed. -/
theorem SlotsFit.complete (h : SlotsFit n completed awaited) {i : ℕ} (hj : awaited j = some i) :
    SlotsFit n (completed ++ [i]) (Function.update awaited j none) := by
  have hother : ∀ i' j', Function.update awaited j none j' = some i' →
      awaited j' = some i' ∧ i' ≠ i := by
    intro i' j' hj'
    by_cases hjj : j' = j
    · rw [hjj, Function.update_self] at hj'
      cases hj'
    · rw [Function.update_of_ne hjj] at hj'
      exact ⟨hj', fun hi => hjj (h.inj i j' j (hi ▸ hj') hj)⟩
  refine ⟨?_, fun i' => ?_, fun i' j' hj' => ?_, fun i' j' j'' hj' hj'' => ?_⟩
  · rw [← List.concat_eq_append]
    exact List.Nodup.concat (h.apart i j hj) h.nodup
  · rw [h.covered, List.mem_append, List.mem_singleton]
    constructor
    · rintro (hmem | ⟨j', hj'⟩)
      · exact Or.inl (Or.inl hmem)
      · by_cases hjj : j' = j
        · exact Or.inl (Or.inr (Option.some_inj.mp (hj'.symm.trans (hjj ▸ hj))))
        · exact Or.inr ⟨j', by rwa [Function.update_of_ne hjj]⟩
    · rintro ((hmem | rfl) | ⟨j', hj'⟩)
      · exact Or.inl hmem
      · exact Or.inr ⟨j, hj⟩
      · exact Or.inr ⟨j', (hother i' j' hj').1⟩
  · obtain ⟨hawaited, hne⟩ := hother i' j' hj'
    rw [List.mem_append, List.mem_singleton, not_or]
    exact ⟨h.apart i' j' hawaited, hne⟩
  · exact h.inj i' j' j'' (hother i' j' hj').1 (hother i' j'' hj'').1

/-- An idle slot takes the next call. -/
theorem SlotsFit.begin (h : SlotsFit n completed awaited) (hj : awaited j = none) :
    SlotsFit (n + 1) completed (Function.update awaited j (some n)) := by
  have hnew : n ∉ completed := fun hmem => absurd ((h.covered n).mpr (Or.inl hmem)) (lt_irrefl n)
  have hunawaited : ∀ j', awaited j' ≠ some n := fun j' hj' =>
    absurd ((h.covered n).mpr (Or.inr ⟨j', hj'⟩)) (lt_irrefl n)
  have hcases : ∀ i j', Function.update awaited j (some n) j' = some i →
      (j' = j ∧ i = n) ∨ (j' ≠ j ∧ awaited j' = some i) := by
    intro i j' hj'
    by_cases hjj : j' = j
    · rw [hjj, Function.update_self] at hj'
      exact Or.inl ⟨hjj, (Option.some_inj.mp hj').symm⟩
    · rw [Function.update_of_ne hjj] at hj'
      exact Or.inr ⟨hjj, hj'⟩
  refine ⟨h.nodup, fun i => ?_, fun i j' hj' => ?_, fun i j' j'' hj' hj'' => ?_⟩
  · rw [Nat.lt_succ_iff_lt_or_eq, h.covered]
    constructor
    · rintro ((hmem | ⟨j', hj'⟩) | rfl)
      · exact Or.inl hmem
      · have hjj : j' ≠ j := by
          rintro rfl
          rw [hj] at hj'
          cases hj'
        exact Or.inr ⟨j', by rwa [Function.update_of_ne hjj]⟩
      · exact Or.inr ⟨j, Function.update_self ..⟩
    · rintro (hmem | ⟨j', hj'⟩)
      · exact Or.inl (Or.inl hmem)
      · rcases hcases i j' hj' with ⟨-, rfl⟩ | ⟨-, hawaited⟩
        · exact Or.inr rfl
        · exact Or.inl (Or.inr ⟨j', hawaited⟩)
  · rcases hcases i j' hj' with ⟨-, rfl⟩ | ⟨-, hawaited⟩
    · exact hnew
    · exact h.apart i j' hawaited
  · rcases hcases i j' hj' with ⟨rfl, rfl⟩ | ⟨-, hawaited⟩ <;>
      rcases hcases _ j'' hj'' with ⟨rfl, hi⟩ | ⟨-, hawaited'⟩
    · rfl
    · exact absurd hawaited' (hunawaited j'')
    · exact absurd (hi ▸ hawaited) (hunawaited j')
    · exact h.inj i j' j'' hawaited hawaited'

theorem awaitedBy_set {slots : List Slot} (hj : j < slots.length) (slot : Slot) :
    awaitedBy (slots.set j slot) = Function.update (awaitedBy slots) j slot.awaited := by
  funext j'
  by_cases hjj : j' = j
  · rw [hjj, Function.update_self, awaitedBy, List.getElem?_set_self hj]
    rfl
  · rw [Function.update_of_ne hjj, awaitedBy, List.getElem?_set_ne (Ne.symm hjj)]
    rfl

/-- When no slot awaits a call, the completed calls are all the calls. -/
theorem SlotsFit.perm_range (h : SlotsFit n completed awaited) (hidle : ∀ j, awaited j = none) :
    completed.Perm (List.range n) := by
  refine (List.perm_ext_iff_of_nodup h.nodup List.nodup_range).mpr fun i => ?_
  rw [List.mem_range, h.covered, or_iff_left]
  rintro ⟨j, hj⟩
  rw [hidle j] at hj
  cases hj

/-- Reading a list index by index. -/
theorem filterMap_range_map {α β : Type*} (f : α → β) (l : List α) :
    ((List.range l.length).filterMap fun i => l[i]?.map f) = l.map f := by
  have hmap : ((List.range l.length).map fun i => l[i]?.map f) = (l.map f).map some := by
    refine List.ext_getElem (by simp) fun i hi _ => ?_
    have hlt : i < l.length := by simpa using hi
    simp [List.getElem?_eq_getElem hlt]
  calc (List.range l.length).filterMap (fun i => l[i]?.map f)
      = ((List.range l.length).map fun i => l[i]?.map f).filterMap id := by
        rw [List.filterMap_map]
        rfl
    _ = l.map f := by
        rw [hmap, List.filterMap_map]
        exact List.filterMap_some

/-! ## 2.  The head of a slot's loop -/

/-- The workload has made this call. -/
structure Made (clock : MonotonicClock) (config : RunConfig) (s s' : State) (call : Call) :
    Prop where
  calls : s'.calls = s.calls ++ [call]
  reads : s'.reads = s.reads + 2
  inFlight : s'.inFlight = s.inFlight + 1
  phase : call.phase = .sending
  timeout : call.timeout = some config.timeoutSeconds
  interaction : ∃ correlation txnId,
    call.interaction = .new correlation txnId (clock.read (s.reads + 1))
  response : ∃ x, call.interaction.correlation.txnId Direction.response.value = .ok x

/-- A correlation has both its transaction ids or none. -/
theorem exists_response_txnId {c : Correlation} {x : Text}
    (h : c.txnId Direction.request.value = .ok x) :
    ∃ y, c.txnId Direction.response.value = .ok y := by
  obtain ⟨s, hs, -⟩ := txnId_eq_ok h
  unfold Correlation.txnId
  rw [if_pos (Or.inr rfl), hs]
  exact ⟨_, rfl⟩

/-- What a request of the workload that is made leaves behind. -/
theorem made_of_issue {clock : MonotonicClock} {config : RunConfig} {s s' : State}
    {sequence i : ℕ} (h : issue clock config s sequence = (s', some i)) :
    i = s.calls.length ∧ ∃ call, Made clock config s s' call := by
  unfold issue at h
  split at h
  · cases (Prod.mk.inj h).2
  rename_i correlation hnew
  split at h
  · cases (Prod.mk.inj h).2
  rename_i human call hrequest
  obtain ⟨rfl, hi⟩ := Prod.mk.inj h
  obtain rfl := Option.some_inj.mp hi
  unfold State.request at hrequest
  split at hrequest
  · cases (Prod.mk.inj hrequest).2
  · cases (Prod.mk.inj hrequest).2
  rename_i txnId _ htxn
  split at hrequest
  · cases (Prod.mk.inj hrequest).2
  obtain ⟨rfl, hi⟩ := Prod.mk.inj hrequest
  refine ⟨(Except.ok.inj hi).symm, _, rfl, rfl, rfl, rfl, rfl, ⟨_, _, rfl⟩, ?_⟩
  exact exists_response_txnId htxn

section Steps

variable {clock : MonotonicClock} {config : RunConfig} {w w' : ThroughputState} {j : ℕ}

/-- **The ways through the head of slot `j`'s loop.** -/
inductive Loops (clock : MonotonicClock) (config : RunConfig) (w : ThroughputState) (j : ℕ) :
    ThroughputState → Prop where
  | raised (human : State) : Loops clock config w j { w with human := human, stage := .raised }
  | issued (human : State) (call : Call) (hnow : (clock.read w.human.reads : ℤ) < w.windowEndNs)
    (hmade : Made clock config (readClock clock w.human).2 human call)
    (hrun : RunCalls config human) : Loops clock config w j
      { w with
        human := human
        sequence := w.sequence + 1
        slots := w.slots.set j (.awaiting w.human.calls.length) }
  | stopped (hnow : w.windowEndNs ≤ (clock.read w.human.reads : ℤ)) : Loops clock config w j
      { w with human := (readClock clock w.human).2, slots := w.slots.set j .stopped }

theorem loops_loop (hrun : RunCalls config w.human)
    (hsequence : w.sequence = w.human.calls.length + 1) :
    Loops clock config w j (w.loop clock config j) := by
  unfold ThroughputState.loop
  by_cases hnow : (clock.read w.human.reads : ℤ) < w.windowEndNs
  · rcases hissue : issue clock config (readClock clock w.human).2 w.sequence with ⟨human, next⟩
    have hread : readClock clock w.human =
        ((clock.read w.human.reads : ℤ), (readClock clock w.human).2) := rfl
    rw [hread]
    dsimp only
    rw [if_pos hnow, hissue]
    cases next with
    | none => exact .raised human
    | some call =>
      obtain ⟨rfl, made, hmade⟩ := made_of_issue hissue
      obtain ⟨-, hnext⟩ := issue_cases hrun.readClock hsequence hissue
      exact .issued human made hnow hmade (hnext _ rfl).2.2
  · have hbranch : w.loop clock config j =
        { w with human := (readClock clock w.human).2, slots := w.slots.set j .stopped } :=
      if_neg hnow
    unfold ThroughputState.loop at hbranch
    rw [hbranch]
    exact .stopped (not_lt.mp hnow)

/-! ## 3.  Steps -/

theorem external_of_ne {l : Human.Label}
    (hrequest : ∀ correlation bodyBytes timeout, l ≠ .request correlation bodyBytes timeout)
    (hoffline : ∀ correlation, l ≠ .sendOffline correlation) : l.External := by
  cases l with
  | request correlation bodyBytes timeout =>
    exact absurd rfl (hrequest correlation bodyBytes timeout)
  | sendOffline correlation => exact absurd rfl (hoffline correlation)
  | _ => trivial

/-- **The steps of the workload.** -/
inductive Advances (clock : MonotonicClock) (config : RunConfig) (w : ThroughputState) :
    ThroughputState.Label → ThroughputState → Prop where
  /-- the participant moves, and no slot's call has ended -/
  | waits (l : Human.Label) (human : State) (hl : l.External)
    (hhuman : Human.step clock w.human l = some human) :
    Advances clock config w (.human l) { w with human := human }
  /-- the awaited call of a slot has raised -/
  | raised (l : Human.Label) (human : State) :
    Advances clock config w (.human l) { w with human := human, stage := .raised }
  /-- the awaited call of a slot has returned, and the slot goes on -/
  | completes (l : Human.Label) (human : State) (j i : ℕ) (call : Call) (w' : ThroughputState)
    (hl : l.External) (hhuman : Human.step clock w.human l = some human)
    (hslot : w.slots[j]? = some (.awaiting i)) (hcall : human.calls[i]? = some call)
    (hphase : call.phase = .returned)
    (hloops : Loops clock config
      { w with human := human, completed := w.completed ++ [i] } j w') :
    Advances clock config w (.human l) w'
  | starts (j : ℕ) (w' : ThroughputState) (hslot : w.slots[j]? = some .ready)
    (hloops : Loops clock config w j w') : Advances clock config w (.slotStarts j) w'
  | finishes (hstopped : ∀ slot ∈ w.slots, slot = .stopped) :
    Advances clock config w .gathered (w.finish config)

/-- What the slots do when the participant has moved. -/
theorem advances_resume {l : Human.Label} {human : State} (hrun : RunCalls config w.human)
    (hsequence : w.sequence = w.human.calls.length + 1) (hl : l.External)
    (hhuman : Human.step clock w.human l = some human) :
    Advances clock config w (.human l)
      (ThroughputState.resume clock config { w with human := human }) := by
  unfold ThroughputState.resume
  split
  · exact .waits l human hl hhuman
  · rename_i j hfind
    have hended := List.of_findIdx?_eq_some hfind
    split
    · rename_i i hslot
      split
      · rename_i it timeout hcall
        refine .completes l human j i _ _ hl hhuman hslot hcall rfl
          (loops_loop (hrun.step hl hhuman) ?_)
        rw [length_calls_step hl hhuman]
        exact hsequence
      · exact .raised l human
    · -- The slot that was found awaits a call.
      rename_i hnot
      dsimp only at hended
      cases hslot : w.slots[j]? with
      | none =>
        rw [hslot] at hended
        cases hended
      | some slot =>
        rw [hslot] at hended
        cases slot with
        | awaiting i => exact absurd hslot (hnot i)
        | ready => cases hended
        | stopped => cases hended

/-- There is no step after the end. -/
theorem stage_of_step {l : ThroughputState.Label} (h : w.step clock config l = some w') :
    w.stage = .gathering := by
  cases hstage : w.stage with
  | gathering => rfl
  | returned =>
    simp [ThroughputState.step, hstage] at h
  | raised =>
    simp [ThroughputState.step, hstage] at h

theorem advances_of_step {l : ThroughputState.Label} (hrun : RunCalls config w.human)
    (hsequence : w.sequence = w.human.calls.length + 1) (h : w.step clock config l = some w') :
    Advances clock config w l w' := by
  unfold ThroughputState.step at h
  split at h
  · cases h
  · cases h
  · cases h
  · cases h
  · rename_i l' hrequest hoffline _ _
    obtain ⟨human, hhuman, hw'⟩ := Option.bind_eq_some_iff.mp h
    have hl := external_of_ne hrequest hoffline
    rw [← Option.some_inj.mp hw']
    exact advances_resume hrun hsequence hl hhuman
  · rename_i j _ _
    split at h
    · rename_i hready
      rw [← Option.some_inj.mp h]
      exact .starts j _ hready (loops_loop hrun hsequence)
    · cases h
  · split at h
    · rename_i hstopped
      rw [← Option.some_inj.mp h]
      exact .finishes hstopped
    · cases h

/-! ## 4.  The accounting -/

/-- The record of an interaction. -/
def RecordedAs (config : RunConfig) (w : ThroughputState) (it : Interaction) (r : Record) : Prop :=
  recordOf config it (w.phaseOf it) (some w.windowStartNs) (some w.windowEndNs) = .ok r

/-- What accounting for these interactions adds to a result. -/
structure AccountsFor (config : RunConfig) (w : ThroughputState) (its : List Interaction)
    (before after : WorkloadResult) : Prop where
  records : ∃ rs, after.records = before.records ++ rs ∧ List.Forall₂ (RecordedAs config w) its rs
  initiated : after.initiated = before.initiated + its.length
  atWindowStart : after.outstandingAtWindowStart = before.outstandingAtWindowStart +
    its.countP (ThroughputState.outstandingAt w.windowStartNs)
  atWindowEnd : after.outstandingAtWindowEnd = before.outstandingAtWindowEnd +
    its.countP (ThroughputState.outstandingAt w.windowEndNs)
  windowStart : after.windowStartNs = before.windowStartNs
  windowEnd : after.windowEndNs = before.windowEndNs

/-- The counters that the tallies leave alone. -/
theorem tally_frame (result : WorkloadResult) (it : Interaction) :
    let result' := tallyIntegrity (tallySend result it) it
    result'.records = result.records ∧ result'.initiated = result.initiated ∧
      result'.outstandingAtWindowStart = result.outstandingAtWindowStart ∧
      result'.outstandingAtWindowEnd = result.outstandingAtWindowEnd ∧
      result'.windowStartNs = result.windowStartNs ∧ result'.windowEndNs = result.windowEndNs := by
  intro result'
  unfold result' tallyIntegrity tallySend
  split_ifs <;> exact ⟨rfl, rfl, rfl, rfl, rfl, rfl⟩

/-- The accounting of one interaction. -/
theorem exists_account {it : Interaction}
    (hresponse : ∃ x, it.correlation.txnId Direction.response.value = .ok x)
    (result : WorkloadResult) :
    ∃ result', w.account config result it = .ok result' ∧
      AccountsFor config w [it] result result' := by
  obtain ⟨x, hx⟩ := hresponse
  obtain ⟨r, hr⟩ : ∃ r, RecordedAs config w it r := by
    unfold RecordedAs recordOf
    rw [hx]
    exact ⟨_, rfl⟩
  unfold ThroughputState.account
  dsimp only
  have hr' := hr
  unfold RecordedAs at hr'
  rw [hr']
  obtain ⟨hrecords, hinitiated, hstart, hend, hwindowStart, hwindowEnd⟩ :=
    tally_frame { result with initiated := result.initiated + 1 } it
  refine ⟨_, rfl, ⟨[r], ?_, .cons hr .nil⟩, ?_, ?_, ?_, hwindowStart, hwindowEnd⟩
  · exact congrArg (· ++ [r]) hrecords
  · exact hinitiated
  · rw [List.countP_singleton]
    exact congrArg (· + _) hstart
  · rw [List.countP_singleton]
    exact congrArg (· + _) hend

theorem AccountsFor.append {its its' : List Interaction} {before middle after : WorkloadResult}
    (h : AccountsFor config w its before middle) (h' : AccountsFor config w its' middle after) :
    AccountsFor config w (its ++ its') before after := by
  obtain ⟨rs, hrs, hrecorded⟩ := h.records
  obtain ⟨rs', hrs', hrecorded'⟩ := h'.records
  refine ⟨⟨rs ++ rs', ?_, List.rel_append hrecorded hrecorded'⟩, ?_, ?_, ?_,
    h'.windowStart.trans h.windowStart, h'.windowEnd.trans h.windowEnd⟩
  · rw [hrs', hrs, List.append_assoc]
  · rw [h'.initiated, h.initiated, List.length_append, Nat.add_assoc]
  · rw [h'.atWindowStart, h.atWindowStart, List.countP_append, Nat.add_assoc]
  · rw [h'.atWindowEnd, h.atWindowEnd, List.countP_append, Nat.add_assoc]

/-- **The accounting of a list of interactions.** -/
theorem exists_accounting (config : RunConfig) {its : List Interaction}
    (hresponse : ∀ it ∈ its, ∃ x, it.correlation.txnId Direction.response.value = .ok x)
    (result : WorkloadResult) :
    ∃ result', its.foldlM (w.account config) result = .ok result' ∧
      AccountsFor config w its result result' := by
  induction its generalizing result with
  | nil =>
    exact ⟨result, rfl, ⟨[], (List.append_nil _).symm, .nil⟩, rfl, rfl, rfl, rfl, rfl⟩
  | cons it its ih =>
    obtain ⟨middle, hmiddle, haccounts⟩ := exists_account (hresponse it List.mem_cons_self) result
    obtain ⟨after, hafter, haccounts'⟩ :=
      ih (fun it' hit' => hresponse it' (List.mem_cons_of_mem it hit')) middle
    refine ⟨after, ?_, haccounts.append haccounts'⟩
    rw [List.foldlM_cons, hmiddle]
    exact hafter

/-- What follows the gathering returns. -/
theorem exists_finish
    (hresponse : ∀ it ∈ w.interactions, ∃ x,
      it.correlation.txnId Direction.response.value = .ok x) :
    ∃ result, w.finish config = { w with result := result, stage := .returned } ∧
      AccountsFor config w w.interactions w.result result := by
  obtain ⟨result, hresult, haccounts⟩ := exists_accounting config hresponse w.result
  refine ⟨result, ?_, haccounts⟩
  rw [ThroughputState.finish, hresult]

end Steps

end Benchmark
end FederatedMessaging
