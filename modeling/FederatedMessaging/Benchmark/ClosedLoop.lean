import FederatedMessaging.Benchmark.ThroughputRuns
import FederatedMessaging.Foundations.LabelledRuns

/-!
# The closed loop

The slots of a throughput run share one counter of sequence ids, one list of completed
interactions and one clock-driven stop condition, and they finish in any order.

## 1.  The participant's count

`_in_flight` goes up with a request and down when it ends, so it is the number of calls
whose `request` is still running.

## 2.  The invariant

The calls of a run are numbered from one; each is completed or awaited by one slot; and a
completed call has returned.  A call in flight is therefore awaited, and there are no more
awaited calls than slots.

## 3.  The law

`closedLoop` collects what follows for every interleaving in which the requests return:
the bound, the ids, one record for each interaction, and the end of initiations.
-/

namespace FederatedMessaging
namespace Benchmark

open PythonText Message Human LabelledRuns

variable {clock : MonotonicClock} {config : RunConfig}

/-! ## 1.  The participant's count -/

section Participant

variable {s s' : State} {call call' : Call} {h : Happening}

/-- A call that has ended stays ended. -/
theorem phase_after_returned (hphase : call.phase = .returned)
    (hafter : call.after h = some call') :
    call'.phase = .returned := by
  cases becomes_of_after hafter with
  | acknowledged => exact hphase
  | exhausted => rfl
  | sent e now armed timeout phase hsending => exact nomatch hphase.symm.trans hsending
  | sentOffline => rfl
  | rejected => rfl
  | rejectedOffline errcode message hsending => exact nomatch hphase.symm.trans hsending
  | sendRaised =>
    unfold Call.after at hafter
    rw [hphase] at hafter
    cases hafter
  | timerFired now deadline hwaiting => exact nomatch hphase.symm.trans hwaiting
  | answered => rfl
  | expired => rfl

/-- No call comes back in flight. -/
theorem inFlight_of_after (hafter : call.after h = some call') (hflight : call'.inFlight = true) :
    call.inFlight = true := by
  cases becomes_of_after hafter with
  | acknowledged => exact hflight
  | exhausted => simp [Call.inFlight, Phase.running] at hflight
  | sent e now armed timeout phase hsending htimeout =>
    rw [Call.inFlight, hsending, htimeout]
    rfl
  | sentOffline => simp [Call.inFlight, Phase.running] at hflight
  | rejected => simp [Call.inFlight, Phase.running] at hflight
  | rejectedOffline => simp [Call.inFlight, Phase.running] at hflight
  | sendRaised => simp [Call.inFlight, Phase.running] at hflight
  | timerFired now deadline hwaiting =>
    rw [Call.inFlight, hwaiting]
    simpa [Call.inFlight, Phase.running] using hflight
  | answered => simp [Call.inFlight, Phase.running] at hflight
  | expired => simp [Call.inFlight, Phase.running] at hflight

/-- What a step that makes no call does to the whole state. -/
theorem exists_apply_of_step {l : Human.Label} (hl : l.External)
    (hstep : Human.step clock s l = some s') :
    (∃ i h, s.happening clock l = some (i, h) ∧ s.apply i h = some s') ∨
      s' = { s with reads := s.reads + 1 } := by
  cases l with
  | request => exact absurd hl id
  | sendOffline => exact absurd hl id
  | deliver event episode =>
    rw [step_deliver] at hstep
    cases htarget : s.happening clock (.deliver event episode) with
    | none =>
      rw [htarget] at hstep
      exact Or.inr (Option.some_inj.mp hstep).symm
    | some target =>
      rw [htarget] at hstep
      exact Or.inl ⟨target.1, target.2, rfl, hstep⟩
  | sendReturned i eventId => exact Or.inl ⟨_, _, rfl, hstep⟩
  | sendRejected i errcode message => exact Or.inl ⟨_, _, rfl, hstep⟩
  | sendRaised i => exact Or.inl ⟨_, _, rfl, hstep⟩
  | timerFires i => exact Or.inl ⟨_, _, rfl, hstep⟩
  | resume i => exact Or.inl ⟨_, _, rfl, hstep⟩

/-- **`_in_flight` is exact**: a step keeps it equal to the number of running requests. -/
theorem inFlight_step {l : Human.Label} (hl : l.External)
    (hstep : Human.step clock s l = some s') (hcount : s.inFlight = s.calls.countP Call.inFlight) :
    s'.inFlight = s'.calls.countP Call.inFlight := by
  rcases exists_apply_of_step hl hstep with ⟨i, h, -, happly⟩ | rfl
  · unfold State.apply at happly
    obtain ⟨call, hcall, happly⟩ := Option.bind_eq_some_iff.mp happly
    obtain ⟨call', hafter, happly⟩ := Option.bind_eq_some_iff.mp happly
    obtain rfl := Option.some_inj.mp happly
    obtain ⟨hlt, hget⟩ := List.getElem?_eq_some_iff.mp hcall
    have hset : (s.calls.set i call').countP Call.inFlight = s.calls.countP Call.inFlight -
        (if call.inFlight then 1 else 0) + (if call'.inFlight then 1 else 0) := by
      rw [List.countP_set hlt, hget]
    change (if call.inFlight && !call'.inFlight then s.inFlight - 1 else s.inFlight) =
      (s.calls.set i call').countP Call.inFlight
    rw [hset, ← hcount]
    cases hafterFlight : call'.inFlight with
    | true =>
      have hpos : 0 < s.calls.countP Call.inFlight :=
        List.countP_pos_iff.mpr ⟨call, List.mem_of_getElem? hcall,
          inFlight_of_after hafter hafterFlight⟩
      rw [inFlight_of_after hafter hafterFlight]
      change s.inFlight = s.inFlight - 1 + 1
      omega
    | false =>
      cases call.inFlight <;> simp
  · exact hcount

/-- Counting a list index by index. -/
theorem countP_eq_range {α : Type*} (p : α → Bool) (l : List α) :
    l.countP p = (List.range l.length).countP fun i => l[i]?.any p := by
  have hlist := filterMap_range_map id l
  rw [List.map_id] at hlist
  calc l.countP p
      = ((List.range l.length).filterMap fun i => l[i]?.map id).countP p := by rw [hlist]
    _ = (List.range l.length).countP fun i => l[i]?.any p := by
      rw [List.countP_filterMap]
      refine List.countP_congr fun i _ => ?_
      cases l[i]? <;> simp

/-- Calls whose indices are all in a list are no more than the list is long. -/
theorem countP_le_length {α : Type*} {p : α → Bool} {l : List α} {indices : List ℕ}
    (h : ∀ i a, l[i]? = some a → p a = true → i ∈ indices) : l.countP p ≤ indices.length := by
  rw [countP_eq_range, List.countP_eq_length_filter]
  refine (List.subperm_of_subset (List.nodup_range.filter _) fun i hi => ?_).length_le
  obtain ⟨-, hp⟩ := List.mem_filter.mp hi
  obtain ⟨a, hget, ha⟩ := (Option.any_eq_true _ _).mp hp
  exact h i a hget ha

end Participant

/-! ## 2.  The invariant -/

/-- The loop while it has not raised. -/
structure LoopInv (config : RunConfig) (w : ThroughputState) : Prop where
  calls : RunCalls config w.human
  sequence : w.sequence = w.human.calls.length + 1
  slots : w.slots.length = config.concurrency
  fit : SlotsFit w.human.calls.length w.completed (awaitedBy w.slots)
  finished : ∀ i ∈ w.completed, ∃ call, w.human.calls[i]? = some call ∧ call.phase = .returned
  counted : w.human.inFlight = w.human.calls.countP Call.inFlight
  responses : ∀ call ∈ w.human.calls, ∃ x,
    call.interaction.correlation.txnId Direction.response.value = .ok x

/-- Nothing has been accounted for. -/
structure Unaccounted (w : ThroughputState) : Prop where
  records : w.result.records = []
  initiated : w.result.initiated = 0
  atWindowStart : w.result.outstandingAtWindowStart = 0
  atWindowEnd : w.result.outstandingAtWindowEnd = 0
  windowStart : w.result.windowStartNs = some w.windowStartNs
  windowEnd : w.result.windowEndNs = some w.windowEndNs

/-- Every call of the run has been accounted for, once. -/
structure AllRecorded (config : RunConfig) (w : ThroughputState) : Prop where
  interactions : ∃ its, its.Perm (w.human.calls.map Call.interaction) ∧
    List.Forall₂ (RecordedAs config w) its w.result.records
  initiated : w.result.initiated = w.human.calls.length
  atWindowStart : w.result.outstandingAtWindowStart =
    (w.human.calls.map Call.interaction).countP (ThroughputState.outstandingAt w.windowStartNs)
  atWindowEnd : w.result.outstandingAtWindowEnd =
    (w.human.calls.map Call.interaction).countP (ThroughputState.outstandingAt w.windowEndNs)
  windowStart : w.result.windowStartNs = some w.windowStartNs
  windowEnd : w.result.windowEndNs = some w.windowEndNs

/-- The invariant of a whole run. -/
structure RunInv (config : RunConfig) (w : ThroughputState) : Prop where
  loop : w.stage ≠ .raised → LoopInv config w
  gathering : w.stage = .gathering → Unaccounted w
  returned : w.stage = .returned → AllRecorded config w

section Invariant

variable {w w' : ThroughputState} {j : ℕ}

theorem runInv_of_raised (h : w.stage = .raised) : RunInv config w :=
  ⟨fun hstage => absurd h hstage, fun hstage => (nomatch h.symm.trans hstage),
    fun hstage => (nomatch h.symm.trans hstage)⟩

theorem runInv_of_gathering (h : w.stage = .gathering) (hloop : LoopInv config w)
    (hnone : Unaccounted w) : RunInv config w :=
  ⟨fun _ => hloop, fun _ => hnone, fun hstage => (nomatch h.symm.trans hstage)⟩

/-- The participant moves. -/
theorem LoopInv.human {l : Human.Label} {human : State} (h : LoopInv config w) (hl : l.External)
    (hhuman : Human.step clock w.human l = some human) :
    LoopInv config { w with human := human } := by
  have hlength := length_calls_step hl hhuman
  obtain ⟨-, -, hcalls⟩ := step_external hl hhuman
  refine ⟨h.calls.step hl hhuman, ?_, h.slots, ?_, fun i hi => ?_,
    inFlight_step hl hhuman h.counted,
    fun call hcall => ?_⟩
  · rw [hlength]
    exact h.sequence
  · rw [hlength]
    exact h.fit
  · obtain ⟨call, hcall, hphase⟩ := h.finished i hi
    rcases hcalls with ⟨i', happening, old, new, -, hold, hnew, hset⟩ | ⟨-, hsame⟩
    · dsimp only
      rw [hset]
      by_cases hii : i' = i
      · subst hii
        obtain rfl := Option.some_inj.mp (hold.symm.trans hcall)
        rw [List.getElem?_set_self (List.getElem?_eq_some_iff.mp hold).1]
        exact ⟨new, rfl, phase_after_returned hphase hnew⟩
      · rw [List.getElem?_set_ne hii]
        exact ⟨call, hcall, hphase⟩
    · dsimp only
      rw [hsame]
      exact ⟨call, hcall, hphase⟩
  · rcases hcalls with ⟨i', happening, old, new, -, hold, hnew, hset⟩ | ⟨-, hsame⟩
    · rw [show ({ w with human := human } : ThroughputState).human.calls = w.human.calls.set i' new
        from hset] at hcall
      rcases List.mem_or_eq_of_mem_set hcall with hcall | rfl
      · exact h.responses call hcall
      · rw [correlation_after hnew]
        exact h.responses old (List.mem_of_getElem? hold)
    · rw [show ({ w with human := human } : ThroughputState).human.calls = w.human.calls
        from hsame] at hcall
      exact h.responses call hcall

/-- A slot completes its call. -/
theorem LoopInv.complete (h : LoopInv config w) {i : ℕ} {call : Call}
    (hslot : w.slots[j]? = some (.awaiting i)) (hcall : w.human.calls[i]? = some call)
    (hphase : call.phase = .returned) :
    SlotsFit w.human.calls.length (w.completed ++ [i])
        (Function.update (awaitedBy w.slots) j none) ∧
      ∀ i' ∈ w.completed ++ [i], ∃ call, w.human.calls[i']? = some call ∧
        call.phase = .returned := by
  have hawaited : awaitedBy w.slots j = some i := by
    rw [awaitedBy, hslot]
    rfl
  refine ⟨h.fit.complete hawaited, fun i' hi' => ?_⟩
  rcases List.mem_append.mp hi' with hi' | hi'
  · exact h.finished i' hi'
  · obtain rfl := List.mem_singleton.mp hi'
    exact ⟨call, hcall, hphase⟩

/-- A slot that awaits nothing goes on. -/
theorem runInv_of_loops (hstage : w.stage = .gathering) (hj : j < w.slots.length)
    (h : LoopInv config { w with slots := w.slots.set j .ready }) (hnone : Unaccounted w)
    (hloops : Loops clock config w j w') : RunInv config w' := by
  have hidle : awaitedBy (w.slots.set j .ready) j = none := by
    rw [awaitedBy_set hj]
    exact Function.update_self ..
  have hslots : ∀ slot : Slot, awaitedBy (w.slots.set j slot) =
      Function.update (awaitedBy (w.slots.set j .ready)) j slot.awaited := by
    intro slot
    rw [awaitedBy_set hj, awaitedBy_set hj, Function.update_idem]
  have hlength : ∀ slot : Slot, (w.slots.set j slot).length = config.concurrency := by
    intro slot
    rw [List.length_set, ← h.slots, List.length_set]
  cases hloops with
  | raised human => exact runInv_of_raised rfl
  | issued human call hnow hmade hrun =>
    have hcalls : human.calls = w.human.calls ++ [call] := hmade.calls
    have hlength' : human.calls.length = w.human.calls.length + 1 := by
      rw [hcalls, List.length_append, List.length_singleton]
    have hflight : call.inFlight = true := by
      rw [Call.inFlight, hmade.phase, hmade.timeout]
      rfl
    refine runInv_of_gathering hstage ⟨hrun, ?_, hlength _, ?_, fun i hi => ?_, ?_,
      fun call' hcall' => ?_⟩ ⟨hnone.records, hnone.initiated, hnone.atWindowStart,
        hnone.atWindowEnd, hnone.windowStart, hnone.windowEnd⟩
    · change w.sequence + 1 = human.calls.length + 1
      rw [hlength', ← h.sequence]
    · change SlotsFit human.calls.length w.completed
        (awaitedBy (w.slots.set j (.awaiting w.human.calls.length)))
      rw [hslots, hlength']
      exact h.fit.begin hidle
    · obtain ⟨call', hcall', hphase⟩ := h.finished i hi
      refine ⟨call', ?_, hphase⟩
      change human.calls[i]? = some call'
      rw [hcalls, List.getElem?_append_left (List.getElem?_eq_some_iff.mp hcall').1]
      exact hcall'
    · change human.inFlight = human.calls.countP Call.inFlight
      rw [hmade.inFlight, hcalls, List.countP_append, List.countP_singleton, if_pos hflight]
      exact congrArg (· + 1) h.counted
    · change call' ∈ human.calls at hcall'
      rw [hcalls] at hcall'
      rcases List.mem_append.mp hcall' with hcall' | hcall'
      · exact h.responses call' hcall'
      · rw [List.mem_singleton.mp hcall']
        exact hmade.response
  | stopped hnow =>
    refine runInv_of_gathering hstage ⟨⟨h.calls.pending, h.calls.sequence⟩, h.sequence,
      hlength _, ?_, h.finished,
      h.counted, h.responses⟩ ⟨hnone.records, hnone.initiated, hnone.atWindowStart,
        hnone.atWindowEnd, hnone.windowStart, hnone.windowEnd⟩
    change SlotsFit w.human.calls.length w.completed (awaitedBy (w.slots.set j .stopped))
    rw [hslots, Slot.awaited, ← hidle, Function.update_eq_self]
    exact h.fit

/-- No slot awaits anything once all have stopped. -/
theorem awaitedBy_eq_none (hstopped : ∀ slot ∈ w.slots, slot = .stopped) (j : ℕ) :
    awaitedBy w.slots j = none := by
  cases hj : w.slots[j]? with
  | none =>
    rw [awaitedBy, hj]
    rfl
  | some slot =>
    rw [awaitedBy, hj, hstopped slot (List.mem_of_getElem? hj)]
    rfl

/-- **The accounting never raises**, and records every call. -/
theorem finish_allRecorded (h : LoopInv config w) (hnone : Unaccounted w)
    (hstopped : ∀ slot ∈ w.slots, slot = .stopped) :
    (w.finish config).stage = .returned ∧ LoopInv config (w.finish config) ∧
      AllRecorded config (w.finish config) := by
  have hits : w.interactions.Perm (w.human.calls.map Call.interaction) := by
    rw [← filterMap_range_map]
    exact (h.fit.perm_range (awaitedBy_eq_none hstopped)).filterMap _
  have hresponses : ∀ it ∈ w.interactions, ∃ x,
      it.correlation.txnId Direction.response.value = .ok x := by
    intro it hit
    obtain ⟨call, hcall, rfl⟩ := List.mem_map.mp (hits.mem_iff.mp hit)
    exact h.responses call hcall
  obtain ⟨result, hfinish, haccounts⟩ := exists_finish hresponses
  rw [hfinish]
  obtain ⟨rs, hrs, hrecorded⟩ := haccounts.records
  rw [hnone.records, List.nil_append] at hrs
  refine ⟨rfl, ⟨h.calls, h.sequence, h.slots, h.fit, h.finished, h.counted, h.responses⟩,
    ⟨w.interactions, hits, ?_⟩, ?_, ?_, ?_, ?_, ?_⟩
  · change List.Forall₂ (RecordedAs config w) w.interactions result.records
    rw [hrs]
    exact hrecorded
  · change result.initiated = w.human.calls.length
    rw [haccounts.initiated, hnone.initiated, Nat.zero_add, hits.length_eq, List.length_map]
  · change result.outstandingAtWindowStart = _
    rw [haccounts.atWindowStart, hnone.atWindowStart, Nat.zero_add]
    exact hits.countP_eq _
  · change result.outstandingAtWindowEnd = _
    rw [haccounts.atWindowEnd, hnone.atWindowEnd, Nat.zero_add]
    exact hits.countP_eq _
  · exact haccounts.windowStart.trans hnone.windowStart
  · exact haccounts.windowEnd.trans hnone.windowEnd

/-- A slot that awaits nothing may as well be `ready`. -/
theorem LoopInv.ready (h : LoopInv config w) (hj : j < w.slots.length) {completed : List ℕ}
    (hfit : SlotsFit w.human.calls.length completed (Function.update (awaitedBy w.slots) j none))
    (hfinished : ∀ i ∈ completed, ∃ call, w.human.calls[i]? = some call ∧
      call.phase = .returned) :
    LoopInv config { w with slots := w.slots.set j .ready, completed := completed } := by
  refine ⟨h.calls, h.sequence, ?_, ?_, hfinished, h.counted, h.responses⟩
  · change (w.slots.set j .ready).length = config.concurrency
    rw [List.length_set, h.slots]
  · change SlotsFit w.human.calls.length completed (awaitedBy (w.slots.set j .ready))
    rw [awaitedBy_set hj]
    exact hfit

/-- **The step lemma of the closed loop.** -/
theorem runInv_step {l : ThroughputState.Label} (h : RunInv config w)
    (hstep : w.step clock config l = some w') : RunInv config w' := by
  have hstage := stage_of_step hstep
  have hloop := h.loop (by rw [hstage]; simp)
  have hnone := h.gathering hstage
  cases advances_of_step hloop.calls hloop.sequence hstep with
  | waits l human hl hhuman =>
    exact runInv_of_gathering hstage (hloop.human hl hhuman) ⟨hnone.records, hnone.initiated,
      hnone.atWindowStart, hnone.atWindowEnd, hnone.windowStart, hnone.windowEnd⟩
  | raised l human => exact runInv_of_raised rfl
  | completes l human j i call _ hl hhuman hslot hcall hphase hloops =>
    have hj := (List.getElem?_eq_some_iff.mp hslot).1
    have hmoved := hloop.human hl hhuman
    obtain ⟨hfit, hfinished⟩ := hmoved.complete hslot hcall hphase
    exact runInv_of_loops (w := { w with human := human, completed := w.completed ++ [i] })
      hstage hj
      (hmoved.ready hj hfit hfinished) ⟨hnone.records, hnone.initiated, hnone.atWindowStart,
        hnone.atWindowEnd, hnone.windowStart, hnone.windowEnd⟩ hloops
  | starts j _ hslot hloops =>
    have hj := (List.getElem?_eq_some_iff.mp hslot).1
    have hidle : awaitedBy w.slots j = none := by
      rw [awaitedBy, hslot]
      rfl
    refine runInv_of_loops hstage hj (hloop.ready hj ?_ hloop.finished) hnone hloops
    rw [← hidle, Function.update_eq_self]
    exact hloop.fit
  | finishes hstopped =>
    obtain ⟨hreturned, hloop', hall⟩ := finish_allRecorded hloop hnone hstopped
    refine ⟨fun _ => hloop', fun hgathering => ?_, fun _ => hall⟩
    cases hreturned.symm.trans hgathering

theorem runInv_start (clock : MonotonicClock) (config : RunConfig) (roomId : Option Text) :
    RunInv config (ThroughputState.start clock config (State.initial roomId)) := by
  have hawaited : ∀ j, awaitedBy (List.replicate config.concurrency Slot.ready) j = none := by
    intro j
    rw [awaitedBy, List.getElem?_replicate]
    split <;> rfl
  have hcalls := runCalls_initial config roomId
  refine runInv_of_gathering rfl ⟨⟨hcalls.pending, hcalls.sequence⟩, rfl,
    List.length_replicate, ⟨List.nodup_nil, fun i => ?_, fun i j hj => ?_, fun i j j' hj => ?_⟩,
    fun i hi => absurd hi List.not_mem_nil, rfl, fun call hcall => absurd hcall List.not_mem_nil⟩
    ⟨rfl, rfl, rfl, rfl, rfl, rfl⟩
  · refine iff_of_false (Nat.not_lt_zero i) ?_
    rintro (hmem | ⟨j, hj⟩)
    · exact List.not_mem_nil hmem
    · exact absurd ((hawaited j).symm.trans hj) (Option.some_ne_none i).symm
  · exact absurd ((hawaited j).symm.trans hj) (Option.some_ne_none i).symm
  · exact absurd ((hawaited j).symm.trans hj) (Option.some_ne_none i).symm

end Invariant

/-! ## 3.  The law -/

/-- At most `concurrency` interactions are in flight, and the ids used so far are the
numbers from one on. -/
structure ClosedLoop (config : RunConfig) (w : ThroughputState) : Prop where
  inFlight : w.human.outstandingCount = w.human.calls.countP Call.inFlight
  bounded : w.human.outstandingCount ≤ config.concurrency
  sequence : w.human.calls.map (fun call => call.interaction.correlation.sequenceId) =
    List.range' 1 w.human.calls.length

/-- One record for each interaction, under its id. -/
structure OneRecordEach (w : ThroughputState) : Prop where
  sequence : (w.result.records.map Record.sequenceId).Perm (List.range' 1 w.human.calls.length)
  records : w.result.records.length = w.human.calls.length
  initiated : w.result.initiated = w.human.calls.length

/-- The step takes, before it initiates, a clock reading in front of the end of the
window. -/
def InitiatesInWindow (clock : MonotonicClock) (w w' : ThroughputState) : Prop :=
  w'.human.calls.length ≠ w.human.calls.length →
    ∃ k, w.human.reads ≤ k ∧ k < w'.human.reads ∧ (clock.read k : ℤ) < w.windowEndNs

section Law

variable {w w' : ThroughputState}

theorem LoopInv.closed (h : LoopInv config w) : ClosedLoop config w := by
  refine ⟨h.counted, ?_, ?_⟩
  · -- a call in flight is awaited, since a completed one has returned
    have hawaited : ∀ i call, w.human.calls[i]? = some call → call.inFlight = true →
        i ∈ w.slots.filterMap Slot.awaited := by
      intro i call hcall hflight
      rcases (h.fit.covered i).mp (List.getElem?_eq_some_iff.mp hcall).1 with hmem | ⟨j, hj⟩
      · obtain ⟨call', hcall', hphase⟩ := h.finished i hmem
        obtain rfl := Option.some_inj.mp (hcall.symm.trans hcall')
        rw [Call.inFlight, hphase] at hflight
        simp [Phase.running] at hflight
      · obtain ⟨slot, hslot, hi⟩ := Option.bind_eq_some_iff.mp hj
        exact List.mem_filterMap.mpr ⟨slot, List.mem_of_getElem? hslot, hi⟩
    calc w.human.outstandingCount
        = w.human.calls.countP Call.inFlight := h.counted
      _ ≤ (w.slots.filterMap Slot.awaited).length := countP_le_length hawaited
      _ ≤ w.slots.length := List.length_filterMap_le _ _
      _ = config.concurrency := h.slots
  · refine List.ext_getElem (by simp) fun i hi _ => ?_
    rw [List.length_map] at hi
    rw [List.getElem_map, List.getElem_range', Nat.one_mul, Nat.add_comm]
    exact h.calls.sequence i _ (List.getElem?_eq_getElem hi)

theorem sequenceId_of_recordedAs {it : Interaction} {r : Record} (h : RecordedAs config w it r) :
    r.sequenceId = it.correlation.sequenceId := congrArg (fun key : Key => key.2.2)
  (recordOf_eq_ok h).2

theorem map_sequenceId {its : List Interaction} {rs : List Record}
    (h : List.Forall₂ (RecordedAs config w) its rs) :
    rs.map Record.sequenceId = its.map fun it => it.correlation.sequenceId := by
  induction h with
  | nil => rfl
  | cons h _ ih => rw [List.map_cons, List.map_cons, sequenceId_of_recordedAs h, ih]

theorem oneRecordEach (hloop : LoopInv config w) (hall : AllRecorded config w) :
    OneRecordEach w := by
  obtain ⟨its, hits, hrecorded⟩ := hall.interactions
  have hlength : w.result.records.length = w.human.calls.length := by
    rw [← hrecorded.length_eq, hits.length_eq, List.length_map]
  refine ⟨?_, hlength, hall.initiated⟩
  rw [map_sequenceId hrecorded, ← hloop.closed.sequence]
  have hmap := hits.map fun it : Interaction => it.correlation.sequenceId
  rwa [List.map_map] at hmap

/-- What no step changes, and what only goes on. -/
structure Keeps (w w' : ThroughputState) : Prop where
  windowStart : w'.windowStartNs = w.windowStartNs
  windowEnd : w'.windowEndNs = w.windowEndNs
  reads : w.human.reads ≤ w'.human.reads

theorem finish_keeps (config : RunConfig) (w : ThroughputState) :
    Keeps w (w.finish config) ∧ (w.finish config).human = w.human := by
  unfold ThroughputState.finish
  split <;> exact ⟨⟨rfl, rfl, le_rfl⟩, rfl⟩

/-- Initiating takes a reading in front of the end of the window. -/
theorem initiatesInWindow_of_loops {j : ℕ} (hloops : Loops clock config w j w')
    (hstage : w'.stage ≠ .raised) : Keeps w w' ∧ InitiatesInWindow clock w w' := by
  cases hloops with
  | raised human => exact absurd rfl hstage
  | issued human call hnow hmade hrun =>
    have hreads : human.reads = w.human.reads + 1 + 2 := hmade.reads
    refine ⟨⟨rfl, rfl, ?_⟩, fun _ => ⟨w.human.reads, le_rfl, ?_, hnow⟩⟩
    · change w.human.reads ≤ human.reads
      omega
    · change w.human.reads < human.reads
      omega
  | stopped hnow =>
    exact ⟨⟨rfl, rfl, Nat.le_succ w.human.reads⟩, fun hne => absurd rfl hne⟩

theorem initiatesInWindow_of_step {l : ThroughputState.Label} (h : RunInv config w)
    (hstep : w.step clock config l = some w') (hstage' : w'.stage ≠ .raised) :
    Keeps w w' ∧ InitiatesInWindow clock w w' := by
  have hstage := stage_of_step hstep
  have hloop := h.loop (by rw [hstage]; exact nofun)
  cases advances_of_step hloop.calls hloop.sequence hstep with
  | waits l human hl hhuman =>
    obtain ⟨hreads, -, -⟩ := step_external hl hhuman
    exact ⟨⟨rfl, rfl, hreads⟩, fun hne => absurd (length_calls_step hl hhuman) hne⟩
  | raised l human => exact absurd rfl hstage'
  | completes l human j i call _ hl hhuman hslot hcall hphase hloops =>
    have hlength := length_calls_step hl hhuman
    obtain ⟨hreads, -, -⟩ := step_external hl hhuman
    obtain ⟨hkeeps, hinitiates⟩ := initiatesInWindow_of_loops hloops hstage'
    refine ⟨⟨hkeeps.windowStart, hkeeps.windowEnd, hreads.trans hkeeps.reads⟩, fun hne => ?_⟩
    obtain ⟨k, hlower, hupper, hnow⟩ := hinitiates fun heq => hne (heq.trans hlength)
    exact ⟨k, hreads.trans hlower, hupper, hnow⟩
  | starts j _ hslot hloops => exact initiatesInWindow_of_loops hloops hstage'
  | finishes hstopped =>
    obtain ⟨hkeeps, hhuman⟩ := finish_keeps config w
    refine ⟨hkeeps, fun hne => absurd ?_ hne⟩
    rw [hhuman]

/-- A run of the workload keeps its window. -/
theorem keeps_of_exec {labels : List ThroughputState.Label} (h : RunInv config w)
    (hrun : exec (ThroughputState.step clock config) w labels = some w')
    (hstage' : w'.stage ≠ .raised) : Keeps w w' := by
  refine (invariant_of_exec (fun u => RunInv config u ∧ (u.stage ≠ .raised → Keeps w u))
    ?_ ⟨h, fun _ => ⟨rfl, rfl, le_rfl⟩⟩ hrun).2 hstage'
  rintro u l u' ⟨hinv, hu⟩ hstep
  refine ⟨runInv_step hinv hstep, fun hraised => ?_⟩
  have hkeeps := hu (by rw [stage_of_step hstep]; exact nofun)
  obtain ⟨hkeeps', -⟩ := initiatesInWindow_of_step hinv hstep hraised
  exact ⟨hkeeps'.windowStart.trans hkeeps.windowStart, hkeeps'.windowEnd.trans hkeeps.windowEnd,
    hkeeps.reads.trans hkeeps'.reads⟩

/-- **Once the clock has shown the end of the window, nothing is initiated.** -/
theorem calls_eq_of_exec {labels : List ThroughputState.Label} (h : RunInv config w)
    (hover : ∃ k < w.human.reads, w.windowEndNs ≤ (clock.read k : ℤ))
    (hrun : exec (ThroughputState.step clock config) w labels = some w')
    (hstage' : w'.stage ≠ .raised) : w'.human.calls.length = w.human.calls.length := by
  refine ((invariant_of_exec (fun u => RunInv config u ∧ (u.stage ≠ .raised → Keeps w u ∧
    u.human.calls.length = w.human.calls.length)) ?_ ?_ hrun).2 hstage').2
  · rintro u l u' ⟨hinv, hu⟩ hstep
    refine ⟨runInv_step hinv hstep, fun hraised => ?_⟩
    obtain ⟨hkeeps, hlength⟩ := hu (by rw [stage_of_step hstep]; exact nofun)
    obtain ⟨hkeeps', hinitiates⟩ := initiatesInWindow_of_step hinv hstep hraised
    refine ⟨⟨hkeeps'.windowStart.trans hkeeps.windowStart,
      hkeeps'.windowEnd.trans hkeeps.windowEnd, hkeeps.reads.trans hkeeps'.reads⟩, ?_⟩
    by_contra hne
    obtain ⟨k', hlower, -, hnow⟩ := hinitiates fun heq => hne (heq.trans hlength)
    -- a reading after the one that showed the end cannot be in front of it
    obtain ⟨k, hk, hend⟩ := hover
    have hmono : clock.read k ≤ clock.read k' :=
      clock.mono (hk.le.trans (hkeeps.reads.trans hlower))
    rw [hkeeps.windowEnd] at hnow
    omega
  · exact ⟨h, fun _ => ⟨⟨rfl, rfl, le_rfl⟩, rfl⟩⟩

/-- **The closed loop.**  In every interleaving of the slots in which every request
returns: at most `concurrency` interactions are in flight and the ids used are the
numbers from one on; once all slots have stopped, the workload returns with one record
for each interaction; a step that initiates reads the clock in front of the end of the
window; and once the clock has shown the end, nothing is initiated. -/
theorem closedLoop (clock : MonotonicClock) (config : RunConfig) (roomId : Option Text)
    (labels : List ThroughputState.Label) (w : ThroughputState)
    (hrun : exec (ThroughputState.step clock config)
      (ThroughputState.start clock config (State.initial roomId)) labels = some w)
    (hreturn : w.stage ≠ .raised) :
    ClosedLoop config w ∧
    (w.stage = .gathering → (∀ slot ∈ w.slots, slot = .stopped) →
      ∃ w', w.step clock config .gathered = some w' ∧ w'.stage = .returned) ∧
    (w.stage = .returned → OneRecordEach w) ∧
    (∀ l w', w.step clock config l = some w' → w'.stage ≠ .raised →
      InitiatesInWindow clock w w') ∧
    ∀ back w', exec (ThroughputState.step clock config) w back = some w' → w'.stage ≠ .raised →
      (∃ k < w.human.reads, w.windowEndNs ≤ (clock.read k : ℤ)) →
      w'.human.calls.length = w.human.calls.length := by
  have hinv := invariant_of_exec (RunInv config) (fun _ _ _ h => runInv_step h)
    (runInv_start clock config roomId) hrun
  have hloop := hinv.loop hreturn
  refine ⟨hloop.closed, fun hstage hstopped => ?_, fun hstage =>
    oneRecordEach hloop (hinv.returned hstage),
    fun l w' hstep hraised => (initiatesInWindow_of_step hinv hstep hraised).2,
    fun back w' hback hraised hover => calls_eq_of_exec hinv hover hback hraised⟩
  refine ⟨w.finish config, ?_, (finish_allRecorded hloop (hinv.gathering hstage) hstopped).1⟩
  unfold ThroughputState.step
  simp only [hstage]
  exact if_pos hstopped

end Law

/-! ### Two slots that finish in the other order -/

/-- Two slots, and a window of 25 nanoseconds. -/
def twoSlots : RunConfig :=
  { twoRequests with concurrency := 2, measurementSeconds := 25 / 10 ^ 9 }

/-- The second slot's request is answered first; the request it makes next is rejected,
and it stops; the first slot makes one more, which is answered. -/
def crossedRequests : List ThroughputState.Label :=
  [.slotStarts 0, .slotStarts 1, .human (.sendReturned 1 ['$', 'q']),
    .human (.deliver (ackOf '2' ['$', 'b']) none), .human (.resume 1),
    .human (.sendReturned 0 ['$', 'p']), .human (.deliver (ackOf '1' ['$', 'a']) none),
    .human (.resume 0), .human (.sendRejected 2 [] []), .human (.sendReturned 3 ['$', 'r']),
    .human (.deliver (ackOf '4' ['$', 'd']) none), .human (.resume 3), .gathered]

theorem crossedRequests_closedLoop :
    ∃ w, exec (ThroughputState.step (steadyClock 1) twoSlots)
        (ThroughputState.start (steadyClock 1) twoSlots (State.initial (some ['!', 'r'])))
        crossedRequests = some w ∧
      w.stage = .returned ∧ w.result.records.map Record.sequenceId = [2, 1, 3, 4] ∧
      ClosedLoop twoSlots w ∧ OneRecordEach w := by
  have hend : (exec (ThroughputState.step (steadyClock 1) twoSlots)
      (ThroughputState.start (steadyClock 1) twoSlots (State.initial (some ['!', 'r'])))
      crossedRequests).map (fun w => (w.stage, w.result.records.map Record.sequenceId)) =
      some (.returned, [2, 1, 3, 4]) := by decide +kernel
  obtain ⟨w, hw, hfacts⟩ := Option.map_eq_some_iff.mp hend
  obtain ⟨hstage, hids⟩ := Prod.mk.inj hfacts
  obtain ⟨hloop, -, hrecords, -⟩ := closedLoop (steadyClock 1) twoSlots (some ['!', 'r'])
    crossedRequests w hw (by rw [hstage]; exact nofun)
  exact ⟨w, hw, hstage, hids, hloop, hrecords hstage⟩

end Benchmark
end FederatedMessaging
