import FederatedMessaging.Benchmark.ThroughputRuns
import FederatedMessaging.Foundations.LabelledRuns

/-!
# Whether a run's evidence of duplicate ACKs is complete

Both workloads record every interaction once.  The throughput workload does so at the
very end, for all of them; the latency workload records each one as soon as its request
has returned, while later requests --- and with them the callbacks --- go on.

## 1.  Tallies

The two counters of a result are sums over its records, and the participant's own
counts are the same sums over its calls.

## 2.  The latency workload

When the workload returns, its evidence is complete exactly if no new ACK reached an
interaction of the run after that interaction had been recorded.

## 3.  The throughput workload

The evidence is complete in every run: the calls that slots have completed and those
they await are all the calls, each once, and nothing is awaited at the end.
-/

namespace FederatedMessaging
namespace Benchmark

open PythonText Message Human LabelledRuns

/-! ## 1.  Tallies -/

/-- The number of duplicate ACKs in a list of evidence. -/
def observationsIn (es : List Evidence) : ℕ :=
  (es.map fun e => e.duplicateAckEventIds.length).sum

/-- The number of interactions with duplicate ACKs. -/
def requestsIn (es : List Evidence) : ℕ := es.countP fun e => e.duplicateAckEventIds.length ≠ 0

/-- The counters of a result are those of its records. -/
structure Tallied (result : WorkloadResult) : Prop where
  observations : result.duplicateAckObservations =
    observationsIn (result.records.map Record.evidence)
  requests : result.requestsWithDuplicateAcks = requestsIn (result.records.map Record.evidence)

theorem duplicateAckCount_eq (it : Interaction) :
    it.duplicateAckCount = (evidenceOf it).duplicateAckEventIds.length :=
  List.length_drop.symm

theorem tallySend_frame (result : WorkloadResult) (it : Interaction) :
    (tallySend result it).records = result.records ∧
      (tallySend result it).duplicateAckObservations = result.duplicateAckObservations ∧
      (tallySend result it).requestsWithDuplicateAcks = result.requestsWithDuplicateAcks := by
  unfold tallySend
  split_ifs <;> exact ⟨rfl, rfl, rfl⟩

theorem records_tally (result : WorkloadResult) (it : Interaction) :
    (tallyIntegrity (tallySend result it) it).records = result.records := by
  unfold tallyIntegrity
  split <;> exact (tallySend_frame result it).1

theorem observations_tally (result : WorkloadResult) (it : Interaction) :
    (tallyIntegrity (tallySend result it) it).duplicateAckObservations =
      result.duplicateAckObservations + (evidenceOf it).duplicateAckEventIds.length := by
  rw [← duplicateAckCount_eq, ← (tallySend_frame result it).2.1]
  unfold tallyIntegrity
  split
  · rename_i hzero
    rw [hzero, Nat.add_zero]
  · rfl

theorem requests_tally (result : WorkloadResult) (it : Interaction) :
    (tallyIntegrity (tallySend result it) it).requestsWithDuplicateAcks =
      result.requestsWithDuplicateAcks +
        if (evidenceOf it).duplicateAckEventIds.length = 0 then 0 else 1 := by
  rw [← duplicateAckCount_eq, ← (tallySend_frame result it).2.2]
  unfold tallyIntegrity
  split_ifs <;> rfl

/-- Tallying an interaction and recording it. -/
theorem Tallied.append {result result' : WorkloadResult} (h : Tallied result) {it : Interaction}
    {r : Record} (hr : r.evidence = evidenceOf it)
    (hobservations : result'.duplicateAckObservations =
      (tallyIntegrity (tallySend result it) it).duplicateAckObservations)
    (hrequests : result'.requestsWithDuplicateAcks =
      (tallyIntegrity (tallySend result it) it).requestsWithDuplicateAcks)
    (hrecords : result'.records = result.records ++ [r]) : Tallied result' := by
  constructor
  · rw [hobservations, observations_tally, h.observations, hrecords, List.map_append,
      observationsIn, observationsIn, List.map_append, List.sum_append, List.map_singleton, hr]
    rfl
  · rw [hrequests, requests_tally, h.requests, hrecords, List.map_append, requestsIn, requestsIn,
      List.countP_append, List.map_singleton, List.countP_singleton, hr]
    simp

/-- The evidence of a participant's calls. -/
def callEvidence (human : State) : List Evidence :=
  human.calls.map fun call => evidenceOf call.interaction

section Counts

variable {config : RunConfig} {human : State}

theorem RunCalls.values (hrun : RunCalls config human) :
    human.pending.values = List.range human.calls.length := by
  rw [OrderedDict.values, hrun.pending, List.map_map]
  exact List.map_id _

theorem map_range_duplicates (human : State) :
    ((List.range human.calls.length).map fun i =>
      (human.calls[i]?.map fun call => call.interaction.duplicateAckCount).getD 0) =
      (callEvidence human).map fun e => e.duplicateAckEventIds.length := by
  refine List.ext_getElem (by simp [callEvidence]) fun i hi _ => ?_
  have hlt : i < human.calls.length := by simpa using hi
  simp [callEvidence, List.getElem?_eq_getElem hlt, duplicateAckCount_eq]

/-- `duplicate_acks` of a run's participant. -/
theorem RunCalls.duplicateAcks_eq (hrun : RunCalls config human) :
    human.duplicateAcks = observationsIn (callEvidence human) := by
  rw [State.duplicateAcks, hrun.values, map_range_duplicates, observationsIn]

/-- `requests_with_duplicate_acks` of a run's participant. -/
theorem RunCalls.requestsWithDuplicateAcks_eq (hrun : RunCalls config human) :
    human.requestsWithDuplicateAcks = requestsIn (callEvidence human) := by
  rw [State.requestsWithDuplicateAcks, hrun.values, ← List.countP_eq_length_filter]
  have hcount := congrArg (List.countP fun n => decide (n ≠ 0)) (map_range_duplicates human)
  rwa [List.countP_map, List.countP_map] at hcount

/-- Tallies agree with the participant when the records carry the evidence of all
calls. -/
theorem tallies_of_perm (hrun : RunCalls config human) {result : WorkloadResult}
    (htallied : Tallied result)
    (hperm : (result.records.map Record.evidence).Perm (callEvidence human)) :
    result.duplicateAckObservations = human.duplicateAcks ∧
      result.requestsWithDuplicateAcks = human.requestsWithDuplicateAcks := by
  rw [htallied.observations, htallied.requests, hrun.duplicateAcks_eq,
    hrun.requestsWithDuplicateAcks_eq]
  exact ⟨(hperm.map _).sum_eq, hperm.countP_eq _⟩

end Counts

/-- What holds of the participant, the next number and the result of either workload
between two requests. -/
structure Accounted (config : RunConfig) (human : State) (sequence : ℕ)
    (result : WorkloadResult) : Prop where
  calls : RunCalls config human
  sequence : sequence = human.calls.length + 1
  keys : ∀ (k : ℕ) (r : Record), result.records[k]? = some r → r.key = keyAt config k
  snapshots : Snapshots result.records human.calls
  tallied : Tallied result

/-- **Evidence is complete exactly when every record agrees with its call**, once each
call has been recorded. -/
theorem evidenceComplete_iff_recorded {config : RunConfig} {human : State} {sequence : ℕ}
    {result : WorkloadResult} (h : Accounted config human sequence result)
    (hlength : result.records.length = human.calls.length) :
    EvidenceComplete human result ↔ Recorded result.records human.calls := by
  constructor
  · intro hcomplete k r call hr hcall
    obtain ⟨i, c, hi, hc, hevidence⟩ := hcomplete.records r (List.mem_of_getElem? hr)
    have hk : k < human.calls.length := (List.getElem?_eq_some_iff.mp hcall).1
    rw [h.keys k r hr, h.calls.get?_keyAt hk] at hi
    obtain rfl := Option.some_inj.mp hi
    rw [hevidence, Option.some_inj.mp (hc.symm.trans hcall)]
  · intro hrecorded
    have hlists : result.records.map Record.evidence = callEvidence human := by
      refine List.ext_getElem (by simp [callEvidence, hlength]) fun k hk hk' => ?_
      have hr : k < result.records.length := by simpa using hk
      have hc : k < human.calls.length := hlength ▸ hr
      simp only [callEvidence, List.getElem_map]
      exact hrecorded k _ _ (List.getElem?_eq_getElem hr) (List.getElem?_eq_getElem hc)
    obtain ⟨hobservations, hrequests⟩ :=
      tallies_of_perm h.calls h.tallied (List.Perm.of_eq hlists)
    refine ⟨fun r hr => ?_, hobservations, hrequests⟩
    obtain ⟨k, hk⟩ := List.getElem?_of_mem hr
    have hlt : k < human.calls.length := hlength ▸ (List.getElem?_eq_some_iff.mp hk).1
    exact ⟨k, _, by rw [h.keys k r hk, h.calls.get?_keyAt hlt], List.getElem?_eq_getElem hlt,
      hrecorded k r _ hk (List.getElem?_eq_getElem hlt)⟩

/-! ## 2.  The latency workload -/

section Latency

variable {clock : MonotonicClock} {config : RunConfig} {w w' : LatencyState}

/-- The call a stage awaits. -/
def LatencyStage.awaited : LatencyStage → Option ℕ
  | .warmup call _ => some call
  | .measured call _ => some call
  | .returned => none
  | .raised => none

/-- Every call but the awaited one has been recorded. -/
structure StageFits (w : LatencyState) : Prop where
  awaited : ∀ call, w.stage.awaited = some call →
    call = w.result.records.length ∧ w.human.calls.length = w.result.records.length + 1
  returned : w.stage = .returned → w.result.records.length = w.human.calls.length

/-- The invariant of the workload, until it raises. -/
def LatencyInv (config : RunConfig) (w : LatencyState) : Prop :=
  w.stage ≠ .raised → Accounted config w.human w.sequence w.result ∧ StageFits w

/-- `w'` has the records of `w`, and at most one call more. -/
def Continues (w w' : LatencyState) : Prop :=
  w'.result.records = w.result.records ∧
    (w'.human.calls = w.human.calls ∨ ∃ call, w'.human.calls = w.human.calls ++ [call])

/-- The task may go on: everything is accounted for and recorded. -/
structure Ready (config : RunConfig) (w : LatencyState) : Prop where
  accounted : Accounted config w.human w.sequence w.result
  length : w.result.records.length = w.human.calls.length

theorem Continues.recorded_iff (h : Continues w w')
    (hle : w.result.records.length ≤ w.human.calls.length) :
    Recorded w'.result.records w'.human.calls ↔ Recorded w.result.records w.human.calls := by
  obtain ⟨hrecords, hcalls⟩ := h
  rw [hrecords]
  rcases hcalls with hcalls | ⟨call, hcalls⟩
  · rw [hcalls]
  · rw [hcalls, recorded_append_call hle]

/-- A clock reading, and other fields of the result, change nothing here. -/
theorem Accounted.congr {human human' : State} {sequence : ℕ} {result result' : WorkloadResult}
    (h : Accounted config human sequence result) (hcalls : human'.calls = human.calls)
    (hpending : human'.pending = human.pending) (hrecords : result'.records = result.records)
    (hobservations : result'.duplicateAckObservations = result.duplicateAckObservations)
    (hrequests : result'.requestsWithDuplicateAcks = result.requestsWithDuplicateAcks) :
    Accounted config human' sequence result' where
  calls := ⟨by rw [hpending, hcalls]; exact h.calls.pending, by
    rw [hcalls]; exact h.calls.sequence⟩
  sequence := by rw [hcalls]; exact h.sequence
  keys := by rw [hrecords]; exact h.keys
  snapshots := by rw [hrecords, hcalls]; exact h.snapshots
  tallied := ⟨by rw [hobservations, hrecords]; exact h.tallied.observations, by
    rw [hrequests, hrecords]; exact h.tallied.requests⟩

theorem next_spec (hready : Ready config w) {stage : ℕ → LatencyStage}
    (hstage : ∀ call, (stage call).awaited = some call) :
    Continues w (w.next clock config stage) ∧ LatencyInv config (w.next clock config stage) := by
  unfold LatencyState.next
  rcases hissue : issue clock config w.human w.sequence with ⟨human, next⟩
  obtain ⟨hcalls, hnext⟩ := issue_cases hready.accounted.calls hready.accounted.sequence hissue
  cases next with
  | none => exact ⟨⟨rfl, hcalls⟩, fun h => absurd rfl h⟩
  | some call =>
    obtain ⟨rfl, hlength, hrun⟩ := hnext call rfl
    refine ⟨⟨rfl, hcalls⟩, fun _ => ⟨⟨hrun, ?_, hready.accounted.keys, ?_,
      hready.accounted.tallied⟩, ?_, ?_⟩⟩
    · change w.sequence + 1 = human.calls.length + 1
      rw [hlength, hready.accounted.sequence]
    · rcases hcalls with hcalls | ⟨c, hcalls⟩
      · rw [hcalls] at hlength
        omega
      · change Snapshots w.result.records human.calls
        rw [hcalls]
        exact snapshots_append_call hready.length.le c hready.accounted.snapshots
    · intro call hcall
      obtain rfl := Option.some_inj.mp ((hstage _).symm.trans hcall)
      exact ⟨hready.length.symm, by rw [hready.length]; exact hlength⟩
    · intro hreturned
      have hawaited := hstage w.human.calls.length
      dsimp only at hreturned
      rw [hreturned] at hawaited
      cases hawaited

theorem measure_spec (hready : Ready config w) (left : ℕ) :
    Continues w (w.measure clock config left) ∧
      LatencyInv config (w.measure clock config left) := by
  cases left with
  | zero =>
    refine ⟨⟨rfl, Or.inl rfl⟩, fun _ => ⟨hready.accounted.congr rfl rfl rfl rfl rfl, ?_, ?_⟩⟩
    · intro call hcall
      cases hcall
    · exact fun _ => hready.length
  | succ left => exact next_spec hready fun _ => rfl

/-- The head of the measured phase, after the warm-up. -/
def openWindow (clock : MonotonicClock) (w : LatencyState) : LatencyState :=
  { w with
    human := (readClock clock w.human).2
    result := { w.result with windowStartNs := some (readClock clock w.human).1 } }

theorem warmUp_zero (w : LatencyState) :
    w.warmUp clock config 0 =
      if w.human.outstandingCount ≠ 0 then { w with stage := .raised }
      else (openWindow clock w).measure clock config config.measuredInteractions := rfl

theorem warmUp_spec (hready : Ready config w) (left : ℕ) :
    Continues w (w.warmUp clock config left) ∧ LatencyInv config (w.warmUp clock config left) := by
  cases left with
  | zero =>
    rw [warmUp_zero]
    split_ifs
    · exact ⟨⟨rfl, Or.inl rfl⟩, fun h => absurd rfl h⟩
    · exact measure_spec (w := openWindow clock w)
        ⟨hready.accounted.congr rfl rfl rfl rfl rfl, hready.length⟩ config.measuredInteractions
  | succ left => exact next_spec hready fun _ => rfl

/-- Accounting for the awaited call adds a record that agrees with it. -/
theorem account_spec {call : Call} (phase : RunPhase)
    (haccounted : Accounted config w.human w.sequence w.result)
    (hlength : w.human.calls.length = w.result.records.length + 1)
    (hcall : w.human.calls[w.result.records.length]? = some call) :
    (Recorded (w.account config call.interaction phase).result.records w.human.calls ↔
        Recorded w.result.records w.human.calls) ∧
      (w.account config call.interaction phase).human = w.human ∧
      ((w.account config call.interaction phase).stage ≠ .raised →
        Ready config (w.account config call.interaction phase)) := by
  unfold LatencyState.account
  cases hr : recordOf config call.interaction phase none none with
  | error e =>
    refine ⟨?_, rfl, fun h => absurd rfl h⟩
    dsimp only
    rw [records_tally]
  | ok r =>
    obtain ⟨hevidence, hkey⟩ := recordOf_eq_ok hr
    have hrecords : (tallyIntegrity (tallySend { w.result with
        initiated := w.result.initiated + 1
        warmupInitiated := w.result.warmupInitiated + if phase = .warmup then 1 else 0 }
          call.interaction) call.interaction).records ++ [r] = w.result.records ++ [r] := by
      rw [records_tally]
    dsimp only
    rw [hrecords]
    refine ⟨recorded_append_record hcall hevidence, rfl, fun _ => ⟨⟨haccounted.calls,
      haccounted.sequence, ?_, ?_, ?_⟩, ?_⟩⟩
    · intro k r' hr'
      rcases getElem?_append_singleton_cases hr' with hr' | ⟨rfl, rfl⟩
      · exact haccounted.keys k r' hr'
      · rw [hkey, haccounted.calls.sequence _ call hcall]
        rfl
    · exact snapshots_append_record hcall hevidence haccounted.snapshots
    · exact haccounted.tallied.append hevidence (by rw [observations_tally, observations_tally])
        (by rw [requests_tally, requests_tally]) rfl
    · rw [List.length_append, hlength]
      rfl

/-- What the task does once the awaited call has ended keeps the invariant, and the
records as much in agreement as they were. -/
theorem resume_spec (hinv : LatencyInv config w) :
    (Recorded (w.resume clock config).result.records (w.resume clock config).human.calls ↔
        Recorded w.result.records w.human.calls) ∧
      LatencyInv config (w.resume clock config) := by
  have hrest : ∀ (phase : RunPhase) (it : Interaction) (timeout : Option ℚ)
      (rest : LatencyState → LatencyState),
      (∀ v, Ready config v → Continues v (rest v) ∧ LatencyInv config (rest v)) →
      w.stage ≠ .raised →
      w.stage.awaited = some w.result.records.length →
      w.human.calls[w.result.records.length]? = some ⟨it, timeout, .returned⟩ →
      let v := w.account config it phase
      let u := if v.stage = .raised then v else rest v
      (Recorded u.result.records u.human.calls ↔ Recorded w.result.records w.human.calls) ∧
        LatencyInv config u := by
    intro phase it timeout rest hspec hstage hawaited hcall v u
    obtain ⟨haccounted, hfits⟩ := hinv hstage
    obtain ⟨hrecorded, hhuman, hready⟩ := account_spec phase haccounted
      (hfits.awaited _ hawaited).2 hcall
    by_cases hraised : v.stage = .raised
    · have hu : u = v := if_pos hraised
      rw [hu]
      refine ⟨?_, fun h => absurd hraised h⟩
      rw [show v.human = w.human from hhuman]
      exact hrecorded
    · have hu : u = rest v := if_neg hraised
      obtain ⟨hcontinues, hinv'⟩ := hspec v (hready hraised)
      rw [hu]
      refine ⟨?_, hinv'⟩
      rw [hcontinues.recorded_iff (hready hraised).length.le, show v.human = w.human from hhuman]
      exact hrecorded
  unfold LatencyState.resume
  cases hstage : w.stage with
  | warmup call left =>
    have hnot : w.stage ≠ .raised := by simp [hstage]
    have hawaited : w.stage.awaited = some call := by rw [hstage]; rfl
    obtain ⟨rfl, -⟩ := (hinv hnot).2.awaited call hawaited
    dsimp only
    split
    · rename_i it timeout hcall
      exact hrest .warmup it timeout (fun v => v.warmUp clock config left)
        (fun v hv => warmUp_spec hv left) hnot hawaited hcall
    · exact ⟨Iff.rfl, fun h => absurd rfl h⟩
    · exact ⟨Iff.rfl, hinv⟩
  | measured call left =>
    have hnot : w.stage ≠ .raised := by simp [hstage]
    have hawaited : w.stage.awaited = some call := by rw [hstage]; rfl
    obtain ⟨rfl, -⟩ := (hinv hnot).2.awaited call hawaited
    dsimp only
    split
    · rename_i it timeout hcall
      exact hrest .measured it timeout (fun v => v.measure clock config left)
        (fun v hv => measure_spec hv left) hnot hawaited hcall
    · exact ⟨Iff.rfl, fun h => absurd rfl h⟩
    · exact ⟨Iff.rfl, hinv⟩
  | returned => exact ⟨Iff.rfl, hinv⟩
  | raised => exact ⟨Iff.rfl, hinv⟩

/-- What the participant does between two stretches of the workload's task. -/
theorem exists_human_of_step {l : Human.Label} (h : w.step clock config l = some w') :
    w.stage ≠ .returned ∧ w.stage ≠ .raised ∧ l.External ∧
      ∃ human, Human.step clock w.human l = some human ∧
        w' = LatencyState.resume clock config { w with human := human } := by
  unfold LatencyState.step at h
  split at h
  · cases h
  · cases h
  · cases h
  · cases h
  · rename_i hrequest hoffline hreturned hraised
    obtain ⟨human, hhuman, hw'⟩ := Option.bind_eq_some_iff.mp h
    exact ⟨hreturned, hraised, external_of_ne hrequest hoffline, human, hhuman,
      (Option.some_inj.mp hw').symm⟩

/-- The state between the participant's part of a step and the workload's. -/
theorem latencyInv_human {l : Human.Label} {human : State} (hinv : LatencyInv config w)
    (hl : l.External) (h : Human.step clock w.human l = some human) :
    LatencyInv config { w with human := human } := by
  intro hstage
  obtain ⟨haccounted, hfits⟩ := hinv hstage
  have hlength := length_calls_step hl h
  refine ⟨⟨haccounted.calls.step hl h, by rw [hlength]; exact haccounted.sequence,
    haccounted.keys, snapshots_step hl h haccounted.snapshots, haccounted.tallied⟩, ?_, ?_⟩
  · intro call hcall
    rw [hlength]
    exact hfits.awaited call hcall
  · intro hreturned
    rw [hlength]
    exact hfits.returned hreturned

/-- No new ACK reaches an interaction after its record was taken. -/
def NoAckAfterRecordLatency (clock : MonotonicClock) (w : LatencyState) (l : Human.Label) : Prop :=
  NoAckAfterRecord clock w.result.records w.human l

theorem latencyInv_step {l : Human.Label} (hinv : LatencyInv config w)
    (h : w.step clock config l = some w') : LatencyInv config w' := by
  obtain ⟨-, -, hl, human, hhuman, rfl⟩ := exists_human_of_step h
  exact (resume_spec (latencyInv_human hinv hl hhuman)).2

/-- **One step keeps the records in agreement exactly when it brings no new ACK to a
recorded interaction.** -/
theorem recorded_latency_step_iff {l : Human.Label} (hinv : LatencyInv config w)
    (h : w.step clock config l = some w') :
    Recorded w'.result.records w'.human.calls ↔
      Recorded w.result.records w.human.calls ∧ NoAckAfterRecordLatency clock w l := by
  obtain ⟨-, hraised, hl, human, hhuman, rfl⟩ := exists_human_of_step h
  obtain ⟨haccounted, -⟩ := hinv hraised
  rw [(resume_spec (latencyInv_human hinv hl hhuman)).1]
  exact recorded_step_iff hl hhuman haccounted.snapshots

theorem start_spec (clock : MonotonicClock) (config : RunConfig) (roomId : Option Text) :
    let w := LatencyState.start clock config (State.initial roomId)
    LatencyInv config w ∧ Recorded w.result.records w.human.calls := by
  intro w
  have haccounted : Accounted config (readClock clock (State.initial roomId)).2 1
      { WorkloadResult.new with loopStartNs := some (readClock clock (State.initial roomId)).1 } :=
    { calls := (runCalls_initial config roomId).readClock
      sequence := rfl
      keys := fun k r hr => by cases hr
      snapshots := snapshots_nil
      tallied := ⟨rfl, rfl⟩ }
  obtain ⟨hcontinues, hinv⟩ := warmUp_spec (w := ⟨_, _, 1, .raised⟩)
    ⟨haccounted, rfl⟩ config.warmupInteractions
  exact ⟨hinv, (hcontinues.recorded_iff le_rfl).mpr recorded_nil⟩

/-- **The latency workload's evidence**: complete when the workload returns exactly if no
new ACK reached an interaction after its record was taken. -/
theorem latency_evidenceComplete_iff {roomId : Option Text} {labels : List Human.Label}
    (hrun : exec (LatencyState.step clock config)
      (LatencyState.start clock config (State.initial roomId)) labels = some w)
    (hreturned : w.stage = .returned) :
    EvidenceComplete w.human w.result ↔
      StepsMeet (LatencyState.step clock config)
        (LatencyState.start clock config (State.initial roomId)) labels
        (NoAckAfterRecordLatency clock) := by
  obtain ⟨hinv, hgood⟩ := start_spec clock config roomId
  have hinvEnd := invariant_of_exec (LatencyInv config) (fun _ _ _ h => latencyInv_step h) hinv hrun
  obtain ⟨haccounted, hfits⟩ := hinvEnd (by rw [hreturned]; exact fun h => by cases h)
  rw [evidenceComplete_iff_recorded haccounted (hfits.returned hreturned),
    final_iff_stepsMeet (LatencyInv config)
      (fun w : LatencyState => Recorded w.result.records w.human.calls)
      (fun _ _ _ h => latencyInv_step h)
      (fun _ _ _ h => recorded_latency_step_iff h) hinv hrun]
  exact and_iff_right hgood

end Latency

/-! ## 3.  The throughput workload -/

section Throughput

variable {clock : MonotonicClock} {config : RunConfig} {w w' : ThroughputState}

variable {j : ℕ}

/-- The invariant of the workload while its slots run; `awaited` says what they
await. -/
structure GatheringWith (config : RunConfig) (w : ThroughputState) (awaited : ℕ → Option ℕ) :
    Prop where
  accounted : Accounted config w.human w.sequence w.result
  records : w.result.records = []
  fit : SlotsFit w.human.calls.length w.completed awaited

/-- The invariant of the workload: nothing is recorded while it gathers, and its evidence
is complete when it has returned. -/
structure ThroughputInv (config : RunConfig) (w : ThroughputState) : Prop where
  gathering : w.stage = .gathering → GatheringWith config w (awaitedBy w.slots)
  returned : w.stage = .returned → EvidenceComplete w.human w.result

theorem throughputInv_of_raised (h : w.stage = .raised) : ThroughputInv config w := by
  constructor <;>
  · intro hstage
    rw [h] at hstage
    cases hstage

theorem throughputInv_of_gathering (h : w.stage = .gathering)
    (hwith : GatheringWith config w (awaitedBy w.slots)) : ThroughputInv config w :=
  ⟨fun _ => hwith, fun hstage => absurd (h.symm.trans hstage) (by decide)⟩

theorem throughputInv_of_returned (h : w.stage = .returned)
    (hcomplete : EvidenceComplete w.human w.result) : ThroughputInv config w :=
  ⟨fun hstage => absurd (h.symm.trans hstage) (by decide), fun _ => hcomplete⟩

/-- A slot that awaits nothing goes on. -/
theorem throughputInv_of_loops (hstage : w.stage = .gathering) (hj : j < w.slots.length)
    (h : GatheringWith config w (Function.update (awaitedBy w.slots) j none))
    (hloops : Loops clock config w j w') : ThroughputInv config w' := by
  have hidle : Function.update (awaitedBy w.slots) j none j = none := Function.update_self ..
  have hawaited : ∀ slot : Slot, awaitedBy (w.slots.set j slot) =
      Function.update (Function.update (awaitedBy w.slots) j none) j slot.awaited := by
    intro slot
    rw [awaitedBy_set hj, Function.update_idem]
  cases hloops with
  | raised human => exact throughputInv_of_raised rfl
  | issued human call hnow hmade hrun =>
    have hlength : human.calls.length = w.human.calls.length + 1 := by
      rw [hmade.calls, List.length_append, List.length_singleton]
      rfl
    refine throughputInv_of_gathering hstage ⟨⟨hrun, ?_, h.accounted.keys, ?_,
      h.accounted.tallied⟩, h.records, ?_⟩
    · change w.sequence + 1 = human.calls.length + 1
      rw [hlength, h.accounted.sequence]
    · change Snapshots w.result.records human.calls
      rw [h.records]
      exact snapshots_nil
    · change SlotsFit human.calls.length w.completed
        (awaitedBy (w.slots.set j (.awaiting w.human.calls.length)))
      rw [hawaited, hlength]
      exact h.fit.begin hidle
  | stopped hnow =>
    have hread : Accounted config (readClock clock w.human).2 w.sequence w.result :=
      h.accounted.congr rfl rfl rfl rfl rfl
    refine throughputInv_of_gathering hstage ⟨hread, h.records, ?_⟩
    change SlotsFit w.human.calls.length w.completed (awaitedBy (w.slots.set j .stopped))
    rw [hawaited, Slot.awaited, Function.update_idem]
    exact h.fit

/-- The participant moves. -/
theorem GatheringWith.human {l : Human.Label} {human : State} {awaited : ℕ → Option ℕ}
    (h : GatheringWith config w awaited) (hl : l.External)
    (hhuman : Human.step clock w.human l = some human) :
    GatheringWith config { w with human := human } awaited := by
  have hlength := length_calls_step hl hhuman
  refine ⟨⟨h.accounted.calls.step hl hhuman, ?_, h.accounted.keys,
    snapshots_step hl hhuman h.accounted.snapshots, h.accounted.tallied⟩, h.records, ?_⟩
  · rw [hlength]
    exact h.accounted.sequence
  · rw [hlength]
    exact h.fit

/-- The accounting of one interaction adds its record, in agreement with it. -/
theorem throughput_account_spec {result result' : WorkloadResult} {it : Interaction}
    (h : w.account config result it = .ok result') (htallied : Tallied result) :
    Tallied result' ∧ ∃ r : Record, result'.records = result.records ++ [r] ∧
      r.evidence = evidenceOf it ∧
      r.key = (experiment, config.runId, it.correlation.sequenceId) := by
  unfold ThroughputState.account at h
  dsimp only at h
  cases hr : recordOf config it (w.phaseOf it) (some w.windowStartNs) (some w.windowEndNs) with
  | error e =>
    rw [hr] at h
    cases h
  | ok r =>
    rw [hr] at h
    obtain ⟨hevidence, hkey⟩ := recordOf_eq_ok hr
    obtain rfl := Except.ok.inj h
    have hrecords : (tallyIntegrity (tallySend { result with
        initiated := result.initiated + 1 } it) it).records ++ [r] = result.records ++ [r] := by
      rw [records_tally]
    refine ⟨htallied.append hevidence ?_ ?_ hrecords, r, hrecords, hevidence, hkey⟩
    · change (tallyIntegrity _ it).duplicateAckObservations = _
      rw [observations_tally, observations_tally]
    · change (tallyIntegrity _ it).requestsWithDuplicateAcks = _
      rw [requests_tally, requests_tally]

/-- The accounting of a list of interactions. -/
theorem throughput_accounting_spec {its : List Interaction} {result result' : WorkloadResult}
    (h : its.foldlM (w.account config) result = .ok result') (htallied : Tallied result) :
    Tallied result' ∧ ∃ rs : List Record, result'.records = result.records ++ rs ∧
      rs.map Record.evidence = its.map evidenceOf ∧
      ∀ r ∈ rs, ∃ it ∈ its, r.evidence = evidenceOf it ∧
        r.key = (experiment, config.runId, it.correlation.sequenceId) := by
  induction its generalizing result with
  | nil =>
    obtain rfl := Except.ok.inj h
    exact ⟨htallied, [], (List.append_nil _).symm, rfl, fun r hr => absurd hr List.not_mem_nil⟩
  | cons it its ih =>
    rw [List.foldlM_cons] at h
    cases hone : w.account config result it with
    | error e =>
      rw [hone] at h
      cases h
    | ok result₁ =>
      rw [hone] at h
      obtain ⟨htallied₁, r, hrecords₁, hevidence, hkey⟩ := throughput_account_spec hone htallied
      obtain ⟨htallied', rs, hrecords, hevidences, hmem⟩ := ih h htallied₁
      refine ⟨htallied', r :: rs, ?_, ?_, ?_⟩
      · rw [hrecords, hrecords₁, List.append_assoc]
        rfl
      · rw [List.map_cons, List.map_cons, hevidence, hevidences]
      · intro r' hr'
        rcases List.mem_cons.mp hr' with rfl | hr'
        · exact ⟨it, List.mem_cons_self, hevidence, hkey⟩
        · obtain ⟨it', hit', hspec⟩ := hmem r' hr'
          exact ⟨it', List.mem_cons_of_mem it hit', hspec⟩

/-- What follows the gathering leaves complete evidence. -/
theorem finish_spec (h : GatheringWith config w (awaitedBy w.slots))
    (hstopped : ∀ slot ∈ w.slots, slot = .stopped) : ThroughputInv config (w.finish config) := by
  have hidle : ∀ j, awaitedBy w.slots j = none := by
    intro j
    cases hj : w.slots[j]? with
    | none => rw [awaitedBy, hj]; rfl
    | some slot =>
      rw [awaitedBy, hj, hstopped slot (List.mem_of_getElem? hj)]
      rfl
  unfold ThroughputState.finish
  cases hfold : w.interactions.foldlM (w.account config) w.result with
  | error e => exact throughputInv_of_raised rfl
  | ok result =>
    refine throughputInv_of_returned rfl ?_
    obtain ⟨htallied, rs, hrecords, hevidences, hmem⟩ :=
      throughput_accounting_spec hfold h.accounted.tallied
    rw [h.records, List.nil_append] at hrecords
    have hits : w.interactions.Perm (w.human.calls.map Call.interaction) := by
      rw [← filterMap_range_map]
      exact (h.fit.perm_range hidle).filterMap _
    have hperm : (result.records.map Record.evidence).Perm (callEvidence w.human) := by
      rw [hrecords, hevidences]
      have hmap := hits.map evidenceOf
      rwa [List.map_map] at hmap
    obtain ⟨hobservations, hrequests⟩ := tallies_of_perm h.accounted.calls htallied hperm
    refine ⟨fun r hr => ?_, hobservations, hrequests⟩
    rw [hrecords] at hr
    obtain ⟨it, hit, hevidence, hkey⟩ := hmem r hr
    obtain ⟨call, hcall, rfl⟩ := List.mem_map.mp (hits.mem_iff.mp hit)
    obtain ⟨i, hi⟩ := List.getElem?_of_mem hcall
    have hlt : i < w.human.calls.length := (List.getElem?_eq_some_iff.mp hi).1
    refine ⟨i, call, ?_, hi, hevidence⟩
    rw [hkey, h.accounted.calls.sequence i call hi]
    exact h.accounted.calls.get?_keyAt hlt

theorem throughputInv_start (clock : MonotonicClock) (config : RunConfig) (roomId : Option Text) :
    ThroughputInv config (ThroughputState.start clock config (State.initial roomId)) := by
  have hawaited : ∀ j, awaitedBy (List.replicate config.concurrency Slot.ready) j = none := by
    intro j
    rw [awaitedBy, List.getElem?_replicate]
    split <;> rfl
  have haccounted : Accounted config (readClock clock (State.initial roomId)).2 1
      (ThroughputState.start clock config (State.initial roomId)).result :=
    { calls := (runCalls_initial config roomId).readClock
      sequence := rfl
      keys := fun k r hr => by cases hr
      snapshots := snapshots_nil
      tallied := ⟨rfl, rfl⟩ }
  refine throughputInv_of_gathering rfl ⟨haccounted, rfl, ⟨List.nodup_nil, fun i => ?_,
    fun i j hj => ?_, fun i j j' hj => ?_⟩⟩
  · refine iff_of_false (Nat.not_lt_zero i) ?_
    rintro (hmem | ⟨j, hj⟩)
    · exact List.not_mem_nil hmem
    · exact absurd ((hawaited j).symm.trans hj) (by simp)
  · exact absurd ((hawaited j).symm.trans hj) (by simp)
  · exact absurd ((hawaited j).symm.trans hj) (by simp)

theorem throughputInv_step {l : ThroughputState.Label} (hinv : ThroughputInv config w)
    (h : w.step clock config l = some w') : ThroughputInv config w' := by
  have hstage := stage_of_step h
  have hwith := hinv.gathering hstage
  cases advances_of_step hwith.accounted.calls hwith.accounted.sequence h with
  | waits l human hl hhuman => exact throughputInv_of_gathering hstage (hwith.human hl hhuman)
  | raised l human => exact throughputInv_of_raised rfl
  | completes l human j i call _ hl hhuman hslot hcall hphase hloops =>
    have hawaited : awaitedBy w.slots j = some i := by
      rw [awaitedBy, hslot]
      rfl
    have hmoved := hwith.human hl hhuman
    exact throughputInv_of_loops (w := { w with human := human, completed := w.completed ++ [i] })
      hstage (List.getElem?_eq_some_iff.mp hslot).1
      ⟨hmoved.accounted, hmoved.records, hmoved.fit.complete hawaited⟩ hloops
  | starts j _ hslot hloops =>
    have hidle : awaitedBy w.slots j = none := by
      rw [awaitedBy, hslot]
      rfl
    refine throughputInv_of_loops hstage (List.getElem?_eq_some_iff.mp hslot).1 ?_ hloops
    rw [← hidle, Function.update_eq_self]
    exact hwith
  | finishes hstopped => exact finish_spec hwith hstopped

/-- **The throughput workload's evidence is always complete.** -/
theorem throughput_evidenceComplete {roomId : Option Text} {labels : List ThroughputState.Label}
    (hrun : exec (ThroughputState.step clock config)
      (ThroughputState.start clock config (State.initial roomId)) labels = some w)
    (hreturned : w.stage = .returned) : EvidenceComplete w.human w.result :=
  (invariant_of_exec (ThroughputInv config) (fun _ _ _ h => throughputInv_step h)
    (throughputInv_start clock config roomId) hrun).returned hreturned

end Throughput

/-! ## 4.  Both workloads -/

/-- **Exactly the runs whose evidence of duplicate ACKs is complete.**  When a latency
workload returns, its records and tallies agree with the participant if and only if no
new ACK reached an interaction of the run after its record was taken; when a throughput
workload returns, they always do. -/
theorem duplicateEvidence_iff (clock : MonotonicClock) (config : RunConfig)
    (roomId : Option Text) :
    (∀ labels w, exec (LatencyState.step clock config)
        (LatencyState.start clock config (State.initial roomId)) labels = some w →
      w.stage = .returned →
      (EvidenceComplete w.human w.result ↔
        StepsMeet (LatencyState.step clock config)
          (LatencyState.start clock config (State.initial roomId)) labels
          (NoAckAfterRecordLatency clock))) ∧
    ∀ labels w, exec (ThroughputState.step clock config)
        (ThroughputState.start clock config (State.initial roomId)) labels = some w →
      w.stage = .returned → EvidenceComplete w.human w.result :=
  ⟨fun _ _ hrun hreturned => latency_evidenceComplete_iff hrun hreturned,
    fun _ _ hrun hreturned => throughput_evidenceComplete hrun hreturned⟩

/-! ## 5.  A duplicate that arrives during the next request -/

/-- The first request is answered; its second ACK comes during the second request. -/
def lateDuplicate : List Human.Label :=
  [.sendReturned 0 ['$', 'p'], .deliver (ackOf '1' ['$', 'a']) none, .resume 0,
    .deliver (ackOf '1' ['$', 'b']) none, .sendReturned 1 ['$', 'q'],
    .deliver (ackOf '2' ['$', 'c']) none, .resume 1]

/-- What the run leaves: whether it returned, and the two counts of duplicates. -/
def duplicateCounts (labels : List Human.Label) : Option (LatencyStage × ℕ × ℕ) :=
  (exec (LatencyState.step (steadyClock 1) twoRequests)
      (LatencyState.start (steadyClock 1) twoRequests (State.initial (some ['!', 'r'])))
      labels).map
    fun w => (w.stage, w.result.duplicateAckObservations, w.human.duplicateAcks)

/-- **A duplicate that no record shows**: the workload returns with none counted, and the
participant has seen one. -/
theorem lateDuplicate_not_evidenceComplete :
    duplicateCounts lateDuplicate = some (.returned, 0, 1) ∧
      ∃ w, exec (LatencyState.step (steadyClock 1) twoRequests)
          (LatencyState.start (steadyClock 1) twoRequests (State.initial (some ['!', 'r'])))
          lateDuplicate = some w ∧
        w.stage = .returned ∧ ¬ EvidenceComplete w.human w.result := by
  have hend : duplicateCounts lateDuplicate = some (.returned, 0, 1) := by decide +kernel
  obtain ⟨w, hw, hcounts⟩ := Option.map_eq_some_iff.mp hend
  obtain ⟨hstage, hrest⟩ := Prod.mk.inj hcounts
  obtain ⟨hresult, hhuman⟩ := Prod.mk.inj hrest
  refine ⟨hend, w, hw, hstage, fun hcomplete => ?_⟩
  have hobservations := hcomplete.observations
  rw [hresult, hhuman] at hobservations
  exact absurd hobservations (by decide)

/-- The exact condition at the same run. -/
theorem lateDuplicate_evidenceComplete_iff :
    ∃ w, exec (LatencyState.step (steadyClock 1) twoRequests)
        (LatencyState.start (steadyClock 1) twoRequests (State.initial (some ['!', 'r'])))
        lateDuplicate = some w ∧
      (EvidenceComplete w.human w.result ↔
        StepsMeet (LatencyState.step (steadyClock 1) twoRequests)
          (LatencyState.start (steadyClock 1) twoRequests (State.initial (some ['!', 'r'])))
          lateDuplicate (NoAckAfterRecordLatency (steadyClock 1))) := by
  have hend : duplicateCounts lateDuplicate = some (.returned, 0, 1) := by decide +kernel
  obtain ⟨w, hw, hcounts⟩ := Option.map_eq_some_iff.mp hend
  exact ⟨w, hw, (duplicateEvidence_iff (steadyClock 1) twoRequests (some ['!', 'r'])).1
    lateDuplicate w hw (Prod.mk.inj hcounts).1⟩

end Benchmark
end FederatedMessaging
