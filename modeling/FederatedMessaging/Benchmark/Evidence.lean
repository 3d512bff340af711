import FederatedMessaging.Benchmark.Engine

/-!
# Records and the interactions they were copied from

What the two workloads have in common, for the question whether their records carry the
duplicate ACKs the participant has seen.

`RunCalls` is the shape of a participant during a run: the calls are numbered from one
in the order they were made, and each is filed under its own correlation key.
`Recorded` says that the records agree with their interactions now, and `Snapshots`,
which holds always, that a record that does not agree is behind: an interaction's
evidence changes only by growing.  A step of the participant therefore breaks the
agreement exactly when a new ACK reaches an interaction that has been recorded
(`recorded_step_iff`), and nothing restores it.

The tallies count the records' duplicates (`Tallied`), so they agree with the
participant's own counts when the records do.
-/

namespace FederatedMessaging
namespace Benchmark

open PythonText Message Human

/-! ## Evidence -/

/-- The ACK evidence of a record or an interaction. -/
structure Evidence where
  ackCount : ℕ
  duplicateAckEventIds : List Text
  lateAckMonotonicNs : Option ℕ
  deriving DecidableEq

/-- The evidence of an interaction, as its properties report it now. -/
def evidenceOf (it : Interaction) : Evidence :=
  ⟨it.ackCount, it.duplicateAckEventIds, it.lateAckMonotonicNs⟩

/-- The evidence a record carries. -/
def Record.evidence (r : Record) : Evidence :=
  ⟨r.ackCount, r.duplicateAckEventIds, r.lateAckMonotonicNs⟩

/-- The correlation key of a record. -/
def Record.key (r : Record) : Key := (upper r.experiment, r.runId, r.sequenceId)

/-- **The evidence is complete**: each record's equals that of its interaction, and the
tallies equal the participant's counts. -/
structure EvidenceComplete (human : State) (result : WorkloadResult) : Prop where
  records : ∀ r ∈ result.records, ∃ i call, human.pending.get? r.key = some i ∧
    human.calls[i]? = some call ∧ r.evidence = evidenceOf call.interaction
  observations : result.duplicateAckObservations = human.duplicateAcks
  requests : result.requestsWithDuplicateAcks = human.requestsWithDuplicateAcks

theorem recordOf_eq_ok {config : RunConfig} {it : Interaction} {phase : RunPhase}
    {windowStartNs windowEndNs : Option ℤ} {r : Record}
    (h : recordOf config it phase windowStartNs windowEndNs = .ok r) :
    r.evidence = evidenceOf it ∧ r.key = (experiment, config.runId, it.correlation.sequenceId) := by
  unfold recordOf at h
  cases htxn : it.correlation.txnId Direction.response.value with
  | error e =>
    rw [htxn] at h
    cases h
  | ok txnId =>
    rw [htxn] at h
    rw [← Except.ok.inj h]
    exact ⟨rfl, rfl⟩

/-! ### How evidence changes -/

/-- A new ACK adds one to the count. -/
theorem evidenceOf_observeAck_of_notMem {it : Interaction} {e : Text} {t3 : ℕ}
    {episode : Option ℕ} (h : e ∉ it.ackEventIds) :
    (evidenceOf (it.observeAck e t3 episode)).ackCount = (evidenceOf it).ackCount + 1 := by
  unfold evidenceOf Interaction.ackCount Interaction.observeAck
  split_ifs <;> simp

theorem observeAck_of_mem {it : Interaction} {e : Text} {t3 : ℕ} {episode : Option ℕ}
    (h : e ∈ it.ackEventIds) : it.observeAck e t3 episode = it := by
  rw [Interaction.observeAck, if_pos h]

/-- The happening is an ACK with an id the interaction does not have. -/
def BringsNewAck (call : Call) : Happening → Prop
  | .acknowledged e _ _ => e ∉ call.interaction.ackEventIds
  | _ => False

theorem evidence_after_of_new {call call' : Call} {h : Happening}
    (hafter : call.after h = some call') (hnew : BringsNewAck call h) :
    (evidenceOf call'.interaction).ackCount = (evidenceOf call.interaction).ackCount + 1 := by
  cases becomes_of_after hafter with
  | acknowledged e t3 episode => exact evidenceOf_observeAck_of_notMem hnew
  | _ => exact absurd hnew id

theorem evidence_after_of_not_new {call call' : Call} {h : Happening}
    (hafter : call.after h = some call') (hold : ¬ BringsNewAck call h) :
    evidenceOf call'.interaction = evidenceOf call.interaction := by
  cases becomes_of_after hafter with
  | acknowledged e t3 episode => rw [observeAck_of_mem (not_not.mp hold)]
  | _ => rfl

/-! ## Records and calls -/

section Lists

variable {records : List Record} {calls : List Call}

/-- Each record agrees with the call of its index. -/
def Recorded (records : List Record) (calls : List Call) : Prop :=
  ∀ (k : ℕ) (r : Record) (call : Call), records[k]? = some r → calls[k]? = some call →
    r.evidence = evidenceOf call.interaction

/-- Each record agrees with the call of its index or is behind it. -/
def Snapshots (records : List Record) (calls : List Call) : Prop :=
  ∀ (k : ℕ) (r : Record) (call : Call), records[k]? = some r → calls[k]? = some call →
    r.evidence = evidenceOf call.interaction ∨ r.ackCount < (evidenceOf call.interaction).ackCount

theorem recorded_nil : Recorded [] calls := by
  intro k r call hr
  cases hr

theorem snapshots_nil : Snapshots [] calls := by
  intro k r call hr
  cases hr

theorem getElem?_append_singleton_cases {α : Type*} {l : List α} {a b : α} {k : ℕ}
    (h : (l ++ [a])[k]? = some b) : l[k]? = some b ∨ k = l.length ∧ b = a := by
  rcases lt_or_ge k l.length with hk | hk
  · rw [List.getElem?_append_left hk] at h
    exact Or.inl h
  · rw [List.getElem?_append_right hk] at h
    obtain ⟨hlt, heq⟩ := List.getElem?_eq_some_iff.mp h
    have hk' : k = l.length := by
      rw [List.length_singleton] at hlt
      omega
    subst hk'
    exact Or.inr ⟨rfl, by simpa using heq.symm⟩

/-- A record just taken agrees. -/
theorem recorded_append_record {r : Record} {call : Call}
    (hcall : calls[records.length]? = some call)
    (hr : r.evidence = evidenceOf call.interaction) :
    Recorded (records ++ [r]) calls ↔ Recorded records calls := by
  constructor
  · intro h k r' call' hr' hcall'
    have hk : k < records.length := (List.getElem?_eq_some_iff.mp hr').1
    exact h k r' call' (by rw [List.getElem?_append_left hk, hr']) hcall'
  · intro h k r' call' hr' hcall'
    rcases getElem?_append_singleton_cases hr' with hr' | ⟨rfl, rfl⟩
    · exact h k r' call' hr' hcall'
    · rw [hr, Option.some_inj.mp (hcall.symm.trans hcall')]

theorem snapshots_append_record {r : Record} {call : Call}
    (hcall : calls[records.length]? = some call)
    (hr : r.evidence = evidenceOf call.interaction) (h : Snapshots records calls) :
    Snapshots (records ++ [r]) calls := by
  intro k r' call' hr' hcall'
  rcases getElem?_append_singleton_cases hr' with hr' | ⟨rfl, rfl⟩
  · exact h k r' call' hr' hcall'
  · exact Or.inl (by rw [hr, Option.some_inj.mp (hcall.symm.trans hcall')])

/-- A call that no record is about changes nothing. -/
theorem recorded_append_call (hle : records.length ≤ calls.length) (call : Call) :
    Recorded records (calls ++ [call]) ↔ Recorded records calls := by
  constructor
  · intro h k r call' hr hcall'
    have hk : k < calls.length := (List.getElem?_eq_some_iff.mp hcall').1
    exact h k r call' hr (by rw [List.getElem?_append_left hk, hcall'])
  · intro h k r call' hr hcall'
    have hk : k < calls.length := (List.getElem?_eq_some_iff.mp hr).1.trans_le hle
    rw [List.getElem?_append_left hk] at hcall'
    exact h k r call' hr hcall'

theorem snapshots_append_call (hle : records.length ≤ calls.length) (call : Call)
    (h : Snapshots records calls) : Snapshots records (calls ++ [call]) := by
  intro k r call' hr hcall'
  have hk : k < calls.length := (List.getElem?_eq_some_iff.mp hr).1.trans_le hle
  rw [List.getElem?_append_left hk] at hcall'
  exact h k r call' hr hcall'

/-! ### One step of the participant -/

variable {clock : MonotonicClock} {s s' : State} {l : Human.Label}

/-- The step brings no new ACK to an interaction that has been recorded. -/
def NoAckAfterRecord (clock : MonotonicClock) (records : List Record) (s : State)
    (l : Human.Label) : Prop :=
  ∀ i h call, s.happening clock l = some (i, h) → s.calls[i]? = some call →
    BringsNewAck call h → records.length ≤ i

theorem snapshots_step (hl : l.External) (h : Human.step clock s l = some s')
    (hsnap : Snapshots records s.calls) : Snapshots records s'.calls := by
  obtain ⟨-, -, ⟨i, happening, call, call', -, hcall, hcall', hset⟩ | ⟨-, hsame⟩⟩ :=
    step_external hl h
  · intro k r c hr hc
    rw [hset] at hc
    by_cases hik : i = k
    · subst hik
      have hlt : i < s.calls.length := (List.getElem?_eq_some_iff.mp hcall).1
      rw [List.getElem?_set_self hlt] at hc
      obtain rfl := Option.some_inj.mp hc
      have hold := hsnap i r call hr hcall
      by_cases hnew : BringsNewAck call happening
      · have hgrow := evidence_after_of_new hcall' hnew
        refine Or.inr ?_
        rcases hold with hold | hold
        · have hcount : r.ackCount = (evidenceOf call.interaction).ackCount :=
            congrArg Evidence.ackCount hold
          omega
        · omega
      · rwa [evidence_after_of_not_new hcall' hnew]
    · rw [List.getElem?_set_ne hik] at hc
      exact hsnap k r c hr hc
  · rwa [hsame]

/-- **A step keeps the records in agreement exactly when it brings no new ACK to a
recorded interaction**, and nothing brings them back into agreement. -/
theorem recorded_step_iff (hl : l.External) (h : Human.step clock s l = some s')
    (hsnap : Snapshots records s.calls) :
    Recorded records s'.calls ↔
      Recorded records s.calls ∧ NoAckAfterRecord clock records s l := by
  obtain ⟨-, -, ⟨i, happening, call, call', htarget, hcall, hcall', hset⟩ | ⟨hnone, hsame⟩⟩ :=
    step_external hl h
  · have hlt : i < s.calls.length := (List.getElem?_eq_some_iff.mp hcall).1
    have hself : s'.calls[i]? = some call' := by rw [hset, List.getElem?_set_self hlt]
    have hother : ∀ k, i ≠ k → s'.calls[k]? = s.calls[k]? := fun k hik => by
      rw [hset, List.getElem?_set_ne hik]
    by_cases hbad : BringsNewAck call happening ∧ i < records.length
    · -- record `i` falls behind
      obtain ⟨r, hr⟩ : ∃ r, records[i]? = some r := ⟨_, List.getElem?_eq_getElem hbad.2⟩
      have hgrow := evidence_after_of_new hcall' hbad.1
      refine iff_of_false (fun hrec => ?_) fun ⟨_, hmeet⟩ => ?_
      · have hcount : r.ackCount = (evidenceOf call'.interaction).ackCount :=
          congrArg Evidence.ackCount (hrec i r call' hr hself)
        rcases hsnap i r call hr hcall with hold | hold
        · have hcount' : r.ackCount = (evidenceOf call.interaction).ackCount :=
            congrArg Evidence.ackCount hold
          omega
        · omega
      · have hbehind := hmeet i happening call htarget hcall hbad.1
        omega
    · -- no record notices
      have hmeet : NoAckAfterRecord clock records s l := by
        intro i' happening' c htarget' hc hnew
        obtain ⟨rfl, rfl⟩ := Prod.mk.inj (Option.some_inj.mp (htarget.symm.trans htarget'))
        obtain rfl := Option.some_inj.mp (hcall.symm.trans hc)
        by_contra hlt'
        exact hbad ⟨hnew, by omega⟩
      have hsame : ∀ r, records[i]? = some r →
          evidenceOf call'.interaction = evidenceOf call.interaction := by
        intro r hr
        have hi : i < records.length := (List.getElem?_eq_some_iff.mp hr).1
        exact evidence_after_of_not_new hcall' fun hnew => hbad ⟨hnew, hi⟩
      rw [and_iff_left hmeet]
      constructor
      · intro hrec k r c hr hc
        by_cases hik : i = k
        · subst hik
          obtain rfl := Option.some_inj.mp (hcall.symm.trans hc)
          rw [hrec i r call' hr hself, hsame r hr]
        · exact hrec k r c hr ((hother k hik).trans hc)
      · intro hrec k r c hr hc
        by_cases hik : i = k
        · subst hik
          obtain rfl := Option.some_inj.mp (hself.symm.trans hc)
          rw [hrec i r call hr hcall, hsame r hr]
        · exact hrec k r c hr ((hother k hik).symm.trans hc)
  · rw [hsame, iff_self_and]
    intro _ i happening call htarget
    rw [hnone] at htarget
    cases htarget

end Lists

/-! ## The participant of a run -/

/-- The key of the call with index `i`. -/
def keyAt (config : RunConfig) (i : ℕ) : Key := (experiment, config.runId, i + 1)

/-- The calls of a run: numbered from one in order, each filed under its key. -/
structure RunCalls (config : RunConfig) (human : State) : Prop where
  pending : human.pending.entries =
    (List.range human.calls.length).map fun i => (keyAt config i, i)
  sequence : ∀ i call, human.calls[i]? = some call →
    call.interaction.correlation.sequenceId = i + 1

theorem runCalls_initial (config : RunConfig) (roomId : Option Text) :
    RunCalls config (State.initial roomId) :=
  ⟨rfl, fun i call hcall => by cases hcall⟩

variable {clock : MonotonicClock} {config : RunConfig} {s s' : State}

theorem RunCalls.readClock (h : RunCalls config s) :
    RunCalls config (Benchmark.readClock clock s).2 := ⟨h.pending, h.sequence⟩

theorem length_calls_step {l : Human.Label} (hl : l.External)
    (h : Human.step clock s l = some s') : s'.calls.length = s.calls.length := by
  obtain ⟨-, -, ⟨i, happening, call, call', -, -, -, hset⟩ | ⟨-, hsame⟩⟩ := step_external hl h
  · rw [hset, List.length_set]
  · rw [hsame]

theorem RunCalls.step {l : Human.Label} (hrun : RunCalls config s) (hl : l.External)
    (h : Human.step clock s l = some s') : RunCalls config s' := by
  have hlength := length_calls_step hl h
  obtain ⟨-, hpending, hcalls⟩ := step_external hl h
  refine ⟨by rw [hpending, hlength, hrun.pending], fun k c hc => ?_⟩
  rcases hcalls with ⟨i, happening, call, call', -, hcall, hcall', hset⟩ | ⟨-, hsame⟩
  · rw [hset] at hc
    by_cases hik : i = k
    · subst hik
      have hlt : i < s.calls.length := (List.getElem?_eq_some_iff.mp hcall).1
      rw [List.getElem?_set_self hlt] at hc
      rw [← Option.some_inj.mp hc, correlation_after hcall']
      exact hrun.sequence i call hcall
    · rw [List.getElem?_set_ne hik] at hc
      exact hrun.sequence k c hc
  · rw [hsame] at hc
    exact hrun.sequence k c hc

/-- Looking up a call by its key. -/
theorem RunCalls.get?_keyAt (hrun : RunCalls config s) {i : ℕ} (hi : i < s.calls.length) :
    s.pending.get? (keyAt config i) = some i := by
  refine OrderedDict.get?_of_mem ?_
  rw [hrun.pending]
  exact List.mem_map.mpr ⟨i, List.mem_range.mpr hi, rfl⟩

theorem RunCalls.keyAt_length_notMem (hrun : RunCalls config s) :
    keyAt config s.calls.length ∉ s.pending.keys := by
  rw [OrderedDict.keys, hrun.pending, List.map_map]
  intro hmem
  obtain ⟨i, hi, hkey⟩ := List.mem_map.mp hmem
  have hlt := List.mem_range.mp hi
  have hseq : i + 1 = s.calls.length + 1 := congrArg (fun key : Key => key.2.2) hkey
  omega

/-- Filing the next call of a run. -/
theorem RunCalls.register (hrun : RunCalls config s) (call : Call) (reads : ℕ)
    (hkey : call.interaction.correlation.key = keyAt config s.calls.length)
    (hsequence : call.interaction.correlation.sequenceId = s.calls.length + 1) :
    RunCalls config (s.register call reads) := by
  constructor
  · change (s.pending.set call.interaction.correlation.key s.calls.length).entries =
      (List.range (s.calls ++ [call]).length).map _
    rw [hkey, OrderedDict.entries_set_of_notMem hrun.keyAt_length_notMem, hrun.pending,
      List.length_append, List.length_singleton, List.range_succ, List.map_append]
    rfl
  · intro k c hc
    rcases getElem?_append_singleton_cases hc with hc | ⟨rfl, rfl⟩
    · exact hrun.sequence k c hc
    · exact hsequence

theorem key_of_new {runId : Text} {sequence : ℕ} {correlation : Correlation}
    (h : Correlation.new experiment runId sequence = .ok correlation) :
    correlation.key = (experiment, runId, sequence) ∧ correlation.sequenceId = sequence := by
  unfold Correlation.new checkToken at h
  split at h
  · split at h
    · have hpos : ¬ ((sequence : ℤ) < 0) := by omega
      simp only [bind, Except.bind, if_neg hpos] at h
      rw [← Except.ok.inj h]
      exact ⟨rfl, rfl⟩
    · cases h
  · cases h

/-- **The next request of a run** adds at most one call; if it is made, the call is the
next one. -/
theorem issue_cases {sequence : ℕ} {next : Option ℕ} (hrun : RunCalls config s)
    (hsequence : sequence = s.calls.length + 1)
    (h : issue clock config s sequence = (s', next)) :
    (s'.calls = s.calls ∨ ∃ call, s'.calls = s.calls ++ [call]) ∧
      ∀ i, next = some i → i = s.calls.length ∧ s'.calls.length = s.calls.length + 1 ∧
        RunCalls config s' := by
  unfold issue at h
  split at h
  · obtain ⟨rfl, rfl⟩ := Prod.mk.inj h
    exact ⟨Or.inl rfl, fun i hi => by cases hi⟩
  · rename_i correlation hnew
    obtain ⟨hkey, hseq⟩ := key_of_new hnew
    rw [hsequence] at hkey hseq
    have hcalls := (calls_request clock s correlation (some config.bodyBytes)
      config.timeoutSeconds).2
    have hcalls' : (s.request clock correlation (some config.bodyBytes)
        config.timeoutSeconds).1.calls = s.calls ∨ ∃ call,
        (s.request clock correlation (some config.bodyBytes)
          config.timeoutSeconds).1.calls = s.calls ++ [call] :=
      hcalls.imp_right fun ⟨call, _, hcall, _⟩ => ⟨call, hcall⟩
    split at h
    · rename_i human e hrequest
      obtain ⟨rfl, rfl⟩ := Prod.mk.inj h
      rw [hrequest] at hcalls'
      exact ⟨hcalls', fun i hi => by cases hi⟩
    · rename_i human call hrequest
      obtain ⟨rfl, rfl⟩ := Prod.mk.inj h
      rw [hrequest] at hcalls'
      refine ⟨hcalls', fun i hi => ?_⟩
      obtain rfl := Option.some_inj.mp hi
      unfold State.request at hrequest
      split at hrequest
      · cases (Prod.mk.inj hrequest).2
      · cases (Prod.mk.inj hrequest).2
      · rename_i txnId _ _
        split at hrequest
        · cases (Prod.mk.inj hrequest).2
        · obtain ⟨rfl, hi'⟩ := Prod.mk.inj hrequest
          refine ⟨(Except.ok.inj hi').symm, List.length_append, ?_⟩
          have hregister := hrun.register ⟨.new correlation txnId (clock.read (s.reads + 1)),
            some config.timeoutSeconds, .sending⟩ 2 hkey hseq
          exact ⟨hregister.pending, hregister.sequence⟩

/-! ## Values for concrete runs -/

/-- Two measured requests of run `r`. -/
def twoRequests : RunConfig :=
  { runId := ['r']
    workload := ['l', 'a', 't', 'e', 'n', 'c', 'y']
    blockId := []
    withinBlockOrder := 0
    topologyName := []
    receiverRole := []
    sender := ['@', 'h']
    roomId := ['!', 'r']
    concurrency := 1
    bodyBytes := 40
    timeoutSeconds := 10
    warmupInteractions := 0
    measuredInteractions := 2
    warmupSeconds := 0
    measurementSeconds := 0
    drainSeconds := 0 }

/-- The ACK with the given event id of request `digit`. -/
def ackOf (digit : Char) (eventId : Text) : Matrix.TimelineEvent :=
  { roomId := ['!', 'r']
    eventId := eventId
    sender := ['@', 'a']
    body := ['F', 'A', 'M', '/', '1', ' ', 'A', 'C', 'K', ' ', 'E', '3', ' ', 'r', ' ', digit]
    originServerTs := 0 }

end Benchmark
end FederatedMessaging
