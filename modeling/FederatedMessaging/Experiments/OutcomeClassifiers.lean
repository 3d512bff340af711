import FederatedMessaging.Participants.TerminalOutcomes
import FederatedMessaging.Foundations.Fallible

/-!
# Four classifiers of one interaction

The benchmark engine, the two functional experiments and the readiness run each decide what
a request that returned ended as.  The engine looks at the send error, then at the timeout,
then at the completion; the others look at the completion alone, and the readiness run takes
a completion stamped 0 for none.

## 1.  The classifiers

`classifiedAlike_iff` says on which interactions the four answers are the same.

## 2.  Runs

An interaction is classified after its `request` has returned.  `AgreesOn` says what may
happen to a call so that it returns as one of these interactions, and
`classifiersAgree_iff` that the runs in which the classifiers agree on all that `request`
returned are those in which nothing else happens.
-/

namespace FederatedMessaging
namespace Experiments

open PythonText Message Human LabelledRuns

/-! ## 1.  The classifiers -/

/-- What the experiments copy from an interaction into a runner record, with the outcome
they decided on. -/
structure LiveRecord where
  sequenceId : ℕ
  requestTxnId : Text
  requestEventId : Option Text
  responseTxnId : Text
  responseEventId : Option Text
  initiatedMonotonicNs : ℕ
  completedMonotonicNs : Option ℕ
  outcome : InteractionOutcome
  ackCount : ℕ
  duplicateAckCount : ℕ
  duplicateAckEventIds : List Text
  deriving DecidableEq

/-- The call of `runner_record`.  The response transaction id may raise. -/
def liveRecord (it : Interaction) (outcome : InteractionOutcome) :
    Except MessageError LiveRecord := do
  let responseTxnId ← it.correlation.txnId Direction.response.value
  .ok
    { sequenceId := it.correlation.sequenceId
      requestTxnId := it.requestTxnId
      requestEventId := it.requestEventId
      responseTxnId := responseTxnId
      responseEventId := it.responseEventId
      initiatedMonotonicNs := it.initiatedMonotonicNs
      completedMonotonicNs := it.completedMonotonicNs
      outcome := outcome
      ackCount := it.ackCount
      duplicateAckCount := it.duplicateAckCount
      duplicateAckEventIds := it.duplicateAckEventIds }

/-- A completion makes a success. -/
def outcomeByCompletion (it : Interaction) : InteractionOutcome :=
  if it.completedMonotonicNs = none then .timeout else .success

/-- The outcome `run_phase` of E0 records. -/
def runPhaseOutcome (it : Interaction) : InteractionOutcome := outcomeByCompletion it

/-- The outcome `send_class` of E1 records. -/
def sendClassOutcome (it : Interaction) : InteractionOutcome := outcomeByCompletion it

/-- The outcome the readiness run of E3 records. -/
def readinessOutcome (it : Interaction) : InteractionOutcome :=
  if it.completedMonotonicNs.any (· != 0) then .success else .timeout

/-- `PhaseResult` of E0, with the records it has written.  `failures` keeps the sequence
numbers its texts are formatted from. -/
structure PhaseResult where
  sent : ℕ
  acked : ℕ
  timeouts : ℕ
  failures : List ℕ
  records : List LiveRecord

/-- The body of `run_phase` after its `await`. -/
def PhaseResult.account (result : PhaseResult) (it : Interaction) :
    Except MessageError PhaseResult := do
  let record ← liveRecord it (runPhaseOutcome it)
  let sequence := it.correlation.sequenceId
  .ok <|
    if it.completedMonotonicNs = none then
      { result with
        sent := result.sent + 1
        timeouts := result.timeouts + 1
        failures := result.failures ++ [sequence]
        records := result.records ++ [record] }
    else
      { result with
        sent := result.sent + 1
        acked := result.acked + 1
        records := result.records ++ [record] }

/-- `ClassResult` of E1, with the records it has written. -/
structure ClassResult where
  sent : ℕ
  acked : ℕ
  timeouts : ℕ
  requestEventIds : Finset Text
  ackEventIds : Finset Text
  records : List LiveRecord

/-- `ids.add(eventId)` for an event id that is set. -/
def addEventId (ids : Finset Text) (eventId : Option Text) : Finset Text :=
  match Matrix.truthy eventId with
  | some e => insert e ids
  | none => ids

/-- The body of `send_class` after its `await`. -/
def ClassResult.account (result : ClassResult) (it : Interaction) :
    Except MessageError ClassResult := do
  let record ← liveRecord it (sendClassOutcome it)
  let result :=
    { result with
      sent := result.sent + 1
      requestEventIds := addEventId result.requestEventIds it.requestEventId
      records := result.records ++ [record] }
  .ok <|
    if it.completedMonotonicNs = none then { result with timeouts := result.timeouts + 1 }
    else
      { result with
        acked := result.acked + 1
        ackEventIds := addEventId result.ackEventIds it.responseEventId }

/-- The part of the readiness result that the interactions that returned decide. -/
structure ReadinessResult where
  sentEventIds : Finset Text
  ackCount : ℕ
  ackedCorrelations : Finset ℕ
  records : List LiveRecord

/-- The body of the readiness run's loop for an interaction that returned. -/
def ReadinessResult.account (result : ReadinessResult) (it : Interaction) :
    Except MessageError ReadinessResult := do
  let record ← liveRecord it (readinessOutcome it)
  let result :=
    { result with
      sentEventIds := addEventId result.sentEventIds it.requestEventId
      records := result.records ++ [record] }
  .ok <|
    if it.completedMonotonicNs = none then result
    else
      { result with
        ackCount := result.ackCount + 1
        ackedCorrelations := insert it.correlation.sequenceId result.ackedCorrelations }

/-! ### What is recorded -/

/-- A record carries the outcome it was made with. -/
theorem outcome_of_liveRecord {it : Interaction} {outcome : InteractionOutcome} {r : LiveRecord}
    (h : liveRecord it outcome = .ok r) : r.outcome = outcome := by
  unfold liveRecord at h
  cases htxn : it.correlation.txnId Direction.response.value with
  | error e =>
    rw [htxn] at h
    cases h
  | ok txnId =>
    rw [htxn] at h
    rw [← Except.ok.inj h]

variable {it : Interaction}

theorem recorded_runPhase {before after : PhaseResult} (h : before.account it = .ok after) :
    ∃ r, after.records = before.records ++ [r] ∧ r.outcome = runPhaseOutcome it := by
  obtain ⟨r, hr, h⟩ := Fallible.exists_of_bind h
  refine ⟨r, ?_, outcome_of_liveRecord hr⟩
  rw [← Except.ok.inj h]
  split <;> rfl

theorem recorded_sendClass {before after : ClassResult} (h : before.account it = .ok after) :
    ∃ r, after.records = before.records ++ [r] ∧ r.outcome = sendClassOutcome it := by
  obtain ⟨r, hr, h⟩ := Fallible.exists_of_bind h
  refine ⟨r, ?_, outcome_of_liveRecord hr⟩
  rw [← Except.ok.inj h]
  split <;> rfl

theorem recorded_readiness {before after : ReadinessResult} (h : before.account it = .ok after) :
    ∃ r, after.records = before.records ++ [r] ∧ r.outcome = readinessOutcome it := by
  obtain ⟨r, hr, h⟩ := Fallible.exists_of_bind h
  refine ⟨r, ?_, outcome_of_liveRecord hr⟩
  rw [← Except.ok.inj h]
  split <;> rfl

/-! ### When they agree -/

/-- **The classifiers agree on an interaction.** -/
structure ClassifiedAlike (it : Interaction) : Prop where
  runPhase : runPhaseOutcome it = outcomeOf it
  sendClass : sendClassOutcome it = outcomeOf it
  readiness : readinessOutcome it = outcomeOf it

/-- **The interactions on which the classifiers agree**: the send was not rejected, a
timeout has no completion, and no completion is stamped 0. -/
theorem classifiedAlike_iff :
    ClassifiedAlike it ↔ it.sendErrcode = [] ∧
      (it.timedOut = true → it.completedMonotonicNs = none) ∧
        it.completedMonotonicNs ≠ some 0 := by
  have hcompletion : ∀ outcome, runPhaseOutcome it = outcome →
      outcome = .timeout ∨ outcome = .success := by
    rintro outcome rfl
    unfold runPhaseOutcome outcomeByCompletion
    split
    · exact Or.inl rfl
    · exact Or.inr rfl
  constructor
  · rintro ⟨hphase, -, hready⟩
    have herr : it.sendErrcode = [] := by
      by_contra herr
      have hout : outcomeOf it = .sendError := if_pos herr
      rcases hcompletion _ (hphase.trans hout) with h | h <;> cases h
    refine ⟨herr, fun htimed => ?_, fun hzero => ?_⟩
    · by_contra hcompleted
      have hout := hphase.trans (outcomeOf_of_timedOut herr htimed)
      rw [runPhaseOutcome, outcomeByCompletion, if_neg hcompleted] at hout
      cases hout
    · have hboth := hphase.trans hready.symm
      rw [runPhaseOutcome, outcomeByCompletion, readinessOutcome, hzero] at hboth
      cases hboth
  · rintro ⟨herr, htimed, hzero⟩
    cases hcompleted : it.completedMonotonicNs with
    | none =>
      have hout : outcomeOf it = .timeout := by
        rw [outcomeOf, if_neg (not_not.mpr herr), if_pos (Or.inr hcompleted)]
      refine ⟨?_, ?_, ?_⟩ <;> rw [hout]
      · exact if_pos hcompleted
      · exact if_pos hcompleted
      · rw [readinessOutcome, hcompleted]
        rfl
    | some t =>
      have hne : it.completedMonotonicNs ≠ none := hcompleted ▸ Option.some_ne_none t
      have hnot : it.timedOut = false :=
        Bool.eq_false_iff.mpr fun h => hne (htimed h)
      have hout : outcomeOf it = .success := outcomeOf_eq_success_iff.mpr ⟨herr, hnot, hne⟩
      refine ⟨?_, ?_, ?_⟩ <;> rw [hout]
      · exact if_neg hne
      · exact if_neg hne
      · have ht : t ≠ 0 := fun h => hzero (h ▸ hcompleted)
        rw [readinessOutcome, hcompleted]
        simp [ht]

/-! ## 2.  Runs -/

/-- A request that has returned is classified alike. -/
def AlikeOnceReturned (call : Call) : Prop :=
  call.phase = .returned → call.timeout ≠ none → ClassifiedAlike call.interaction

/-- What may happen to a request that is to be classified alike: its send is not rejected,
it does not time out after it completed, and it does not return with a completion stamped
0. -/
def AgreesOn (call : Call) : Happening → Prop
  | .sent _ now _ => ∀ timeout, call.phase = .sending → call.timeout = some timeout →
      (remaining timeout call.interaction now ≤ 0 →
        call.interaction.completedMonotonicNs = none) ∧
      call.interaction.completedMonotonicNs ≠ some 0
  | .rejected .. => call.phase = .sending → call.timeout = none
  | .resumed => call.timeout ≠ none →
      (call.phase = .expired → call.interaction.completedMonotonicNs = none) ∧
      call.interaction.completedMonotonicNs ≠ some 0
  | .acknowledged .. => True
  | .sendRaised => True
  | .timerFired _ => True

/-- What holds of every call at any time. -/
structure Consistent (_ : ℕ) (call : Call) : Prop where
  /-- the future has its result when the completion is stamped, which an ACK does -/
  done : call.interaction.futureDone = true ↔ call.interaction.completedMonotonicNs ≠ none
  listed : call.interaction.completedMonotonicNs ≠ none → call.interaction.ackEventIds ≠ []
  /-- neither error nor timeout before the end -/
  unsettled : call.phase ≠ .returned →
    call.interaction.sendErrcode = [] ∧ call.interaction.timedOut = false
  /-- a request does not return for nothing -/
  settled : call.phase = .returned → call.timeout ≠ none →
    call.interaction.sendErrcode ≠ [] ∨ call.interaction.timedOut = true ∨
      call.interaction.completedMonotonicNs ≠ none
  offline : call.phase = .sendingOffline → call.timeout = none

theorem consistent_of_made {t : ℕ} {call : Call} (h : call.Made t) : Consistent t call := by
  obtain ⟨⟨⟨correlation, txnId, hit⟩, hphase⟩, htimeout⟩ := h
  refine ⟨?_, ?_, fun _ => ?_, fun hreturned => ?_, htimeout⟩
  · rw [hit]
    exact iff_of_false Bool.false_ne_true fun h => h rfl
  · rw [hit]
    exact fun h => absurd rfl h
  · rw [hit]
    exact ⟨rfl, rfl⟩
  · rw [hreturned] at hphase
    rcases hphase with h | h | h <;> cases h

/-- What a callback that accepts nothing leaves alone. -/
theorem observeAck_of_not_accepts {e : Text} (t3 : ℕ) (episode : Option ℕ)
    (h : ¬ it.Accepts e) :
    (it.observeAck e t3 episode).futureDone = it.futureDone ∧
      (it.ackEventIds ≠ [] → (it.observeAck e t3 episode).ackEventIds ≠ []) := by
  unfold Interaction.observeAck
  split_ifs with hmem htimed hlate hids
  · exact ⟨rfl, id⟩
  · exact ⟨rfl, fun _ => List.append_ne_nil_of_right_ne_nil _ (List.cons_ne_nil e [])⟩
  · exact ⟨rfl, fun _ => List.append_ne_nil_of_right_ne_nil _ (List.cons_ne_nil e [])⟩
  · exact absurd ⟨hmem, by simpa using htimed, hids⟩ h
  · exact ⟨rfl, fun _ => List.append_ne_nil_of_right_ne_nil _ (List.cons_ne_nil e [])⟩

section After

variable {now : ℕ} {call call' : Call}

theorem consistent_observeAck (e : Text) (t3 : ℕ) (episode : Option ℕ)
    (h : Consistent now call) :
    Consistent now { call with interaction := call.interaction.observeAck e t3 episode } := by
  have hunsettled : call.phase ≠ .returned →
      (call.interaction.observeAck e t3 episode).sendErrcode = [] ∧
        (call.interaction.observeAck e t3 episode).timedOut = false := by
    rw [observeAck_sendErrcode, observeAck_timedOut]
    exact h.unsettled
  by_cases haccepts : call.interaction.Accepts e
  · have hcompleted : (call.interaction.observeAck e t3 episode).completedMonotonicNs ≠ none := by
      rw [observeAck_of_accepts haccepts]
      exact Option.some_ne_none t3
    refine ⟨iff_of_true ?_ hcompleted, fun _ => ?_, hunsettled,
      fun _ _ => Or.inr (Or.inr hcompleted), h.offline⟩
    · rw [observeAck_of_accepts haccepts]
    · rw [observeAck_of_accepts haccepts]
      exact List.append_ne_nil_of_right_ne_nil _ (List.cons_ne_nil e [])
  · obtain ⟨hdone, hids⟩ := observeAck_of_not_accepts t3 episode haccepts
    refine ⟨?_, ?_, hunsettled, ?_, h.offline⟩
    · rw [hdone, observeAck_completed haccepts]
      exact h.done
    · rw [observeAck_completed haccepts]
      exact fun hcompleted => hids (h.listed hcompleted)
    · rw [observeAck_sendErrcode, observeAck_timedOut, observeAck_completed haccepts]
      exact h.settled

/-- A call that goes on: nothing of its outcome has changed. -/
theorem Consistent.goOn (h : Consistent now call) (hbefore : call.phase ≠ .returned)
    (requestEventId : Option Text) (phase : Phase) (hne : phase ≠ .returned)
    (hoffline : phase ≠ .sendingOffline) :
    Consistent now
      { call with
        interaction := { call.interaction with requestEventId := requestEventId }
        phase := phase } :=
  ⟨h.done, h.listed, fun _ => h.unsettled hbefore, fun hr => absurd hr hne,
    fun ho => absurd ho hoffline⟩

/-- A call that has not returned has nothing to agree on. -/
theorem alike_of_ne_returned (hne : call.phase ≠ .returned) : AlikeOnceReturned call :=
  fun h => absurd h hne

/-- A request that returns is classified alike if its fields are. -/
theorem alike_returned_iff {timeout : Option ℚ} (htimeout : timeout ≠ none) :
    AlikeOnceReturned ⟨it, timeout, .returned⟩ ↔ it.sendErrcode = [] ∧
      (it.timedOut = true → it.completedMonotonicNs = none) ∧
        it.completedMonotonicNs ≠ some 0 := by
  rw [← classifiedAlike_iff]
  exact ⟨fun h => h rfl htimeout, fun h _ _ => h⟩

/-- An ACK does not touch what a call that has returned is classified as. -/
theorem alike_acknowledged (e : Text) (t3 : ℕ) (episode : Option ℕ) (hinv : Consistent now call)
    (hgood : AlikeOnceReturned call) :
    AlikeOnceReturned
      { call with interaction := call.interaction.observeAck e t3 episode } := by
  by_cases hreturned : call.phase = .returned
  · intro _ htimeout
    have halike := classifiedAlike_iff.mp (hgood hreturned htimeout)
    have haccepts : ¬ call.interaction.Accepts e := by
      rintro ⟨-, htimed, hids⟩
      rcases hinv.settled hreturned htimeout with herr | htimed' | hcompleted
      · exact herr halike.1
      · rw [htimed] at htimed'
        cases htimed'
      · exact hinv.listed hcompleted hids
    refine classifiedAlike_iff.mpr ?_
    rw [observeAck_sendErrcode, observeAck_timedOut, observeAck_completed haccepts]
    exact halike
  · exact alike_of_ne_returned hreturned

/-- **A stretch of the task's own code**: what it keeps, and when a request returns to be
classified alike. -/
theorem alike_after_task {h : Happening} (hinv : Consistent now call)
    (htask : ∀ e t3 episode, h ≠ .acknowledged e t3 episode)
    (hafter : call.after h = some call') :
    Consistent now call' ∧ (AlikeOnceReturned call' ↔ AgreesOn call h) := by
  cases h with
  | acknowledged e t3 episode => exact absurd rfl (htask e t3 episode)
  | sent e now' armed =>
    unfold Call.after at hafter
    dsimp only at hafter
    split at hafter
    · rename_i timeout hphase htimeout
      have hne : call.phase ≠ .returned := hphase ▸ nofun
      have hsome : call.timeout ≠ none := htimeout ▸ Option.some_ne_none timeout
      obtain ⟨herr, htimed⟩ := hinv.unsettled hne
      have hcond : AgreesOn call (.sent e now' armed) ↔
          (remaining timeout call.interaction now' ≤ 0 →
            call.interaction.completedMonotonicNs = none) ∧
          call.interaction.completedMonotonicNs ≠ some 0 := by
        refine ⟨fun h => h timeout hphase htimeout, fun h timeout' _ htimeout' => ?_⟩
        obtain rfl := Option.some_inj.mp (htimeout.symm.trans htimeout')
        exact h
      rw [hcond]
      split at hafter
      · -- the send alone consumed the budget
        rename_i hnone
        rw [← Option.some_inj.mp hafter]
        refine ⟨⟨hinv.done, hinv.listed, fun h => absurd rfl h, fun _ _ => Or.inr (Or.inl rfl),
          nofun⟩, ?_⟩
        rw [alike_returned_iff hsome]
        exact ⟨fun h => ⟨fun _ => h.2.1 rfl, h.2.2⟩, fun h => ⟨herr, fun _ => h.1 hnone, h.2⟩⟩
      · rename_i hleft
        split at hafter
        · -- the ACK came before the send returned
          rename_i hdone
          rw [← Option.some_inj.mp hafter]
          refine ⟨⟨hinv.done, hinv.listed, fun h => absurd rfl h,
            fun _ _ => Or.inr (Or.inr (hinv.done.mp hdone)), nofun⟩, ?_⟩
          rw [alike_returned_iff hsome]
          exact ⟨fun h => ⟨fun hnone => absurd hnone hleft, h.2.2⟩,
            fun h => ⟨herr, fun htimed' => absurd (htimed.symm.trans htimed') (by decide), h.2⟩⟩
        · rename_i hdone
          rw [← Option.some_inj.mp hafter]
          refine ⟨hinv.goOn hne _ _ nofun nofun,
            iff_of_true (alike_of_ne_returned nofun)
              ⟨fun hnone => absurd hnone hleft, fun hzero => hdone (hinv.done.mpr ?_)⟩⟩
          rw [hzero]
          exact Option.some_ne_none 0
    · rename_i hphase
      have hnone := hinv.offline hphase
      rw [← Option.some_inj.mp hafter]
      refine ⟨⟨hinv.done, hinv.listed, fun h => absurd rfl h, fun _ h => absurd hnone h, nofun⟩,
        iff_of_true (fun _ h => absurd hnone h) fun timeout hsending => ?_⟩
      rw [hphase] at hsending
      cases hsending
    · cases hafter
  | rejected errcode message =>
    unfold Call.after at hafter
    dsimp only at hafter
    split at hafter
    · rename_i hphase
      rw [← Option.some_inj.mp hafter]
      refine ⟨⟨hinv.done, hinv.listed, fun h => absurd rfl h,
        fun _ _ => Or.inl (errcodeOf_ne_nil errcode), nofun⟩, ?_⟩
      constructor
      · intro halike _
        by_contra hsome
        exact errcodeOf_ne_nil errcode ((alike_returned_iff hsome).mp halike).1
      · exact fun hmeet _ hsome => absurd (hmeet hphase) hsome
    · rename_i hphase
      have hne : call.phase ≠ .returned := hphase ▸ nofun
      rw [← Option.some_inj.mp hafter]
      refine ⟨hinv.goOn hne _ _ nofun nofun,
        iff_of_true (alike_of_ne_returned nofun) fun hsending => ?_⟩
      rw [hphase] at hsending
      cases hsending
    · cases hafter
  | sendRaised =>
    unfold Call.after at hafter
    dsimp only at hafter
    split at hafter
    · rename_i hphase
      have hne : call.phase ≠ .returned := hphase ▸ nofun
      rw [← Option.some_inj.mp hafter]
      exact ⟨hinv.goOn hne _ _ nofun nofun,
        iff_of_true (alike_of_ne_returned nofun) trivial⟩
    · rename_i hphase
      have hne : call.phase ≠ .returned := hphase ▸ nofun
      rw [← Option.some_inj.mp hafter]
      exact ⟨hinv.goOn hne _ _ nofun nofun,
        iff_of_true (alike_of_ne_returned nofun) trivial⟩
    · cases hafter
  | timerFired now' =>
    unfold Call.after at hafter
    dsimp only at hafter
    split at hafter
    · rename_i deadline hphase
      have hne : call.phase ≠ .returned := hphase ▸ nofun
      split at hafter
      · rw [← Option.some_inj.mp hafter]
        exact ⟨hinv.goOn hne _ _ nofun nofun,
          iff_of_true (alike_of_ne_returned nofun) trivial⟩
      · cases hafter
    · cases hafter
  | resumed =>
    unfold Call.after at hafter
    dsimp only at hafter
    split at hafter
    · rename_i deadline hphase
      have hne : call.phase ≠ .returned := hphase ▸ nofun
      obtain ⟨herr, htimed⟩ := hinv.unsettled hne
      split at hafter
      · rename_i hdone
        rw [← Option.some_inj.mp hafter]
        refine ⟨⟨hinv.done, hinv.listed, fun h => absurd rfl h,
          fun _ _ => Or.inr (Or.inr (hinv.done.mp hdone)), nofun⟩, ?_⟩
        constructor
        · intro halike hsome
          refine ⟨fun hexpired => ?_, ((alike_returned_iff hsome).mp halike).2.2⟩
          rw [hphase] at hexpired
          cases hexpired
        · intro hmeet hreturned hsome
          exact (alike_returned_iff hsome).mpr
            ⟨herr, fun htimed' => absurd (htimed.symm.trans htimed') (by decide),
              (hmeet hsome).2⟩ hreturned hsome
      · cases hafter
    · rename_i hphase
      have hne : call.phase ≠ .returned := hphase ▸ nofun
      obtain ⟨herr, -⟩ := hinv.unsettled hne
      rw [← Option.some_inj.mp hafter]
      refine ⟨⟨hinv.done, hinv.listed, fun h => absurd rfl h,
        fun _ _ => Or.inr (Or.inl rfl), nofun⟩, ?_⟩
      constructor
      · intro halike hsome
        obtain ⟨-, hnone, hzero⟩ := (alike_returned_iff hsome).mp halike
        exact ⟨fun _ => hnone rfl, hzero⟩
      · intro hmeet hreturned hsome
        exact (alike_returned_iff hsome).mpr
          ⟨herr, fun _ => (hmeet hsome).1 hphase, (hmeet hsome).2⟩ hreturned hsome
    · cases hafter

theorem consistent_after {h : Happening} (hinv : Consistent now call)
    (hafter : call.after h = some call') : Consistent now call' := by
  by_cases hack : ∃ e t3 episode, h = .acknowledged e t3 episode
  · obtain ⟨e, t3, episode, rfl⟩ := hack
    rw [← Option.some_inj.mp hafter]
    exact consistent_observeAck e t3 episode hinv
  · exact (alike_after_task hinv (fun e t3 episode h => hack ⟨e, t3, episode, h⟩) hafter).1

/-- **One stretch of code** keeps the classifiers in agreement exactly when it is one of
those that may happen. -/
theorem alike_after_iff {h : Happening} (hinv : Consistent now call)
    (hgood : AlikeOnceReturned call) (hafter : call.after h = some call') :
    AlikeOnceReturned call' ↔ AgreesOn call h := by
  by_cases hack : ∃ e t3 episode, h = .acknowledged e t3 episode
  · obtain ⟨e, t3, episode, rfl⟩ := hack
    rw [← Option.some_inj.mp hafter]
    exact iff_of_true (alike_acknowledged e t3 episode hinv hgood) trivial
  · exact (alike_after_task hinv (fun e t3 episode h => hack ⟨e, t3, episode, h⟩) hafter).2

end After

/-- **All classifiers agree on everything `request` returns**, in every state of a run,
exactly when no request is rejected, none that completed times out, and none returns with a
completion stamped 0. -/
theorem classifiersAgree_iff (clock : MonotonicClock) (roomId : Option Text)
    (labels : List Label) (t : State)
    (hrun : exec (step clock) (State.initial roomId) labels = some t) :
    Always (step clock) (State.initial roomId) labels
        (fun s => ∀ call ∈ s.calls, AlikeOnceReturned call) ↔
      StepsMeet (step clock) (State.initial roomId) labels (Respects clock AgreesOn) := by
  refine always_calls_iff Consistent (fun _ _ _ _ hinv => ?_) (fun _ call hmade => ?_)
    (fun _ call h call' hinv _ hafter => ?_) (fun _ call h call' hinv _ hgood hafter => ?_) hrun
  · exact ⟨hinv.done, hinv.listed, hinv.unsettled, hinv.settled, hinv.offline⟩
  · refine ⟨consistent_of_made hmade, alike_of_ne_returned fun hreturned => ?_⟩
    rcases hmade.phase with h | h | h <;> rw [hreturned] at h <;> cases h
  · exact consistent_after hinv hafter
  · exact alike_after_iff hinv hgood hafter

/-! ### One request -/

/-- A request whose send is rejected. -/
def rejectedRequest : List Label :=
  [.request sampleCorrelation none 10, .sendRejected 0 limitExceeded ['n', 'o']]

/-- A request that is answered after its send. -/
def answeredRequest : List Label :=
  [.request sampleCorrelation none 10, .sendReturned 0 ['$', 'q'],
    .deliver (sampleAck ['$', 'a']) none, .resume 0]

/-- **A rejected send is a timeout for E0, E1 and the readiness run**, and a send error for
the engine. -/
theorem rejectedRequest_not_alike :
    (exec (step (steadyClock 1)) (State.initial (some ['!', 'r'])) rejectedRequest).map (fun s =>
        s.calls.map fun call => (runPhaseOutcome call.interaction,
          sendClassOutcome call.interaction, readinessOutcome call.interaction,
          outcomeOf call.interaction)) =
        some [(.timeout, .timeout, .timeout, .sendError)] ∧
      ¬ Always (step (steadyClock 1)) (State.initial (some ['!', 'r'])) rejectedRequest
        fun s => ∀ call ∈ s.calls, AlikeOnceReturned call := by
  refine ⟨by decide +kernel, fun halways => ?_⟩
  have hend : (exec (step (steadyClock 1)) (State.initial (some ['!', 'r'])) rejectedRequest).any
      (fun s => s.calls.any fun call => call.phase = .returned && (call.timeout ≠ none &&
        call.interaction.sendErrcode ≠ [])) = true := by decide +kernel
  obtain ⟨s, hs, hany⟩ := (Option.any_eq_true _ _).mp hend
  obtain ⟨call, hcall, hfields⟩ := List.any_eq_true.mp hany
  simp only [Bool.and_eq_true, decide_eq_true_eq] at hfields
  obtain ⟨hreturned, htimeout, herr⟩ := hfields
  have halike := halways rejectedRequest s (List.prefix_refl _) hs call hcall hreturned htimeout
  exact herr (classifiedAlike_iff.mp halike).1

/-- The exact condition at a request that is answered. -/
theorem answeredRequest_alike_iff :
    Always (step (steadyClock 1)) (State.initial (some ['!', 'r'])) answeredRequest
        (fun s => ∀ call ∈ s.calls, AlikeOnceReturned call) ↔
      StepsMeet (step (steadyClock 1)) (State.initial (some ['!', 'r'])) answeredRequest
        (Respects (steadyClock 1) AgreesOn) :=
  classifiersAgree_iff (steadyClock 1) (some ['!', 'r']) answeredRequest _
    (Option.some_get (by decide +kernel)).symm

end Experiments
end FederatedMessaging
