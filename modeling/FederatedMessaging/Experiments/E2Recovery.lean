import FederatedMessaging.Participants.Human

/-!
# The recovery experiment

`execute_run` of `experiments/e2_recovery.py`, from the first offline send to the end of
its `try` block.

## 1.  What is modelled

The offline loop sends one request after the other while no agent runs, and writes one
record for each.  The restart instant is then read, the agent process is started again,
`await_acks` waits for the futures of all registered interactions, the run sleeps, and the
second loop writes one record for each interaction that is registered.

Between two of its suspensions the run's task is not interrupted: after a send has ended,
its record is written and the next send begun in the same stretch.  In between, the sync
loop of the participant may deliver any event at any moment.

## 2.  What is left out

The room, the agent's own process and the telemetry it writes: nothing of them reaches an
interaction record.  Of the runner's stream only the interaction records are kept, the
markers are not.  The `finally` block writes nothing.
-/

namespace FederatedMessaging
namespace OfflineRecovery

open PythonText Message Human
open FederatedMessaging.Matrix

/-! ## 1.  Records -/

/-- `EXPERIMENT`. -/
def experiment : Text := ['E', '2']

/-- `TOPOLOGY`. -/
def topology : Text := "federated".toList

/-- `HUMAN_A`. -/
def humanA : Text := "@human-a:hs-a.test".toList

/-- `RECOVERY_DEADLINE_SECONDS`. -/
def recoveryDeadlineSeconds : ℚ := 180

/-- The phase labels. -/
inductive RunPhase where
  | offline
  | postRestart
  deriving DecidableEq, Repr

/-- What distinguishes one run.  `describe` is `str(exc)` of what `send_offline` raises
before its send. -/
structure RunConfig where
  runId : Text
  roomId : Text
  offlineRequests : ℕ
  describe : RequestError → Text

/-- A runner record, as `runner_record` builds it. -/
structure RunnerRecord where
  experiment : Text
  topology : Text
  runId : Text
  sequenceId : ℕ
  runPhase : RunPhase
  requestClass : Text
  roomId : Text
  sender : Text
  receiverRole : Text
  requestTxnId : Text
  requestEventId : Option Text
  responseTxnId : Text
  responseEventId : Option Text
  initiatedMonotonicNs : ℕ
  completedMonotonicNs : Option ℕ
  outcome : InteractionOutcome
  note : Text
  ackCount : ℕ
  duplicateAckCount : ℕ
  duplicateAckEventIds : List Text
  deriving DecidableEq

/-- The arguments all three calls of `runner_record` share, with its defaults for the
rest. -/
def RunnerRecord.base (config : RunConfig) (correlation : Correlation) (runPhase : RunPhase)
    (requestTxnId responseTxnId : Text) (initiatedMonotonicNs : ℕ)
    (outcome : InteractionOutcome) : RunnerRecord :=
  { experiment := OfflineRecovery.experiment
    topology := OfflineRecovery.topology
    runId := config.runId
    sequenceId := correlation.sequenceId
    runPhase := runPhase
    requestClass := "offline_send".toList
    roomId := config.roomId
    sender := humanA
    receiverRole := "federated_agent".toList
    requestTxnId := requestTxnId
    requestEventId := none
    responseTxnId := responseTxnId
    responseEventId := none
    initiatedMonotonicNs := initiatedMonotonicNs
    completedMonotonicNs := none
    outcome := outcome
    note := []
    ackCount := 0
    duplicateAckCount := 0
    duplicateAckEventIds := [] }

/-- `integrity_fields`. -/
def RunnerRecord.withIntegrity (record : RunnerRecord) (it : Interaction) : RunnerRecord :=
  { record with
    ackCount := it.ackCount
    duplicateAckCount := it.duplicateAckCount
    duplicateAckEventIds := it.duplicateAckEventIds }

/-- The record of an offline send that raised.  Either transaction id may raise again. -/
def sendErrorRecord (config : RunConfig) (correlation : Correlation) (now : ℕ) (note : Text) :
    Except MessageError RunnerRecord := do
  let requestTxnId ← correlation.txnId Direction.request.value
  let responseTxnId ← correlation.txnId Direction.response.value
  .ok
    { RunnerRecord.base config correlation .offline requestTxnId responseTxnId now
        .sendError with
      note := note }

/-- The record of an offline send that returned. -/
def offlineSendRecord (config : RunConfig) (correlation : Correlation) (it : Interaction) :
    Except MessageError RunnerRecord := do
  let responseTxnId ← correlation.txnId Direction.response.value
  .ok
    ({ RunnerRecord.base config correlation .offline it.requestTxnId responseTxnId
        it.initiatedMonotonicNs .offlineSend with
      requestEventId := it.requestEventId }.withIntegrity it)

/-- `if interaction.completed_monotonic_ns`. -/
def isCompleted (it : Interaction) : Bool := it.completedMonotonicNs.any (· != 0)

/-- The record of the second loop. -/
def postRestartRecord (config : RunConfig) (restartNs : ℕ) (correlation : Correlation)
    (it : Interaction) : Except MessageError RunnerRecord := do
  let responseTxnId ← correlation.txnId Direction.response.value
  .ok
    ({ RunnerRecord.base config correlation .postRestart it.requestTxnId responseTxnId
        restartNs (if isCompleted it then .success else .timeout) with
      requestEventId := it.requestEventId
      responseEventId := it.responseEventId
      completedMonotonicNs := it.completedMonotonicNs }.withIntegrity it)

/-! ## 2.  The run -/

/-- Where the run's task stands. -/
inductive Stage where
  /-- `send_offline` is awaited as call `call`; `left` requests follow in the loop -/
  | sending (correlation : Correlation) (call left : ℕ)
  /-- `agent_process.start()` is awaited -/
  | restarting
  /-- `await_acks` waits; its timer is due at `deadline` -/
  | waiting (deadline : ℚ)
  /-- the timer has cancelled the wait and the task has not run since -/
  | expired
  /-- the sleep after `await_acks` -/
  | settling
  | returned
  | raised
  deriving DecidableEq

/-- The state of a run.  `sendFailures` keeps the values its texts are formatted from. -/
structure RunState where
  human : State
  correlations : List Correlation
  records : List RunnerRecord
  sendFailures : List (ℕ × Text)
  sentEventIds : Finset Text
  restartNs : ℕ
  ackCount : ℕ
  duplicateAcks : ℕ
  stage : Stage

namespace RunState

/-- `human_a.interaction(correlation)`. -/
def interaction (w : RunState) (correlation : Correlation) : Option Interaction := do
  let i ← w.human.pending.get? correlation.key
  let call ← w.human.calls[i]?
  some call.interaction

/-- The interactions whose futures `await_acks` gathers. -/
def awaited (w : RunState) : List Interaction := w.correlations.filterMap w.interaction

variable (clock : MonotonicClock) (config : RunConfig)

/-- A clock reading of the run's own. -/
def readClock (w : RunState) : ℕ × RunState :=
  (clock.read w.human.reads, { w with human := { w.human with reads := w.human.reads + 1 } })

/-- The `except` branch of the offline loop. -/
def sendFailed (w : RunState) (correlation : Correlation) (note : Text) :
    Except MessageError RunState := do
  let (now, w) := w.readClock clock
  let record ← sendErrorRecord config correlation now note
  .ok
    { w with
      sendFailures := w.sendFailures ++ [(correlation.sequenceId, note)]
      records := w.records ++ [record] }

/-- What follows a send that returned. -/
def sendReturned (w : RunState) (correlation : Correlation) (it : Interaction) :
    Except MessageError RunState := do
  let record ← offlineSendRecord config correlation it
  .ok
    { w with
      sentEventIds :=
        match truthy it.requestEventId with
        | some eventId => insert eventId w.sentEventIds
        | none => w.sentEventIds
      records := w.records ++ [record] }

/-- What follows the offline loop, up to the start of the agent. -/
def restart (w : RunState) : RunState :=
  let (now, w) := w.readClock clock
  { w with restartNs := now, stage := .restarting }

/-- The head of the offline loop, with `left` iterations to go, and what follows it. -/
def attempt (w : RunState) : ℕ → RunState
  | 0 => w.restart clock
  | left + 1 =>
    match Correlation.new experiment config.runId (config.offlineRequests - left : ℕ) with
    | .error _ => { w with stage := .raised }
    | .ok correlation =>
      let w := { w with correlations := w.correlations ++ [correlation] }
      match w.human.sendOffline clock correlation with
      | (human, .ok call) => { w with human := human, stage := .sending correlation call left }
      | (human, .error e) =>
        match { w with human := human }.sendFailed clock config correlation (config.describe e) with
        | .error _ => { w with human := human, stage := .raised }
        | .ok w => attempt w left

/-- The run up to its first offline send, with a fresh participant bound to the room. -/
def start : RunState :=
  attempt clock config
    { human := .initial (some config.roomId)
      correlations := []
      records := []
      sendFailures := []
      sentEventIds := ∅
      restartNs := 0
      ackCount := 0
      duplicateAcks := 0
      stage := .raised }
    config.offlineRequests

/-- What the run's task does once the awaited send has ended; `note` is the text of what
it raised, if it did. -/
def resume (w : RunState) (note : Text) : RunState :=
  match w.stage with
  | .sending correlation call left =>
    match w.human.calls[call]? with
    | some ⟨it, _, .returned⟩ =>
      match w.sendReturned config correlation it with
      | .error _ => { w with stage := .raised }
      | .ok w => w.attempt clock config left
    | some ⟨_, _, .raised⟩ =>
      match w.sendFailed clock config correlation note with
      | .error _ => { w with stage := .raised }
      | .ok w => w.attempt clock config left
    | _ => w
  | _ => w

section Resume

variable {clock config} {w w' : RunState} {correlation : Correlation} {call left : ℕ}
  {it : Interaction} {timeout : Option ℚ} {note : Text}

theorem resume_of_returned (hstage : w.stage = .sending correlation call left)
    (hcall : w.human.calls[call]? = some ⟨it, timeout, .returned⟩)
    (hsent : w.sendReturned config correlation it = .ok w') :
    w.resume clock config note = w'.attempt clock config left := by
  unfold resume
  rw [hstage]
  dsimp only
  rw [hcall]
  dsimp only
  rw [hsent]

theorem resume_of_raised (hstage : w.stage = .sending correlation call left)
    (hcall : w.human.calls[call]? = some ⟨it, timeout, .raised⟩)
    (hfailed : w.sendFailed clock config correlation note = .ok w') :
    w.resume clock config note = w'.attempt clock config left := by
  unfold resume
  rw [hstage]
  dsimp only
  rw [hcall]
  dsimp only
  rw [hfailed]

theorem resume_of_sendingOffline (hstage : w.stage = .sending correlation call left)
    (hcall : w.human.calls[call]? = some ⟨it, timeout, .sendingOffline⟩) :
    w.resume clock config note = w := by
  unfold resume
  rw [hstage]
  dsimp only
  rw [hcall]

theorem resume_of_ne_sending
    (hstage : ∀ correlation call left, w.stage ≠ .sending correlation call left) :
    w.resume clock config note = w := by
  unfold resume
  split
  · rename_i h
    exact absurd h (hstage _ _ _)
  · rfl

end Resume

/-- `await_acks` up to its wait.  Without futures it returns at once. -/
def awaitAcks (w : RunState) : RunState :=
  if w.awaited = [] then { w with ackCount := 0, stage := .settling }
  else
    let (armed, w) := w.readClock clock
    { w with stage := .waiting (armed + recoveryDeadlineSeconds * 10 ^ 9) }

/-- `await_acks` after its wait. -/
def acksAwaited (w : RunState) : RunState :=
  { w with ackCount := w.awaited.countP Interaction.futureDone, stage := .settling }

/-- The body of the second loop. -/
def afterRestart (w : RunState) (records : List RunnerRecord) (correlation : Correlation) :
    Except MessageError (List RunnerRecord) :=
  match w.interaction correlation with
  | none => .ok records
  | some it => do
    let record ← postRestartRecord config w.restartNs correlation it
    .ok (records ++ [record])

/-- What follows the sleep. -/
def finish (w : RunState) : RunState :=
  let w := { w with duplicateAcks := w.human.duplicateAcks }
  match w.correlations.foldlM (w.afterRestart config) w.records with
  | .error _ => { w with stage := .raised }
  | .ok records => { w with records := records, stage := .returned }

/-- What the surroundings of the run decide. -/
inductive Label where
  /-- something happens to the participant; `note` is the text of the exception if the
  awaited send raises anything but a rejection -/
  | human (label : Human.Label) (note : Text)
  | agentStarted
  | agentFailed
  /-- the timer of `await_acks` fires -/
  | timerFires
  /-- `await_acks` runs again -/
  | acksReturn
  /-- the sleep ends -/
  | slept

/-- `str(exc)` of what a send raised. -/
def noteOf (note : Text) : Human.Label → Text
  | .sendRejected _ _ message => message
  | _ => note

/-- **One step of a run.**  There is no step after the end. -/
def step (w : RunState) (l : Label) : Option RunState :=
  match w.stage, l with
  | .returned, _ => none
  | .raised, _ => none
  | _, .human (.request ..) _ => none
  | _, .human (.sendOffline ..) _ => none
  | _, .human l note => do
    let human ← Human.step clock w.human l
    some ({ w with human := human }.resume clock config (noteOf note l))
  | .restarting, .agentStarted => some (w.awaitAcks clock)
  | .restarting, .agentFailed => some { w with stage := .raised }
  | .waiting deadline, .timerFires =>
    let (now, w) := w.readClock clock
    if deadline ≤ now then some { w with stage := .expired } else none
  | .waiting _, .acksReturn =>
    if ∀ it ∈ w.awaited, it.futureDone = true then some w.acksAwaited else none
  | .expired, .acksReturn => some w.acksAwaited
  | .settling, .slept => some (w.finish config)
  | _, _ => none

end RunState
end OfflineRecovery
end FederatedMessaging
