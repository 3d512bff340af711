import FederatedMessaging.Participants.Human

/-!
# The benchmark engine

`fam.benchmark.engine`: the two workloads of E3 over one participant, and the records
they leave.

## 1.  Records and tallies

`recordOf` copies an interaction into a benchmark record at the moment it is called;
nothing connects the two afterwards.  `tallySend` and `tallyIntegrity` add one
interaction to the run's counters, likewise at that moment.

## 2.  The latency workload

Requests one after the other, in one task.  When a request returns, its tallies and
its record are taken and the next request is made up to its send, all without giving
control back; so a step of the workload is a step of the participant followed, if the
awaited call has ended, by that stretch.

## 3.  The throughput workload

A number of slots, each its own task, that request until the window ends; the accounting
is done once, after the last slot has stopped.

The participant belongs to the run: it is fresh when the run starts, and no other task
makes requests with it.
-/

namespace FederatedMessaging
namespace Benchmark

open PythonText Message Human

/-! ## 1.  Records and tallies -/

/-- `EXPERIMENT`. -/
def experiment : Text := ['E', '3']

/-- The phase labels. -/
inductive RunPhase where
  | warmup
  | window
  | drain
  | measured
  deriving DecidableEq, Repr

/-- `RunConfig`. -/
structure RunConfig where
  runId : Text
  workload : Text
  blockId : Text
  withinBlockOrder : ℤ
  topologyName : Text
  receiverRole : Text
  sender : Text
  roomId : Text
  concurrency : ℕ
  bodyBytes : ℤ
  timeoutSeconds : ℚ
  warmupInteractions : ℕ
  measuredInteractions : ℕ
  warmupSeconds : ℚ
  measurementSeconds : ℚ
  drainSeconds : ℚ

/-- A benchmark record, as `benchmark_record` builds it from the engine's arguments. -/
structure Record where
  workload : Text
  blockId : Text
  withinBlockOrder : ℤ
  concurrency : ℕ
  messageBodyBytes : ℤ
  phase : RunPhase
  windowStartNs : Option ℤ
  windowEndNs : Option ℤ
  liveRecoveryEpisode : Option ℕ
  sendErrcode : Text
  lateAckMonotonicNs : Option ℕ
  ackCount : ℕ
  duplicateAckCount : ℕ
  duplicateAckEventIds : List Text
  experiment : Text
  topology : Text
  runId : Text
  sequenceId : ℕ
  runPhase : RunPhase
  requestClass : Text
  roomId : Text
  sender : Text
  receiverRole : Text
  requestTxnId : Text
  requestEventId : Option Text
  responseTxnId : Text
  responseEventId : Option Text
  initiatedMonotonicNs : ℕ
  completedMonotonicNs : Option ℕ
  outcome : InteractionOutcome
  note : Text
  deriving DecidableEq

/-- `_record`.  The response transaction id may raise. -/
def recordOf (config : RunConfig) (it : Interaction) (phase : RunPhase)
    (windowStartNs windowEndNs : Option ℤ) : Except MessageError Record := do
  let responseTxnId ← it.correlation.txnId Direction.response.value
  .ok
    { workload := config.workload
      blockId := config.blockId
      withinBlockOrder := config.withinBlockOrder
      concurrency := config.concurrency
      messageBodyBytes := config.bodyBytes
      phase := phase
      windowStartNs := windowStartNs
      windowEndNs := windowEndNs
      liveRecoveryEpisode := it.recoveryEpisode
      sendErrcode := it.sendErrcode
      lateAckMonotonicNs := it.lateAckMonotonicNs
      ackCount := it.ackCount
      duplicateAckCount := it.duplicateAckCount
      duplicateAckEventIds := it.duplicateAckEventIds
      experiment := experiment
      topology := config.topologyName
      runId := config.runId
      sequenceId := it.correlation.sequenceId
      runPhase := phase
      requestClass := config.workload
      roomId := config.roomId
      sender := config.sender
      receiverRole := config.receiverRole
      requestTxnId := it.requestTxnId
      requestEventId := it.requestEventId
      responseTxnId := responseTxnId
      responseEventId := it.responseEventId
      initiatedMonotonicNs := it.initiatedMonotonicNs
      completedMonotonicNs := it.completedMonotonicNs
      outcome := outcomeOf it
      note := it.sendError }

/-- `WorkloadResult`. -/
structure WorkloadResult where
  records : List Record
  windowStartNs : Option ℤ
  windowEndNs : Option ℤ
  drainEndNs : Option ℤ
  loopStartNs : Option ℤ
  initiated : ℕ
  warmupInitiated : ℕ
  rateLimitedSends : ℕ
  sendErrors : ℕ
  rateLimitErrcodes : List Text
  outstandingAtWindowStart : ℕ
  outstandingAtWindowEnd : ℕ
  duplicateAckObservations : ℕ
  requestsWithDuplicateAcks : ℕ

/-- `WorkloadResult()`. -/
def WorkloadResult.new : WorkloadResult :=
  ⟨[], none, none, none, none, 0, 0, 0, 0, [], 0, 0, 0, 0⟩

/-- `_tally_send`. -/
def tallySend (result : WorkloadResult) (it : Interaction) : WorkloadResult :=
  if it.sendErrcode = [] then result
  else
    { result with
      sendErrors := result.sendErrors + 1
      rateLimitErrcodes := result.rateLimitErrcodes ++ [it.sendErrcode]
      rateLimitedSends := result.rateLimitedSends + if it.rateLimited then 1 else 0 }

/-- `_tally_integrity`. -/
def tallyIntegrity (result : WorkloadResult) (it : Interaction) : WorkloadResult :=
  if it.duplicateAckCount = 0 then result
  else
    { result with
      duplicateAckObservations := result.duplicateAckObservations + it.duplicateAckCount
      requestsWithDuplicateAcks := result.requestsWithDuplicateAcks + 1 }

/-- The next request of a workload: its correlation, and the call made for it. -/
def issue (clock : MonotonicClock) (config : RunConfig) (human : State) (sequence : ℕ) :
    State × Option ℕ :=
  match Correlation.new experiment config.runId sequence with
  | .error _ => (human, none)
  | .ok correlation =>
    match human.request clock correlation (some config.bodyBytes) config.timeoutSeconds with
    | (human, .error _) => (human, none)
    | (human, .ok call) => (human, some call)

/-- A clock reading, as the engine takes one between requests. -/
def readClock (clock : MonotonicClock) (human : State) : ℤ × State :=
  (clock.read human.reads, { human with reads := human.reads + 1 })

/-! ## 2.  The latency workload -/

/-- Where the workload's task stands.  `left` requests follow the awaited one in its
loop. -/
inductive LatencyStage where
  | warmup (call left : ℕ)
  | measured (call left : ℕ)
  | returned
  | raised
  deriving DecidableEq

/-- The state of a latency workload; `sequence` is the number of the next request. -/
structure LatencyState where
  human : State
  result : WorkloadResult
  sequence : ℕ
  stage : LatencyStage

namespace LatencyState

variable (clock : MonotonicClock) (config : RunConfig)

/-- Make the next request, to be awaited at the given stage. -/
def next (w : LatencyState) (stage : ℕ → LatencyStage) : LatencyState :=
  match issue clock config w.human w.sequence with
  | (human, none) => { w with human := human, stage := .raised }
  | (human, some call) =>
    { w with human := human, sequence := w.sequence + 1, stage := stage call }

/-- The head of the second loop, with `left` iterations to go, and what follows it. -/
def measure (w : LatencyState) : ℕ → LatencyState
  | 0 =>
    let (now, human) := readClock clock w.human
    { w with
      human := human
      result := { w.result with windowEndNs := some now, drainEndNs := some now }
      stage := .returned }
  | left + 1 => w.next clock config fun call => .measured call left

/-- The head of the first loop, with `left` iterations to go, and what follows it. -/
def warmUp (w : LatencyState) : ℕ → LatencyState
  | 0 =>
    if w.human.outstandingCount ≠ 0 then { w with stage := .raised }
    else
      let (now, human) := readClock clock w.human
      measure clock config
        { w with human := human, result := { w.result with windowStartNs := some now } }
        config.measuredInteractions
  | left + 1 => w.next clock config fun call => .warmup call left

/-- `run_latency_workload` up to its first suspension. -/
def start (human : State) : LatencyState :=
  let (now, human) := readClock clock human
  warmUp clock config
    { human := human
      result := { WorkloadResult.new with loopStartNs := some now }
      sequence := 1
      stage := .raised }
    config.warmupInteractions

/-- Account for a request that has returned: the body of either loop after its
`await`. -/
def account (w : LatencyState) (it : Interaction) (phase : RunPhase) : LatencyState :=
  let result :=
    { w.result with
      initiated := w.result.initiated + 1
      warmupInitiated := w.result.warmupInitiated + if phase = .warmup then 1 else 0 }
  let result := tallyIntegrity (tallySend result it) it
  match recordOf config it phase none none with
  | .error _ => { w with result := result, stage := .raised }
  | .ok record => { w with result := { result with records := result.records ++ [record] } }

/-- What the workload's task does once the awaited call has ended. -/
def resume (w : LatencyState) : LatencyState :=
  match w.stage with
  | .warmup call left =>
    match w.human.calls[call]? with
    | some ⟨it, _, .returned⟩ =>
      let w := w.account config it .warmup
      if w.stage = .raised then w else w.warmUp clock config left
    | some ⟨_, _, .raised⟩ => { w with stage := .raised }
    | _ => w
  | .measured call left =>
    match w.human.calls[call]? with
    | some ⟨it, _, .returned⟩ =>
      let w := w.account config it .measured
      if w.stage = .raised then w else w.measure clock config left
    | some ⟨_, _, .raised⟩ => { w with stage := .raised }
    | _ => w
  | _ => w

/-- **One step of the latency workload**: something happens to the participant, and the
workload goes on if it can.  There is no step after the end. -/
def step (w : LatencyState) (l : Label) : Option LatencyState :=
  match w.stage, l with
  | .returned, _ => none
  | .raised, _ => none
  | _, .request .. => none
  | _, .sendOffline .. => none
  | _, l => do
    let human ← Human.step clock w.human l
    some (resume clock config { w with human := human })

end LatencyState

/-! ## 3.  The throughput workload -/

/-- Where a slot's task stands. -/
inductive Slot where
  | ready
  | awaiting (call : ℕ)
  | stopped
  deriving DecidableEq

/-- `int` of a float. -/
def truncate (q : ℚ) : ℤ := q.num.tdiv q.den

/-- Where the workload's own task stands. -/
inductive ThroughputStage where
  | gathering
  | returned
  | raised
  deriving DecidableEq

/-- The state of a throughput workload.  `completed` lists the calls of `completed`. -/
structure ThroughputState where
  human : State
  result : WorkloadResult
  sequence : ℕ
  slots : List Slot
  completed : List ℕ
  windowStartNs : ℤ
  windowEndNs : ℤ
  stage : ThroughputStage

namespace ThroughputState

variable (clock : MonotonicClock) (config : RunConfig)

/-- `run_throughput_workload` up to its first suspension. -/
def start (human : State) : ThroughputState :=
  let (loopStart, human) := readClock clock human
  let windowStart := loopStart + truncate (config.warmupSeconds * 10 ^ 9)
  let windowEnd := windowStart + truncate (config.measurementSeconds * 10 ^ 9)
  let drainEnd := windowEnd + truncate (config.drainSeconds * 10 ^ 9)
  { human := human
    result :=
      { WorkloadResult.new with
        loopStartNs := some loopStart
        windowStartNs := some windowStart
        windowEndNs := some windowEnd
        drainEndNs := some drainEnd }
    sequence := 1
    slots := List.replicate config.concurrency .ready
    completed := []
    windowStartNs := windowStart
    windowEndNs := windowEnd
    stage := .gathering }

/-- The head of slot `j`'s loop, and what follows it up to the next suspension. -/
def loop (w : ThroughputState) (j : ℕ) : ThroughputState :=
  let (now, human) := readClock clock w.human
  if now < w.windowEndNs then
    match issue clock config human w.sequence with
    | (human, none) => { w with human := human, stage := .raised }
    | (human, some call) =>
      { w with
        human := human
        sequence := w.sequence + 1
        slots := w.slots.set j (.awaiting call) }
  else { w with human := human, slots := w.slots.set j .stopped }

/-- The slot awaits a call that has ended. -/
def hasEnded (human : State) : Slot → Bool
  | .awaiting call =>
    match human.calls[call]? with
    | some ⟨_, _, .returned⟩ => true
    | some ⟨_, _, .raised⟩ => true
    | _ => false
  | _ => false

/-- What the slots' tasks do once an awaited call has ended. -/
def resume (w : ThroughputState) : ThroughputState :=
  match w.slots.findIdx? (hasEnded w.human) with
  | none => w
  | some j =>
    match w.slots[j]? with
    | some (.awaiting call) =>
      match w.human.calls[call]? with
      | some ⟨_, _, .returned⟩ =>
        loop clock config { w with completed := w.completed ++ [call] } j
      | _ => { w with stage := .raised }
    | _ => w

/-- The phase label of an interaction. -/
def phaseOf (w : ThroughputState) (it : Interaction) : RunPhase :=
  match it.completedMonotonicNs with
  | none => if (it.initiatedMonotonicNs : ℤ) < w.windowStartNs then .warmup else .window
  | some finished =>
    if (finished : ℤ) < w.windowStartNs then .warmup
    else if (finished : ℤ) < w.windowEndNs then .window
    else .drain

/-- Whether an interaction that started before `bound` was outstanding at it. -/
def outstandingAt (bound : ℤ) (it : Interaction) : Bool :=
  (it.initiatedMonotonicNs : ℤ) < bound &&
    match it.completedMonotonicNs with
    | none => true
    | some finished => bound ≤ (finished : ℤ)

/-- The accounting of one interaction. -/
def account (w : ThroughputState) (result : WorkloadResult) (it : Interaction) :
    Except MessageError WorkloadResult := do
  let phase := w.phaseOf it
  let result := { result with initiated := result.initiated + 1 }
  let result := tallyIntegrity (tallySend result it) it
  let record ← recordOf config it phase (some w.windowStartNs) (some w.windowEndNs)
  .ok
    { result with
      warmupInitiated := result.warmupInitiated + if phase = .warmup then 1 else 0
      outstandingAtWindowStart :=
        result.outstandingAtWindowStart + if outstandingAt w.windowStartNs it then 1 else 0
      outstandingAtWindowEnd :=
        result.outstandingAtWindowEnd + if outstandingAt w.windowEndNs it then 1 else 0
      records := result.records ++ [record] }

/-- The completed interactions, as they are now. -/
def interactions (w : ThroughputState) : List Interaction :=
  w.completed.filterMap fun call => w.human.calls[call]?.map Call.interaction

/-- What follows the gathering of the slots: the accounting, without suspension. -/
def finish (w : ThroughputState) : ThroughputState :=
  match w.interactions.foldlM (account config w) w.result with
  | .error _ => { w with stage := .raised }
  | .ok result => { w with result := result, stage := .returned }

/-- A label of the throughput workload. -/
inductive Label where
  /-- something happens to the participant -/
  | human (label : Human.Label)
  /-- the task of a slot is scheduled for the first time -/
  | slotStarts (j : ℕ)
  /-- the workload's task runs again after the last slot has stopped -/
  | gathered

/-- **One step of the throughput workload.** -/
def step (w : ThroughputState) (l : Label) : Option ThroughputState :=
  match w.stage, l with
  | .returned, _ => none
  | .raised, _ => none
  | _, .human (.request ..) => none
  | _, .human (.sendOffline ..) => none
  | _, .human l => do
    let human ← Human.step clock w.human l
    some (resume clock config { w with human := human })
  | _, .slotStarts j => if w.slots[j]? = some .ready then some (loop clock config w j) else none
  | _, .gathered =>
    if ∀ slot ∈ w.slots, slot = .stopped then some (finish config w) else none

end ThroughputState
end Benchmark
end FederatedMessaging
