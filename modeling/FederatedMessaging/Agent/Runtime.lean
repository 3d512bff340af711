import FederatedMessaging.Agent.Protocol
import FederatedMessaging.Agent.RecoveryLedger
import FederatedMessaging.Foundations.CrashPrograms
import FederatedMessaging.Matrix.Client

/-!
# The agent runtime

`fam.agent.runtime`, with the sync loop of `fam.matrix.client` that drives it: connect,
recover, handle one event, synchronise, shut down, and start again from the checkpoint
file.

## 1.  The outside

Everything the outside decides is an oracle of the step: the homeserver's answers, the
executor's, whether a write to the disk succeeds, and what becomes of the process.
Nothing is assumed of the answers here.

A process can die at any effect, and it can be told to stop wherever a coroutine is
suspended.  It is cut off *after* the effect took place in the outside, so that a send
may have reached the homeserver although its answer never arrived.  Writing to the disk
is synchronous: the process may die there, but a stop waits for the next suspension.

## 2.  The state

The checkpoint file and the record of what happened survive the process.  The rest is
the memory of one incarnation, which `boot` clears.  The record is what the theorems
speak about: the calls of `_handle` and their normal returns, the invocations of the
executor, the sends, the saves and the telemetry, each with the incarnation it belongs
to.

## 3.  What is left out

Timestamps; the experiment and run names copied into every telemetry record; the
privilege summary made of the probe's status; the transport diagnostics of the client.
Closing the client after the last save cancels the sync task and writes nothing.
`TransportCheckpoint.load` finds what was last saved: a save replaces the whole file, so
the branch for a file that is not JSON is not taken.  Nor is the ready file modelled: when
writing it fails, the process ends as if it had died.
-/

namespace FederatedMessaging
namespace Agent

open PythonText Message FederatedMessaging.Matrix CrashPrograms CrashPrograms.Prog

/-! ## 1.  The outside -/

/-- What becomes of the process at one step. -/
inductive Fate where
  | proceeds
  | stopped
  | crashed
  deriving DecidableEq, Repr

/-- How an incarnation is cut off. -/
inductive Halt where
  | stopped
  | crashed
  deriving DecidableEq, Repr

/-- The exceptions that reach the runtime: a `MatrixError` or a subclass of it, what the
message module raises, or anything else. -/
inductive Fault where
  | matrixError (text : Text)
  | message (error : MessageError)
  | other (text : Text)
  deriving DecidableEq, Repr

/-- A pagination's exception.  `RecoveryBoundExceeded` is a `MatrixError`. -/
def Fault.ofClientError : ClientError Fault → Fault
  | .recoveryBoundExceeded _ _ _ => .matrixError "pagination reached the safety bound".toList
  | .request error => error

/-- An executor's exception, with the attributes the runtime looks for. -/
structure ExecutorError where
  text : Text
  external : Bool
  status : Option ℤ
  deriving DecidableEq, Repr

/-- What a login or a stored checkpoint says about the session. -/
structure Session where
  accessToken : Text
  deviceId : Text
  deriving DecidableEq, Repr

/-- The request `send_text` makes. -/
structure PutQuery where
  deviceId : Text
  roomId : Text
  body : Text
  txnId : Text
  deriving DecidableEq, Repr

/-- What comes of a send: the event it created in the room, if it created one, and the
answer, which is lost when the process is cut off. -/
structure PutAnswer where
  created : Option Text
  reply : Except Fault Text

/-- The outside, step by step. -/
structure Environment where
  fate : ℕ → Fate
  login : ℕ → Except Fault Session
  whoami : ℕ → Except Fault Text
  join : ℕ → Except Fault Bool
  sync : ℕ → SyncQuery → Except Fault SyncResponse
  messages : ℕ → ℕ → PageQuery → Except Fault Page
  probe : ℕ → Except Fault ℤ
  decide : ℕ → ExecutionRequest → Except ExecutorError (Option Text)
  lastCall : ℕ → List (Text × Text)
  put : ℕ → PutQuery → PutAnswer
  disk : ℕ → Except Fault Unit

/-! ## 2.  The state -/

/-- `AgentConfig`, the fields the runtime reads. -/
structure AgentConfig where
  userId : Text
  roomId : Text
  timelineLimit : Option ℤ
  requestProtocol : ProtocolName
  deriving DecidableEq, Repr

/-- The payload of `TransportCheckpoint.save`. -/
structure TransportCheckpoint where
  accessToken : Text
  deviceId : Text
  syncToken : Option Token
  deriving DecidableEq, Repr

/-- The live counters of the runtime. -/
structure LiveCounters where
  liveLimitedSyncs : ℕ
  liveRecoveryEpisodes : ℕ
  liveHistoryPages : ℕ
  liveDuplicateObservations : ℕ
  liveRecoveryFailures : ℕ
  checkpointCommits : ℕ
  deriving DecidableEq, Repr

/-- The `action` of an observation. -/
inductive Action where
  | connected
  | ignored
  | executionFailed
  | noResponse
  | responded
  | sendFailed
  | shutdown
  deriving DecidableEq, Repr

/-- The `note` of an observation. -/
inductive Note where
  | empty
  /-- `resumed from transport checkpoint` -/
  | resumed
  /-- `fresh login` -/
  | freshLogin
  /-- `logical request already processed exactly once` -/
  | alreadyProcessed
  /-- `{type(exc).__name__}: {exc}` -/
  | executorError (text : Text)
  /-- `send failed: {exc}` -/
  | sendFailed (error : Fault)
  deriving DecidableEq, Repr

/-- The `execution` of an observation. -/
inductive Execution where
  | none
  | failed (external : Bool) (status : Option ℤ)
  | call (facts : List (Text × Text))
  deriving DecidableEq, Repr

/-- An `agent_record`, the fields that vary.  `duplicateDecision` is absent for `n/a`. -/
structure Observed where
  action : Action
  duplicateDecision : Option Decision
  sender : Text := []
  requestEventId : Option Text := .none
  sequenceId : Option ℕ := .none
  responseTxnId : Option Text := .none
  responseEventId : Option Text := .none
  note : Note := .empty
  execution : Execution := .none
  deriving DecidableEq, Repr

/-- A telemetry record. -/
inductive Record where
  | checkpointLoaded (checkpointPresent resumedFromCheckpoint : Bool) (timelineLimit : Option ℤ)
  | privilegeEvidence (resumedFromCheckpoint : Bool) (status : Option ℤ)
  | recoverySkipped
  | postRestartSync (timelineLimited prevBatchPresent : Bool) (requestsDirectlyInSync : ℕ)
      (timelineLimit : Option ℤ)
  | limitedTimelineDetected
  | historyPagesReceived (pages rawEvents : ℕ)
  | recoveryComplete (recovered fromSync fromHistory : List Text) (summary : LedgerSummary)
  | recoveryProcessingComplete (summary : LedgerSummary)
  | liveRecoveryFailed (error : Fault) (checkpointRetained : Option Token)
  | liveRecoveryComplete (episode : Episode)
  | liveSyncSummary (counters : LiveCounters) (logicalRequestsProcessed : ℕ)
  | observation (observed : Observed) (syncTokenPresent : Bool)
  deriving DecidableEq, Repr

/-- What can be said to have happened. -/
inductive Occurrence where
  | started
  /-- `_handle` was called with the event. -/
  | passed (event : TimelineEvent)
  /-- That call returned normally. -/
  | returned (event : TimelineEvent)
  /-- `run_executor` was called for the request of the event. -/
  | executed (event : TimelineEvent) (request : InboundRequest)
  /-- `send_text` was called for it, from a device, and created an event or not. -/
  | sent (deviceId : Text) (event : TimelineEvent) (request : InboundRequest)
      (created : Option Text)
  /-- The checkpoint file was replaced. -/
  | saved (checkpoint : TransportCheckpoint)
  | recorded (record : Record)
  deriving DecidableEq

/-- The state: the file and the record of what happened, and the memory of the running
incarnation. -/
structure State where
  file : Option TransportCheckpoint
  incarnation : ℕ
  trace : List (ℕ × Occurrence)
  session : Session
  syncToken : Option Token
  episodeCounter : ℕ
  registry : ProcessedRegistry
  ledger : RecoveryLedger
  checkpointToken : Option Token
  resumedFromCheckpoint : Bool
  live : LiveCounters

/-- Before the first start, with a given file on the disk. -/
def State.initial (file : Option TransportCheckpoint) : State :=
  { file := file
    incarnation := 0
    trace := []
    session := ⟨[], []⟩
    syncToken := none
    episodeCounter := 0
    registry := .empty
    ledger := .empty
    checkpointToken := none
    resumedFromCheckpoint := false
    live := ⟨0, 0, 0, 0, 0, 0⟩ }

/-- A program of the runtime. -/
abbrev Program (α : Type) := Prog State Halt Fault α

/-- Add to the record of what happened. -/
def State.noting (s : State) (occurrence : Occurrence) : State :=
  { s with trace := s.trace ++ [(s.incarnation, occurrence)] }

/-- The state after `TransportCheckpoint.save` of what is in memory. -/
def State.saving (s : State) : State :=
  { s.noting (.saved ⟨s.session.accessToken, s.session.deviceId, s.syncToken⟩) with
    file := some ⟨s.session.accessToken, s.session.deviceId, s.syncToken⟩ }

/-- A new incarnation: everything but the file and the record is gone. -/
def State.booted (s : State) : State :=
  { State.initial s.file with
    incarnation := s.incarnation + 1
    trace := s.trace ++ [(s.incarnation + 1, .started)] }

section Programs

variable (env : Environment) (config : AgentConfig) (hexdigest : Text → Text)

/-! ## Effects -/

/-- A suspended coroutine: it goes on, or the process is stopped, or dies. -/
def suspend : Program Unit := do
  match ← ask env.fate with
  | .proceeds => pure ()
  | .stopped => halt .stopped
  | .crashed => halt .crashed

/-- A synchronous write: it succeeds or raises, or the process dies before it. -/
def touchDisk : Program Unit := do
  match ← ask env.fate with
  | .crashed => halt .crashed
  | _ => do
    let written ← ask env.disk
    ofExcept written

/-- Await what the outside answers. -/
def awaitAnswer {α : Type} (answer : ℕ → Except Fault α) : Program α := do
  let got ← ask answer
  suspend env
  ofExcept got

/-- `self.telemetry.write`. -/
def writeTelemetry (record : Record) : Program Unit := do
  touchDisk env
  update fun s => s.noting (.recorded record)

/-- `_record`. -/
def recordObservation (observed : Observed) : Program Unit := do
  let present ← read fun s => s.syncToken.isSome
  writeTelemetry env (.observation observed present)

/-- `_save_checkpoint`. -/
def saveCheckpoint : Program Unit := do
  touchDisk env
  update State.saving

/-- `sync_once`. -/
def syncOnce (query : SyncQuery) : Program SyncSnapshot := do
  let response ← awaitAnswer env fun n => env.sync n query
  pure response.snapshot

/-- `reconcile_slice`, with the histories the homeserver serves at this step. -/
def reconcile (item : RoomSyncSlice) (since : Option Token) (trigger : RecoveryTrigger) :
    Program (List TimelineEvent × Episode) := do
  let request ← ask env.messages
  let counter ← read State.episodeCounter
  update fun s => { s with
    episodeCounter := (reconcileSlice request counter item since trigger).1 }
  suspend env
  ofExcept ((reconcileSlice request counter item since trigger).2.mapError Fault.ofClientError)

/-! ## Requests -/

/-- `_inbound`. -/
def inboundOf (event : TimelineEvent) : Except Fault (Option InboundRequest) :=
  ((build config.requestProtocol config.userId).inbound hexdigest event.eventId event.sender
    event.body).mapError Fault.message

/-- `_is_foreign_request`. -/
def isForeignRequest (event : TimelineEvent) : Except Fault Bool :=
  if event.roomId ≠ config.roomId ∨ event.sender = config.userId then .ok false
  else (inboundOf config hexdigest event).map Option.isSome

/-- `_sequence_of`. -/
def sequenceOf (event : TimelineEvent) : Except Fault ℕ :=
  (inboundOf config hexdigest event).map fun inbound => (inbound.bind (·.sequenceId)).getD 0

/-! ## Connecting -/

/-- `MatrixParticipant.login`. -/
def login : Program Unit := do
  let session ← awaitAnswer env env.login
  update fun s => { s with session := session }

/-- The delay between two attempts, with so many to go. -/
def joinDelay (attempts : ℕ) : Program Unit :=
  if attempts = 0 then pure () else suspend env

/-- `MatrixParticipant.join`, with so many attempts to go. -/
def join : ℕ → Program Unit
  | 0 => raise (.matrixError "join failed".toList)
  | attempts + 1 => do
    let joined ← awaitAnswer env env.join
    if joined then pure ()
    else do
      joinDelay env attempts
      join attempts

/-- The default of `attempts`. -/
def joinAttempts : ℕ := 12

/-- `prime_sync`. -/
def primeSync : Program Unit := do
  let snapshot ← syncOnce env ⟨none, 0, some 0⟩
  update fun s => { s with syncToken := some snapshot.nextBatch }

/-- The first part of `connect`: resume the stored session, or log in. -/
def resumeOrLogin (stored : Option TransportCheckpoint) : Program Unit :=
  match truthy (stored.map (·.accessToken)), truthy (stored.map (·.deviceId)) with
  | some accessToken, some deviceId => do
    update fun s => { s with session := ⟨accessToken, deviceId⟩ }
    let observed ← awaitAnswer env env.whoami
    if observed ≠ config.userId then login env
    else update fun s => { s with resumedFromCheckpoint := true }
  | _, _ => login env

/-- The part of `connect` that settles where to sync from. -/
def settleToken (stored : Option TransportCheckpoint) : Program Unit := do
  update fun s => { s with checkpointToken := stored.bind (·.syncToken) }
  match truthy (stored.bind (·.syncToken)) with
  | some token => update fun s => { s with syncToken := some token }
  | none => primeSync env

/-- `_record_privilege_evidence`. -/
def recordPrivilegeEvidence : Program Unit := do
  let status ← attempt (awaitAnswer env env.probe)
  let resumed ← read State.resumedFromCheckpoint
  writeTelemetry env (.privilegeEvidence resumed status.toOption)

/-- `connect`. -/
def connect : Program Unit := do
  let stored ← read State.file
  resumeOrLogin env config stored
  join env joinAttempts
  settleToken env stored
  let resumed ← read State.resumedFromCheckpoint
  writeTelemetry env (.checkpointLoaded (stored.bind (·.syncToken)).isSome resumed
    config.timelineLimit)
  recordObservation env
    { action := .connected
      duplicateDecision := none
      note := if resumed then .resumed else .freshLogin }
  recordPrivilegeEvidence env
  saveCheckpoint env

/-! ## Handling one event -/

/-- `send_text`, with the record of what it did to the room. -/
def sendText (event : TimelineEvent) (request : InboundRequest) (body : Text) :
    Program Text := do
  let deviceId ← read fun s => s.session.deviceId
  let answer ← ask fun n => env.put n ⟨deviceId, config.roomId, body, request.responseTxnId⟩
  update fun s => s.noting (.sent deviceId event request answer.created)
  suspend env
  ofExcept answer.reply

/-- The part of `_handle` that sends a response and saves. -/
def respond (event : TimelineEvent) (request : InboundRequest) (body : Text)
    (facts : List (Text × Text)) : Program Unit := do
  let sent ← attempt (sendText env config event request body)
  recordObservation env
    { action := if (truthy sent.toOption).isSome then .responded else .sendFailed
      duplicateDecision := some .process
      sender := event.sender
      requestEventId := some event.eventId
      sequenceId := request.sequenceId
      responseTxnId := some request.responseTxnId
      responseEventId := sent.toOption
      note := match sent with
        | .ok _ => .empty
        | .error exc => .sendFailed exc
      execution := .call facts }
  saveCheckpoint env

/-- The part of `_handle` after the registry let the request through: it is committed,
and only then executed. -/
def execute (event : TimelineEvent) (request : InboundRequest) : Program Unit := do
  update fun s => { s with registry := s.registry.commit event.eventId request.correlationKey }
  update fun s => s.noting (.executed event request)
  let decided ← ask fun n => env.decide n request.execution
  suspend env
  match decided with
  | .error exc =>
    recordObservation env
      { action := .executionFailed
        duplicateDecision := some .process
        sender := event.sender
        requestEventId := some event.eventId
        sequenceId := request.sequenceId
        note := .executorError exc.text
        execution := .failed exc.external exc.status }
  | .ok none => do
    let facts ← ask env.lastCall
    recordObservation env
      { action := .noResponse
        duplicateDecision := some .process
        sender := event.sender
        requestEventId := some event.eventId
        sequenceId := request.sequenceId
        execution := .call facts }
  | .ok (some body) => do
    let facts ← ask env.lastCall
    respond env config event request body facts

/-- The part of `_handle` that asks the registry. -/
def handleRequest (event : TimelineEvent) (request : InboundRequest) : Program Unit := do
  let decision ← read fun s => s.registry.decide event.eventId request.correlationKey
  if decision = .process then execute env config event request
  else
    recordObservation env
      { action := .ignored
        duplicateDecision := some decision
        sender := event.sender
        requestEventId := some event.eventId
        sequenceId := request.sequenceId
        note := .alreadyProcessed }

/-- `_handle`. -/
def handle (event : TimelineEvent) : Program Unit :=
  if event.roomId ≠ config.roomId then pure ()
  else if event.sender = config.userId then
    recordObservation env
      { action := .ignored
        duplicateDecision := some .skipOwnEvent
        sender := event.sender
        requestEventId := some event.eventId }
  else do
    let inbound ← ofExcept (inboundOf config hexdigest event)
    match inbound with
    | none =>
      recordObservation env
        { action := .ignored
          duplicateDecision := some .skipNotRequest
          sender := event.sender
          requestEventId := some event.eventId }
    | some request => handleRequest env config event request

/-- A call of `_handle`, with the record of the call and of its return. -/
def dispatch (event : TimelineEvent) : Program Unit := do
  update fun s => s.noting (.passed event)
  handle env config hexdigest event
  update fun s => s.noting (.returned event)

/-! ## Recovering -/

/-- `sorted` on event ids. -/
def sortedIds (ids : List Text) : List Text := ids.insertionSort fun x y => x ≤ y

/-- The loop of `recover` that fills `pending`. -/
def observeEvents (directIds : List Text) :
    List TimelineEvent → OrderedDict Text TimelineEvent → Program (OrderedDict Text TimelineEvent)
  | [], pending => pure pending
  | event :: events, pending => do
    let foreign ← ofExcept (isForeignRequest config hexdigest event)
    if foreign then do
      let source := if event.eventId ∈ directIds then Source.sync else .history
      let first ← read fun s => (s.ledger.observe event.eventId source).1
      update fun s => { s with ledger := (s.ledger.observe event.eventId source).2 }
      observeEvents directIds events
        (if first then pending.set event.eventId event else pending)
    else observeEvents directIds events pending

/-- The telemetry of a limited slice, before it is reconciled. -/
def noteLimited (slice : RoomSyncSlice) : Program Unit :=
  if slice.limited then writeTelemetry env .limitedTimelineDetected else pure ()

/-- The ledger and the telemetry of the pages, after the slice was reconciled. -/
def notePages (episode : Episode) : Program Unit :=
  if episode.historyPagesFetched ≠ 0 then do
    update fun s => { s with ledger := s.ledger.notePagination episode.historyPagesFetched }
    writeTelemetry env
      (.historyPagesReceived episode.historyPagesFetched episode.reconciledUniqueEvents)
  else pure ()

/-- The part of `recover` that reconciles the slice of the room. -/
def collectPending (slice : RoomSyncSlice) (since : Token) :
    Program (OrderedDict Text TimelineEvent) := do
  noteLimited env slice
  let (events, episode) ← reconcile env slice (some since) .startup
  notePages env episode
  let direct ← ofExcept (slice.events.filterM (isForeignRequest config hexdigest))
  observeEvents config hexdigest (direct.map (·.eventId)) events .empty

/-- The pending events of a snapshot in which the room has this slice, or none. -/
def pendingOf (slice : Option RoomSyncSlice) (since : Token) :
    Program (OrderedDict Text TimelineEvent) :=
  match slice with
  | none => pure .empty
  | some slice => collectPending env config hexdigest slice since

/-- `sorted(pending.values(), key=self._sequence_of)`, a stable sort. -/
def inSequence (pending : OrderedDict Text TimelineEvent) : Except Fault (List TimelineEvent) := do
  let keyed ← pending.values.mapM fun event =>
    (sequenceOf config hexdigest event).map fun sequence => (sequence, event)
  .ok ((keyed.insertionSort fun x y => x.1 ≤ y.1).map Prod.snd)

/-- The body of the processing loop of `recover`. -/
def handlePending (event : TimelineEvent) : Program Unit := do
  let wanted ← read fun s => s.ledger.shouldProcess event.eventId
  if wanted then do
    dispatch env config hexdigest event
    update fun s => { s with ledger := s.ledger.markProcessed event.eventId }
  else pure ()

/-- The part of `recover` after the sync. -/
def recoverSlice (slice : Option RoomSyncSlice) (since : Token) : Program Unit := do
  update fun s => { s with ledger := { s.ledger with
    limitedTimeline := slice.elim false (·.limited)
    prevBatch := slice.bind (·.prevBatch) } }
  let direct ← ofExcept ((slice.elim [] (·.events)).filterM (isForeignRequest config hexdigest))
  writeTelemetry env (.postRestartSync (slice.elim false (·.limited))
    (slice.bind (·.prevBatch)).isSome direct.length config.timelineLimit)
  let pending ← pendingOf env config hexdigest slice since
  let ledger ← read State.ledger
  writeTelemetry env (.recoveryComplete (sortedIds ledger.observations.keys)
    (sortedIds ((ledger.firstSeenBy .sync).map (·.eventId)))
    (sortedIds ((ledger.firstSeenBy .history).map (·.eventId))) ledger.summary)
  let ordered ← ofExcept (inSequence config hexdigest pending)
  ordered.forM (handlePending env config hexdigest)

/-- `recover`. -/
def recover : Program Unit := do
  let checkpointToken ← read State.checkpointToken
  match truthy checkpointToken with
  | none => writeTelemetry env .recoverySkipped
  | some since => do
    let snapshot ← syncOnce env ⟨some since, 0, config.timelineLimit⟩
    recoverSlice env config hexdigest (snapshot.room config.roomId) since
    update fun s => { s with syncToken := some snapshot.nextBatch }
    saveCheckpoint env
    let ledger ← read State.ledger
    writeTelemetry env (.recoveryProcessingComplete ledger.summary)

/-! ## The sync loop -/

/-- `sync_timeout_ms`. -/
def syncTimeoutMs : ℕ := 30000

/-- `_record_live_episode`, for an episode that succeeded. -/
def recordLiveEpisode (episode : Episode) : Program Unit := do
  update fun s => { s with live := { s.live with
    liveLimitedSyncs := s.live.liveLimitedSyncs + 1
    liveRecoveryEpisodes := s.live.liveRecoveryEpisodes + 1
    liveHistoryPages := s.live.liveHistoryPages + episode.historyPagesFetched
    liveDuplicateObservations :=
      s.live.liveDuplicateObservations + episode.duplicateObservations } }
  writeTelemetry env (.liveRecoveryComplete episode)

/-- `_record_live_episode`, for one that failed. -/
def recordLiveFailure (error : Fault) (since : Option Token) : Program Unit := do
  update fun s => { s with live := { s.live with
    liveRecoveryFailures := s.live.liveRecoveryFailures + 1 } }
  writeTelemetry env (.liveRecoveryFailed error since)

/-- `_commit_checkpoint`. -/
def commitCheckpoint : Program Unit := do
  update fun s => { s with live := { s.live with
    checkpointCommits := s.live.checkpointCommits + 1 } }
  saveCheckpoint env

/-- The events of one slice: as they are, or reconciled when the slice is limited. -/
def sliceEvents (since : Option Token) (item : RoomSyncSlice) : Program (List TimelineEvent) :=
  if item.limited then do
    let (events, episode) ← reconcile env item since .liveSync
    recordLiveEpisode env episode
    pure events
  else pure item.events

/-- The body of the loop over the rooms of a snapshot.  Only the agent's room is
tracked. -/
def dispatchSlice (since : Option Token) (item : RoomSyncSlice) : Program Unit :=
  if item.roomId ≠ config.roomId then pure ()
  else do
    let events ← sliceEvents env since item
    events.forM (dispatch env config hexdigest)

/-- `_sync_loop`, for so many iterations.  Gap recovery is enabled throughout. -/
def syncLoop : ℕ → Program Unit
  | 0 => pure ()
  | iterations + 1 => do
    let since ← read State.syncToken
    let synced ← attempt (syncOnce env ⟨since, syncTimeoutMs, config.timelineLimit⟩)
    match synced with
    | .error (.matrixError _) => do
      suspend env
      syncLoop iterations
    | .error exc => raise exc
    | .ok snapshot => do
      let dispatched ← attempt (snapshot.rooms.forM (dispatchSlice env config hexdigest since))
      match dispatched with
      | .error exc => do
        recordLiveFailure env exc since
        update fun s => { s with syncToken := since }
        suspend env
        syncLoop iterations
      | .ok _ => do
        update fun s => { s with syncToken := some snapshot.nextBatch }
        commitCheckpoint env
        syncLoop iterations

/-! ## One incarnation -/

/-- `shutdown`. -/
def shutdown : Program Unit := do
  saveCheckpoint env
  let counters ← read State.live
  let processed ← read fun s => s.registry.processedCount
  writeTelemetry env (.liveSyncSummary counters processed)
  recordObservation env { action := .shutdown, duplicateDecision := none }

/-- `run`, and the wait of `serve` that ends in `shutdown`.  When the sync task has died
of an exception, the process stays until it is stopped or dies. -/
def runUntilStopped (iterations : ℕ) : Program Unit :=
  onHalt
    (do
      let ended ← attempt (syncLoop env config hexdigest iterations)
      match ended with
      | .ok _ => pure ()
      | .error _ => suspend env)
    fun how => match how with
      | .stopped => shutdown env
      | .crashed => halt .crashed

/-- `serve`, in a new process, for so many iterations of the sync loop. -/
def serve (iterations : ℕ) : Program Unit := do
  update State.booted
  connect env config
  recover env config hexdigest
  runUntilStopped env config hexdigest iterations

/-- The state after a number of incarnations. -/
def lifetime (file : Option TransportCheckpoint) (iterations : List ℕ) : State :=
  (lives (serve env config hexdigest) iterations (0, State.initial file)).2

end Programs

/-! ## A small deployment

Two controlled requests in a room, a homeserver whose slices are limited to one event
and which serves the rest as history, and an executor that answers every request.  The
process dies at a chosen step and is stopped at another. -/

/-- `FAM/1 REQUEST E0 r <digit>`. -/
def requestBody (digit : Char) : Text :=
  ['F', 'A', 'M', '/', '1', ' ', 'R', 'E', 'Q', 'U', 'E', 'S', 'T', ' ', 'E', '0', ' ', 'r', ' ',
    digit]

/-- The agent of the room `R`. -/
def smallConfig (name : ProtocolName) : AgentConfig :=
  { userId := ['@', 'a']
    roomId := ['R']
    timelineLimit := some 1
    requestProtocol := name }

/-- The tokens `t`, `tt`, .. stand at the positions 0, 1, .. -/
def smallToken (position : ℕ) : Token := List.replicate (position + 1) 't'

/-- The position of a token. -/
def smallPosition (token : Token) : ℕ := token.length - 1

/-- The two requests, as a history page carries them. -/
def smallRaw : List RawEvent :=
  [⟨some messageEventType, none, ['$', '0'], some ['@', 'h'], some (requestBody '1'), some 0⟩,
    ⟨some messageEventType, none, ['$', '1'], some ['@', 'h'], some (requestBody '2'), some 1⟩]

/-- The second request, as a sync carries it. -/
def smallNewest : NioEvent := ⟨['$', '1'], ['@', 'h'], some (some (requestBody '2')), none, some 1⟩

/-- A sync: the end of the timeline, with its newest event if that is news. -/
def smallSync (query : SyncQuery) : SyncResponse :=
  match query.since with
  | none => ⟨smallToken 0, []⟩
  | some token =>
    if smallPosition token < 2 then
      ⟨smallToken 2, [⟨['R'], [smallNewest], true, some (smallToken 1)⟩]⟩
    else ⟨smallToken 2, []⟩

/-- A page of the history: everything from `to` up to `from`, newest first. -/
def smallPage (query : PageQuery) : Page :=
  { chunk := ((smallRaw.take (smallPosition query.start)).drop
      ((truthy query.toToken).elim 0 smallPosition)).reverse
    endToken := none }

/-- The deployment, with a step at which the process dies and one at which it is
stopped.  The homeserver creates an event for each step at which it is told to. -/
def smallEnvironment (crash stop : ℕ) (creates : List ℕ) : Environment where
  fate n := if n = crash then .crashed else if n = stop then .stopped else .proceeds
  login _ := .ok ⟨['k'], ['D']⟩
  whoami _ := .ok ['@', 'a']
  join _ := .ok true
  sync _ query := .ok (smallSync query)
  messages _ _ query := .ok (smallPage query)
  probe _ := .ok 403
  decide _ _ := .ok (some ['O', 'K'])
  lastCall _ := []
  put n _ := ⟨if n ∈ creates then some ['$', 'r'] else none, .ok ['$', 'r']⟩
  disk _ := .ok ()

end Agent
end FederatedMessaging
