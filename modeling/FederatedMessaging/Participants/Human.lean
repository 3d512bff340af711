import FederatedMessaging.Common.Message
import FederatedMessaging.Foundations.LabelledRuns
import FederatedMessaging.Foundations.OrderedDict
import FederatedMessaging.Matrix.Client

/-!
# The human-role participant

`fam.participants.human`: requests are sent and awaited concurrently with the sync
loop, which calls `_handle` for every event.  Three pieces of code write to an
interaction --- the callback, the task of `request` after its send, and the same task
after its wait --- and they run in any order.

## 1.  Interactions and calls

An `Interaction` is the source's record.  A `Call` adds where the task that made the
interaction stands (`Phase`), and the timeout it was given; calls live in a list that
only grows, and the pending table maps a correlation key to an index into it, as the
source's dictionary maps it to a reference.

## 2.  What happens to a call

Between two suspension points a task runs without interruption, so each such stretch is
one transition: `Happening` lists them, and `Call.after` is the code that runs.

The wait is `asyncio.wait_for(asyncio.shield(future), remaining)` of Python 3.12.  On a
future that is already done it returns without suspending.  Otherwise the timer, when
it fires, cancels the waiting task, and the task takes the timeout branch when it is
next scheduled --- also if the future was completed in between, or was complete and the
task had not run yet.

## 3.  The participant

Time is a monotone sequence of clock readings, and each reading takes the next one.
`timerFires` needs a reading at or past the deadline and may come any time later.
-/

namespace FederatedMessaging
namespace Human

open PythonText Message LabelledRuns
open FederatedMessaging.Matrix

/-! ## 1.  Interactions and calls -/

/-- `Interaction`.  `futureDone` says whether its future has a result. -/
structure Interaction where
  correlation : Correlation
  requestTxnId : Text
  initiatedMonotonicNs : ℕ
  requestEventId : Option Text
  responseEventId : Option Text
  completedMonotonicNs : Option ℕ
  ackEventIds : List Text
  sendErrcode : Text
  sendError : Text
  timedOut : Bool
  lateAckMonotonicNs : Option ℕ
  recoveryEpisode : Option ℕ
  futureDone : Bool
  deriving DecidableEq

/-- The constructor call of `request` and `send_offline`. -/
def Interaction.new (correlation : Correlation) (requestTxnId : Text)
    (initiatedMonotonicNs : ℕ) : Interaction :=
  { correlation := correlation
    requestTxnId := requestTxnId
    initiatedMonotonicNs := initiatedMonotonicNs
    requestEventId := none
    responseEventId := none
    completedMonotonicNs := none
    ackEventIds := []
    sendErrcode := []
    sendError := []
    timedOut := false
    lateAckMonotonicNs := none
    recoveryEpisode := none
    futureDone := false }

/-- `M_LIMIT_EXCEEDED`. -/
def limitExceeded : Text :=
  ['M', '_', 'L', 'I', 'M', 'I', 'T', '_', 'E', 'X', 'C', 'E', 'E', 'D', 'E', 'D']

/-- `Interaction.rate_limited`. -/
def Interaction.rateLimited (it : Interaction) : Bool := it.sendErrcode == limitExceeded

/-- `Interaction.ack_count`. -/
def Interaction.ackCount (it : Interaction) : ℕ := it.ackEventIds.length

/-- `Interaction.duplicate_ack_event_ids`. -/
def Interaction.duplicateAckEventIds (it : Interaction) : List Text := it.ackEventIds.drop 1

/-- `Interaction.duplicate_ack_count`. -/
def Interaction.duplicateAckCount (it : Interaction) : ℕ := it.ackEventIds.length - 1

/-- The members of `InteractionOutcome`. -/
inductive InteractionOutcome where
  | success
  | timeout
  | sendError
  | malformedResponse
  | unexpectedResponse
  | runnerError
  | offlineSend
  deriving DecidableEq, Repr

/-- `_outcome_of` of the benchmark engine. -/
def outcomeOf (it : Interaction) : InteractionOutcome :=
  if it.sendErrcode ≠ [] then .sendError
  else if it.timedOut = true ∨ it.completedMonotonicNs = none then .timeout
  else .success

/-- Where the task that made an interaction stands. -/
inductive Phase where
  /-- `request` awaits its send -/
  | sending
  /-- `send_offline` awaits its send -/
  | sendingOffline
  /-- `request` waits for the future; the timer is due at `deadline` -/
  | waiting (deadline : ℚ)
  /-- the timer has cancelled the wait and the task has not run since -/
  | expired
  | returned
  | raised
  deriving DecidableEq

/-- The task is inside `request`. -/
def Phase.running : Phase → Bool
  | .sending | .waiting _ | .expired => true
  | .sendingOffline | .returned | .raised => false

/-- An interaction with the task that made it.  `timeout` is in seconds; `send_offline`
has none. -/
structure Call where
  interaction : Interaction
  timeout : Option ℚ
  phase : Phase
  deriving DecidableEq

/-! ## 2.  What happens to a call -/

/-- `exc.errcode or "unknown"`. -/
def errcodeOf (errcode : Text) : Text :=
  (truthy (some errcode)).getD ['u', 'n', 'k', 'n', 'o', 'w', 'n']

/-- The rest of `_handle` once the interaction of an ACK has been found. -/
def Interaction.observeAck (it : Interaction) (eventId : Text) (t3 : ℕ)
    (currentRecoveryEpisode : Option ℕ) : Interaction :=
  if eventId ∈ it.ackEventIds then it
  else if it.timedOut then
    if it.lateAckMonotonicNs = none then
      { it with
        ackEventIds := it.ackEventIds ++ [eventId]
        lateAckMonotonicNs := some t3
        responseEventId := some eventId }
    else { it with ackEventIds := it.ackEventIds ++ [eventId] }
  else if it.ackEventIds = [] then
    { it with
      ackEventIds := it.ackEventIds ++ [eventId]
      completedMonotonicNs := some t3
      responseEventId := some eventId
      recoveryEpisode := currentRecoveryEpisode
      futureDone := true }
  else { it with ackEventIds := it.ackEventIds ++ [eventId] }

/-- `remaining`, in seconds, at clock reading `now`. -/
def remaining (timeout : ℚ) (it : Interaction) (now : ℕ) : ℚ :=
  timeout - ((now : ℚ) - it.initiatedMonotonicNs) / 10 ^ 9

/-- One uninterrupted stretch of code that concerns one call. -/
inductive Happening where
  /-- `_handle` found the interaction of an ACK -/
  | acknowledged (eventId : Text) (t3 : ℕ) (currentRecoveryEpisode : Option ℕ)
  /-- the send returned; `now` is read for the budget, `armed` by the timer -/
  | sent (eventId : Text) (now armed : ℕ)
  /-- the send raised `MatrixRequestRejected` -/
  | rejected (errcode message : Text)
  /-- the send raised anything else -/
  | sendRaised
  /-- the timer fires -/
  | timerFired (now : ℕ)
  /-- the waiting task runs again -/
  | resumed

/-- The call after one stretch of code; `none` where the stretch cannot run. -/
def Call.after (call : Call) : Happening → Option Call
  | .acknowledged eventId t3 episode =>
    some { call with interaction := call.interaction.observeAck eventId t3 episode }
  | .sent eventId now armed =>
    let it := { call.interaction with requestEventId := some eventId }
    match call.phase, call.timeout with
    | .sending, some timeout =>
      if remaining timeout it now ≤ 0 then
        some { call with interaction := { it with timedOut := true }, phase := .returned }
      else if it.futureDone then some { call with interaction := it, phase := .returned }
      else some
        { call with
          interaction := it
          phase := .waiting (armed + remaining timeout it now * 10 ^ 9) }
    | .sendingOffline, _ => some { call with interaction := it, phase := .returned }
    | _, _ => none
  | .rejected errcode message =>
    match call.phase with
    | .sending => some
      { call with
        interaction :=
          { call.interaction with sendErrcode := errcodeOf errcode, sendError := message }
        phase := .returned }
    | .sendingOffline => some { call with phase := .raised }
    | _ => none
  | .sendRaised =>
    match call.phase with
    | .sending | .sendingOffline => some { call with phase := .raised }
    | _ => none
  | .timerFired now =>
    match call.phase with
    | .waiting deadline => if deadline ≤ now then some { call with phase := .expired } else none
    | _ => none
  | .resumed =>
    match call.phase with
    | .waiting _ =>
      if call.interaction.futureDone then some { call with phase := .returned } else none
    | .expired => some
      { call with
        interaction := { call.interaction with timedOut := true }
        phase := .returned }
    | _ => none

/-! ### The branches of the callback -/

section ObserveAck

variable {it : Interaction} {e : Text} {t3 : ℕ} {episode : Option ℕ}

@[simp] theorem observeAck_sendErrcode :
    (it.observeAck e t3 episode).sendErrcode = it.sendErrcode := by
  unfold Interaction.observeAck
  split_ifs <;> rfl

@[simp] theorem observeAck_timedOut : (it.observeAck e t3 episode).timedOut = it.timedOut := by
  unfold Interaction.observeAck
  split_ifs <;> rfl

@[simp] theorem observeAck_initiated :
    (it.observeAck e t3 episode).initiatedMonotonicNs = it.initiatedMonotonicNs := by
  unfold Interaction.observeAck
  split_ifs <;> rfl

@[simp] theorem observeAck_correlation :
    (it.observeAck e t3 episode).correlation = it.correlation := by
  unfold Interaction.observeAck
  split_ifs <;> rfl

/-- An ACK is accepted: a new event, the first of an interaction that has not timed
out. -/
def Interaction.Accepts (it : Interaction) (e : Text) : Prop :=
  e ∉ it.ackEventIds ∧ it.timedOut = false ∧ it.ackEventIds = []

/-- Only an accepted ACK completes the interaction. -/
theorem observeAck_completed (h : ¬ it.Accepts e) :
    (it.observeAck e t3 episode).completedMonotonicNs = it.completedMonotonicNs := by
  unfold Interaction.observeAck
  split_ifs with hmem htimed hlate hids
  · rfl
  · rfl
  · rfl
  · exact absurd ⟨hmem, by simpa using htimed, hids⟩ h
  · rfl

theorem observeAck_of_accepts (h : it.Accepts e) :
    it.observeAck e t3 episode =
      { it with
        ackEventIds := it.ackEventIds ++ [e]
        completedMonotonicNs := some t3
        responseEventId := some e
        recoveryEpisode := episode
        futureDone := true } := by
  obtain ⟨hmem, htimed, hids⟩ := h
  rw [Interaction.observeAck, if_neg hmem, htimed, if_neg Bool.false_ne_true, if_pos hids]

end ObserveAck

/-! ### The branches of the task -/

theorem errcodeOf_ne_nil (errcode : Text) : errcodeOf errcode ≠ [] := by
  cases errcode <;> exact List.cons_ne_nil _ _

/-- **Everything that can happen to a call**, one case for each way through the code. -/
inductive Call.Becomes (call : Call) : Happening → Call → Prop where
  | acknowledged (e : Text) (t3 : ℕ) (episode : Option ℕ) :
    call.Becomes (.acknowledged e t3 episode)
      { call with interaction := call.interaction.observeAck e t3 episode }
  /-- the send alone consumed the interaction budget -/
  | exhausted (e : Text) (now armed : ℕ) (timeout : ℚ) (hphase : call.phase = .sending)
    (htimeout : call.timeout = some timeout)
    (hnone : remaining timeout call.interaction now ≤ 0) :
    call.Becomes (.sent e now armed)
      { call with
        interaction := { call.interaction with requestEventId := some e, timedOut := true }
        phase := .returned }
  /-- the send returned in time, and the wait begins or is over at once -/
  | sent (e : Text) (now armed : ℕ) (timeout : ℚ) (phase : Phase) (hphase : call.phase = .sending)
    (htimeout : call.timeout = some timeout)
    (hsome : ¬ remaining timeout call.interaction now ≤ 0) :
    call.Becomes (.sent e now armed)
      { call with
        interaction := { call.interaction with requestEventId := some e }, phase := phase }
  | sentOffline (e : Text) (now armed : ℕ) (hphase : call.phase = .sendingOffline) :
    call.Becomes (.sent e now armed)
      { call with
        interaction := { call.interaction with requestEventId := some e }, phase := .returned }
  | rejected (errcode message : Text) (hphase : call.phase = .sending) :
    call.Becomes (.rejected errcode message)
      { call with
        interaction :=
          { call.interaction with sendErrcode := errcodeOf errcode, sendError := message }
        phase := .returned }
  | rejectedOffline (errcode message : Text) (hphase : call.phase = .sendingOffline) :
    call.Becomes (.rejected errcode message) { call with phase := .raised }
  | sendRaised : call.Becomes .sendRaised { call with phase := .raised }
  | timerFired (now : ℕ) (deadline : ℚ) (hphase : call.phase = .waiting deadline) :
    call.Becomes (.timerFired now) { call with phase := .expired }
  | answered (deadline : ℚ) (hphase : call.phase = .waiting deadline)
    (hdone : call.interaction.futureDone = true) :
    call.Becomes .resumed { call with phase := .returned }
  /-- the wait was cancelled by its timer -/
  | expired (hphase : call.phase = .expired) :
    call.Becomes .resumed
      { call with
        interaction := { call.interaction with timedOut := true }, phase := .returned }

theorem becomes_of_after {call call' : Call} {h : Happening} (hafter : call.after h = some call') :
    call.Becomes h call' := by
  cases h with
  | acknowledged e t3 episode =>
    rw [← Option.some_inj.mp hafter]
    exact .acknowledged e t3 episode
  | sent e now armed =>
    unfold Call.after at hafter
    dsimp only at hafter
    split at hafter
    · rename_i hphase htimeout
      split at hafter
      · rename_i hnone
        rw [← Option.some_inj.mp hafter]
        exact .exhausted e now armed _ hphase htimeout hnone
      · rename_i hsome
        split at hafter
        · rw [← Option.some_inj.mp hafter]
          exact .sent e now armed _ .returned hphase htimeout hsome
        · rw [← Option.some_inj.mp hafter]
          exact .sent e now armed _ _ hphase htimeout hsome
    · rename_i hphase
      rw [← Option.some_inj.mp hafter]
      exact .sentOffline e now armed hphase
    · cases hafter
  | rejected errcode message =>
    unfold Call.after at hafter
    dsimp only at hafter
    split at hafter
    · rename_i hphase
      rw [← Option.some_inj.mp hafter]
      exact .rejected errcode message hphase
    · rename_i hphase
      rw [← Option.some_inj.mp hafter]
      exact .rejectedOffline errcode message hphase
    · cases hafter
  | sendRaised =>
    unfold Call.after at hafter
    dsimp only at hafter
    split at hafter
    · rw [← Option.some_inj.mp hafter]
      exact .sendRaised
    · rw [← Option.some_inj.mp hafter]
      exact .sendRaised
    · cases hafter
  | timerFired now =>
    unfold Call.after at hafter
    dsimp only at hafter
    split at hafter
    · rename_i deadline hphase
      split at hafter
      · rw [← Option.some_inj.mp hafter]
        exact .timerFired now deadline hphase
      · cases hafter
    · cases hafter
  | resumed =>
    unfold Call.after at hafter
    dsimp only at hafter
    split at hafter
    · rename_i deadline hphase
      split at hafter
      · rename_i hdone
        rw [← Option.some_inj.mp hafter]
        exact .answered deadline hphase hdone
      · cases hafter
    · rename_i hphase
      rw [← Option.some_inj.mp hafter]
      exact .expired hphase
    · cases hafter

/-! ## 3.  The participant -/

/-- The readings of the monotonic clock, in the order they are taken. -/
structure MonotonicClock where
  read : ℕ → ℕ
  mono : Monotone read

/-- The state of a participant.  `reads` counts the clock readings taken so far. -/
structure State where
  roomId : Option Text
  calls : List Call
  pending : OrderedDict Key ℕ
  inFlight : ℕ
  reads : ℕ

/-- A participant before its first request. -/
def State.initial (roomId : Option Text) : State := ⟨roomId, [], .empty, 0, 0⟩

/-- What `request` raises before its send. -/
inductive RequestError where
  /-- `bind_room() must be called before request()` -/
  | runtime
  | message (error : MessageError)
  deriving DecidableEq, Repr

/-- What precedes the send: the body is built and its size asserted. -/
def requestBody (correlation : Correlation) (bodyBytes : Option ℤ) : Except MessageError Text :=
  match buildRequest correlation bodyBytes, bodyBytes with
  | .error e, _ => .error e
  | .ok body, none => .ok body
  | .ok body, some size => (assertBodyLength body size).map fun _ => body

/-- File a new call under its correlation key. -/
def State.register (s : State) (call : Call) (reads : ℕ) : State :=
  { s with
    calls := s.calls ++ [call]
    pending := s.pending.set call.interaction.correlation.key s.calls.length
    reads := s.reads + reads }

/-- `request` up to its send: the index of the call, or what it raises.  T0 is the
second clock reading; a body that cannot be built leaves the interaction registered. -/
def State.request (clock : MonotonicClock) (s : State) (correlation : Correlation)
    (bodyBytes : Option ℤ) (timeout : ℚ) : State × Except RequestError ℕ :=
  match s.roomId, correlation.txnId Direction.request.value with
  | none, _ => (s, .error .runtime)
  | some _, .error e => (s, .error (.message e))
  | some _, .ok txnId =>
    match requestBody correlation bodyBytes with
    | .error e =>
      (s.register ⟨.new correlation txnId (clock.read s.reads), some timeout, .raised⟩ 1,
        .error (.message e))
    | .ok _ =>
      ({ s.register ⟨.new correlation txnId (clock.read (s.reads + 1)), some timeout, .sending⟩ 2
         with inFlight := s.inFlight + 1 },
        .ok s.calls.length)

/-- `send_offline` up to its send.  The interaction is registered before the body is
built. -/
def State.sendOffline (clock : MonotonicClock) (s : State) (correlation : Correlation) :
    State × Except RequestError ℕ :=
  match s.roomId, correlation.txnId Direction.request.value with
  | none, _ => (s, .error .runtime)
  | some _, .error e => (s, .error (.message e))
  | some _, .ok txnId =>
    match buildRequest correlation none with
    | .error e =>
      (s.register ⟨.new correlation txnId (clock.read s.reads), none, .raised⟩ 1,
        .error (.message e))
    | .ok _ =>
      (s.register ⟨.new correlation txnId (clock.read s.reads), none, .sendingOffline⟩ 1,
        .ok s.calls.length)

/-- The call an event is an ACK for, if any.  A `ValueError` of the parser ends the
callback like an event of no interest. -/
def State.ackTarget (s : State) (event : TimelineEvent) : Option ℕ :=
  if ∃ room, truthy s.roomId = some room ∧ event.roomId ≠ room then none
  else match parse event.body with
    | .error _ => none
    | .ok none => none
    | .ok (some message) =>
      if message.isAck then s.pending.get? message.correlation.key else none

/-- What the surroundings of the participant decide. -/
inductive Label where
  | request (correlation : Correlation) (bodyBytes : Option ℤ) (timeout : ℚ)
  | sendOffline (correlation : Correlation)
  /-- the sync loop calls `_handle`, possibly within a recovery episode -/
  | deliver (event : TimelineEvent) (currentRecoveryEpisode : Option ℕ)
  | sendReturned (i : ℕ) (eventId : Text)
  | sendRejected (i : ℕ) (errcode message : Text)
  | sendRaised (i : ℕ)
  | timerFires (i : ℕ)
  | resume (i : ℕ)

/-- The call a label is about, and what happens to it. -/
def State.happening (clock : MonotonicClock) (s : State) : Label → Option (ℕ × Happening)
  | .request .. => none
  | .sendOffline .. => none
  | .deliver event episode =>
    (s.ackTarget event).map fun i =>
      (i, .acknowledged event.eventId (clock.read s.reads) episode)
  | .sendReturned i eventId =>
    some (i, .sent eventId (clock.read s.reads) (clock.read (s.reads + 1)))
  | .sendRejected i errcode message => some (i, .rejected errcode message)
  | .sendRaised i => some (i, .sendRaised)
  | .timerFires i => some (i, .timerFired (clock.read s.reads))
  | .resume i => some (i, .resumed)

/-- A call whose `request` is still running counts as in flight. -/
def Call.inFlight (call : Call) : Bool := call.timeout.isSome && call.phase.running

/-- The state after something happened to call `i`.  Two clock readings are set aside,
whether or not both are taken. -/
def State.apply (s : State) (i : ℕ) (h : Happening) : Option State := do
  let call ← s.calls[i]?
  let call' ← call.after h
  some
    { s with
      calls := s.calls.set i call'
      inFlight := if call.inFlight && !call'.inFlight then s.inFlight - 1 else s.inFlight
      reads := s.reads + 2 }

/-- **The participant, one uninterrupted stretch of code at a time.** -/
def step (clock : MonotonicClock) (s : State) : Label → Option State
  | .request correlation bodyBytes timeout =>
    some (s.request clock correlation bodyBytes timeout).1
  | .sendOffline correlation => some (s.sendOffline clock correlation).1
  | .deliver event episode =>
    match s.happening clock (.deliver event episode) with
    | none => some { s with reads := s.reads + 1 }
    | some (i, h) => s.apply i h
  | l => do
    let (i, h) ← s.happening clock l
    s.apply i h

/-- `duplicate_acks`. -/
def State.duplicateAcks (s : State) : ℕ :=
  (s.pending.values.map fun i =>
    (s.calls[i]?.map fun call => call.interaction.duplicateAckCount).getD 0).sum

/-- `requests_with_duplicate_acks`. -/
def State.requestsWithDuplicateAcks (s : State) : ℕ :=
  (s.pending.values.filter fun i =>
    (s.calls[i]?.map fun call => call.interaction.duplicateAckCount).getD 0 ≠ 0).length

/-- `outstanding_count`. -/
def State.outstandingCount (s : State) : ℕ := s.inFlight

/-! ## 4.  What a step does to the calls

A step leaves the calls as they are, appends one, or changes one.  A property of every
interaction is therefore decided by the code of one call at a time. -/

/-- A call as `request` or `send_offline` makes it, at clock reading `t0`. -/
structure Call.Fresh (call : Call) (t0 : ℕ) : Prop where
  interaction : ∃ correlation txnId, call.interaction = .new correlation txnId t0
  phase : call.phase = .raised ∨ call.phase = .sending ∨ call.phase = .sendingOffline

/-- Where the call comes from shows in its timeout. -/
structure Call.Made (call : Call) (t0 : ℕ) : Prop extends Call.Fresh call t0 where
  timeout : call.phase = .sendingOffline → call.timeout = none

variable {clock : MonotonicClock} {s s' : State}

theorem calls_request (clock : MonotonicClock) (s : State) (correlation : Correlation)
    (bodyBytes : Option ℤ) (timeout : ℚ) :
    let s' := (s.request clock correlation bodyBytes timeout).1
    s.reads ≤ s'.reads ∧ (s'.calls = s.calls ∨ ∃ call k, s'.calls = s.calls ++ [call] ∧
      call.Made (clock.read k) ∧ k ≤ s'.reads) := by
  intro s'
  unfold s' State.request
  split
  · exact ⟨le_rfl, Or.inl rfl⟩
  · exact ⟨le_rfl, Or.inl rfl⟩
  · split
    · exact ⟨Nat.le_add_right _ _, Or.inr ⟨_, _, rfl, ⟨⟨⟨_, _, rfl⟩, Or.inl rfl⟩, nofun⟩,
        Nat.le_add_right _ _⟩⟩
    · exact ⟨Nat.le_add_right _ _, Or.inr ⟨_, _, rfl,
        ⟨⟨⟨_, _, rfl⟩, Or.inr (Or.inl rfl)⟩, nofun⟩, Nat.le_succ _⟩⟩

theorem calls_sendOffline (clock : MonotonicClock) (s : State) (correlation : Correlation) :
    let s' := (s.sendOffline clock correlation).1
    s.reads ≤ s'.reads ∧ (s'.calls = s.calls ∨ ∃ call k, s'.calls = s.calls ++ [call] ∧
      call.Made (clock.read k) ∧ k ≤ s'.reads) := by
  intro s'
  unfold s' State.sendOffline
  split
  · exact ⟨le_rfl, Or.inl rfl⟩
  · exact ⟨le_rfl, Or.inl rfl⟩
  · split
    · exact ⟨Nat.le_add_right _ _, Or.inr ⟨_, _, rfl,
        ⟨⟨⟨_, _, rfl⟩, Or.inl rfl⟩, fun _ => rfl⟩, Nat.le_add_right _ _⟩⟩
    · exact ⟨Nat.le_add_right _ _, Or.inr ⟨_, _, rfl,
        ⟨⟨⟨_, _, rfl⟩, Or.inr (Or.inr rfl)⟩, fun _ => rfl⟩, Nat.le_add_right _ _⟩⟩

theorem apply_eq_some {i : ℕ} {h : Happening} (hs : s.apply i h = some s') :
    ∃ call call', s.calls[i]? = some call ∧ call.after h = some call' ∧
      s'.calls = s.calls.set i call' ∧ s'.pending = s.pending ∧ s'.reads = s.reads + 2 := by
  unfold State.apply at hs
  obtain ⟨call, hcall, hs⟩ := Option.bind_eq_some_iff.mp hs
  obtain ⟨call', hcall', hs⟩ := Option.bind_eq_some_iff.mp hs
  rw [← Option.some_inj.mp hs]
  exact ⟨call, call', hcall, hcall', rfl, rfl, rfl⟩

/-- A happening that is not an acknowledgement, or one stamped no earlier than `now`. -/
def Happening.NotBefore (now : ℕ) : Happening → Prop
  | .acknowledged _ t3 _ => now ≤ t3
  | _ => True

theorem notBefore_of_happening {l : Label} {i : ℕ} {h : Happening}
    (hl : s.happening clock l = some (i, h)) : h.NotBefore (clock.read s.reads) := by
  cases l with
  | request => cases hl
  | sendOffline => cases hl
  | deliver event episode =>
    obtain ⟨j, -, hj⟩ := Option.map_eq_some_iff.mp hl
    rw [← (Prod.mk.inj hj).2]
    exact le_rfl
  | sendReturned => rw [← (Prod.mk.inj (Option.some_inj.mp hl)).2]; trivial
  | sendRejected => rw [← (Prod.mk.inj (Option.some_inj.mp hl)).2]; trivial
  | sendRaised => rw [← (Prod.mk.inj (Option.some_inj.mp hl)).2]; trivial
  | timerFires => rw [← (Prod.mk.inj (Option.some_inj.mp hl)).2]; trivial
  | resume => rw [← (Prod.mk.inj (Option.some_inj.mp hl)).2]; trivial

theorem step_deliver (event : TimelineEvent) (episode : Option ℕ) :
    step clock s (.deliver event episode) =
      match s.happening clock (.deliver event episode) with
      | none => some { s with reads := s.reads + 1 }
      | some (i, h) => s.apply i h := rfl

/-- A label that makes no new call. -/
def Label.External : Label → Prop
  | .request .. => False
  | .sendOffline .. => False
  | _ => True

/-- A step that makes no call does something to one of them, or takes a clock reading. -/
theorem step_external {l : Label} (hl : l.External) (h : step clock s l = some s') :
    s.reads ≤ s'.reads ∧ s'.pending = s.pending ∧
    ((∃ i happening call call', s.happening clock l = some (i, happening) ∧
        s.calls[i]? = some call ∧ call.after happening = some call' ∧
        s'.calls = s.calls.set i call') ∨
      (s.happening clock l = none ∧ s'.calls = s.calls)) := by
  have happly : ∀ i happening, s.happening clock l = some (i, happening) →
      s.apply i happening = some s' → s.reads ≤ s'.reads ∧ s'.pending = s.pending ∧
      ∃ i happening call call', s.happening clock l = some (i, happening) ∧
        s.calls[i]? = some call ∧ call.after happening = some call' ∧
        s'.calls = s.calls.set i call' := by
    intro i happening hl hs
    obtain ⟨call, call', hcall, hcall', hcalls, hpending, hreads⟩ := apply_eq_some hs
    exact ⟨hreads ▸ Nat.le_add_right _ _, hpending, i, happening, call, call', hl, hcall,
      hcall', hcalls⟩
  cases l with
  | request => exact absurd hl id
  | sendOffline => exact absurd hl id
  | deliver event episode =>
    rw [step_deliver] at h
    cases htarget : s.happening clock (.deliver event episode) with
    | none =>
      rw [htarget] at h
      rw [← Option.some_inj.mp h]
      exact ⟨Nat.le_succ _, rfl, Or.inr ⟨rfl, rfl⟩⟩
    | some target =>
      rw [htarget] at h
      exact htarget ▸ (happly _ _ htarget h).imp_right (And.imp_right Or.inl)
  | sendReturned i eventId => exact (happly _ _ rfl h).imp_right (And.imp_right Or.inl)
  | sendRejected i errcode message =>
    exact (happly _ _ rfl h).imp_right (And.imp_right Or.inl)
  | sendRaised i => exact (happly _ _ rfl h).imp_right (And.imp_right Or.inl)
  | timerFires i => exact (happly _ _ rfl h).imp_right (And.imp_right Or.inl)
  | resume i => exact (happly _ _ rfl h).imp_right (And.imp_right Or.inl)

/-- **What a step can do.**  Something happens to one call, or the calls stay, or a fresh
one joins them. -/
theorem step_cases {l : Label} (h : step clock s l = some s') :
    s.reads ≤ s'.reads ∧
    ((∃ i happening call call', s.happening clock l = some (i, happening) ∧
        s.calls[i]? = some call ∧ call.after happening = some call' ∧
        s'.calls = s.calls.set i call') ∨
      (s.happening clock l = none ∧ (s'.calls = s.calls ∨ ∃ call k,
        s'.calls = s.calls ++ [call] ∧ call.Made (clock.read k) ∧ k ≤ s'.reads))) := by
  by_cases hl : l.External
  · obtain ⟨hreads, -, hcalls⟩ := step_external hl h
    exact ⟨hreads, hcalls.imp_right (And.imp_right Or.inl)⟩
  · cases l with
    | request correlation bodyBytes timeout =>
      rw [← Option.some_inj.mp h]
      have hcalls := calls_request clock s correlation bodyBytes timeout
      exact ⟨hcalls.1, Or.inr ⟨rfl, hcalls.2⟩⟩
    | sendOffline correlation =>
      rw [← Option.some_inj.mp h]
      have hcalls := calls_sendOffline clock s correlation
      exact ⟨hcalls.1, Or.inr ⟨rfl, hcalls.2⟩⟩
    | _ => exact absurd trivial hl

/-- The correlation of a call is fixed. -/
theorem correlation_after {call call' : Call} {h : Happening} (hafter : call.after h = some call') :
    call'.interaction.correlation = call.interaction.correlation := by
  cases becomes_of_after hafter with
  | acknowledged e t3 episode => exact observeAck_correlation
  | _ => rfl

/-- In this state, label `l` does to no call anything that `Allows` excludes. -/
def Respects (clock : MonotonicClock) (Allows : Call → Happening → Prop) (s : State)
    (l : Label) : Prop :=
  ∀ i happening call, s.happening clock l = some (i, happening) → s.calls[i]? = some call →
    Allows call happening

section Lifting

variable (CallInv : ℕ → Call → Prop) {CallGood : Call → Prop} {Allows : Call → Happening → Prop}

theorem mem_calls_of_step {l : Label} (hlater : ∀ t t' call, t ≤ t' → CallInv t call →
      CallInv t' call)
    (hfresh : ∀ t call, Call.Made call t → CallInv t call)
    (hkeep : ∀ now call h call', CallInv now call → h.NotBefore now → call.after h = some call' →
      CallInv now call')
    (hinv : ∀ call ∈ s.calls, CallInv (clock.read s.reads) call)
    (h : step clock s l = some s') : ∀ call ∈ s'.calls, CallInv (clock.read s'.reads) call := by
  obtain ⟨hreads, hcalls⟩ := step_cases h
  have hold : ∀ call ∈ s.calls, CallInv (clock.read s'.reads) call := fun call hcall =>
    hlater _ _ call (clock.mono hreads) (hinv call hcall)
  rcases hcalls with ⟨i, happening, call, call', hl, hcall, hcall', hset⟩ |
    ⟨-, hsame | ⟨call, k, happend, hcall, hk⟩⟩
  · rw [hset]
    intro c hc
    rcases List.mem_or_eq_of_mem_set hc with hc | rfl
    · exact hold c hc
    · exact hlater _ _ _ (clock.mono hreads) (hkeep _ call happening c
        (hinv call (List.mem_of_getElem? hcall)) (notBefore_of_happening hl) hcall')
  · rw [hsame]
    exact hold
  · rw [happend]
    intro c hc
    rcases List.mem_append.mp hc with hc | hc
    · exact hold c hc
    · rw [List.mem_singleton.mp hc]
      exact hlater _ _ call (clock.mono hk) (hfresh _ call hcall)

/-- **A property of all interactions, from the code of one call.**  Given an invariant
of every call and, for a good call, what the code may do to it exactly: the runs in
which every interaction is good throughout are those in which no step does anything
else. -/
theorem always_calls_iff (hlater : ∀ t t' call, t ≤ t' → CallInv t call → CallInv t' call)
    (hfresh : ∀ t call, Call.Made call t → CallInv t call ∧ CallGood call)
    (hkeep : ∀ now call h call', CallInv now call → h.NotBefore now → call.after h = some call' →
      CallInv now call')
    (hexact : ∀ now call h call', CallInv now call → h.NotBefore now → CallGood call →
      call.after h = some call' → (CallGood call' ↔ Allows call h))
    {roomId : Option Text} {labels : List Label} {t : State}
    (hrun : exec (step clock) (State.initial roomId) labels = some t) :
    Always (step clock) (State.initial roomId) labels (fun s => ∀ call ∈ s.calls, CallGood call) ↔
      StepsMeet (step clock) (State.initial roomId) labels (Respects clock Allows) := by
  refine always_iff_stepsMeet (fun s => ∀ call ∈ s.calls, CallInv (clock.read s.reads) call)
    ?_ ?_ ?_ ?_ hrun
  · exact fun s l s' hinv h =>
      mem_calls_of_step CallInv hlater (fun t call hcall => (hfresh t call hcall).1) hkeep hinv h
  · intro s l s' hinv hgood h
    obtain ⟨-, hcalls⟩ := step_cases h
    rcases hcalls with ⟨i, happening, call, call', hl, hcall, hcall', hset⟩ |
      ⟨hl, hsame | ⟨call, k, happend, hcall, -⟩⟩
    · have hmem := List.mem_of_getElem? hcall
      have hone := hexact _ call happening call' (hinv call hmem) (notBefore_of_happening hl)
        (hgood call hmem) hcall'
      have hlt : i < s.calls.length := (List.getElem?_eq_some_iff.mp hcall).1
      rw [hset]
      constructor
      · intro hall i' happening' c hl' hc
        obtain ⟨rfl, rfl⟩ := Prod.mk.inj (Option.some_inj.mp (hl.symm.trans hl'))
        obtain rfl := Option.some_inj.mp (hcall.symm.trans hc)
        exact hone.mp (hall call' (List.mem_set hlt call'))
      · intro hmeet c hc
        rcases List.mem_or_eq_of_mem_set hc with hc | rfl
        · exact hgood c hc
        · exact hone.mpr (hmeet i happening call hl hcall)
    · rw [hsame]
      refine ⟨fun _ i happening call hl' => ?_, fun _ => hgood⟩
      rw [hl] at hl'
      cases hl'
    · rw [happend]
      refine ⟨fun _ i happening call hl' => ?_, fun _ c hc => ?_⟩
      · rw [hl] at hl'
        cases hl'
      · rcases List.mem_append.mp hc with hc | hc
        · exact hgood c hc
        · rw [List.mem_singleton.mp hc]
          exact (hfresh _ call hcall).2
  · exact fun call hcall => absurd hcall List.not_mem_nil
  · exact fun call hcall => absurd hcall List.not_mem_nil

end Lifting

/-! ## 5.  Values for concrete runs -/

/-- A clock that advances by `period` nanoseconds between readings. -/
def steadyClock (period : ℕ) : MonotonicClock :=
  ⟨fun n => n * period, fun _ _ h => Nat.mul_le_mul_right period h⟩

theorem matchesToken_sampleExperiment : matchesToken ['E', '3'] = true := by decide

/-- `E3`, run `r`, sequence 1. -/
def sampleCorrelation : Correlation :=
  ⟨['E', '3'], ['r'], 1, matchesToken_sampleExperiment, by decide⟩

/-- An ACK of that correlation, in room `!r`. -/
def sampleAck (eventId : Text) : TimelineEvent :=
  { roomId := ['!', 'r']
    eventId := eventId
    sender := ['@', 'a']
    body := ['F', 'A', 'M', '/', '1', ' ', 'A', 'C', 'K', ' ', 'E', '3', ' ', 'r', ' ', '1']
    originServerTs := 0 }

end Human
end FederatedMessaging
