import FederatedMessaging.Agent.CheckpointSafety
import FederatedMessaging.Common.MessageRoundTrip
import FederatedMessaging.Participants.Human

/-!
# Bodies that stop the agent

A batch of events is retried until it has been dispatched as a whole: when a handler
raises, `_sync_loop` keeps its token and asks for the same window again, and a restarted
agent recovers from the same token.  So one body on which a handler raises stops the
agent for good, and the parser is written not to raise --- a body that is not an
experimental message is `None`.

## 1.  What the parser raises

`parse` catches `MessageFormatError`, the exception of its own checks.  It also calls
`int` on the matched run of decimal digits, and `int` raises a plain `ValueError` beyond
4300 of them, the default of Python 3.11 and later.  That one is not caught.  `Overlong`
names the bodies on which it happens, and there are no others (`parse_error_iff`).

## 2.  What follows for the handlers

The protocol of the agent raises where the parser does and nowhere else: the response
identifier that it computes from the parsed number is printed with `str`, which has
the same limit, but a number that was read can be printed
(`exists_inboundOf`).  The rest of `_handle` meets no exception other than one of the
disk, since those of the executor and of the send are caught.

## 3.  What follows for the loops

`Delivers` describes an outside that does nothing to stop the agent, and hands it a
batch.  There the sync loop and `recover` commit the token of the batch when no body
in it is overlong.  `NoPoison` puts the parts together, and the result is that it holds
exactly for the batches without an overlong body (`noPoison_iff`).
-/

namespace FederatedMessaging

open PythonText Message Backtracking FederatedMessaging.Matrix

namespace Message

/-! ## 1.  What the parser raises -/

/-- The body is laid out as a message, and its sequence number is written with more
digits than `int` converts. -/
def Overlong (body : Text) : Prop :=
  ∃ found, firstWay bodyRe (strip body) = some found ∧
    maxStrDigits < (found.group .sequence).length

/-- **Where the parser raises.** -/
theorem parse_error_iff {body : Text} : (∃ e, parse body = .error e) ↔ Overlong body := by
  unfold parse Overlong
  cases hfound : firstWay bodyRe (strip body) with
  | none => exact ⟨nofun, nofun⟩
  | some found =>
    dsimp only
    unfold intOfText
    constructor
    · rintro ⟨e, he⟩
      refine ⟨found, rfl, not_le.mp fun hle => ?_⟩
      rw [if_pos hle] at he
      dsimp only at he
      split at he <;> cases he
    · rintro ⟨found', hfound', hlong⟩
      obtain rfl := Option.some_inj.mp hfound'
      exact ⟨_, by rw [if_neg (not_le.mpr hlong)]⟩

theorem exists_parse {body : Text} (h : ¬ Overlong body) : ∃ found, parse body = .ok found := by
  cases hparse : parse body with
  | error e => exact absurd (parse_error_iff.mp ⟨e, hparse⟩) h
  | ok found => exact ⟨found, rfl⟩

end Message

namespace Human

/-- `_handle` of the participant up to the pending table: the call the event is an ACK
for, if any, or what the parser raises. -/
def State.findPending (s : State) (event : TimelineEvent) : Except MessageError (Option ℕ) :=
  if ∃ room, truthy s.roomId = some room ∧ event.roomId ≠ room then .ok none
  else (parse event.body).map fun message =>
    message.bind fun message =>
      if message.isAck then s.pending.get? message.correlation.key else none

/-- Where it does not raise, it finds the target of the event. -/
theorem findPending_eq (s : State) (event : TimelineEvent) :
    (s.findPending event).toOption.join = s.ackTarget event := by
  unfold State.findPending State.ackTarget
  split
  · rfl
  · rcases parse event.body with e | _ | message <;> rfl

theorem exists_findPending {event : TimelineEvent} (h : ¬ Overlong event.body) (s : State) :
    ∃ target, s.findPending event = .ok target := by
  unfold State.findPending
  split
  · exact ⟨none, rfl⟩
  · obtain ⟨message, hmessage⟩ := exists_parse h
    exact ⟨_, by rw [hmessage]; rfl⟩

end Human

namespace Agent

open CrashPrograms CrashPrograms.Prog

variable {config : AgentConfig} {hexdigest : Text → Text} {event : TimelineEvent}

/-! ## 2.  What follows for the handlers -/

theorem exists_controlledInbound_of_not_overlong {body : Text} (h : ¬ Overlong body) :
    ∃ inbound, controlledInbound body = .ok inbound := by
  obtain ⟨found, hparse⟩ := exists_parse h
  unfold controlledInbound
  rw [hparse]
  cases found with
  | none => exact ⟨none, rfl⟩
  | some message =>
    change ∃ inbound, (if message.isRequest = true then _ else _) = Except.ok inbound
    split
    · obtain ⟨txn, htxn⟩ := exists_txnId_of_parse hparse .response
      exact ⟨_, by rw [htxn]; rfl⟩
    · exact ⟨none, rfl⟩

variable (config hexdigest) in
/-- **The protocols raise only where the parser does.** -/
theorem exists_inboundOf (h : ¬ Overlong event.body) :
    ∃ inbound, inboundOf config hexdigest event = .ok inbound := by
  unfold inboundOf
  cases config.requestProtocol with
  | controlled =>
    obtain ⟨inbound, hinbound⟩ := exists_controlledInbound_of_not_overlong h
    exact ⟨inbound, congrArg (Except.mapError Fault.message) hinbound⟩
  | naturalLanguage => exact ⟨_, rfl⟩

theorem inboundOf_ne_error (h : ¬ Overlong event.body) {P : Fault → Prop} (e : Fault)
    (he : inboundOf config hexdigest event = .error e) : P e := by
  obtain ⟨inbound, hinbound⟩ := exists_inboundOf config hexdigest h
  exact nomatch hinbound.symm.trans he

variable (config hexdigest) in
theorem exists_isForeignRequest (h : ¬ Overlong event.body) :
    ∃ foreign, isForeignRequest config hexdigest event = .ok foreign := by
  unfold isForeignRequest
  split
  · exact ⟨false, rfl⟩
  · obtain ⟨inbound, hinbound⟩ := exists_inboundOf config hexdigest h
    exact ⟨_, by rw [hinbound]; rfl⟩

variable (config hexdigest) in
theorem exists_sequenceOf (h : ¬ Overlong event.body) :
    ∃ sequence, sequenceOf config hexdigest event = .ok sequence := by
  unfold sequenceOf
  obtain ⟨inbound, hinbound⟩ := exists_inboundOf config hexdigest h
  exact ⟨_, by rw [hinbound]; rfl⟩

variable (config hexdigest) in
theorem exists_filterM {events : List TimelineEvent}
    (hevents : ∀ event ∈ events, ¬ Overlong event.body) :
    ∃ direct, events.filterM (isForeignRequest config hexdigest) = .ok direct :=
  ⟨_, Fallible.filterM_eq_ok_iff.mpr ⟨fun event he =>
    exists_isForeignRequest config hexdigest (hevents event he), rfl⟩⟩

variable (config hexdigest) in
/-- The sort has the sequence numbers of events whose bodies parse. -/
theorem exists_inSequence {pending : OrderedDict Text TimelineEvent}
    (hpending : ∀ event ∈ pending.values, ¬ Overlong event.body) :
    ∃ ordered, inSequence config hexdigest pending = .ok ordered := by
  have hkeyed : ∀ events : List TimelineEvent, (∀ event ∈ events, ¬ Overlong event.body) →
      ∃ keyed, (events.mapM fun event => (sequenceOf config hexdigest event).map fun sequence =>
        (sequence, event)) = .ok keyed := by
    intro events
    induction events with
    | nil => exact fun _ => ⟨[], rfl⟩
    | cons event events ih =>
      intro hevents
      obtain ⟨keyed, hkeyed⟩ := ih fun e he => hevents e (List.mem_cons_of_mem _ he)
      obtain ⟨sequence, hsequence⟩ := exists_sequenceOf config hexdigest
        (hevents event List.mem_cons_self)
      exact ⟨(sequence, event) :: keyed, by rw [List.mapM_cons, hsequence, hkeyed]; rfl⟩
  obtain ⟨keyed, hkeyed⟩ := hkeyed pending.values hpending
  exact ⟨_, by unfold inSequence; rw [hkeyed]; rfl⟩

/-- What the surroundings can do to a program: raise errors of the disk that satisfy
`R`, and cut it off only in ways that satisfy `H`. -/
structure Allows (env : Environment) (R : Fault → Prop) (H : Halt → Prop) : Prop where
  disk : ∀ n e, env.disk n = .error e → R e
  cut : ∀ n, env.fate n ≠ .proceeds → ∀ how, H how

section Effects

variable {env : Environment} {R R' : Fault → Prop} {H : Halt → Prop} {P Q : State → Prop}

theorem Allows.weaken (h : Allows env R H) (hR : ∀ e, R e → R' e) : Allows env R' H :=
  ⟨fun n e he => hR e (h.disk n e he), h.cut⟩

theorem ends_suspend (h : Allows env R H) : Ends P (suspend env) (fun _ => P) R H := by
  refine ends_bind (M := fun fate s => (∃ n, env.fate n = fate) ∧ P s)
    (ends_ask fun n _ hs => ⟨⟨n, rfl⟩, hs⟩) fun fate => ?_
  refine ends_pure_fact ?_
  rintro ⟨n, rfl⟩
  cases hfate : env.fate n with
  | proceeds => exact ends_ret fun _ hs => hs
  | stopped => exact ends_halt (h.cut n (by rw [hfate]; exact nofun) _)
  | crashed => exact ends_halt (h.cut n (by rw [hfate]; exact nofun) _)

theorem ends_touchDisk (h : Allows env R H) : Ends P (touchDisk env) (fun _ => P) R H := by
  have hwrite : Ends P (ask env.disk >>= fun written => (ofExcept written : Program Unit))
      (fun _ => P) R H := by
    refine ends_bind (M := fun written s => (∃ n, env.disk n = written) ∧ P s)
      (ends_ask fun n _ hs => ⟨⟨n, rfl⟩, hs⟩) fun written => ?_
    refine ends_pure_fact ?_
    rintro ⟨n, rfl⟩
    exact ends_ofExcept (fun _ _ _ hs => hs) fun e he => h.disk n e he
  refine ends_bind (M := fun fate s => (∃ n, env.fate n = fate) ∧ P s)
    (ends_ask fun n _ hs => ⟨⟨n, rfl⟩, hs⟩) fun fate => ?_
  refine ends_pure_fact ?_
  rintro ⟨n, rfl⟩
  cases hfate : env.fate n with
  | proceeds => exact hwrite
  | stopped => exact hwrite
  | crashed => exact ends_halt (h.cut n (by rw [hfate]; exact nofun) _)

theorem ends_writeTelemetry (h : Allows env R H) {record : Record}
    (hQ : ∀ s, P s → Q (s.noting (.recorded record))) :
    Ends P (writeTelemetry env record) (fun _ => Q) R H :=
  ends_bind (ends_touchDisk h) fun _ => ends_update hQ

theorem ends_recordObservation (h : Allows env R H) (observed : Observed) :
    Ends (fun _ => True) (recordObservation env observed) (fun _ _ => True) R H :=
  ends_bind (M := fun _ _ => True) (ends_read fun _ _ => trivial) fun _ =>
    ends_writeTelemetry h fun _ _ => trivial

theorem ends_saveCheckpoint (h : Allows env R H) (hQ : ∀ s, P s → Q s.saving) :
    Ends P (saveCheckpoint env) (fun _ => Q) R H :=
  ends_bind (ends_touchDisk h) fun _ => ends_update hQ

theorem ends_respond (h : Allows env R H) (request : InboundRequest) (body : Text)
    (facts : List (Text × Text)) :
    Ends (fun _ => True) (respond env config event request body facts) (fun _ _ => True) R H := by
  -- Whatever the send raises is caught.
  have hsend : Ends (fun _ => True) (sendText env config event request body)
      (fun _ _ => True) (fun _ => True) H := by
    refine ends_bind (M := fun _ _ => True) (ends_read fun _ _ => trivial) fun deviceId => ?_
    refine ends_bind (M := fun _ _ => True) (ends_ask fun _ _ _ => trivial) fun answer => ?_
    refine ends_bind (M := fun _ _ => True) (ends_update fun _ _ => trivial) fun _ => ?_
    refine ends_bind (ends_suspend (h.weaken fun _ _ => trivial)) fun _ => ?_
    exact ends_ofExcept (fun _ _ _ _ => trivial) fun _ _ => trivial
  refine ends_bind (M := fun _ _ => True) (ends_attempt hsend fun _ _ _ => trivial) fun _ => ?_
  exact ends_bind (ends_recordObservation h _) fun _ =>
    ends_saveCheckpoint h fun _ _ => trivial

theorem ends_handleRequest (h : Allows env R H) (request : InboundRequest) :
    Ends (fun _ => True) (handleRequest env config event request) (fun _ _ => True) R H := by
  refine ends_bind (M := fun _ _ => True) (ends_read fun _ _ => trivial) fun decision => ?_
  split
  · refine ends_bind (M := fun _ _ => True) (ends_update fun _ _ => trivial) fun _ => ?_
    refine ends_bind (M := fun _ _ => True) (ends_update fun _ _ => trivial) fun _ => ?_
    refine ends_bind (M := fun _ _ => True) (ends_ask fun _ _ _ => trivial) fun decided => ?_
    refine ends_bind (ends_suspend h) fun _ => ?_
    rcases decided with exc | body | body
    · exact ends_recordObservation h _
    · exact ends_bind (M := fun _ _ => True) (ends_ask fun _ _ _ => trivial) fun _ =>
        ends_recordObservation h _
    · exact ends_bind (M := fun _ _ => True) (ends_ask fun _ _ _ => trivial) fun facts =>
        ends_respond h request body facts
  · exact ends_recordObservation h _

/-- **`_handle` raises only what the disk raises and what the protocol raises on the
body.** -/
theorem ends_handle (h : Allows env R H)
    (hbody : ∀ e, inboundOf config hexdigest event = .error e → R e) :
    Ends (fun _ => True) (handle env config hexdigest event) (fun _ _ => True) R H := by
  unfold handle
  split
  · exact ends_ret fun _ hs => hs
  split
  · exact ends_recordObservation h _
  refine ends_bind (M := fun _ _ => True) (ends_ofExcept (fun _ _ _ hs => hs) hbody)
    fun inbound => ?_
  cases inbound with
  | none => exact ends_recordObservation h _
  | some request => exact ends_handleRequest h request

theorem ends_dispatch (h : Allows env R H)
    (hbody : ∀ e, inboundOf config hexdigest event = .error e → R e) :
    Ends (fun _ => True) (dispatch env config hexdigest event) (fun _ _ => True) R H :=
  ends_bind (ends_update fun _ hs => hs) fun _ =>
    ends_bind (ends_handle h hbody) fun _ => ends_update fun _ hs => hs

end Effects

/-! ## 3.  What follows for the loops -/

/-- The token is in memory and in the checkpoint file. -/
def State.Committed (token : Token) (s : State) : Prop :=
  s.syncToken = some token ∧ ∃ checkpoint, s.file = some checkpoint ∧
    checkpoint.syncToken = some token

theorem State.committed_saving {token : Token} {s : State} (h : s.syncToken = some token) :
    s.saving.Committed token :=
  ⟨h, _, rfl, h⟩

/-- The outside does nothing to stop the process. -/
def Untroubled (env : Environment) : Prop := Allows env (fun _ => False) fun _ => False

/-- An untroubled outside that answers a sync with this response, whose events for the
agent's room --- the direct ones and those that fill a gap --- are in the batch. -/
structure Delivers (env : Environment) (config : AgentConfig) (response : SyncResponse)
    (batch : List TimelineEvent) : Prop where
  untroubled : Untroubled env
  synced : ∀ n query, env.sync n query = .ok response
  direct : ∀ item ∈ response.snapshot.rooms, item.roomId = config.roomId →
    ∀ event ∈ item.events, event ∈ batch
  reconciled : ∀ item ∈ response.snapshot.rooms, item.roomId = config.roomId →
    ∀ n counter since trigger, ∃ result,
      (reconcileSlice (env.messages n) counter item since trigger).2 = .ok result ∧
      ∀ event ∈ result.1, event ∈ batch

/-- An untroubled outside delivers whatever it answers with in unlimited slices. -/
theorem delivers_of_unlimited {env : Environment} {response : SyncResponse}
    {batch : List TimelineEvent} (huntroubled : Untroubled env)
    (hsynced : ∀ n query, env.sync n query = .ok response)
    (hrooms : ∀ item ∈ response.snapshot.rooms, item.roomId = config.roomId →
      item.limited = false ∧ item.events = batch) : Delivers env config response batch where
  untroubled := huntroubled
  synced := hsynced
  direct item hitem hroom event hevent := (hrooms item hitem hroom).2 ▸ hevent
  reconciled item hitem hroom n counter since trigger := by
    obtain ⟨hlimited, rfl⟩ := hrooms item hitem hroom
    have hok : ∃ result,
        (reconcileSlice (env.messages n) counter item since trigger).2 = .ok result := by
      unfold reconcileSlice
      rw [hlimited]
      exact ⟨_, rfl⟩
    obtain ⟨result, hresult⟩ := hok
    refine ⟨result, hresult, fun event hevent => ?_⟩
    rw [reconcileSlice_unlimited hlimited hresult] at hevent
    exact (OrderedDict.mem_values_of_mem_fileAll hevent).resolve_left List.not_mem_nil

section Loops

variable {env : Environment} {response : SyncResponse} {batch : List TimelineEvent}

/-- **A batch without an overlong body is dispatched to its end.** -/
theorem ends_dispatch_all (h : Untroubled env) (hbatch : ∀ event ∈ batch, ¬ Overlong event.body)
    (k : ℕ) :
    Ends (fun s => s.incarnation = k) (batch.forM (dispatch env config hexdigest))
      (fun _ s => ∀ event ∈ batch, (k, Occurrence.returned event) ∈ s.trace)
      (fun _ => False) fun _ => False := by
  have hends : Ends (fun _ => True) (batch.forM (dispatch env config hexdigest))
      (fun _ _ => True) (fun _ => False) fun _ => False :=
    ends_forM fun event hevent => ends_dispatch h (inboundOf_ne_error (hbatch event hevent))
  have hreturned : Triple (fun s : State => s.incarnation = k ∧
        ∀ event ∈ ([] : List TimelineEvent), (k, Occurrence.returned event) ∈ s.trace)
      (batch.forM (dispatch env config hexdigest))
      (fun _ s => s.incarnation = k ∧
        ∀ event ∈ batch, (k, Occurrence.returned event) ∈ s.trace) fun _ => True := by
    refine triple_forM (I := fun front (s : State) => s.incarnation = k ∧
      ∀ event ∈ front, (k, Occurrence.returned event) ∈ s.trace) fun front event _ => ?_
    have hbefore : Preserves (fun s => s.incarnation = k ∧
        ∀ e ∈ front, (k, Occurrence.returned e) ∈ s.trace)
        (dispatch env config hexdigest event) :=
      Lasting.preserves_dispatch (fun _ _ hk _ hgrows hs =>
        ⟨hk ▸ hs.1, fun e he => hgrows.subset (hs.2 e he)⟩) event
    refine triple_consequence (triple_and hbefore (triple_dispatch_returned k event))
      (fun s hs => ⟨hs, hs.1⟩) ?_ fun _ _ => trivial
    rintro - s ⟨⟨hk, hfront⟩, -, hevent⟩
    refine ⟨hk, fun e he => ?_⟩
    rcases List.mem_append.mp he with he | he
    · exact hfront e he
    · exact List.mem_singleton.mp he ▸ hevent
  exact ends_consequence (ends_and_triple hends hreturned)
    (fun s hs => ⟨trivial, hs, fun _ he => absurd he List.not_mem_nil⟩) fun _ s hs => hs.2.2

section Delivery

variable (h : Delivers env config response batch)
include h

/-- `True` before and after, and no other end. -/
abbrev Returns {α : Type} (m : Program α) (Q : α → Prop) : Prop :=
  Ends (fun _ => True) m (fun a _ => Q a) (fun _ => False) fun _ => False

theorem returns_syncOnce (query : SyncQuery) :
    Returns (syncOnce env query) fun snapshot => snapshot = response.snapshot := by
  refine ends_bind (M := fun got _ => got = response) ?_ fun got => ?_
  · refine ends_bind (M := fun got _ => got = .ok response)
      (ends_ask fun n _ _ => h.synced n query) fun got => ?_
    refine ends_bind (ends_suspend h.untroubled) fun _ => ?_
    intro n s hgot
    subst hgot
    rfl
  · exact ends_ret fun _ hgot => congrArg SyncResponse.snapshot hgot

theorem returns_reconcile {item : RoomSyncSlice} (hitem : item ∈ response.snapshot.rooms)
    (hroom : item.roomId = config.roomId) (since : Option Token) (trigger : RecoveryTrigger) :
    Returns (reconcile env item since trigger) fun result => ∀ event ∈ result.1, event ∈ batch := by
  refine ends_bind (M := fun request _ => ∃ n, env.messages n = request)
    (ends_ask fun n _ _ => ⟨n, rfl⟩) fun request => ?_
  refine ends_bind (M := fun _ _ => ∃ n, env.messages n = request) (ends_read fun _ hs => hs)
    fun counter => ?_
  refine ends_bind (M := fun _ _ => ∃ n, env.messages n = request) (ends_update fun _ hs => hs)
    fun _ => ?_
  refine ends_bind (ends_suspend h.untroubled) fun _ => ?_
  rintro n s ⟨m, rfl⟩
  obtain ⟨result, hresult, hmem⟩ := h.reconciled item hitem hroom m counter since trigger
  rw [hresult]
  exact hmem

/-- A slice is dispatched to its end, or a body in it makes the protocol raise. -/
theorem ends_dispatchSlice {R : Fault → Prop}
    (hbodies : ∀ event ∈ batch, ∀ e, inboundOf config hexdigest event = .error e → R e)
    {item : RoomSyncSlice} (hitem : item ∈ response.snapshot.rooms) (since : Option Token) :
    Ends (fun _ => True) (dispatchSlice env config hexdigest since item) (fun _ _ => True) R
      fun _ => False := by
  unfold dispatchSlice
  split
  · exact ends_ret fun _ _ => trivial
  rename_i hroom
  have hevents : Returns (sliceEvents env since item) fun events =>
      ∀ event ∈ events, event ∈ batch := by
    unfold sliceEvents
    split
    · refine ends_bind (returns_reconcile h hitem (not_not.mp hroom) since .liveSync)
        fun result => ?_
      refine ends_bind (M := fun _ _ => ∀ event ∈ result.1, event ∈ batch)
        (ends_bind (ends_update fun _ hs => hs) fun _ =>
          ends_writeTelemetry h.untroubled fun _ hs => hs) fun _ => ?_
      exact ends_ret fun _ hs => hs
    · exact ends_ret fun _ _ => h.direct item hitem (not_not.mp hroom)
  refine ends_bind (ends_weaken hevents fun _ => False.elim) fun events => ?_
  intro n s hs
  exact ends_forM (P := fun _ => True) (fun event hevent =>
    ends_dispatch (h.untroubled.weaken fun _ => False.elim) (hbodies event (hs event hevent)))
    n s trivial

variable (hbatch : ∀ event ∈ batch, ¬ Overlong event.body)
include hbatch

/-- **One iteration after another, the loop commits the token of the batch.** -/
theorem ends_syncLoop (iterations : ℕ) :
    Ends (fun _ => True) (syncLoop env config hexdigest (iterations + 1))
      (fun _ s => s.Committed response.snapshot.nextBatch) (fun _ => False) fun _ => False := by
  -- The last iteration is followed by nothing, the others by the rest of the loop.
  have hiteration (rest : ℕ) (hrest : Ends (State.Committed response.snapshot.nextBatch)
      (syncLoop env config hexdigest rest)
      (fun _ s => s.Committed response.snapshot.nextBatch) (fun _ => False) fun _ => False) :
      Ends (fun _ => True) (syncLoop env config hexdigest (rest + 1))
        (fun _ s => s.Committed response.snapshot.nextBatch) (fun _ => False) fun _ => False := by
    refine ends_bind (M := fun _ _ => True) (ends_read fun _ _ => trivial) fun since => ?_
    refine ends_bind (M := fun synced _ => synced = .ok response.snapshot)
      (ends_attempt (ends_consequence (returns_syncOnce h _) (fun _ hs => hs)
        fun _ _ ha => congrArg Except.ok ha) fun _ _ => False.elim) fun synced => ?_
    intro n s hsynced
    subst hsynced
    refine ends_bind (M := fun dispatched _ => dispatched = .ok ⟨⟩)
      (ends_attempt (T := fun _ => False) (ends_consequence (ends_forM (P := fun _ => True)
        fun item hitem => ends_dispatchSlice h
          (fun event hevent => inboundOf_ne_error (hbatch event hevent)) hitem since)
        (fun _ hs => hs)
        fun _ _ _ => rfl) fun _ _ => False.elim) (fun dispatched => ?_) n s trivial
    intro n s hdispatched
    subst hdispatched
    refine ends_bind (M := fun _ s => s.syncToken = some response.snapshot.nextBatch)
      (ends_update (P := fun _ => True) fun _ _ => rfl) (fun _ => ?_) n s trivial
    refine ends_bind (M := fun _ s => s.Committed response.snapshot.nextBatch) ?_ fun _ => hrest
    exact ends_bind (ends_update fun _ hs => hs) fun _ =>
      ends_saveCheckpoint h.untroubled fun _ => State.committed_saving
  induction iterations with
  | zero => exact hiteration 0 (ends_ret fun _ hs => hs)
  | succ iterations ih =>
    exact hiteration _ (ends_consequence ih (fun _ _ => trivial) fun _ _ hs => hs)

/-! ### Recovering -/

omit h in
theorem returns_observeEvents (directIds : List Text) {events : List TimelineEvent}
    (hmem : ∀ event ∈ events, event ∈ batch) {pending : OrderedDict Text TimelineEvent}
    (hpending : ∀ event ∈ pending.values, event ∈ batch) :
    Returns (observeEvents config hexdigest directIds events pending) fun collected =>
      ∀ event ∈ collected.values, event ∈ batch := by
  induction events generalizing pending with
  | nil => exact ends_ret fun _ _ => hpending
  | cons event events ih =>
    have hevent := hmem event List.mem_cons_self
    have hrest : ∀ e ∈ events, e ∈ batch := fun e he => hmem e (List.mem_cons_of_mem _ he)
    obtain ⟨foreign, hforeign⟩ := exists_isForeignRequest config hexdigest
      (hbatch event hevent)
    unfold observeEvents
    rw [hforeign]
    refine ends_bind (M := fun _ _ => True) (ends_ret fun _ _ => trivial) fun foreign => ?_
    split
    · refine ends_bind (M := fun _ _ => True) (ends_read fun _ _ => trivial) fun first => ?_
      refine ends_bind (M := fun _ _ => True) (ends_update fun _ _ => trivial) fun _ => ?_
      refine ih hrest fun e he => ?_
      split at he
      · rcases OrderedDict.mem_values_of_mem_set he with he | rfl
        · exact hpending e he
        · exact hevent
      · exact hpending e he
    · exact ih hrest hpending

theorem returns_pendingOf {item : Option RoomSyncSlice}
    (hitem : ∀ slice ∈ item, slice ∈ response.snapshot.rooms ∧ slice.roomId = config.roomId)
    (since : Token) :
    Returns (pendingOf env config hexdigest item since) fun pending =>
      ∀ event ∈ pending.values, event ∈ batch := by
  cases item with
  | none => exact ends_ret fun _ _ _ he => absurd he List.not_mem_nil
  | some slice =>
    obtain ⟨hslice, hroom⟩ := hitem slice rfl
    have hlimited : Returns (noteLimited env slice) fun _ => True := by
      unfold noteLimited
      split
      · exact ends_writeTelemetry h.untroubled fun _ hs => hs
      · exact ends_ret fun _ hs => hs
    refine ends_bind hlimited fun _ => ?_
    refine ends_bind (returns_reconcile h hslice hroom (some since) .startup) fun result => ?_
    have hpages : Ends (fun _ => ∀ event ∈ result.1, event ∈ batch) (notePages env result.2)
        (fun _ _ => ∀ event ∈ result.1, event ∈ batch) (fun _ => False) fun _ => False := by
      unfold notePages
      split
      · exact ends_bind (ends_update fun _ hs => hs) fun _ =>
          ends_writeTelemetry h.untroubled fun _ hs => hs
      · exact ends_ret fun _ hs => hs
    refine ends_bind hpages fun _ => ?_
    obtain ⟨direct, hdirect⟩ := exists_filterM config hexdigest
      fun event he => hbatch event (h.direct slice hslice hroom event he)
    rw [hdirect]
    refine ends_bind (M := fun _ _ => ∀ event ∈ result.1, event ∈ batch)
      (ends_ret fun _ hs => hs) fun direct => ?_
    exact fun n s hs => returns_observeEvents hbatch _ hs
      (fun _ he => absurd he List.not_mem_nil) n s trivial

theorem returns_recoverSlice {item : Option RoomSyncSlice}
    (hitem : ∀ slice ∈ item, slice ∈ response.snapshot.rooms ∧ slice.roomId = config.roomId)
    (since : Token) :
    Returns (recoverSlice env config hexdigest item since) fun _ => True := by
  refine ends_bind (M := fun _ _ => True) (ends_update fun _ _ => trivial) fun _ => ?_
  have hdirect : ∀ event ∈ item.elim [] (·.events), ¬ Overlong event.body := by
    cases item with
    | none => exact fun _ he => absurd he List.not_mem_nil
    | some slice =>
      obtain ⟨hslice, hroom⟩ := hitem slice rfl
      exact fun event he => hbatch event (h.direct slice hslice hroom event he)
  obtain ⟨direct, hdirect⟩ := exists_filterM config hexdigest hdirect
  rw [hdirect]
  refine ends_bind (M := fun _ _ => True) (ends_ret fun _ _ => trivial) fun direct => ?_
  refine ends_bind (M := fun _ _ => True) (ends_writeTelemetry h.untroubled fun _ _ => trivial)
    fun _ => ?_
  refine ends_bind (returns_pendingOf h hbatch hitem since) fun pending => ?_
  refine ends_bind (M := fun _ _ => ∀ event ∈ pending.values, event ∈ batch)
    (ends_read fun _ hs => hs) fun ledger => ?_
  refine ends_bind (M := fun _ _ => ∀ event ∈ pending.values, event ∈ batch)
    (ends_writeTelemetry h.untroubled fun _ hs => hs) fun _ => ?_
  intro n s hpending
  obtain ⟨ordered, hordered⟩ := exists_inSequence config hexdigest
    fun event he => hbatch event (hpending event he)
  have hperm := perm_of_inSequence hordered
  have hhandled : Returns (ordered.forM (handlePending env config hexdigest)) fun _ => True := by
    refine ends_forM (P := fun _ => True) fun event hevent => ?_
    refine ends_bind (M := fun _ _ => True) (ends_read fun _ _ => trivial) fun wanted => ?_
    split
    · exact ends_bind (ends_dispatch h.untroubled
        (inboundOf_ne_error (hbatch event (hpending event (hperm.mem_iff.mp hevent))))) fun _ =>
          ends_update fun _ hs => hs
    · exact ends_ret fun _ hs => hs
  rw [hordered]
  exact hhandled n s trivial

/-- **A restarted agent commits the token of the batch it recovers.** -/
theorem ends_recover (since : Token) :
    Ends (fun s => truthy s.checkpointToken = some since) (recover env config hexdigest)
      (fun _ s => s.Committed response.snapshot.nextBatch) (fun _ => False) fun _ => False := by
  refine ends_bind (M := fun token _ => truthy token = some since) (ends_read fun _ hs => hs)
    fun token => ?_
  intro n s htoken
  rw [htoken]
  refine ends_bind (M := fun snapshot _ => snapshot = response.snapshot)
    (returns_syncOnce h _) (fun snapshot => ?_) n s trivial
  intro n s hsnapshot
  subst hsnapshot
  refine ends_bind (returns_recoverSlice h hbatch ?_ since) (fun _ => ?_) n s trivial
  · intro slice hslice
    refine ⟨List.mem_of_find?_eq_some hslice, ?_⟩
    simpa using List.find?_some hslice
  refine ends_bind (M := fun _ s => s.syncToken = some response.snapshot.nextBatch)
    (ends_update fun _ _ => rfl) fun _ => ?_
  refine ends_bind (M := fun _ s => s.Committed response.snapshot.nextBatch)
    (ends_saveCheckpoint h.untroubled fun _ => State.committed_saving) fun _ => ?_
  refine ends_bind (M := fun _ s => s.Committed response.snapshot.nextBatch)
    (ends_read fun _ hs => hs) fun ledger => ?_
  exact ends_writeTelemetry h.untroubled fun _ hs => hs

end Delivery

end Loops

/-! ## 4.  No poison -/

/-- **No poison message**, for a batch of events from other participants: no body makes
the parser, the classification or a handler raise, the batch is dispatched to its end,
and the sync loop and `recover` commit the token it came with. -/
structure NoPoison (config : AgentConfig) (hexdigest : Text → Text)
    (batch : List TimelineEvent) : Prop where
  parsed : ∀ event ∈ batch, ∃ message, parse event.body = .ok message
  classified : ∀ event ∈ batch, ∃ foreign, isForeignRequest config hexdigest event = .ok foreign
  found : ∀ event ∈ batch, ∀ s : Human.State, ∃ target, s.findPending event = .ok target
  handled : ∀ event ∈ batch, ∀ env n s e,
    (handle env config hexdigest event n s).1 = .raised e → ∃ k, env.disk k = .error e
  dispatched : ∀ env, Untroubled env → ∀ k,
    Ends (fun s => s.incarnation = k) (batch.forM (dispatch env config hexdigest))
      (fun _ s => ∀ event ∈ batch, (k, Occurrence.returned event) ∈ s.trace)
      (fun _ => False) fun _ => False
  synchronised : ∀ env response, Delivers env config response batch → ∀ iterations,
    Ends (fun _ => True) (syncLoop env config hexdigest (iterations + 1))
      (fun _ s => s.Committed response.snapshot.nextBatch) (fun _ => False) fun _ => False
  recovered : ∀ env response, Delivers env config response batch → ∀ since,
    Ends (fun s => truthy s.checkpointToken = some since) (recover env config hexdigest)
      (fun _ s => s.Committed response.snapshot.nextBatch) (fun _ => False) fun _ => False

theorem raised_handle {env : Environment} (hbody : ¬ Overlong event.body) {n : ℕ} {s : State}
    {e : Fault} (h : (handle env config hexdigest event n s).1 = .raised e) :
    ∃ k, env.disk k = .error e := by
  have hallows : Allows env (fun e => ∃ k, env.disk k = .error e) fun _ => True :=
    ⟨fun k _ hk => ⟨k, hk⟩, fun _ _ _ => trivial⟩
  have hhandle : Ends (fun _ => True) (handle env config hexdigest event) (fun _ _ => True) _ _ :=
    ends_handle hallows (inboundOf_ne_error hbody)
  have hends := hhandle n s trivial
  revert h hends
  rcases handle env config hexdigest event n s with ⟨a | e' | how, n', s'⟩
  · exact fun h => nomatch h
  · exact fun h hends => Outcome.raised.inj h ▸ hends
  · exact fun h => nomatch h

/-- **A batch is free of poison exactly when no body in it is overlong**: laid out as a
message whose sequence number has more than 4300 digits. -/
theorem noPoison_iff {batch : List TimelineEvent} :
    NoPoison config hexdigest batch ↔ ∀ event ∈ batch, ¬ Overlong event.body := by
  constructor
  · intro h event hevent hoverlong
    obtain ⟨message, hmessage⟩ := h.parsed event hevent
    obtain ⟨e, he⟩ := parse_error_iff.mpr hoverlong
    exact nomatch hmessage.symm.trans he
  · intro h
    exact
      { parsed := fun event hevent => exists_parse (h event hevent)
        classified := fun event hevent => exists_isForeignRequest _ _ (h event hevent)
        found := fun event hevent => Human.exists_findPending (h event hevent)
        handled := fun event hevent _ _ _ _ => raised_handle (h event hevent)
        dispatched := fun _ huntroubled => ends_dispatch_all huntroubled h
        synchronised := fun _ _ hdelivers => ends_syncLoop hdelivers h
        recovered := fun _ _ hdelivers => ends_recover hdelivers h }

/-! ### The shortest poison -/

/-- `FAM/1 REQUEST E0 r 1...1`, with so many digits. -/
def onesBody (digits : ℕ) : Text :=
  protocolToken ++ ([' '] ++ (Kind.request.keyword ++ ([' '] ++ (['E', '0'] ++ ([' '] ++ (['r'] ++
    ([' '] ++ (List.replicate digits '1' ++ []))))))))

theorem isToken_of_decide {t : Text} (h : (t ≠ [] && t.all isTokenChar) = true) : IsToken t := by
  rw [Bool.and_eq_true, decide_eq_true_eq, List.all_eq_true] at h
  exact h

/-- The only thing wrong with such a body is the number of its digits. -/
theorem overlong_onesBody {digits : ℕ} (h : maxStrDigits < digits) :
    Overlong (onesBody digits) := by
  have hone : ∀ c ∈ List.replicate digits '1', c = '1' := fun c hc => List.eq_of_mem_replicate hc
  have hne : List.replicate digits '1' ≠ [] := by
    rw [Ne, List.replicate_eq_nil_iff]
    exact Nat.ne_zero_of_lt h
  have hstrip : strip (onesBody digits) = onesBody digits := by
    refine strip_eq_self (fun c hc => ?_) fun c hc => ?_
    · rw [← Option.some_inj.mp hc]
      decide
    · rw [onesBody, List.append_nil, List.getLast?_append_of_ne_nil _ (by simp),
        List.getLast?_append_of_ne_nil _ (by simp)] at hc
      simp only [List.getLast?_append, List.getLast?_replicate] at hc
      rw [if_neg (Nat.ne_zero_of_lt h)] at hc
      rw [← Option.some_inj.mp hc]
      decide
  obtain ⟨w, hw, hcaptures⟩ := exists_leads_bodyRe .request isGap_space isGap_space isGap_space
    isGap_space (isToken_of_decide rfl : IsToken ['E', '0'])
    (isToken_of_decide rfl : IsToken ['r']) ⟨hne, fun c hc => by rw [hone c hc]; decide⟩
    (fun c hc => by rw [hone c hc]; decide) (by simp) leads_tail_nil
  refine ⟨w, by rw [hstrip]; exact hw.firstWay_eq, ?_⟩
  have hsequence : w.group .sequence = List.replicate digits '1' := by
    simp only [Way.group, Way.group?, hcaptures]
    rfl
  rw [hsequence, List.length_replicate]
  exact h

/-- A request of another participant whose sequence number has one digit too many. -/
def poisonEvent : TimelineEvent := ⟨['R'], ['$', '0'], ['@', 'h'], onesBody (maxStrDigits + 1), 0⟩

/-- It is poison to the agent of its room. -/
theorem poisonEvent_not_noPoison :
    ¬ NoPoison (smallConfig .controlled) (fun text => text) [poisonEvent] := by
  intro h
  obtain ⟨message, hmessage⟩ := h.parsed poisonEvent List.mem_cons_self
  obtain ⟨e, he⟩ := parse_error_iff.mpr (overlong_onesBody (Nat.lt_succ_self _))
  exact nomatch hmessage.symm.trans he

/-! ### What becomes of the agent -/

/-- What a poison event is to an agent: a controlled agent is told it by somebody else, in
its room. -/
structure Poisons (config : AgentConfig) (event : TimelineEvent) : Prop where
  protocol : config.requestProtocol = .controlled
  room : event.roomId = config.roomId
  sender : event.sender ≠ config.userId
  overlong : Overlong event.body

theorem Poisons.inboundOf (h : Poisons config event) :
    ∃ e, inboundOf config hexdigest event = .error e := by
  obtain ⟨e, he⟩ := parse_error_iff.mpr h.overlong
  refine ⟨.message e, ?_⟩
  unfold Agent.inboundOf
  rw [h.protocol]
  change (controlledInbound event.body).mapError Fault.message = _
  unfold controlledInbound
  rw [he]
  rfl

variable {env : Environment} {response : SyncResponse} {batch : List TimelineEvent}

/-- A call of `_handle` with it does not return. -/
theorem ends_dispatch_poison (hpoison : Poisons config event) :
    Ends (fun _ => True) (dispatch env config hexdigest event) (fun _ _ => False)
      (fun _ => True) fun _ => False := by
  refine ends_bind (M := fun _ _ => True) (ends_update fun _ hs => hs) fun _ => ?_
  refine ends_bind (M := fun _ _ => False) ?_ fun _ _ _ hfalse => hfalse.elim
  obtain ⟨e, he⟩ : ∃ e, inboundOf config hexdigest event = .error e := hpoison.inboundOf
  unfold handle
  rw [if_neg (not_not.mpr hpoison.room), if_neg hpoison.sender, he]
  exact ends_bind (M := fun _ _ => False) (fun _ _ _ => trivial) fun _ _ _ hfalse => hfalse.elim

/-- **A poison event stops the agent.**  Where a sync offers it, the token stays where it
was, however often the window is asked for again. -/
theorem ends_syncLoop_poison (h : Delivers env config response batch) {item : RoomSyncSlice}
    (hitem : item ∈ response.snapshot.rooms) (hroom : item.roomId = config.roomId)
    (hlimited : item.limited = false) (hevent : event ∈ item.events)
    (hpoison : Poisons config event) (since : Option Token) (iterations : ℕ) :
    Ends (fun s => s.syncToken = since) (syncLoop env config hexdigest iterations)
      (fun _ s => s.syncToken = since) (fun _ => False) fun _ => False := by
  have hany : Allows env (fun _ => True) fun _ => False := h.untroubled.weaken fun _ => False.elim
  have hstuck (since : Option Token) : Ends (fun _ => True)
      (dispatchSlice env config hexdigest since item) (fun _ _ => False) (fun _ => True)
      fun _ => False := by
    unfold dispatchSlice sliceEvents
    rw [if_neg (not_not.mpr hroom), hlimited]
    refine ends_bind (M := fun events _ => events = item.events) (ends_ret fun _ _ => rfl)
      fun events => ?_
    intro n s hevents
    subst hevents
    exact ends_forM_stuck hevent (ends_dispatch_poison hpoison)
      (fun e _ => ends_dispatch hany fun _ _ => trivial) n s trivial
  induction iterations with
  | zero => exact ends_ret fun _ hs => hs
  | succ iterations ih =>
    refine ends_bind (M := fun from_ _ => from_ = since) (ends_read fun _ hs => hs)
      fun from_ => ?_
    intro n s hfrom
    subst hfrom
    refine ends_bind (M := fun synced _ => synced = .ok response.snapshot)
      (ends_attempt (ends_consequence (returns_syncOnce h _) (fun _ hs => hs)
        fun _ _ ha => congrArg Except.ok ha) fun _ _ => False.elim) (fun synced => ?_) n s trivial
    intro n s hsynced
    subst hsynced
    refine ends_bind (M := fun dispatched _ => ∃ e, dispatched = .error e)
      (ends_attempt (T := fun _ => True) (ends_consequence (ends_forM_stuck hitem (hstuck from_)
        fun other hother => ends_dispatchSlice h (fun _ _ _ _ => trivial) hother from_)
        (fun _ hs => hs) fun _ _ => False.elim)
        fun e _ _ => ⟨e, rfl⟩) (fun dispatched => ?_) n s trivial
    rintro n s ⟨e, rfl⟩
    have hfailure : Ends (fun _ => True) (recordLiveFailure env e from_) (fun _ _ => True)
        (fun _ => False) fun _ => False :=
      ends_bind (ends_update fun _ hs => hs) fun _ =>
        ends_writeTelemetry h.untroubled fun _ hs => hs
    refine ends_bind hfailure (fun _ => ?_) n s trivial
    refine ends_bind (M := fun _ s => s.syncToken = from_) (ends_update fun _ _ => rfl)
      fun _ => ?_
    exact ends_bind (ends_suspend h.untroubled) fun _ => ih

end Agent
end FederatedMessaging
