import FederatedMessaging.Agent.Runtime
import FederatedMessaging.Foundations.Fallible

/-!
# What the programs of the runtime preserve

Rules for the programs of `Agent.Runtime`, in the order of that file.  They are stated
once for an arbitrary assertion, so that an invariant of the agent needs one proof for
each *kind* of change and none for each program.

* An assertion that is `Routine` does not look at the volatile bookkeeping (ledger,
  counters, tokens in memory) and survives telemetry and saves.  Then every program
  that does not handle an event preserves it, and the whole run does as soon as
  `dispatch` does.
* `preserves_dispatch` is the rule for one event.  It has a premise for each of the ways
  a call of `_handle` can go: the event is not a foreign request, the registry knows it,
  or it is committed and executed and then perhaps answered.
* An assertion that is `Lasting` only grows with the record of what happened.  It may
  look at the recovery ledger, which no call of `_handle` touches.
-/

namespace FederatedMessaging
namespace Agent

open PythonText Message FederatedMessaging.Matrix CrashPrograms CrashPrograms.Prog

variable {env : Environment} {config : AgentConfig} {hexdigest : Text → Text}

/-! ## Foreign requests -/

/-- The event carries a request for the agent from another participant of its room. -/
structure Foreign (config : AgentConfig) (hexdigest : Text → Text) (event : TimelineEvent)
    (request : InboundRequest) : Prop where
  room : event.roomId = config.roomId
  sender : event.sender ≠ config.userId
  inbound : inboundOf config hexdigest event = .ok (some request)

/-- `_is_foreign_request` holds of the events that carry one. -/
theorem isForeignRequest_iff {event : TimelineEvent} :
    isForeignRequest config hexdigest event = .ok true ↔
      ∃ request, Foreign config hexdigest event request := by
  unfold isForeignRequest
  split
  · rename_i h
    constructor
    · intro hfalse
      cases hfalse
    · rintro ⟨request, hroom, hsender, -⟩
      exact absurd h (not_or.mpr ⟨fun hne => hne hroom, hsender⟩)
  · rename_i h
    obtain ⟨hroom, hsender⟩ := not_or.mp h
    cases hinbound : inboundOf config hexdigest event with
    | error fault =>
      refine ⟨fun htrue => (nomatch htrue), ?_⟩
      rintro ⟨request, hf⟩
      exact nomatch hinbound.symm.trans hf.inbound
    | ok found =>
      cases found with
      | none =>
        refine ⟨fun htrue => (nomatch htrue), ?_⟩
        rintro ⟨request, hf⟩
        exact nomatch hinbound.symm.trans hf.inbound
      | some request =>
        exact ⟨fun _ => ⟨request, not_not.mp hroom, hsender, hinbound⟩, fun _ => rfl⟩

/-- An event carries at most one request. -/
theorem Foreign.request_eq {event : TimelineEvent} {request request' : InboundRequest}
    (h : Foreign config hexdigest event request) (h' : Foreign config hexdigest event request') :
    request = request' :=
  Option.some_inj.mp (Except.ok.inj (h.inbound.symm.trans h'.inbound))

/-- What an event carries depends on its room, id, sender and body. -/
theorem Foreign.of_eq {event event' : TimelineEvent} {request : InboundRequest}
    (h : Foreign config hexdigest event request) (hroom : event'.roomId = event.roomId)
    (hid : event'.eventId = event.eventId) (hsender : event'.sender = event.sender)
    (hbody : event'.body = event.body) : Foreign config hexdigest event' request := by
  refine ⟨hroom.trans h.room, hsender ▸ h.sender, ?_⟩
  have hinbound := h.inbound
  unfold inboundOf at hinbound ⊢
  rwa [hid, hsender, hbody]

/-! ## Effects -/

section Effects

variable {P E : State → Prop}

theorem triple_suspend (hE : ∀ s, P s → E s) : Triple P (suspend env) (fun _ => P) E := by
  refine triple_bind (R := fun _ => P) (triple_ask fun _ _ hs => hs) fun fate => ?_
  cases fate with
  | proceeds => exact triple_ret fun _ hs => hs
  | stopped => exact triple_halt hE
  | crashed => exact triple_halt hE

theorem triple_touchDisk (hE : ∀ s, P s → E s) : Triple P (touchDisk env) (fun _ => P) E := by
  have hwrite : Triple P (ask env.disk >>= fun written => (ofExcept written : Program Unit))
      (fun _ => P) E :=
    triple_bind (R := fun _ => P) (triple_ask fun _ _ hs => hs) fun _ =>
      triple_ofExcept (fun _ _ _ hs => hs) fun _ _ => hE
  refine triple_bind (R := fun _ => P) (triple_ask fun _ _ hs => hs) fun fate => ?_
  cases fate with
  | proceeds => exact hwrite
  | stopped => exact hwrite
  | crashed => exact triple_halt hE

theorem triple_awaitAnswer {α : Type} {answer : ℕ → Except Fault α} (hE : ∀ s, P s → E s) :
    Triple P (awaitAnswer env answer) (fun a s => (∃ n, answer n = .ok a) ∧ P s) E := by
  refine triple_bind (R := fun got s => (∃ n, answer n = got) ∧ P s)
    (triple_ask fun n _ hs => ⟨⟨n, rfl⟩, hs⟩) fun got => ?_
  refine triple_bind (triple_suspend fun s hs => hE s hs.2) fun _ => ?_
  refine triple_ofExcept ?_ fun _ _ s hs => hE s hs.2
  rintro a rfl s hs
  exact hs

theorem triple_writeTelemetry {Q : State → Prop} {record : Record} (hE : ∀ s, P s → E s)
    (h : ∀ s, P s → Q (s.noting (.recorded record))) :
    Triple P (writeTelemetry env record) (fun _ => Q) E :=
  triple_bind (triple_touchDisk hE) fun _ => triple_update h

theorem triple_recordObservation {Q : State → Prop} {observed : Observed}
    (hE : ∀ s, P s → E s) (h : ∀ s record, P s → Q (s.noting (.recorded record))) :
    Triple P (recordObservation env observed) (fun _ => Q) E :=
  triple_bind (R := fun _ => P) (triple_read fun _ hs => hs) fun _ =>
    triple_writeTelemetry hE fun s => h s _

theorem triple_saveCheckpoint {Q : State → Prop} (hE : ∀ s, P s → E s)
    (h : ∀ s, P s → Q s.saving) : Triple P (saveCheckpoint env) (fun _ => Q) E :=
  triple_bind (triple_touchDisk hE) fun _ => triple_update h

theorem triple_syncOnce {query : SyncQuery} (hE : ∀ s, P s → E s) :
    Triple P (syncOnce env query)
      (fun snapshot s =>
        (∃ n response, env.sync n query = .ok response ∧ response.snapshot = snapshot) ∧ P s) E :=
  triple_bind (triple_awaitAnswer hE) fun response =>
    triple_ret fun _ ⟨⟨n, hn⟩, hs⟩ => ⟨⟨n, response, hn, rfl⟩, hs⟩

theorem triple_reconcile {item : RoomSyncSlice} {since : Option Token}
    {trigger : RecoveryTrigger} (hE : ∀ s, P s → E s)
    (haside : ∀ s episodes, P s → P { s with episodeCounter := episodes }) :
    Triple P (reconcile env item since trigger)
      (fun result s => (∃ n counter,
        (reconcileSlice (env.messages n) counter item since trigger).2 = .ok result) ∧ P s) E := by
  refine triple_bind (R := fun request s => (∃ n, env.messages n = request) ∧ P s)
    (triple_ask fun n _ hs => ⟨⟨n, rfl⟩, hs⟩) fun request => ?_
  refine triple_bind (R := fun _ s => (∃ n, env.messages n = request) ∧ P s)
    (triple_read fun _ hs => hs) fun counter => ?_
  refine triple_bind (R := fun _ s => (∃ n, env.messages n = request) ∧ P s)
    (triple_update fun s hs => ⟨hs.1, haside s _ hs.2⟩) fun _ => ?_
  refine triple_bind (triple_suspend fun s hs => hE s hs.2) fun _ => ?_
  refine triple_ofExcept ?_ fun _ _ s hs => hE s hs.2
  rintro result hresult s ⟨⟨n, rfl⟩, hs⟩
  refine ⟨⟨n, counter, ?_⟩, hs⟩
  cases hreconciled : (reconcileSlice (env.messages n) counter item since trigger).2 with
  | error e =>
    rw [hreconciled] at hresult
    cases hresult
  | ok result' =>
    rw [hreconciled] at hresult
    exact congrArg Except.ok (Except.ok.inj hresult)

end Effects

/-! ## Handling one event -/

/-- The state in which the executor is invoked: the call is on record, the request is
committed. -/
def State.executing (s : State) (event : TimelineEvent) (request : InboundRequest) : State :=
  State.noting { s.noting (.passed event) with
    registry := s.registry.commit event.eventId request.correlationKey } (.executed event request)

/-- What takes an assertion `Before` a call of `_handle` to the assertion `S` after it,
on each way the call can go.  `Answering` is what holds between the invocation of the
executor and the send. -/
structure SurvivesEvent (config : AgentConfig) (hexdigest : Text → Text)
    (Before S : State → Prop) (event : TimelineEvent)
    (Answering : InboundRequest → State → Prop) : Prop where
  ignored : ∀ s, (∀ request, ¬ Foreign config hexdigest event request) → Before s →
    S (s.noting (.passed event))
  duplicate : ∀ s request, Foreign config hexdigest event request →
    s.registry.decide event.eventId request.correlationKey ≠ .process → Before s →
    S (s.noting (.passed event))
  executing : ∀ s request, Foreign config hexdigest event request →
    s.registry.decide event.eventId request.correlationKey = .process → Before s →
    Answering request (s.executing event request)
  answering : ∀ s request, Answering request s → S s
  sent : ∀ s request created, Foreign config hexdigest event request → Answering request s →
    S (s.noting (.sent s.session.deviceId event request created))
  recorded : ∀ s record, S s → S (s.noting (.recorded record))
  saving : ∀ s, S s → S s.saving

section Event

variable {Before S : State → Prop} {event : TimelineEvent}
  {Answering : InboundRequest → State → Prop}
  {request : InboundRequest}

theorem preserves_recordObservation {observed : Observed}
    (h : ∀ s record, S s → S (s.noting (.recorded record))) :
    Preserves S (recordObservation env observed) :=
  triple_recordObservation (fun _ hs => hs) h

theorem triple_respond (h : SurvivesEvent config hexdigest Before S event Answering)
    (hforeign : Foreign config hexdigest event request) (body : Text)
    (facts : List (Text × Text)) :
    Triple (Answering request) (respond env config event request body facts) (fun _ => S) S := by
  have hsend : Triple (Answering request) (sendText env config event request body)
      (fun _ => S) S := by
    refine triple_bind
      (R := fun deviceId s => Answering request s ∧ s.session.deviceId = deviceId)
      (triple_read fun s hs => ⟨hs, rfl⟩) fun deviceId => ?_
    refine triple_bind
      (R := fun _ s => Answering request s ∧ s.session.deviceId = deviceId)
      (triple_ask fun _ _ hs => hs) fun answer => ?_
    refine triple_bind (R := fun _ => S) (triple_update ?_) fun _ => ?_
    · rintro s ⟨hs, rfl⟩
      exact h.sent s request answer.created hforeign hs
    · exact triple_bind (triple_suspend fun _ hs => hs) fun _ =>
        triple_ofExcept (fun _ _ _ hs => hs) fun _ _ _ hs => hs
  refine triple_bind (R := fun _ => S) (triple_attempt hsend fun _ _ hs => hs) fun _ => ?_
  exact triple_bind (preserves_recordObservation h.recorded) fun _ =>
    triple_saveCheckpoint (fun _ hs => hs) h.saving

/-- The assertion before the registry is asked: the call is on record already, and what
held before it is remembered. -/
def Called (Before : State → Prop) (event : TimelineEvent) (s : State) : Prop :=
  ∃ before, Before before ∧ s = before.noting (.passed event)

theorem triple_execute (h : SurvivesEvent config hexdigest Before S event Answering)
    (hforeign : Foreign config hexdigest event request) :
    Triple
      (fun s => ∃ before, Before before ∧ s = before.noting (.passed event) ∧
        before.registry.decide event.eventId request.correlationKey = .process)
      (execute env config event request) (fun _ => S) S := by
  refine triple_exists fun before => ?_
  refine triple_bind (R := fun _ s => Before before ∧
    before.registry.decide event.eventId request.correlationKey = .process ∧
    s = { before.noting (.passed event) with
      registry := before.registry.commit event.eventId request.correlationKey })
    (triple_update ?_) fun _ => ?_
  · rintro s ⟨hbefore, rfl, hdecide⟩
    exact ⟨hbefore, hdecide, rfl⟩
  refine triple_bind (R := fun _ => Answering request) (triple_update ?_) fun _ => ?_
  · rintro s ⟨hbefore, hdecide, rfl⟩
    exact h.executing before request hforeign hdecide hbefore
  have hin := fun s => h.answering s request
  refine triple_bind (R := fun _ => Answering request) (triple_ask fun _ _ hs => hs)
    fun decided => ?_
  refine triple_bind (triple_suspend hin) fun _ => ?_
  rcases decided with exc | body | body
  · exact triple_recordObservation hin fun s record hs => h.recorded s record (hin s hs)
  · exact triple_bind (R := fun _ => Answering request) (triple_ask fun _ _ hs => hs) fun _ =>
      triple_recordObservation hin fun s record hs => h.recorded s record (hin s hs)
  · exact triple_bind (R := fun _ => Answering request) (triple_ask fun _ _ hs => hs) fun facts =>
      triple_respond h hforeign body facts

theorem triple_handleRequest (h : SurvivesEvent config hexdigest Before S event Answering)
    (hforeign : Foreign config hexdigest event request) :
    Triple (Called Before event) (handleRequest env config event request) (fun _ => S) S := by
  refine triple_bind
    (R := fun decision s => ∃ before, Before before ∧ s = before.noting (.passed event) ∧
      before.registry.decide event.eventId request.correlationKey = decision)
    (triple_read ?_) fun decision => ?_
  · rintro s ⟨before, hbefore, rfl⟩
    exact ⟨before, hbefore, rfl, rfl⟩
  by_cases hdecision : decision = .process
  · rw [if_pos hdecision, hdecision]
    exact triple_execute h hforeign
  · rw [if_neg hdecision]
    refine triple_pre (preserves_recordObservation h.recorded) ?_
    rintro s ⟨before, hbefore, rfl, rfl⟩
    exact h.duplicate before request hforeign hdecision hbefore

theorem triple_handle (h : SurvivesEvent config hexdigest Before S event Answering) :
    Triple (Called Before event) (handle env config hexdigest event) (fun _ => S) S := by
  have hignored (hnot : ∀ request, ¬ Foreign config hexdigest event request) (s : State) :
      Called Before event s → S s := by
    rintro ⟨before, hbefore, rfl⟩
    exact h.ignored before hnot hbefore
  unfold handle
  split
  · rename_i hroom
    exact triple_ret (hignored fun _ hf => hroom hf.room)
  split
  · rename_i hsender
    exact triple_pre (preserves_recordObservation h.recorded)
      (hignored fun _ hf => hf.sender hsender)
  rename_i hroom hsender
  refine triple_bind
    (R := fun inbound s => inboundOf config hexdigest event = .ok inbound ∧ Called Before event s)
    (triple_ofExcept (fun inbound hinbound s hs => ⟨hinbound, hs⟩) fun fault hfault =>
      hignored fun _ hf => nomatch hfault.symm.trans hf.inbound) fun inbound => ?_
  refine triple_pure_fact fun hinbound => ?_
  cases inbound with
  | none =>
    exact triple_pre (preserves_recordObservation h.recorded)
      (hignored fun _ hf => nomatch hinbound.symm.trans hf.inbound)
  | some request =>
    exact triple_handleRequest h ⟨not_not.mp hroom, hsender, hinbound⟩

/-- **The rule for one event.**  An assertion that survives each way a call of `_handle`
can go survives the call, whether it returns, raises or is cut off. -/
theorem preserves_dispatch (h : SurvivesEvent config hexdigest S S event Answering)
    (hreturned : ∀ s, S s → S (s.noting (.returned event))) :
    Preserves S (dispatch env config hexdigest event) :=
  triple_bind (triple_update fun s hs => ⟨s, hs, rfl⟩) fun _ =>
    triple_bind (triple_handle h) fun _ => triple_update hreturned

end Event

/-! ## Lasting assertions -/

/-- Once true, an assertion about the record of what happened stays true while the
incarnation goes on with the same ledger. -/
def Lasting (S : State → Prop) : Prop :=
  ∀ s s', s.incarnation = s'.incarnation → s.ledger = s'.ledger → s.trace <+: s'.trace →
    S s → S s'

section Lasting

variable {S : State → Prop}

theorem Lasting.noting (hS : Lasting S) (s : State) (occurrence : Occurrence) :
    S s → S (s.noting occurrence) :=
  hS s _ rfl rfl (List.prefix_append _ _)

theorem Lasting.saving (hS : Lasting S) (s : State) : S s → S s.saving :=
  hS s _ rfl rfl (List.prefix_append _ _)

theorem Lasting.preserves_dispatch (hS : Lasting S) (event : TimelineEvent) :
    Preserves S (dispatch env config hexdigest event) := by
  have hsurvives : SurvivesEvent config hexdigest S S event fun _ => S :=
    { ignored := fun s _ => hS.noting s _
      duplicate := fun s _ _ _ => hS.noting s _
      executing := fun s _ _ _ hs => hS (s.noting _) _ rfl rfl (List.prefix_append _ _)
        (hS.noting s _ hs)
      answering := fun _ _ hs => hs
      sent := fun s _ _ _ => hS.noting s _
      recorded := fun s _ => hS.noting s _
      saving := hS.saving }
  exact Agent.preserves_dispatch hsurvives fun s => hS.noting s _

/-- The call of `_handle` is on record in the incarnation that goes on. -/
def CallNoted (k : ℕ) (event : TimelineEvent) (s : State) : Prop :=
  s.incarnation = k ∧ (k, Occurrence.passed event) ∈ s.trace

theorem lasting_callNoted (k : ℕ) (event : TimelineEvent) : Lasting (CallNoted k event) :=
  fun _ _ hk _ hgrows hs => ⟨hk ▸ hs.1, hgrows.subset hs.2⟩

theorem callNoted_noting {k : ℕ} (event : TimelineEvent) {s : State} (hs : s.incarnation = k) :
    CallNoted k event (s.noting (.passed event)) := by
  subst hs
  exact ⟨rfl, List.mem_append_right _ (List.mem_singleton.mpr rfl)⟩

/-- After a call that returned, the call and its return are on record. -/
theorem triple_dispatch_returned (k : ℕ) (event : TimelineEvent) :
    Triple (fun s => s.incarnation = k) (dispatch env config hexdigest event)
      (fun _ s => (k, Occurrence.passed event) ∈ s.trace ∧
        (k, Occurrence.returned event) ∈ s.trace)
      (fun _ => True) := by
  have hlasting := lasting_callNoted k event
  have hsurvives : SurvivesEvent config hexdigest (fun s => s.incarnation = k)
      (CallNoted k event) event (fun _ => CallNoted k event) :=
    { ignored := fun s _ => callNoted_noting event
      duplicate := fun s _ _ _ => callNoted_noting event
      executing := fun s _ _ _ hs => hlasting (s.noting (.passed event)) _ rfl rfl
        (List.prefix_append _ _) (callNoted_noting event hs)
      answering := fun _ _ hs => hs
      sent := fun s _ _ _ => hlasting.noting s _
      recorded := fun s _ => hlasting.noting s _
      saving := hlasting.saving }
  refine triple_bind (R := fun _ => Called (fun s => s.incarnation = k) event)
    (triple_update fun s hs => ⟨s, hs, rfl⟩) fun _ => ?_
  refine triple_bind (R := fun _ => CallNoted k event) (triple_consequence
    (triple_handle hsurvives) (fun _ hs => hs) (fun _ _ hs => hs) fun _ _ => trivial) fun _ => ?_
  refine triple_update fun s hs => ⟨List.mem_append_left _ hs.2, ?_⟩
  obtain ⟨rfl, -⟩ := hs
  exact List.mem_append_right _ (List.mem_singleton.mpr rfl)

end Lasting

/-! ## Telemetry and saves -/

section Telemetry

variable {S : State → Prop} (hrecorded : ∀ s record, S s → S (s.noting (.recorded record)))
include hrecorded

theorem preserves_writeTelemetry (record : Record) : Preserves S (writeTelemetry env record) :=
  triple_writeTelemetry (fun _ hs => hs) fun s => hrecorded s record

theorem preserves_recordPrivilegeEvidence : Preserves S (recordPrivilegeEvidence env) := by
  refine triple_bind (R := fun _ => S) (triple_attempt ?_ fun _ _ hs => hs) fun _ => ?_
  · exact triple_consequence (triple_awaitAnswer fun _ hs => hs) (fun _ hs => hs)
      (fun _ _ hs => hs.2) fun _ hs => hs
  · exact triple_bind (R := fun _ => S) (triple_read fun _ hs => hs) fun _ =>
      preserves_writeTelemetry hrecorded _

variable (hsaving : ∀ s, S s → S s.saving)
include hsaving

theorem preserves_shutdown : Preserves S (shutdown env) := by
  refine triple_bind (triple_saveCheckpoint (fun _ hs => hs) hsaving) fun _ => ?_
  refine triple_bind (R := fun _ => S) (triple_read fun _ hs => hs) fun _ => ?_
  refine triple_bind (R := fun _ => S) (triple_read fun _ hs => hs) fun _ => ?_
  exact triple_bind (preserves_writeTelemetry hrecorded _) fun _ =>
    preserves_recordObservation hrecorded

/-- What the sync loop preserves survives the stop that ends it. -/
theorem preserves_runUntilStopped {iterations : ℕ}
    (hloop : Preserves S (syncLoop env config hexdigest iterations)) :
    Preserves S (runUntilStopped env config hexdigest iterations) := by
  refine triple_onHalt (E := S) ?_ (fun how => ?_) fun _ hs => hs
  · refine triple_bind (R := fun _ => S) (triple_attempt hloop fun _ _ hs => hs) fun ended => ?_
    rcases ended with error | done
    · exact triple_suspend fun _ hs => hs
    · exact triple_ret fun _ hs => hs
  · cases how with
    | stopped => exact preserves_shutdown hrecorded hsaving
    | crashed => exact triple_halt fun _ hs => hs

end Telemetry

/-! ## Connecting, as far as the session goes -/

section Session

variable {S : State → Prop}

theorem preserves_awaitAnswer {α : Type} (answer : ℕ → Except Fault α) :
    Preserves S (awaitAnswer env answer) :=
  triple_consequence (triple_awaitAnswer fun _ hs => hs) (fun _ hs => hs)
    (fun _ _ hs => hs.2) fun _ hs => hs

theorem preserves_join (attempts : ℕ) : Preserves S (join env attempts) := by
  induction attempts with
  | zero => exact triple_raise fun _ hs => hs
  | succ attempts ih =>
    refine triple_bind (preserves_awaitAnswer _) fun joined => ?_
    split
    · exact triple_ret fun _ hs => hs
    · refine triple_bind (R := fun _ => S) ?_ fun _ => ih
      unfold joinDelay
      split
      · exact triple_ret fun _ hs => hs
      · exact triple_suspend fun _ hs => hs

theorem preserves_resumeOrLogin
    (hsession : ∀ s session, S s → S { s with session := session })
    (hresumed : ∀ s, S s → S { s with resumedFromCheckpoint := true })
    (stored : Option TransportCheckpoint) : Preserves S (resumeOrLogin env config stored) := by
  have hlogin : Preserves S (login env) :=
    triple_bind (preserves_awaitAnswer _) fun _ => triple_update fun s => hsession s _
  unfold resumeOrLogin
  split
  · refine triple_bind (R := fun _ => S) (triple_update fun s => hsession s _) fun _ => ?_
    refine triple_bind (preserves_awaitAnswer _) fun observed => ?_
    split
    · exact hlogin
    · exact triple_update hresumed
  · exact hlogin

end Session

/-! ## Routine assertions -/

/-- Two states that differ only in the volatile bookkeeping. -/
structure SameCore (s s' : State) : Prop where
  file : s'.file = s.file
  incarnation : s'.incarnation = s.incarnation
  trace : s'.trace = s.trace
  session : s'.session = s.session
  registry : s'.registry = s.registry

/-- An assertion that ignores the volatile bookkeeping and survives telemetry and saves. -/
structure Routine (S : State → Prop) : Prop where
  aside : ∀ s s', SameCore s s' → S s → S s'
  recorded : ∀ s record, S s → S (s.noting (.recorded record))
  saving : ∀ s, S s → S s.saving

/-! ### What only the record decides -/

section Growing

variable {W : List (ℕ × Occurrence) → Prop}
  (hW : ∀ trace trace', trace <+: trace' → W trace → W trace')
include hW

theorem lasting_of_growing : Lasting fun s => W s.trace :=
  fun _ _ _ _ hgrows => hW _ _ hgrows

theorem routine_of_growing : Routine fun s => W s.trace where
  aside s s' hsame hs := by
    rw [hsame.trace]
    exact hs
  recorded s record := hW _ _ (List.prefix_append _ _)
  saving s := hW _ _ (List.prefix_append _ _)

end Growing

namespace Routine

variable {S : State → Prop} (hS : Routine S)
include hS

theorem preserves_aside {f : State → State} (hf : ∀ s, SameCore s (f s)) :
    Preserves S (update f : Program Unit) := triple_update fun s => hS.aside s _ (hf s)

theorem preserves_writeTelemetry (record : Record) : Preserves S (writeTelemetry env record) :=
  Agent.preserves_writeTelemetry hS.recorded record

theorem preserves_recordObservation (observed : Observed) :
    Preserves S (recordObservation env observed) :=
  Agent.preserves_recordObservation hS.recorded

theorem preserves_saveCheckpoint : Preserves S (saveCheckpoint env) :=
  triple_saveCheckpoint (fun _ hs => hs) hS.saving

omit hS in
theorem preserves_syncOnce (query : SyncQuery) : Preserves S (syncOnce env query) :=
  triple_consequence (triple_syncOnce fun _ hs => hs) (fun _ hs => hs) (fun _ _ hs => hs.2)
    fun _ hs => hs

theorem preserves_reconcile (item : RoomSyncSlice) (since : Option Token)
    (trigger : RecoveryTrigger) : Preserves S (reconcile env item since trigger) :=
  triple_consequence
    (triple_reconcile (fun _ hs => hs) fun s _ => hS.aside s _ ⟨rfl, rfl, rfl, rfl, rfl⟩)
    (fun _ hs => hs) (fun _ _ hs => hs.2) fun _ hs => hs

omit hS in
theorem preserves_ofExcept {α : Type} (x : Except Fault α) :
    Preserves S (ofExcept x : Program α) :=
  triple_ofExcept (fun _ _ _ hs => hs) fun _ _ _ hs => hs

/-! ### Connecting -/

theorem preserves_settleToken (stored : Option TransportCheckpoint) :
    Preserves S (settleToken env stored) := by
  refine triple_bind (hS.preserves_aside fun _ => ⟨rfl, rfl, rfl, rfl, rfl⟩) fun _ => ?_
  split
  · exact hS.preserves_aside fun _ => ⟨rfl, rfl, rfl, rfl, rfl⟩
  · exact triple_bind (preserves_syncOnce _) fun _ =>
      hS.preserves_aside fun _ => ⟨rfl, rfl, rfl, rfl, rfl⟩

/-- `connect`, from what holds of a dead process to what the first save establishes.  `S`
is what holds as soon as there is a session. -/
theorem triple_connect {Offline Q : State → Prop} (hoffline : ∀ s, S s → Offline s)
    (hsession : ∀ stored, Triple (fun s => Offline s ∧ s.file = stored)
      (resumeOrLogin env config stored) (fun _ => S) Offline)
    (hsaved : ∀ s, S s → Q s.saving) :
    Triple Offline (connect env config) (fun _ => Q) Offline := by
  refine triple_bind (R := fun stored s => Offline s ∧ s.file = stored)
    (triple_read fun _ hs => ⟨hs, rfl⟩) fun stored => ?_
  refine triple_bind (hsession stored) fun _ => ?_
  refine triple_consequence (P := S) (E := S) ?_ (fun _ hs => hs) (fun _ _ hs => hs) hoffline
  refine triple_bind (preserves_join _) fun _ => ?_
  refine triple_bind (hS.preserves_settleToken _) fun _ => ?_
  refine triple_bind (R := fun _ => S) (triple_read fun _ hs => hs) fun _ => ?_
  refine triple_bind (hS.preserves_writeTelemetry _) fun _ => ?_
  refine triple_bind (hS.preserves_recordObservation _) fun _ => ?_
  exact triple_bind (preserves_recordPrivilegeEvidence hS.recorded) fun _ =>
    triple_saveCheckpoint (fun _ hs => hs) hsaved

theorem preserves_connect
    (hsession : ∀ s session, S s → S { s with session := session }) :
    Preserves S (connect env config) :=
  hS.triple_connect (fun _ hs => hs) (fun stored => triple_pre
    (preserves_resumeOrLogin hsession (fun s => hS.aside s _ ⟨rfl, rfl, rfl, rfl, rfl⟩) stored)
    fun _ hs => hs.1) hS.saving

/-! ### Recovering -/

theorem preserves_observeEvents (directIds : List Text) (events : List TimelineEvent)
    (pending : OrderedDict Text TimelineEvent) :
    Preserves S (observeEvents config hexdigest directIds events pending) := by
  induction events generalizing pending with
  | nil => exact triple_ret fun _ hs => hs
  | cons event events ih =>
    refine triple_bind (preserves_ofExcept _) fun foreign => ?_
    split
    · refine triple_bind (R := fun _ => S) (triple_read fun _ hs => hs) fun first => ?_
      exact triple_bind (hS.preserves_aside fun _ => ⟨rfl, rfl, rfl, rfl, rfl⟩) fun _ => ih _
    · exact ih pending

theorem preserves_noteLimited (slice : RoomSyncSlice) : Preserves S (noteLimited env slice) := by
  unfold noteLimited
  split
  · exact hS.preserves_writeTelemetry _
  · exact triple_ret fun _ hs => hs

theorem preserves_notePages (episode : Episode) : Preserves S (notePages env episode) := by
  unfold notePages
  split
  · exact triple_bind (hS.preserves_aside fun _ => ⟨rfl, rfl, rfl, rfl, rfl⟩) fun _ =>
      hS.preserves_writeTelemetry _
  · exact triple_ret fun _ hs => hs

theorem preserves_pendingOf (slice : Option RoomSyncSlice) (since : Token) :
    Preserves S (pendingOf env config hexdigest slice since) := by
  cases slice with
  | none => exact triple_ret fun _ hs => hs
  | some slice =>
    refine triple_bind (hS.preserves_noteLimited slice) fun _ => ?_
    refine triple_bind (hS.preserves_reconcile _ _ _) fun result => ?_
    refine triple_bind (hS.preserves_notePages result.2) fun _ => ?_
    exact triple_bind (preserves_ofExcept _) fun _ => hS.preserves_observeEvents _ _ _

variable (hevent : ∀ event, Preserves S (dispatch env config hexdigest event))
include hevent

theorem preserves_handlePending (event : TimelineEvent) :
    Preserves S (handlePending env config hexdigest event) := by
  refine triple_bind (R := fun _ => S) (triple_read fun _ hs => hs) fun wanted => ?_
  split
  · exact triple_bind (hevent event) fun _ =>
      hS.preserves_aside fun _ => ⟨rfl, rfl, rfl, rfl, rfl⟩
  · exact triple_ret fun _ hs => hs

theorem preserves_recoverSlice (slice : Option RoomSyncSlice) (since : Token) :
    Preserves S (recoverSlice env config hexdigest slice since) := by
  refine triple_bind (hS.preserves_aside fun _ => ⟨rfl, rfl, rfl, rfl, rfl⟩) fun _ => ?_
  refine triple_bind (preserves_ofExcept _) fun _ => ?_
  refine triple_bind (hS.preserves_writeTelemetry _) fun _ => ?_
  refine triple_bind (hS.preserves_pendingOf slice since) fun pending => ?_
  refine triple_bind (R := fun _ => S) (triple_read fun _ hs => hs) fun _ => ?_
  refine triple_bind (hS.preserves_writeTelemetry _) fun _ => ?_
  refine triple_bind (preserves_ofExcept _) fun _ => ?_
  exact preserves_forM fun event _ => hS.preserves_handlePending hevent event

theorem preserves_recover : Preserves S (recover env config hexdigest) := by
  refine triple_bind (R := fun _ => S) (triple_read fun _ hs => hs) fun checkpointToken => ?_
  split
  · exact hS.preserves_writeTelemetry _
  · refine triple_bind (preserves_syncOnce _) fun _ => ?_
    refine triple_bind (hS.preserves_recoverSlice hevent _ _) fun _ => ?_
    refine triple_bind (hS.preserves_aside fun _ => ⟨rfl, rfl, rfl, rfl, rfl⟩) fun _ => ?_
    refine triple_bind hS.preserves_saveCheckpoint fun _ => ?_
    exact triple_bind (R := fun _ => S) (triple_read fun _ hs => hs) fun _ =>
      hS.preserves_writeTelemetry _

/-! ### The sync loop -/

theorem preserves_dispatchSlice (since : Option Token) (item : RoomSyncSlice) :
    Preserves S (dispatchSlice env config hexdigest since item) := by
  unfold dispatchSlice
  split
  · exact triple_ret fun _ hs => hs
  refine triple_bind (R := fun _ => S) ?_ fun events => preserves_forM fun event _ => hevent event
  unfold sliceEvents
  split
  · refine triple_bind (hS.preserves_reconcile _ _ _) fun result => ?_
    refine triple_bind (R := fun _ => S) ?_ fun _ => triple_ret fun _ hs => hs
    exact triple_bind (hS.preserves_aside fun _ => ⟨rfl, rfl, rfl, rfl, rfl⟩) fun _ =>
      hS.preserves_writeTelemetry _
  · exact triple_ret fun _ hs => hs

theorem preserves_syncLoop (iterations : ℕ) :
    Preserves S (syncLoop env config hexdigest iterations) := by
  induction iterations with
  | zero => exact triple_ret fun _ hs => hs
  | succ iterations ih =>
    refine triple_bind (R := fun _ => S) (triple_read fun _ hs => hs) fun since => ?_
    refine triple_bind (R := fun _ => S)
      (triple_attempt (preserves_syncOnce _) fun _ _ hs => hs) fun synced => ?_
    rcases synced with (text | error | text) | snapshot
    · exact triple_bind (triple_suspend fun _ hs => hs) fun _ => ih
    · exact triple_raise fun _ hs => hs
    · exact triple_raise fun _ hs => hs
    refine triple_bind (R := fun _ => S) (triple_attempt
      (preserves_forM fun item _ => hS.preserves_dispatchSlice hevent since item)
      fun _ _ hs => hs) fun dispatched => ?_
    rcases dispatched with error | done
    · refine triple_bind (R := fun _ => S) ?_ fun _ => ?_
      · exact triple_bind (hS.preserves_aside fun _ => ⟨rfl, rfl, rfl, rfl, rfl⟩) fun _ =>
          hS.preserves_writeTelemetry _
      refine triple_bind (hS.preserves_aside fun _ => ⟨rfl, rfl, rfl, rfl, rfl⟩) fun _ => ?_
      exact triple_bind (triple_suspend fun _ hs => hs) fun _ => ih
    · refine triple_bind (hS.preserves_aside fun _ => ⟨rfl, rfl, rfl, rfl, rfl⟩) fun _ => ?_
      refine triple_bind (R := fun _ => S) ?_ fun _ => ih
      exact triple_bind (hS.preserves_aside fun _ => ⟨rfl, rfl, rfl, rfl, rfl⟩) fun _ =>
        hS.preserves_saveCheckpoint

/-- **One incarnation.**  When the boot and the connection lead from an assertion about a
dead process to one that survives every event, the former survives an incarnation. -/
theorem preserves_serve {Offline : State → Prop} (hoffline : ∀ s, S s → Offline s)
    (hboot : ∀ s, Offline s → Offline s.booted)
    (hconnect : Triple Offline (connect env config) (fun _ => S) Offline) (iterations : ℕ) :
    Preserves Offline (serve env config hexdigest iterations) := by
  refine triple_bind (R := fun _ => Offline) (triple_update hboot) fun _ => ?_
  refine triple_bind hconnect fun _ => ?_
  refine triple_consequence (triple_bind (hS.preserves_recover hevent) fun _ =>
    preserves_runUntilStopped hS.recorded hS.saving (hS.preserves_syncLoop hevent iterations))
    (fun _ hs => hs) (fun _ => hoffline) hoffline

end Routine

end Agent
end FederatedMessaging
