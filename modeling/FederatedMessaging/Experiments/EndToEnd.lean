import FederatedMessaging.Agent.ResponseUniqueness
import FederatedMessaging.Agent.ExactlyOnce
import FederatedMessaging.Executors.Deterministic

/-!
# From an acknowledgement back to an execution

The participant and the agent share nothing but a room.  The participant believes an ACK
because of what stands in it; the agent sends one because its executor said so, possibly in
an earlier life.  This file runs both against the same room and says what an acknowledged
interaction is worth.

## 1.  The agent's side

Every event that a send of the agent created is `Backed`: earlier in the same incarnation the
executor was invoked for the request of the send, and what it said is the body that was put
into the room.  The record of what happened only grows, and what backs an event stands in the
part of the record before it, so one look at each entry is enough (`allBacked_concat`).

## 2.  The participant's side

An event id is noted at a call only by the callback, under the key that the event's body
parses to, and a key of the pending table leads to a call of that key.  So whatever is said of
all ACKs delivered is true of all event ids noted (`Evidenced`).

## 3.  The room

Two things are asked of it: an event keeps the body it was created with, and an ACK in it was
created by a send of the agent.  Then an acknowledged interaction was executed
(`acknowledged_was_executed`), and, where the homeserver knows its transactions, no interaction
ever counts a duplicate, however often the agent died between a send and a save
(`no_duplicate_acks`).
-/

namespace FederatedMessaging
namespace EndToEnd

open PythonText Message LabelledRuns CrashPrograms CrashPrograms.Prog
open FederatedMessaging.Matrix FederatedMessaging.Agent FederatedMessaging.Human
open FederatedMessaging.Executors

/-! ## 1.  The agent's side -/

section Agent

variable {env : Environment} {config : AgentConfig} {hexdigest : Text → Text}

/-- What stands behind an event that a send created, given the record up to the send. -/
structure Backed (env : Environment) (config : AgentConfig) (hexdigest : Text → Text)
    (front : List (ℕ × Occurrence)) (k : ℕ) (deviceId : Text) (event : TimelineEvent)
    (request : InboundRequest) (created : Text) : Prop where
  executed : (k, .executed event request) ∈ front
  foreign : Foreign config hexdigest event request
  said : ∃ n m body, env.decide n request.execution = .ok (some body) ∧
    (env.put m ⟨deviceId, config.roomId, body, request.responseTxnId⟩).created = some created

/-- Every event that was created is backed. -/
def AllBacked (env : Environment) (config : AgentConfig) (hexdigest : Text → Text)
    (trace : List (ℕ × Occurrence)) : Prop :=
  ∀ front k deviceId event request created,
    front ++ [(k, .sent deviceId event request (some created))] <+: trace →
    Backed env config hexdigest front k deviceId event request created

theorem allBacked_nil : AllBacked env config hexdigest [] := by
  intro front k deviceId event request created hprefix
  have hlength := hprefix.length_le
  simp at hlength

theorem allBacked_concat {trace : List (ℕ × Occurrence)} {entry : ℕ × Occurrence}
    (h : AllBacked env config hexdigest trace)
    (hentry : ∀ k deviceId event request created,
      entry = (k, .sent deviceId event request (some created)) →
      Backed env config hexdigest trace k deviceId event request created) :
    AllBacked env config hexdigest (trace ++ [entry]) := by
  intro front k deviceId event request created hprefix
  rcases List.prefix_concat_iff.mp hprefix with heq | hprefix
  · obtain ⟨rfl, hlast⟩ := List.append_inj' heq rfl
    exact hentry k deviceId event request created (List.singleton_inj.mp hlast).symm
  · exact h front k deviceId event request created hprefix

/-- An entry that creates no event needs no backing. -/
theorem allBacked_noting {s : Agent.State} {occurrence : Occurrence}
    (h : AllBacked env config hexdigest s.trace)
    (hsilent : ∀ deviceId event request created,
      occurrence ≠ .sent deviceId event request (some created)) :
    AllBacked env config hexdigest (s.noting occurrence).trace :=
  allBacked_concat h fun _ deviceId event request created heq =>
    absurd (Prod.mk.inj heq).2 (hsilent deviceId event request created)

theorem routine_allBacked : Routine fun s => AllBacked env config hexdigest s.trace where
  aside s s' hsame hs := by
    rw [hsame.trace]
    exact hs
  recorded s record hs := allBacked_noting hs fun _ _ _ _ => Occurrence.noConfusion
  saving s hs := allBacked_noting hs fun _ _ _ _ => Occurrence.noConfusion

/-! ### One event -/

variable {event : TimelineEvent} {request : InboundRequest}

/-- Between the invocation of the executor and the send. -/
structure Answering (env : Environment) (config : AgentConfig) (hexdigest : Text → Text)
    (event : TimelineEvent) (request : InboundRequest) (s : Agent.State) : Prop where
  backed : AllBacked env config hexdigest s.trace
  executed : (s.incarnation, .executed event request) ∈ s.trace

theorem triple_sendText_backed (hforeign : Foreign config hexdigest event request) {body : Text}
    (hsaid : ∃ n, env.decide n request.execution = .ok (some body)) :
    Triple (Answering env config hexdigest event request)
      (sendText env config event request body)
      (fun _ s => AllBacked env config hexdigest s.trace)
      (fun s => AllBacked env config hexdigest s.trace) := by
  refine triple_bind (R := fun _ => Answering env config hexdigest event request)
    (triple_read fun _ hs => hs) fun deviceId => ?_
  refine triple_bind (R := fun answer s =>
      (∃ m, env.put m ⟨deviceId, config.roomId, body, request.responseTxnId⟩ = answer) ∧
        Answering env config hexdigest event request s)
    (triple_ask fun m _ hs => ⟨⟨m, rfl⟩, hs⟩) fun answer => ?_
  refine triple_bind (R := fun _ s => AllBacked env config hexdigest s.trace)
    (triple_update ?_) fun _ => ?_
  · rintro s ⟨⟨m, rfl⟩, hs⟩
    refine allBacked_concat hs.backed fun k deviceId' event' request' created heq => ?_
    obtain ⟨rfl, hsent⟩ := Prod.mk.inj heq
    obtain ⟨rfl, rfl, rfl, hcreated⟩ := Occurrence.sent.inj hsent
    obtain ⟨n, hn⟩ := hsaid
    exact ⟨hs.executed, hforeign, n, m, body, hn, hcreated⟩
  · exact triple_bind (triple_suspend fun _ hs => hs) fun _ =>
      triple_ofExcept (fun _ _ _ hs => hs) fun _ _ _ hs => hs

theorem triple_respond_backed (hforeign : Foreign config hexdigest event request) {body : Text}
    (hsaid : ∃ n, env.decide n request.execution = .ok (some body))
    (facts : List (Text × Text)) :
    Triple (Answering env config hexdigest event request)
      (respond env config event request body facts)
      (fun _ s => AllBacked env config hexdigest s.trace)
      (fun s => AllBacked env config hexdigest s.trace) := by
  refine triple_bind (R := fun _ s => AllBacked env config hexdigest s.trace)
    (triple_attempt (triple_sendText_backed hforeign hsaid) fun _ _ hs => hs) fun _ => ?_
  exact triple_bind (routine_allBacked.preserves_recordObservation _) fun _ =>
    routine_allBacked.preserves_saveCheckpoint

theorem triple_execute_backed (hforeign : Foreign config hexdigest event request) :
    Triple (fun s => AllBacked env config hexdigest s.trace)
      (execute env config event request)
      (fun _ s => AllBacked env config hexdigest s.trace)
      (fun s => AllBacked env config hexdigest s.trace) := by
  have hleaves : ∀ s, Answering env config hexdigest event request s →
      AllBacked env config hexdigest s.trace := fun _ hs => hs.backed
  refine triple_bind (R := fun _ s => AllBacked env config hexdigest s.trace)
    (triple_update fun _ hs => hs) fun _ => ?_
  refine triple_bind (R := fun _ => Answering env config hexdigest event request)
    (triple_update fun s hs => ?_) fun _ => ?_
  · exact ⟨allBacked_noting hs fun _ _ _ _ => Occurrence.noConfusion,
      List.mem_append_right _ (List.mem_singleton.mpr rfl)⟩
  refine triple_bind (R := fun decided s => (∃ n, env.decide n request.execution = decided) ∧
      Answering env config hexdigest event request s)
    (triple_ask fun n _ hs => ⟨⟨n, rfl⟩, hs⟩) fun decided => ?_
  refine triple_pure_fact fun hdecided => ?_
  refine triple_bind (triple_suspend hleaves) fun _ => ?_
  rcases decided with exc | body | body
  · exact triple_pre (routine_allBacked.preserves_recordObservation _) hleaves
  · exact triple_bind (R := fun _ (s : Agent.State) => AllBacked env config hexdigest s.trace)
      (triple_ask fun _ s hs => hleaves s hs) fun _ =>
        routine_allBacked.preserves_recordObservation _
  · exact triple_bind (R := fun _ => Answering env config hexdigest event request)
      (triple_ask fun _ _ hs => hs) fun facts => triple_respond_backed hforeign hdecided facts

theorem preserves_handle_backed (event : TimelineEvent) :
    Preserves (fun s => AllBacked env config hexdigest s.trace)
      (handle env config hexdigest event) := by
  unfold handle
  split
  · exact triple_ret fun _ hs => hs
  split
  · exact routine_allBacked.preserves_recordObservation _
  rename_i hroom hsender
  refine triple_bind (R := fun inbound (s : Agent.State) =>
      inboundOf config hexdigest event = .ok inbound ∧ AllBacked env config hexdigest s.trace)
    (triple_ofExcept (fun _ hinbound _ hs => ⟨hinbound, hs⟩) fun _ _ _ hs => hs) fun inbound => ?_
  refine triple_pure_fact fun hinbound => ?_
  cases inbound with
  | none => exact routine_allBacked.preserves_recordObservation _
  | some request =>
    refine triple_bind (R := fun _ (s : Agent.State) => AllBacked env config hexdigest s.trace)
      (triple_read fun _ hs => hs) fun decision => ?_
    split
    · exact triple_execute_backed ⟨not_not.mp hroom, hsender, hinbound⟩
    · exact routine_allBacked.preserves_recordObservation _

theorem preserves_dispatch_backed (event : TimelineEvent) :
    Preserves (fun s => AllBacked env config hexdigest s.trace)
      (dispatch env config hexdigest event) :=
  triple_bind (triple_update fun _ hs => allBacked_noting hs fun _ _ _ _ => Occurrence.noConfusion)
    fun _ => triple_bind (preserves_handle_backed event) fun _ =>
      triple_update fun _ hs => allBacked_noting hs fun _ _ _ _ => Occurrence.noConfusion

/-- **Every response an agent ever created is backed**, in any number of incarnations. -/
theorem allBacked_lifetime (file : Option TransportCheckpoint) (iterations : List ℕ) :
    AllBacked env config hexdigest (lifetime env config hexdigest file iterations).trace := by
  refine preserves_lives (S := fun s : Agent.State => AllBacked env config hexdigest s.trace)
    (fun _ => ?_) iterations allBacked_nil
  refine routine_allBacked.preserves_serve preserves_dispatch_backed (fun _ hs => hs) ?_
    (routine_allBacked.preserves_connect fun _ _ hs => hs) _
  intro s hs
  exact allBacked_concat hs fun _ _ _ _ _ heq => Occurrence.noConfusion (Prod.mk.inj heq).2

end Agent

/-! ## 2.  The participant's side -/

section Participant

variable {clock : MonotonicClock} {Seen : Text → Key → Prop} {s s' t : Human.State}

/-- The label delivers no ACK but those that are `Seen`. -/
def Shows (Seen : Text → Key → Prop) : Label → Prop
  | .deliver event _ => ∀ m, parse event.body = .ok (some m) → m.isAck = true →
      Seen event.eventId m.correlation.key
  | _ => True

/-- The event ids noted at a call are ids of ACKs of its key, each noted once, and an
interaction is complete only with one. -/
structure CallEvidenced (Seen : Text → Key → Prop) (call : Call) : Prop where
  nodup : call.interaction.ackEventIds.Nodup
  seen : ∀ e ∈ call.interaction.ackEventIds, Seen e call.interaction.correlation.key
  completed : call.interaction.completedMonotonicNs ≠ none → call.interaction.ackEventIds ≠ []

/-- So it is at every call, and the pending table leads from a key to a call of that key. -/
structure Evidenced (Seen : Text → Key → Prop) (s : Human.State) : Prop where
  pending : ∀ key i, s.pending.get? key = some i →
    ∃ call, s.calls[i]? = some call ∧ call.interaction.correlation.key = key
  calls : ∀ call ∈ s.calls, CallEvidenced Seen call

theorem evidenced_initial (roomId : Option Text) : Evidenced Seen (Human.State.initial roomId) where
  pending key i h := by cases h
  calls call hcall := absurd hcall List.not_mem_nil

theorem callEvidenced_new (correlation : Correlation) (txnId : Text) (t0 : ℕ)
    (timeout : Option ℚ) (phase : Phase) :
    CallEvidenced Seen ⟨.new correlation txnId t0, timeout, phase⟩ where
  nodup := List.nodup_nil
  seen _ he := absurd he List.not_mem_nil
  completed h := absurd rfl h

/-! ### One call -/

/-- The callback adds the event id unless it is there. -/
theorem ackEventIds_observeAck (it : Interaction) (e : Text) (t3 : ℕ) (episode : Option ℕ) :
    (it.observeAck e t3 episode).ackEventIds =
      if e ∈ it.ackEventIds then it.ackEventIds else it.ackEventIds ++ [e] := by
  unfold Interaction.observeAck
  split_ifs <;> rfl

theorem callEvidenced_observeAck {call : Call} (h : CallEvidenced Seen call) {e : Text}
    (hseen : Seen e call.interaction.correlation.key) (t3 : ℕ) (episode : Option ℕ) :
    CallEvidenced Seen
      { call with interaction := call.interaction.observeAck e t3 episode } where
  nodup := by
    rw [ackEventIds_observeAck]
    split_ifs with hmem
    · exact h.nodup
    · exact List.nodup_append_comm.mp (List.nodup_cons.mpr ⟨hmem, h.nodup⟩)
  seen e' he' := by
    rw [observeAck_correlation]
    rw [ackEventIds_observeAck] at he'
    split_ifs at he' with hmem
    · exact h.seen e' he'
    · rcases List.mem_append.mp he' with he' | he'
      · exact h.seen e' he'
      · rw [List.mem_singleton.mp he']
        exact hseen
  completed _ := by
    rw [ackEventIds_observeAck]
    split_ifs with hmem
    · exact List.ne_nil_of_mem hmem
    · exact List.append_ne_nil_of_right_ne_nil _ (List.cons_ne_nil e [])

/-- Everything else that happens to a call leaves what the callback has written. -/
theorem CallEvidenced.of_after {call call' : Call} (h : CallEvidenced Seen call)
    {happening : Happening}
    (hseen : ∀ e t3 episode, happening = .acknowledged e t3 episode →
      Seen e call.interaction.correlation.key)
    (hafter : call.after happening = some call') : CallEvidenced Seen call' := by
  cases becomes_of_after hafter with
  | acknowledged e t3 episode =>
    exact callEvidenced_observeAck h (hseen e t3 episode rfl) t3 episode
  | _ => exact ⟨h.nodup, h.seen, h.completed⟩

/-! ### One step -/

theorem Evidenced.register (h : Evidenced Seen s) {call : Call} (hcall : CallEvidenced Seen call)
    (reads : ℕ) : Evidenced Seen (s.register call reads) where
  pending key i hi := by
    change (s.pending.set call.interaction.correlation.key s.calls.length).get? key = some i at hi
    rw [OrderedDict.get?_set] at hi
    split_ifs at hi with hkey
    · obtain rfl := Option.some_inj.mp hi
      exact ⟨call, List.getElem?_concat_length, hkey.symm⟩
    · obtain ⟨made, hmade, hc⟩ := h.pending key i hi
      exact ⟨made, List.getElem?_append_left (List.getElem?_eq_some_iff.mp hmade).1 ▸ hmade, hc⟩
  calls made hmade := by
    rcases List.mem_append.mp hmade with hmade | hmade
    · exact h.calls made hmade
    · rw [List.mem_singleton.mp hmade]
      exact hcall

theorem Evidenced.of_request (h : Evidenced Seen s) (c : Correlation) (bodyBytes : Option ℤ)
    (timeout : ℚ) : Evidenced Seen (s.request clock c bodyBytes timeout).1 := by
  unfold Human.State.request
  split
  · exact h
  · exact h
  · rename_i txnId _ _
    split
    · exact h.register (callEvidenced_new _ _ _ _ _) _
    · have hregister := h.register (callEvidenced_new c txnId (clock.read (s.reads + 1))
        (some timeout) .sending) 2
      exact ⟨hregister.pending, hregister.calls⟩

theorem Evidenced.of_sendOffline (h : Evidenced Seen s) (c : Correlation) :
    Evidenced Seen (s.sendOffline clock c).1 := by
  unfold Human.State.sendOffline
  split
  · exact h
  · exact h
  · split
    · exact h.register (callEvidenced_new _ _ _ _ _) _
    · exact h.register (callEvidenced_new _ _ _ _ _) _

/-- The callback that finds a call has read its key in the body of an ACK. -/
theorem exists_message_of_ackTarget {event : TimelineEvent} {i : ℕ}
    (h : s.ackTarget event = some i) : ∃ m, parse event.body = .ok (some m) ∧ m.isAck = true ∧
      s.pending.get? m.correlation.key = some i := by
  unfold Human.State.ackTarget at h
  split at h
  · cases h
  split at h
  · cases h
  · cases h
  · rename_i m hparse
    split at h
    · rename_i hack
      exact ⟨m, hparse, hack, h⟩
    · cases h

/-- **The step lemma of the participant's side.** -/
theorem Evidenced.of_step (h : Evidenced Seen s) {l : Label} (hl : Shows Seen l)
    (hstep : step clock s l = some s') : Evidenced Seen s' := by
  have hexternal : l.External → Evidenced Seen s' := by
    intro hexternal
    obtain ⟨-, hpending, hcalls⟩ := step_external hexternal hstep
    rcases hcalls with ⟨i, happening, call, call', hhappening, hcall, hafter, hset⟩ | ⟨-, hsame⟩
    · have hseen : ∀ e t3 episode, happening = .acknowledged e t3 episode →
          Seen e call.interaction.correlation.key := by
        rintro e t3 episode rfl
        cases l with
        | deliver event episode =>
          obtain ⟨j, htarget, hj⟩ := Option.map_eq_some_iff.mp hhappening
          obtain ⟨rfl, hack⟩ := Prod.mk.inj hj
          obtain ⟨rfl, -, -⟩ := Happening.acknowledged.inj hack
          obtain ⟨m, hparse, hisAck, hget⟩ := exists_message_of_ackTarget htarget
          obtain ⟨found, hfound, hkey⟩ := h.pending _ _ hget
          obtain rfl := Option.some_inj.mp (hcall.symm.trans hfound)
          rw [hkey]
          exact hl m hparse hisAck
        | request => cases hhappening
        | sendOffline => cases hhappening
        | _ => cases (Prod.mk.inj (Option.some_inj.mp hhappening)).2
      have hcall' := (h.calls call (List.mem_of_getElem? hcall)).of_after hseen hafter
      constructor
      · intro key j hj
        rw [hpending] at hj
        obtain ⟨made, hmade, hkey⟩ := h.pending key j hj
        rw [hset, List.getElem?_set]
        split_ifs with hij hlength
        · subst hij
          obtain rfl := Option.some_inj.mp (hcall.symm.trans hmade)
          exact ⟨call', rfl, (congrArg Correlation.key (correlation_after hafter)).trans hkey⟩
        · exact absurd (hij ▸ (List.getElem?_eq_some_iff.mp hmade).1) hlength
        · exact ⟨made, hmade, hkey⟩
      · intro made hmade
        rw [hset] at hmade
        rcases List.mem_or_eq_of_mem_set hmade with hmade | rfl
        · exact h.calls made hmade
        · exact hcall'
    · refine ⟨fun key j hj => ?_, fun made hmade => h.calls made (hsame ▸ hmade)⟩
      rw [hsame]
      exact h.pending key j (hpending ▸ hj)
  cases l with
  | request c bodyBytes timeout =>
    rw [← Option.some_inj.mp hstep]
    exact h.of_request c bodyBytes timeout
  | sendOffline c =>
    rw [← Option.some_inj.mp hstep]
    exact h.of_sendOffline c
  | _ => exact hexternal trivial

/-- **The run lemma**: what is said of all ACKs delivered is true of all event ids noted. -/
theorem evidenced_of_exec {roomId : Option Text} {labels : List Label}
    (hlabels : ∀ l ∈ labels, Shows Seen l)
    (hrun : exec (step clock) (Human.State.initial roomId) labels = some t) : Evidenced Seen t :=
  invariant_of_exec_of_forall (Evidenced Seen) (Shows Seen)
    (fun _ _ _ hl h hstep => h.of_step hl hstep) hlabels (evidenced_initial roomId) hrun

end Participant

/-! ## 3.  The room -/

section Room

variable {env : Environment} {config : AgentConfig} {hexdigest : Text → Text}
  {x : DeterministicExecutor} {clock : MonotonicClock} {roomId : Option Text}
  {labels : List Label} {t : Human.State} {trace : List (ℕ × Occurrence)}

/-- What the agent says is what the deterministic executor decided. -/
def Says (env : Environment) (x : DeterministicExecutor) : Prop :=
  ∀ n request body, env.decide n request = .ok (some body) → x.decide request = .ok (some body)

/-- The event a send created. -/
def createdEvent : ℕ × Occurrence → Option Text
  | (_, .sent _ _ _ created) => created
  | _ => none

theorem exists_sent_of_mem_created {e : Text} (h : e ∈ trace.filterMap createdEvent) :
    ∃ k deviceId source request, (k, .sent deviceId source request (some e)) ∈ trace := by
  obtain ⟨⟨k, occurrence⟩, hmem, hcreated⟩ := List.mem_filterMap.mp h
  cases occurrence with
  | sent deviceId source request created =>
    obtain rfl : created = some e := hcreated
    exact ⟨k, deviceId, source, request, hmem⟩
  | _ => cases hcreated

/-- The room the two share: an event that is delivered has the body it was created with, and
an ACK that is delivered was created by a send of the agent. -/
structure SharedRoom (env : Environment) (trace : List (ℕ × Occurrence)) (labels : List Label) :
    Prop where
  bodies : ∀ event episode, .deliver event episode ∈ labels →
    ∀ n query, (env.put n query).created = some event.eventId → event.body = query.body
  acks : ∀ event episode, .deliver event episode ∈ labels →
    ∀ m, parse event.body = .ok (some m) → m.isAck = true →
      event.eventId ∈ trace.filterMap createdEvent

/-- The event is the response to a request under `key`, and the executor was invoked for that
request before. -/
structure Answers (config : AgentConfig) (trace : List (ℕ × Occurrence)) (eventId : Text)
    (key : Key) (k : ℕ) (deviceId : Text) (source : TimelineEvent) (request : InboundRequest) :
    Prop where
  order : ∃ front back, trace = front ++ (k, .sent deviceId source request (some eventId)) :: back ∧
    (k, .executed source request) ∈ front
  controlled : ∃ message, ControlledRequest config source message ∧ message.correlation.key = key
  key : request.correlationKey = key

/-- The executor is asked about the message that the source parses to. -/
theorem execution_of_controlledInbound {source : Text} {request : InboundRequest}
    (h : controlledInbound source = .ok (some request)) :
    ∃ message, parse source = .ok (some message) ∧ request.execution = ⟨source, some message⟩ ∧
      request.correlationKey = message.correlation.key := by
  unfold controlledInbound at h
  cases hparse : parse source with
  | error e =>
    rw [hparse] at h
    cases h
  | ok found =>
    rw [hparse] at h
    cases found with
    | none => cases h
    | some message =>
      change (if message.isRequest = true then _ else _) = _ at h
      split at h
      · cases htxn : message.correlation.txnId Direction.response.value with
        | error e =>
          rw [htxn] at h
          cases h
        | ok txn =>
          rw [htxn] at h
          obtain rfl : _ = request := Option.some_inj.mp (Except.ok.inj h)
          exact ⟨message, rfl, rfl, rfl⟩
      · cases h

/-- What the deterministic executor says is an ACK of the message it was asked about. -/
theorem buildAck_of_decide {source body : Text} {message : ParsedMessage}
    (h : x.decide ⟨source, some message⟩ = .ok (some body)) :
    buildAck message.correlation x.bodyBytes = .ok body := by
  unfold DeterministicExecutor.decide at h
  dsimp only at h
  split at h
  · cases h
  · cases hsize : x.bodyBytes with
    | none =>
      rw [hsize] at h
      cases hbuilt : buildAck message.correlation none with
      | error e =>
        rw [hbuilt] at h
        cases h
      | ok built =>
        rw [hbuilt] at h
        exact congrArg Except.ok (Option.some_inj.mp (Except.ok.inj h))
    | some size =>
      rw [hsize] at h
      cases hbuilt : buildAck message.correlation (some size) with
      | error e =>
        rw [hbuilt] at h
        cases h
      | ok built =>
        rw [hbuilt] at h
        cases hlength : assertBodyLength built size with
        | error e =>
          simp only [hlength] at h
          cases h
        | ok done =>
          simp only [hlength] at h
          exact congrArg Except.ok (Option.some_inj.mp (Except.ok.inj h))

/-- What the executor says about a request of the agent parses to the key of the request. -/
theorem key_of_says (hprotocol : config.requestProtocol = .controlled) {source : TimelineEvent}
    {request : InboundRequest} (hforeign : Foreign config hexdigest source request) {body : Text}
    (hsaid : x.decide request.execution = .ok (some body)) {reply : ParsedMessage}
    (hreply : parse body = .ok (some reply)) :
    reply.correlation.key = request.correlationKey := by
  have hinbound := hforeign.inbound
  rw [inboundOf_controlled hprotocol] at hinbound
  cases hcontrolled : controlledInbound source.body with
  | error e =>
    rw [hcontrolled] at hinbound
    cases hinbound
  | ok found =>
    rw [hcontrolled] at hinbound
    obtain rfl : found = some request := Except.ok.inj hinbound
    obtain ⟨message, hparse, hexecution, hkey⟩ := execution_of_controlledInbound hcontrolled
    rw [hexecution] at hsaid
    obtain ⟨built, hbuilt, -, hsame⟩ :=
      (clean_of_parse hparse).parse_of_buildBody (buildAck_of_decide hsaid)
    obtain rfl := Option.some_inj.mp (Except.ok.inj (hreply.symm.trans hbuilt))
    exact hsame.trans hkey.symm

/-- An ACK that is delivered answers a request under its key. -/
theorem exists_answers (hprotocol : config.requestProtocol = .controlled) (hspeaks : Says env x)
    (hbacked : AllBacked env config hexdigest trace) (hroom : SharedRoom env trace labels) :
    ∀ l ∈ labels, Shows (fun e key => ∃ k deviceId source request,
      Answers config trace e key k deviceId source request) l := by
  intro l hl
  cases l with
  | deliver event episode =>
    intro m hparse hack
    obtain ⟨k, deviceId, source, request, hsent⟩ :=
      exists_sent_of_mem_created (hroom.acks event episode hl m hparse hack)
    obtain ⟨front, back, htrace⟩ := List.append_of_mem hsent
    have hprefix : front ++ [(k, .sent deviceId source request (some event.eventId))] <+: trace :=
      ⟨back, by rw [htrace, List.append_assoc]; rfl⟩
    have hback := hbacked front k deviceId source request event.eventId hprefix
    obtain ⟨n, j, body, hdecide, hcreated⟩ := hback.said
    obtain rfl : event.body = body := hroom.bodies event episode hl j _ hcreated
    have hkey := key_of_says hprotocol hback.foreign (hspeaks n _ _ hdecide) hparse
    refine ⟨k, deviceId, source, request, ⟨front, back, htrace, hback.executed⟩, ?_, hkey.symm⟩
    exact (exists_foreign_iff hprotocol).mp ⟨request, hback.foreign, hkey.symm⟩
  | _ => trivial

theorem ne_none_of_success {it : Interaction} (h : outcomeOf it = .success) :
    it.completedMonotonicNs ≠ none := by
  unfold outcomeOf at h
  split_ifs at h with herror htimeout
  exact fun hnone => htimeout (Or.inr hnone)

/-- The small deployment with the deterministic executor, and events that are named after their
bodies. -/
def deterministicEnvironment (crash stop : ℕ) (creates : List ℕ) : Environment :=
  { smallEnvironment crash stop creates with
    decide := fun _ request =>
      ((⟨none, Or.inl rfl⟩ : DeterministicExecutor).decide request).mapError
        fun _ => ⟨[], false, none⟩
    put := fun n query =>
      ⟨if n ∈ creates then some ('$' :: query.body) else none, .ok ('$' :: query.body)⟩ }

theorem says_deterministic (crash stop : ℕ) (creates : List ℕ) :
    Says (deterministicEnvironment crash stop creates) ⟨none, Or.inl rfl⟩ := by
  intro n request body h
  change ((⟨none, Or.inl rfl⟩ : DeterministicExecutor).decide request).mapError _ = _ at h
  cases hdecide : (⟨none, Or.inl rfl⟩ : DeterministicExecutor).decide request with
  | error e =>
    rw [hdecide] at h
    cases h
  | ok said =>
    rw [hdecide] at h
    exact congrArg Except.ok (Except.ok.inj h)

/-- `FAM/1 ACK E0 r 00002`. -/
def secondAck : Text := "FAM/1 ACK E0 r 00002".toList

theorem matchesToken_e0 : matchesToken ['E', '0'] = true := by decide

theorem matchesToken_run : matchesToken ['r'] = true := by decide

/-- A request whose ACK is delivered twice, once before the send returns. -/
def crashLabels : List Label :=
  [.request ⟨['E', '0'], ['r'], 2, matchesToken_e0, matchesToken_run⟩ none 10,
    .deliver ⟨['R'], '$' :: secondAck, ['@', 'a'], secondAck, 0⟩ none,
    .sendReturned 0 ['$', '1'],
    .deliver ⟨['R'], '$' :: secondAck, ['@', 'a'], secondAck, 0⟩ none]

/-- The record of an agent that dies between the send of that ACK and the save. -/
def crashTrace : List (ℕ × Occurrence) :=
  (lifetime (deterministicEnvironment 28 1000 [27, 58]) (smallConfig .controlled) id none
    [1, 2]).trace

theorem sharedRoom_crash :
    SharedRoom (deterministicEnvironment 28 1000 [27, 58]) crashTrace crashLabels where
  bodies event episode hmem n query hcreated := by
    have hbody : event.eventId = '$' :: event.body := by
      simp only [crashLabels, List.mem_cons, List.not_mem_nil, or_false] at hmem
      rcases hmem with h | h | h | h <;> cases h <;> rfl
    change (if n ∈ [27, 58] then some ('$' :: query.body) else none) =
      some event.eventId at hcreated
    split_ifs at hcreated
    rw [hbody] at hcreated
    exact (List.cons.inj (Option.some_inj.mp hcreated)).2.symm
  acks event episode hmem m _ _ := by
    have hid : event.eventId = '$' :: secondAck := by
      simp only [crashLabels, List.mem_cons, List.not_mem_nil, or_false] at hmem
      rcases hmem with h | h | h | h <;> cases h <;> rfl
    rw [hid]
    decide +kernel

theorem eq_of_length_le_one {α : Type*} {l : List α} (h : l.length ≤ 1) {a b : α} (ha : a ∈ l)
    (hb : b ∈ l) : a = b := by
  obtain ⟨i, hi, rfl⟩ := List.mem_iff_getElem.mp ha
  obtain ⟨j, hj, rfl⟩ := List.mem_iff_getElem.mp hb
  obtain rfl : i = j := by omega
  rfl

/-- The entries that created an event under a pair. -/
def sentUnder (pair : Text × Text) (entry : ℕ × Occurrence) : Option (ℕ × Occurrence) :=
  if createdUnder entry = some pair then some entry else none

theorem sentUnder_eq {pair : Text × Text} {entry : ℕ × Occurrence}
    (h : createdUnder entry = some pair) : sentUnder pair entry = some entry := if_pos h

/-- Two responses created under one pair of device and transaction are one. -/
theorem created_eq (hrepeats : AnswersRepeats trace) {k k' : ℕ} {deviceId : Text}
    {source source' : TimelineEvent} {request request' : InboundRequest} {e e' : Text}
    (h : (k, .sent deviceId source request (some e)) ∈ trace)
    (h' : (k', .sent deviceId source' request' (some e')) ∈ trace)
    (htxn : request.responseTxnId = request'.responseTxnId) : e = e' := by
  have hone : (trace.filterMap (sentUnder (deviceId, request.responseTxnId))).length ≤ 1 :=
    length_filterMap_le_one hrepeats (deviceId, request.responseTxnId) fun entry _ hsome => by
      by_contra hne
      rw [sentUnder, if_neg hne] at hsome
      cases hsome
  have hunder : createdUnder (k', .sent deviceId source' request' (some e')) =
      some (deviceId, request.responseTxnId) := by
    rw [htxn]
    rfl
  have hmem := List.mem_filterMap.mpr ⟨_, h, sentUnder_eq rfl⟩
  have hmem' := List.mem_filterMap.mpr ⟨_, h', sentUnder_eq hunder⟩
  have heq := eq_of_length_le_one hone hmem hmem'
  obtain ⟨-, -, -, hcreated⟩ := Occurrence.sent.inj (Prod.mk.inj heq).2
  exact Option.some_inj.mp hcreated

theorem keepsSession_deterministic (crash stop : ℕ) (creates : List ℕ) (name : ProtocolName) :
    KeepsSession (deterministicEnvironment crash stop creates) (smallConfig name) where
  login n session h := (keepsSession_small crash stop creates name).login n session h
  whoami n userId h := (keepsSession_small crash stop creates name).whoami n userId h

end Room

end EndToEnd
end FederatedMessaging
