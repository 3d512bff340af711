import FederatedMessaging.Agent.Runs

/-!
# At most one response event for each request

The registry that keeps an incarnation from answering twice is lost with the process, so
after a crash between a send and the next save the same request is executed and sent
again.  What keeps the room clean is the homeserver, which knows a send by its device and
transaction identifier.  Two facts make every repetition carry the same pair:

* the device is the one in the checkpoint file, from the first save on --- no send
  happens before it, and every later incarnation resumes the stored session;
* the transaction identifier is a function of the logical request, for both protocols
  (`responseTxnId_eq_of_correlationKey_eq`).

The first is an invariant over crash points and restarts (`Offline`, `Online`), the
second a property of the protocols.
-/

namespace FederatedMessaging
namespace Agent

open PythonText Message FederatedMessaging.Matrix CrashPrograms CrashPrograms.Prog

variable {env : Environment} {config : AgentConfig} {hexdigest : Text → Text}

/-! ## What is assumed of the homeserver -/

/-- A session that was handed out stays valid: it is nonempty, and it is still the
agent's whenever the homeserver is asked whose it is. -/
structure KeepsSession (env : Environment) (config : AgentConfig) : Prop where
  login : ∀ n session, env.login n = .ok session →
    session.accessToken ≠ [] ∧ session.deviceId ≠ []
  whoami : ∀ n userId, env.whoami n = .ok userId → userId = config.userId

/-- The device and transaction identifier of a send that created an event. -/
def createdUnder : ℕ × Occurrence → Option (Text × Text)
  | (_, .sent deviceId _ request (some _)) => some (deviceId, request.responseTxnId)
  | _ => none

/-- A repeated pair of device and transaction identifier creates no second event. -/
def AnswersRepeats (trace : List (ℕ × Occurrence)) : Prop :=
  (trace.filterMap createdUnder).Nodup

instance (trace : List (ℕ × Occurrence)) : Decidable (AnswersRepeats trace) :=
  inferInstanceAs (Decidable (List.Nodup _))

/-! ## Logical requests -/

/-- The identity of a request: its correlation key, or its source event. -/
inductive LogicalRequest where
  | controlled (key : Key)
  | naturalLanguage (eventId : Text)
  deriving DecidableEq

/-- The logical request of an event. -/
def logicalRequest (name : ProtocolName) (event : TimelineEvent) (request : InboundRequest) :
    LogicalRequest :=
  match name with
  | .controlled => .controlled request.correlationKey
  | .naturalLanguage => .naturalLanguage event.eventId

/-- The response event a send created in the room, if it answers the logical request. -/
def responseTo (name : ProtocolName) (logical : LogicalRequest) :
    ℕ × Occurrence → Option Text
  | (_, .sent _ event request (some eventId)) =>
    if logicalRequest name event request = logical then some eventId else none
  | _ => none

/-- Requests with the same identity are answered under the same transaction
identifier. -/
theorem responseTxnId_eq_of_logicalRequest_eq {event event' : TimelineEvent}
    {request request' : InboundRequest} (h : Foreign config hexdigest event request)
    (h' : Foreign config hexdigest event' request')
    (heq : logicalRequest config.requestProtocol event request =
      logicalRequest config.requestProtocol event' request') :
    request.responseTxnId = request'.responseTxnId := by
  have hok {e : TimelineEvent} {r : InboundRequest} (hf : Foreign config hexdigest e r) :
      (build config.requestProtocol config.userId).inbound hexdigest e.eventId e.sender e.body =
        .ok (some r) := by
    have hinbound := hf.inbound
    unfold inboundOf at hinbound
    cases hcase : (build config.requestProtocol config.userId).inbound hexdigest e.eventId
        e.sender e.body with
    | error fault =>
      rw [hcase] at hinbound
      cases hinbound
    | ok found =>
      rw [hcase] at hinbound
      exact congrArg Except.ok (Except.ok.inj hinbound)
  refine responseTxnId_eq_of_correlationKey_eq (hok h) (hok h') ?_
  cases hname : config.requestProtocol with
  | controlled =>
    rw [hname] at heq
    exact LogicalRequest.controlled.inj heq
  | naturalLanguage =>
    rw [hname] at heq
    have hin := hok h
    have hin' := hok h'
    rw [hname] at hin hin'
    exact (correlationKey_eq_iff_of_naturalLanguage hin hin').mpr
      (LogicalRequest.naturalLanguage.inj heq)

/-! ## One device -/

/-- Every send on record carries a request, and came from the device in the file; without
a file there is none. -/
structure Offline (config : AgentConfig) (hexdigest : Text → Text) (s : State) : Prop where
  foreign : ∀ k deviceId event request created,
    (k, .sent deviceId event request created) ∈ s.trace → Foreign config hexdigest event request
  device : ∀ k deviceId event request created,
    (k, .sent deviceId event request created) ∈ s.trace →
    s.file.map TransportCheckpoint.deviceId = some deviceId
  stored : ∀ c, s.file = some c → c.accessToken ≠ [] ∧ c.deviceId ≠ []

/-- The session in memory is nonempty, and it is the one in the file. -/
structure InSession (config : AgentConfig) (hexdigest : Text → Text) (s : State) : Prop
    extends Offline config hexdigest s where
  nonempty : s.session.accessToken ≠ [] ∧ s.session.deviceId ≠ []
  same : ∀ c, s.file = some c → s.session = ⟨c.accessToken, c.deviceId⟩

/-- The session in memory is in the file. -/
structure Online (config : AgentConfig) (hexdigest : Text → Text) (s : State) : Prop
    extends InSession config hexdigest s where
  saved : s.file.isSome = true

section Device

variable {s : State}

theorem Offline.noting (h : Offline config hexdigest s) {occurrence : Occurrence}
    (hsent : ∀ deviceId event request created,
      occurrence ≠ .sent deviceId event request created) :
    Offline config hexdigest (s.noting occurrence) := by
  have hold {k : ℕ} {deviceId event request created}
      (hmem : (k, Occurrence.sent deviceId event request created) ∈
        (s.noting occurrence).trace) :
      (k, Occurrence.sent deviceId event request created) ∈ s.trace := by
    rcases List.mem_append.mp hmem with hmem | hmem
    · exact hmem
    · exact absurd (Prod.mk.inj (List.mem_singleton.mp hmem)).2.symm (hsent _ _ _ _)
  exact ⟨fun k d e r c hmem => h.foreign k d e r c (hold hmem),
    fun k d e r c hmem => h.device k d e r c (hold hmem), h.stored⟩

theorem InSession.noting (h : InSession config hexdigest s) {occurrence : Occurrence}
    (hsent : ∀ deviceId event request created,
      occurrence ≠ .sent deviceId event request created) :
    InSession config hexdigest (s.noting occurrence) :=
  ⟨h.toOffline.noting hsent, h.nonempty, h.same⟩

theorem Online.noting (h : Online config hexdigest s) {occurrence : Occurrence}
    (hsent : ∀ deviceId event request created,
      occurrence ≠ .sent deviceId event request created) :
    Online config hexdigest (s.noting occurrence) :=
  ⟨h.toInSession.noting hsent, h.saved⟩

/-- A save writes the session that is in the file already, or the first one. -/
theorem InSession.saving (h : InSession config hexdigest s) :
    Online config hexdigest s.saving := by
  have hnoting : InSession config hexdigest (s.noting (.saved
      ⟨s.session.accessToken, s.session.deviceId, s.syncToken⟩)) :=
    h.noting (by intros; exact nofun)
  refine ⟨⟨⟨hnoting.foreign, fun k d e r c hmem => ?_, ?_⟩, h.nonempty, ?_⟩, rfl⟩
  · obtain ⟨file, hfile, hdevice⟩ := Option.map_eq_some_iff.mp (hnoting.device k d e r c hmem)
    rw [← hdevice]
    exact congrArg (fun session : Session => some session.deviceId) (h.same file hfile)
  · intro c hc
    obtain rfl := Option.some_inj.mp hc
    exact h.nonempty
  · intro c hc
    obtain rfl := Option.some_inj.mp hc
    rfl

theorem offline_of_sameCore {s' : State} (hsame : SameCore s s')
    (h : Offline config hexdigest s) : Offline config hexdigest s' := by
  refine ⟨?_, ?_, ?_⟩
  · rw [hsame.trace]
    exact h.foreign
  · rw [hsame.trace, hsame.file]
    exact h.device
  · rw [hsame.file]
    exact h.stored

theorem routine_inSession : Routine (InSession config hexdigest) where
  aside s s' hsame h := by
    refine ⟨offline_of_sameCore hsame h.toOffline, ?_, ?_⟩
    · rw [hsame.session]
      exact h.nonempty
    · rw [hsame.session, hsame.file]
      exact h.same
  recorded s record h := h.noting (by intros; exact nofun)
  saving s h := h.saving.toInSession

theorem routine_online : Routine (Online config hexdigest) where
  aside s s' hsame h := ⟨routine_inSession.aside s s' hsame h.toInSession, by
    rw [hsame.file]
    exact h.saved⟩
  recorded s record h := h.noting (by intros; exact nofun)
  saving s h := h.toInSession.saving

theorem survives_online (event : TimelineEvent) :
    SurvivesEvent config hexdigest (Online config hexdigest) (Online config hexdigest) event
      (fun _ => Online config hexdigest) where
  ignored s _ h := h.noting (by intros; exact nofun)
  duplicate s _ _ _ h := h.noting (by intros; exact nofun)
  executing s request _ _ h := by
    have hpassed : Online config hexdigest (s.noting (.passed event)) :=
      h.noting (by intros; exact nofun)
    have hcommitted : Online config hexdigest { s.noting (.passed event) with
        registry := s.registry.commit event.eventId request.correlationKey } :=
      ⟨⟨⟨hpassed.foreign, hpassed.device, hpassed.stored⟩, hpassed.nonempty, hpassed.same⟩,
        hpassed.saved⟩
    exact hcommitted.noting (by intros; exact nofun)
  answering _ _ h := h
  sent s request created hforeign h := by
    refine ⟨⟨⟨fun k d e r c hmem => ?_, fun k d e r c hmem => ?_, h.stored⟩, h.nonempty,
      h.same⟩, h.saved⟩
    · rcases List.mem_append.mp hmem with hmem | hmem
      · exact h.foreign k d e r c hmem
      · obtain ⟨-, hsent⟩ := Prod.mk.inj (List.mem_singleton.mp hmem)
        obtain ⟨-, rfl, rfl, -⟩ := Occurrence.sent.inj hsent
        exact hforeign
    · rcases List.mem_append.mp hmem with hmem | hmem
      · exact h.device k d e r c hmem
      · obtain ⟨-, hsent⟩ := Prod.mk.inj (List.mem_singleton.mp hmem)
        obtain ⟨rfl, -, -, -⟩ := Occurrence.sent.inj hsent
        obtain ⟨file, hfile⟩ := Option.isSome_iff_exists.mp h.saved
        change s.file.map TransportCheckpoint.deviceId = some s.session.deviceId
        rw [hfile, h.same file hfile]
        rfl
  recorded s record h := h.noting (by intros; exact nofun)
  saving s h := h.toInSession.saving

end Device

/-! ## Connecting and restarting -/

section Restart

variable (hsession : KeepsSession env config)
include hsession

theorem triple_login {P : State → Prop} (hP : ∀ s, P s → Offline config hexdigest s)
    (hfile : ∀ s, P s → s.file = none) :
    Triple P (login env) (fun _ => InSession config hexdigest) (Offline config hexdigest) := by
  refine triple_bind (triple_awaitAnswer hP) fun session => triple_update ?_
  rintro s ⟨⟨n, hn⟩, hs⟩
  have hoffline := hP s hs
  refine ⟨⟨hoffline.foreign, hoffline.device, hoffline.stored⟩, hsession.login n session hn, ?_⟩
  intro c hc
  exact absurd (hc.symm.trans (hfile s hs)) (by simp)

theorem triple_resumeOrLogin (stored : Option TransportCheckpoint) :
    Triple (fun s => Offline config hexdigest s ∧ s.file = stored)
      (resumeOrLogin env config stored) (fun _ => InSession config hexdigest)
      (Offline config hexdigest) := by
  cases stored with
  | none => exact triple_login hsession (fun _ hs => hs.1) fun _ hs => hs.2
  | some c =>
    by_cases hne : c.accessToken ≠ [] ∧ c.deviceId ≠ []
    · have htruthy {t : Text} (ht : t ≠ []) : truthy (some t) = some t := by
        cases t with
        | nil => exact absurd rfl ht
        | cons _ _ => rfl
      unfold resumeOrLogin
      rw [Option.map_some, Option.map_some, htruthy hne.1, htruthy hne.2]
      refine triple_bind (R := fun _ s => InSession config hexdigest s)
        (triple_update ?_) fun _ => ?_
      · rintro s ⟨hs, hfile⟩
        refine ⟨⟨hs.foreign, hs.device, hs.stored⟩, hne, fun c' hc' => ?_⟩
        obtain rfl := Option.some_inj.mp (hfile.symm.trans hc')
        rfl
      refine triple_consequence (P := InSession config hexdigest) (E := InSession config hexdigest)
        (Q := fun _ => InSession config hexdigest) ?_ (fun _ hs => hs) (fun _ _ hs => hs)
        fun _ hs => hs.toOffline
      refine triple_bind (triple_awaitAnswer fun _ hs => hs) fun observed => ?_
      refine triple_pure_fact ?_
      rintro ⟨n, hn⟩
      rw [if_neg (not_not.mpr (hsession.whoami n observed hn))]
      exact routine_inSession.preserves_aside fun _ => ⟨rfl, rfl, rfl, rfl, rfl⟩
    · intro n s hs
      exact absurd (hs.1.stored c hs.2) hne

/-- Between incarnations the invariant holds, however the last one ended. -/
theorem offline_lifetime (iterations : List ℕ) :
    Offline config hexdigest (lifetime env config hexdigest none iterations) := by
  refine preserves_lives (S := Offline config hexdigest) (fun _ => ?_) iterations ?_
  · refine routine_online.preserves_serve
      (fun event => preserves_dispatch (survives_online event) fun s h =>
        h.noting (by intros; exact nofun)) (fun s h => h.toOffline) (fun s h => ?_) ?_ _
    · have hstarted (k : ℕ) {k' : ℕ} {d e r c}
          (hmem : (k', Occurrence.sent d e r c) ∈ s.trace ++ [(k, Occurrence.started)]) :
          (k', Occurrence.sent d e r c) ∈ s.trace := by
        simpa using hmem
      exact ⟨fun k d e r c hmem => h.foreign k d e r c (hstarted _ hmem),
        fun k d e r c hmem => h.device k d e r c (hstarted _ hmem), h.stored⟩
    · exact routine_inSession.triple_connect (fun s h => h.toOffline)
        (triple_resumeOrLogin hsession) fun s h => h.saving
  · exact ⟨fun _ _ _ _ _ hmem => (nomatch hmem), fun _ _ _ _ _ hmem => (nomatch hmem),
      fun _ hc => (nomatch hc)⟩

end Restart

/-! ## The room -/

/-- A list without repetitions whose members are all the same has at most one. -/
theorem length_filterMap_le_one {α β γ : Type*} {f : α → Option β} {g : α → Option γ}
    {l : List α} (hnodup : (l.filterMap f).Nodup) (p : β)
    (h : ∀ a ∈ l, (g a).isSome = true → f a = some p) : (l.filterMap g).length ≤ 1 := by
  induction l with
  | nil => exact Nat.zero_le _
  | cons a l ih =>
    have htail : (l.filterMap f).Nodup := hnodup.sublist ((List.sublist_cons_self a l).filterMap f)
    have hl := fun b hb => h b (List.mem_cons_of_mem a hb)
    cases ha : g a with
    | none =>
      rw [List.filterMap_cons_none ha]
      exact ih htail hl
    | some c =>
      have hfa : f a = some p := h a List.mem_cons_self (by rw [ha]; rfl)
      rw [List.filterMap_cons_some hfa] at hnodup
      have hnone : l.filterMap g = [] := by
        rw [List.filterMap_eq_nil_iff]
        intro b hb
        by_contra hsome
        exact (List.nodup_cons.mp hnodup).1 (List.mem_filterMap.mpr
          ⟨b, hb, hl b hb (Option.isSome_iff_ne_none.mpr hsome)⟩)
      rw [List.filterMap_cons_some ha, hnone]
      exact le_rfl

/-- **At most one response event for each logical request.**  In every run of any number
of incarnations that resume the device session, with either protocol, whatever crashes and
whatever is delivered again. -/
theorem responses_length_le_one (hsession : KeepsSession env config) (iterations : List ℕ)
    (hrepeats : AnswersRepeats (lifetime env config hexdigest none iterations).trace)
    (logical : LogicalRequest) :
    ((lifetime env config hexdigest none iterations).trace.filterMap
      (responseTo config.requestProtocol logical)).length ≤ 1 := by
  have hoffline : Offline config hexdigest (lifetime env config hexdigest none iterations) :=
    offline_lifetime hsession iterations
  set trace := (lifetime env config hexdigest none iterations).trace with htrace
  -- Any two created responses to the request went out under the same pair.
  have hcreated {entry : ℕ × Occurrence} (hmem : entry ∈ trace)
      (hresponse : (responseTo config.requestProtocol logical entry).isSome = true) :
      ∃ k deviceId event request eventId,
        entry = (k, .sent deviceId event request (some eventId)) ∧
        logicalRequest config.requestProtocol event request = logical ∧
        Foreign config hexdigest event request ∧
        (lifetime env config hexdigest none iterations).file.map
          TransportCheckpoint.deviceId = some deviceId := by
    obtain ⟨k, occurrence⟩ := entry
    cases occurrence with
    | sent deviceId event request created =>
      cases created with
      | none => cases hresponse
      | some eventId =>
        refine ⟨k, deviceId, event, request, eventId, rfl, ?_,
          hoffline.foreign k deviceId event request _ hmem,
          hoffline.device k deviceId event request _ hmem⟩
        by_contra hne
        simp [responseTo, hne] at hresponse
    | _ => cases hresponse
  by_cases hany : ∃ entry ∈ trace,
      (responseTo config.requestProtocol logical entry).isSome = true
  · obtain ⟨entry, hmem, hresponse⟩ := hany
    obtain ⟨k, deviceId, event, request, eventId, rfl, hlogical, hforeign, hdevice⟩ :=
      hcreated hmem hresponse
    refine length_filterMap_le_one hrepeats (deviceId, request.responseTxnId) ?_
    intro entry' hmem' hresponse'
    obtain ⟨k', deviceId', event', request', eventId', rfl, hlogical', hforeign', hdevice'⟩ :=
      hcreated hmem' hresponse'
    obtain rfl := Option.some_inj.mp (hdevice.symm.trans hdevice')
    rw [createdUnder, responseTxnId_eq_of_logicalRequest_eq hforeign' hforeign
      (hlogical'.trans hlogical.symm)]
  · have hnone : trace.filterMap (responseTo config.requestProtocol logical) = [] := by
      rw [List.filterMap_eq_nil_iff]
      intro entry hmem
      by_contra hsome
      exact hany ⟨entry, hmem, Option.isSome_iff_ne_none.mpr hsome⟩
    rw [hnone]
    exact Nat.zero_le _

theorem keepsSession_small (crash stop : ℕ) (creates : List ℕ) (name : ProtocolName) :
    KeepsSession (smallEnvironment crash stop creates) (smallConfig name) where
  login n session h := by
    obtain rfl := Except.ok.inj h
    exact ⟨by decide, by decide⟩
  whoami n userId h := (Except.ok.inj h).symm

/-- The agent that dies between a send and the save answers the request again after the
restart, and the room has one response. -/
theorem responses_after_crash :
    ((lifetime (smallEnvironment 28 1000 [27, 58]) (smallConfig .controlled) id none
      [1, 2]).trace.filterMap (responseTo .controlled (.controlled (['E', '0'], ['r'], 2)))).length
      ≤ 1 ∧
    ((lifetime (smallEnvironment 28 1000 [27, 58]) (smallConfig .controlled) id none
      [1, 2]).trace.filterMap createdUnder).length = 2 :=
  ⟨responses_length_le_one (keepsSession_small 28 1000 [27, 58] .controlled) [1, 2]
    (by decide +kernel) _, by decide +kernel⟩

end Agent
end FederatedMessaging
