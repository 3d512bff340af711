import FederatedMessaging.Agent.Runs

/-!
# Exactly-once execution within one incarnation

Two identities decide whether a request is new, the event id and the correlation key.
The registry marks both before the executor runs, the recovery ledger marks the event
id after the whole call, and a batch that fails half way is delivered again.  This file
shows that none of it matters: in every incarnation the keys that were executed are
exactly the keys of the foreign requests that reached `_handle`, each once.

## The account of an incarnation

`Accounted registry occurrences` ties the registry to what happened since the boot.  Its
central clause is that every foreign request that was passed has its key in the
registry.  A request can only miss its entry if the registry takes its event id for
another event's, and that is what the assumption on event ids rules out: `SameIds`, equal
ids come with equal senders and bodies.

`Accounted` depends on the past through the premise `SameIds` only, which is about the
whole incarnation; it is therefore carried as an implication, and weakened from a longer
record to a shorter one.
-/

namespace FederatedMessaging
namespace Agent

open PythonText Message FederatedMessaging.Matrix CrashPrograms CrashPrograms.Prog

variable {env : Environment} {config : AgentConfig} {hexdigest : Text → Text}

/-! ## What happened during an incarnation -/

/-- What happened during incarnation `k`. -/
def State.during (s : State) (k : ℕ) : List Occurrence :=
  s.trace.filterMap fun entry => if entry.1 = k then some entry.2 else none

theorem mem_during {s : State} {k : ℕ} {occurrence : Occurrence} :
    occurrence ∈ s.during k ↔ (k, occurrence) ∈ s.trace := by
  unfold State.during
  rw [List.mem_filterMap]
  constructor
  · rintro ⟨⟨k', occurrence'⟩, hmem, h⟩
    split at h
    · rename_i hk
      obtain rfl : k' = k := hk
      obtain rfl := Option.some_inj.mp h
      exact hmem
    · cases h
  · intro hmem
    exact ⟨_, hmem, if_pos rfl⟩

theorem during_noting_self (s : State) (occurrence : Occurrence) :
    (s.noting occurrence).during s.incarnation = s.during s.incarnation ++ [occurrence] := by
  simp [State.during, State.noting, List.filterMap_append]

theorem during_noting_of_ne {s : State} {k : ℕ} (hk : s.incarnation ≠ k)
    (occurrence : Occurrence) : (s.noting occurrence).during k = s.during k := by
  simp [State.during, State.noting, List.filterMap_append, hk]

/-- The key of an invocation of the executor. -/
def executedKey : Occurrence → Option Key
  | .executed _ request => some request.correlationKey
  | _ => none

/-- The key of a send. -/
def sentKey : Occurrence → Option Key
  | .sent _ _ request _ => some request.correlationKey
  | _ => none

/-- What neither calls, nor executes, nor sends. -/
def Occurrence.silent : Occurrence → Bool
  | .passed _ => false
  | .executed _ _ => false
  | .sent _ _ _ _ => false
  | _ => true

/-- Equal event ids come with equal senders and bodies, among the events of the agent's
room that were passed to `_handle`. -/
def SameIds (config : AgentConfig) (occurrences : List Occurrence) : Prop :=
  ∀ event event', .passed event ∈ occurrences → .passed event' ∈ occurrences →
    event.roomId = config.roomId → event'.roomId = config.roomId →
    event.eventId = event'.eventId → event.sender = event'.sender ∧ event.body = event'.body

/-- The event of a call of `_handle`. -/
def passedEvent : Occurrence → Option TimelineEvent
  | .passed event => some event
  | _ => none

theorem mem_filterMap_passedEvent {occurrences : List Occurrence} {event : TimelineEvent} :
    event ∈ occurrences.filterMap passedEvent ↔ .passed event ∈ occurrences := by
  rw [List.mem_filterMap]
  constructor
  · rintro ⟨occurrence, hmem, hevent⟩
    cases occurrence with
    | passed event' =>
      obtain rfl := Option.some_inj.mp hevent
      exact hmem
    | _ => cases hevent
  · exact fun hmem => ⟨_, hmem, rfl⟩

/-- The assumption on ids can be checked on a record. -/
instance (occurrences : List Occurrence) : Decidable (SameIds config occurrences) :=
  decidable_of_iff
    (∀ event ∈ occurrences.filterMap passedEvent, ∀ event' ∈ occurrences.filterMap passedEvent,
      event.roomId = config.roomId → event'.roomId = config.roomId →
      event.eventId = event'.eventId → event.sender = event'.sender ∧ event.body = event'.body)
    (by
      simp only [mem_filterMap_passedEvent, SameIds]
      exact ⟨fun h event event' he he' => h event he event' he',
        fun h event he event' he' => h event event' he he'⟩)

theorem SameIds.of_append {front back : List Occurrence} (h : SameIds config (front ++ back)) :
    SameIds config front := fun event event' he he' =>
  h event event' (List.mem_append_left _ he) (List.mem_append_left _ he')

/-! ## The account -/

/-- The registry and what happened since the boot agree. -/
structure Accounted (config : AgentConfig) (hexdigest : Text → Text)
    (registry : ProcessedRegistry) (occurrences : List Occurrence) : Prop where
  executions_nodup : (occurrences.filterMap executedKey).Nodup
  mem_executions : ∀ key, key ∈ occurrences.filterMap executedKey ↔ key ∈ registry.logical
  passed : ∀ event request, .passed event ∈ occurrences →
    Foreign config hexdigest event request → request.correlationKey ∈ registry.logical
  known : ∀ eventId ∈ registry.events, ∃ event request, .passed event ∈ occurrences ∧
    event.eventId = eventId ∧ Foreign config hexdigest event request
  sends_nodup : (occurrences.filterMap sentKey).Nodup
  sent_logical : ∀ key ∈ occurrences.filterMap sentKey, key ∈ registry.logical
  executed_foreign : ∀ event request, .executed event request ∈ occurrences →
    Foreign config hexdigest event request ∧ .passed event ∈ occurrences
  sent_foreign : ∀ deviceId event request created,
    .sent deviceId event request created ∈ occurrences →
    Foreign config hexdigest event request ∧ .passed event ∈ occurrences

section Account

variable {registry : ProcessedRegistry} {occurrences : List Occurrence} {event : TimelineEvent}
  {request : InboundRequest}

theorem accounted_nil : Accounted config hexdigest .empty [] where
  executions_nodup := List.nodup_nil
  mem_executions key := by simp [ProcessedRegistry.empty]
  passed _ _ h := nomatch h
  known _ h := absurd h (Finset.notMem_empty _)
  sends_nodup := List.nodup_nil
  sent_logical _ h := nomatch h
  executed_foreign _ _ h := nomatch h
  sent_foreign _ _ _ _ h := nomatch h

/-- What is silent changes nothing. -/
theorem Accounted.append_silent (h : Accounted config hexdigest registry occurrences)
    {occurrence : Occurrence} (hsilent : occurrence.silent = true) :
    Accounted config hexdigest registry (occurrences ++ [occurrence]) := by
  have hexecuted : executedKey occurrence = none := by
    cases occurrence <;> first | rfl | cases hsilent
  have hsent : sentKey occurrence = none := by
    cases occurrence <;> first | rfl | cases hsilent
  have hmem {occurrence' : Occurrence} (hloud : occurrence'.silent = false)
      (h' : occurrence' ∈ occurrences ++ [occurrence]) : occurrence' ∈ occurrences := by
    rcases List.mem_append.mp h' with h' | h'
    · exact h'
    · obtain rfl := List.mem_singleton.mp h'
      rw [hsilent] at hloud
      cases hloud
  have hexecutions : (occurrences ++ [occurrence]).filterMap executedKey =
      occurrences.filterMap executedKey := by
    simp [List.filterMap_append, hexecuted]
  have hsends : (occurrences ++ [occurrence]).filterMap sentKey =
      occurrences.filterMap sentKey := by
    simp [List.filterMap_append, hsent]
  refine ⟨hexecutions ▸ h.executions_nodup, fun key => hexecutions ▸ h.mem_executions key,
    fun event request hp => h.passed event request (hmem rfl hp), fun eventId hid => ?_,
    hsends ▸ h.sends_nodup, hsends ▸ h.sent_logical, fun event request he => ?_,
    fun deviceId event request created hs => ?_⟩
  · obtain ⟨event, request, hp, hrest⟩ := h.known eventId hid
    exact ⟨event, request, List.mem_append_left _ hp, hrest⟩
  · obtain ⟨hf, hp⟩ := h.executed_foreign event request (hmem rfl he)
    exact ⟨hf, List.mem_append_left _ hp⟩
  · obtain ⟨hf, hp⟩ := h.sent_foreign deviceId event request created (hmem rfl hs)
    exact ⟨hf, List.mem_append_left _ hp⟩

/-- A call for an event whose request, if it carries one, is already in the registry. -/
theorem Accounted.append_passed (h : Accounted config hexdigest registry occurrences)
    (hevent : ∀ request, Foreign config hexdigest event request →
      request.correlationKey ∈ registry.logical) :
    Accounted config hexdigest registry (occurrences ++ [Occurrence.passed event]) := by
  have hexecutions : (occurrences ++ [Occurrence.passed event]).filterMap executedKey =
      occurrences.filterMap executedKey := by
    simp [List.filterMap_append, executedKey]
  have hsends : (occurrences ++ [Occurrence.passed event]).filterMap sentKey =
      occurrences.filterMap sentKey := by
    simp [List.filterMap_append, sentKey]
  refine ⟨hexecutions ▸ h.executions_nodup, fun key => hexecutions ▸ h.mem_executions key,
    fun event' request hp hf => ?_, fun eventId hid => ?_, hsends ▸ h.sends_nodup,
    hsends ▸ h.sent_logical, fun event request he => ?_,
    fun deviceId event request created hs => ?_⟩
  · rcases List.mem_append.mp hp with hp | hp
    · exact h.passed event' request hp hf
    · obtain rfl := Occurrence.passed.inj (List.mem_singleton.mp hp)
      exact hevent request hf
  · obtain ⟨event, request, hp, hrest⟩ := h.known eventId hid
    exact ⟨event, request, List.mem_append_left _ hp, hrest⟩
  · obtain ⟨hf, hp⟩ := h.executed_foreign event request (by simpa using he)
    exact ⟨hf, List.mem_append_left _ hp⟩
  · obtain ⟨hf, hp⟩ := h.sent_foreign deviceId event request created (by simpa using hs)
    exact ⟨hf, List.mem_append_left _ hp⟩

/-- **A duplicate is a request whose key is in the registry.**  An event id that the
registry knows belongs to an event with the same request. -/
theorem Accounted.logical_of_duplicate (h : Accounted config hexdigest registry occurrences)
    (hids : SameIds config (occurrences ++ [Occurrence.passed event]))
    (hforeign : Foreign config hexdigest event request)
    (hdecide : registry.decide event.eventId request.correlationKey ≠ .process) :
    request.correlationKey ∈ registry.logical := by
  by_contra hkey
  have hid : event.eventId ∈ registry.events := by
    by_contra hid
    exact hdecide (ProcessedRegistry.decide_eq_process_iff.mpr ⟨hid, hkey⟩)
  obtain ⟨event', request', hp, heq, hforeign'⟩ := h.known _ hid
  obtain ⟨hsender, hbody⟩ := hids event' event (List.mem_append_left _ hp)
    (List.mem_append_right _ (List.mem_singleton.mpr rfl)) hforeign'.room hforeign.room heq
  have hsame : Foreign config hexdigest event request' :=
    hforeign'.of_eq (hforeign.room.trans hforeign'.room.symm) heq.symm hsender.symm hbody.symm
  rw [hforeign.request_eq hsame] at hkey
  exact hkey (h.passed event' request' hp hforeign')

/-- A call whose request is new: committed, and executed. -/
theorem Accounted.append_executed (h : Accounted config hexdigest registry occurrences)
    (hforeign : Foreign config hexdigest event request)
    (hdecide : registry.decide event.eventId request.correlationKey = .process) :
    Accounted config hexdigest (registry.commit event.eventId request.correlationKey)
      (occurrences ++ [Occurrence.passed event] ++ [Occurrence.executed event request]) := by
  obtain ⟨-, hkey⟩ := ProcessedRegistry.decide_eq_process_iff.mp hdecide
  have hexecutions :
      (occurrences ++ [Occurrence.passed event] ++
        [Occurrence.executed event request]).filterMap executedKey =
        occurrences.filterMap executedKey ++ [request.correlationKey] := by
    simp [List.filterMap_append, List.filterMap_cons, executedKey]
  have hsends : (occurrences ++ [Occurrence.passed event] ++
      [Occurrence.executed event request]).filterMap sentKey =
      occurrences.filterMap sentKey := by
    simp [List.filterMap_append, sentKey]
  have hpassed : Occurrence.passed event ∈
      occurrences ++ [Occurrence.passed event] ++ [Occurrence.executed event request] := by simp
  refine ⟨?_, fun key => ?_, fun event' request' hp hf => ?_, fun eventId hid => ?_,
    hsends ▸ h.sends_nodup, fun key hs => ?_, fun event' request' he => ?_,
    fun deviceId event' request' created hs => ?_⟩
  · rw [hexecutions, List.nodup_append]
    refine ⟨h.executions_nodup, List.nodup_singleton _, fun key hmem key' hkey' => ?_⟩
    obtain rfl := List.mem_singleton.mp hkey'
    rintro rfl
    exact hkey ((h.mem_executions _).mp hmem)
  · rw [hexecutions, List.mem_append, List.mem_singleton, h.mem_executions]
    simp only [ProcessedRegistry.commit, Finset.mem_insert]
    exact or_comm
  · have hp' : event' = event ∨ Occurrence.passed event' ∈ occurrences := by
      simpa [or_comm] using hp
    rcases hp' with rfl | hp'
    · rw [hf.request_eq hforeign]
      exact Finset.mem_insert_self _ _
    · exact Finset.mem_insert_of_mem (h.passed event' request' hp' hf)
  · rcases Finset.mem_insert.mp hid with rfl | hid
    · exact ⟨event, request, hpassed, rfl, hforeign⟩
    · obtain ⟨event', request', hp, hrest⟩ := h.known eventId hid
      exact ⟨event', request', List.mem_append_left _ (List.mem_append_left _ hp), hrest⟩
  · rw [hsends] at hs
    exact Finset.mem_insert_of_mem (h.sent_logical key hs)
  · have he' : Occurrence.executed event' request' ∈ occurrences ∨
        event' = event ∧ request' = request := by
      simpa using he
    rcases he' with he' | ⟨rfl, rfl⟩
    · obtain ⟨hf, hp⟩ := h.executed_foreign event' request' he'
      exact ⟨hf, List.mem_append_left _ (List.mem_append_left _ hp)⟩
    · exact ⟨hforeign, hpassed⟩
  · obtain ⟨hf, hp⟩ := h.sent_foreign deviceId event' request' created (by simpa using hs)
    exact ⟨hf, List.mem_append_left _ (List.mem_append_left _ hp)⟩

/-- The send for a request that was executed and not yet answered. -/
theorem Accounted.append_sent (h : Accounted config hexdigest registry occurrences)
    {deviceId : Text} {created : Option Text} (hforeign : Foreign config hexdigest event request)
    (hpassed : .passed event ∈ occurrences)
    (hfresh : request.correlationKey ∉ occurrences.filterMap sentKey) :
    Accounted config hexdigest registry
      (occurrences ++ [Occurrence.sent deviceId event request created]) := by
  have hexecutions :
      (occurrences ++ [Occurrence.sent deviceId event request created]).filterMap executedKey =
        occurrences.filterMap executedKey := by
    simp [List.filterMap_append, executedKey]
  have hsends :
      (occurrences ++ [Occurrence.sent deviceId event request created]).filterMap sentKey =
      occurrences.filterMap sentKey ++ [request.correlationKey] := by
    simp [List.filterMap_append, sentKey]
  refine ⟨hexecutions ▸ h.executions_nodup, fun key => hexecutions ▸ h.mem_executions key,
    fun event' request' hp => h.passed event' request' (by simpa using hp), fun eventId hid => ?_,
    ?_, fun key hs => ?_, fun event' request' he => ?_,
    fun deviceId' event' request' created' hs => ?_⟩
  · obtain ⟨event', request', hp, hrest⟩ := h.known eventId hid
    exact ⟨event', request', List.mem_append_left _ hp, hrest⟩
  · rw [hsends, List.nodup_append]
    refine ⟨h.sends_nodup, List.nodup_singleton _, fun key hmem key' hkey' => ?_⟩
    obtain rfl := List.mem_singleton.mp hkey'
    rintro rfl
    exact hfresh hmem
  · rw [hsends] at hs
    rcases List.mem_append.mp hs with hs | hs
    · exact h.sent_logical key hs
    · obtain rfl := List.mem_singleton.mp hs
      exact h.passed event request hpassed hforeign
  · obtain ⟨hf, hp⟩ := h.executed_foreign event' request' (by simpa using he)
    exact ⟨hf, List.mem_append_left _ hp⟩
  · have hs' : Occurrence.sent deviceId' event' request' created' ∈ occurrences ∨
        deviceId' = deviceId ∧ event' = event ∧ request' = request ∧ created' = created := by
      simpa using hs
    rcases hs' with hs' | ⟨-, rfl, rfl, -⟩
    · obtain ⟨hf, hp⟩ := h.sent_foreign deviceId' event' request' created' hs'
      exact ⟨hf, List.mem_append_left _ hp⟩
    · exact ⟨hforeign, List.mem_append_left _ hpassed⟩

end Account

/-! ## The account along a run -/

/-- The account of incarnation `k`: not begun, running, or closed. -/
structure AccountedIn (config : AgentConfig) (hexdigest : Text → Text) (k : ℕ) (s : State) :
    Prop where
  before : s.incarnation < k → s.during k = []
  now : s.incarnation = k → SameIds config (s.during k) →
    Accounted config hexdigest s.registry (s.during k)
  after : k < s.incarnation → SameIds config (s.during k) →
    ∃ registry, Accounted config hexdigest registry (s.during k)

section Run

variable {k : ℕ} {s s' : State}

/-- What an incarnation does leaves the accounts of the others alone. -/
theorem AccountedIn.step (h : AccountedIn config hexdigest k s)
    (hincarnation : s'.incarnation = s.incarnation)
    (hother : s.incarnation ≠ k → s'.during k = s.during k)
    (hself : s.incarnation = k → (SameIds config (s.during k) →
      Accounted config hexdigest s.registry (s.during k)) →
      SameIds config (s'.during k) → Accounted config hexdigest s'.registry (s'.during k)) :
    AccountedIn config hexdigest k s' := by
  constructor
  · intro hk
    rw [hincarnation] at hk
    rw [hother hk.ne]
    exact h.before hk
  · intro hk
    rw [hincarnation] at hk
    exact hself hk (h.now hk)
  · intro hk
    rw [hincarnation] at hk
    rw [hother hk.ne']
    exact h.after hk

/-- Whatever the state of the incarnation, there is a registry its account is for. -/
theorem AccountedIn.exists_registry (h : AccountedIn config hexdigest k s)
    (hids : SameIds config (s.during k)) :
    ∃ registry, Accounted config hexdigest registry (s.during k) := by
  rcases lt_trichotomy s.incarnation k with hk | hk | hk
  · rw [h.before hk]
    exact ⟨.empty, accounted_nil⟩
  · exact ⟨_, h.now hk hids⟩
  · exact h.after hk hids

/-- One more thing happened, and the registry is what it was. -/
theorem AccountedIn.noting (h : AccountedIn config hexdigest k s) {occurrence : Occurrence}
    (hself : s.incarnation = k → SameIds config (s.during s.incarnation ++ [occurrence]) →
      Accounted config hexdigest s.registry (s.during s.incarnation) →
      Accounted config hexdigest s.registry (s.during s.incarnation ++ [occurrence])) :
    AccountedIn config hexdigest k (s.noting occurrence) := by
  refine h.step rfl (fun hk => during_noting_of_ne hk occurrence) ?_
  rintro rfl hbefore hids
  rw [during_noting_self] at hids ⊢
  exact hself rfl hids (hbefore hids.of_append)

theorem AccountedIn.noting_silent (h : AccountedIn config hexdigest k s)
    {occurrence : Occurrence} (hsilent : occurrence.silent = true) :
    AccountedIn config hexdigest k (s.noting occurrence) :=
  h.noting fun _ _ haccount => haccount.append_silent hsilent

theorem routine_accountedIn (k : ℕ) : Routine (AccountedIn config hexdigest k) where
  aside s s' hsame h := by
    have hduring : s'.during k = s.during k := by rw [State.during, hsame.trace, State.during]
    refine h.step hsame.incarnation (fun _ => hduring) fun _ hbefore => ?_
    rw [hduring, hsame.registry]
    exact hbefore
  recorded s record h := h.noting_silent rfl
  saving s h := by
    have hnoting : AccountedIn config hexdigest k (s.noting (.saved
        ⟨s.session.accessToken, s.session.deviceId, s.syncToken⟩)) := h.noting_silent rfl
    exact ⟨hnoting.before, hnoting.now, hnoting.after⟩

/-- Executed and not yet answered. -/
structure Unanswered (config : AgentConfig) (hexdigest : Text → Text) (k : ℕ)
    (event : TimelineEvent) (request : InboundRequest) (s : State) : Prop where
  account : AccountedIn config hexdigest k s
  passed : .passed event ∈ s.during s.incarnation
  unsent : s.incarnation = k → SameIds config (s.during k) →
    request.correlationKey ∉ (s.during k).filterMap sentKey

theorem survives_accountedIn (k : ℕ) (event : TimelineEvent) :
    SurvivesEvent config hexdigest (AccountedIn config hexdigest k)
      (AccountedIn config hexdigest k) event (Unanswered config hexdigest k event) where
  ignored s hnot h := h.noting fun _ _ haccount =>
    haccount.append_passed fun request hf => absurd hf (hnot request)
  duplicate s request hforeign hdecide h := h.noting fun _ hids haccount => by
    refine haccount.append_passed fun request' hf => ?_
    rw [hf.request_eq hforeign]
    exact haccount.logical_of_duplicate hids hforeign hdecide
  executing s request hforeign hdecide h := by
    have hduring : (s.executing event request).during s.incarnation =
        s.during s.incarnation ++ [Occurrence.passed event] ++
          [Occurrence.executed event request] := by
      simp [State.during, State.executing, State.noting, List.filterMap_append]
    refine ⟨h.step rfl (fun hk => ?_) ?_, ?_, ?_⟩
    · simp [State.during, State.executing, State.noting, List.filterMap_append, hk]
    · rintro rfl hbefore hids
      rw [hduring] at hids ⊢
      exact (hbefore hids.of_append.of_append).append_executed hforeign hdecide
    · change Occurrence.passed event ∈ (s.executing event request).during s.incarnation
      rw [hduring]
      simp
    · rintro rfl hids
      change SameIds config ((s.executing event request).during s.incarnation) at hids
      change request.correlationKey ∉
        ((s.executing event request).during s.incarnation).filterMap sentKey
      rw [hduring] at hids ⊢
      have hbefore := h.now rfl hids.of_append.of_append
      intro hmem
      have hsent : request.correlationKey ∈
          (s.during s.incarnation).filterMap sentKey := by
        simpa [List.filterMap_append, sentKey] using hmem
      exact (ProcessedRegistry.decide_eq_process_iff.mp hdecide).2
        (hbefore.sent_logical _ hsent)
  answering _ _ h := h.account
  sent s request created hforeign h := by
    refine h.account.noting fun hk hids haccount => ?_
    subst hk
    exact haccount.append_sent hforeign h.passed (h.unsent rfl hids.of_append)
  recorded s record h := h.noting_silent rfl
  saving := (routine_accountedIn k).saving

theorem preserves_accountedIn_dispatch (k : ℕ) (event : TimelineEvent) :
    Preserves (AccountedIn config hexdigest k) (dispatch env config hexdigest event) :=
  preserves_dispatch (survives_accountedIn k event) fun _ h => h.noting_silent rfl

theorem accountedIn_booted (h : AccountedIn config hexdigest k s) :
    AccountedIn config hexdigest k s.booted := by
  have hduring (hk : s.incarnation + 1 ≠ k) : s.booted.during k = s.during k := by
    simp [State.during, State.booted, List.filterMap_append, hk]
  constructor
  · intro hk
    change s.incarnation + 1 < k at hk
    rw [hduring hk.ne]
    exact h.before (Nat.lt_of_succ_lt hk)
  · intro hk hids
    change s.incarnation + 1 = k at hk
    subst hk
    have hnew : s.booted.during (s.incarnation + 1) =
        s.during (s.incarnation + 1) ++ [Occurrence.started] := by
      simp [State.during, State.booted, List.filterMap_append]
    rw [hnew, h.before (Nat.lt_succ_self _)]
    exact accounted_nil.append_silent rfl
  · intro hk hids
    change k < s.incarnation + 1 at hk
    rw [hduring hk.ne'] at hids ⊢
    rcases Nat.lt_succ_iff_lt_or_eq.mp hk with hk | rfl
    · exact h.after hk hids
    · exact ⟨s.registry, h.now rfl hids⟩

/-- Every incarnation of a lifetime keeps its account. -/
theorem accountedIn_lifetime (file : Option TransportCheckpoint) (iterations : List ℕ) (k : ℕ) :
    AccountedIn config hexdigest k (lifetime env config hexdigest file iterations) := by
  have hroutine : Routine (AccountedIn config hexdigest k) := routine_accountedIn k
  refine preserves_lives (S := AccountedIn config hexdigest k) (fun _ => ?_) iterations ?_
  · exact hroutine.preserves_serve (preserves_accountedIn_dispatch k) (fun _ hs => hs)
      (fun _ => accountedIn_booted) (hroutine.preserves_connect fun s session hs =>
        hs.step rfl (fun _ => rfl) fun _ hbefore => hbefore) _
  · exact ⟨fun _ => rfl, fun _ _ => accounted_nil, fun hk => absurd hk (Nat.not_lt_zero k)⟩

end Run

/-! ## Controlled requests -/

/-- A controlled request for the agent: a message from another participant of its room
whose body parses to a request. -/
structure ControlledRequest (config : AgentConfig) (event : TimelineEvent)
    (message : ParsedMessage) : Prop where
  room : event.roomId = config.roomId
  sender : event.sender ≠ config.userId
  body : parse event.body = .ok (some message)
  isRequest : message.isRequest = true

theorem inboundOf_controlled (hprotocol : config.requestProtocol = .controlled)
    (event : TimelineEvent) : inboundOf config hexdigest event =
      (controlledInbound event.body).mapError Fault.message := by
  rw [inboundOf, hprotocol]
  rfl

/-- Under the controlled protocol the foreign requests are the controlled requests. -/
theorem exists_foreign_iff (hprotocol : config.requestProtocol = .controlled)
    {event : TimelineEvent} {key : Key} :
    (∃ request, Foreign config hexdigest event request ∧ request.correlationKey = key) ↔
      ∃ message, ControlledRequest config event message ∧ message.correlation.key = key := by
  constructor
  · rintro ⟨request, hforeign, rfl⟩
    have hinbound := hforeign.inbound
    rw [inboundOf_controlled hprotocol] at hinbound
    cases hcontrolled : controlledInbound event.body with
    | error e =>
      rw [hcontrolled] at hinbound
      cases hinbound
    | ok found =>
      rw [hcontrolled] at hinbound
      obtain rfl : found = some request := Except.ok.inj hinbound
      obtain ⟨message, hparse, hrequest, hkey, -⟩ := controlledInbound_eq_some hcontrolled
      exact ⟨message, ⟨hforeign.room, hforeign.sender, hparse, hrequest⟩, hkey.symm⟩
  · rintro ⟨message, hcontrolled, rfl⟩
    obtain ⟨request, hrequest, hkey⟩ :=
      exists_controlledInbound hcontrolled.body hcontrolled.isRequest
    refine ⟨request, ⟨hcontrolled.room, hcontrolled.sender, ?_⟩, hkey⟩
    rw [inboundOf_controlled hprotocol, hrequest]
    rfl

/-- One execution for each key among the requests that were passed, at most one send for
each key, and neither for anything but a passed request. -/
structure ExactlyOnce (config : AgentConfig) (occurrences : List Occurrence) : Prop where
  executed_once : ∀ event message, .passed event ∈ occurrences →
    ControlledRequest config event message →
    (occurrences.filterMap executedKey).count message.correlation.key = 1
  sent_at_most_once : ∀ key, (occurrences.filterMap sentKey).count key ≤ 1
  executed_only : ∀ event request, .executed event request ∈ occurrences →
    .passed event ∈ occurrences ∧ ∃ message, ControlledRequest config event message ∧
      message.correlation.key = request.correlationKey
  sent_only : ∀ deviceId event request created,
    .sent deviceId event request created ∈ occurrences →
    .passed event ∈ occurrences ∧ ∃ message, ControlledRequest config event message ∧
      message.correlation.key = request.correlationKey

/-- **Exactly-once execution.**  In every incarnation of every run of the controlled
agent, however often and by whatever path events are delivered and whatever the executor
and the homeserver answer, as long as equal event ids come with equal senders and
bodies. -/
theorem exactlyOnce_of_sameIds (hprotocol : config.requestProtocol = .controlled)
    (file : Option TransportCheckpoint) (iterations : List ℕ) (k : ℕ)
    (hids : SameIds config ((lifetime env config hexdigest file iterations).during k)) :
    ExactlyOnce config ((lifetime env config hexdigest file iterations).during k) := by
  obtain ⟨registry, haccount⟩ := (accountedIn_lifetime file iterations k).exists_registry hids
  constructor
  · intro event message hpassed hcontrolled
    have hexists : ∃ request, Foreign config hexdigest event request ∧
        request.correlationKey = message.correlation.key :=
      (exists_foreign_iff hprotocol).mpr ⟨message, hcontrolled, rfl⟩
    obtain ⟨request, hforeign, hkey⟩ := hexists
    refine List.count_eq_one_of_mem haccount.executions_nodup ?_
    rw [haccount.mem_executions, ← hkey]
    exact haccount.passed event request hpassed hforeign
  · exact List.nodup_iff_count_le_one.mp haccount.sends_nodup
  · intro event request hexecuted
    obtain ⟨hforeign, hpassed⟩ := haccount.executed_foreign event request hexecuted
    exact ⟨hpassed, (exists_foreign_iff hprotocol).mp ⟨request, hforeign, rfl⟩⟩
  · intro deviceId event request created hsent
    obtain ⟨hforeign, hpassed⟩ := haccount.sent_foreign deviceId event request created hsent
    exact ⟨hpassed, (exists_foreign_iff hprotocol).mp ⟨request, hforeign, rfl⟩⟩

/-- An agent that died between sending a response and saving handles both requests again
after the restart, each once. -/
theorem exactlyOnce_after_crash :
    ExactlyOnce (smallConfig .controlled) ((lifetime (smallEnvironment 28 1000 [27, 58])
      (smallConfig .controlled) id none [1, 2]).during 2) ∧
    (((lifetime (smallEnvironment 28 1000 [27, 58]) (smallConfig .controlled) id none
      [1, 2]).during 2).filterMap executedKey).map (fun key => key.2.2) = [1, 2] :=
  ⟨exactlyOnce_of_sameIds rfl none [1, 2] 2 (by decide +kernel), by decide +kernel⟩

end Agent
end FederatedMessaging
