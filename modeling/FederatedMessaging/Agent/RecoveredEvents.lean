import FederatedMessaging.Agent.CheckpointSafety

/-!
# What a recovery gathers, and what it counts

`recover` merges one slice with the history pages that lie before it, observes the
foreign requests among what it merged, and handles them.  Two numbers come out of it:
the duplicate observations of the ledger, and the processed events of the ledger.  This
file says what the ledger holds when `recover` returns.

## 1.  Sightings

A *sighting* is an event as the slice or a page delivers it.  An event can be sighted
several times; `reconcile_slice` keeps the first sighting of each id, the slice before
the pages (`firstSightings`), and the recovered events are the foreign requests among
those (`recovered`).

## 2.  The run

The homeserver answers one sync and one pagination in a recovery, so it is enough to
fix one response and one history (`Answers`).  A restarted runtime has an empty registry
and an empty ledger (`Restarted`), and what it has when `recover` returns is stated once
(`triple_recover`): one observation for each recovered event, each seen once; every
recovered event marked as processed; and one invocation of the executor for each
*correlation key*.
-/

namespace FederatedMessaging
namespace Agent

open PythonText Message FederatedMessaging.Matrix CrashPrograms CrashPrograms.Prog

/-! ## 1.  Sightings -/

/-- The history requests of one pagination. -/
abbrev History := ℕ → PageQuery → Except Fault Page

/-- The messages in the pages that `reconcile_slice` fetches for a slice. -/
def historyOf (history : History) (slice : RoomSyncSlice) (since : Token) : List TimelineEvent :=
  match slice.limited, truthy slice.prevBatch with
  | true, some start =>
    match paginateBackwards history slice.roomId start (some since) defaultPageLimit
        defaultMaxPages with
    | .ok (raws, _) => messagesOf slice.roomId raws
    | .error _ => []
  | _, _ => []

/-- Everything the slice and the pages deliver, in the order in which it is merged. -/
def sightings (history : History) (slice : RoomSyncSlice) (since : Token) : List TimelineEvent :=
  slice.events ++ historyOf history slice since

/-- The first sighting of each event id. -/
def firstSightings (events : List TimelineEvent) : List TimelineEvent :=
  (OrderedDict.empty.fileAll TimelineEvent.eventId events).values

/-- `_is_foreign_request`, on an event on which it does not raise. -/
def carriesRequest (config : AgentConfig) (hexdigest : Text → Text) (event : TimelineEvent) :
    Bool :=
  (isForeignRequest config hexdigest event).toOption.getD false

/-- The events a recovery recovers. -/
def recovered (config : AgentConfig) (hexdigest : Text → Text) (history : History)
    (slice : RoomSyncSlice) (since : Token) : List TimelineEvent :=
  (firstSightings (sightings history slice since)).filter (carriesRequest config hexdigest)

theorem nodup_firstSightings (events : List TimelineEvent) :
    ((firstSightings events).map (·.eventId)).Nodup :=
  (OrderedDict.filedBy_empty.fileAll events).nodup_values

/-- **A reconciliation returns the first sightings**, of a limited slice and of any
other. -/
theorem fst_reconcileSlice {history : History} {counter : ℕ} {slice : RoomSyncSlice}
    {since : Token} {trigger : RecoveryTrigger} {result : List TimelineEvent × Episode}
    (h : (reconcileSlice history counter slice (some since) trigger).2 = .ok result) :
    result.1 = firstSightings (sightings history slice since) := by
  unfold sightings historyOf
  cases hlimited : slice.limited with
  | false =>
    rw [reconcileSlice_unlimited hlimited h, List.append_nil]
    rfl
  | true =>
    cases hstart : truthy slice.prevBatch with
    | none =>
      unfold reconcileSlice at h
      rw [hlimited, hstart] at h
      obtain rfl := Except.ok.inj h
      rw [Merge.result, merged_foldl_direct, List.append_nil]
      rfl
    | some start =>
      cases hpages : paginateBackwards history slice.roomId start (some since) defaultPageLimit
          defaultMaxPages with
      | error e =>
        unfold reconcileSlice at h
        rw [hlimited, hstart] at h
        simp only [hpages] at h
        cases h
      | ok fetched =>
        obtain ⟨raws, pages⟩ := fetched
        obtain ⟨episode, hepisode⟩ :=
          reconcileSlice_eq counter trigger hlimited hstart hpages
        obtain rfl := Except.ok.inj (hepisode.symm.trans h)
        simp only [firstSightings, OrderedDict.fileAll, List.foldl_append, hpages]

variable {config : AgentConfig} {hexdigest : Text → Text}

theorem carriesRequest_iff {event : TimelineEvent} :
    carriesRequest config hexdigest event = true ↔
      ∃ request, Foreign config hexdigest event request := by
  rw [← isForeignRequest_iff]
  unfold carriesRequest
  cases isForeignRequest config hexdigest event with
  | error e => exact ⟨nofun, nofun⟩
  | ok foreign => exact ⟨fun h => congrArg Except.ok h, fun h => Except.ok.inj h⟩

theorem carriesRequest_of_ok {event : TimelineEvent} {foreign : Bool}
    (h : isForeignRequest config hexdigest event = .ok foreign) :
    carriesRequest config hexdigest event = foreign := by
  rw [carriesRequest, h]
  rfl

/-! ## 2.  The run -/

/-- The homeserver answers a sync with this response, and a pagination from this
history. -/
structure Answers (env : Environment) (response : SyncResponse) (history : History) : Prop where
  sync : ∀ n query, env.sync n query = .ok response
  messages : ∀ n, env.messages n = history

/-- The memory of a runtime that has handled nothing yet. -/
structure Restarted (s : State) : Prop where
  registry : s.registry = .empty
  ledger : s.ledger = .empty

/-- An invocation of the executor. -/
def Occurrence.isExecution : Occurrence → Bool
  | .executed .. => true
  | _ => false

/-- The number of times the executor was invoked. -/
def executions (s : State) : ℕ := s.trace.countP fun entry => entry.2.isExecution

theorem executions_noting {s : State} {occurrence : Occurrence} :
    executions (s.noting occurrence) =
      executions s + if occurrence.isExecution = true then 1 else 0 := by
  rw [executions, State.noting, List.countP_append, List.countP_singleton]
  rfl

/-- The correlation key of the request an event carries. -/
def keyOf (config : AgentConfig) (hexdigest : Text → Text) (event : TimelineEvent) : Option Key :=
  (inboundOf config hexdigest event).toOption.join.map (·.correlationKey)

/-- The correlation keys of events. -/
def keysOf (config : AgentConfig) (hexdigest : Text → Text) (events : List TimelineEvent) :
    List Key :=
  events.filterMap (keyOf config hexdigest)

theorem Foreign.keyOf_eq {event : TimelineEvent} {request : InboundRequest}
    (h : Foreign config hexdigest event request) :
    keyOf config hexdigest event = some request.correlationKey := by
  rw [keyOf, h.inbound]
  rfl

theorem keysOf_append_singleton (events : List TimelineEvent) {event : TimelineEvent}
    {request : InboundRequest} (h : Foreign config hexdigest event request) :
    keysOf config hexdigest (events ++ [event]) =
      keysOf config hexdigest events ++ [request.correlationKey] := by
  rw [keysOf, List.filterMap_append, List.filterMap_cons, h.keyOf_eq]
  rfl

theorem length_keysOf {events : List TimelineEvent}
    (h : ∀ event ∈ events, carriesRequest config hexdigest event = true) :
    (keysOf config hexdigest events).length = events.length := by
  induction events with
  | nil => rfl
  | cons event events ih =>
    obtain ⟨request, hrequest⟩ := carriesRequest_iff.mp (h event List.mem_cons_self)
    rw [keysOf, List.filterMap_cons, hrequest.keyOf_eq, List.length_cons, List.length_cons]
    exact congrArg (· + 1) (ih fun e he => h e (List.mem_cons_of_mem event he))

/-- The observation of an event that is observed once. -/
def observedOnce (directIds : List Text) (event : TimelineEvent) : Observation :=
  ⟨event.eventId, if event.eventId ∈ directIds then .sync else .history, 1⟩

/-- What has been handled so far: the events in front, out of a recovery that found these
observations and started after `before` invocations of the executor. -/
structure Processing (config : AgentConfig) (hexdigest : Text → Text)
    (observations : List Observation) (before : ℕ) (front : List TimelineEvent) (s : State) :
    Prop where
  observations : s.ledger.observations.values = observations
  processed : s.ledger.processed = (front.map (·.eventId)).toFinset
  events : s.registry.events ⊆ (front.map (·.eventId)).toFinset
  logical : s.registry.logical = (keysOf config hexdigest front).toFinset
  invoked : executions s = before + (keysOf config hexdigest front).toFinset.card

section Run

variable {env : Environment} {response : SyncResponse} {history : History}
  {observations : List Observation} {before : ℕ} {front : List TimelineEvent}

theorem Processing.recorded {s : State}
    (h : Processing config hexdigest observations before front s) (record : Record) :
    Processing config hexdigest observations before front (s.noting (.recorded record)) :=
  { h with invoked := executions_noting.trans h.invoked }

theorem Processing.saving {s : State}
    (h : Processing config hexdigest observations before front s) :
    Processing config hexdigest observations before front s.saving :=
  { h with invoked := executions_noting.trans h.invoked }

/-- What has been handled once an event has, except that it is not yet marked in the
ledger. -/
structure Handling (config : AgentConfig) (hexdigest : Text → Text)
    (observations : List Observation) (before : ℕ) (front : List TimelineEvent)
    (event : TimelineEvent) (s : State) : Prop where
  observations : s.ledger.observations.values = observations
  processed : s.ledger.processed = (front.map (·.eventId)).toFinset
  events : s.registry.events ⊆ ((front ++ [event]).map (·.eventId)).toFinset
  logical : s.registry.logical = (keysOf config hexdigest (front ++ [event])).toFinset
  invoked : executions s =
    before + (keysOf config hexdigest (front ++ [event])).toFinset.card

theorem Handling.noted {event : TimelineEvent} {s s' : State} {occurrence : Occurrence}
    (h : Handling config hexdigest observations before front event s)
    (hledger : s'.ledger = s.ledger) (hregistry : s'.registry = s.registry)
    (htrace : s'.trace = (s.noting occurrence).trace) (hno : occurrence.isExecution = false) :
    Handling config hexdigest observations before front event s' where
  observations := hledger ▸ h.observations
  processed := hledger ▸ h.processed
  events := hregistry ▸ h.events
  logical := hregistry ▸ h.logical
  invoked := by
    have hcount : executions s' = executions (s.noting occurrence) := by
      rw [executions, htrace]
      rfl
    rw [hcount, executions_noting, hno]
    exact h.invoked

/-- **Handling one recovered event.**  The executor is invoked if the correlation key is
new, and not otherwise. -/
theorem triple_dispatch_counts {event : TimelineEvent} {request : InboundRequest}
    (hforeign : Foreign config hexdigest event request)
    (hnew : event.eventId ∉ front.map (·.eventId)) :
    Triple (Processing config hexdigest observations before front)
      (dispatch env config hexdigest event)
      (fun _ => Handling config hexdigest observations before front event) fun _ => True := by
  have hkeys := keysOf_append_singleton front hforeign
  have hsurvives : SurvivesEvent config hexdigest
      (Processing config hexdigest observations before front)
      (Handling config hexdigest observations before front event) event
      fun _ => Handling config hexdigest observations before front event :=
    { ignored := fun s hnot => absurd hforeign (hnot request)
      duplicate := ?_
      executing := ?_
      answering := fun _ _ hs => hs
      sent := fun s _ _ _ hs => hs.noted rfl rfl rfl rfl
      recorded := fun s _ hs => hs.noted rfl rfl rfl rfl
      saving := fun s hs => hs.noted rfl rfl rfl rfl }
  · refine triple_bind (R := fun _ =>
      Called (Processing config hexdigest observations before front) event)
      (triple_update fun s hs => ⟨s, hs, rfl⟩) fun _ => ?_
    refine triple_bind (triple_consequence (triple_handle hsurvives) (fun _ hs => hs)
      (fun _ _ hs => hs) fun _ _ => trivial) fun _ => ?_
    exact triple_update fun s hs => hs.noted rfl rfl rfl rfl
  · -- The event is new, so it can only be the key that is known.
    intro s request' hforeign' hdecide hs
    obtain rfl := hforeign.request_eq hforeign'
    rw [Ne, ProcessedRegistry.decide_eq_process_iff, not_and_or, not_not, not_not] at hdecide
    have hkey : request.correlationKey ∈ keysOf config hexdigest front := by
      rcases hdecide with hid | hkey
      · exact absurd (List.mem_toFinset.mp (hs.events hid)) hnew
      · exact List.mem_toFinset.mp (hs.logical ▸ hkey)
    have hsame : (keysOf config hexdigest (front ++ [event])).toFinset =
        (keysOf config hexdigest front).toFinset := by
      rw [hkeys, List.toFinset_append]
      refine Finset.union_eq_left.mpr fun key hmem => ?_
      rw [List.mem_toFinset, List.mem_singleton] at hmem
      exact List.mem_toFinset.mpr (hmem ▸ hkey)
    refine ⟨hs.observations, hs.processed, fun id hid => ?_, hsame ▸ hs.logical, ?_⟩
    · rw [List.map_append, List.toFinset_append]
      exact Finset.mem_union_left _ (hs.events hid)
    · rw [executions_noting, hsame]
      exact hs.invoked
  · intro s request' hforeign' hdecide hs
    obtain rfl := hforeign.request_eq hforeign'
    obtain ⟨-, hkey⟩ := ProcessedRegistry.decide_eq_process_iff.mp hdecide
    have hinsert : (keysOf config hexdigest (front ++ [event])).toFinset =
        insert request.correlationKey (keysOf config hexdigest front).toFinset := by
      rw [hkeys, List.toFinset_append, Finset.insert_eq, Finset.union_comm]
      rfl
    refine ⟨hs.observations, hs.processed, fun id hid => ?_, ?_, ?_⟩
    · rw [List.map_append, List.toFinset_append]
      rcases Finset.mem_insert.mp hid with rfl | hid
      · exact Finset.mem_union_right _ (List.mem_toFinset.mpr (List.mem_singleton.mpr rfl))
      · exact Finset.mem_union_left _ (hs.events hid)
    · rw [hinsert]
      exact congrArg (insert request.correlationKey) hs.logical
    · rw [hinsert, Finset.card_insert_of_notMem (hs.logical ▸ hkey), ← add_assoc,
        ← hs.invoked, State.executing, executions_noting]
      exact congrArg (· + 1) executions_noting

/-- The processing loop of `recover`, over events that are foreign requests with different
ids. -/
theorem triple_handlePending_counts {ordered : List TimelineEvent}
    (hforeign : ∀ event ∈ ordered, carriesRequest config hexdigest event = true)
    (hnodup : (ordered.map (·.eventId)).Nodup) :
    Triple (Processing config hexdigest observations before [])
      (ordered.forM (handlePending env config hexdigest))
      (fun _ => Processing config hexdigest observations before ordered) fun _ => True := by
  refine triple_forM (I := fun front => Processing config hexdigest observations before front)
    fun front event hfront => ?_
  have hmem : event ∈ ordered := hfront.subset (by simp)
  obtain ⟨request, hrequest⟩ := carriesRequest_iff.mp (hforeign event hmem)
  have hnew : event.eventId ∉ front.map (·.eventId) := by
    have hids := (hfront.sublist.map (·.eventId)).nodup hnodup
    rw [List.map_append, List.map_singleton, List.nodup_append] at hids
    exact fun hid => hids.2.2 _ hid _ (List.mem_singleton.mpr rfl) rfl
  refine triple_bind (R := fun wanted s => wanted = true ∧
    Processing config hexdigest observations before front s) (triple_read fun s hs => ⟨?_, hs⟩)
    fun wanted => ?_
  · rw [RecoveryLedger.shouldProcess, hs.processed]
    exact decide_eq_true fun hid => hnew (List.mem_toFinset.mp hid)
  refine triple_pure_fact fun hwanted => ?_
  rw [if_pos hwanted]
  refine triple_bind (triple_dispatch_counts hrequest hnew) fun _ => triple_update fun s hs => ?_
  refine ⟨hs.observations, ?_, hs.events, hs.logical, hs.invoked⟩
  rw [RecoveryLedger.markProcessed, hs.processed, List.map_append, List.toFinset_append,
    Finset.insert_eq, Finset.union_comm]
  rfl

/-- The state while the events are gathered: nothing has been handled, and these
observations have been made. -/
structure Gathering (observations : OrderedDict Text Observation) (before : ℕ) (s : State) :
    Prop where
  observations : s.ledger.observations = observations
  processed : s.ledger.processed = ∅
  registry : s.registry = .empty
  invoked : executions s = before

theorem Gathering.noted {observed : OrderedDict Text Observation} {s s' : State}
    (h : Gathering observed before s) (record : Record)
    (hobserved : s'.ledger.observations = s.ledger.observations)
    (hprocessed : s'.ledger.processed = s.ledger.processed)
    (hregistry : s'.registry = s.registry)
    (htrace : s'.trace = s.trace ∨ s'.trace = (s.noting (.recorded record)).trace) :
    Gathering observed before s' where
  observations := hobserved.trans h.observations
  processed := hprocessed.trans h.processed
  registry := hregistry.trans h.registry
  invoked := by
    rcases htrace with htrace | htrace
    · rw [executions, htrace]
      exact h.invoked
    · have hcount : executions s' = executions (s.noting (.recorded record)) := by
        rw [executions, htrace]
        rfl
      rw [hcount, executions_noting]
      exact h.invoked

/-- **Observing the merged events.**  Each id occurs once among them, so each foreign
request is a first sighting. -/
theorem triple_observeEvents_counts (directIds : List Text) {events : List TimelineEvent}
    (pending : OrderedDict Text TimelineEvent) (hnodup : (events.map (·.eventId)).Nodup)
    {observed : OrderedDict Text Observation} (hkeys : pending.keys = observed.keys)
    (hnew : ∀ event ∈ events, event.eventId ∉ pending.keys) :
    Triple (Gathering observed before)
      (observeEvents config hexdigest directIds events pending)
      (fun collected s =>
        collected.values = pending.values ++ events.filter (carriesRequest config hexdigest) ∧
        ∃ observed', Gathering observed' before s ∧ observed'.values = observed.values ++
          (events.filter (carriesRequest config hexdigest)).map (observedOnce directIds))
      fun _ => True := by
  induction events generalizing pending observed with
  | nil =>
    exact triple_ret fun s hs =>
      ⟨(List.append_nil _).symm, observed, hs, (List.append_nil _).symm⟩
  | cons event events ih =>
    rw [List.map_cons, List.nodup_cons] at hnodup
    have hrest : ∀ e ∈ events, e.eventId ∉ pending.keys := fun e he =>
      hnew e (List.mem_cons_of_mem event he)
    refine triple_bind (R := fun foreign s =>
      isForeignRequest config hexdigest event = .ok foreign ∧ Gathering observed before s)
      (triple_ofExcept (fun foreign hforeign s hs => ⟨hforeign, hs⟩) fun _ _ _ _ => trivial)
      fun foreign => ?_
    refine triple_pure_fact fun hforeign => ?_
    have hcarries := carriesRequest_of_ok hforeign
    cases foreign with
    | false =>
      rw [List.filter_cons, hcarries]
      exact ih pending hnodup.2 hkeys hrest
    | true =>
      have habsent : event.eventId ∉ pending.keys := hnew event List.mem_cons_self
      have hunseen : event.eventId ∉ observed.keys := hkeys ▸ habsent
      rw [List.filter_cons, hcarries, if_pos rfl]
      refine triple_bind (R := fun first s => first = true ∧ Gathering observed before s)
        (triple_read fun s hs => ⟨?_, hs⟩) fun first => ?_
      · rw [RecoveryLedger.observe_first_iff, hs.observations]
        exact OrderedDict.get?_eq_none_iff.mpr hunseen
      refine triple_pure_fact fun hfirst => ?_
      subst hfirst
      refine triple_bind
        (R := fun _ => Gathering (observed.set event.eventId (observedOnce directIds event)) before)
        (triple_update fun s hs => ?_) fun _ => ?_
      · have hnone : s.ledger.observations.get? event.eventId = none := by
          rw [hs.observations]
          exact OrderedDict.get?_eq_none_iff.mpr hunseen
        unfold RecoveryLedger.observe
        rw [hnone]
        exact ⟨congrArg (OrderedDict.set · _ _) hs.observations, hs.processed, hs.registry,
          hs.invoked⟩
      refine triple_consequence (ih (pending.set event.eventId event) hnodup.2 ?_ ?_)
        (fun _ hs => hs) ?_ fun _ _ => trivial
      · rw [OrderedDict.keys_set_of_notMem habsent, OrderedDict.keys_set_of_notMem hunseen, hkeys]
      · intro e he hmem
        rcases OrderedDict.mem_keys_set.mp hmem with hmem | hid
        · exact hrest e he hmem
        · exact hnodup.1 (hid ▸ List.mem_map_of_mem he)
      · rintro collected s ⟨hvalues, observed', hs, hobserved'⟩
        rw [OrderedDict.values_set_of_notMem habsent] at hvalues
        rw [OrderedDict.values_set_of_notMem hunseen] at hobserved'
        refine ⟨hvalues.trans (List.append_assoc _ _ _), observed', hs, hobserved'.trans ?_⟩
        rw [List.append_assoc]
        rfl

/-- The ids of the foreign requests that the slice delivers itself. -/
def directIds (config : AgentConfig) (hexdigest : Text → Text) (slice : RoomSyncSlice) :
    List Text :=
  (slice.events.filter (carriesRequest config hexdigest)).map (·.eventId)

/-- The observations a recovery makes. -/
def observationsOf (config : AgentConfig) (hexdigest : Text → Text) (history : History)
    (slice : RoomSyncSlice) (since : Token) : List Observation :=
  (recovered config hexdigest history slice since).map
    (observedOnce (directIds config hexdigest slice))

variable {slice : RoomSyncSlice} {since : Token}

theorem triple_collectPending_counts (hanswers : Answers env response history) :
    Triple (Gathering .empty before) (collectPending env config hexdigest slice since)
      (fun pending s => pending.values = recovered config hexdigest history slice since ∧
        ∃ observed, Gathering observed before s ∧
          observed.values = observationsOf config hexdigest history slice since)
      fun _ => True := by
  have hlimited : Triple (Gathering .empty before) (noteLimited env slice)
      (fun _ => Gathering .empty before) fun _ => True := by
    unfold noteLimited
    split
    · exact triple_writeTelemetry (fun _ _ => trivial) fun s hs =>
        hs.noted _ rfl rfl rfl (Or.inr rfl)
    · exact triple_ret fun _ hs => hs
  refine triple_bind hlimited fun _ => ?_
  refine triple_bind (triple_reconcile (fun _ _ => trivial) fun s _ hs =>
    hs.noted .recoverySkipped rfl rfl rfl (Or.inl rfl)) fun result => ?_
  refine triple_pure_fact ?_
  rintro ⟨n, counter, hresult⟩
  rw [hanswers.messages n] at hresult
  have hpages : Triple (Gathering .empty before) (notePages env result.2)
      (fun _ => Gathering .empty before) fun _ => True := by
    unfold notePages
    split
    · refine triple_bind (R := fun _ => Gathering .empty before) (triple_update fun s hs =>
        hs.noted .recoverySkipped rfl rfl rfl (Or.inl rfl)) fun _ => ?_
      exact triple_writeTelemetry (fun _ _ => trivial) fun s hs =>
        hs.noted _ rfl rfl rfl (Or.inr rfl)
    · exact triple_ret fun _ hs => hs
  refine triple_bind hpages fun _ => ?_
  refine triple_bind (R := fun direct s =>
    direct = slice.events.filter (carriesRequest config hexdigest) ∧ Gathering .empty before s)
    (triple_ofExcept (fun direct hdirect s hs => ⟨(Fallible.filterM_eq_ok_iff.mp hdirect).2, hs⟩)
      fun _ _ _ _ => trivial) fun direct => ?_
  refine triple_pure_fact ?_
  rintro rfl
  rw [fst_reconcileSlice hresult]
  exact triple_observeEvents_counts _ .empty (nodup_firstSightings _) rfl
    fun _ _ => List.not_mem_nil

/-- Recovered events are foreign requests with different ids. -/
theorem carriesRequest_of_mem_recovered {event : TimelineEvent}
    (h : event ∈ recovered config hexdigest history slice since) :
    carriesRequest config hexdigest event = true :=
  (List.mem_filter.mp h).2

theorem nodup_recovered :
    ((recovered config hexdigest history slice since).map (·.eventId)).Nodup :=
  (List.filter_sublist.map TimelineEvent.eventId).nodup (nodup_firstSightings _)

/-- The recovered events have been handled, in some order. -/
def Recovered (config : AgentConfig) (hexdigest : Text → Text) (history : History)
    (slice : RoomSyncSlice) (since : Token) (before : ℕ) (s : State) : Prop :=
  ∃ ordered, ordered.Perm (recovered config hexdigest history slice since) ∧
    Processing config hexdigest (observationsOf config hexdigest history slice since) before
      ordered s

theorem triple_recoverSlice_counts (hanswers : Answers env response history) :
    Triple (Gathering .empty before) (recoverSlice env config hexdigest (some slice) since)
      (fun _ => Recovered config hexdigest history slice since before) fun _ => True := by
  refine triple_bind (R := fun _ => Gathering .empty before) (triple_update fun s hs =>
    hs.noted .recoverySkipped rfl rfl rfl (Or.inl rfl)) fun _ => ?_
  refine triple_bind (R := fun _ => Gathering .empty before)
    (triple_ofExcept (fun _ _ _ hs => hs) fun _ _ _ _ => trivial) fun direct => ?_
  refine triple_bind (triple_writeTelemetry (fun _ _ => trivial) fun s hs =>
    hs.noted _ rfl rfl rfl (Or.inr rfl)) fun _ => ?_
  refine triple_bind (triple_collectPending_counts hanswers) fun pending => ?_
  refine triple_pure_fact fun hpending => ?_
  refine triple_exists fun observed => ?_
  refine triple_bind (R := fun _ s => Gathering observed before s ∧
    observed.values = observationsOf config hexdigest history slice since)
    (triple_read fun _ hs => hs) fun ledger => ?_
  refine triple_bind (R := fun _ s => Gathering observed before s ∧
    observed.values = observationsOf config hexdigest history slice since)
    (triple_writeTelemetry (fun _ _ => trivial) fun s hs =>
      ⟨hs.1.noted _ rfl rfl rfl (Or.inr rfl), hs.2⟩) fun _ => ?_
  refine triple_bind (R := fun ordered s =>
    inSequence config hexdigest pending = .ok ordered ∧ Gathering observed before s ∧
    observed.values = observationsOf config hexdigest history slice since)
    (triple_ofExcept (fun ordered hordered s hs => ⟨hordered, hs⟩) fun _ _ _ _ => trivial)
    fun ordered => ?_
  refine triple_pure_fact fun hordered => ?_
  have hperm : ordered.Perm (recovered config hexdigest history slice since) :=
    hpending ▸ perm_of_inSequence hordered
  have hhandled : Triple
      (Processing config hexdigest (observationsOf config hexdigest history slice since) before [])
      (ordered.forM (handlePending env config hexdigest)) (fun _ => Processing config hexdigest
        (observationsOf config hexdigest history slice since) before ordered) fun _ => True :=
    triple_handlePending_counts
      (fun event hevent => carriesRequest_of_mem_recovered (hperm.mem_iff.mp hevent))
      ((hperm.map (·.eventId)).nodup_iff.mpr nodup_recovered)
  refine triple_consequence hhandled ?_ (fun _ s hs => ⟨ordered, hperm, hs⟩) fun _ hs => hs
  rintro s ⟨hs, hobserved⟩
  refine ⟨(congrArg OrderedDict.values hs.observations).trans hobserved, hs.processed, ?_, ?_,
    hs.invoked⟩
  · rw [hs.registry]
    exact Finset.empty_subset _
  · rw [hs.registry]
    rfl

/-- **What `recover` leaves behind.**  One observation for each recovered event, all of
them processed, and one invocation of the executor for each correlation key. -/
theorem triple_recover_counts (hanswers : Answers env response history)
    (hslice : response.snapshot.room config.roomId = some slice) :
    Triple
      (fun s => Restarted s ∧ truthy s.checkpointToken = some since ∧ executions s = before)
      (recover env config hexdigest)
      (fun _ => Recovered config hexdigest history slice since before) fun _ => True := by
  refine triple_bind (R := fun token s => truthy token = some since ∧ Gathering .empty before s)
    (triple_read ?_) fun token => ?_
  · rintro s ⟨hs, htoken, hinvoked⟩
    exact ⟨htoken, congrArg (·.observations) hs.ledger, congrArg (·.processed) hs.ledger,
      hs.registry, hinvoked⟩
  refine triple_pure_fact fun htoken => ?_
  rw [htoken]
  refine triple_bind (triple_syncOnce fun _ _ => trivial) fun snapshot => ?_
  refine triple_pure_fact ?_
  rintro ⟨n, response', hresponse, rfl⟩
  obtain rfl := Except.ok.inj ((hanswers.sync n _).symm.trans hresponse)
  rw [hslice]
  refine triple_bind (triple_recoverSlice_counts hanswers) fun _ => ?_
  -- Committing the token and the last telemetry touch neither the ledger nor the registry.
  refine triple_bind (R := fun _ => Recovered config hexdigest history slice since before)
    (triple_update ?_) fun _ => ?_
  · rintro s ⟨ordered, hperm, hs⟩
    exact ⟨ordered, hperm, hs.observations, hs.processed, hs.events, hs.logical, hs.invoked⟩
  refine triple_bind (R := fun _ => Recovered config hexdigest history slice since before)
    (triple_saveCheckpoint (fun _ _ => trivial) ?_) fun _ => ?_
  · rintro s ⟨ordered, hperm, hs⟩
    exact ⟨ordered, hperm, hs.saving⟩
  refine triple_bind (R := fun _ => Recovered config hexdigest history slice since before)
    (triple_read fun _ hs => hs) fun _ => ?_
  refine triple_writeTelemetry (fun _ _ => trivial) ?_
  rintro s ⟨ordered, hperm, hs⟩
  exact ⟨ordered, hperm, hs.recorded _⟩

/-- What a run of `recover` that returns leaves behind. -/
theorem recovered_of_recover (hanswers : Answers env response history)
    (hslice : response.snapshot.room config.roomId = some slice) {n n' : ℕ} {s s' : State}
    (hrestarted : Restarted s) (htoken : truthy s.checkpointToken = some since)
    (hrun : recover env config hexdigest n s = (.ok (), n', s')) :
    Recovered config hexdigest history slice since (executions s) s' := by
  have hrecover : Triple _ (recover env config hexdigest)
      (fun _ => Recovered config hexdigest history slice since (executions s)) fun _ => True :=
    triple_recover_counts hanswers hslice
  have hpost := hrecover n s ⟨hrestarted, htoken, rfl⟩
  rw [hrun] at hpost
  exact hpost

end Run

end Agent
end FederatedMessaging
