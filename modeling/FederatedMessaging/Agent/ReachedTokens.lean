import FederatedMessaging.Agent.ExactlyOnce
import FederatedMessaging.Matrix.Backfill

/-!
# Reached tokens

A sync token in the checkpoint file says that everything up to it need not be looked at
again.  This file says what that promise is, and shows that it survives every kind of
change of the state; the next one follows it through the programs of the runtime.

## 1.  The outside

The room is a timeline, and a token has a position in it.  `HomeserverLaw` says what the
answers to a sync mean: an unlimited slice holds every message of its window, a limited
one holds every message once it is reconciled, no slice means no message, and whatever is
handed out for the room is an event of the timeline.

## 2.  The promise

`Reached trace token` is the promise of one token: there is a first saved token, and every
foreign request of the room between it and this one has been handed to `_handle`, the call
returned, and the executor was invoked for its key --- in one and the same incarnation,
possibly an earlier one.  It concerns the record of what happened only, and a record that
grows keeps it.

## 3.  The invariant

`Durable` is what holds of the file and the record whether the process runs or not: the
file holds what was saved last, and its token is reached.  The invariant of a running
agent, `Running`, says that the token in memory is reached as well, so that a save may
happen at any time.
-/

namespace FederatedMessaging
namespace Agent

open PythonText Message FederatedMessaging.Matrix CrashPrograms CrashPrograms.Prog

variable {env : Environment} {config : AgentConfig} {hexdigest : Text → Text} {tl : Timeline}
  {pos : Token → ℕ}

/-! ## 1.  The outside -/

/-- What the agent is handed for an event of the room. -/
structure Shows (config : AgentConfig) (raw : RawEvent) (event : TimelineEvent) : Prop where
  room : event.roomId = config.roomId
  eventId : event.eventId = raw.eventId
  sender : event.sender = raw.sender.getD []
  body : raw.body = some event.body

/-- A message of the room that is a foreign request. -/
structure RequestOf (config : AgentConfig) (hexdigest : Text → Text) (raw : RawEvent)
    (message : TimelineEvent) (request : InboundRequest) : Prop where
  fromRaw : fromRawEvent config.roomId raw = some message
  foreign : Foreign config hexdigest message request

/-- Every message of a window is among the events. -/
def Covers (tl : Timeline) (config : AgentConfig) (events : List TimelineEvent) (lo hi : ℕ) :
    Prop :=
  ∀ raw ∈ tl.between lo hi, ∀ message, fromRawEvent config.roomId raw = some message →
    message.roomId = config.roomId → ∃ event ∈ events, Shows config raw event

/-- The events of the room among these are events of the timeline. -/
def Genuine (tl : Timeline) (config : AgentConfig) (events : List TimelineEvent) : Prop :=
  ∀ event ∈ events, event.roomId = config.roomId → ∃ raw ∈ tl.events, Shows config raw event

/-- **What the answers of the homeserver mean.**  `pos` is the number of events of the
room before a token. -/
structure HomeserverLaw (env : Environment) (config : AgentConfig) (tl : Timeline)
    (pos : Token → ℕ) : Prop where
  /-- A token is a nonempty string. -/
  nextBatch : ∀ n query response, env.sync n query = .ok response → response.nextBatch ≠ []
  /-- A slice holds events of the room. -/
  genuine : ∀ n query response, env.sync n query = .ok response →
    ∀ item ∈ response.snapshot.rooms, item.roomId = config.roomId → Genuine tl config item.events
  /-- Without a slice there is nothing new in the room. -/
  quiet : ∀ n query response since, env.sync n query = .ok response → query.since = some since →
    (∀ item ∈ response.snapshot.rooms, item.roomId ≠ config.roomId) →
    Covers tl config [] (pos since) (pos response.nextBatch)
  /-- An unlimited slice is complete. -/
  complete : ∀ n query response since, env.sync n query = .ok response →
    query.since = some since → ∀ item ∈ response.snapshot.rooms, item.roomId = config.roomId →
    item.limited = false → Covers tl config item.events (pos since) (pos response.nextBatch)
  /-- `reconcile_slice` returns the missed events of a limited one, or raises. -/
  reconciled : ∀ n query response since, env.sync n query = .ok response →
    query.since = some since → ∀ item ∈ response.snapshot.rooms, item.roomId = config.roomId →
    item.limited = true → ∀ m counter trigger result,
    (reconcileSlice (env.messages m) counter item (some since) trigger).2 = .ok result →
    Genuine tl config result.1 ∧
      Covers tl config result.1 (pos since) (pos response.nextBatch)

/-! ### The events of a slice -/

/-- A timeline has one event for each id. -/
theorem raw_eq_of_eventId_eq {raw raw' : RawEvent} (h : raw ∈ tl.events) (h' : raw' ∈ tl.events)
    (heq : raw.eventId = raw'.eventId) : raw = raw' :=
  List.inj_on_of_nodup_map tl.nodup_ids h h' heq

theorem mem_events_of_mem_between {lo hi : ℕ} {raw : RawEvent} (h : raw ∈ tl.between lo hi) :
    raw ∈ tl.events :=
  List.mem_of_mem_take (List.mem_of_mem_drop h)

theorem shows_of_fromRawEvent {raw : RawEvent} {message : TimelineEvent}
    (h : fromRawEvent config.roomId raw = some message)
    (hroom : message.roomId = config.roomId) : Shows config raw message := by
  unfold fromRawEvent at h
  split at h
  · cases h
  split at h
  · cases h
  rename_i body hbody
  obtain rfl := Option.some_inj.mp h
  exact ⟨hroom, rfl, rfl, hbody⟩

/-- What is handed out for a request is a request. -/
theorem RequestOf.foreign_of_shows {raw : RawEvent} {message event : TimelineEvent}
    {request : InboundRequest} (h : RequestOf config hexdigest raw message request)
    (hshows : Shows config raw event) : Foreign config hexdigest event request := by
  have hmessage := shows_of_fromRawEvent h.fromRaw h.foreign.room
  refine h.foreign.of_eq (hshows.room.trans hmessage.room.symm)
    (hshows.eventId.trans hmessage.eventId.symm) (hshows.sender.trans hmessage.sender.symm) ?_
  exact Option.some_inj.mp (hshows.body.symm.trans hmessage.body)

/-- Two events of the room with one id are handed out for one event. -/
theorem Shows.of_eventId_eq {raw raw' : RawEvent} {event event' : TimelineEvent}
    (h : Shows config raw event) (hraw : raw ∈ tl.events) (h' : Shows config raw' event')
    (hraw' : raw' ∈ tl.events) (heq : event'.eventId = event.eventId) :
    Shows config raw event' := by
  have hid : raw.eventId = raw'.eventId := by rw [← h.eventId, ← h'.eventId, heq]
  rw [raw_eq_of_eventId_eq hraw hraw' hid]
  exact h'

theorem roomId_of_mem_snapshot {response : SyncResponse} {item : RoomSyncSlice}
    (hitem : item ∈ response.snapshot.rooms) {event : TimelineEvent}
    (hevent : event ∈ item.events) :
    event.roomId = item.roomId := by
  obtain ⟨room, -, rfl⟩ := List.mem_map.mp hitem
  obtain ⟨nio, -, hnio⟩ := List.mem_filterMap.mp hevent
  unfold toTimelineEvent at hnio
  obtain ⟨body, -, rfl⟩ := Option.map_eq_some_iff.mp hnio
  rfl

/-- What `reconcile_slice` returns for an unlimited slice: its events, the first of each
id. -/
theorem reconcileSlice_unlimited {ε : Type*} {request : ℕ → PageQuery → Except ε Page}
    {counter : ℕ} {item : RoomSyncSlice} {since : Option Token} {trigger : RecoveryTrigger}
    (hlimited : item.limited = false) {result : List TimelineEvent × Episode}
    (h : (reconcileSlice request counter item since trigger).2 = .ok result) :
    result.1 = (OrderedDict.empty.fileAll TimelineEvent.eventId item.events).values := by
  unfold reconcileSlice at h
  rw [hlimited] at h
  obtain rfl := Except.ok.inj h
  rw [Merge.result, merged_foldl_direct]

/-- A reconciled slice of the room, limited or not, is genuine and covers its window. -/
theorem HomeserverLaw.covers (hlaw : HomeserverLaw env config tl pos) {n m counter : ℕ}
    {query : SyncQuery} {response : SyncResponse} {since : Token}
    (hsync : env.sync n query = .ok response) (hsince : query.since = some since)
    {item : RoomSyncSlice} (hitem : item ∈ response.snapshot.rooms)
    (hroom : item.roomId = config.roomId) {trigger : RecoveryTrigger}
    {result : List TimelineEvent × Episode}
    (hresult : (reconcileSlice (env.messages m) counter item (some since) trigger).2 =
      .ok result) :
    Genuine tl config result.1 ∧
      Covers tl config result.1 (pos since) (pos response.nextBatch) := by
  cases hlimited : item.limited with
  | true =>
    exact hlaw.reconciled n query response since hsync hsince item hitem hroom hlimited m counter
      trigger result hresult
  | false =>
    have hevents := reconcileSlice_unlimited hlimited hresult
    have hgenuine := hlaw.genuine n query response hsync item hitem hroom
    have hmem {event : TimelineEvent} (hevent : event ∈ result.1) : event ∈ item.events := by
      rw [hevents] at hevent
      exact (OrderedDict.mem_values_of_mem_fileAll hevent).elim (fun h => nomatch h) id
    refine ⟨fun event hevent => hgenuine event (hmem hevent), ?_⟩
    intro raw hraw message hmessage hmessageRoom
    obtain ⟨event, hevent, hshows⟩ := hlaw.complete n query response since hsync hsince item hitem
      hroom hlimited raw hraw message hmessage hmessageRoom
    have hkey : event.eventId ∈
        (OrderedDict.empty.fileAll TimelineEvent.eventId item.events).keys :=
      OrderedDict.mem_keys_fileAll.mpr (Or.inr (List.mem_map_of_mem hevent))
    obtain ⟨event', hevent', hid⟩ :=
      (OrderedDict.filedBy_empty.fileAll item.events).exists_of_mem_keys hkey
    rw [← hevents] at hevent'
    have hroom' := (roomId_of_mem_snapshot hitem (hmem hevent')).trans hroom
    obtain ⟨raw', hraw', hshows'⟩ := hgenuine event' (hmem hevent') hroom'
    exact ⟨event', hevent', hshows.of_eventId_eq (mem_events_of_mem_between hraw) hshows' hraw' hid⟩

/-! ## 2.  What a token promises -/

/-- The request of an event was handled: in some incarnation the event was passed to
`_handle`, that call returned, and the executor was invoked for the key. -/
def Handled (trace : List (ℕ × Occurrence)) (eventId : Text) (request : InboundRequest) : Prop :=
  ∃ k event, event.eventId = eventId ∧ (k, .passed event) ∈ trace ∧
    (k, .returned event) ∈ trace ∧
    ∃ event' request', (k, .executed event' request') ∈ trace ∧
      request'.correlationKey = request.correlationKey

/-- Every foreign request at the positions `lo` and up, below `hi`, was handled. -/
def HandledBetween (tl : Timeline) (config : AgentConfig) (hexdigest : Text → Text)
    (trace : List (ℕ × Occurrence)) (lo hi : ℕ) : Prop :=
  ∀ raw ∈ tl.between lo hi, ∀ message request, RequestOf config hexdigest raw message request →
    Handled trace raw.eventId request

/-- The checkpoint an entry of the record saved. -/
def savedCheckpoint : ℕ × Occurrence → Option TransportCheckpoint
  | (_, .saved checkpoint) => some checkpoint
  | _ => none

/-- The token an entry of the record made durable. -/
def savedToken (entry : ℕ × Occurrence) : Option Token :=
  (savedCheckpoint entry).bind (·.syncToken)

/-- The first token that was made durable. -/
def firstSaved (trace : List (ℕ × Occurrence)) : Option Token :=
  (trace.filterMap savedToken).head?

/-- What the checkpoint file holds. -/
def lastSaved (trace : List (ℕ × Occurrence)) : Option TransportCheckpoint :=
  (trace.filterMap savedCheckpoint).getLast?

/-- **Nothing is lost.**  Whenever a token is made durable, every foreign request between
the first durable token and it has been handled before. -/
def NothingLost (tl : Timeline) (pos : Token → ℕ) (config : AgentConfig)
    (hexdigest : Text → Text) (trace : List (ℕ × Occurrence)) : Prop :=
  ∀ front entry back first token, trace = front ++ entry :: back →
    savedToken entry = some token → firstSaved trace = some first →
    HandledBetween tl config hexdigest front (pos first) (pos token)

/-- There is a first durable token, and every foreign request between it and this token
has been handled. -/
def Reached (tl : Timeline) (pos : Token → ℕ) (config : AgentConfig)
    (hexdigest : Text → Text) (trace : List (ℕ × Occurrence)) (token : Token) : Prop :=
  ∃ first, firstSaved trace = some first ∧
    HandledBetween tl config hexdigest trace (pos first) (pos token)

section Promise

variable {trace trace' : List (ℕ × Occurrence)}

theorem Handled.mono {eventId : Text} {request : InboundRequest}
    (h : Handled trace eventId request) (hsub : trace <+: trace') :
    Handled trace' eventId request := by
  obtain ⟨k, event, hid, hpassed, hreturned, event', request', hexecuted, hkey⟩ := h
  exact ⟨k, event, hid, hsub.subset hpassed, hsub.subset hreturned, event', request',
    hsub.subset hexecuted, hkey⟩

theorem HandledBetween.mono {lo hi : ℕ} (h : HandledBetween tl config hexdigest trace lo hi)
    (hsub : trace <+: trace') : HandledBetween tl config hexdigest trace' lo hi :=
  fun raw hraw message request hrequest => (h raw hraw message request hrequest).mono hsub

theorem firstSaved_append {first : Token} (h : firstSaved trace = some first)
    (back : List (ℕ × Occurrence)) : firstSaved (trace ++ back) = some first := by
  unfold firstSaved at h ⊢
  rw [List.filterMap_append, List.head?_append, h]
  rfl

theorem Reached.mono {token : Token} (h : Reached tl pos config hexdigest trace token)
    (hsub : trace <+: trace') : Reached tl pos config hexdigest trace' token := by
  obtain ⟨back, rfl⟩ := hsub
  obtain ⟨first, hfirst, hbetween⟩ := h
  exact ⟨first, firstSaved_append hfirst back, hbetween.mono (List.prefix_append _ _)⟩

theorem mem_between_or {lo mid hi : ℕ} {raw : RawEvent} (h : raw ∈ tl.between lo hi) :
    raw ∈ tl.between lo mid ∨ raw ∈ tl.between mid hi := by
  by_cases hmid : mid ≤ hi
  · by_cases hlo : lo ≤ mid
    · rw [← between_append hlo hmid] at h
      exact List.mem_append.mp h
    · right
      have hmem : raw ∈ tl.between mid lo ++ tl.between lo hi := List.mem_append_right _ h
      by_cases hhi : lo ≤ hi
      · rwa [between_append (not_le.mp hlo).le hhi] at hmem
      · rw [between_eq_nil (not_le.mp hhi).le] at h
        exact absurd h List.not_mem_nil
  · exact Or.inl (mem_between_of_le (not_le.mp hmid).le h)

/-- A reached token and the window after it. -/
theorem Reached.advance {since next : Token} (h : Reached tl pos config hexdigest trace since)
    (hwindow : HandledBetween tl config hexdigest trace (pos since) (pos next)) :
    Reached tl pos config hexdigest trace next := by
  obtain ⟨first, hfirst, hbetween⟩ := h
  refine ⟨first, hfirst, fun raw hraw message request hrequest => ?_⟩
  have hcut : raw ∈ tl.between (pos first) (pos since) ∨ raw ∈ tl.between (pos since) (pos next) :=
    mem_between_or hraw
  rcases hcut with hraw | hraw
  · exact hbetween raw hraw message request hrequest
  · exact hwindow raw hraw message request hrequest

/-- Every foreign request among the events was handled. -/
def AllHandled (config : AgentConfig) (hexdigest : Text → Text) (events : List TimelineEvent)
    (trace : List (ℕ × Occurrence)) : Prop :=
  ∀ event ∈ events, ∀ request, Foreign config hexdigest event request →
    Handled trace event.eventId request

theorem AllHandled.mono {events : List TimelineEvent}
    (h : AllHandled config hexdigest events trace) (hsub : trace <+: trace') :
    AllHandled config hexdigest events trace' :=
  fun event hevent request hforeign => (h event hevent request hforeign).mono hsub

theorem AllHandled.append_singleton {front : List TimelineEvent} {event : TimelineEvent}
    (h : AllHandled config hexdigest front trace)
    (hevent : ∀ request, Foreign config hexdigest event request →
      Handled trace event.eventId request) :
    AllHandled config hexdigest (front ++ [event]) trace := by
  intro event' hevent'
  rcases List.mem_append.mp hevent' with hevent' | hevent'
  · exact h event' hevent'
  · obtain rfl := List.mem_singleton.mp hevent'
    exact hevent

/-- Handling what covers a window handles the window. -/
theorem AllHandled.handledBetween {events : List TimelineEvent} {lo hi : ℕ}
    (h : AllHandled config hexdigest events trace) (hcovers : Covers tl config events lo hi) :
    HandledBetween tl config hexdigest trace lo hi := by
  intro raw hraw message request hrequest
  obtain ⟨event, hevent, hshows⟩ :=
    hcovers raw hraw message hrequest.fromRaw hrequest.foreign.room
  rw [← hshows.eventId]
  exact h event hevent request (hrequest.foreign_of_shows hshows)

end Promise

/-! ## 3.  The invariant -/

/-- What the file and the record say, whether the process runs or not. -/
structure Durable (tl : Timeline) (pos : Token → ℕ) (config : AgentConfig)
    (hexdigest : Text → Text) (s : State) : Prop where
  lost : NothingLost tl pos config hexdigest s.trace
  file : s.file = lastSaved s.trace
  unsaved : s.file = none → firstSaved s.trace = none
  saved : ∀ c, s.file = some c → ∃ token, c.syncToken = some token ∧ token ≠ [] ∧
    Reached tl pos config hexdigest s.trace token
  genuine : ∀ k event, (k, .passed event) ∈ s.trace → event.roomId = config.roomId →
    ∃ raw ∈ tl.events, Shows config raw event
  accounts : ∀ k, AccountedIn config hexdigest k s

/-- A connected agent: the token in memory is reached. -/
structure Running (tl : Timeline) (pos : Token → ℕ) (config : AgentConfig)
    (hexdigest : Text → Text) (since : Token) (s : State) : Prop
    extends Durable tl pos config hexdigest s where
  token : s.syncToken = some since
  nonempty : since ≠ []
  reached : Reached tl pos config hexdigest s.trace since

section Invariant

variable {s s' : State} {since : Token}

/-- A longer record loses nothing if its new saves do not. -/
theorem NothingLost.append {trace added : List (ℕ × Occurrence)}
    (h : NothingLost tl pos config hexdigest trace)
    (hadded : ∀ mid entry back first token, added = mid ++ entry :: back →
      savedToken entry = some token → firstSaved (trace ++ added) = some first →
      HandledBetween tl config hexdigest (trace ++ mid) (pos first) (pos token)) :
    NothingLost tl pos config hexdigest (trace ++ added) := by
  intro front entry back first token hsplit htoken hfirst
  rcases List.append_eq_append_iff.mp hsplit with ⟨mid, hfront, hmid⟩ | ⟨mid, htrace, hmid⟩
  · rw [hfront]
    exact hadded mid entry back first token hmid htoken hfirst
  · cases mid with
    | nil =>
      rw [List.append_nil] at htrace
      have hnew := hadded [] entry back first token hmid.symm htoken hfirst
      rwa [List.append_nil, htrace] at hnew
    | cons entry' mid =>
      obtain ⟨rfl, -⟩ := List.cons.inj hmid
      refine h front entry mid first token htrace htoken ?_
      -- The save is an old one, so the first saved token is an old one too.
      cases hold : firstSaved trace with
      | some first' =>
        rw [firstSaved_append hold] at hfirst
        exact hfirst
      | none =>
        have hnil : trace.filterMap savedToken = [] := List.head?_eq_none_iff.mp hold
        rw [htrace, List.filterMap_append, List.filterMap_cons_some htoken] at hnil
        simp at hnil

/-- What is no save, and no call for an event from nowhere, leaves everything as it was. -/
theorem Durable.growing (h : Durable tl pos config hexdigest s)
    {added : List (ℕ × Occurrence)} (hfile : s'.file = s.file)
    (htrace : s'.trace = s.trace ++ added) (hsaved : ∀ entry ∈ added, savedCheckpoint entry = none)
    (hpassed : ∀ k event, (k, .passed event) ∈ added → event.roomId = config.roomId →
      ∃ raw ∈ tl.events, Shows config raw event)
    (haccounts : ∀ k, AccountedIn config hexdigest k s') : Durable tl pos config hexdigest s' := by
  have htoken : ∀ entry ∈ added, savedToken entry = none := fun entry hmem => by
    rw [savedToken, hsaved entry hmem]
    rfl
  have hcheckpoints : added.filterMap savedCheckpoint = [] := List.filterMap_eq_nil_iff.mpr hsaved
  have htokens : added.filterMap savedToken = [] := List.filterMap_eq_nil_iff.mpr htoken
  refine ⟨?_, ?_, fun hnone => ?_, fun c hc => ?_, fun k event hmem hroom => ?_, haccounts⟩
  · rw [htrace]
    refine h.lost.append fun mid entry back first token hsplit hsome => ?_
    rw [htoken entry (by rw [hsplit]; simp)] at hsome
    cases hsome
  · rw [hfile, htrace, lastSaved, List.filterMap_append, hcheckpoints, List.append_nil]
    exact h.file
  · rw [htrace, firstSaved, List.filterMap_append, htokens, List.append_nil]
    exact h.unsaved (hfile.symm.trans hnone)
  · obtain ⟨token, hc', hne, hreached⟩ := h.saved c (hfile.symm.trans hc)
    exact ⟨token, hc', hne, hreached.mono (htrace ▸ List.prefix_append _ _)⟩
  · rw [htrace] at hmem
    rcases List.mem_append.mp hmem with hmem | hmem
    · exact h.genuine k event hmem hroom
    · exact hpassed k event hmem hroom

/-- The same for one silent occurrence. -/
theorem Durable.noting (h : Durable tl pos config hexdigest s) {occurrence : Occurrence}
    (hsilent : occurrence.silent = true) (hsaved : ∀ k, savedCheckpoint (k, occurrence) = none) :
    Durable tl pos config hexdigest (s.noting occurrence) := by
  refine h.growing rfl rfl (fun entry hmem => ?_) (fun k event hmem => ?_) fun k =>
    (h.accounts k).noting_silent hsilent
  · obtain rfl := List.mem_singleton.mp hmem
    exact hsaved _
  · obtain ⟨-, rfl⟩ := Prod.mk.inj (List.mem_singleton.mp hmem)
    cases hsilent

theorem Durable.recorded (h : Durable tl pos config hexdigest s) (record : Record) :
    Durable tl pos config hexdigest (s.noting (.recorded record)) := h.noting rfl fun _ => rfl

theorem Durable.of_sameCore (hsame : SameCore s s') (h : Durable tl pos config hexdigest s) :
    Durable tl pos config hexdigest s' := by
  refine ⟨?_, ?_, ?_, ?_, ?_, fun k => (routine_accountedIn k).aside s s' hsame (h.accounts k)⟩
  · rw [hsame.trace]
    exact h.lost
  · rw [hsame.trace, hsame.file]
    exact h.file
  · rw [hsame.trace, hsame.file]
    exact h.unsaved
  · rw [hsame.trace, hsame.file]
    exact h.saved
  · rw [hsame.trace]
    exact h.genuine

/-- The session is of no account here. -/
theorem Durable.session (h : Durable tl pos config hexdigest s) (session : Session) :
    Durable tl pos config hexdigest { s with session := session } :=
  ⟨h.lost, h.file, h.unsaved, h.saved, h.genuine, fun k =>
    (h.accounts k).step rfl (fun _ => rfl) fun _ hbefore => hbefore⟩

/-- **A save of a reached token**, or of the first one. -/
theorem Durable.saving (h : Durable tl pos config hexdigest s) {token : Token}
    (htoken : s.syncToken = some token) (hne : token ≠ [])
    (hreached : firstSaved s.trace = none ∨ Reached tl pos config hexdigest s.trace token) :
    Running tl pos config hexdigest token s.saving := by
  set entry : ℕ × Occurrence := (s.incarnation,
    .saved ⟨s.session.accessToken, s.session.deviceId, s.syncToken⟩) with hentry
  have hsavedToken : savedToken entry = some token := htoken
  have hlast : lastSaved (s.trace ++ [entry]) =
      some ⟨s.session.accessToken, s.session.deviceId, s.syncToken⟩ := by
    simp [lastSaved, List.filterMap_append, savedCheckpoint, hentry]
  have hafter : Reached tl pos config hexdigest (s.trace ++ [entry]) token := by
    rcases hreached with hnone | hreached
    · refine ⟨token, ?_, fun raw hraw => ?_⟩
      · have hnil : s.trace.filterMap savedToken = [] := List.head?_eq_none_iff.mp hnone
        rw [firstSaved, List.filterMap_append, hnil, List.nil_append,
          List.filterMap_cons_some hsavedToken]
        rfl
      · rw [between_eq_nil le_rfl] at hraw
        exact absurd hraw List.not_mem_nil
    · exact hreached.mono (List.prefix_append _ _)
  refine ⟨⟨h.lost.append fun mid entry' back first token' hsplit htoken' hfirst => ?_,
    hlast.symm, nofun, ?_, ?_, ?_⟩, htoken, hne, hafter⟩
  · -- The new save is the only one, and what it saves is reached.
    obtain ⟨rfl, hentry', -⟩ : mid = [] ∧ entry = entry' ∧ back = [] := by
      cases mid with
      | nil => simpa using hsplit
      | cons _ mid => simp at hsplit
    subst hentry'
    obtain rfl := Option.some_inj.mp (hsavedToken.symm.trans htoken')
    rw [List.append_nil]
    rcases hreached with hnone | ⟨first', hfirst', hbetween⟩
    · have hnil : s.trace.filterMap savedToken = [] := List.head?_eq_none_iff.mp hnone
      rw [firstSaved, List.filterMap_append, hnil, List.nil_append,
        List.filterMap_cons_some hsavedToken] at hfirst
      obtain rfl := Option.some_inj.mp hfirst
      intro raw hraw
      rw [between_eq_nil le_rfl] at hraw
      exact absurd hraw List.not_mem_nil
    · rw [firstSaved_append hfirst'] at hfirst
      obtain rfl := Option.some_inj.mp hfirst
      exact hbetween
  · intro c hc
    obtain rfl := Option.some_inj.mp hc
    exact ⟨token, htoken, hne, hafter⟩
  · intro k event hmem hroom
    exact h.genuine k event (by simpa [State.saving, State.noting] using hmem) hroom
  · exact fun k => (routine_accountedIn k).saving s (h.accounts k)

theorem Running.saving (h : Running tl pos config hexdigest since s) :
    Running tl pos config hexdigest since s.saving :=
  h.toDurable.saving h.token h.nonempty (Or.inr h.reached)

theorem Running.recorded (h : Running tl pos config hexdigest since s) (record : Record) :
    Running tl pos config hexdigest since (s.noting (.recorded record)) :=
  ⟨h.toDurable.recorded record, h.token, h.nonempty, h.reached.mono (List.prefix_append _ _)⟩

theorem Running.of_sameCore (hsame : SameCore s s') (htoken : s'.syncToken = s.syncToken)
    (h : Running tl pos config hexdigest since s) : Running tl pos config hexdigest since s' :=
  ⟨h.toDurable.of_sameCore hsame, htoken.trans h.token, h.nonempty, by
    rw [hsame.trace]
    exact h.reached⟩

/-- Changing nothing but the volatile bookkeeping. -/
theorem preserves_running_aside {f : State → State} (hsame : ∀ s, SameCore s (f s))
    (htoken : ∀ s, (f s).syncToken = s.syncToken) :
    Preserves (Running tl pos config hexdigest since) (update f : Program Unit) :=
  triple_update fun s hs => hs.of_sameCore (hsame s) (htoken s)

/-- Setting the token to what it is. -/
theorem Running.reset (h : Running tl pos config hexdigest since s) :
    Running tl pos config hexdigest since { s with syncToken := some since } := by
  have hsame : SameCore s { s with syncToken := some since } := ⟨rfl, rfl, rfl, rfl, rfl⟩
  exact h.of_sameCore hsame h.token.symm

/-- The token moves once its window has been handled. -/
theorem Running.advance (h : Running tl pos config hexdigest since s) {next : Token}
    (hne : next ≠ [])
    (hwindow : HandledBetween tl config hexdigest s.trace (pos since) (pos next)) :
    Running tl pos config hexdigest next { s with syncToken := some next } := by
  have hsame : SameCore s { s with syncToken := some next } := ⟨rfl, rfl, rfl, rfl, rfl⟩
  exact ⟨h.toDurable.of_sameCore hsame, rfl, hne, h.reached.advance hwindow⟩

/-- A running agent whose record grows without a save. -/
theorem Running.growing (h : Running tl pos config hexdigest since s)
    {added : List (ℕ × Occurrence)} (hfile : s'.file = s.file)
    (htoken : s'.syncToken = s.syncToken) (htrace : s'.trace = s.trace ++ added)
    (hsaved : ∀ entry ∈ added, savedCheckpoint entry = none)
    (hpassed : ∀ k event, (k, .passed event) ∈ added → event.roomId = config.roomId →
      ∃ raw ∈ tl.events, Shows config raw event)
    (haccounts : ∀ k, AccountedIn config hexdigest k s') :
    Running tl pos config hexdigest since s' :=
  ⟨h.toDurable.growing hfile htrace hsaved hpassed haccounts, htoken.trans h.token, h.nonempty,
    h.reached.mono (htrace ▸ List.prefix_append _ _)⟩

/-- The ids of the events on record are consistent. -/
theorem Durable.sameIds (h : Durable tl pos config hexdigest s) (k : ℕ) :
    SameIds config (s.during k) := by
  intro event event' hmem hmem' hroom hroom' hid
  obtain ⟨raw, hraw, hshows⟩ := h.genuine k event (mem_during.mp hmem) hroom
  obtain ⟨raw', hraw', hshows'⟩ := h.genuine k event' (mem_during.mp hmem') hroom'
  have hsame := hshows.of_eventId_eq hraw hshows' hraw' hid.symm
  exact ⟨hshows.sender.trans hsame.sender.symm,
    Option.some_inj.mp (hshows.body.symm.trans hsame.body)⟩

/-- **A call that returned has handled its request.** -/
theorem Durable.handled (h : Durable tl pos config hexdigest s) {k : ℕ} {event : TimelineEvent}
    {request : InboundRequest} (hforeign : Foreign config hexdigest event request)
    (hpassed : (k, .passed event) ∈ s.trace) (hreturned : (k, .returned event) ∈ s.trace) :
    Handled s.trace event.eventId request := by
  obtain ⟨registry, haccount⟩ := (h.accounts k).exists_registry (h.sameIds k)
  have hkey := haccount.passed event request (mem_during.mpr hpassed) hforeign
  rw [← haccount.mem_executions, List.mem_filterMap] at hkey
  obtain ⟨occurrence, hmem, hexecuted⟩ := hkey
  cases occurrence with
  | executed event' request' =>
    exact ⟨k, event, rfl, hpassed, hreturned, event', request', mem_during.mp hmem,
      Option.some_inj.mp hexecuted⟩
  | _ => cases hexecuted

end Invariant

end Agent
end FederatedMessaging
