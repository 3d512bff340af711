import FederatedMessaging.Agent.RecoveredEvents

/-!
# The two numbers a recovery reports

The ledger publishes how often a recovered event was observed again, and how many events
were processed.  Both are read by the experiments as facts about the outside: the first
as transport overlap, the second as the number of executions.

## 1.  Duplicate observations

An event that the slice and a page both deliver is two observations of the same event,
"recorded rather than hidden".  But `reconcile_slice` has removed the second sighting
before the ledger is asked, so the ledger sees every event once and its count is always
zero (`duplicateObservationCount_eq_zero`).  The partition of the recovered events by the
source that first delivered them is right all the same.

## 2.  Processed events

The ledger marks event ids, and the registry lets through correlation keys.  Two events
that carry one key are two processed events and one execution.
-/

namespace FederatedMessaging
namespace Agent

open PythonText Message FederatedMessaging.Matrix CrashPrograms CrashPrograms.Prog

variable {config : AgentConfig} {hexdigest : Text → Text} {env : Environment}
  {response : SyncResponse} {history : History} {slice : RoomSyncSlice} {since : Token}

/-! ## 1.  Duplicate observations -/

/-- The event of this id, as it was first sighted, is a foreign request. -/
def isRequest (config : AgentConfig) (hexdigest : Text → Text) (events : List TimelineEvent)
    (eventId : Text) : Bool :=
  (events.find? fun event => event.eventId = eventId).any (carriesRequest config hexdigest)

/-- How often an event was sighted. -/
def timesSighted (events : List TimelineEvent) (eventId : Text) : ℕ :=
  (events.map (·.eventId)).count eventId

/-- The repeated sightings of foreign requests: an event delivered `k` times counts
`k - 1`. -/
def repeatedSightings (config : AgentConfig) (hexdigest : Text → Text)
    (events : List TimelineEvent) : ℕ :=
  (((events.map (·.eventId)).dedup.filter (isRequest config hexdigest events)).map fun eventId =>
    timesSighted events eventId - 1).sum

/-- **Recovery observations are counted, not hidden.**  `from_sync` has the requests that
the slice delivered, `from_history` those that only the pages did, and the count of
duplicate observations is the number of repeated sightings. -/
structure ObservationsCounted (config : AgentConfig) (hexdigest : Text → Text)
    (history : History) (slice : RoomSyncSlice) (since : Token) (ledger : RecoveryLedger) :
    Prop where
  fromSync : ∀ eventId, eventId ∈ (ledger.firstSeenBy .sync).map (·.eventId) ↔
    isRequest config hexdigest slice.events eventId = true
  fromHistory : ∀ eventId, eventId ∈ (ledger.firstSeenBy .history).map (·.eventId) ↔
    eventId ∉ slice.events.map (·.eventId) ∧
      isRequest config hexdigest (historyOf history slice since) eventId = true
  counted : ledger.duplicateObservationCount =
    repeatedSightings config hexdigest (sightings history slice since)

/-- The first sightings are what looking for an id finds. -/
theorem mem_firstSightings_iff {events : List TimelineEvent} {event : TimelineEvent} :
    event ∈ firstSightings events ↔
      events.find? (fun e => e.eventId = event.eventId) = some event := by
  rw [firstSightings, OrderedDict.mem_values_fileAll_iff]
  exact ⟨fun h => (h.resolve_left List.not_mem_nil).2, fun h => Or.inr ⟨List.not_mem_nil, h⟩⟩

theorem isRequest_iff {events : List TimelineEvent} {eventId : Text} :
    isRequest config hexdigest events eventId = true ↔
      ∃ event ∈ firstSightings events, event.eventId = eventId ∧
        carriesRequest config hexdigest event = true := by
  unfold isRequest
  rw [Option.any_eq_true]
  constructor
  · rintro ⟨event, hfind, hcarries⟩
    have hid : event.eventId = eventId := by simpa using List.find?_some hfind
    exact ⟨event, mem_firstSightings_iff.mpr (hid ▸ hfind), hid, hcarries⟩
  · rintro ⟨event, hmem, rfl, hcarries⟩
    exact ⟨event, mem_firstSightings_iff.mp hmem, hcarries⟩

/-- The events of an id are sighted in the slice first. -/
theorem isRequest_append {front back : List TimelineEvent} {eventId : Text} :
    isRequest config hexdigest (front ++ back) eventId =
      if eventId ∈ front.map (·.eventId) then isRequest config hexdigest front eventId
      else isRequest config hexdigest back eventId := by
  unfold isRequest
  rw [List.find?_append]
  split
  · rename_i hmem
    obtain ⟨event, hevent, hid⟩ := List.mem_map.mp hmem
    have hsome : (front.find? fun event => event.eventId = eventId).isSome = true :=
      List.find?_isSome.mpr ⟨event, hevent, decide_eq_true hid⟩
    rw [Option.or_of_isSome hsome]
  · rename_i hmem
    have hnone : (front.find? fun event => event.eventId = eventId) = none :=
      List.find?_eq_none.mpr fun event hevent hid =>
        hmem (List.mem_map.mpr ⟨event, hevent, of_decide_eq_true hid⟩)
    rw [hnone, Option.none_or]

/-- The ledger counts nothing, whatever was sighted. -/
theorem duplicateObservationCount_eq_zero {ledger : RecoveryLedger} {directIds : List Text}
    {events : List TimelineEvent}
    (h : ledger.observations.values = events.map (observedOnce directIds)) :
    ledger.duplicateObservationCount = 0 := by
  unfold RecoveryLedger.duplicateObservationCount
  rw [h, List.filter_eq_nil_iff.mpr, List.map_nil, List.sum_nil]
  intro item hitem
  obtain ⟨event, -, rfl⟩ := List.mem_map.mp hitem
  exact Bool.false_ne_true

/-- Nothing is repeated when no request is sighted twice. -/
theorem repeatedSightings_eq_zero_iff {events : List TimelineEvent} :
    repeatedSightings config hexdigest events = 0 ↔
      ∀ eventId, isRequest config hexdigest events eventId = true →
        timesSighted events eventId ≤ 1 := by
  unfold repeatedSightings
  rw [List.sum_eq_zero_iff, List.forall_mem_map]
  constructor
  · intro h eventId hrequest
    by_cases hmem : eventId ∈ events.map (·.eventId)
    · have hzero := h eventId (List.mem_filter.mpr ⟨List.mem_dedup.mpr hmem, hrequest⟩)
      omega
    · have hzero : timesSighted events eventId = 0 := List.count_eq_zero.mpr hmem
      omega
  · intro h eventId hmem
    have hle := h eventId (List.mem_filter.mp hmem).2
    omega

section Partition

variable {ledger : RecoveryLedger}
  (h : ledger.observations.values = observationsOf config hexdigest history slice since)
include h

theorem mem_firstSeenBy_iff {source : Source} {eventId : Text} :
    eventId ∈ (ledger.firstSeenBy source).map (·.eventId) ↔
      isRequest config hexdigest (sightings history slice since) eventId = true ∧
        (if eventId ∈ directIds config hexdigest slice then Source.sync else .history) =
          source := by
  rw [RecoveryLedger.firstSeenBy, h, isRequest_iff]
  constructor
  · intro hmem
    obtain ⟨item, hitem, rfl⟩ := List.mem_map.mp hmem
    obtain ⟨hitem, hsource⟩ := List.mem_filter.mp hitem
    obtain ⟨event, hevent, rfl⟩ := List.mem_map.mp hitem
    obtain ⟨hfirst, hcarries⟩ := List.mem_filter.mp hevent
    exact ⟨⟨event, hfirst, rfl, hcarries⟩, beq_iff_eq.mp hsource⟩
  · rintro ⟨⟨event, hfirst, rfl, hcarries⟩, hsource⟩
    refine List.mem_map.mpr ⟨observedOnce (directIds config hexdigest slice) event,
      List.mem_filter.mpr ⟨List.mem_map.mpr ⟨event, List.mem_filter.mpr ⟨hfirst, hcarries⟩, rfl⟩,
        beq_iff_eq.mpr hsource⟩, rfl⟩

omit h in
theorem mem_map_of_isRequest {events : List TimelineEvent} {eventId : Text}
    (hrequest : isRequest config hexdigest events eventId = true) :
    eventId ∈ events.map (·.eventId) := by
  obtain ⟨event, hfirst, rfl, -⟩ := isRequest_iff.mp hrequest
  exact List.mem_map_of_mem (List.mem_of_find?_eq_some (mem_firstSightings_iff.mp hfirst))

omit h in
/-- A request that the slice delivers is a direct one. -/
theorem mem_directIds_of_isRequest {eventId : Text}
    (hrequest : isRequest config hexdigest slice.events eventId = true) :
    eventId ∈ directIds config hexdigest slice := by
  obtain ⟨event, hfirst, rfl, hcarries⟩ := isRequest_iff.mp hrequest
  have hmem := List.mem_of_find?_eq_some (mem_firstSightings_iff.mp hfirst)
  exact List.mem_map_of_mem (List.mem_filter.mpr ⟨hmem, hcarries⟩)

omit h in
theorem mem_map_of_mem_directIds {eventId : Text}
    (hdirect : eventId ∈ directIds config hexdigest slice) :
    eventId ∈ slice.events.map (·.eventId) := by
  obtain ⟨event, hevent, rfl⟩ := List.mem_map.mp hdirect
  exact List.mem_map_of_mem (List.mem_filter.mp hevent).1

/-- What the slice delivered. -/
theorem mem_fromSync_iff {eventId : Text} :
    eventId ∈ (ledger.firstSeenBy .sync).map (·.eventId) ↔
      isRequest config hexdigest slice.events eventId = true := by
  rw [mem_firstSeenBy_iff h, sightings, isRequest_append]
  constructor
  · rintro ⟨hrequest, hsource⟩
    have hdirect : eventId ∈ directIds config hexdigest slice := by
      by_contra hdirect
      rw [if_neg hdirect] at hsource
      cases hsource
    rwa [if_pos (mem_map_of_mem_directIds hdirect)] at hrequest
  · intro hrequest
    rw [if_pos (mem_map_of_isRequest hrequest), if_pos (mem_directIds_of_isRequest hrequest)]
    exact ⟨hrequest, rfl⟩

/-- What only the pages delivered. -/
theorem mem_fromHistory_iff {eventId : Text} :
    eventId ∈ (ledger.firstSeenBy .history).map (·.eventId) ↔
      eventId ∉ slice.events.map (·.eventId) ∧
        isRequest config hexdigest (historyOf history slice since) eventId = true := by
  rw [mem_firstSeenBy_iff h, sightings, isRequest_append]
  by_cases hmem : eventId ∈ slice.events.map (·.eventId)
  · rw [if_pos hmem]
    refine ⟨fun ⟨hrequest, hsource⟩ => ?_, fun hnot => absurd hmem hnot.1⟩
    rw [if_pos (mem_directIds_of_isRequest hrequest)] at hsource
    cases hsource
  · rw [if_neg hmem, if_neg (mt mem_map_of_mem_directIds hmem)]
    exact ⟨fun ⟨hrequest, _⟩ => ⟨hmem, hrequest⟩, fun ⟨_, hrequest⟩ => ⟨hrequest, rfl⟩⟩

end Partition

/-- **The observations are counted exactly when there is nothing to count**: no foreign
request is sighted twice over the slice and the pages. -/
theorem observationsCounted_iff (hanswers : Answers env response history)
    (hslice : response.snapshot.room config.roomId = some slice) {n n' : ℕ} {s s' : State}
    (hrestarted : Restarted s) (htoken : truthy s.checkpointToken = some since)
    (hrun : recover env config hexdigest n s = (.ok (), n', s')) :
    ObservationsCounted config hexdigest history slice since s'.ledger ↔
      ∀ eventId, isRequest config hexdigest (sightings history slice since) eventId = true →
        timesSighted (sightings history slice since) eventId ≤ 1 := by
  obtain ⟨ordered, -, hs⟩ := recovered_of_recover hanswers hslice hrestarted htoken hrun
  have hzero := duplicateObservationCount_eq_zero hs.observations
  rw [← repeatedSightings_eq_zero_iff]
  constructor
  · exact fun h => h.counted.symm.trans hzero
  · intro h
    exact ⟨fun _ => mem_fromSync_iff hs.observations, fun _ => mem_fromHistory_iff hs.observations,
      hzero.trans h.symm⟩

/-! ## 2.  Processed events -/

/-- **The reported processing count is the number of executions**, and the number of
different correlation keys that were recovered. -/
structure CountsAgree (config : AgentConfig) (hexdigest : Text → Text) (history : History)
    (slice : RoomSyncSlice) (since : Token) (before after : State) : Prop where
  executed : executions after = executions before + after.ledger.processedCount
  distinct : after.ledger.processedCount =
    (keysOf config hexdigest (recovered config hexdigest history slice since)).toFinset.card

/-- **The counts agree exactly when no two recovered events carry one correlation key.** -/
theorem countsAgree_iff (hanswers : Answers env response history)
    (hslice : response.snapshot.room config.roomId = some slice) {n n' : ℕ} {s s' : State}
    (hrestarted : Restarted s) (htoken : truthy s.checkpointToken = some since)
    (hrun : recover env config hexdigest n s = (.ok (), n', s')) :
    CountsAgree config hexdigest history slice since s s' ↔
      (keysOf config hexdigest (recovered config hexdigest history slice since)).Nodup := by
  obtain ⟨ordered, hperm, hs⟩ := recovered_of_recover hanswers hslice hrestarted htoken hrun
  set keys := keysOf config hexdigest (recovered config hexdigest history slice since)
  have hkeys : (keysOf config hexdigest ordered).toFinset = keys.toFinset :=
    List.toFinset_eq_of_perm _ _ (hperm.filterMap _)
  have hprocessed : s'.ledger.processedCount = keys.length := by
    have hnodup : ((recovered config hexdigest history slice since).map (·.eventId)).Nodup :=
      nodup_recovered
    have hcard := List.toFinset_card_of_nodup
      ((hperm.map TimelineEvent.eventId).nodup_iff.mpr hnodup)
    rw [RecoveryLedger.processedCount, hs.processed, hcard, List.length_map, hperm.length_eq]
    exact (length_keysOf fun event hevent => carriesRequest_of_mem_recovered hevent).symm
  have hexecuted : executions s' = executions s + keys.toFinset.card := hkeys ▸ hs.invoked
  constructor
  · intro h
    have hcard : keys.dedup.length = keys.length :=
      (List.card_toFinset keys).symm.trans (h.distinct.symm.trans hprocessed)
    exact List.dedup_eq_self.mp ((List.dedup_sublist keys).eq_of_length hcard)
  · intro h
    have hcard := List.toFinset_card_of_nodup h
    exact ⟨by rw [hexecuted, hprocessed, hcard], hprocessed.trans hcard.symm⟩

/-! ## 3.  Two recoveries

A restarted agent recovers from a slice that is limited to the newer of two requests,
and from one page of history that goes back over the slice. -/

/-- The sync that ends in an event. -/
def endingIn (event : NioEvent) : SyncResponse :=
  ⟨smallToken 2, [⟨['R'], [event], true, some (smallToken 2)⟩]⟩

/-- One page of history. -/
def onePage (raws : List RawEvent) : History := fun _ _ => .ok ⟨raws, none⟩

/-- The deployment with this sync and this page. -/
def gapEnvironment (event : NioEvent) (raws : List RawEvent) : Environment :=
  { smallEnvironment 1000 1000 [] with
    sync := fun _ _ => .ok (endingIn event)
    messages := fun _ => onePage raws }

theorem answers_gapEnvironment (event : NioEvent) (raws : List RawEvent) :
    Answers (gapEnvironment event raws) (endingIn event) (onePage raws) :=
  ⟨fun _ _ => rfl, fun _ => rfl⟩

/-- The slice of the room in it. -/
def gapSlice (event : NioEvent) : RoomSyncSlice :=
  ⟨['R'], [event].filterMap (toTimelineEvent ['R']), true, some (smallToken 2), 1⟩

/-- A restarted agent with a checkpoint. -/
def restartedState : State :=
  { State.initial none with checkpointToken := some (smallToken 0) }

/-- Its recovery. -/
def gapRecovery (event : NioEvent) (raws : List RawEvent) :
    Outcome Halt Fault Unit × ℕ × State :=
  recover (gapEnvironment event raws) (smallConfig .controlled) (fun text => text) 0 restartedState

theorem gapRecovery_eq (event : NioEvent) (raws : List RawEvent)
    (h : (gapRecovery event raws).1 = .ok ()) :
    recover (gapEnvironment event raws) (smallConfig .controlled) (fun text => text) 0
      restartedState = (.ok (), (gapRecovery event raws).2.1, (gapRecovery event raws).2.2) :=
  Prod.ext h rfl

/-- The older of two requests once more, under another id. -/
def resentRaw : List RawEvent :=
  [⟨some messageEventType, none, ['$', '0'], some ['@', 'h'], some (requestBody '2'), some 0⟩]

/-- The page goes back over the event of the slice, and the ledger has no duplicate. -/
theorem overlappingPage_not_counted :
    ¬ ObservationsCounted (smallConfig .controlled) (fun text => text) (onePage smallRaw.reverse)
      (gapSlice smallNewest) (smallToken 0)
      (gapRecovery smallNewest smallRaw.reverse).2.2.ledger := by
  intro h
  exact absurd h.counted (by decide +kernel)

/-- A page that ends before the slice. -/
theorem disjointPage_counted :
    ObservationsCounted (smallConfig .controlled) (fun text => text)
      (onePage (smallRaw.take 1)) (gapSlice smallNewest) (smallToken 0)
      (gapRecovery smallNewest (smallRaw.take 1)).2.2.ledger := by
  have hrun := gapRecovery_eq smallNewest (smallRaw.take 1)
    (by decide +kernel)
  refine (observationsCounted_iff (answers_gapEnvironment smallNewest (smallRaw.take 1)) rfl
    ⟨rfl, rfl⟩ rfl hrun).mpr ?_
  have hnodup : ((sightings (onePage (smallRaw.take 1)) (gapSlice smallNewest)
      (smallToken 0)).map (·.eventId)).Nodup := by decide +kernel
  exact fun eventId _ => List.nodup_iff_count_le_one.mp hnodup eventId

/-- Two events with one correlation key are processed twice and executed once. -/
theorem resentRequest_not_countsAgree :
    ¬ CountsAgree (smallConfig .controlled) (fun text => text) (onePage resentRaw)
      (gapSlice smallNewest) (smallToken 0) restartedState
      (gapRecovery smallNewest resentRaw).2.2 := by
  intro h
  exact absurd h.executed (by decide +kernel)

/-- Two events with two keys are not. -/
theorem twoRequests_countsAgree :
    CountsAgree (smallConfig .controlled) (fun text => text) (onePage (smallRaw.take 1))
      (gapSlice smallNewest) (smallToken 0) restartedState
      (gapRecovery smallNewest (smallRaw.take 1)).2.2 :=
  (countsAgree_iff (answers_gapEnvironment smallNewest (smallRaw.take 1)) rfl ⟨rfl, rfl⟩ rfl
    (gapRecovery_eq _ _ (by decide +kernel))).mpr (by decide +kernel)

end Agent
end FederatedMessaging
