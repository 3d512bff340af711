import FederatedMessaging.Agent.ReachedTokens

/-!
# No request is lost across checkpoints

Whenever a token is saved, every foreign request of the room between the first saved token
and it has been handled before.

The proof follows `Running` through the programs.  The token in memory moves in two places
only, after a recovery and after a batch, and both times the whole window up to the new
token has been handled: an event of a window is dispatched, or an earlier one raised and
the token stays.  A recovery dispatches the pending events in the order of their sequence
numbers; `pending` has one event for each id, so that the ledger, which is new, skips none
of them.

The memory is lost with the process.  What a restart finds is the file, whose token is
reached because it was saved, or no file at all; in that case there is no first saved
token yet, and the one that `connect` primes becomes it.
-/

namespace FederatedMessaging
namespace Agent

open PythonText Message FederatedMessaging.Matrix CrashPrograms CrashPrograms.Prog

variable {env : Environment} {config : AgentConfig} {hexdigest : Text → Text} {tl : Timeline}
  {pos : Token → ℕ}

/-! ## 1.  Handling -/

section Handling

variable {since : Token}

/-- Reconciling a slice. -/
theorem triple_running_reconcile (item : RoomSyncSlice) (trigger : RecoveryTrigger) :
    Triple (Running tl pos config hexdigest since) (reconcile env item (some since) trigger)
      (fun result s => (∃ n counter, (reconcileSlice (env.messages n) counter item (some since)
        trigger).2 = .ok result) ∧ Running tl pos config hexdigest since s)
      (Running tl pos config hexdigest since) := by
  refine triple_reconcile (fun _ hs => hs) fun s episodes hs => ?_
  have hsame : SameCore s { s with episodeCounter := episodes } := ⟨rfl, rfl, rfl, rfl, rfl⟩
  exact hs.of_sameCore hsame rfl

/-- One event of the room, or of another one. -/
theorem preserves_running_dispatch {event : TimelineEvent}
    (hgenuine : event.roomId = config.roomId → ∃ raw ∈ tl.events, Shows config raw event) :
    Preserves (Running tl pos config hexdigest since) (dispatch env config hexdigest event) := by
  have haccount : ∀ k, SurvivesEvent config hexdigest (AccountedIn config hexdigest k)
      (AccountedIn config hexdigest k) event (Unanswered config hexdigest k event) :=
    fun k => survives_accountedIn k event
  have hcalled {s : State} (h : Running tl pos config hexdigest since s)
      (hafter : ∀ k, AccountedIn config hexdigest k (s.noting (.passed event))) :
      Running tl pos config hexdigest since (s.noting (.passed event)) := by
    refine h.growing rfl rfl rfl (fun entry hmem => ?_) (fun k event' hmem => ?_) hafter
    · obtain rfl := List.mem_singleton.mp hmem
      rfl
    · obtain ⟨-, hevent⟩ := Prod.mk.inj (List.mem_singleton.mp hmem)
      obtain rfl := Occurrence.passed.inj hevent
      exact hgenuine
  have hsurvives : SurvivesEvent config hexdigest (Running tl pos config hexdigest since)
      (Running tl pos config hexdigest since) event fun request s =>
        Running tl pos config hexdigest since s ∧
          ∀ k, Unanswered config hexdigest k event request s := by
    refine
      { ignored := fun s hnot h => hcalled h fun k => (haccount k).ignored s hnot (h.accounts k)
        duplicate := fun s request hforeign hdecide h => hcalled h fun k =>
          (haccount k).duplicate s request hforeign hdecide (h.accounts k)
        executing := fun s request hforeign hdecide h => ?_
        answering := fun s request h => h.1
        sent := fun s request created hforeign h => ?_
        recorded := fun s record h => h.recorded record
        saving := fun s h => h.saving }
    · have hunanswered := fun k =>
        (haccount k).executing s request hforeign hdecide (h.accounts k)
      refine ⟨h.growing rfl rfl (List.append_assoc _ _ _) (fun entry hmem => ?_)
        (fun k event' hmem => ?_) fun k => (hunanswered k).account, hunanswered⟩
      · rcases List.mem_append.mp hmem with hmem | hmem
        all_goals
          obtain rfl := List.mem_singleton.mp hmem
          rfl
      · have hevent : k = s.incarnation ∧ event' = event := by simpa using hmem
        rw [hevent.2]
        exact hgenuine
    · refine h.1.growing rfl rfl rfl (fun entry hmem => ?_) (fun k event' hmem => ?_) fun k =>
        (haccount k).sent s request created hforeign (h.2 k)
      · obtain rfl := List.mem_singleton.mp hmem
        rfl
      · simp at hmem
  exact preserves_dispatch hsurvives fun s h => ⟨h.toDurable.noting rfl fun _ => rfl, h.token,
    h.nonempty, h.reached.mono (List.prefix_append _ _)⟩

/-- A call that returned has handled its request. -/
theorem triple_running_dispatch {event : TimelineEvent}
    (hgenuine : event.roomId = config.roomId → ∃ raw ∈ tl.events, Shows config raw event) :
    Triple (Running tl pos config hexdigest since) (dispatch env config hexdigest event)
      (fun _ s => Running tl pos config hexdigest since s ∧
        ∀ request, Foreign config hexdigest event request →
          Handled s.trace event.eventId request)
      (Running tl pos config hexdigest since) := by
  have hboth : ∀ k, Triple
      (fun s => Running tl pos config hexdigest since s ∧ s.incarnation = k)
      (dispatch env config hexdigest event)
      (fun _ s => Running tl pos config hexdigest since s ∧
        (k, Occurrence.passed event) ∈ s.trace ∧ (k, Occurrence.returned event) ∈ s.trace)
      (fun s => Running tl pos config hexdigest since s ∧ True) := fun k =>
    triple_and (preserves_running_dispatch hgenuine) (triple_dispatch_returned k event)
  refine triple_consequence (triple_exists fun k => triple_consequence (hboth k)
    (fun _ hs => hs) ?_ (fun _ hs => hs)) (fun s hs => ⟨s.incarnation, hs, rfl⟩)
    (fun _ _ hs => hs) fun _ hs => hs.1
  rintro - s ⟨hs, hpassed, hreturned⟩
  exact ⟨hs, fun request hforeign => hs.toDurable.handled hforeign hpassed hreturned⟩

theorem lasting_allHandled (events : List TimelineEvent) :
    Lasting fun s => AllHandled config hexdigest events s.trace :=
  fun _ _ _ _ hgrows hs => hs.mono hgrows

/-- A batch of events that was dispatched to the end. -/
theorem triple_dispatch_all {events : List TimelineEvent} (hgenuine : Genuine tl config events) :
    Triple (Running tl pos config hexdigest since)
      (events.forM (dispatch env config hexdigest))
      (fun _ s => Running tl pos config hexdigest since s ∧
        AllHandled config hexdigest events s.trace)
      (Running tl pos config hexdigest since) := by
  refine triple_pre (triple_forM (I := fun front s => Running tl pos config hexdigest since s ∧
    AllHandled config hexdigest front s.trace) fun front event hfront => ?_)
    fun s hs => ⟨hs, fun _ h => absurd h List.not_mem_nil⟩
  have hmem : event ∈ events := hfront.subset (by simp)
  refine triple_consequence (triple_and (triple_running_dispatch (hgenuine event hmem))
    ((lasting_allHandled front).preserves_dispatch event)) (fun _ hs => hs) ?_ fun _ hs => hs.1
  rintro - s ⟨⟨hs, hevent⟩, hbefore⟩
  exact ⟨hs, hbefore.append_singleton hevent⟩

end Handling

/-! ## 2.  The sync loop -/

section Loop

variable (hlaw : HomeserverLaw env config tl pos) {since : Token}
include hlaw

/-- One slice: dispatched to the end, it has handled its window. -/
theorem triple_dispatchSlice {n : ℕ} {query : SyncQuery} {response : SyncResponse}
    (hsync : env.sync n query = .ok response) (hsince : query.since = some since)
    {item : RoomSyncSlice} (hitem : item ∈ response.snapshot.rooms) :
    Triple (Running tl pos config hexdigest since)
      (dispatchSlice env config hexdigest (some since) item)
      (fun _ s => Running tl pos config hexdigest since s ∧ (item.roomId = config.roomId →
        HandledBetween tl config hexdigest s.trace (pos since) (pos response.nextBatch)))
      (Running tl pos config hexdigest since) := by
  unfold dispatchSlice
  split
  · rename_i hroom
    exact triple_ret fun s hs => ⟨hs, fun h => absurd h hroom⟩
  rename_i hroom
  have hroom := not_not.mp hroom
  refine triple_bind (R := fun events s => (Genuine tl config events ∧
    Covers tl config events (pos since) (pos response.nextBatch)) ∧
    Running tl pos config hexdigest since s) ?_ fun events => ?_
  · unfold sliceEvents
    split
    · refine triple_bind (triple_running_reconcile item _) fun result => ?_
      refine triple_pure_fact ?_
      rintro ⟨m, counter, hresult⟩
      refine triple_bind (R := fun _ => Running tl pos config hexdigest since) ?_ fun _ =>
        triple_ret fun s hs => ⟨hlaw.covers hsync hsince hitem hroom hresult, hs⟩
      exact triple_bind (preserves_running_aside (fun _ => ⟨rfl, rfl, rfl, rfl, rfl⟩)
        fun _ => rfl) fun _ => preserves_writeTelemetry (fun s record hs => hs.recorded record) _
    · rename_i hlimited
      exact triple_ret fun s hs => ⟨⟨hlaw.genuine n query response hsync item hitem hroom,
        hlaw.complete n query response since hsync hsince item hitem hroom
          (Bool.not_eq_true _ ▸ hlimited)⟩, hs⟩
  · refine triple_pure_fact ?_
    rintro ⟨hgenuine, hcovers⟩
    refine triple_consequence (triple_dispatch_all hgenuine) (fun _ hs => hs) ?_ fun _ hs => hs
    rintro - s ⟨hs, hall⟩
    exact ⟨hs, fun _ => hall.handledBetween hcovers⟩

/-- One batch: dispatched to the end, it has handled its window. -/
theorem triple_dispatch_batch {n : ℕ} {query : SyncQuery} {response : SyncResponse}
    (hsync : env.sync n query = .ok response) (hsince : query.since = some since) :
    Triple (Running tl pos config hexdigest since)
      (response.snapshot.rooms.forM (dispatchSlice env config hexdigest (some since)))
      (fun _ s => Running tl pos config hexdigest since s ∧
        HandledBetween tl config hexdigest s.trace (pos since) (pos response.nextBatch))
      (Running tl pos config hexdigest since) := by
  let Window : List (ℕ × Occurrence) → Prop := fun trace =>
    HandledBetween tl config hexdigest trace (pos since) (pos response.nextBatch)
  refine triple_consequence (triple_forM (I := fun front s =>
    Running tl pos config hexdigest since s ∧
      ∀ item ∈ front, item.roomId = config.roomId → Window s.trace) fun front item hfront => ?_)
    (fun s hs => ⟨hs, fun _ h => absurd h List.not_mem_nil⟩) ?_ fun _ hs => hs
  · have hitem : item ∈ response.snapshot.rooms := hfront.subset (by simp)
    have hkeep : Preserves (fun s => ∀ item ∈ front, item.roomId = config.roomId →
        Window s.trace) (dispatchSlice env config hexdigest (some since) item) := by
      have hgrowing : ∀ trace trace', trace <+: trace' →
          (∀ item ∈ front, item.roomId = config.roomId → Window trace) →
          ∀ item ∈ front, item.roomId = config.roomId → Window trace' :=
        fun _ _ hgrows hs item hitem hroom => (hs item hitem hroom).mono hgrows
      exact (routine_of_growing hgrowing).preserves_dispatchSlice
        (lasting_of_growing hgrowing).preserves_dispatch (some since) item
    refine triple_consequence (triple_and (triple_dispatchSlice hlaw hsync hsince hitem) hkeep)
      (fun _ hs => hs) ?_ fun _ hs => hs.1
    rintro - s ⟨⟨hs, hnew⟩, hold⟩
    refine ⟨hs, fun item' hitem' => ?_⟩
    rcases List.mem_append.mp hitem' with hitem' | hitem'
    · exact hold item' hitem'
    · obtain rfl := List.mem_singleton.mp hitem'
      exact hnew
  · rintro - s ⟨hs, hitems⟩
    refine ⟨hs, ?_⟩
    by_cases hroom : ∃ item ∈ response.snapshot.rooms, item.roomId = config.roomId
    · obtain ⟨item, hitem, hroom⟩ := hroom
      exact hitems item hitem hroom
    · have hquiet := hlaw.quiet n query response since hsync hsince fun item hitem hroom' =>
        hroom ⟨item, hitem, hroom'⟩
      exact AllHandled.handledBetween (fun _ h => absurd h List.not_mem_nil) hquiet

/-- A running agent, whatever its token. -/
def Live (tl : Timeline) (pos : Token → ℕ) (config : AgentConfig) (hexdigest : Text → Text)
    (s : State) : Prop := ∃ since, Running tl pos config hexdigest since s

theorem preserves_live_syncLoop (iterations : ℕ) :
    Preserves (Live tl pos config hexdigest) (syncLoop env config hexdigest iterations) := by
  induction iterations with
  | zero => exact triple_ret fun _ hs => hs
  | succ iterations ih =>
    refine triple_bind (R := fun since' s => ∃ since, since' = some since ∧
      Running tl pos config hexdigest since s)
      (triple_read fun s ⟨since, hs⟩ => ⟨since, hs.token, hs⟩) fun since' => ?_
    refine triple_exists fun since => triple_pure_fact ?_
    rintro rfl
    have hlive : ∀ s, Running tl pos config hexdigest since s → Live tl pos config hexdigest s :=
      fun s hs => ⟨since, hs⟩
    refine triple_bind (R := fun synced s => (∀ snapshot, synced = .ok snapshot →
      ∃ n response, env.sync n ⟨some since, syncTimeoutMs, config.timelineLimit⟩ = .ok response ∧
        response.snapshot = snapshot) ∧ Running tl pos config hexdigest since s) ?_
      fun synced => ?_
    · refine triple_consequence (triple_attempt (triple_consequence
        (triple_syncOnce fun _ hs => hs) (fun _ hs => hs) ?_ fun _ hs => hs) ?_)
        (fun _ hs => hs) (fun _ _ hs => hs) hlive
      · rintro snapshot s ⟨hsync, hs⟩
        refine ⟨fun snapshot' heq => ?_, hs⟩
        obtain rfl := Except.ok.inj heq
        exact hsync
      · exact fun _ s hs => ⟨nofun, hs⟩
    refine triple_pure_fact fun hsynced => ?_
    rcases synced with (text | error | text) | snapshot
    · exact triple_bind (R := fun _ => Live tl pos config hexdigest)
        (triple_consequence (triple_suspend hlive) (fun _ hs => hs) (fun _ => hlive)
          fun _ hs => hs) fun _ => ih
    · exact triple_raise hlive
    · exact triple_raise hlive
    obtain ⟨n, response, hsync, rfl⟩ := hsynced snapshot rfl
    refine triple_bind (R := fun dispatched s => Running tl pos config hexdigest since s ∧
      (dispatched = .ok ⟨⟩ → HandledBetween tl config hexdigest s.trace (pos since)
        (pos response.nextBatch))) ?_ fun dispatched => ?_
    · refine triple_consequence (triple_attempt (triple_consequence
        (triple_dispatch_batch hlaw hsync rfl) (fun _ hs => hs) ?_ fun _ hs => hs) ?_)
        (fun _ hs => hs) (fun _ _ hs => hs) hlive
      · exact fun _ s hs => ⟨hs.1, fun _ => hs.2⟩
      · exact fun _ s hs => ⟨hs, nofun⟩
    rcases dispatched with error | done
    · -- The batch failed: the token goes back to where it was all the time.
      refine triple_bind (R := fun _ => Running tl pos config hexdigest since) ?_ fun _ => ?_
      · refine triple_bind (triple_consequence (preserves_running_aside
          (fun _ => ⟨rfl, rfl, rfl, rfl, rfl⟩) fun _ => rfl) (fun _ hs => hs.1)
          (fun _ _ hs => hs) hlive) fun _ => ?_
        exact triple_writeTelemetry hlive fun s hs => hs.recorded _
      refine triple_bind (R := fun _ => Running tl pos config hexdigest since)
        (triple_update fun s hs => hs.reset) fun _ => ?_
      exact triple_bind (R := fun _ => Live tl pos config hexdigest)
        (triple_consequence (triple_suspend hlive) (fun _ hs => hs) (fun _ => hlive)
          fun _ hs => hs) fun _ => ih
    · -- The batch is through: the token moves, and only then is it saved.
      refine triple_bind (R := fun _ => Running tl pos config hexdigest response.nextBatch)
        (triple_update fun s hs => hs.1.advance (hlaw.nextBatch n _ response hsync) (hs.2 rfl))
        fun _ => ?_
      have hnext : ∀ s, Running tl pos config hexdigest response.nextBatch s →
          Live tl pos config hexdigest s := fun s hs => ⟨_, hs⟩
      refine triple_bind (R := fun _ => Live tl pos config hexdigest) ?_ fun _ => ih
      refine triple_bind (triple_consequence (preserves_running_aside
        (fun _ => ⟨rfl, rfl, rfl, rfl, rfl⟩) fun _ => rfl) (fun _ hs => hs)
        (fun _ _ hs => hs) hnext) fun _ => ?_
      exact triple_saveCheckpoint hnext fun s hs => hnext _ hs.saving

end Loop

/-! ## 3.  Recovering -/

/-- The sort keeps the events. -/
theorem perm_of_inSequence {pending : OrderedDict Text TimelineEvent} {ordered : List TimelineEvent}
    (h : inSequence config hexdigest pending = .ok ordered) : ordered.Perm pending.values := by
  have hkeyed : ∀ (events : List TimelineEvent) (keyed : List (ℕ × TimelineEvent)),
      (events.mapM fun event => (sequenceOf config hexdigest event).map fun sequence =>
        (sequence, event)) = .ok keyed → keyed.map Prod.snd = events := by
    intro events
    induction events with
    | nil =>
      rintro keyed hkeyed
      obtain rfl := Except.ok.inj hkeyed
      rfl
    | cons event events ih =>
      intro keyed hkeyed
      rw [List.mapM_cons] at hkeyed
      cases hsequence : sequenceOf config hexdigest event with
      | error fault =>
        rw [hsequence] at hkeyed
        cases hkeyed
      | ok sequence =>
        rw [hsequence] at hkeyed
        cases hrest : (events.mapM fun event =>
            (sequenceOf config hexdigest event).map fun sequence => (sequence, event)) with
        | error fault =>
          rw [hrest] at hkeyed
          cases hkeyed
        | ok rest =>
          rw [hrest] at hkeyed
          obtain rfl := Except.ok.inj hkeyed
          exact congrArg (event :: ·) (ih rest hrest)
  unfold inSequence at h
  cases hall : (pending.values.mapM fun event =>
      (sequenceOf config hexdigest event).map fun sequence => (sequence, event)) with
  | error fault =>
    rw [hall] at h
    cases h
  | ok keyed =>
    rw [hall] at h
    obtain rfl := Except.ok.inj h
    rw [← hkeyed _ keyed hall]
    exact (List.perm_insertionSort _ _).map _

/-- What `pending` holds after the observation of these events: each under its id, and
all the foreign requests. -/
structure Collected (config : AgentConfig) (hexdigest : Text → Text) (events : List TimelineEvent)
    (before pending : OrderedDict Text TimelineEvent) : Prop where
  filed : OrderedDict.FiledBy TimelineEvent.eventId pending
  values : ∀ event ∈ pending.values,
    event ∈ before.values ∨ event ∈ events ∧ event.roomId = config.roomId
  kept : ∀ id ∈ before.keys, id ∈ pending.keys
  foreign : ∀ event ∈ events, ∀ request, Foreign config hexdigest event request →
    event.eventId ∈ pending.keys

/-- `pending` and the ledger agree, and nothing has been processed. -/
def Mirrors (pending : OrderedDict Text TimelineEvent) (s : State) : Prop :=
  s.ledger.processed = ∅ ∧ ∀ id, id ∈ pending.keys ↔ id ∈ s.ledger.observations.keys

section Recovery

variable {since : Token}

theorem triple_observeEvents (directIds : List Text) (events : List TimelineEvent)
    {pending : OrderedDict Text TimelineEvent}
    (hfiled : OrderedDict.FiledBy TimelineEvent.eventId pending) :
    Triple (fun s => Running tl pos config hexdigest since s ∧ Mirrors pending s)
      (observeEvents config hexdigest directIds events pending)
      (fun collected s => Collected config hexdigest events pending collected ∧
        Running tl pos config hexdigest since s ∧ s.ledger.processed = ∅)
      (Running tl pos config hexdigest since) := by
  induction events generalizing pending with
  | nil =>
    exact triple_ret fun s hs =>
      ⟨⟨hfiled, fun _ => Or.inl, fun _ h => h, fun _ h => absurd h List.not_mem_nil⟩, hs.1, hs.2.1⟩
  | cons event events ih =>
    refine triple_bind
      (R := fun foreign s => isForeignRequest config hexdigest event = .ok foreign ∧
      Running tl pos config hexdigest since s ∧ Mirrors pending s)
      (triple_ofExcept (fun foreign hforeign s hs => ⟨hforeign, hs⟩) fun _ _ s hs => hs.1)
      fun foreign => ?_
    refine triple_pure_fact fun hforeign => ?_
    cases foreign with
    | false =>
      -- The event is no foreign request, and is passed over.
      refine triple_consequence (ih hfiled) (fun _ hs => hs) ?_ fun _ hs => hs
      rintro collected s ⟨hc, hs⟩
      refine ⟨⟨hc.filed, fun e he => (hc.values e he).imp_right
        (And.imp_left (List.mem_cons_of_mem _)), hc.kept, fun e he request hf => ?_⟩, hs⟩
      rcases List.mem_cons.mp he with rfl | he
      · have htrue := isForeignRequest_iff.mpr ⟨request, hf⟩
        exact nomatch hforeign.symm.trans htrue
      · exact hc.foreign e he request hf
    | true =>
      refine triple_bind (R := fun first s => Running tl pos config hexdigest since s ∧
        Mirrors pending s ∧ (first = true ↔ event.eventId ∉ pending.keys))
        (triple_read fun s hs => ⟨hs.1, hs.2, ?_⟩) fun first => ?_
      · rw [RecoveryLedger.observe_first_iff, OrderedDict.get?_eq_none_iff, hs.2.2]
      set pending' := if first then pending.set event.eventId event else pending with hpending'
      have hfiled' : OrderedDict.FiledBy TimelineEvent.eventId pending' := by
        rw [hpending']
        split
        · exact hfiled.set event
        · exact hfiled
      refine triple_bind (R := fun _ s => (∀ id, id ∈ pending'.keys ↔ id ∈ pending.keys ∨
        id = event.eventId) ∧ Running tl pos config hexdigest since s ∧ Mirrors pending' s)
        (triple_update fun s hs => ?_) fun _ => ?_
      · obtain ⟨hs, hmirrors, hfirst⟩ := hs
        have hkeys : ∀ id, id ∈ pending'.keys ↔ id ∈ pending.keys ∨ id = event.eventId := by
          intro id
          rw [hpending']
          split
          · exact OrderedDict.mem_keys_set
          · rename_i hknown
            have hmem := not_not.mp (mt hfirst.mpr hknown)
            exact ⟨Or.inl, fun h => h.elim (fun h => h) fun h => h ▸ hmem⟩
        have hsame : SameCore s { s with ledger := (s.ledger.observe event.eventId
            (if event.eventId ∈ directIds then Source.sync else .history)).2 } :=
          ⟨rfl, rfl, rfl, rfl, rfl⟩
        refine ⟨hkeys, hs.of_sameCore hsame rfl,
          (RecoveryLedger.processed_observe _ _).trans hmirrors.1, fun id => ?_⟩
        rw [hkeys id, RecoveryLedger.mem_keys_observe, hmirrors.2 id]
      · refine triple_pure_fact fun hkeys => ?_
        refine triple_consequence (ih hfiled') (fun _ hs => hs) ?_ fun _ hs => hs
        rintro collected s ⟨hc, hs⟩
        refine ⟨⟨hc.filed, fun e he => ?_, fun id hid => hc.kept id ((hkeys id).mpr (Or.inl hid)),
          fun e he request hf => ?_⟩, hs⟩
        · rcases hc.values e he with he | he
          · rw [hpending'] at he
            split at he
            · rcases OrderedDict.mem_values_of_mem_set he with he | rfl
              · exact Or.inl he
              · obtain ⟨request, hf⟩ := isForeignRequest_iff.mp hforeign
                exact Or.inr ⟨List.mem_cons_self, hf.room⟩
            · exact Or.inl he
          · exact Or.inr ⟨List.mem_cons_of_mem _ he.1, he.2⟩
        · rcases List.mem_cons.mp he with rfl | he
          · exact hc.kept _ ((hkeys _).mpr (Or.inr rfl))
          · exact hc.foreign e he request hf

/-- The body of the processing loop, for an event whose id is not among those before. -/
theorem triple_handlePending {front : List TimelineEvent} {event : TimelineEvent}
    (hgenuine : event.roomId = config.roomId → ∃ raw ∈ tl.events, Shows config raw event)
    (hfresh : event.eventId ∉ front.map (·.eventId)) :
    Triple (fun s => Running tl pos config hexdigest since s ∧
        s.ledger.processed = (front.map (·.eventId)).toFinset ∧
        AllHandled config hexdigest front s.trace)
      (handlePending env config hexdigest event)
      (fun _ s => Running tl pos config hexdigest since s ∧
        s.ledger.processed = ((front ++ [event]).map (·.eventId)).toFinset ∧
        AllHandled config hexdigest (front ++ [event]) s.trace)
      (Running tl pos config hexdigest since) := by
  refine triple_bind (R := fun wanted s => wanted = true ∧ Running tl pos config hexdigest since s ∧
    s.ledger.processed = (front.map (·.eventId)).toFinset ∧
    AllHandled config hexdigest front s.trace) (triple_read fun s hs => ⟨?_, hs⟩) fun wanted => ?_
  · rw [RecoveryLedger.shouldProcess, hs.2.1]
    simpa using hfresh
  refine triple_pure_fact ?_
  rintro rfl
  have hlasting : Lasting fun s => s.ledger.processed = (front.map (·.eventId)).toFinset ∧
      AllHandled config hexdigest front s.trace :=
    fun s s' _ hledger hgrows hs => ⟨hledger ▸ hs.1, hs.2.mono hgrows⟩
  refine triple_bind (triple_consequence (triple_and (triple_running_dispatch hgenuine)
    (hlasting.preserves_dispatch event)) (fun _ hs => hs) (fun _ _ hs => hs) fun _ hs => hs.1)
    fun _ => triple_update ?_
  rintro s ⟨⟨hs, hhandled⟩, hprocessed, hbefore⟩
  have hsame : SameCore s { s with ledger := s.ledger.markProcessed event.eventId } :=
    ⟨rfl, rfl, rfl, rfl, rfl⟩
  refine ⟨hs.of_sameCore hsame rfl, ?_, hbefore.append_singleton hhandled⟩
  rw [RecoveryLedger.markProcessed, hprocessed]
  ext id
  simp

/-- The processing loop: no event is skipped, since the ids are distinct and the ledger is
new. -/
theorem triple_handlePending_all {ordered : List TimelineEvent}
    (hgenuine : Genuine tl config ordered)
    (hnodup : (ordered.map (·.eventId)).Nodup) :
    Triple (fun s => Running tl pos config hexdigest since s ∧ s.ledger.processed = ∅)
      (ordered.forM (handlePending env config hexdigest))
      (fun _ s => Running tl pos config hexdigest since s ∧
        AllHandled config hexdigest ordered s.trace)
      (Running tl pos config hexdigest since) := by
  refine triple_consequence (triple_forM (I := fun front s =>
    Running tl pos config hexdigest since s ∧
    s.ledger.processed = (front.map (·.eventId)).toFinset ∧
    AllHandled config hexdigest front s.trace) fun front event hfront => ?_)
    (fun s hs => ⟨hs.1, hs.2, fun _ h => absurd h List.not_mem_nil⟩)
    (fun _ s hs => ⟨hs.1, hs.2.2⟩) fun _ hs => hs
  refine triple_handlePending (hgenuine event (hfront.subset (by simp))) ?_
  have hsub := hnodup.sublist (hfront.sublist.map (·.eventId))
  rw [List.map_append, List.nodup_append] at hsub
  exact fun hmem => hsub.2.2 _ hmem _ (by simp) rfl

/-- The pending events of a recovery: each under its id, and every foreign request of the
window. -/
structure Gathered (tl : Timeline) (config : AgentConfig) (hexdigest : Text → Text) (lo hi : ℕ)
    (pending : OrderedDict Text TimelineEvent) : Prop where
  filed : OrderedDict.FiledBy TimelineEvent.eventId pending
  genuine : ∀ event ∈ pending.values, ∃ raw ∈ tl.events, Shows config raw event
  requests : ∀ raw ∈ tl.between lo hi, ∀ message request,
    RequestOf config hexdigest raw message request → raw.eventId ∈ pending.keys

theorem Collected.gathered {events : List TimelineEvent} {lo hi : ℕ}
    {pending : OrderedDict Text TimelineEvent}
    (h : Collected config hexdigest events .empty pending) (hgenuine : Genuine tl config events)
    (hcovers : Covers tl config events lo hi) : Gathered tl config hexdigest lo hi pending := by
  refine ⟨h.filed, fun event hevent => ?_, fun raw hraw message request hrequest => ?_⟩
  · rcases h.values event hevent with hevent | hevent
    · exact absurd hevent List.not_mem_nil
    · exact hgenuine event hevent.1 hevent.2
  · obtain ⟨event, hevent, hshows⟩ :=
      hcovers raw hraw message hrequest.fromRaw hrequest.foreign.room
    rw [← hshows.eventId]
    exact h.foreign event hevent request (hrequest.foreign_of_shows hshows)

/-- Handling the gathered events handles the window. -/
theorem Gathered.handledBetween {lo hi : ℕ} {pending : OrderedDict Text TimelineEvent}
    {ordered : List TimelineEvent} {trace : List (ℕ × Occurrence)}
    (h : Gathered tl config hexdigest lo hi pending) (hperm : ordered.Perm pending.values)
    (hhandled : AllHandled config hexdigest ordered trace) :
    HandledBetween tl config hexdigest trace lo hi := by
  intro raw hraw message request hrequest
  obtain ⟨event, hevent, hid⟩ :=
    h.filed.exists_of_mem_keys (h.requests raw hraw message request hrequest)
  obtain ⟨raw', hraw', hshows⟩ := h.genuine event hevent
  have hsame : raw' = raw :=
    raw_eq_of_eventId_eq hraw' (mem_events_of_mem_between hraw) (hshows.eventId.symm.trans hid)
  rw [hsame] at hshows
  rw [← hid]
  exact hhandled event (hperm.mem_iff.mpr hevent) request (hrequest.foreign_of_shows hshows)

/-- A running agent that has recovered nothing yet. -/
def Unrecovered (tl : Timeline) (pos : Token → ℕ) (config : AgentConfig)
    (hexdigest : Text → Text) (since : Token) (s : State) : Prop :=
  Running tl pos config hexdigest since s ∧ Mirrors .empty s

theorem Unrecovered.recorded {s : State} (h : Unrecovered tl pos config hexdigest since s)
    (record : Record) : Unrecovered tl pos config hexdigest since (s.noting (.recorded record)) :=
  ⟨h.1.recorded record, h.2⟩

/-- Changing neither what was observed nor what was processed. -/
theorem preserves_unrecovered_aside {f : RecoveryLedger → RecoveryLedger}
    (hobservations : ∀ ledger, (f ledger).observations = ledger.observations)
    (hprocessed : ∀ ledger, (f ledger).processed = ledger.processed) :
    Preserves (Unrecovered tl pos config hexdigest since)
      (update fun s => { s with ledger := f s.ledger } : Program Unit) := by
  refine triple_update fun s hs => ?_
  have hsame : SameCore s { s with ledger := f s.ledger } := ⟨rfl, rfl, rfl, rfl, rfl⟩
  refine ⟨hs.1.of_sameCore hsame rfl, (hprocessed _).trans hs.2.1, fun id => ?_⟩
  change _ ↔ id ∈ (f s.ledger).observations.keys
  rw [hobservations]
  exact hs.2.2 id

variable (hlaw : HomeserverLaw env config tl pos)
include hlaw

/-- Everything of the window is gathered. -/
theorem triple_pendingOf {n : ℕ} {query : SyncQuery} {response : SyncResponse}
    (hsync : env.sync n query = .ok response) (hsince : query.since = some since) :
    Triple (Unrecovered tl pos config hexdigest since)
      (pendingOf env config hexdigest (response.snapshot.room config.roomId) since)
      (fun pending s =>
        Gathered tl config hexdigest (pos since) (pos response.nextBatch) pending ∧
        Running tl pos config hexdigest since s ∧ s.ledger.processed = ∅)
      (Running tl pos config hexdigest since) := by
  have hexit : ∀ s, Unrecovered tl pos config hexdigest since s →
      Running tl pos config hexdigest since s := fun s hs => hs.1
  cases hslice : response.snapshot.room config.roomId with
  | none =>
    have hquiet := hlaw.quiet n query response since hsync hsince fun item hitem hroom => by
      have hnot := List.find?_eq_none.mp hslice item hitem
      exact hnot (beq_iff_eq.mpr hroom)
    refine triple_ret fun s hs => ⟨⟨OrderedDict.filedBy_empty, fun _ h => absurd h List.not_mem_nil,
      fun raw hraw message request hrequest => ?_⟩, hs.1, hs.2.1⟩
    obtain ⟨event, hevent, -⟩ := hquiet raw hraw message hrequest.fromRaw hrequest.foreign.room
    exact absurd hevent List.not_mem_nil
  | some slice =>
    have hitem : slice ∈ response.snapshot.rooms := List.mem_of_find?_eq_some hslice
    have hfound := List.find?_some hslice
    have hroom : slice.roomId = config.roomId := beq_iff_eq.mp hfound
    have hkeep {α : Type} {m : Program α}
        (h : Preserves (Unrecovered tl pos config hexdigest since) m) :
        Triple (Unrecovered tl pos config hexdigest since) m
          (fun _ => Unrecovered tl pos config hexdigest since)
          (Running tl pos config hexdigest since) :=
      triple_consequence h (fun _ hs => hs) (fun _ _ hs => hs) hexit
    have hrecorded := fun (s : State) record (hs : Unrecovered tl pos config hexdigest since s) =>
      hs.recorded record
    refine triple_bind (R := fun _ => Unrecovered tl pos config hexdigest since) ?_ fun _ => ?_
    · unfold noteLimited
      split
      · exact hkeep (preserves_writeTelemetry hrecorded _)
      · exact triple_ret fun _ hs => hs
    refine triple_bind (R := fun result s => (∃ m counter, (reconcileSlice (env.messages m) counter
      slice (some since) .startup).2 = .ok result) ∧ Unrecovered tl pos config hexdigest since s)
      ?_ fun result => ?_
    · refine triple_consequence (triple_reconcile (fun _ hs => hs) fun s episodes hs => ?_)
        (fun _ hs => hs) (fun _ _ hs => hs) hexit
      have hsame : SameCore s { s with episodeCounter := episodes } := ⟨rfl, rfl, rfl, rfl, rfl⟩
      exact ⟨hs.1.of_sameCore hsame rfl, hs.2⟩
    refine triple_pure_fact ?_
    rintro ⟨m, counter, hresult⟩
    obtain ⟨hgenuine, hcovers⟩ := hlaw.covers hsync hsince hitem hroom hresult
    refine triple_bind (R := fun _ => Unrecovered tl pos config hexdigest since) ?_ fun _ => ?_
    · unfold notePages
      split
      · exact triple_bind (hkeep (preserves_unrecovered_aside
          (f := fun ledger => ledger.notePagination result.2.historyPagesFetched)
          (fun _ => rfl) fun _ => rfl)) fun _ => hkeep (preserves_writeTelemetry hrecorded _)
      · exact triple_ret fun _ hs => hs
    refine triple_bind (hkeep (Routine.preserves_ofExcept _)) fun direct => ?_
    refine triple_consequence (triple_observeEvents (direct.map (·.eventId)) result.1
      OrderedDict.filedBy_empty) (fun _ hs => hs) ?_ fun _ hs => hs
    rintro pending s ⟨hcollected, hs⟩
    exact ⟨hcollected.gathered hgenuine hcovers, hs⟩

/-- The slice of a recovery: once it is through, its window has been handled. -/
theorem triple_recoverSlice {n : ℕ} {query : SyncQuery} {response : SyncResponse}
    (hsync : env.sync n query = .ok response) (hsince : query.since = some since) :
    Triple (Unrecovered tl pos config hexdigest since)
      (recoverSlice env config hexdigest (response.snapshot.room config.roomId) since)
      (fun _ s => Running tl pos config hexdigest since s ∧
        HandledBetween tl config hexdigest s.trace (pos since) (pos response.nextBatch))
      (Running tl pos config hexdigest since) := by
  have hexit : ∀ s, Unrecovered tl pos config hexdigest since s →
      Running tl pos config hexdigest since s := fun s hs => hs.1
  refine triple_bind (triple_consequence (preserves_unrecovered_aside (f := fun ledger =>
    { ledger with
      limitedTimeline := (response.snapshot.room config.roomId).elim false (·.limited)
      prevBatch := (response.snapshot.room config.roomId).bind (·.prevBatch) })
    (fun _ => rfl) fun _ => rfl) (fun _ hs => hs) (fun _ _ hs => hs) hexit) fun _ => ?_
  refine triple_bind (triple_consequence (Routine.preserves_ofExcept _)
    (fun _ hs => hs) (fun _ _ hs => hs) hexit) fun _ => ?_
  refine triple_bind (triple_writeTelemetry hexit fun s hs => hs.recorded _) fun _ => ?_
  refine triple_bind (triple_pendingOf hlaw hsync hsince) fun pending => ?_
  refine triple_pure_fact fun hgathered => ?_
  refine triple_bind (R := fun _ s => Running tl pos config hexdigest since s ∧
    s.ledger.processed = ∅) (triple_read fun _ hs => hs) fun ledger => ?_
  refine triple_bind (R := fun _ s => Running tl pos config hexdigest since s ∧
    s.ledger.processed = ∅) (triple_writeTelemetry (fun s hs => hs.1)
    fun s hs => ⟨hs.1.recorded _, hs.2⟩) fun _ => ?_
  refine triple_bind (R := fun ordered s => inSequence config hexdigest pending = .ok ordered ∧
    Running tl pos config hexdigest since s ∧ s.ledger.processed = ∅)
    (triple_ofExcept (fun ordered hordered s hs => ⟨hordered, hs⟩) fun _ _ s hs => hs.1)
    fun ordered => ?_
  refine triple_pure_fact fun hordered => ?_
  have hperm := perm_of_inSequence hordered
  have hnodup : (ordered.map (·.eventId)).Nodup :=
    (hperm.map TimelineEvent.eventId).nodup_iff.mpr hgathered.filed.nodup_values
  have hgenuine : Genuine tl config ordered := fun event hevent _ =>
    hgathered.genuine event (hperm.mem_iff.mp hevent)
  refine triple_consequence (triple_handlePending_all hgenuine hnodup) (fun _ hs => hs) ?_
    fun _ hs => hs
  rintro - s ⟨hs, hhandled⟩
  exact ⟨hs, hgathered.handledBetween hperm hhandled⟩

/-- A connected agent before its recovery: the token it recovers from, if it recovers, is
the one in memory. -/
structure Connected (tl : Timeline) (pos : Token → ℕ) (config : AgentConfig)
    (hexdigest : Text → Text) (since : Token) (s : State) : Prop where
  unrecovered : Unrecovered tl pos config hexdigest since s
  from_token : truthy s.checkpointToken = none ∨ truthy s.checkpointToken = some since

/-- **Recovery.**  The token moves when the whole window has been handled. -/
theorem triple_recover :
    Triple (fun s => ∃ since, Connected tl pos config hexdigest since s)
      (recover env config hexdigest) (fun _ => Live tl pos config hexdigest)
      (Live tl pos config hexdigest) := by
  refine triple_exists fun since => ?_
  have hlive : ∀ s, Unrecovered tl pos config hexdigest since s → Live tl pos config hexdigest s :=
    fun s hs => ⟨since, hs.1⟩
  refine triple_bind (R := fun token s => (truthy token = none ∨ truthy token = some since) ∧
    Unrecovered tl pos config hexdigest since s)
    (triple_read fun s hs => ⟨hs.from_token, hs.unrecovered⟩) fun token => ?_
  refine triple_pure_fact fun htoken => ?_
  rcases htoken with htoken | htoken
  · rw [htoken]
    exact triple_writeTelemetry hlive fun s hs => hlive _ (hs.recorded _)
  rw [htoken]
  refine triple_bind (triple_syncOnce hlive) fun snapshot => ?_
  refine triple_pure_fact ?_
  rintro ⟨n, response, hsync, rfl⟩
  refine triple_bind (triple_consequence (triple_recoverSlice hlaw hsync rfl) (fun _ hs => hs)
    (fun _ _ hs => hs) fun s hs => ⟨since, hs⟩) fun _ => ?_
  have hnext : ∀ s, Running tl pos config hexdigest response.nextBatch s →
      Live tl pos config hexdigest s := fun s hs => ⟨_, hs⟩
  refine triple_bind (R := fun _ => Running tl pos config hexdigest response.nextBatch)
    (triple_update fun s hs => hs.1.advance (hlaw.nextBatch n _ response hsync) hs.2) fun _ => ?_
  refine triple_bind (R := fun _ => Running tl pos config hexdigest response.nextBatch)
    (triple_saveCheckpoint hnext fun s hs => hs.saving) fun _ => ?_
  refine triple_bind (R := fun _ => Running tl pos config hexdigest response.nextBatch)
    (triple_read fun _ hs => hs) fun ledger => ?_
  exact triple_writeTelemetry hnext fun s hs => hnext _ (hs.recorded _)

end Recovery

/-! ## 4.  Connecting -/

/-- What holds from the boot until the token is settled. -/
def Booted (tl : Timeline) (pos : Token → ℕ) (config : AgentConfig) (hexdigest : Text → Text)
    (s : State) : Prop :=
  Durable tl pos config hexdigest s ∧ Mirrors .empty s

/-- What holds between that and the first save: the token may be saved. -/
structure Settled (tl : Timeline) (pos : Token → ℕ) (config : AgentConfig)
    (hexdigest : Text → Text) (since : Token) (s : State) : Prop where
  booted : Booted tl pos config hexdigest s
  token : s.syncToken = some since
  nonempty : since ≠ []
  reached : firstSaved s.trace = none ∨ Reached tl pos config hexdigest s.trace since
  from_token : truthy s.checkpointToken = none ∨ truthy s.checkpointToken = some since

section Connecting

variable {s : State}

theorem Durable.booted (h : Durable tl pos config hexdigest s) :
    Booted tl pos config hexdigest s.booted := by
  refine ⟨h.growing rfl rfl (fun entry hmem => ?_) (fun k event hmem => ?_)
    fun k => accountedIn_booted (h.accounts k), rfl, fun _ => Iff.rfl⟩
  · obtain rfl := List.mem_singleton.mp hmem
    rfl
  · simp at hmem

theorem Settled.recorded {since : Token} (h : Settled tl pos config hexdigest since s)
    (record : Record) : Settled tl pos config hexdigest since (s.noting (.recorded record)) := by
  have hdurable := h.booted.1.recorded record
  refine ⟨⟨hdurable, h.booted.2⟩, h.token, h.nonempty, ?_, h.from_token⟩
  rcases h.reached with hnone | hreached
  · left
    rw [firstSaved, State.noting, List.filterMap_append]
    exact List.head?_eq_none_iff.mpr (List.append_eq_nil_iff.mpr
      ⟨List.head?_eq_none_iff.mp hnone, rfl⟩)
  · exact Or.inr (hreached.mono (List.prefix_append _ _))

theorem Settled.saving {since : Token} (h : Settled tl pos config hexdigest since s) :
    Connected tl pos config hexdigest since s.saving :=
  ⟨⟨h.booted.1.saving h.token h.nonempty h.reached, h.booted.2⟩, h.from_token⟩

/-- The stored token is reached, and without one the primed token may become the first. -/
theorem triple_settleToken (hlaw : HomeserverLaw env config tl pos)
    (stored : Option TransportCheckpoint) :
    Triple (fun s => Booted tl pos config hexdigest s ∧ s.file = stored) (settleToken env stored)
      (fun _ s => ∃ since, Settled tl pos config hexdigest since s)
      (Durable tl pos config hexdigest) := by
  refine triple_bind (R := fun _ s => (Booted tl pos config hexdigest s ∧ s.file = stored) ∧
    s.checkpointToken = stored.bind (·.syncToken)) (triple_update fun s hs => ?_) fun _ => ?_
  · have hsame : SameCore s { s with checkpointToken := stored.bind (·.syncToken) } :=
      ⟨rfl, rfl, rfl, rfl, rfl⟩
    exact ⟨⟨⟨hs.1.1.of_sameCore hsame, hs.1.2⟩, hs.2⟩, rfl⟩
  have hsetting : ∀ (s : State) (next : Token), Durable tl pos config hexdigest s →
      Durable tl pos config hexdigest { s with syncToken := some next } := fun s next hs => by
    have hsame : SameCore s { s with syncToken := some next } := ⟨rfl, rfl, rfl, rfl, rfl⟩
    exact hs.of_sameCore hsame
  cases hstored : truthy (stored.bind (·.syncToken)) with
  | some token =>
    refine triple_update fun s hs => ⟨token, ?_⟩
    obtain ⟨⟨⟨hs, hmirrors⟩, hfile⟩, hcheckpoint⟩ := hs
    refine ⟨⟨hsetting s token hs, hmirrors⟩, rfl, ?_, Or.inr ?_, Or.inr ?_⟩
    · exact (truthy_eq_some.mp hstored).2
    · cases stored with
      | none => cases hstored
      | some c =>
        obtain ⟨token', htoken', -, hreached⟩ := hs.saved c hfile
        have htoken := (truthy_eq_some.mp hstored).1
        obtain rfl := Option.some_inj.mp (htoken'.symm.trans htoken)
        exact hreached
    · exact (congrArg truthy hcheckpoint).trans hstored
  | none =>
    refine triple_bind (triple_syncOnce fun s hs => hs.1.1.1) fun snapshot => ?_
    refine triple_pure_fact ?_
    rintro ⟨n, response, hsync, rfl⟩
    refine triple_update fun s hs => ⟨response.nextBatch, ?_⟩
    obtain ⟨⟨⟨hs, hmirrors⟩, hfile⟩, hcheckpoint⟩ := hs
    refine ⟨⟨hsetting s _ hs, hmirrors⟩, rfl, hlaw.nextBatch n _ response hsync, Or.inl ?_,
      Or.inl ?_⟩
    · cases stored with
      | none => exact hs.unsaved hfile
      | some c =>
        -- A stored token is not empty.
        obtain ⟨token, htoken, hne, -⟩ := hs.saved c hfile
        have hsome : truthy ((some c).bind (·.syncToken)) = some token :=
          truthy_eq_some.mpr ⟨htoken, hne⟩
        exact nomatch hstored.symm.trans hsome
    · exact (congrArg truthy hcheckpoint).trans hstored

theorem triple_connect_durable (hlaw : HomeserverLaw env config tl pos) :
    Triple (Booted tl pos config hexdigest) (connect env config)
      (fun _ s => ∃ since, Connected tl pos config hexdigest since s)
      (Durable tl pos config hexdigest) := by
  refine triple_bind (R := fun stored s => Booted tl pos config hexdigest s ∧ s.file = stored)
    (triple_read fun s hs => ⟨hs, rfl⟩) fun stored => ?_
  have hkeep {α : Type} {m : Program α}
      (h : Preserves (fun s => Booted tl pos config hexdigest s ∧ s.file = stored) m) :
      Triple (fun s => Booted tl pos config hexdigest s ∧ s.file = stored) m
        (fun _ s => Booted tl pos config hexdigest s ∧ s.file = stored)
        (Durable tl pos config hexdigest) :=
    triple_consequence h (fun _ hs => hs) (fun _ _ hs => hs) fun _ hs => hs.1.1
  refine triple_bind (hkeep (preserves_resumeOrLogin (fun s session hs => ?_) (fun s hs => ?_)
    stored)) fun _ => ?_
  · exact ⟨⟨hs.1.1.session session, hs.1.2⟩, hs.2⟩
  · have hsame : SameCore s { s with resumedFromCheckpoint := true } := ⟨rfl, rfl, rfl, rfl, rfl⟩
    exact ⟨⟨hs.1.1.of_sameCore hsame, hs.1.2⟩, hs.2⟩
  refine triple_bind (hkeep (preserves_join _)) fun _ => ?_
  refine triple_bind (triple_settleToken hlaw stored) fun _ => ?_
  have hrecorded : ∀ (s : State) record, (∃ since, Settled tl pos config hexdigest since s) →
      ∃ since, Settled tl pos config hexdigest since (s.noting (.recorded record)) :=
    fun s record ⟨since, hs⟩ => ⟨since, hs.recorded record⟩
  refine triple_consequence (P := fun s => ∃ since, Settled tl pos config hexdigest since s)
    (E := fun s => ∃ since, Settled tl pos config hexdigest since s) ?_ (fun _ hs => hs)
    (fun _ _ hs => hs) fun _ ⟨_, hs⟩ => hs.booted.1
  refine triple_bind (R := fun _ s => ∃ since, Settled tl pos config hexdigest since s)
    (triple_read fun _ hs => hs) fun resumed => ?_
  refine triple_bind (preserves_writeTelemetry hrecorded _) fun _ => ?_
  refine triple_bind (preserves_recordObservation hrecorded) fun _ => ?_
  refine triple_bind (preserves_recordPrivilegeEvidence hrecorded) fun _ => ?_
  exact triple_saveCheckpoint (fun _ hs => hs) fun s ⟨since, hs⟩ => ⟨since, hs.saving⟩

/-- What one incarnation preserves. -/
theorem preserves_durable_serve (hlaw : HomeserverLaw env config tl pos) (iterations : ℕ) :
    Preserves (Durable tl pos config hexdigest) (serve env config hexdigest iterations) := by
  have hlive : ∀ s, Live tl pos config hexdigest s → Durable tl pos config hexdigest s :=
    fun s ⟨_, hs⟩ => hs.toDurable
  refine triple_bind (R := fun _ => Booted tl pos config hexdigest)
    (triple_update fun s hs => hs.booted) fun _ => ?_
  refine triple_bind (triple_connect_durable hlaw) fun _ => ?_
  refine triple_consequence (P := fun s => ∃ since, Connected tl pos config hexdigest since s)
    (E := Live tl pos config hexdigest) ?_ (fun _ hs => hs) (fun _ => hlive) hlive
  refine triple_bind (triple_recover hlaw) fun _ => ?_
  exact preserves_runUntilStopped (fun s record ⟨since, hs⟩ => ⟨since, hs.recorded record⟩)
    (fun s ⟨since, hs⟩ => ⟨since, hs.saving⟩) (preserves_live_syncLoop hlaw iterations)

end Connecting

/-! ## 5.  The theorem -/

/-- What every run of an agent that starts without a checkpoint file preserves. -/
theorem durable_lifetime (hlaw : HomeserverLaw env config tl pos) (iterations : List ℕ) :
    Durable tl pos config hexdigest (lifetime env config hexdigest none iterations) := by
  refine preserves_lives (preserves_durable_serve hlaw) iterations ?_
  refine ⟨fun front entry back first token hsplit => ?_, rfl, fun _ => rfl, nofun, nofun,
    fun k => ⟨fun _ => rfl, fun _ _ => accounted_nil, fun hk => absurd hk (Nat.not_lt_zero k)⟩⟩
  exact absurd hsplit (by simp [State.initial])

/-- **No request is lost across checkpoints.**  In every run, whenever a token is made
durable, every foreign request of the room after the first durable token and up to it has
been handled before; and what the file holds is what was last saved. -/
theorem nothingLost_lifetime (hlaw : HomeserverLaw env config tl pos) (iterations : List ℕ) :
    NothingLost tl pos config hexdigest
      (lifetime env config hexdigest none iterations).trace ∧
    (lifetime env config hexdigest none iterations).file =
      lastSaved (lifetime env config hexdigest none iterations).trace :=
  ⟨(durable_lifetime hlaw iterations).lost, (durable_lifetime hlaw iterations).file⟩

/-! ### The small deployment -/

/-- The room of the small deployment. -/
def smallTimeline : Timeline := ⟨smallRaw, by decide⟩

instance (raw : RawEvent) (event : TimelineEvent) : Decidable (Shows config raw event) :=
  decidable_of_iff (event.roomId = config.roomId ∧ event.eventId = raw.eventId ∧
    event.sender = raw.sender.getD [] ∧ raw.body = some event.body)
    ⟨fun ⟨hroom, hid, hsender, hbody⟩ => ⟨hroom, hid, hsender, hbody⟩,
      fun h => ⟨h.room, h.eventId, h.sender, h.body⟩⟩

theorem covers_of_shows {events : List TimelineEvent} {lo hi : ℕ}
    (h : ∀ raw ∈ tl.between lo hi, ∃ event ∈ events, Shows config raw event) :
    Covers tl config events lo hi := fun raw hraw _ _ _ => h raw hraw

theorem paginateBackwards_small (roomId : Text) (since : Token) :
    (paginateBackwards (fun _ query => .ok (smallPage query)) roomId (smallToken 1) (some since)
      defaultPageLimit defaultMaxPages : Except (ClientError Fault) _) =
      .ok (((smallRaw.take 1).drop (smallPosition since)).reverse, 1) := by
  set chunk := ((smallRaw.take 1).drop (smallPosition since)).reverse with hchunk
  have hpage : smallPage ⟨roomId, defaultPageLimit, smallToken 1, truthy (some since)⟩ =
      ⟨chunk, none⟩ := by
    rw [hchunk]
    cases since <;> rfl
  have hloop : (paginateLoop (fun _ query => .ok (smallPage query)) roomId (some since)
      defaultPageLimit (49 + 1) (smallToken 1) [] 0 : Except Fault _) = .ok (chunk, 1, true) := by
    unfold paginateLoop
    simp only [hpage, List.nil_append, Nat.zero_add]
    split <;> rfl
  unfold paginateBackwards
  rw [show defaultMaxPages = 49 + 1 from rfl, hloop]
  rfl

/-- What a reconciliation from a position returns. -/
def smallMerged (position : ℕ) : List TimelineEvent :=
  ((OrderedDict.empty.fileAll TimelineEvent.eventId
      ([smallNewest].filterMap (toTimelineEvent ['R']))).fileAll TimelineEvent.eventId
    (messagesOf ['R'] ((smallRaw.take 1).drop position).reverse)).values

theorem smallMerged_shows (name : ProtocolName) {position : ℕ} (h : position < 2) :
    (∀ event ∈ smallMerged position, event.roomId = (smallConfig name).roomId →
      ∃ raw ∈ smallTimeline.events, Shows (smallConfig name) raw event) ∧
    ∀ raw ∈ smallTimeline.between position 2,
      ∃ event ∈ smallMerged position, Shows (smallConfig name) raw event := by
  obtain rfl | rfl : position = 0 ∨ position = 1 := by omega
  all_goals cases name <;> decide

/-- The small homeserver keeps the law. -/
theorem smallLaw (name : ProtocolName) (crash stop : ℕ) (creates : List ℕ) :
    HomeserverLaw (smallEnvironment crash stop creates) (smallConfig name) smallTimeline
      smallPosition := by
  have hsmall : ∀ query since, query.since = some since →
      smallSync query = if smallPosition since < 2 then
        ⟨smallToken 2, [⟨['R'], [smallNewest], true, some (smallToken 1)⟩]⟩
      else ⟨smallToken 2, []⟩ := by
    rintro ⟨_, _, _⟩ since rfl
    rfl
  constructor
  · rintro n query response hsync
    obtain rfl := Except.ok.inj hsync
    rcases query with ⟨_ | since, timeout, timelineLimit⟩
    · exact List.cons_ne_nil _ _
    · rw [hsmall _ since rfl]
      split <;> exact List.cons_ne_nil _ _
  · rintro n query response hsync item hitem -
    obtain rfl := Except.ok.inj hsync
    rcases query with ⟨_ | since, timeout, timelineLimit⟩
    · exact absurd hitem List.not_mem_nil
    · rw [hsmall _ since rfl] at hitem
      split at hitem
      · obtain rfl := List.mem_singleton.mp hitem
        intro event hevent _
        obtain rfl := List.mem_singleton.mp hevent
        cases name <;> decide
      · exact absurd hitem List.not_mem_nil
  · rintro n query response since hsync hsince hquiet
    obtain rfl := Except.ok.inj hsync
    rw [hsmall query since hsince] at hquiet ⊢
    split at hquiet
    · exact absurd rfl (hquiet _ (List.mem_singleton.mpr rfl))
    · rename_i hposition
      rw [if_neg hposition]
      have hnil : smallTimeline.between (smallPosition since) 2 = [] :=
        between_eq_nil (not_lt.mp hposition)
      exact covers_of_shows fun raw hraw => absurd (hnil ▸ hraw) List.not_mem_nil
  · rintro n query response since hsync hsince item hitem - hlimited
    obtain rfl := Except.ok.inj hsync
    rw [hsmall query since hsince] at hitem
    split at hitem
    · obtain rfl := List.mem_singleton.mp hitem
      cases hlimited
    · exact absurd hitem List.not_mem_nil
  · rintro n query response since hsync hsince item hitem - - m counter trigger result hresult
    obtain rfl := Except.ok.inj hsync
    rw [hsmall query since hsince] at hitem ⊢
    split at hitem
    · rename_i hposition
      rw [if_pos hposition]
      obtain rfl := List.mem_singleton.mp hitem
      set item : RoomSyncSlice :=
        ⟨['R'], [smallNewest].filterMap (toTimelineEvent ['R']), true, some (smallToken 1), 1⟩
      have hlimited : item.limited = true := rfl
      obtain ⟨episode, heq⟩ := reconcileSlice_eq counter trigger hlimited rfl
        (paginateBackwards_small item.roomId since)
      obtain rfl := Except.ok.inj (heq.symm.trans hresult)
      obtain ⟨hgenuine, hshows⟩ := smallMerged_shows name hposition
      exact ⟨hgenuine, covers_of_shows hshows⟩
    · exact absurd hitem List.not_mem_nil

/-- An agent that died between sending a response and saving: the window between the
primed token and the last one was handled, its first half twice. -/
theorem nothingLost_after_crash :
    (NothingLost smallTimeline smallPosition (smallConfig .controlled) id
        (lifetime (smallEnvironment 28 1000 [27, 58]) (smallConfig .controlled) id none
          [1, 2]).trace ∧
      (lifetime (smallEnvironment 28 1000 [27, 58]) (smallConfig .controlled) id none
          [1, 2]).file =
        lastSaved (lifetime (smallEnvironment 28 1000 [27, 58]) (smallConfig .controlled) id
          none [1, 2]).trace) ∧
    (((lifetime (smallEnvironment 28 1000 [27, 58]) (smallConfig .controlled) id none
      [1, 2]).trace.filterMap savedToken).map smallPosition).head? = some 0 ∧
    (((lifetime (smallEnvironment 28 1000 [27, 58]) (smallConfig .controlled) id none
      [1, 2]).trace.filterMap savedToken).map smallPosition).getLast? = some 2 :=
  ⟨nothingLost_lifetime (smallLaw .controlled 28 1000 [27, 58]) [1, 2], by decide +kernel,
    by decide +kernel⟩

end Agent
end FederatedMessaging
