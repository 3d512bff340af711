import FederatedMessaging.Foundations.OrderedDict
import FederatedMessaging.Foundations.PythonText

/-!
# History pagination and slice reconciliation

The part of `fam.matrix.client` that closes a gap: `paginate_backwards` walks the
room history one page at a time, and `reconcile_slice` merges what it brings back
with the events a sync delivered directly.

## What stands for the homeserver

A sync response is what matrix-nio makes of the answer; `SyncResponse.snapshot` is the
part of `sync_once` that turns it into a snapshot.  A history request is answered by a
parameter, a function of the number of requests already made in this pagination and of
the query.  Nothing is assumed of it here; it may also raise, and then so does the
pagination.

## What is left out

The percent-encoding of the query string (the query is kept as a record), and the
transport diagnostics of the live loop and of `sync_once`.  A raw event is kept with the
fields `_from_raw_event` looks at; fields it reads with a default are optional.
-/

namespace FederatedMessaging
namespace Matrix

open PythonText

/-- A stream token, of `/sync` or of `/messages`. -/
abbrev Token := Text

/-- An optional string where Python tests its truth: the empty one counts as absent. -/
def truthy : Option Text → Option Text
  | some (c :: s) => some (c :: s)
  | _ => none

theorem truthy_eq_some {value : Option Text} {text : Text} :
    truthy value = some text ↔ value = some text ∧ text ≠ [] := by
  rcases value with _ | _ | ⟨c, s⟩
  · exact ⟨nofun, nofun⟩
  · exact ⟨nofun, fun h => absurd (Option.some_inj.mp h.1).symm h.2⟩
  · exact ⟨fun h => ⟨h, Option.some_inj.mp h ▸ List.cons_ne_nil c s⟩, fun h => h.1⟩

/-! ## Events -/

/-- `MESSAGE_EVENT_TYPE`. -/
def messageEventType : Text :=
  ['m', '.', 'r', 'o', 'o', 'm', '.', 'm', 'e', 's', 's', 'a', 'g', 'e']

/-- `TimelineEvent`. -/
structure TimelineEvent where
  roomId : Text
  eventId : Text
  sender : Text
  body : Text
  originServerTs : ℤ
  deriving DecidableEq, Repr

/-- An event of a history page.  `body` is `content.body` when that is a string. -/
structure RawEvent where
  eventType : Option Text
  roomId : Option Text
  eventId : Text
  sender : Option Text
  body : Option Text
  originServerTs : Option ℤ
  deriving DecidableEq, Repr

/-- `_from_raw_event`: a message with a text body, or nothing. -/
def fromRawEvent (roomId : Text) (raw : RawEvent) : Option TimelineEvent :=
  if raw.eventType ≠ some messageEventType then none
  else match raw.body with
    | none => none
    | some body => some
        { roomId := (truthy raw.roomId).getD roomId
          eventId := raw.eventId
          sender := raw.sender.getD []
          body := body
          originServerTs := raw.originServerTs.getD 0 }

/-- `RoomSyncSlice`. -/
structure RoomSyncSlice where
  roomId : Text
  events : List TimelineEvent
  limited : Bool
  prevBatch : Option Token
  rawEventCount : ℕ
  deriving DecidableEq, Repr

/-- `SyncSnapshot`. -/
structure SyncSnapshot where
  nextBatch : Token
  rooms : List RoomSyncSlice
  deriving DecidableEq, Repr

/-- `SyncSnapshot.room`. -/
def SyncSnapshot.room (s : SyncSnapshot) (roomId : Text) : Option RoomSyncSlice :=
  s.rooms.find? fun item => item.roomId == roomId

/-! ## Syncs -/

/-- A timeline event as matrix-nio presents it.  `body` is the attribute of that name,
if it is there and not `None`, and then its text if it is a string; `contentBody` is
`source["content"]["body"]` when that is a string. -/
structure NioEvent where
  eventId : Text
  sender : Text
  body : Option (Option Text)
  contentBody : Option Text
  serverTimestamp : Option ℤ
  deriving DecidableEq, Repr

/-- `_to_timeline_event`. -/
def toTimelineEvent (roomId : Text) (event : NioEvent) : Option TimelineEvent :=
  (event.body.getD event.contentBody).map fun body =>
    { roomId := roomId
      eventId := event.eventId
      sender := event.sender
      body := body
      originServerTs := event.serverTimestamp.getD 0 }

/-- A joined room of a sync response. -/
structure JoinedRoom where
  roomId : Text
  events : List NioEvent
  limited : Bool
  prevBatch : Option Token
  deriving DecidableEq, Repr

/-- The part of a `SyncResponse` that is read. -/
structure SyncResponse where
  nextBatch : Token
  join : List JoinedRoom
  deriving DecidableEq, Repr

/-- The parameters of one sync request. -/
structure SyncQuery where
  since : Option Token
  timeout : ℕ
  timelineLimit : Option ℤ
  deriving DecidableEq, Repr

/-- The snapshot `sync_once` makes of a response. -/
def SyncResponse.snapshot (response : SyncResponse) : SyncSnapshot :=
  { nextBatch := response.nextBatch
    rooms := response.join.map fun room =>
      { roomId := room.roomId
        events := room.events.filterMap (toTimelineEvent room.roomId)
        limited := room.limited
        prevBatch := room.prevBatch
        rawEventCount := room.events.length } }

/-! ## Pagination -/

/-- The query of one history request. -/
structure PageQuery where
  roomId : Text
  limit : ℕ
  start : Token
  toToken : Option Token
  deriving DecidableEq, Repr

/-- The answer to a history request.  An absent `chunk` is the empty one. -/
structure Page where
  chunk : List RawEvent
  endToken : Option Token
  deriving DecidableEq, Repr

/-- What a pagination raises: the safety bound, or whatever a request raised. -/
inductive ClientError (ε : Type*) where
  /-- `pagination reached the {max_pages}-page safety bound in {room_id} without
  reaching the recovery boundary; {len(events)} events collected but the gap is
  unresolved` -/
  | recoveryBoundExceeded (maxPages : ℕ) (roomId : Text) (collected : ℕ)
  | request (error : ε)
  deriving Repr

section Pagination

variable {ε : Type*} (request : ℕ → PageQuery → Except ε Page)

/-- The loop of `paginate_backwards`, with `left` iterations to go: the events, the
number of pages, and whether the boundary was reached. -/
def paginateLoop (roomId : Text) (toToken : Option Token) (pageLimit : ℕ) :
    ℕ → Token → List RawEvent → ℕ → Except ε (List RawEvent × ℕ × Bool)
  | 0, _, events, pages => .ok (events, pages, false)
  | left + 1, token, events, pages =>
    match request pages ⟨roomId, pageLimit, token, truthy toToken⟩ with
    | .error e => .error e
    | .ok page =>
      if page.chunk.isEmpty then .ok (events ++ page.chunk, pages + 1, true)
      else match truthy page.endToken with
        | none => .ok (events ++ page.chunk, pages + 1, true)
        | some token =>
          if truthy toToken = some token then .ok (events ++ page.chunk, pages + 1, true)
          else paginateLoop roomId toToken pageLimit left token (events ++ page.chunk) (pages + 1)

/-- `paginate_backwards`. -/
def paginateBackwards (roomId : Text) (start : Token) (toToken : Option Token) (pageLimit : ℕ)
    (maxPages : ℕ) : Except (ClientError ε) (List RawEvent × ℕ) :=
  match paginateLoop request roomId toToken pageLimit maxPages start [] 0 with
  | .error e => .error (.request e)
  | .ok (events, pages, reachedBoundary) =>
    if reachedBoundary then .ok (events, pages)
    else .error (.recoveryBoundExceeded maxPages roomId events.length)

/-- The default of `page_limit`. -/
def defaultPageLimit : ℕ := 100

/-- The default of `max_pages`. -/
def defaultMaxPages : ℕ := 50

end Pagination

/-! ## Reconciliation -/

/-- What started a reconciliation. -/
inductive RecoveryTrigger where
  | startup
  | liveSync
  deriving DecidableEq, Repr

/-- The episode summary. -/
structure Episode where
  recoveryEpisode : ℕ
  recoveryTrigger : RecoveryTrigger
  roomId : Text
  previousCheckpointPresent : Bool
  syncLimited : Bool
  directFromSync : ℕ
  historyPagesFetched : ℕ
  recoveredFromHistory : ℕ
  duplicateObservations : ℕ
  reconciledUniqueEvents : ℕ
  deriving DecidableEq, Repr

/-- The local state of the two merging loops. -/
structure Merge where
  merged : OrderedDict Text TimelineEvent
  duplicates : ℕ
  fromHistory : ℕ

/-- The body of the loop over the slice's own events. -/
def Merge.direct (m : Merge) (event : TimelineEvent) : Merge :=
  if m.merged.contains event.eventId then { m with duplicates := m.duplicates + 1 }
  else { m with merged := m.merged.set event.eventId event }

/-- The body of the loop over the history's events. -/
def Merge.history (roomId : Text) (m : Merge) (raw : RawEvent) : Merge :=
  match fromRawEvent roomId raw with
  | none => m
  | some event =>
    if m.merged.contains event.eventId then { m with duplicates := m.duplicates + 1 }
    else
      { m with
        merged := m.merged.set event.eventId event
        fromHistory := m.fromHistory + 1 }

/-- The events and the episode summary, from the merged state. -/
def Merge.result (m : Merge) (counter pages : ℕ) (item : RoomSyncSlice) (since : Option Token)
    (trigger : RecoveryTrigger) : List TimelineEvent × Episode :=
  (m.merged.values,
    { recoveryEpisode := counter
      recoveryTrigger := trigger
      roomId := item.roomId
      previousCheckpointPresent := since.isSome
      syncLimited := item.limited
      directFromSync := item.events.length
      historyPagesFetched := pages
      recoveredFromHistory := m.fromHistory
      duplicateObservations := m.duplicates
      reconciledUniqueEvents := m.merged.values.length })

/-- `reconcile_slice`, after `counter` reconciliations of this participant.  The
counter moves even when the reconciliation raises. -/
def reconcileSlice {ε : Type*} (request : ℕ → PageQuery → Except ε Page) (counter : ℕ)
    (item : RoomSyncSlice) (since : Option Token) (trigger : RecoveryTrigger) :
    ℕ × Except (ClientError ε) (List TimelineEvent × Episode) :=
  let direct := item.events.foldl Merge.direct ⟨.empty, 0, 0⟩
  match item.limited, truthy item.prevBatch with
  | true, some start =>
    match paginateBackwards request item.roomId start since defaultPageLimit
        defaultMaxPages with
    | .error e => (counter + 1, .error e)
    | .ok (rawEvents, pages) =>
      (counter + 1, .ok ((rawEvents.foldl (Merge.history item.roomId) direct).result
        (counter + 1) pages item since trigger))
  | _, _ => (counter + 1, .ok (direct.result (counter + 1) 0 item since trigger))

/-! ## What the two merging loops leave

Both loops file the events they meet under their ids; only the counters differ. -/

theorem Merge.merged_direct (m : Merge) (event : TimelineEvent) :
    (m.direct event).merged = m.merged.setDefault event.eventId event := by
  unfold Merge.direct OrderedDict.setDefault
  split <;> rfl

theorem Merge.merged_history (roomId : Text) (m : Merge) (raw : RawEvent) :
    (m.history roomId raw).merged =
      m.merged.fileAll TimelineEvent.eventId (fromRawEvent roomId raw).toList := by
  unfold Merge.history
  cases fromRawEvent roomId raw with
  | none => rfl
  | some event =>
    change _ = m.merged.setDefault event.eventId event
    unfold OrderedDict.setDefault
    dsimp only
    split <;> rfl

theorem merged_foldl_direct (events : List TimelineEvent) (m : Merge) :
    (events.foldl Merge.direct m).merged = m.merged.fileAll TimelineEvent.eventId events := by
  induction events generalizing m with
  | nil => rfl
  | cons event events ih =>
    rw [List.foldl_cons, ih, Merge.merged_direct]
    rfl

/-- The messages among raw events. -/
def messagesOf (roomId : Text) (raws : List RawEvent) : List TimelineEvent :=
  raws.filterMap (fromRawEvent roomId)

theorem messagesOf_append (roomId : Text) (raws raws' : List RawEvent) :
    messagesOf roomId (raws ++ raws') = messagesOf roomId raws ++ messagesOf roomId raws' :=
  List.filterMap_append

theorem merged_foldl_history (roomId : Text) (raws : List RawEvent) (m : Merge) :
    (raws.foldl (Merge.history roomId) m).merged =
      m.merged.fileAll TimelineEvent.eventId (messagesOf roomId raws) := by
  induction raws generalizing m with
  | nil => rfl
  | cons raw raws ih =>
    rw [List.foldl_cons, ih, Merge.merged_history, messagesOf, messagesOf, List.filterMap_cons]
    cases fromRawEvent roomId raw with
    | none => rfl
    | some event => rfl

/-- **What a reconciliation of a limited slice returns**: the events of the slice and
then those of the history, the first of each id. -/
theorem reconcileSlice_eq {ε : Type*} {request : ℕ → PageQuery → Except ε Page} (counter : ℕ)
    {item : RoomSyncSlice} {since : Option Token} (trigger : RecoveryTrigger) {start : Token}
    {raws : List RawEvent} {pages : ℕ} (hlimited : item.limited = true)
    (hstart : truthy item.prevBatch = some start)
    (hpages : paginateBackwards request item.roomId start since defaultPageLimit
      defaultMaxPages = .ok (raws, pages)) :
    ∃ episode, (reconcileSlice request counter item since trigger).2 =
      .ok (((OrderedDict.empty.fileAll TimelineEvent.eventId item.events).fileAll
        TimelineEvent.eventId (messagesOf item.roomId raws)).values, episode) := by
  unfold reconcileSlice
  rw [hlimited, hstart]
  simp only [hpages]
  refine ⟨_, congrArg Except.ok (Prod.ext ?_ rfl)⟩
  rw [Merge.result, merged_foldl_history, merged_foldl_direct]

end Matrix
end FederatedMessaging
