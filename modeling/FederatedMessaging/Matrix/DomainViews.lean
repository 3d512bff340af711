import FederatedMessaging.Common.Message
import FederatedMessaging.Matrix.Backfill

/-!
# Domain views

A domain view is what one participant's homeserver shows of a room:
`fetch_all_messages` of `fam.matrix.client` pages the timeline backwards from its end,
and `collect_domain_view` of `fam.matrix.rooms` sorts out the messages of one run.

## 1.  Pages

The homeserver cuts the timeline into pages, newest first, and each page but the last
carries the token of the next (`PagesOf`).  A page may be empty and still carry a token.

## 2.  What is fetched

The loop ends on an empty page, on a page without a token, or after `max_pages` pages,
and returns what it has in all three cases.  `fetched` is what that is, and it is the
whole timeline exactly when no event is on a page behind an empty one or behind the
last page the loop asks for (`fetched_eq_flatten_iff`).

## 3.  The view

Whatever was fetched, the view files each message of the run under its kind.  So a view
of the whole timeline is exact (`viewExact_of_collect`), and the result is that both
functions return the whole room or raise exactly when a request on the way raises or
nothing was left out (`wholeRoomOrError_iff`).

Left out: `str.upper` of the experiment's name is that of ASCII text.
-/

namespace FederatedMessaging
namespace Matrix

open PythonText Message

/-! ## 1.  Pages -/

/-- The query of one request of `fetch_all_messages`.  The first has no `from`. -/
structure HistoryQuery where
  roomId : Text
  limit : ℕ
  start : Option Token
  deriving DecidableEq, Repr

section Fetch

variable {ε : Type*} (request : ℕ → HistoryQuery → Except ε Page) (roomId : Text) (pageLimit : ℕ)

/-- The loop of `fetch_all_messages`, with `left` iterations to go after `made`
requests. -/
def fetchLoop : ℕ → Option Token → List RawEvent → ℕ → Except ε (List RawEvent)
  | 0, _, events, _ => .ok events
  | left + 1, token, events, made =>
    match request made ⟨roomId, pageLimit, truthy token⟩ with
    | .error e => .error e
    | .ok page =>
      if page.chunk.isEmpty ∨ truthy page.endToken = none then .ok (events ++ page.chunk)
      else fetchLoop left page.endToken (events ++ page.chunk) (made + 1)

/-- `fetch_all_messages`. -/
def fetchAllMessages (maxPages : ℕ) : Except ε (List RawEvent) :=
  fetchLoop request roomId pageLimit maxPages none [] 0

/-- Where the request for page `i` starts. -/
def startAt (token : ℕ → Token) (i : ℕ) : Option Token := if i = 0 then none else some (token i)

/-- **The law of a homeserver's pages.**  They are the timeline read backwards, and each
request that is answered brings the page it asks for, with the token of the next if
there is one. -/
structure PagesOf (tl : Timeline) (pages : List (List RawEvent)) (token : ℕ → Token) : Prop where
  covers : pages.flatten = tl.events.reverse
  nonempty : pages ≠ []
  token_ne_nil : ∀ i, token i ≠ []
  serves : ∀ i < pages.length, ∀ page,
    request i ⟨roomId, pageLimit, startAt token i⟩ = .ok page →
      pages[i]? = some page.chunk ∧
      truthy page.endToken = if i + 1 < pages.length then some (token (i + 1)) else none

/-- A request up to the first empty page raises, within the bound. -/
def Interrupted (maxPages : ℕ) (pages : List (List RawEvent)) (token : ℕ → Token) : Prop :=
  ∃ k < maxPages, k < pages.length ∧ (∀ i < k, pages[i]? ≠ some []) ∧
    ∃ e, request k ⟨roomId, pageLimit, startAt token k⟩ = .error e

end Fetch

/-! ## 2.  What is fetched -/

/-- The events on the pages up to the first empty one, and on no more than `left` of
them. -/
def fetched : ℕ → List (List RawEvent) → List RawEvent
  | 0, _ => []
  | _ + 1, [] => []
  | left + 1, chunk :: pages => if chunk.isEmpty then [] else chunk ++ fetched left pages

/-- No event is on a page behind an empty one, or behind the first `maxPages`. -/
def NothingLeftOut (maxPages : ℕ) (pages : List (List RawEvent)) : Prop :=
  ∀ j chunk, pages[j]? = some chunk → (maxPages ≤ j ∨ ∃ i < j, pages[i]? = some []) → chunk = []

theorem isPrefix_fetched (left : ℕ) (pages : List (List RawEvent)) :
    fetched left pages <+: pages.flatten := by
  induction left, pages using fetched.induct with
  | case1 pages => exact List.nil_prefix
  | case2 left => exact List.nil_prefix
  | case3 left chunk pages hempty =>
    rw [fetched, if_pos hempty]
    exact List.nil_prefix
  | case4 left chunk pages hempty ih =>
    rw [fetched, if_neg hempty, List.flatten_cons]
    exact (List.prefix_append_right_inj chunk).mpr ih

theorem flatten_eq_nil_iff_getElem? {pages : List (List RawEvent)} :
    pages.flatten = [] ↔ ∀ (j : ℕ) (chunk), pages[j]? = some chunk → chunk = [] := by
  rw [List.flatten_eq_nil_iff]
  constructor
  · intro h j chunk hj
    exact h chunk (List.mem_of_getElem? hj)
  · intro h chunk hmem
    obtain ⟨j, hj⟩ := List.mem_iff_getElem?.mp hmem
    exact h j chunk hj

/-- **What is fetched is everything exactly when nothing was left out.** -/
theorem fetched_eq_flatten_iff {left : ℕ} {pages : List (List RawEvent)} :
    fetched left pages = pages.flatten ↔ NothingLeftOut left pages := by
  induction left, pages using fetched.induct with
  | case1 pages =>
    rw [fetched, eq_comm, flatten_eq_nil_iff_getElem?]
    exact ⟨fun h j chunk hj _ => h j chunk hj,
      fun h j chunk hj => h j chunk hj (Or.inl (Nat.zero_le j))⟩
  | case2 left =>
    exact ⟨fun _ j chunk hj => (nomatch hj), fun _ => rfl⟩
  | case3 left chunk pages hempty =>
    obtain rfl := List.isEmpty_iff.mp hempty
    rw [fetched, if_pos hempty, List.flatten_cons, List.nil_append, eq_comm,
      flatten_eq_nil_iff_getElem?]
    constructor
    · intro h j chunk hj hbehind
      cases j with
      | zero => exact (Option.some_inj.mp hj).symm
      | succ j => exact h j chunk hj
    · exact fun h j chunk hj => h (j + 1) chunk hj (Or.inr ⟨0, Nat.succ_pos j, rfl⟩)
  | case4 left chunk pages hempty ih =>
    rw [fetched, if_neg hempty, List.flatten_cons, List.append_right_inj, ih]
    constructor
    · intro h j chunk' hj hbehind
      cases j with
      | zero =>
        rcases hbehind with hbound | ⟨i, hi, -⟩
        · exact absurd hbound (Nat.not_succ_le_zero left)
        · exact absurd hi (Nat.not_lt_zero i)
      | succ j =>
        refine h j chunk' hj ?_
        rcases hbehind with hbound | ⟨i, hi, hnil⟩
        · exact Or.inl (Nat.le_of_succ_le_succ hbound)
        · cases i with
          | zero => exact absurd (List.isEmpty_iff.mpr (Option.some_inj.mp hnil)) hempty
          | succ i => exact Or.inr ⟨i, Nat.lt_of_succ_lt_succ hi, hnil⟩
    · intro h j chunk' hj hbehind
      refine h (j + 1) chunk' hj ?_
      rcases hbehind with hbound | ⟨i, hi, hnil⟩
      · exact Or.inl (Nat.succ_le_succ hbound)
      · exact Or.inr ⟨i + 1, Nat.succ_lt_succ hi, hnil⟩

section Loop

variable {ε : Type*} {request : ℕ → HistoryQuery → Except ε Page} {roomId : Text} {pageLimit : ℕ}
  {tl : Timeline} {pages : List (List RawEvent)} {token : ℕ → Token}

theorem truthy_startAt (h : PagesOf request roomId pageLimit tl pages token) (i : ℕ) :
    truthy (startAt token i) = startAt token i := by
  unfold startAt
  split
  · rfl
  · exact truthy_eq_some.mpr ⟨rfl, h.token_ne_nil i⟩

/-- One request, and what the loop makes of its answer. -/
theorem fetchLoop_step (h : PagesOf request roomId pageLimit tl pages token) {left i : ℕ}
    (hi : i < pages.length) (events : List RawEvent) :
    (∃ e, request i ⟨roomId, pageLimit, startAt token i⟩ = .error e ∧
      fetchLoop request roomId pageLimit (left + 1) (startAt token i) events i = .error e) ∨
    (∃ chunk, pages[i]? = some chunk ∧
      (∃ page, request i ⟨roomId, pageLimit, startAt token i⟩ = .ok page) ∧
      fetchLoop request roomId pageLimit (left + 1) (startAt token i) events i =
        if chunk = [] ∨ pages.length ≤ i + 1 then .ok (events ++ chunk)
        else fetchLoop request roomId pageLimit left (startAt token (i + 1)) (events ++ chunk)
          (i + 1)) := by
  rw [fetchLoop, truthy_startAt h]
  cases hanswer : request i ⟨roomId, pageLimit, startAt token i⟩ with
  | error e => exact Or.inl ⟨e, rfl, rfl⟩
  | ok page =>
    obtain ⟨hchunk, hend⟩ := h.serves i hi page hanswer
    refine Or.inr ⟨page.chunk, hchunk, ⟨page, rfl⟩, ?_⟩
    change (if page.chunk.isEmpty = true ∨ truthy page.endToken = none then _ else _) = _
    by_cases hmore : i + 1 < pages.length
    · rw [if_pos hmore] at hend
      have htoken : page.endToken = startAt token (i + 1) := (truthy_eq_some.mp hend).1
      have hsome : truthy (startAt token (i + 1)) ≠ none := by
        rw [← htoken, hend]
        exact Option.some_ne_none _
      simp only [htoken, hsome, List.isEmpty_iff, not_le.mpr hmore, or_false]
    · rw [if_neg hmore] at hend
      rw [if_pos (Or.inr hend), if_pos (Or.inr (not_lt.mp hmore))]

/-- **What the loop returns**, from any page on. -/
theorem fetchLoop_eq (h : PagesOf request roomId pageLimit tl pages token) {left i : ℕ}
    (hi : i < pages.length) {events out : List RawEvent}
    (hout : fetchLoop request roomId pageLimit left (startAt token i) events i = .ok out) :
    out = events ++ fetched left (pages.drop i) := by
  induction left generalizing i events with
  | zero =>
    obtain rfl := Except.ok.inj hout
    exact (List.append_nil _).symm
  | succ left ih =>
    rcases fetchLoop_step h hi events with ⟨e, -, hloop⟩ | ⟨chunk, hchunk, -, hloop⟩
    · exact nomatch hloop.symm.trans hout
    · obtain ⟨hlt, hget⟩ := List.getElem?_eq_some_iff.mp hchunk
      rw [hloop] at hout
      rw [List.drop_eq_getElem_cons hlt, hget, fetched]
      split at hout
      · rename_i hstop
        obtain rfl := Except.ok.inj hout
        rcases hstop with rfl | hlast
        · rfl
        · rw [List.drop_eq_nil_of_le hlast]
          cases chunk <;> cases left <;> simp [fetched]
      · rename_i hgo
        rw [not_or, not_le] at hgo
        rw [ih hgo.2 hout, if_neg (mt List.isEmpty_iff.mp hgo.1), List.append_assoc]

/-- **When the loop raises.** -/
theorem fetchLoop_error_iff (h : PagesOf request roomId pageLimit tl pages token) (left : ℕ) {i : ℕ}
    (hi : i < pages.length) (events : List RawEvent) :
    (∃ e, fetchLoop request roomId pageLimit left (startAt token i) events i = .error e) ↔
      ∃ k, i ≤ k ∧ k < i + left ∧ k < pages.length ∧
        (∀ j, i ≤ j → j < k → pages[j]? ≠ some []) ∧
        ∃ e, request k ⟨roomId, pageLimit, startAt token k⟩ = .error e := by
  induction left generalizing i events with
  | zero => exact ⟨fun ⟨e, he⟩ => (nomatch he), fun ⟨k, hk, hlt, _⟩ => absurd hk (by omega)⟩
  | succ left ih =>
    rcases fetchLoop_step h hi events with ⟨e, he, hloop⟩ | ⟨chunk, hchunk, ⟨page, hpage⟩, hloop⟩
    · exact ⟨fun _ => ⟨i, le_rfl, by omega, hi, fun j hj hjk => absurd hj (by omega), e, he⟩,
        fun _ => ⟨e, hloop⟩⟩
    · rw [hloop]
      -- The request for this page was answered, so the one that raises comes later.
      have hlater : ∀ k, i ≤ k →
          (∃ e, request k ⟨roomId, pageLimit, startAt token k⟩ = .error e) → i + 1 ≤ k := by
        rintro k hk ⟨e, he⟩
        rcases hk.eq_or_lt with rfl | hlt
        · exact nomatch hpage.symm.trans he
        · exact hlt
      split
      · rename_i hstop
        refine ⟨fun ⟨e, he⟩ => (nomatch he), ?_⟩
        rintro ⟨k, hk, -, hlen, hfull, he⟩
        have hik := hlater k hk he
        rcases hstop with rfl | hlast
        · exact absurd hchunk (hfull i le_rfl hik)
        · omega
      · rename_i hgo
        rw [not_or, not_le] at hgo
        rw [ih hgo.2 _]
        constructor
        · rintro ⟨k, hk, hlt, hlen, hfull, he⟩
          refine ⟨k, by omega, by omega, hlen, fun j hj hjk => ?_, he⟩
          rcases hj.eq_or_lt with rfl | hj
          · rw [hchunk]
            exact fun hnil => hgo.1 (Option.some_inj.mp hnil)
          · exact hfull j hj hjk
        · rintro ⟨k, hk, hlt, hlen, hfull, he⟩
          exact ⟨k, hlater k hk he, by omega, hlen, fun j hj hjk => hfull j (by omega) hjk, he⟩

theorem fetchAllMessages_error_iff (h : PagesOf request roomId pageLimit tl pages token)
    {maxPages : ℕ} :
    (∃ e, fetchAllMessages request roomId pageLimit maxPages = .error e) ↔
      Interrupted request roomId pageLimit maxPages pages token := by
  have hloop := fetchLoop_error_iff h maxPages (List.length_pos_of_ne_nil h.nonempty) []
  refine hloop.trans ⟨?_, ?_⟩
  · rintro ⟨k, -, hlt, hlen, hfull, he⟩
    exact ⟨k, by omega, hlen, fun i hi => hfull i (Nat.zero_le i) hi, he⟩
  · rintro ⟨k, hlt, hlen, hfull, he⟩
    exact ⟨k, Nat.zero_le k, by omega, hlen, fun i _ hi => hfull i hi, he⟩

/-- **The whole timeline or an error.**  What `fetch_all_messages` returns is every event
once exactly when a request on the way raises, or nothing was left out. -/
theorem fetchAllMessages_perm_iff (h : PagesOf request roomId pageLimit tl pages token)
    {maxPages : ℕ} :
    (∀ events, fetchAllMessages request roomId pageLimit maxPages = .ok events →
      events.Perm tl.events) ↔
      Interrupted request roomId pageLimit maxPages pages token ∨
        NothingLeftOut maxPages pages := by
  rw [← fetchAllMessages_error_iff h, ← fetched_eq_flatten_iff]
  have heq {events : List RawEvent}
      (hevents : fetchAllMessages request roomId pageLimit maxPages = .ok events) :
      events = fetched maxPages pages :=
    fetchLoop_eq h (List.length_pos_of_ne_nil h.nonempty) hevents
  have hperm : pages.flatten.Perm tl.events := h.covers ▸ tl.events.reverse_perm
  constructor
  · intro hall
    cases hfetch : fetchAllMessages request roomId pageLimit maxPages with
    | error e => exact Or.inl ⟨e, rfl⟩
    | ok events =>
      have hlength := ((hall events hfetch).trans hperm.symm).length_eq
      rw [heq hfetch] at hlength
      exact Or.inr ((isPrefix_fetched maxPages pages).eq_of_length hlength)
  · rintro (⟨e, he⟩ | hwhole) events hevents
    · exact nomatch he.symm.trans hevents
    · rw [heq hevents, hwhole]
      exact hperm

end Loop

/-! ## 3.  The view -/

/-- `DomainView`. -/
structure DomainView where
  domain : Text
  observer : Text
  requestEventIds : Finset Text
  ackEventIds : Finset Text
  experimentalEventIds : Finset Text
  nonExperimentalEvents : ℕ
  totalEventsSeen : ℕ
  membership : List Text
  detail : OrderedDict Text (Kind × Text × ℕ)

/-- The view before its loop, of so many events. -/
def DomainView.new (domain observer : Text) (totalEventsSeen : ℕ) : DomainView :=
  { domain := domain
    observer := observer
    requestEventIds := ∅
    ackEventIds := ∅
    experimentalEventIds := ∅
    nonExperimentalEvents := 0
    totalEventsSeen := totalEventsSeen
    membership := []
    detail := .empty }

/-- What `collect_domain_view` raises. -/
inductive ViewError (ε : Type*) where
  | request (error : ε)
  | message (error : MessageError)

section View

variable (experiment runId : Text)

/-- The message belongs to the run. -/
def OfRun (message : ParsedMessage) : Prop :=
  upper message.correlation.experiment = upper experiment ∧ message.correlation.runId = runId

instance (message : ParsedMessage) : Decidable (OfRun experiment runId message) := by
  unfold OfRun
  infer_instance

/-- An event that is counted only. -/
def DomainView.passOver (view : DomainView) : DomainView :=
  { view with nonExperimentalEvents := view.nonExperimentalEvents + 1 }

/-- An event that carries a message of the run. -/
def DomainView.file (view : DomainView) (event : RawEvent) (message : ParsedMessage) :
    DomainView :=
  { view with
    experimentalEventIds := insert event.eventId view.experimentalEventIds
    requestEventIds :=
      if message.isRequest then insert event.eventId view.requestEventIds
      else view.requestEventIds
    ackEventIds :=
      if message.isRequest then view.ackEventIds else insert event.eventId view.ackEventIds
    detail := view.detail.set event.eventId
      (if message.isRequest then .request else .ack, event.sender.getD [],
        message.correlation.sequenceId) }

/-- The body of the loop of `collect_domain_view`. -/
def DomainView.see (view : DomainView) (event : RawEvent) : Except MessageError DomainView :=
  if event.eventType ≠ some messageEventType then .ok view.passOver
  else match event.body with
    | none => .ok view.passOver
    | some body => do
      match ← parse body with
      | none => .ok view.passOver
      | some message =>
        if OfRun experiment runId message then .ok (view.file event message)
        else .ok view.passOver

/-- The loop of `collect_domain_view`. -/
def DomainView.seeAll : List RawEvent → DomainView → Except MessageError DomainView
  | [], view => .ok view
  | event :: events, view => do
    let view ← view.see experiment runId event
    seeAll events view

/-- The default of `page_limit`, in `fetch_all_messages`. -/
def viewPageLimit : ℕ := 200

/-- The default of `max_pages`, in `fetch_all_messages`. -/
def viewMaxPages : ℕ := 50

/-- `collect_domain_view`; `joined` is the answer to the request for the members. -/
def collectDomainView {ε : Type*} (request : ℕ → HistoryQuery → Except ε Page)
    (joined : Except ε (List Text)) (observer domain roomId : Text) :
    Except (ViewError ε) DomainView := do
  let events ← (fetchAllMessages request roomId viewPageLimit viewMaxPages).mapError .request
  let view ← (DomainView.seeAll experiment runId events
    (.new domain observer events.length)).mapError .message
  let membership ← joined.mapError .request
  .ok { view with membership := membership }

/-- The event carries this message of the run. -/
def Carries (event : RawEvent) (message : ParsedMessage) : Prop :=
  event.eventType = some messageEventType ∧
    ∃ body, event.body = some body ∧ parse body = .ok (some message) ∧
      OfRun experiment runId message

/-- **The view of these events**: it has the ids of the run's messages, and they are
filed as requests and as ACKs. -/
structure ViewExact (events : List RawEvent) (view : DomainView) : Prop where
  experimental : ∀ id, id ∈ view.experimentalEventIds ↔
    ∃ event ∈ events, event.eventId = id ∧ ∃ message, Carries experiment runId event message
  requests : ∀ id, id ∈ view.requestEventIds ↔
    ∃ event ∈ events, event.eventId = id ∧
      ∃ message, Carries experiment runId event message ∧ message.kind = .request
  acks : ∀ id, id ∈ view.ackEventIds ↔
    ∃ event ∈ events, event.eventId = id ∧
      ∃ message, Carries experiment runId event message ∧ message.kind = .ack
  union : view.requestEventIds ∪ view.ackEventIds = view.experimentalEventIds
  disjoint : Disjoint view.requestEventIds view.ackEventIds

variable {experiment runId}

theorem Carries.message_eq {event : RawEvent} {message message' : ParsedMessage}
    (h : Carries experiment runId event message) (h' : Carries experiment runId event message') :
    message = message' := by
  obtain ⟨-, body, hbody, hparse, -⟩ := h
  obtain ⟨-, body', hbody', hparse', -⟩ := h'
  obtain rfl := Option.some_inj.mp (hbody.symm.trans hbody')
  exact Option.some_inj.mp (Except.ok.inj (hparse.symm.trans hparse'))

/-- **What one event adds to the view.** -/
theorem see_cases {view view' : DomainView} {event : RawEvent}
    (h : view.see experiment runId event = .ok view') :
    (∃ message, Carries experiment runId event message ∧ view' = view.file event message) ∨
      (∀ message, ¬ Carries experiment runId event message) ∧ view' = view.passOver := by
  unfold DomainView.see at h
  split at h
  · rename_i htype
    exact Or.inr ⟨fun _ hcarries => htype hcarries.1, (Except.ok.inj h).symm⟩
  rename_i htype
  split at h
  · rename_i hbody
    refine Or.inr ⟨?_, (Except.ok.inj h).symm⟩
    rintro message ⟨-, body, hsome, -⟩
    exact nomatch hbody.symm.trans hsome
  rename_i body hbody
  cases hparse : parse body with
  | error e =>
    rw [hparse] at h
    cases h
  | ok found =>
    rw [hparse] at h
    have hfound {message : ParsedMessage} (hcarries : Carries experiment runId event message) :
        found = some message ∧ OfRun experiment runId message := by
      obtain ⟨-, body', hbody', hparse', hrun⟩ := hcarries
      obtain rfl := Option.some_inj.mp (hbody.symm.trans hbody')
      exact ⟨Except.ok.inj (hparse.symm.trans hparse'), hrun⟩
    cases found with
    | none =>
      exact Or.inr ⟨fun _ hcarries => (nomatch (hfound hcarries).1), (Except.ok.inj h).symm⟩
    | some message =>
      change (if OfRun experiment runId message then _ else _) = _ at h
      split at h
      · rename_i hrun
        exact Or.inl ⟨message, ⟨not_not.mp htype, body, hbody, hparse, hrun⟩,
          (Except.ok.inj h).symm⟩
      · rename_i hrun
        refine Or.inr ⟨fun message' hcarries => ?_, (Except.ok.inj h).symm⟩
        obtain ⟨heq, hrun'⟩ := hfound hcarries
        exact hrun (Option.some_inj.mp heq ▸ hrun')

/-- The ids filed under a kind, or all of them. -/
def DomainView.ids (view : DomainView) : Option Kind → Finset Text
  | none => view.experimentalEventIds
  | some .request => view.requestEventIds
  | some .ack => view.ackEventIds

theorem mem_ids_file {view : DomainView} {event : RawEvent} {message : ParsedMessage}
    {select : Option Kind} {id : Text} :
    id ∈ (view.file event message).ids select ↔
      id ∈ view.ids select ∨ event.eventId = id ∧ ∀ kind ∈ select, message.kind = kind := by
  have hrequest : message.isRequest = true ↔ message.kind = .request := beq_iff_eq
  rcases select with _ | kind
  · simp only [DomainView.ids, DomainView.file, Finset.mem_insert, Option.not_mem_none,
      false_imp_iff, implies_true, and_true]
    rw [or_comm, eq_comm]
  · cases hkind : message.kind <;> cases kind <;>
      simp [DomainView.ids, DomainView.file, hrequest, hkind, or_comm, eq_comm]

/-- **What the loop files**, under each kind and altogether. -/
theorem mem_ids_seeAll {events : List RawEvent} {view view' : DomainView}
    (h : DomainView.seeAll experiment runId events view = .ok view') (select : Option Kind)
    (id : Text) :
    id ∈ view'.ids select ↔ id ∈ view.ids select ∨
      ∃ event ∈ events, event.eventId = id ∧
        ∃ message, Carries experiment runId event message ∧
          ∀ kind ∈ select, message.kind = kind := by
  induction events generalizing view with
  | nil =>
    obtain rfl := Except.ok.inj h
    exact ⟨Or.inl, fun h => h.resolve_right fun ⟨_, he, _⟩ => absurd he List.not_mem_nil⟩
  | cons event events ih =>
    unfold DomainView.seeAll at h
    cases hsee : view.see experiment runId event with
    | error e =>
      rw [hsee] at h
      cases h
    | ok seen =>
      rw [hsee] at h
      rw [ih h]
      simp only [List.mem_cons, or_and_right, exists_or, exists_eq_left]
      rcases see_cases hsee with ⟨message, hcarries, rfl⟩ | ⟨hnone, rfl⟩
      · rw [mem_ids_file, or_assoc]
        refine or_congr_right (or_congr_left (and_congr_right fun _ => ?_))
        constructor
        · exact fun hkind => ⟨message, hcarries, hkind⟩
        · rintro ⟨message', hcarries', hkind⟩
          exact hcarries.message_eq hcarries' ▸ hkind
      · have hids : view.passOver.ids select = view.ids select := by
          rcases select with _ | _ | _ <;> rfl
        rw [hids]
        refine or_congr_right (iff_or_self.mpr ?_)
        rintro ⟨-, message, hcarries, -⟩
        exact absurd hcarries (hnone message)

/-- **The view of a whole timeline is exact.** -/
theorem viewExact_of_seeAll {events : List RawEvent}
    (hnodup : (events.map RawEvent.eventId).Nodup) {view view' : DomainView}
    (hempty : ∀ select, view.ids select = ∅)
    (h : DomainView.seeAll experiment runId events view = .ok view') :
    ViewExact experiment runId events view' := by
  have hids (select : Option Kind) (id : Text) : id ∈ view'.ids select ↔
      ∃ event ∈ events, event.eventId = id ∧
        ∃ message, Carries experiment runId event message ∧
          ∀ kind ∈ select, message.kind = kind := by
    rw [mem_ids_seeAll h, hempty]
    exact ⟨fun h => h.resolve_left (Finset.notMem_empty id), Or.inr⟩
  have hkind (kind : Kind) (id : Text) : id ∈ view'.ids (some kind) ↔
      ∃ event ∈ events, event.eventId = id ∧
        ∃ message, Carries experiment runId event message ∧ message.kind = kind := by
    rw [hids]
    simp only [Option.mem_some_iff, forall_eq']
  have hall (id : Text) : id ∈ view'.experimentalEventIds ↔
      ∃ event ∈ events, event.eventId = id ∧ ∃ message, Carries experiment runId event message := by
    refine (hids none id).trans ?_
    simp only [Option.not_mem_none, false_imp_iff, implies_true, and_true]
  refine ⟨hall, hkind .request, hkind .ack, ?_, ?_⟩
  · ext id
    rw [Finset.mem_union, hall]
    refine (or_congr (hkind .request id) (hkind .ack id)).trans ⟨?_, ?_⟩
    · rintro (⟨event, he, hid, message, hcarries, -⟩ | ⟨event, he, hid, message, hcarries, -⟩)
      · exact ⟨event, he, hid, message, hcarries⟩
      · exact ⟨event, he, hid, message, hcarries⟩
    · rintro ⟨event, he, hid, message, hcarries⟩
      cases hcase : message.kind with
      | request => exact Or.inl ⟨event, he, hid, message, hcarries, hcase⟩
      | ack => exact Or.inr ⟨event, he, hid, message, hcarries, hcase⟩
  · rw [Finset.disjoint_left]
    intro id hrequest hack
    obtain ⟨event, he, rfl, message, hcarries, hmessage⟩ := (hkind .request id).mp hrequest
    obtain ⟨event', he', hid, message', hcarries', hmessage'⟩ := (hkind .ack _).mp hack
    obtain rfl := List.inj_on_of_nodup_map hnodup he' he hid
    rw [hcarries.message_eq hcarries', hmessage'] at hmessage
    cases hmessage

end View

/-! ## 4.  The whole room or an error -/

section Room

variable {ε : Type*} {request : ℕ → HistoryQuery → Except ε Page} {roomId : Text} {tl : Timeline}
  {pages : List (List RawEvent)} {token : ℕ → Token}

/-- **The whole room or an error**: what `fetch_all_messages` returns is every event of
the timeline once, and a view that `collect_domain_view` returns is that of the
timeline. -/
structure WholeRoomOrError (request : ℕ → HistoryQuery → Except ε Page) (roomId : Text)
    (tl : Timeline) : Prop where
  fetch : ∀ events, fetchAllMessages request roomId viewPageLimit viewMaxPages = .ok events →
    events.Perm tl.events
  collect : ∀ experiment runId joined observer domain view,
    collectDomainView experiment runId request joined observer domain roomId = .ok view →
      ViewExact experiment runId tl.events view

theorem ViewExact.perm {experiment runId : Text} {events events' : List RawEvent}
    {view : DomainView} (h : ViewExact experiment runId events view)
    (hperm : events.Perm events') : ViewExact experiment runId events' view := by
  refine ⟨fun id => (h.experimental id).trans ?_, fun id => (h.requests id).trans ?_,
    fun id => (h.acks id).trans ?_, h.union, h.disjoint⟩
  all_goals simp only [hperm.mem_iff]

/-- A view of everything that was fetched. -/
theorem viewExact_of_collect {experiment runId : Text} {joined : Except ε (List Text)}
    {observer domain : Text} {view : DomainView}
    (hfetch : ∀ events, fetchAllMessages request roomId viewPageLimit viewMaxPages = .ok events →
      events.Perm tl.events)
    (h : collectDomainView experiment runId request joined observer domain roomId = .ok view) :
    ViewExact experiment runId tl.events view := by
  unfold collectDomainView at h
  cases hevents : fetchAllMessages request roomId viewPageLimit viewMaxPages with
  | error e =>
    rw [hevents] at h
    cases h
  | ok events =>
    rw [hevents] at h
    have hperm := hfetch events hevents
    have hnodup : (events.map RawEvent.eventId).Nodup :=
      (hperm.map RawEvent.eventId).nodup_iff.mpr tl.nodup_ids
    change (Except.mapError _ (DomainView.seeAll experiment runId events _) >>= _) = _ at h
    cases hseen : DomainView.seeAll experiment runId events (.new domain observer events.length)
      with
    | error e =>
      rw [hseen] at h
      cases h
    | ok seen =>
      rw [hseen] at h
      have hexact := (viewExact_of_seeAll hnodup (fun select => by
        rcases select with _ | _ | _ <;> rfl) hseen).perm hperm
      cases hjoined : joined with
      | error e =>
        rw [hjoined] at h
        cases h
      | ok membership =>
        rw [hjoined] at h
        obtain rfl := Except.ok.inj h
        exact ⟨hexact.experimental, hexact.requests, hexact.acks, hexact.union, hexact.disjoint⟩

/-- **Exactly when the view is the whole room or an error.**  A request up to the first
empty page raises, or no event is on a page behind an empty one or behind the
fiftieth. -/
theorem wholeRoomOrError_iff (h : PagesOf request roomId viewPageLimit tl pages token) :
    WholeRoomOrError request roomId tl ↔
      Interrupted request roomId viewPageLimit viewMaxPages pages token ∨
        NothingLeftOut viewMaxPages pages := by
  rw [← fetchAllMessages_perm_iff h]
  exact ⟨fun hwhole => hwhole.fetch, fun hfetch =>
    ⟨hfetch, fun _ _ _ _ _ _ hview => viewExact_of_collect hfetch hview⟩⟩

end Room

/-! ### A page that is empty and carries a token -/

/-- A room with one request. -/
def oneRequest : Timeline :=
  ⟨[message ['$', '0'] ['F', 'A', 'M', '/', '1', ' ', 'R', 'E', 'Q', 'U', 'E', 'S', 'T', ' ', 'E',
    '1', ' ', 'r', ' ', '1']], by decide⟩

/-- The tokens `t`, `tt`, .. -/
def pageToken (i : ℕ) : Token := List.replicate (i + 1) 't'

/-- A homeserver that serves these pages. -/
def servePages (pages : List (List RawEvent)) (i : ℕ) (_ : HistoryQuery) : Except Unit Page :=
  .ok ⟨pages[i]?.getD [], if i + 1 < pages.length then some (pageToken (i + 1)) else none⟩

theorem pagesOf_servePages {tl : Timeline} {pages : List (List RawEvent)} {roomId : Text}
    {pageLimit : ℕ} (hcovers : pages.flatten = tl.events.reverse) (hne : pages ≠ []) :
    PagesOf (servePages pages) roomId pageLimit tl pages pageToken where
  covers := hcovers
  nonempty := hne
  token_ne_nil i := List.cons_ne_nil _ _
  serves i hi page hpage := by
    rw [← Except.ok.inj hpage]
    refine ⟨by simp [List.getElem?_eq_getElem hi], ?_⟩
    dsimp only
    split
    · rfl
    · rfl

/-- The first page is empty and leads to the request: the view returns without it. -/
theorem emptyPage_not_wholeRoom :
    ¬ WholeRoomOrError (servePages [[], oneRequest.events]) ['!', 'r'] oneRequest := by
  intro h
  have hperm := h.fetch [] rfl
  exact absurd hperm.length_eq (by decide)

/-- One page with the request. -/
theorem fullPage_wholeRoom :
    WholeRoomOrError (servePages [oneRequest.events]) ['!', 'r'] oneRequest := by
  refine (wholeRoomOrError_iff (pagesOf_servePages rfl (List.cons_ne_nil _ _))).mpr (Or.inr ?_)
  exact fetched_eq_flatten_iff.mp rfl

end Matrix
end FederatedMessaging
