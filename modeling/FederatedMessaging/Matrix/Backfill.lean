import FederatedMessaging.Matrix.Client

/-!
# Which backfills are complete

A limited timeline says that history is missing, and `paginate_backwards` fetches it.
This file states what the pages of a homeserver are --- consecutive stretches of one
timeline, read backwards --- and decides when the events that come back are all of
the missing ones.

## 1.  Pages of a timeline

A timeline is a list of events with distinct ids; a token has a position, the number
of events before it.  `IsPage` is the law of one answer: the page covers the
stretch from some cut up to the position of `from`, newest first; without an `end`
token the cut is the boundary, and with one it is the position of that token.  A page
may be empty and still carry a token: the cut is then where the page began.

## 2.  The walk

`visited n` is the token the `n`-th request is made from when every `end` token is
followed, whatever the page contains.  It is independent of the code: the code stops
earlier when a page is empty.

## 3.  Where the code stops

`paginateLoop_reached` and `exists_paginateLoop_eq` say where.  The code takes an
empty page for the end of the range, so what it returns is complete exactly when no
message event was left behind the empty pages of the walk: `backfill_complete_iff`.
-/

namespace FederatedMessaging
namespace Matrix

open PythonText

/-! ## 1.  Pages of a timeline -/

/-- A room's history, oldest event first. -/
structure Timeline where
  events : List RawEvent
  nodup_ids : (events.map RawEvent.eventId).Nodup

/-- The events at positions `lo` and up, below `hi`. -/
def Timeline.between (tl : Timeline) (lo hi : ℕ) : List RawEvent := (tl.events.take hi).drop lo

variable {tl : Timeline} {pos : Token → ℕ}

theorem between_eq_nil {lo hi : ℕ} (h : hi ≤ lo) : tl.between lo hi = [] :=
  List.drop_eq_nil_of_le ((List.length_take_le hi _).trans h)

theorem between_append {lo cut hi : ℕ} (hlo : lo ≤ cut) (hhi : cut ≤ hi) :
    tl.between lo cut ++ tl.between cut hi = tl.between lo hi := by
  have hcut : tl.events.take cut = (tl.events.take hi).take cut := by
    rw [List.take_take, min_eq_left hhi]
  have hdrop : (tl.events.take hi).drop cut =
      ((tl.events.take hi).drop lo).drop (cut - lo) := by
    rw [List.drop_drop, Nat.add_sub_cancel' hlo]
  rw [Timeline.between, Timeline.between, Timeline.between, hcut, List.drop_take, hdrop]
  exact List.take_append_drop _ _

theorem between_nodup_ids (tl : Timeline) (lo hi : ℕ) :
    ((tl.between lo hi).map RawEvent.eventId).Nodup :=
  tl.nodup_ids.sublist (((List.drop_sublist _ _).trans (List.take_sublist _ _)).map _)

theorem mem_between_of_le {lo hi hi' : ℕ} (h : hi ≤ hi') {e : RawEvent}
    (he : e ∈ tl.between lo hi) : e ∈ tl.between lo hi' := by
  rcases le_total lo hi with hlo | hlo
  · rw [← between_append hlo h]
    exact List.mem_append_left _ he
  · rw [between_eq_nil hlo] at he
    exact absurd he List.not_mem_nil

/-- The position a range stops at: that of `to`, or the room's beginning. -/
def boundary (pos : Token → ℕ) (toToken : Option Token) : ℕ :=
  (truthy toToken).elim 0 pos

/-- **The law of a page.**  It covers the range from some cut up to `from`, newest
event first; the range is exhausted unless the page carries a token, which then
stands at the cut. -/
def IsPage (tl : Timeline) (pos : Token → ℕ) (query : PageQuery) (page : Page) : Prop :=
  ∃ cut, min (boundary pos query.toToken) (pos query.start) ≤ cut ∧ cut ≤ pos query.start ∧
    page.chunk = (tl.between cut (pos query.start)).reverse ∧
    match truthy page.endToken with
    | none => cut = min (boundary pos query.toToken) (pos query.start)
    | some token => cut = pos token

variable {ε : Type*} {request : ℕ → PageQuery → Except ε Page} {roomId : Text}
  {toToken : Option Token} {pageLimit : ℕ}

/-- Every history request about the room is answered by a page of the timeline, or
raises. -/
def Serves (tl : Timeline) (pos : Token → ℕ) (roomId : Text)
    (request : ℕ → PageQuery → Except ε Page) : Prop :=
  ∀ n query page, query.roomId = roomId → request n query = .ok page → IsPage tl pos query page

/-! ## 2.  The walk -/

section Walk

variable (request roomId toToken pageLimit)

/-- The answer to request `n`, made from `token`. -/
def answer (n : ℕ) (token : Token) : Except ε Page :=
  request n ⟨roomId, pageLimit, token, truthy toToken⟩

/-- The token request `n` is made from, when every `end` token short of `to` is
followed. -/
def visited (start : Token) : ℕ → Option Token
  | 0 => some start
  | n + 1 => do
    let token ← visited start n
    let page ← (answer request roomId toToken pageLimit n token).toOption
    let next ← truthy page.endToken
    if truthy toToken = some next then none else some next

/-- Request `n` of the walk brings an empty page that carries a token at `cut`. -/
def EmptyPageAt (start : Token) (n cut : ℕ) (pos : Token → ℕ) : Prop :=
  ∃ token page next, visited request roomId toToken pageLimit start n = some token ∧
    answer request roomId toToken pageLimit n token = .ok page ∧ page.chunk = [] ∧
    truthy page.endToken = some next ∧ pos next = cut

end Walk

theorem truthy_truthy (t : Option Token) : truthy (truthy t) = truthy t := by
  rcases t with _ | _ | ⟨c, s⟩ <;> rfl

theorem boundary_truthy (t : Option Token) : boundary pos (truthy t) = boundary pos t := by
  rw [boundary, truthy_truthy, boundary]

/-- One page of the walk, with the boundary spelled as the pagination passes it. -/
theorem isPage_answer (hserves : Serves tl pos roomId request) {n : ℕ} {token : Token}
    {page : Page} (h : answer request roomId toToken pageLimit n token = .ok page) :
    ∃ cut, min (boundary pos toToken) (pos token) ≤ cut ∧ cut ≤ pos token ∧
      page.chunk = (tl.between cut (pos token)).reverse ∧
      match truthy page.endToken with
      | none => cut = min (boundary pos toToken) (pos token)
      | some token => cut = pos token := by
  have hpage := hserves n _ page rfl h
  rwa [IsPage, boundary_truthy] at hpage

theorem visited_zero {start : Token} :
    visited request roomId toToken pageLimit start 0 = some start := rfl

theorem visited_succ {start next : Token} {n : ℕ}
    (h : visited request roomId toToken pageLimit start (n + 1) = some next) :
    ∃ token page, visited request roomId toToken pageLimit start n = some token ∧
      answer request roomId toToken pageLimit n token = .ok page ∧
      truthy page.endToken = some next ∧ truthy toToken ≠ some next := by
  rw [visited] at h
  obtain ⟨token, htoken, h⟩ := Option.bind_eq_some_iff.mp h
  obtain ⟨page, hpage, h⟩ := Option.bind_eq_some_iff.mp h
  obtain ⟨next', hnext, h⟩ := Option.bind_eq_some_iff.mp h
  have hanswer : answer request roomId toToken pageLimit n token = .ok page := by
    cases hr : answer request roomId toToken pageLimit n token with
    | error e =>
      rw [hr] at hpage
      cases hpage
    | ok page' =>
      rw [hr] at hpage
      rw [Option.some_inj.mp hpage]
  split at h
  · cases h
  · rename_i hne
    obtain rfl := Option.some_inj.mp h
    exact ⟨token, page, htoken, hanswer, hnext, hne⟩

theorem visited_succ_eq {start token next : Token} {page : Page} {n : ℕ}
    (htoken : visited request roomId toToken pageLimit start n = some token)
    (hanswer : answer request roomId toToken pageLimit n token = .ok page)
    (hnext : truthy page.endToken = some next) (hne : truthy toToken ≠ some next) :
    visited request roomId toToken pageLimit start (n + 1) = some next := by
  simp [visited, htoken, hanswer, Except.toOption, hnext, hne]

/-- The walk goes backwards, and so does the token a page carries. -/
theorem pos_end_le (hserves : Serves tl pos roomId request) {n : ℕ} {token next : Token}
    {page : Page} (hanswer : answer request roomId toToken pageLimit n token = .ok page)
    (hnext : truthy page.endToken = some next) : pos next ≤ pos token := by
  obtain ⟨cut, -, hle, -, hend⟩ := isPage_answer hserves hanswer
  rw [hnext] at hend
  exact hend ▸ hle

theorem pos_visited_le (hserves : Serves tl pos roomId request) {start token token' : Token}
    {m n : ℕ} (hm : visited request roomId toToken pageLimit start m = some token)
    (hn : visited request roomId toToken pageLimit start (m + n) = some token') :
    pos token' ≤ pos token := by
  induction n generalizing token' with
  | zero => rw [Option.some_inj.mp (hm.symm.trans hn)]
  | succ n ih =>
    obtain ⟨before, page, hbefore, hanswer, hnext, -⟩ := visited_succ hn
    exact (pos_end_le hserves hanswer hnext).trans (ih hbefore)

/-- A walk that goes on past request `n` got an answer there, with a token. -/
theorem exists_answer_of_visited {start token last : Token} {n k : ℕ}
    (hn : visited request roomId toToken pageLimit start n = some token)
    (hlast : visited request roomId toToken pageLimit start (n + (k + 1)) = some last) :
    ∃ page next, answer request roomId toToken pageLimit n token = .ok page ∧
      truthy page.endToken = some next ∧ truthy toToken ≠ some next ∧
      visited request roomId toToken pageLimit start (n + 1) = some next := by
  induction k generalizing last with
  | zero =>
    obtain ⟨token', page, htoken', hanswer, hnext, hne⟩ := visited_succ hlast
    obtain rfl := Option.some_inj.mp (hn.symm.trans htoken')
    exact ⟨page, last, hanswer, hnext, hne, hlast⟩
  | succ k ih =>
    obtain ⟨before, -, hbefore, -⟩ := visited_succ hlast
    exact ih hbefore

/-! ## 3.  Where the code stops -/

/-- The stretch a page adds to what was collected down to its `from`. -/
theorem append_between_reverse {events : List RawEvent} {hi cut cut' : ℕ} (h : cut' ≤ cut)
    (hle : cut ≤ hi) :
    events ++ (tl.between cut hi).reverse ++ (tl.between cut' cut).reverse =
      events ++ (tl.between cut' hi).reverse := by
  rw [List.append_assoc, ← List.reverse_append, between_append h hle]

/-- **What a pagination that stops has collected**: the range down to a cut, which is
the boundary or the token of an empty page. -/
theorem paginateLoop_reached (hserves : Serves tl pos roomId request) {start : Token}
    {left pages n : ℕ} {token : Token} {events out : List RawEvent}
    (hvisited : visited request roomId toToken pageLimit start pages = some token)
    (h : paginateLoop request roomId toToken pageLimit left token events pages =
      .ok (out, n, true)) :
    ∃ cut, min (boundary pos toToken) (pos token) ≤ cut ∧ cut ≤ pos token ∧
      out = events ++ (tl.between cut (pos token)).reverse ∧
      (cut = min (boundary pos toToken) (pos token) ∨
        ∃ m < pages + left, EmptyPageAt request roomId toToken pageLimit start m cut pos) := by
  induction left generalizing pages token events with
  | zero => simp [paginateLoop] at h
  | succ left ih =>
    rw [paginateLoop] at h
    cases hanswer : request pages ⟨roomId, pageLimit, token, truthy toToken⟩ with
    | error e =>
      rw [hanswer] at h
      cases h
    | ok page =>
      rw [hanswer] at h
      dsimp only at h
      obtain ⟨cut, hlo, hhi, hchunk, hend⟩ := isPage_answer hserves hanswer
      split at h
      · rename_i hempty
        obtain ⟨rfl, -⟩ := Prod.mk.inj (Except.ok.inj h)
        refine ⟨cut, hlo, hhi, by rw [hchunk], ?_⟩
        cases hnext : truthy page.endToken with
        | none =>
          rw [hnext] at hend
          exact Or.inl hend
        | some next =>
          rw [hnext] at hend
          exact Or.inr ⟨pages, by omega, token, page, next, hvisited, hanswer,
            List.isEmpty_iff.mp hempty, hnext, hend.symm⟩
      · cases hnext : truthy page.endToken with
        | none =>
          rw [hnext] at h hend
          obtain ⟨rfl, -⟩ := Prod.mk.inj (Except.ok.inj h)
          exact ⟨cut, hlo, hhi, by rw [hchunk], Or.inl hend⟩
        | some next =>
          rw [hnext] at h hend
          dsimp only at h hend
          split at h
          · -- the token is the boundary itself
            rename_i hto
            obtain ⟨rfl, -⟩ := Prod.mk.inj (Except.ok.inj h)
            have hboundary : boundary pos toToken = pos next := by
              rw [boundary, hto]
              rfl
            exact ⟨cut, hlo, hhi, by rw [hchunk], Or.inl (by omega)⟩
          · rename_i hne
            obtain ⟨cut', hlo', hhi', hout, hwhy⟩ :=
              ih (visited_succ_eq hvisited hanswer hnext hne) h
            subst hend
            have hmin : min (boundary pos toToken) (pos next) =
                min (boundary pos toToken) (pos token) :=
              le_antisymm (min_le_min_left _ hhi) (le_min (min_le_left _ _) hlo)
            rw [hmin] at hlo' hwhy
            refine ⟨cut', hlo', hhi'.trans hhi, ?_, ?_⟩
            · rw [hout, hchunk, append_between_reverse hhi' hhi]
            · rcases hwhy with hwhy | ⟨m, hm, hempty⟩
              · exact Or.inl hwhy
              · exact Or.inr ⟨m, by rw [Nat.add_right_comm] at hm; exact hm, hempty⟩

/-- **The pagination stops no later than the first empty page**: what it returns ends
at or above the token of any empty page of the walk. -/
theorem exists_paginateLoop_eq (hserves : Serves tl pos roomId request) {start : Token}
    {left pages k cut : ℕ} {token : Token} (events : List RawEvent)
    (hvisited : visited request roomId toToken pageLimit start pages = some token)
    (hk : k < left)
    (hempty : EmptyPageAt request roomId toToken pageLimit start (pages + k) cut pos) :
    ∃ out n cut', paginateLoop request roomId toToken pageLimit left token events pages =
        .ok (out, n, true) ∧ cut ≤ cut' ∧ min (boundary pos toToken) (pos token) ≤ cut' ∧
      cut' ≤ pos token ∧
      out = events ++ (tl.between cut' (pos token)).reverse := by
  induction left generalizing pages token events k with
  | zero => omega
  | succ left ih =>
    obtain ⟨token', page', next', htoken', hanswer', hchunk', hnext', rfl⟩ := hempty
    cases k with
    | zero =>
      obtain rfl := Option.some_inj.mp (hvisited.symm.trans htoken')
      obtain ⟨c, hlo, hhi, hchunk, hend⟩ := isPage_answer hserves hanswer'
      rw [hnext'] at hend
      dsimp only at hend
      subst hend
      refine ⟨events ++ page'.chunk, pages + 1, pos next', ?_, le_rfl, hlo, hhi, by
        rw [hchunk]⟩
      · unfold answer at hanswer'
        rw [paginateLoop, ← Nat.add_zero pages, hanswer']
        simp [hchunk']
    | succ k =>
      obtain ⟨page, next, hanswer, hnext, hne, hsucc⟩ :=
        exists_answer_of_visited hvisited htoken'
      have hbelow : pos next' ≤ pos next :=
        (pos_end_le hserves hanswer' hnext').trans
          (pos_visited_le hserves (n := k) hsucc (by rwa [Nat.add_right_comm]))
      obtain ⟨c, hlo, hhi, hchunk, hend⟩ := isPage_answer hserves hanswer
      rw [hnext] at hend
      dsimp only at hend
      subst hend
      have hstep : paginateLoop request roomId toToken pageLimit (left + 1) token events pages =
          if page.chunk.isEmpty then .ok (events ++ page.chunk, pages + 1, true)
          else paginateLoop request roomId toToken pageLimit left next (events ++ page.chunk)
            (pages + 1) := by
        unfold answer at hanswer
        rw [paginateLoop, hanswer]
        simp [hnext, hne]
      rw [hstep]
      split
      · exact ⟨_, _, pos next, rfl, hbelow, hlo, hhi, by rw [hchunk]⟩
      · obtain ⟨out, n, cut', hloop, hcut, hlo', hhi', hout⟩ :=
          ih (k := k) (events ++ page.chunk) hsucc (Nat.lt_of_succ_lt_succ hk)
          ⟨token', page', next', by rwa [Nat.add_right_comm], by
            rwa [Nat.add_right_comm pages 1 k], hchunk', hnext', rfl⟩
        have hmin := (le_min (min_le_left _ _) hlo).trans hlo'
        exact ⟨out, n, cut', hloop, hcut, hmin, hhi'.trans hhi, by
          rw [hout, hchunk, append_between_reverse hhi' hhi]⟩

/-! ## 4.  Completeness -/

/-- `returned` is `own` together with `missed`, each id once. -/
structure Complete (own missed returned : List TimelineEvent) : Prop where
  nodup : (returned.map TimelineEvent.eventId).Nodup
  sound : ∀ e ∈ returned, e ∈ own ∨ e ∈ missed
  total : ∀ e, e ∈ own ∨ e ∈ missed → e.eventId ∈ returned.map TimelineEvent.eventId

/-- The messages of the room between two tokens. -/
def missedBetween (tl : Timeline) (pos : Token → ℕ) (roomId : Text) (toToken : Option Token)
    (start : Token) : List TimelineEvent :=
  messagesOf roomId (tl.between (boundary pos toToken) (pos start))

/-- Behind every empty page met in the first `maxPages` requests of the walk, the only
messages of the range are some with the `known` ids. -/
def NothingBehindEmptyPages (tl : Timeline) (pos : Token → ℕ)
    (request : ℕ → PageQuery → Except ε Page) (roomId : Text) (toToken : Option Token)
    (pageLimit maxPages : ℕ) (start : Token) (known : List Text) : Prop :=
  ∀ n < maxPages, ∀ cut, EmptyPageAt request roomId toToken pageLimit start n cut pos →
    ∀ e ∈ messagesOf roomId (tl.between (boundary pos toToken) cut), e.eventId ∈ known

theorem eventId_of_fromRawEvent {raw : RawEvent} {e : TimelineEvent}
    (h : fromRawEvent roomId raw = some e) : e.eventId = raw.eventId := by
  unfold fromRawEvent at h
  split at h
  · cases h
  · split at h
    · cases h
    · rw [← Option.some_inj.mp h]

theorem exists_raw_of_mem_messagesOf {raws : List RawEvent} {e : TimelineEvent}
    (h : e ∈ messagesOf roomId raws) : ∃ raw ∈ raws, e.eventId = raw.eventId := by
  obtain ⟨raw, hraw, hmsg⟩ := List.mem_filterMap.mp h
  exact ⟨raw, hraw, eventId_of_fromRawEvent hmsg⟩

theorem messagesOf_nodup {raws : List RawEvent} (h : (raws.map RawEvent.eventId).Nodup) :
    ((messagesOf roomId raws).map TimelineEvent.eventId).Nodup := by
  induction raws with
  | nil => exact List.nodup_nil
  | cons raw raws ih =>
    rw [List.map_cons, List.nodup_cons] at h
    rw [messagesOf, List.filterMap_cons]
    cases hraw : fromRawEvent roomId raw with
    | none => exact ih h.2
    | some e =>
      rw [List.map_cons, List.nodup_cons]
      refine ⟨fun hmem => ?_, ih h.2⟩
      obtain ⟨e', he', hid⟩ := List.mem_map.mp hmem
      obtain ⟨raw', hraw', hid'⟩ := exists_raw_of_mem_messagesOf he'
      rw [eventId_of_fromRawEvent hraw] at hid
      exact h.1 (List.mem_map.mpr ⟨raw', hraw', by rw [← hid', hid]⟩)

theorem mem_messagesOf_reverse {raws : List RawEvent} {e : TimelineEvent} :
    e ∈ messagesOf roomId raws.reverse ↔ e ∈ messagesOf roomId raws := by
  simp [messagesOf]

/-- A message below a cut is not one above it. -/
theorem eventId_notMem_of_below {lo cut hi : ℕ} (hlo : lo ≤ cut) (hhi : cut ≤ hi)
    {e : TimelineEvent} (he : e ∈ messagesOf roomId (tl.between lo cut)) :
    e.eventId ∉ (messagesOf roomId (tl.between cut hi)).map TimelineEvent.eventId := by
  intro hmem
  obtain ⟨e', he', hid⟩ := List.mem_map.mp hmem
  obtain ⟨raw, hraw, hraw'⟩ := exists_raw_of_mem_messagesOf he
  obtain ⟨raw', hraw'', hid'⟩ := exists_raw_of_mem_messagesOf he'
  have hnodup := between_nodup_ids tl lo hi
  rw [← between_append hlo hhi, List.map_append, List.nodup_append] at hnodup
  exact hnodup.2.2 _ (List.mem_map_of_mem hraw) _ (List.mem_map_of_mem hraw'')
    (by rw [← hraw', ← hid', hid])

/-- **What was collected is complete exactly when nothing new is below the cut.**  The
returned events are those of the slice and those the pages brought. -/
theorem complete_iff_of_cut {own returned : List TimelineEvent} {lo cut hi : ℕ}
    (hcut : min lo hi ≤ cut) (hhi : cut ≤ hi)
    (hnodup : (returned.map TimelineEvent.eventId).Nodup)
    (hsound : ∀ e ∈ returned, e ∈ own ∨ e ∈ messagesOf roomId (tl.between cut hi))
    (hids : ∀ x, x ∈ returned.map TimelineEvent.eventId ↔
      x ∈ own.map TimelineEvent.eventId ∨
        x ∈ (messagesOf roomId (tl.between cut hi)).map TimelineEvent.eventId) :
    Complete own (messagesOf roomId (tl.between lo hi)) returned ↔
      ∀ e ∈ messagesOf roomId (tl.between lo cut), e.eventId ∈ own.map TimelineEvent.eventId := by
  rcases le_total cut lo with hle | hle
  · -- the cut is at or below the boundary: nothing of the range is missing
    have hbelow : tl.between lo cut = [] := between_eq_nil hle
    have hsame : tl.between cut hi = tl.between lo hi := by
      rcases le_total lo hi with hlh | hlh
      · rw [min_eq_left hlh] at hcut
        rw [le_antisymm hle hcut]
      · rw [between_eq_nil hlh, between_eq_nil (by omega)]
    rw [hsame] at hsound hids
    simp only [hbelow, messagesOf, List.filterMap_nil, List.not_mem_nil, false_imp_iff,
      implies_true, iff_true]
    exact ⟨hnodup, hsound, fun e he => (hids _).mpr
      (he.imp (List.mem_map_of_mem ·) (List.mem_map_of_mem ·))⟩
  · have hsplit : messagesOf roomId (tl.between lo hi) =
        messagesOf roomId (tl.between lo cut) ++ messagesOf roomId (tl.between cut hi) := by
      rw [← messagesOf_append, between_append hle hhi]
    constructor
    · intro hcomplete e he
      have htotal := hcomplete.total e (Or.inr (hsplit ▸ List.mem_append_left _ he))
      exact ((hids _).mp htotal).resolve_right (eventId_notMem_of_below hle hhi he)
    · intro hknown
      refine ⟨hnodup, fun e he => ?_, fun e he => (hids _).mpr ?_⟩
      · exact (hsound e he).imp_right fun h => hsplit ▸ List.mem_append_right _ h
      · rcases he with he | he
        · exact Or.inl (List.mem_map_of_mem he)
        · rw [hsplit, List.mem_append] at he
          exact he.imp (hknown e) (List.mem_map_of_mem ·)

/-- What `paginate_backwards` returns, with the cut it stopped at. -/
theorem cut_of_paginateBackwards (hserves : Serves tl pos roomId request) {start : Token}
    {maxPages n : ℕ} {raws : List RawEvent}
    (h : paginateBackwards request roomId start toToken pageLimit maxPages = .ok (raws, n)) :
    ∃ cut, min (boundary pos toToken) (pos start) ≤ cut ∧ cut ≤ pos start ∧
      raws = (tl.between cut (pos start)).reverse ∧
      (cut = min (boundary pos toToken) (pos start) ∨
        ∃ m < maxPages, EmptyPageAt request roomId toToken pageLimit start m cut pos) := by
  unfold paginateBackwards at h
  cases hloop : paginateLoop request roomId toToken pageLimit maxPages start [] 0 with
  | error e =>
    rw [hloop] at h
    cases h
  | ok result =>
    obtain ⟨events, pages, reached⟩ := result
    rw [hloop] at h
    cases reached with
    | false => cases h
    | true =>
      obtain ⟨rfl, -⟩ := Prod.mk.inj (Except.ok.inj h)
      obtain ⟨cut, hlo, hhi, hout, hwhy⟩ := paginateLoop_reached hserves visited_zero hloop
      rw [Nat.zero_add] at hwhy
      exact ⟨cut, hlo, hhi, by rw [hout, List.nil_append], hwhy⟩

/-- **A pagination is complete exactly when nothing is left behind an empty page.**
`returned` is what the caller makes of the raw events, together with its own. -/
theorem complete_iff_nothingBehind (hserves : Serves tl pos roomId request) {start : Token}
    {maxPages : ℕ} (own : List TimelineEvent) (returned : List RawEvent → List TimelineEvent)
    (hnodup : ∀ cut, ((returned (tl.between cut (pos start)).reverse).map
      TimelineEvent.eventId).Nodup)
    (hsound : ∀ raws, ∀ e ∈ returned raws, e ∈ own ∨ e ∈ messagesOf roomId raws)
    (hids : ∀ raws x, x ∈ (returned raws).map TimelineEvent.eventId ↔
      x ∈ own.map TimelineEvent.eventId ∨
        x ∈ (messagesOf roomId raws).map TimelineEvent.eventId) :
    (∀ raws n, paginateBackwards request roomId start toToken pageLimit maxPages = .ok (raws, n) →
        Complete own (missedBetween tl pos roomId toToken start) (returned raws)) ↔
      NothingBehindEmptyPages tl pos request roomId toToken pageLimit maxPages start
        (own.map TimelineEvent.eventId) := by
  have hcut : ∀ cut, min (boundary pos toToken) (pos start) ≤ cut → cut ≤ pos start →
      (Complete own (missedBetween tl pos roomId toToken start)
          (returned (tl.between cut (pos start)).reverse) ↔
        ∀ e ∈ messagesOf roomId (tl.between (boundary pos toToken) cut),
          e.eventId ∈ own.map TimelineEvent.eventId) := by
    intro cut hlo hhi
    refine complete_iff_of_cut hlo hhi (hnodup cut) (fun e he => ?_) fun x => ?_
    · exact (hsound _ e he).imp_right mem_messagesOf_reverse.mp
    · rw [hids]
      refine or_congr_right ?_
      simp only [List.mem_map, mem_messagesOf_reverse]
  constructor
  · intro hcomplete n hn cut hempty e he
    obtain ⟨out, pages, cut', hloop, hle, hlo, hhi, hout⟩ :=
      exists_paginateLoop_eq hserves [] visited_zero hn ((Nat.zero_add n).symm ▸ hempty)
    have hok : paginateBackwards request roomId start toToken pageLimit maxPages =
        .ok (out, pages) := by
      rw [paginateBackwards, hloop]
      rfl
    have hdone := hcomplete out pages hok
    rw [hout, List.nil_append] at hdone
    refine (hcut cut' hlo hhi).mp hdone e ?_
    obtain ⟨raw, hraw, hmsg⟩ := List.mem_filterMap.mp he
    exact List.mem_filterMap.mpr ⟨raw, mem_between_of_le hle hraw, hmsg⟩
  · intro hnothing raws n h
    obtain ⟨cut, hlo, hhi, rfl, hwhy⟩ := cut_of_paginateBackwards hserves h
    refine (hcut cut hlo hhi).mpr ?_
    rcases hwhy with rfl | ⟨m, hm, hempty⟩
    · intro e he
      rw [between_eq_nil (min_le_left _ _)] at he
      exact absurd he List.not_mem_nil
    · exact hnothing m hm cut hempty

/-- The result of `paginate_backwards` has all messages between the two tokens, and
each once. -/
def PaginationComplete (tl : Timeline) (pos : Token → ℕ)
    (request : ℕ → PageQuery → Except ε Page) (roomId : Text) (toToken : Option Token)
    (pageLimit maxPages : ℕ) (start : Token) : Prop :=
  ∀ raws n, paginateBackwards request roomId start toToken pageLimit maxPages = .ok (raws, n) →
    Complete [] (missedBetween tl pos roomId toToken start) (messagesOf roomId raws)

/-- The result of `reconcile_slice` has all messages between the two tokens and the
slice's own events, and each once. -/
def ReconciliationComplete (tl : Timeline) (pos : Token → ℕ)
    (request : ℕ → PageQuery → Except ε Page) (counter : ℕ) (item : RoomSyncSlice)
    (since : Option Token) (trigger : RecoveryTrigger) (start : Token) : Prop :=
  ∀ events episode, (reconcileSlice request counter item since trigger).2 =
      .ok (events, episode) →
    Complete item.events (missedBetween tl pos item.roomId since start) events

theorem paginationComplete_iff (hserves : Serves tl pos roomId request) (start : Token)
    (maxPages : ℕ) :
    PaginationComplete tl pos request roomId toToken pageLimit maxPages start ↔
      NothingBehindEmptyPages tl pos request roomId toToken pageLimit maxPages start [] := by
  refine complete_iff_nothingBehind hserves [] (messagesOf roomId) (fun cut => ?_)
    (fun raws e he => Or.inr he) fun raws x => by simp
  refine messagesOf_nodup ?_
  rw [List.map_reverse, List.nodup_reverse]
  exact between_nodup_ids tl cut (pos start)

/-- What `reconcile_slice` makes of raw events and a slice's own. -/
def reconciled (item : RoomSyncSlice) (raws : List RawEvent) : List TimelineEvent :=
  ((OrderedDict.empty.fileAll TimelineEvent.eventId item.events).fileAll
    TimelineEvent.eventId (messagesOf item.roomId raws)).values

theorem filedBy_reconciled (item : RoomSyncSlice) (raws : List RawEvent) :
    OrderedDict.FiledBy TimelineEvent.eventId
      ((OrderedDict.empty.fileAll TimelineEvent.eventId item.events).fileAll
        TimelineEvent.eventId (messagesOf item.roomId raws)) :=
  (OrderedDict.filedBy_empty.fileAll _).fileAll _

theorem mem_of_mem_reconciled {item : RoomSyncSlice} {raws : List RawEvent} {e : TimelineEvent}
    (h : e ∈ reconciled item raws) : e ∈ item.events ∨ e ∈ messagesOf item.roomId raws := by
  rcases OrderedDict.mem_values_of_mem_fileAll h with h | h
  · rcases OrderedDict.mem_values_of_mem_fileAll h with h | h
    · exact absurd h List.not_mem_nil
    · exact Or.inl h
  · exact Or.inr h

theorem mem_ids_reconciled {item : RoomSyncSlice} {raws : List RawEvent} {x : Text} :
    x ∈ (reconciled item raws).map TimelineEvent.eventId ↔
      x ∈ item.events.map TimelineEvent.eventId ∨
        x ∈ (messagesOf item.roomId raws).map TimelineEvent.eventId := by
  rw [reconciled, ← filedBy_reconciled item raws, OrderedDict.mem_keys_fileAll,
    OrderedDict.mem_keys_fileAll]
  simp

theorem reconciliationComplete_iff {item : RoomSyncSlice} {since : Option Token}
    (hserves : Serves tl pos item.roomId request) {counter : ℕ} {trigger : RecoveryTrigger}
    {start : Token} (hlimited : item.limited = true)
    (hstart : truthy item.prevBatch = some start) :
    ReconciliationComplete tl pos request counter item since trigger start ↔
      NothingBehindEmptyPages tl pos request item.roomId since defaultPageLimit
        defaultMaxPages start (item.events.map TimelineEvent.eventId) := by
  rw [← complete_iff_nothingBehind hserves item.events (reconciled item)
    (fun cut => (filedBy_reconciled item _).nodup_values) (fun raws e he =>
      mem_of_mem_reconciled he) fun raws x => mem_ids_reconciled]
  constructor
  · intro h raws n hpages
    obtain ⟨episode, heq⟩ :=
      reconcileSlice_eq counter trigger hlimited hstart hpages
    exact h _ episode heq
  · intro h events episode hok
    cases hpages : paginateBackwards request item.roomId start since defaultPageLimit
        defaultMaxPages with
    | error e =>
      unfold reconcileSlice at hok
      rw [hlimited, hstart] at hok
      simp only [hpages] at hok
      cases hok
    | ok result =>
      obtain ⟨raws, n⟩ := result
      obtain ⟨episode', heq⟩ := reconcileSlice_eq counter trigger hlimited hstart
        hpages
      rw [heq] at hok
      rw [← (Prod.mk.inj (Except.ok.inj hok)).1]
      exact h raws n hpages

/-- **Exactly when a backfill is complete or raises.**  For every timeline, every
homeserver that serves its pages, every boundary and every page bound: whenever the
pagination returns, it returns every message between the tokens once, if and only if
behind the empty pages of the walk no message of the range is left.  The same holds
of the reconciliation of a limited slice, with the slice's own events added and its
page bound. -/
theorem backfill_complete_iff {item : RoomSyncSlice} {since : Option Token}
    (hserves : Serves tl pos item.roomId request) (hlimited : item.limited = true)
    {start : Token} (hstart : truthy item.prevBatch = some start) :
    (∀ pageLimit maxPages,
      (PaginationComplete tl pos request item.roomId since pageLimit maxPages start ↔
        NothingBehindEmptyPages tl pos request item.roomId since pageLimit maxPages start [])) ∧
    ∀ counter trigger,
      (ReconciliationComplete tl pos request counter item since trigger start ↔
        NothingBehindEmptyPages tl pos request item.roomId since defaultPageLimit
          defaultMaxPages start (item.events.map TimelineEvent.eventId)) :=
  ⟨fun _ maxPages => paginationComplete_iff hserves start maxPages,
    fun _ _ => reconciliationComplete_iff hserves hlimited hstart⟩

/-! ## 5.  One missed request -/

/-- A message of the room. -/
def message (id body : Text) : RawEvent :=
  ⟨some messageEventType, none, id, some ['@', 'h'], some body, some 0⟩

/-- Three messages. -/
def threeMessages : Timeline :=
  ⟨[message ['$', '0'] ['a'], message ['$', '1'] ['b'], message ['$', '2'] ['c']], by decide⟩

/-- Tokens `p` and `q` stand before the last message, any other at the beginning. -/
def threePos (token : Token) : ℕ :=
  if token = ['p'] ∨ token = ['q'] then 2 else 0

/-- The slice a limited sync delivered: the last message, and `p` for what is before. -/
def lastSlice : RoomSyncSlice :=
  ⟨['!', 'r'], [⟨['!', 'r'], ['$', '2'], ['@', 'h'], ['c'], 0⟩], true, some ['p'], 1⟩

/-- A homeserver that fills each range in one page. -/
def onePage (tl : Timeline) (pos : Token → ℕ) (_ : ℕ) (query : PageQuery) :
    Except Unit Page :=
  .ok ⟨(tl.between (boundary pos query.toToken) (pos query.start)).reverse, none⟩

/-- The same homeserver, except that its first page is empty and leads to `q`. -/
def emptyFirst (n : ℕ) (query : PageQuery) : Except Unit Page :=
  if n = 0 ∧ query.start = ['p'] then .ok ⟨[], some ['q']⟩
  else onePage threeMessages threePos n query

theorem between_min (lo hi : ℕ) : tl.between (min lo hi) hi = tl.between lo hi := by
  rcases le_total lo hi with h | h
  · rw [min_eq_left h]
  · rw [min_eq_right h, between_eq_nil le_rfl, between_eq_nil h]

theorem serves_onePage : Serves tl pos roomId (onePage tl pos) := by
  intro n query page _ h
  rw [← Except.ok.inj h]
  exact ⟨_, le_rfl, min_le_right _ _, by rw [between_min], rfl⟩

theorem serves_emptyFirst : Serves threeMessages threePos roomId emptyFirst := by
  intro n query page hroom h
  unfold emptyFirst at h
  split at h
  · rename_i hfirst
    rw [← Except.ok.inj h, IsPage, hfirst.2]
    exact ⟨2, min_le_right _ _, le_rfl, rfl, rfl⟩
  · exact serves_onePage n query page hroom h

/-- **A limited slice reconciled without its gap.**  The homeserver serves the timeline;
its first page is empty and carries a token; both functions return normally, and the
two messages between the tokens are not among what they return. -/
theorem lastSlice_incomplete :
    Serves threeMessages threePos lastSlice.roomId emptyFirst ∧
    ¬ ReconciliationComplete threeMessages threePos emptyFirst 0 lastSlice (some ['s'])
      .liveSync ['p'] ∧
    ¬ PaginationComplete threeMessages threePos emptyFirst lastSlice.roomId (some ['s']) 100 50
      ['p'] := by
  refine ⟨serves_emptyFirst, fun h => ?_, fun h => ?_⟩
  · have htotal := (h lastSlice.events _ rfl).total
      ⟨['!', 'r'], ['$', '0'], ['@', 'h'], ['a'], 0⟩ (Or.inr (by decide))
    exact absurd htotal (by decide)
  · have htotal := (h [] 1 rfl).total
      ⟨['!', 'r'], ['$', '0'], ['@', 'h'], ['a'], 0⟩ (Or.inr (by decide))
    exact absurd htotal (by decide)

/-- The exact condition at that slice. -/
theorem lastSlice_complete_iff :
    (∀ pageLimit maxPages,
      (PaginationComplete threeMessages threePos emptyFirst lastSlice.roomId (some ['s'])
          pageLimit maxPages ['p'] ↔
        NothingBehindEmptyPages threeMessages threePos emptyFirst lastSlice.roomId (some ['s'])
          pageLimit maxPages ['p'] [])) ∧
    ∀ counter trigger,
      (ReconciliationComplete threeMessages threePos emptyFirst counter lastSlice (some ['s'])
          trigger ['p'] ↔
        NothingBehindEmptyPages threeMessages threePos emptyFirst lastSlice.roomId (some ['s'])
          defaultPageLimit defaultMaxPages ['p'] (lastSlice.events.map TimelineEvent.eventId)) :=
  backfill_complete_iff serves_emptyFirst rfl rfl

end Matrix
end FederatedMessaging
