import FederatedMessaging.Agent.Protocol
import FederatedMessaging.Common.MessageRoundTrip
import FederatedMessaging.Participants.Human

/-!
# The deterministic executor, and the way back to the sender

`fam.executors.deterministic` answers a REQUEST with the ACK of the same correlation.
Between the request as it arrives and the interaction it belongs to stand four pieces of
code that share nothing but the correlation triple: the tolerant parser, the builder,
the parser again on the other side, and the pending table of the participant.

## 1.  What a parsed correlation is worth

A constructor accepts a token with a newline after it; the parser never makes one.  What
it puts into a token was captured by a greedy repetition of the token class, so it is a
word of that class (`isToken_of_parse`), and what it read as a number it can write again.

## 2.  What the executor answers

An ACK needs four bytes less than the REQUEST of the same correlation, so wherever the
request could be padded to a size, so can the answer.  The correlation of the answer is
that of a message, not the one the sender used: only the key is common to both, and the
envelope is a function of the key (`envelope_eq_of_key_eq`).

## 3.  The lookup

The callback finds the call by the key the answer parses to.  A call stays under its key
until another call is made under the same one.
-/

namespace FederatedMessaging
namespace Executors

open Backtracking PythonText Message LabelledRuns
open FederatedMessaging.Matrix FederatedMessaging.Agent FederatedMessaging.Human

/-! ## The executor -/

/-- What the constructor raises: `only the frozen body size {E3_BODY_BYTES} is permitted`. -/
inductive ExecutorError where
  | bodySize (frozen : ℤ)
  deriving DecidableEq, Repr

/-- `DeterministicExecutor`, with what its constructor checked. -/
structure DeterministicExecutor where
  bodyBytes : Option ℤ
  permitted : bodyBytes = none ∨ bodyBytes = some e3BodyBytes

/-- The constructor. -/
def DeterministicExecutor.new (bodyBytes : Option ℤ) :
    Except ExecutorError DeterministicExecutor :=
  if h : bodyBytes = none ∨ bodyBytes = some e3BodyBytes then .ok ⟨bodyBytes, h⟩
  else .error (.bodySize e3BodyBytes)

/-- `DeterministicExecutor.decide`: a body, or silence. -/
def DeterministicExecutor.decide (x : DeterministicExecutor) (request : ExecutionRequest) :
    Except MessageError (Option Text) :=
  match request.message with
  | none => .ok none
  | some message =>
    if message.kind ≠ .request then .ok none
    else match buildAck message.correlation x.bodyBytes, x.bodyBytes with
      | .error e, _ => .error e
      | .ok body, none => .ok (some body)
      | .ok body, some size => (assertBodyLength body size).map fun _ => some body

/-! ## 1.  What a parsed correlation is worth -/

/-- The two token groups of the grammar hold words of the token class. -/
theorem captures_bodyRe :
    bodyRe.Captures fun g t => g = .experiment ∨ g = .run → IsToken t := by
  have hword : ∀ (g : BodyGroup) (P : Pattern Char BodyGroup), g ≠ .experiment → g ≠ .run →
      (P.Captures fun g t => g = .experiment ∨ g = .run → IsToken t) →
      (Pattern.group g P).Captures fun g t => g = .experiment ∨ g = .run → IsToken t :=
    fun g P hexperiment hrun hP => ⟨hP, fun _ _ _ h => (h.elim hexperiment hrun).elim⟩
  have htoken : ∀ g : BodyGroup, (Pattern.group g (Pattern.many1 isTokenChar)).Captures
      fun g t => g = .experiment ∨ g = .run → IsToken t := fun g =>
    captures_group_many1 fun t hne hall _ => ⟨hne, hall⟩
  refine ⟨hword .proto _ nofun nofun (captures_word _), captures_many1 _, ?_⟩
  refine ⟨hword .kind _ nofun nofun ⟨captures_word _, captures_word _⟩, captures_many1 _, ?_⟩
  refine ⟨htoken .experiment, captures_many1 _, htoken .run, captures_many1 _, ?_⟩
  refine ⟨hword .sequence _ nofun nofun (captures_many1 _), ?_, trivial⟩
  exact hword .padding _ nofun nofun ⟨captures_many1 _, trivial⟩

theorem ne_nil_of_matchesToken {v : Text} (h : matchesToken v = true) : v ≠ [] := by
  obtain ⟨u, nl, rfl, hne, -⟩ := matchesToken_iff.mp h
  exact List.append_ne_nil_of_left_ne_nil hne nl

/-- A correlation the parser can have made: clean tokens and a number that can be
written. -/
structure Clean (c : Correlation) : Prop where
  experiment : IsToken c.experiment
  runId : IsToken c.runId
  sequence : ∃ s, c.sequenceToken = .ok s

/-- **Whatever spelling was parsed, the correlation is clean.** -/
theorem clean_of_parse {body : Text} {m : ParsedMessage} (h : parse body = .ok (some m)) :
    Clean m.correlation := by
  unfold parse at h
  split at h
  · cases h
  rename_i found hfound
  split at h
  · cases h
  rename_i sequence hsequence
  split at h
  · cases h
  rename_i correlation hnew
  obtain rfl := Option.some_inj.mp (Except.ok.inj h)
  obtain ⟨hexperiment, hrun, hid⟩ := fields_of_new hnew
  have hgroup : ∀ g : BodyGroup, found.group g ≠ [] →
      (g = .experiment ∨ g = .run → IsToken (found.group g)) := fun g hne =>
    captures_group (R := fun g t => g = .experiment ∨ g = .run → IsToken t) captures_bodyRe
      hfound hne
  have he : found.group .experiment ≠ [] :=
    hexperiment ▸ ne_nil_of_matchesToken correlation.experiment_matches
  have hr : found.group .run ≠ [] := hrun ▸ ne_nil_of_matchesToken correlation.runId_matches
  obtain ⟨t, ht⟩ := exists_strOfNat_of_intOfText hsequence
  refine ⟨?_, ?_, zfill sequenceDigits t, ?_⟩
  · change IsToken correlation.experiment
    rw [hexperiment]
    exact hgroup .experiment he (Or.inl rfl)
  · change IsToken correlation.runId
    rw [hrun]
    exact hgroup .run hr (Or.inr rfl)
  · change correlation.sequenceToken = _
    rw [Correlation.sequenceToken, hid, Int.toNat_natCast, ht]
    rfl

/-! ## 2.  What the executor answers -/

/-- A body built from a clean correlation comes back under its key. -/
theorem Clean.parse_of_buildBody {c : Correlation} (hc : Clean c) {kind : Kind}
    {size : Option ℤ} {body : Text} (h : buildBody kind c size = .ok body) :
    ∃ m, parse body = .ok (some m) ∧ m.kind = kind ∧ m.correlation.key = c.key :=
  Message.parse_of_buildBody h (List.append_nil _).symm hc.experiment (Or.inl rfl)
    (List.append_nil _).symm hc.runId (Or.inl rfl)

theorem upper_upper (s : Text) : upper (upper s) = upper s := by
  simp [upper, List.map_map, Function.comp_def]

/-- **The envelope is a function of the key.** -/
theorem envelope_eq_of_key_eq {c c' : Correlation} (h : c.key = c'.key) (kind : Kind) :
    envelope kind c = envelope kind c' := by
  simp only [Correlation.key, Prod.mk.injEq] at h
  obtain ⟨hexperiment, hrun, hsequence⟩ := h
  simp only [envelope, Correlation.sequenceToken, hexperiment, hrun, hsequence]

theorem buildBody_eq_of_key_eq {c c' : Correlation} (h : c.key = c'.key) (kind : Kind)
    (size : Option ℤ) : buildBody kind c size = buildBody kind c' size := by
  rw [buildBody, buildBody, envelope_eq_of_key_eq h]

/-- The envelope of a correlation whose number can be written. -/
theorem envelope_eq {c : Correlation} {s : Text} (h : c.sequenceToken = .ok s) (kind : Kind) :
    envelope kind c = .ok (protocolToken ++ ' ' :: kind.keyword ++ ' ' :: upper c.experiment ++
      ' ' :: c.runId ++ ' ' :: s) := by
  rw [envelope, h]
  rfl

theorem utf8Length_cons (a : Char) (s : Text) :
    utf8Length (a :: s) = a.utf8Size + utf8Length s := by
  simp [utf8Length]

/-- The envelope of an ACK is four bytes shorter than that of the REQUEST. -/
theorem utf8Length_envelope {c : Correlation} {request ack : Text}
    (hrequest : envelope .request c = .ok request) (hack : envelope .ack c = .ok ack) :
    utf8Length ack + 4 = utf8Length request := by
  obtain ⟨s, hs, rfl⟩ := envelope_eq_ok hrequest
  obtain ⟨s', hs', rfl⟩ := envelope_eq_ok hack
  obtain rfl := Except.ok.inj (hs.symm.trans hs')
  have hkeywords : utf8Length Kind.ack.keyword + 4 = utf8Length Kind.request.keyword := by decide
  simp only [utf8Length_append, utf8Length_cons]
  omega

/-- **Where the request could be built, so can the answer.** -/
theorem exists_buildAck_of_buildRequest {c : Correlation} {size : Option ℤ} {body : Text}
    (h : buildRequest c size = .ok body) : ∃ answer, buildAck c size = .ok answer := by
  unfold buildRequest buildBody at h
  unfold buildAck buildBody
  cases hrequest : envelope .request c with
  | error e =>
    rw [hrequest] at h
    cases h
  | ok request =>
    obtain ⟨s, hs, -⟩ := envelope_eq_ok hrequest
    obtain ⟨ack, hack⟩ : ∃ ack, envelope .ack c = .ok ack := ⟨_, envelope_eq hs .ack⟩
    have hshorter := utf8Length_envelope hrequest hack
    rw [hrequest] at h
    rw [hack]
    cases size with
    | none => exact ⟨_, rfl⟩
    | some n =>
      change (pad request (some n)).mapError MessageError.format = .ok body at h
      unfold pad at h
      dsimp only at h
      split at h
      · cases h
      · rename_i hfits
        have hpad : pad ack (some n) = .ok _ := if_neg (by omega)
        exact ⟨_, congrArg (fun r => r.mapError MessageError.format) hpad⟩

/-- Without a size, only the number has to be written. -/
theorem Clean.exists_buildAck {c : Correlation} (hc : Clean c) :
    ∃ answer, buildAck c none = .ok answer := by
  obtain ⟨s, hs⟩ := hc.sequence
  rw [buildAck, buildBody, envelope_eq hs]
  exact ⟨_, rfl⟩

/-- **The executor says what the builder built**: its size assertion never fails. -/
theorem decide_eq {x : DeterministicExecutor} {text answer : Text} {m : ParsedMessage}
    (hkind : m.kind = .request) (h : buildAck m.correlation x.bodyBytes = .ok answer) :
    x.decide ⟨text, some m⟩ = .ok (some answer) := by
  simp only [DeterministicExecutor.decide, hkind, ne_eq, not_true_eq_false, if_false]
  cases hsize : x.bodyBytes with
  | none =>
    rw [hsize] at h
    rw [h]
  | some n =>
    rw [hsize] at h
    have hlength : (utf8Length answer : ℤ) = n := utf8Length_of_buildBody h
    rw [h]
    simp only [assertBodyLength, hlength, ne_eq, not_true_eq_false, if_false]
    rfl

/-! ## 3.  The lookup -/

/-- The label makes no call under `key`. -/
def Spares (key : Key) : Label → Prop
  | .request c _ _ => c.key ≠ key
  | .sendOffline c => c.key ≠ key
  | _ => True

/-- `request` or `send_offline` of `c` registered call `i` and went on to its send. -/
inductive Sends (clock : MonotonicClock) (s : Human.State) (c : Correlation) :
    Human.State → ℕ → Prop where
  | request (bodyBytes : Option ℤ) (timeout : ℚ) {s' : Human.State} {i : ℕ}
    (h : s.request clock c bodyBytes timeout = (s', .ok i)) : Sends clock s c s' i
  | sendOffline {s' : Human.State} {i : ℕ} (h : s.sendOffline clock c = (s', .ok i)) :
    Sends clock s c s' i

/-- Call `i` was made for `c` and is the one the pending table holds under its key. -/
structure Holds (c : Correlation) (i : ℕ) (s : Human.State) : Prop where
  pending : s.pending.get? c.key = some i
  call : ∃ call, s.calls[i]? = some call ∧ call.interaction.correlation = c

section Lookup

variable {clock : MonotonicClock} {s s' t : Human.State} {c : Correlation} {i : ℕ}

theorem holds_register (s : Human.State) (call : Call) (reads : ℕ) :
    Holds call.interaction.correlation s.calls.length (s.register call reads) where
  pending := by
    change (s.pending.set call.interaction.correlation.key s.calls.length).get? _ = _
    rw [OrderedDict.get?_set, if_pos rfl]
  call := ⟨call, List.getElem?_concat_length, rfl⟩

/-- A call that goes to its send is the one its key leads to. -/
theorem Sends.holds (h : Sends clock s c s' i) : Holds c i s' := by
  cases h with
  | request bodyBytes timeout h =>
    unfold Human.State.request at h
    split at h
    · cases (Prod.mk.inj h).2
    · cases (Prod.mk.inj h).2
    · split at h
      · cases (Prod.mk.inj h).2
      · rename_i txnId _ _ _ _ _
        obtain ⟨rfl, hi⟩ := Prod.mk.inj h
        obtain rfl := Except.ok.inj hi
        have hnew := holds_register s
          ⟨.new c txnId (clock.read (s.reads + 1)), some timeout, .sending⟩ 2
        exact ⟨hnew.pending, hnew.call⟩
  | sendOffline h =>
    unfold Human.State.sendOffline at h
    split at h
    · cases (Prod.mk.inj h).2
    · cases (Prod.mk.inj h).2
    · split at h
      · cases (Prod.mk.inj h).2
      · rename_i txnId _ _ _ _ _
        obtain ⟨rfl, hi⟩ := Prod.mk.inj h
        obtain rfl := Except.ok.inj hi
        exact holds_register s ⟨.new c txnId (clock.read s.reads), none, .sendingOffline⟩ 1

/-- A call made under another key leaves the entry alone. -/
theorem Holds.register (h : Holds c i s) {call : Call} {reads : ℕ}
    (hkey : call.interaction.correlation.key ≠ c.key) : Holds c i (s.register call reads) where
  pending := by
    change (s.pending.set call.interaction.correlation.key s.calls.length).get? _ = _
    rw [OrderedDict.get?_set, if_neg hkey.symm]
    exact h.pending
  call := by
    obtain ⟨made, hmade, hc⟩ := h.call
    exact ⟨made, List.getElem?_append_left (List.getElem?_eq_some_iff.mp hmade).1 ▸ hmade, hc⟩

theorem Holds.of_request (h : Holds c i s) {c' : Correlation} (hkey : c'.key ≠ c.key)
    (bodyBytes : Option ℤ) (timeout : ℚ) : Holds c i (s.request clock c' bodyBytes timeout).1 := by
  unfold Human.State.request
  split
  · exact h
  · exact h
  · rename_i txnId _ _
    split
    · exact h.register hkey
    · have hregister := @Holds.register _ _ _ h
        ⟨.new c' txnId (clock.read (s.reads + 1)), some timeout, .sending⟩ 2 hkey
      exact ⟨hregister.pending, hregister.call⟩

theorem Holds.of_sendOffline (h : Holds c i s) {c' : Correlation} (hkey : c'.key ≠ c.key) :
    Holds c i (s.sendOffline clock c').1 := by
  unfold Human.State.sendOffline
  split
  · exact h
  · exact h
  · split
    · exact h.register hkey
    · exact h.register hkey

/-- What happens to a call leaves its correlation, so the entry stays what it was. -/
theorem Holds.of_step (h : Holds c i s) {l : Label} (hl : Spares c.key l)
    (hstep : step clock s l = some s') : Holds c i s' := by
  have hexternal : l.External → Holds c i s' := by
    intro hl
    obtain ⟨-, hpending, hcalls⟩ := step_external hl hstep
    obtain ⟨made, hmade, hc⟩ := h.call
    refine ⟨hpending ▸ h.pending, ?_⟩
    rcases hcalls with ⟨j, happening, call, call', -, hcall, hafter, hset⟩ | ⟨-, hsame⟩
    · rw [hset, List.getElem?_set]
      by_cases hj : j = i
      · subst hj
        have hlength := (List.getElem?_eq_some_iff.mp hmade).1
        obtain rfl := Option.some_inj.mp (hcall.symm.trans hmade)
        exact ⟨call', by rw [if_pos rfl, if_pos hlength], (correlation_after hafter).trans hc⟩
      · exact ⟨made, by rw [if_neg hj, hmade], hc⟩
    · exact ⟨made, hsame ▸ hmade, hc⟩
  cases l with
  | request c' bodyBytes timeout =>
    rw [← Option.some_inj.mp hstep]
    exact h.of_request hl bodyBytes timeout
  | sendOffline c' =>
    rw [← Option.some_inj.mp hstep]
    exact h.of_sendOffline hl
  | _ => exact hexternal trivial

/-- Through a whole run that makes no second call under the key. -/
theorem Holds.of_exec (h : Holds c i s) {labels : List Label}
    (hlabels : ∀ l ∈ labels, Spares c.key l)
    (hrun : exec (step clock) s labels = some t) : Holds c i t := by
  induction labels generalizing s with
  | nil => exact Option.some_inj.mp hrun ▸ h
  | cons l labels ih =>
    obtain ⟨s', hstep, hrest⟩ := exists_step_of_exec_cons hrun
    exact ih (h.of_step (hlabels l List.mem_cons_self) hstep)
      (fun l hl => hlabels l (List.mem_cons_of_mem _ hl)) hrest

/-- The event is in the room the participant is bound to. -/
def InRoom (s : Human.State) (event : TimelineEvent) : Prop :=
  ∀ room, truthy s.roomId = some room → event.roomId = room

/-- The callback follows an ACK to the entry of its key. -/
theorem ackTarget_eq {event : TimelineEvent} (hroom : InRoom s event) {m : ParsedMessage}
    (hparse : parse event.body = .ok (some m)) (hkind : m.kind = .ack) :
    s.ackTarget event = s.pending.get? m.correlation.key := by
  have hout : ¬ ∃ room, truthy s.roomId = some room ∧ event.roomId ≠ room :=
    fun ⟨room, hbound, hne⟩ => hne (hroom room hbound)
  rw [Human.State.ackTarget, if_neg hout, hparse]
  simp [ParsedMessage.isAck, hkind]

end Lookup

/-- **An answer that finds its sender.**  Whatever correlation under `key` a participant
sent, and whatever happened since short of a second call under `key`, an event of the
room with this body leads the callback to the call that made the request. -/
def FindsSender (key : Key) (answer : Text) : Prop :=
  ∀ (clock : MonotonicClock) (s s' t : Human.State) (c : Correlation) (i : ℕ)
    (labels : List Label),
    c.key = key → Sends clock s c s' i → (∀ l ∈ labels, Spares key l) →
    exec (step clock) s' labels = some t →
    ∀ event, event.body = answer → InRoom t event →
      t.ackTarget event = some i ∧
        ∃ call, t.calls[i]? = some call ∧ call.interaction.correlation = c

/-- The executor answers a request, in its own size, with an ACK that parses to `key` and
finds its sender. -/
def Closes (x : DeterministicExecutor) (request : ExecutionRequest) (key : Key) : Prop :=
  ∃ answer reply, x.decide request = .ok (some answer) ∧
    (∀ n, x.bodyBytes = some n → (utf8Length answer : ℤ) = n) ∧
    parse answer = .ok (some reply) ∧ reply.kind = .ack ∧ reply.correlation.key = key ∧
    FindsSender key answer

theorem findsSender_of_parse {answer : Text} {reply : ParsedMessage}
    (hparse : parse answer = .ok (some reply)) (hkind : reply.kind = .ack) :
    FindsSender reply.correlation.key answer := by
  rintro clock s s' t c i labels hkey hsends hlabels hrun event rfl hroom
  rw [← hkey] at hlabels
  have hholds := hsends.holds.of_exec hlabels hrun
  exact ⟨(ackTarget_eq hroom hparse hkind).trans (hkey ▸ hholds.pending), hholds.call⟩

/-- Whenever the answer to a clean request can be built, the round closes. -/
theorem closes_of_buildAck {x : DeterministicExecutor} {text answer : Text} {m : ParsedMessage}
    (hkind : m.kind = .request) (hclean : Clean m.correlation)
    (h : buildAck m.correlation x.bodyBytes = .ok answer) :
    Closes x ⟨text, some m⟩ m.correlation.key := by
  obtain ⟨reply, hparse, hack, hkey⟩ := hclean.parse_of_buildBody h
  refine ⟨answer, reply, decide_eq hkind h, fun n hn => ?_, hparse, hack, hkey, ?_⟩
  · rw [hn] at h
    exact utf8Length_of_buildBody h
  · exact hkey ▸ findsSender_of_parse hparse hack

/-- **Request and ACK correlate, from any spelling.**  Let a body parse to a message.  If
it is a REQUEST, the executor without a size answers it with an ACK under its key; and a
REQUEST built from its correlation in the frozen size is answered, in that size and under
that key, by the executor with the frozen size.  Either answer leads the sender's callback
to the call that sent the request. -/
theorem correlation_closes {source : Text} {m : ParsedMessage}
    (hparse : parse source = .ok (some m)) :
    (∀ x : DeterministicExecutor, x.bodyBytes = none → m.kind = .request →
      Closes x ⟨source, some m⟩ m.correlation.key) ∧
    ∀ x : DeterministicExecutor, x.bodyBytes = some e3BodyBytes →
      ∀ body, buildRequest m.correlation (some e3BodyBytes) = .ok body →
        ∃ request, parse body = .ok (some request) ∧
          Closes x ⟨body, some request⟩ m.correlation.key := by
  have hclean := clean_of_parse hparse
  constructor
  · intro x hx hkind
    obtain ⟨answer, hanswer⟩ := hclean.exists_buildAck
    exact closes_of_buildAck hkind hclean (hx.symm ▸ hanswer)
  · intro x hx body hbody
    obtain ⟨request, hrequest, hkind, hkey⟩ := hclean.parse_of_buildBody hbody
    obtain ⟨answer, hanswer⟩ := exists_buildAck_of_buildRequest hbody
    have hsame : buildAck request.correlation x.bodyBytes = .ok answer := by
      rw [hx, buildAck, buildBody_eq_of_key_eq hkey]
      exact hanswer
    exact ⟨request, hrequest, hkey ▸ closes_of_buildAck hkind (clean_of_parse hrequest) hsame⟩

/-- A REQUEST in a spelling of its own: lower case, a tab, an Arabic digit, a leading
zero. -/
def spelledRequest : Text :=
  "\n FAM/1 REQUEST\te3  run-1 0٧ xx".toList

/-- Its round closes under `E3`, `run-1`, 7. -/
theorem spelledRequest_closes :
    ∃ m, parse spelledRequest = .ok (some m) ∧
      m.correlation.key = ("E3".toList, "run-1".toList, 7) ∧
      (∀ x : DeterministicExecutor, x.bodyBytes = none → m.kind = .request →
        Closes x ⟨spelledRequest, some m⟩ m.correlation.key) ∧
      ∀ x : DeterministicExecutor, x.bodyBytes = some e3BodyBytes →
        ∀ body, buildRequest m.correlation (some e3BodyBytes) = .ok body →
          ∃ request, parse body = .ok (some request) ∧
            Closes x ⟨body, some request⟩ m.correlation.key := by
  have hparse : parse spelledRequest =
      .ok (some ⟨.request, ⟨"e3".toList, "run-1".toList, 7, by decide, by decide⟩, true⟩) := by
    decide +kernel
  exact ⟨_, hparse, by decide, correlation_closes hparse⟩

end Executors
end FederatedMessaging
