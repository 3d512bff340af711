import FederatedMessaging.Participants.Human

/-!
# The ACK evidence of an interaction

Every matching ACK leaves its event id in `ack_event_ids`, and the first of them is the
response.  The record then answers for itself: the number of ACKs, the duplicates
among them and the response have to agree, and an audit rejects a record in which they
do not.

The callback writes the response event in two places.  The second is the branch for an
ACK that comes after the timeout, which asks whether a *late* ACK was seen before, not
whether an ACK was.  An interaction that was answered and then timed out has its
response replaced there by a duplicate.  `ackEvidence_iff` says that nothing else
breaks the evidence: it is sound in every state of a run exactly when no new ACK
reaches an interaction in that situation.
-/

namespace FederatedMessaging
namespace Human

open PythonText Message LabelledRuns

/-- The evidence of an interaction agrees with itself. -/
structure AckEvidence (it : Interaction) : Prop where
  nodup : it.ackEventIds.Nodup
  response : it.responseEventId = it.ackEventIds.head?
  count : it.ackCount = it.duplicateAckCount + if it.responseEventId.isSome then 1 else 0
  response_notMem : ∀ e, it.responseEventId = some e → e ∉ it.duplicateAckEventIds

/-- The counts follow from the list of ids. -/
theorem ackEvidence_iff_response {it : Interaction} :
    AckEvidence it ↔ it.ackEventIds.Nodup ∧ it.responseEventId = it.ackEventIds.head? := by
  constructor
  · exact fun h => ⟨h.nodup, h.response⟩
  · rintro ⟨hnodup, hresponse⟩
    refine ⟨hnodup, hresponse, ?_, ?_⟩
    · rw [hresponse, Interaction.ackCount, Interaction.duplicateAckCount]
      cases it.ackEventIds with
      | nil => rfl
      | cons e ids => simp
    · intro e he
      rw [hresponse] at he
      rw [Interaction.duplicateAckEventIds]
      cases hids : it.ackEventIds with
      | nil =>
        rw [hids] at he
        cases he
      | cons e' ids =>
        rw [hids] at he hnodup
        obtain rfl := Option.some_inj.mp he
        exact (List.nodup_cons.mp hnodup).1

/-- What may happen to a call that keeps its evidence: a new ACK that is the first after
the timeout is the first of all. -/
def KeepsResponse (call : Call) : Happening → Prop
  | .acknowledged e _ _ => e ∉ call.interaction.ackEventIds → call.interaction.timedOut = true →
      call.interaction.lateAckMonotonicNs = none → call.interaction.ackEventIds = []
  | _ => True

/-- A late ACK has left its id. -/
def LateAckListed (_ : ℕ) (call : Call) : Prop :=
  call.interaction.lateAckMonotonicNs ≠ none → call.interaction.ackEventIds ≠ []

theorem Call.Fresh.ackEvidence {call : Call} {t : ℕ} (h : call.Fresh t) :
    LateAckListed t call ∧ AckEvidence call.interaction := by
  obtain ⟨⟨correlation, txnId, hit⟩, -⟩ := h
  rw [LateAckListed, hit, ackEvidence_iff_response]
  exact ⟨fun hne => absurd rfl hne, List.nodup_nil, rfl⟩

theorem lateAckListed_after {now : ℕ} {call call' : Call} {h : Happening}
    (hinv : LateAckListed now call) (hafter : call.after h = some call') :
    LateAckListed now call' := by
  cases becomes_of_after hafter with
  | acknowledged e t3 episode =>
    unfold LateAckListed Interaction.observeAck
    split_ifs with hmem htimed hlate hids
    · exact hinv
    all_goals exact fun _ => List.append_ne_nil_of_right_ne_nil _ (List.cons_ne_nil _ _)
  | _ => exact hinv

/-- A new id keeps the ids distinct. -/
theorem nodup_append_singleton {ids : List Text} {e : Text} (hnodup : ids.Nodup) (hmem : e ∉ ids) :
    (ids ++ [e]).Nodup := by
  rw [← List.concat_eq_append]
  exact List.Nodup.concat hmem hnodup

/-- **One callback keeps the evidence exactly when it does not replace a response.** -/
theorem ackEvidence_observeAck_iff {it : Interaction} {e : Text} {t3 : ℕ} {episode : Option ℕ}
    (hlisted : it.lateAckMonotonicNs ≠ none → it.ackEventIds ≠ []) (hgood : AckEvidence it) :
    AckEvidence (it.observeAck e t3 episode) ↔
      (e ∉ it.ackEventIds → it.timedOut = true → it.lateAckMonotonicNs = none →
        it.ackEventIds = []) := by
  obtain ⟨hnodup, hresponse⟩ := ackEvidence_iff_response.mp hgood
  unfold Interaction.observeAck
  split_ifs with hmem htimed hlate hids
  · -- the same event again
    exact iff_of_true hgood fun hnew => absurd hmem hnew
  · -- the first ACK after the timeout
    rw [ackEvidence_iff_response]
    constructor
    · rintro ⟨-, hhead⟩ - - -
      by_contra hne
      obtain ⟨e', ids, hcons⟩ := List.exists_cons_of_ne_nil hne
      have he : some e = (it.ackEventIds ++ [e]).head? := hhead
      rw [hcons, List.cons_append, List.head?_cons] at he
      exact hmem (hcons ▸ Option.some_inj.mp he ▸ List.mem_cons_self)
    · intro hkeep
      refine ⟨nodup_append_singleton hnodup hmem, ?_⟩
      rw [hkeep hmem htimed hlate]
      rfl
  · -- a further ACK after the timeout
    refine iff_of_true (ackEvidence_iff_response.mpr
      ⟨nodup_append_singleton hnodup hmem, ?_⟩) fun _ _ hnone => absurd hnone hlate
    exact hresponse.trans (List.head?_append_of_ne_nil _ (hlisted hlate)).symm
  · -- the first ACK, in time
    refine iff_of_true (ackEvidence_iff_response.mpr
      ⟨nodup_append_singleton hnodup hmem, ?_⟩) fun _ _ _ => hids
    rw [hids]
    rfl
  · -- a further ACK after the first
    refine iff_of_true (ackEvidence_iff_response.mpr
      ⟨nodup_append_singleton hnodup hmem, ?_⟩) fun _ h => absurd h htimed
    exact hresponse.trans (List.head?_append_of_ne_nil _ hids).symm

theorem ackEvidence_after_iff {now : ℕ} {call call' : Call} {h : Happening}
    (hinv : LateAckListed now call) (hgood : AckEvidence call.interaction)
    (hafter : call.after h = some call') :
    AckEvidence call'.interaction ↔ KeepsResponse call h := by
  have hsame : ∀ it : Interaction, it.ackEventIds = call.interaction.ackEventIds →
      it.responseEventId = call.interaction.responseEventId → AckEvidence it := by
    intro it hids hresponse
    rw [ackEvidence_iff_response, hids, hresponse]
    exact ackEvidence_iff_response.mp hgood
  cases becomes_of_after hafter with
  | acknowledged e t3 episode => exact ackEvidence_observeAck_iff hinv hgood
  | _ => exact iff_of_true (hsame _ rfl rfl) trivial

/-- **Exactly the runs in which the evidence is sound.**  For every order and repetition
of ACKs, sends and timers: in every state every interaction's evidence agrees with
itself if and only if no new ACK is the first after the timeout of an interaction that
already had one. -/
theorem ackEvidence_iff {clock : MonotonicClock} {roomId : Option Text} {labels : List Label}
    {t : State} (hrun : exec (step clock) (State.initial roomId) labels = some t) :
    Always (step clock) (State.initial roomId) labels
        (fun s => ∀ call ∈ s.calls, AckEvidence call.interaction) ↔
      StepsMeet (step clock) (State.initial roomId) labels (Respects clock KeepsResponse) :=
  always_calls_iff LateAckListed (fun _ _ _ _ hinv => hinv) (fun _ _ hfresh => hfresh.ackEvidence)
    (fun _ _ _ _ hinv _ hafter => lateAckListed_after hinv hafter)
    (fun _ _ _ _ hinv _ hgood hafter => ackEvidence_after_iff hinv hgood hafter) hrun

/-! ## A duplicate in the place of the response -/

/-- An ACK during the send, a send that outlasts the timeout, and a second ACK. -/
def answeredTwice : List Label :=
  [.request sampleCorrelation none 10, .deliver (sampleAck ['$', 'a']) none,
    .sendReturned 0 ['$', 'q'], .deliver (sampleAck ['$', 'b']) none]

/-- **The second ACK replaces the response**, and is listed among its own duplicates. -/
theorem answeredTwice_not_ackEvidence :
    ((exec (step (steadyClock 4000000000)) (State.initial (some ['!', 'r'])) answeredTwice).map
      fun s => s.calls.map fun call => (call.interaction.responseEventId,
        call.interaction.duplicateAckEventIds)) = some [(some ['$', 'b'], [['$', 'b']])] ∧
    ¬ Always (step (steadyClock 4000000000)) (State.initial (some ['!', 'r'])) answeredTwice
      fun s => ∀ call ∈ s.calls, AckEvidence call.interaction := by
  have hend : ((exec (step (steadyClock 4000000000)) (State.initial (some ['!', 'r']))
      answeredTwice).map fun s => s.calls.map fun call => (call.interaction.responseEventId,
        call.interaction.duplicateAckEventIds)) = some [(some ['$', 'b'], [['$', 'b']])] := by
    decide +kernel
  refine ⟨hend, fun halways => ?_⟩
  obtain ⟨s, hs, hcalls⟩ := Option.map_eq_some_iff.mp hend
  have hmem : (some ['$', 'b'], [['$', 'b']]) ∈ s.calls.map fun call =>
      (call.interaction.responseEventId, call.interaction.duplicateAckEventIds) := by
    rw [hcalls]
    exact List.mem_cons_self
  obtain ⟨call, hcall, hfields⟩ := List.mem_map.mp hmem
  obtain ⟨hresponse, hduplicates⟩ := Prod.mk.inj hfields
  have hgood := halways answeredTwice s (List.prefix_refl _) hs call hcall
  exact hgood.response_notMem _ hresponse (hduplicates ▸ List.mem_cons_self)

/-- The exact condition at a request that is answered twice in time. -/
theorem promptTwice_ackEvidence_iff :
    Always (step (steadyClock 1)) (State.initial (some ['!', 'r'])) answeredTwice
        (fun s => ∀ call ∈ s.calls, AckEvidence call.interaction) ↔
      StepsMeet (step (steadyClock 1)) (State.initial (some ['!', 'r'])) answeredTwice
        (Respects (steadyClock 1) KeepsResponse) :=
  ackEvidence_iff (Option.some_get (by decide +kernel)).symm

end Human
end FederatedMessaging
