import FederatedMessaging.Experiments.OutcomeClassifiers
import FederatedMessaging.Experiments.Regeneration

/-!
# The deadline of the recovery experiment

`await_acks` arms a deadline of three minutes and counts the futures that are done when its
wait is over.  The run then sleeps, and only afterwards reads the outcomes, off interactions
that the callback has gone on writing to.

## 1.  The deadline of a run

A run has one wait, and its deadline is armed when the wait begins.  It is carried along
beside the state (`noteDeadline`), so that a statement about the end of a run can name it.

## 2.  Three moments

A completion is stamped once, by the ACK that completes the interaction.  Whether the record
and the count agree with the deadline is decided at that moment: the ACK has to come before
the deadline, and before `await_acks` has counted.  A wait that timed out counts what is done
when its task runs again, which is later than the deadline; so the two are not one condition.

`decidedByDeadline_iff` says that these are all the ways in which the verdicts come apart,
save for a completion stamped 0, which the record takes for none.
-/

namespace FederatedMessaging
namespace OfflineRecovery

open PythonText Message Human LabelledRuns
open FederatedMessaging.Matrix

/-! ## 1.  The deadline of a run -/

/-- The deadline of the wait, once it has been armed. -/
def noteDeadline (deadline : Option ℚ) (w : RunState) : Option ℚ :=
  match w.stage with
  | .waiting armed => some armed
  | _ => deadline

/-- A run with the deadline its wait armed. -/
abbrev Timed := RunState × Option ℚ

/-- A step of the run, taking note of the deadline. -/
abbrev timedStep (clock : MonotonicClock) (config : RunConfig) :
    Timed → RunState.Label → Option Timed :=
  carrying (RunState.step clock config) noteDeadline

/-- The run before its first send; nothing is armed. -/
abbrev timedStart (clock : MonotonicClock) (config : RunConfig) : Timed :=
  (RunState.start clock config, none)

/-- The completion is no later than the deadline that was armed. -/
def BeforeDeadline (deadline : Option ℚ) (completed : Option ℕ) : Prop :=
  ∃ t d, completed = some t ∧ deadline = some d ∧ (t : ℚ) ≤ d

/-- **The run decides by its deadline**: a record of the second loop is a success exactly
when its ACK completed by the deadline, and the successes are as many as were counted. -/
structure DecidedByDeadline (x : Timed) : Prop where
  outcome : ∀ r ∈ x.1.records, r.runPhase = .postRestart →
    (r.outcome = .success ↔ BeforeDeadline x.2 r.completedMonotonicNs)
  count : x.1.records.countP (fun r => r.runPhase = .postRestart && r.outcome = .success) =
    x.1.ackCount

/-- The label delivers an ACK that completes an interaction. -/
def CompletingAck (clock : MonotonicClock) (w : RunState) : RunState.Label → Prop
  | .human (.deliver event episode) _ => ∃ i call t3,
      w.human.happening clock (.deliver event episode) =
        some (i, .acknowledged event.eventId t3 episode) ∧
      w.human.calls[i]? = some call ∧ call.interaction.Accepts event.eventId
  | _ => False

/-- **An ACK that completes an interaction is in time**: it is stamped, with anything but 0,
before `await_acks` has returned and no later than its deadline. -/
def AckInTime (clock : MonotonicClock) (x : Timed) (l : RunState.Label) : Prop :=
  CompletingAck clock x.1 l → clock.read x.1.human.reads ≠ 0 ∧ x.1.stage ≠ .settling ∧
    ∀ d, x.2 = some d → (clock.read x.1.human.reads : ℚ) ≤ d

/-! ## 2.  One call -/

/-- What holds of every interaction at clock reading `now`. -/
structure Stamped (now : ℕ) (it : Interaction) : Prop where
  done : it.futureDone = true ↔ it.completedMonotonicNs ≠ none
  listed : it.completedMonotonicNs ≠ none → it.ackEventIds ≠ []
  past : ∀ t, it.completedMonotonicNs = some t → t ≤ now

theorem stamped_new (correlation : Correlation) (txnId : Text) (t0 now : ℕ) :
    Stamped now (.new correlation txnId t0) where
  done := iff_of_false Bool.false_ne_true fun h => h rfl
  listed := fun h => absurd rfl h
  past := fun _ h => nomatch h

theorem Stamped.later {now now' : ℕ} {it : Interaction} (h : Stamped now it) (hle : now ≤ now') :
    Stamped now' it :=
  ⟨h.done, h.listed, fun t ht => (h.past t ht).trans hle⟩

/-- What happens to a call is an ACK that completes it, stamped `t`. -/
def Completing (call : Call) (hap : Happening) (t : ℕ) : Prop :=
  ∃ e episode, hap = .acknowledged e t episode ∧ call.interaction.Accepts e

/-- Anything else leaves the completion alone. -/
theorem kept_of_not_completing {call call' : Call} {hap : Happening}
    (h : ∀ t, ¬ Completing call hap t) (hafter : call.after hap = some call') :
    call'.interaction.completedMonotonicNs = call.interaction.completedMonotonicNs ∧
      call'.interaction.futureDone = call.interaction.futureDone ∧
      (call.interaction.ackEventIds ≠ [] → call'.interaction.ackEventIds ≠ []) := by
  cases becomes_of_after hafter with
  | acknowledged e t3 episode =>
    have hnot : ¬ call.interaction.Accepts e := fun haccepts =>
      h t3 ⟨e, episode, rfl, haccepts⟩
    obtain ⟨hdone, hids⟩ := Experiments.observeAck_of_not_accepts t3 episode hnot
    exact ⟨observeAck_completed hnot, hdone, hids⟩
  | _ => exact ⟨rfl, rfl, id⟩

/-- A completing ACK stamps a completion where there was none. -/
theorem completed_of_completing {call call' : Call} {hap : Happening} {t now : ℕ}
    (hstamped : Stamped now call.interaction) (h : Completing call hap t)
    (hafter : call.after hap = some call') :
    call.interaction.completedMonotonicNs = none ∧ call.interaction.futureDone = false ∧
      call'.interaction.completedMonotonicNs = some t ∧ call'.interaction.futureDone = true ∧
      call'.interaction.ackEventIds ≠ [] := by
  obtain ⟨e, episode, rfl, haccepts⟩ := h
  have hnone : call.interaction.completedMonotonicNs = none := by
    by_contra hsome
    exact hstamped.listed hsome haccepts.2.2
  rw [← Option.some_inj.mp hafter]
  change _ ∧ _ ∧ (call.interaction.observeAck e t episode).completedMonotonicNs = some t ∧
    (call.interaction.observeAck e t episode).futureDone = true ∧
    (call.interaction.observeAck e t episode).ackEventIds ≠ []
  rw [observeAck_of_accepts haccepts]
  refine ⟨hnone, ?_, rfl, rfl, List.append_ne_nil_of_right_ne_nil _ (List.cons_ne_nil e [])⟩
  exact Bool.eq_false_iff.mpr fun hdone => hstamped.done.mp hdone hnone

theorem stamped_after {call call' : Call} {hap : Happening} {now : ℕ}
    (hstamped : Stamped now call.interaction) (hnow : ∀ t, Completing call hap t → t ≤ now)
    (hafter : call.after hap = some call') : Stamped now call'.interaction := by
  by_cases h : ∃ t, Completing call hap t
  · obtain ⟨t, ht⟩ := h
    obtain ⟨-, -, hcompleted, hdone, hids⟩ := completed_of_completing hstamped ht hafter
    refine ⟨iff_of_true hdone ?_, fun _ => hids, fun t' ht' => ?_⟩
    · rw [hcompleted]
      exact Option.some_ne_none t
    · rw [hcompleted] at ht'
      rw [← Option.some_inj.mp ht']
      exact hnow t ht
  · obtain ⟨hcompleted, hdone, hids⟩ := kept_of_not_completing (fun t ht => h ⟨t, ht⟩) hafter
    refine ⟨?_, ?_, ?_⟩
    · rw [hcompleted, hdone]
      exact hstamped.done
    · rw [hcompleted]
      exact fun hsome => hids (hstamped.listed hsome)
    · rw [hcompleted]
      exact hstamped.past

/-! ## 3.  The stamps of a participant -/

/-- The stamps of all completed interactions. -/
def stamps (s : State) : List ℕ :=
  s.calls.filterMap fun call => call.interaction.completedMonotonicNs

section ListSet

variable {α β : Type*} {f : α → Option β} {l : List α} {i : ℕ} {a b : α}

theorem exists_split_of_getElem? (h : l[i]? = some a) (b : α) :
    ∃ front back, l = front ++ a :: back ∧ l.set i b = front ++ b :: back := by
  obtain ⟨hi, rfl⟩ := List.getElem?_eq_some_iff.mp h
  refine ⟨l.take i, l.drop (i + 1), ?_, List.set_eq_take_append_cons_drop.trans (if_pos hi)⟩
  rw [← List.drop_eq_getElem_cons hi, List.take_append_drop]

/-- Replacing an element by one that is mapped alike changes nothing. -/
theorem filterMap_set_of_eq (h : l[i]? = some a) (hf : f b = f a) :
    (l.set i b).filterMap f = l.filterMap f := by
  obtain ⟨front, back, hl, hset⟩ := exists_split_of_getElem? h b
  rw [hset, hl, List.filterMap_append, List.filterMap_append, List.filterMap_cons,
    List.filterMap_cons, hf]

/-- Replacing an element that was left out by one that is kept adds it. -/
theorem filterMap_set_perm {v : β} (h : l[i]? = some a) (ha : f a = none) (hb : f b = some v) :
    ((l.set i b).filterMap f).Perm (v :: l.filterMap f) := by
  obtain ⟨front, back, hl, hset⟩ := exists_split_of_getElem? h b
  rw [hset, hl, List.filterMap_append, List.filterMap_append, List.filterMap_cons_some hb,
    List.filterMap_cons_none ha]
  exact List.perm_middle

end ListSet

section Participant

variable {clock : MonotonicClock} {w : RunState} {human : State} {l : Human.Label} {note : Text}

/-- What a label does to a call is a completing ACK when the label is one. -/
theorem completingAck_iff {i : ℕ} {hap : Happening} {call : Call}
    (hlabel : w.human.happening clock l = some (i, hap)) (hcall : w.human.calls[i]? = some call) :
    CompletingAck clock w (.human l note) ↔ Completing call hap (clock.read w.human.reads) := by
  cases l with
  | deliver event episode =>
    obtain ⟨j, hj, heq⟩ := Option.map_eq_some_iff.mp hlabel
    obtain ⟨rfl, rfl⟩ := Prod.mk.inj heq
    constructor
    · rintro ⟨i', call', t3, hlabel', hcall', haccepts⟩
      obtain ⟨rfl, -⟩ := Prod.mk.inj (Option.some_inj.mp (hlabel.symm.trans hlabel'))
      obtain rfl := Option.some_inj.mp (hcall.symm.trans hcall')
      exact ⟨_, _, rfl, haccepts⟩
    · rintro ⟨e, episode', hap, haccepts⟩
      obtain ⟨rfl, -, -⟩ := Happening.acknowledged.inj hap
      exact ⟨j, call, _, hlabel, hcall, haccepts⟩
  | request => cases hlabel
  | sendOffline => cases hlabel
  | _ =>
    obtain ⟨rfl, rfl⟩ := Prod.mk.inj (Option.some_inj.mp hlabel)
    exact iff_of_false id fun ⟨_, _, hap, _⟩ => nomatch hap

/-- A completing ACK is stamped with the next reading. -/
theorem eq_of_completing {i : ℕ} {hap : Happening} {call : Call} {t : ℕ}
    (hlabel : w.human.happening clock l = some (i, hap)) (h : Completing call hap t) :
    t = clock.read w.human.reads := by
  obtain ⟨e, episode, rfl, -⟩ := h
  cases l with
  | deliver event episode =>
    obtain ⟨j, -, heq⟩ := Option.map_eq_some_iff.mp hlabel
    exact (Happening.acknowledged.inj (Prod.mk.inj heq).2).2.1.symm
  | request => cases hlabel
  | sendOffline => cases hlabel
  | _ => exact nomatch (Prod.mk.inj (Option.some_inj.mp hlabel)).2

/-- A label that reaches no call delivers no completing ACK. -/
theorem not_completingAck (hnone : w.human.happening clock l = none) :
    ¬ CompletingAck clock w (.human l note) := by
  cases l with
  | deliver event episode =>
    rintro ⟨i, call, t3, hlabel, -⟩
    rw [hnone] at hlabel
    cases hlabel
  | _ => exact id

/-- **What an event does to the stamps**: a completing ACK adds the reading of the moment,
and nothing else changes them. -/
theorem stamps_human (hl : l.External) (hstep : Human.step clock w.human l = some human)
    (hstamped : ∀ call ∈ w.human.calls, Stamped (clock.read w.human.reads) call.interaction) :
    (∀ call ∈ human.calls, Stamped (clock.read human.reads) call.interaction) ∧
      ((¬ CompletingAck clock w (.human l note) ∧ stamps human = stamps w.human) ∨
        (CompletingAck clock w (.human l note) ∧
          (stamps human).Perm (clock.read w.human.reads :: stamps w.human))) := by
  obtain ⟨hreads, -, hcalls⟩ := step_external hl hstep
  have hclock := clock.mono hreads
  rcases hcalls with ⟨i, hap, call, call', hlabel, hcall, hafter, hset⟩ | ⟨hnone, hsame⟩
  · have hnow : ∀ t, Completing call hap t → t ≤ clock.read w.human.reads := fun t ht =>
      (eq_of_completing hlabel ht).le
    have hbefore := hstamped call (List.mem_of_getElem? hcall)
    refine ⟨?_, ?_⟩
    · intro c hc
      rw [hset] at hc
      rcases List.mem_or_eq_of_mem_set hc with hc | rfl
      · exact (hstamped c hc).later hclock
      · exact (stamped_after hbefore hnow hafter).later hclock
    · unfold stamps
      rw [hset, completingAck_iff hlabel hcall]
      by_cases h : Completing call hap (clock.read w.human.reads)
      · obtain ⟨hnone, -, hcompleted, -⟩ := completed_of_completing hbefore h hafter
        exact Or.inr ⟨h, filterMap_set_perm hcall hnone hcompleted⟩
      · have hnot : ∀ t, ¬ Completing call hap t := fun t ht =>
          h (eq_of_completing hlabel ht ▸ ht)
        exact Or.inl ⟨h, filterMap_set_of_eq hcall (kept_of_not_completing hnot hafter).1⟩
  · refine ⟨?_, Or.inl ⟨not_completingAck hnone, ?_⟩⟩
    · intro c hc
      rw [hsame] at hc
      exact (hstamped c hc).later hclock
    · unfold stamps
      rw [hsame]

end Participant

/-! ### The run's own code -/

/-- Time has passed, and only fresh calls have joined. -/
def Extends (s s' : State) : Prop :=
  s.reads ≤ s'.reads ∧ ∃ new : List Call, s'.calls = s.calls ++ new ∧
    ∀ call ∈ new, ∃ correlation txnId t0, call.interaction = .new correlation txnId t0

namespace Extends

variable {clock : MonotonicClock} {s s' s'' : State}

theorem refl (s : State) : Extends s s :=
  ⟨le_rfl, [], (List.append_nil _).symm, fun _ h => absurd h List.not_mem_nil⟩

theorem trans (h : Extends s s') (h' : Extends s' s'') : Extends s s'' := by
  obtain ⟨hreads, new, hcalls, hnew⟩ := h
  obtain ⟨hreads', new', hcalls', hnew'⟩ := h'
  refine ⟨hreads.trans hreads', new ++ new', ?_, fun call hcall => ?_⟩
  · rw [hcalls', hcalls, List.append_assoc]
  · exact (List.mem_append.mp hcall).elim (hnew call) (hnew' call)

/-- Fresh calls carry no stamp. -/
theorem stamps_eq (h : Extends s s') : stamps s' = stamps s := by
  obtain ⟨-, new, hcalls, hnew⟩ := h
  have hnone : new.filterMap (fun call => call.interaction.completedMonotonicNs) = [] := by
    refine List.filterMap_eq_nil_iff.mpr fun call hcall => ?_
    obtain ⟨correlation, txnId, t0, hit⟩ := hnew call hcall
    rw [hit]
    rfl
  unfold stamps
  rw [hcalls, List.filterMap_append, hnone, List.append_nil]

theorem stamped (h : Extends s s')
    (hstamped : ∀ call ∈ s.calls, Stamped (clock.read s.reads) call.interaction) :
    ∀ call ∈ s'.calls, Stamped (clock.read s'.reads) call.interaction := by
  obtain ⟨hreads, new, hcalls, hnew⟩ := h
  intro call hcall
  rw [hcalls] at hcall
  rcases List.mem_append.mp hcall with hcall | hcall
  · exact (hstamped call hcall).later (clock.mono hreads)
  · obtain ⟨correlation, txnId, t0, hit⟩ := hnew call hcall
    rw [hit]
    exact stamped_new correlation txnId t0 _

end Extends

/-- The stages before the wait. -/
def Early : Stage → Prop
  | .sending .. | .restarting | .raised => True
  | _ => False

/-- The stages after the count. -/
def Counted : Stage → Prop
  | .settling | .returned => True
  | _ => False

/-- The run has gone on without stamping or counting anything. -/
structure Passes (w w' : RunState) : Prop where
  human : Extends w.human w'.human
  ackCount : w'.ackCount = w.ackCount

section Own

variable {clock : MonotonicClock} {config : RunConfig} {w w' w'' : RunState}

theorem Passes.refl (w : RunState) : Passes w w := ⟨.refl _, rfl⟩

theorem Passes.trans (h : Passes w w') (h' : Passes w' w'') : Passes w w'' :=
  ⟨h.human.trans h'.human, h'.ackCount.trans h.ackCount⟩

/-- Another clock reading. -/
theorem extends_readClock (clock : MonotonicClock) (w : RunState) :
    Extends w.human (w.readClock clock).2.human :=
  ⟨Nat.le_succ _, [], (List.append_nil _).symm, fun _ h => absurd h List.not_mem_nil⟩

theorem extends_sendOffline (clock : MonotonicClock) (s : State) (correlation : Correlation) :
    Extends s (s.sendOffline clock correlation).1 := by
  obtain ⟨hreads, hsame | ⟨call, k, happend, hmade, -⟩⟩ := calls_sendOffline clock s correlation
  · exact ⟨hreads, [], hsame.trans (List.append_nil _).symm,
      fun _ h => absurd h List.not_mem_nil⟩
  · refine ⟨hreads, [call], happend, fun c hc => ?_⟩
    obtain ⟨correlation, txnId, hit⟩ := hmade.interaction
    exact ⟨correlation, txnId, _, List.mem_singleton.mp hc ▸ hit⟩

theorem passes_sendFailed {correlation : Correlation} {note : Text}
    (h : w.sendFailed clock config correlation note = .ok w') : Passes w w' := by
  obtain ⟨record, -, h⟩ := Fallible.exists_of_bind h
  rw [← Except.ok.inj h]
  exact ⟨extends_readClock clock w, rfl⟩

theorem passes_sendReturned {correlation : Correlation} {it : Interaction}
    (h : w.sendReturned config correlation it = .ok w') : Passes w w' := by
  obtain ⟨record, -, h⟩ := Fallible.exists_of_bind h
  rw [← Except.ok.inj h]
  exact ⟨.refl _, rfl⟩

/-- The offline loop stamps and counts nothing, and does not reach the wait. -/
theorem passes_attempt (clock : MonotonicClock) (config : RunConfig) (left : ℕ) (w : RunState) :
    Passes w (w.attempt clock config left) ∧ Early (w.attempt clock config left).stage := by
  induction left generalizing w with
  | zero => exact ⟨⟨extends_readClock clock w, rfl⟩, trivial⟩
  | succ left ih =>
    unfold RunState.attempt
    split
    · exact ⟨⟨.refl _, rfl⟩, trivial⟩
    · rename_i correlation hnew
      have hsend := extends_sendOffline clock w.human correlation
      dsimp only
      split
      · rename_i human call heq
        rw [heq] at hsend
        exact ⟨⟨hsend, rfl⟩, trivial⟩
      · rename_i human e heq
        rw [heq] at hsend
        split
        · exact ⟨⟨hsend, rfl⟩, trivial⟩
        · rename_i w' hfailed
          obtain ⟨hrest, hearly⟩ := ih w'
          have hrecorded := passes_sendFailed hfailed
          exact ⟨⟨hsend.trans (hrecorded.human.trans hrest.human),
            hrest.ackCount.trans hrecorded.ackCount⟩, hearly⟩

theorem passes_resume (clock : MonotonicClock) (config : RunConfig) (note : Text)
    (w : RunState) : Passes w (w.resume clock config note) ∧
      ((w.resume clock config note).stage = w.stage ∨
        Early w.stage ∧ Early (w.resume clock config note).stage) := by
  unfold RunState.resume
  split
  · rename_i correlation call left hstage
    have hearly : Early w.stage := hstage ▸ trivial
    split
    · split
      · exact ⟨⟨.refl _, rfl⟩, Or.inr ⟨hearly, trivial⟩⟩
      · rename_i w' hsent
        obtain ⟨hpasses, hstage'⟩ := passes_attempt clock config left w'
        exact ⟨(passes_sendReturned hsent).trans hpasses, Or.inr ⟨hearly, hstage'⟩⟩
    · split
      · exact ⟨⟨.refl _, rfl⟩, Or.inr ⟨hearly, trivial⟩⟩
      · rename_i w' hfailed
        obtain ⟨hpasses, hstage'⟩ := passes_attempt clock config left w'
        exact ⟨(passes_sendFailed hfailed).trans hpasses, Or.inr ⟨hearly, hstage'⟩⟩
    · exact ⟨.refl _, Or.inl rfl⟩
  · exact ⟨.refl _, Or.inl rfl⟩

/-! ### The pending table -/

/-- The pending table leads to every call, in order. -/
def Numbered (s : State) : Prop := s.pending.values = List.range s.calls.length

/-- Looking up every index of a list gives the list. -/
theorem filterMap_range_getElem? {α β : Type*} (f : α → β) (l : List α) :
    ((List.range l.length).filterMap fun i => l[i]?.map f) = l.map f := by
  induction l using List.reverseRecOn with
  | nil => rfl
  | append_singleton l a ih =>
    rw [List.length_append, List.length_singleton, List.range_succ, List.filterMap_append,
      List.map_append]
    congr 1
    · rw [← ih]
      refine List.filterMap_congr fun i hi => ?_
      rw [List.getElem?_append_left (List.mem_range.mp hi)]
    · simp

/-- So the interactions of the run are those of all calls. -/
theorem Numbered.awaited_eq (h : Numbered w.human) (htraced : Traced w) :
    w.awaited = w.human.calls.map Call.interaction := by
  rw [htraced.awaited_eq, h, filterMap_range_getElem?]

theorem numbered_attempt (clock : MonotonicClock) {left : ℕ} (h : Between config w left)
    (hkeys : w.human.pending.keys = w.correlations.map Correlation.key)
    (hnumbered : Numbered w.human) :
    (w.attempt clock config left).stage ≠ .raised →
      Numbered (w.attempt clock config left).human := by
  intro hnot
  rcases attempt_cases clock h with ⟨rfl, hattempt⟩ | ⟨hraised, -⟩ |
    ⟨correlation, token, txnId, rest, rfl, htoken, hrun, hsequence, hattempt⟩
  · rw [hattempt]
    exact hnumbered
  · exact absurd hraised hnot
  · rw [hattempt]
    unfold Numbered
    change (w.human.pending.set correlation.key w.human.calls.length).values =
      List.range (w.human.calls ++ [_]).length
    rw [OrderedDict.values_set_of_notMem (h.notMem_keys hkeys hsequence), hnumbered,
      List.length_append, List.length_singleton, List.range_succ]

theorem numbered_human {human : State} {l : Human.Label} (h : Numbered w.human)
    (hl : l.External) (hstep : Human.step clock w.human l = some human) : Numbered human := by
  obtain ⟨-, hpending, hcalls⟩ := step_external hl hstep
  have hlength : human.calls.length = w.human.calls.length := by
    rcases hcalls with ⟨i, hap, call, call', -, -, -, hset⟩ | ⟨-, hsame⟩
    · rw [hset, List.length_set]
    · rw [hsame]
  rw [Numbered, hpending, hlength]
  exact h

end Own

/-! ## 4.  What one step does -/

/-- **What holds of a run throughout.** -/
structure TimedInv (clock : MonotonicClock) (config : RunConfig) (x : Timed) : Prop where
  inv : Inv config x.1
  trace : TraceInv config x.1
  stamped : ∀ call ∈ x.1.human.calls, Stamped (clock.read x.1.human.reads) call.interaction
  numbered : x.1.stage ≠ .raised → Numbered x.1.human
  early : Early x.1.stage → x.2 = none
  waiting : ∀ d, x.1.stage = .waiting d → x.2 = some d
  late : ¬ Early x.1.stage → config.offlineRequests = 0 ∨ ∃ d, x.2 = some d ∧ 0 ≤ d
  count : Counted x.1.stage → x.1.ackCount ≤ (stamps x.1.human).length

/-- What holds of the stamps and the count exactly as long as every ACK is in time. -/
structure Punctual (x : Timed) : Prop where
  inTime : ∀ t ∈ stamps x.1.human, t ≠ 0 ∧ ∀ d, x.2 = some d → (t : ℚ) ≤ d
  count : Counted x.1.stage → x.1.ackCount = (stamps x.1.human).length

section Steps

variable {clock : MonotonicClock} {config : RunConfig} {w w' : RunState}
  {deadline : Option ℚ} {l : RunState.Label}

/-- **The steps of a run, by what they do to the stamps, the count and the deadline.** -/
inductive Does (clock : MonotonicClock) (w w' : RunState) (l : RunState.Label) : Prop where
  /-- something happens to the participant, or the agent does not start -/
  | event (hlive : w.stage ≠ .returned)
    (hstage : w'.stage = w.stage ∨ Early w.stage ∧ Early w'.stage)
    (hcount : w'.ackCount = w.ackCount)
    (hstamps : (¬ CompletingAck clock w l ∧ stamps w'.human = stamps w.human) ∨
      (CompletingAck clock w l ∧
        (stamps w'.human).Perm (clock.read w.human.reads :: stamps w.human)))
  /-- there is nothing to wait for -/
  | idle (hquiet : ¬ CompletingAck clock w l) (hstage : w.stage = .restarting)
    (hstage' : w'.stage = .settling) (hcount : w'.ackCount = 0) (hawaited : w.awaited = [])
    (hstamps : stamps w'.human = stamps w.human)
  | armed (hquiet : ¬ CompletingAck clock w l) (hstage : w.stage = .restarting)
    (hstage' : w'.stage = .waiting (clock.read w.human.reads + recoveryDeadlineSeconds * 10 ^ 9))
    (hstamps : stamps w'.human = stamps w.human)
  | expired (hquiet : ¬ CompletingAck clock w l) (d : ℚ) (hstage : w.stage = .waiting d)
    (hstage' : w'.stage = .expired) (hstamps : stamps w'.human = stamps w.human)
  | counted (hquiet : ¬ CompletingAck clock w l)
    (hstage : w.stage = .expired ∨ ∃ d, w.stage = .waiting d)
    (hstage' : w'.stage = .settling) (hcount : w'.ackCount = (stamps w'.human).length)
    (hstamps : stamps w'.human = stamps w.human)
  | finished (hquiet : ¬ CompletingAck clock w l) (hstage : w.stage = .settling)
    (hstage' : w'.stage = .returned) (hcount : w'.ackCount = w.ackCount)
    (hstamps : stamps w'.human = stamps w.human)

/-- The wait counts the stamps. -/
theorem countP_awaited (hinv : TimedInv clock config (w, deadline))
    (htraced : Traced w) (hnot : w.stage ≠ .raised) :
    w.awaited.countP Interaction.futureDone = (stamps w.human).length := by
  have hall : ∀ calls : List Call, (∀ call ∈ calls,
      Stamped (clock.read w.human.reads) call.interaction) →
      (calls.map Call.interaction).countP Interaction.futureDone =
        (calls.filterMap fun call => call.interaction.completedMonotonicNs).length := by
    intro calls hstamped
    rw [List.countP_map, List.length_filterMap_eq_countP]
    refine List.countP_congr fun call hcall => ?_
    rw [Function.comp_apply, (hstamped call hcall).done, ← Option.isSome_iff_ne_none]
  rw [(hinv.numbered hnot).awaited_eq htraced, hall _ hinv.stamped]
  rfl

/-- An event of the participant, and what the run makes of it. -/
theorem step_human {label : Human.Label} {note : Text}
    (h : w.step clock config (.human label note) = some w') :
    ∃ human, w.stage ≠ .returned ∧ label.External ∧
      Human.step clock w.human label = some human ∧
      w' = { w with human := human }.resume clock config (RunState.noteOf note label) := by
  unfold RunState.step at h
  split at h
  · cases h
  · cases h
  · cases h
  · cases h
  · rename_i label' note' hrequest hoffline heq hreturned hraised
    obtain ⟨rfl, rfl⟩ := RunState.Label.human.inj heq
    obtain ⟨human, hhuman, h⟩ := Option.bind_eq_some_iff.mp h
    refine ⟨human, hreturned, ?_, hhuman, (Option.some_inj.mp h).symm⟩
    cases label with
    | request => exact absurd rfl (hrequest _ _ _)
    | sendOffline => exact absurd rfl (hoffline _)
    | _ => trivial
  all_goals contradiction

/-- **The stretches of the run's own code**, each in its stage. -/
theorem step_own (hl : ∀ label note, l ≠ .human label note)
    (h : w.step clock config l = some w') :
    (w.stage = .restarting ∧ (w' = w.awaitAcks clock ∨ w' = { w with stage := .raised })) ∨
      (∃ d, w.stage = .waiting d ∧ w' = { (w.readClock clock).2 with stage := .expired }) ∨
      ((w.stage = .expired ∨ ∃ d, w.stage = .waiting d) ∧ w' = w.acksAwaited) ∨
      (w.stage = .settling ∧ w' = w.finish config) := by
  unfold RunState.step at h
  split at h
  · cases h
  · cases h
  · exact absurd rfl (hl _ _)
  · exact absurd rfl (hl _ _)
  · exact absurd rfl (hl _ _)
  · rename_i hstage
    exact Or.inl ⟨hstage, Or.inl (Option.some_inj.mp h).symm⟩
  · rename_i hstage
    exact Or.inl ⟨hstage, Or.inr (Option.some_inj.mp h).symm⟩
  · rename_i d hstage
    dsimp only at h
    split at h
    · exact Or.inr (Or.inl ⟨d, hstage, (Option.some_inj.mp h).symm⟩)
    · cases h
  · rename_i d hstage
    split at h
    · exact Or.inr (Or.inr (Or.inl ⟨Or.inr ⟨d, hstage⟩, (Option.some_inj.mp h).symm⟩))
    · cases h
  · rename_i hstage
    exact Or.inr (Or.inr (Or.inl ⟨Or.inl hstage, (Option.some_inj.mp h).symm⟩))
  · rename_i hstage
    exact Or.inr (Or.inr (Or.inr ⟨hstage, (Option.some_inj.mp h).symm⟩))
  · cases h

/-- In a stage of its own, what is known of the run's loops. -/
theorem TimedInv.between (hinv : TimedInv clock config (w, deadline)) (hidle : Idle w.stage) :
    Between config w 0 ∧ Traced w ∧ w.stage ≠ .raised := by
  have hstages : w.stage ≠ .returned ∧ w.stage ≠ .raised := by
    constructor <;>
    · intro hstage
      rw [hstage] at hidle
      exact hidle
  exact ⟨(inv_iff_between hidle).mp hinv.inv, (traceInv_iff hstages.1 hstages.2).mp hinv.trace,
    hstages.2⟩

/-- A run with nothing to wait for has no stamps. -/
theorem stamps_eq_nil (hinv : TimedInv clock config (w, deadline)) (hidle : Idle w.stage)
    (hnone : w.awaited = []) : stamps w.human = [] := by
  obtain ⟨-, htraced, hraised⟩ := hinv.between hidle
  rw [(hinv.numbered hraised).awaited_eq htraced, List.map_eq_nil_iff] at hnone
  rw [stamps, hnone, List.filterMap_nil]

/-- **Every step is one of these.** -/
theorem does_of_step (hinv : TimedInv clock config (w, deadline))
    (hstep : w.step clock config l = some w') : Does clock w w' l := by
  by_cases hhuman : ∃ label note, l = .human label note
  · obtain ⟨label, note, rfl⟩ := hhuman
    obtain ⟨human, hlive, hl, hhuman, rfl⟩ := step_human hstep
    obtain ⟨-, hstamps⟩ := @stamps_human clock w human label note hl hhuman hinv.stamped
    obtain ⟨hpasses, hstage⟩ := passes_resume clock config (RunState.noteOf note label)
      { w with human := human }
    refine .event hlive hstage hpasses.ackCount ?_
    rw [hpasses.human.stamps_eq]
    exact hstamps
  · have hl : ∀ label note, l ≠ .human label note := fun label note h => hhuman ⟨label, note, h⟩
    have hquiet : ¬ CompletingAck clock w l := by
      cases l with
      | human label note => exact absurd rfl (hl label note)
      | _ => exact id
    rcases step_own hl hstep with ⟨hstage, rfl | rfl⟩ | ⟨d, hstage, rfl⟩ | ⟨hstage, rfl⟩ |
      ⟨hstage, rfl⟩
    · by_cases hnone : w.awaited = []
      · have hidle : w.awaitAcks clock = { w with ackCount := 0, stage := .settling } :=
          if_pos hnone
        rw [hidle]
        exact .idle hquiet hstage rfl rfl hnone rfl
      · have harmed : w.awaitAcks clock = { (w.readClock clock).2 with
            stage := .waiting (clock.read w.human.reads + recoveryDeadlineSeconds * 10 ^ 9) } :=
          if_neg hnone
        rw [harmed]
        exact .armed hquiet hstage rfl rfl
    · refine .event ?_ (Or.inr ⟨hstage ▸ trivial, trivial⟩) rfl (Or.inl ⟨hquiet, rfl⟩)
      rw [hstage]
      exact Stage.noConfusion
    · exact .expired hquiet d hstage rfl rfl
    · have hidle : Idle w.stage := by
        rcases hstage with hstage | ⟨d, hstage⟩ <;> exact hstage ▸ trivial
      obtain ⟨-, htraced, hraised⟩ := hinv.between hidle
      exact .counted hquiet hstage rfl (countP_awaited hinv htraced hraised) rfl
    · obtain ⟨hbetween, -⟩ := hinv.between (hstage ▸ trivial)
      obtain ⟨after, hfinish, -⟩ := finish_eq hbetween
      rw [hfinish]
      exact .finished hquiet hstage rfl rfl rfl

/-! ### What a step keeps -/

/-- The run's own code leaves the calls and the pending table alone. -/
theorem human_own (hl : ∀ label note, l ≠ .human label note)
    (h : w.step clock config l = some w') : w'.human.calls = w.human.calls ∧
      w'.human.pending = w.human.pending ∧ w.human.reads ≤ w'.human.reads := by
  have hfinish : (w.finish config).human = w.human := by
    unfold RunState.finish
    dsimp only
    split <;> rfl
  rcases step_own hl h with ⟨-, rfl | rfl⟩ | ⟨d, -, rfl⟩ | ⟨-, rfl⟩ | ⟨-, rfl⟩
  · unfold RunState.awaitAcks
    split
    · exact ⟨rfl, rfl, le_rfl⟩
    · exact ⟨rfl, rfl, Nat.le_succ _⟩
  · exact ⟨rfl, rfl, le_rfl⟩
  · exact ⟨rfl, rfl, Nat.le_succ _⟩
  · exact ⟨rfl, rfl, le_rfl⟩
  · rw [hfinish]
    exact ⟨rfl, rfl, le_rfl⟩

theorem stamped_step (hinv : TimedInv clock config (w, deadline))
    (hstep : w.step clock config l = some w') :
    ∀ call ∈ w'.human.calls, Stamped (clock.read w'.human.reads) call.interaction := by
  by_cases hhuman : ∃ label note, l = .human label note
  · obtain ⟨label, note, rfl⟩ := hhuman
    obtain ⟨human, -, hl, hhuman, rfl⟩ := step_human hstep
    obtain ⟨hstamped, -⟩ := @stamps_human clock w human label note hl hhuman hinv.stamped
    obtain ⟨hpasses, -⟩ := passes_resume clock config (RunState.noteOf note label)
      { w with human := human }
    exact hpasses.human.stamped hstamped
  · obtain ⟨hcalls, -, hreads⟩ := human_own (fun label note h => hhuman ⟨label, note, h⟩) hstep
    intro call hcall
    rw [hcalls] at hcall
    exact (hinv.stamped call hcall).later (clock.mono hreads)

theorem numbered_step (hinv : TimedInv clock config (w, deadline))
    (hstep : w.step clock config l = some w') (hnot : w'.stage ≠ .raised) :
    Numbered w'.human := by
  by_cases hhuman : ∃ label note, l = .human label note
  · obtain ⟨label, note, rfl⟩ := hhuman
    obtain ⟨human, hlive, hl, hhuman, rfl⟩ := step_human hstep
    obtain ⟨-, hpending, -⟩ := step_external hl hhuman
    by_cases hsending : ∃ correlation call left, w.stage = .sending correlation call left
    · obtain ⟨correlation, call, left, hstage⟩ := hsending
      have hraised : w.stage ≠ .raised := by
        rw [hstage]
        exact Stage.noConfusion
      have hmoved := numbered_human (hinv.numbered hraised) hl hhuman
      have htraced : Traced w := (traceInv_iff hlive hraised).mp hinv.trace
      rcases resume_cases note hstage ((inv_iff_awaiting hstage).mp hinv.inv) hl hhuman
        (RunState.noteOf note label) with ⟨-, -, hresume⟩ |
        ⟨u, r, hresume, hbetween, ⟨hcalls, hkept⟩, hcorrelations, -⟩
      · rw [hresume]
        exact hmoved
      · rw [hresume] at hnot ⊢
        refine numbered_attempt clock hbetween ?_ ?_ hnot
        · rw [hkept, hcorrelations, hpending]
          exact htraced.keys
        · rw [Numbered, hkept, hcalls]
          exact hmoved
    · have hresume : RunState.resume clock config { w with human := human }
          (RunState.noteOf note label) = { w with human := human } :=
        RunState.resume_of_ne_sending
          fun correlation call left hstage => hsending ⟨correlation, call, left, hstage⟩
      rw [hresume] at hnot ⊢
      exact numbered_human (hinv.numbered hnot) hl hhuman
  · have hl : ∀ label note, l ≠ .human label note := fun label note h => hhuman ⟨label, note, h⟩
    obtain ⟨hcalls, hpending, -⟩ := human_own hl hstep
    have hraised : w.stage ≠ .raised := by
      intro hstage
      rcases step_own hl hstep with ⟨h, -⟩ | ⟨d, h, -⟩ | ⟨h | ⟨d, h⟩, -⟩ | ⟨h, -⟩ <;>
      · rw [hstage] at h
        cases h
    rw [Numbered, hcalls, hpending]
    exact hinv.numbered hraised

/-- A run with nothing to wait for makes no requests. -/
theorem offlineRequests_eq_zero (h : Between config w 0) (hnone : w.awaited = []) :
    config.offlineRequests = 0 := by
  obtain ⟨after, -, hnumbers, hreports⟩ := finish_eq h
  rw [hnone, List.forall₂_nil_right_iff] at hreports
  rw [hreports] at hnumbers
  exact (List.range'_eq_nil_iff.mp hnumbers.symm)

theorem noteDeadline_of_ne {d : Option ℚ} (h : ∀ armed, w.stage ≠ .waiting armed) :
    noteDeadline d w = d := by
  unfold noteDeadline
  split
  · rename_i armed hstage
    exact absurd hstage (h armed)
  · rfl

theorem noteDeadline_of_waiting {d : Option ℚ} {armed : ℚ} (h : w.stage = .waiting armed) :
    noteDeadline d w = some armed := by
  unfold noteDeadline
  rw [h]

theorem Early.ne_waiting {stage : Stage} (h : Early stage) (armed : ℚ) :
    stage ≠ .waiting armed := by
  rintro rfl
  exact h

theorem Counted.not_early {stage : Stage} (h : Counted stage) : ¬ Early stage := by
  cases stage <;> first | exact h.elim | exact id

/-- An event arms no deadline. -/
theorem noteDeadline_event (hinv : TimedInv clock config (w, deadline))
    (hstage : w'.stage = w.stage ∨ Early w.stage ∧ Early w'.stage) :
    noteDeadline deadline w' = deadline := by
  by_cases hwaiting : ∃ armed, w'.stage = .waiting armed
  · obtain ⟨armed, harmed⟩ := hwaiting
    rw [noteDeadline_of_waiting harmed]
    rcases hstage with hstage | ⟨-, hearly⟩
    · exact (hinv.waiting armed (hstage ▸ harmed)).symm
    · exact absurd harmed (hearly.ne_waiting armed)
  · exact noteDeadline_of_ne fun armed h => hwaiting ⟨armed, h⟩

/-- **What one step keeps.** -/
theorem timedInv_step {x y : Timed} (hinv : TimedInv clock config x)
    (hstep : timedStep clock config x l = some y) : TimedInv clock config y := by
  obtain ⟨w, deadline⟩ := x
  obtain ⟨w', deadline'⟩ := y
  obtain ⟨hstep, hnote⟩ := carrying_eq_some_iff.mp hstep
  obtain rfl : deadline' = noteDeadline deadline w' := hnote
  change w.step clock config l = some w' at hstep
  have hbase : ∀ deadline' : Option ℚ, (Early w'.stage → deadline' = none) →
      (∀ d, w'.stage = .waiting d → deadline' = some d) →
      (¬ Early w'.stage → config.offlineRequests = 0 ∨ ∃ d, deadline' = some d ∧ 0 ≤ d) →
      (Counted w'.stage → w'.ackCount ≤ (stamps w'.human).length) →
      TimedInv clock config (w', deadline') := fun deadline' hearly hwaiting hlate hcount =>
    { inv := (step_spec hinv.inv hstep).1
      trace := traceInv_step hinv.inv hinv.trace hstep
      stamped := stamped_step hinv hstep
      numbered := numbered_step hinv hstep
      early := hearly
      waiting := hwaiting
      late := hlate
      count := hcount }
  -- after the wait has begun, the deadline stays
  have hlater : ¬ Early w'.stage → (∀ d, w'.stage ≠ .waiting d) →
      (config.offlineRequests = 0 ∨ ∃ d, deadline = some d ∧ 0 ≤ d) →
      (Counted w'.stage → w'.ackCount ≤ (stamps w'.human).length) →
      TimedInv clock config (w', noteDeadline deadline w') := by
    intro hearly hwaiting hlate hcount
    rw [noteDeadline_of_ne hwaiting]
    exact hbase deadline (fun h => absurd h hearly) (fun d h => absurd h (hwaiting d))
      (fun _ => hlate) hcount
  cases does_of_step hinv hstep with
  | event hlive hstage hcount hstamps =>
    rw [noteDeadline_event hinv hstage]
    refine hbase deadline (fun hearly => ?_) (fun d hd => ?_) (fun hlate => ?_) fun hcounted => ?_
    · rcases hstage with hstage | ⟨hearly', -⟩
      · exact hinv.early (hstage ▸ hearly)
      · exact hinv.early hearly'
    · rcases hstage with hstage | ⟨-, hearly⟩
      · exact hinv.waiting d (hstage ▸ hd)
      · exact absurd hd (hearly.ne_waiting d)
    · rcases hstage with hstage | ⟨-, hearly⟩
      · exact hinv.late (hstage ▸ hlate)
      · exact absurd hearly hlate
    · have hbefore : Counted w.stage := by
        rcases hstage with hstage | ⟨-, hearly⟩
        · exact hstage ▸ hcounted
        · exact absurd hearly hcounted.not_early
      rw [hcount]
      refine (hinv.count hbefore).trans ?_
      rcases hstamps with ⟨-, hsame⟩ | ⟨-, hperm⟩
      · rw [hsame]
      · rw [hperm.length_eq]
        exact Nat.le_succ _
  | idle hquiet hstage hstage' hcount hawaited hstamps =>
    have hnone := offlineRequests_eq_zero (hinv.between (hstage ▸ trivial)).1 hawaited
    refine hlater ?_ ?_ (Or.inl hnone) fun _ => ?_
    · rw [hstage']
      exact id
    · rw [hstage']
      exact fun d => Stage.noConfusion
    · rw [hcount]
      exact Nat.zero_le _
  | armed hquiet hstage hstage' hstamps =>
    rw [noteDeadline_of_waiting hstage']
    refine hbase _ (fun hearly => ?_) (fun d hd => ?_) (fun _ => Or.inr ⟨_, rfl, ?_⟩)
      fun hcounted => ?_
    · rw [hstage'] at hearly
      exact hearly.elim
    · rw [hstage'] at hd
      exact congrArg some (Stage.waiting.inj hd)
    · rw [recoveryDeadlineSeconds]
      positivity
    · rw [hstage'] at hcounted
      exact hcounted.elim
  | expired hquiet d hstage hstage' hstamps =>
    refine hlater ?_ ?_ (hinv.late ?_) fun hcounted => ?_
    · rw [hstage']
      exact id
    · rw [hstage']
      exact fun d => Stage.noConfusion
    · rw [hstage]
      exact id
    · rw [hstage'] at hcounted
      exact hcounted.elim
  | counted hquiet hstage hstage' hcount hstamps =>
    refine hlater ?_ ?_ (hinv.late ?_) fun _ => hcount.le
    · rw [hstage']
      exact id
    · rw [hstage']
      exact fun d => Stage.noConfusion
    · rcases hstage with hstage | ⟨d, hstage⟩ <;> rw [hstage] <;> exact id
  | finished hquiet hstage hstage' hcount hstamps =>
    refine hlater ?_ ?_ (hinv.late ?_) fun _ => ?_
    · rw [hstage']
      exact id
    · rw [hstage']
      exact fun d => Stage.noConfusion
    · rw [hstage]
      exact id
    · rw [hcount, hstamps]
      exact hinv.count (hstage ▸ trivial)

/-- **When a step keeps the run punctual**: an ACK that completes an interaction has to be
in time. -/
theorem punctual_step_iff {x y : Timed} (hinv : TimedInv clock config x)
    (hstep : timedStep clock config x l = some y) :
    Punctual y ↔ Punctual x ∧ AckInTime clock x l := by
  obtain ⟨w, deadline⟩ := x
  obtain ⟨w', deadline'⟩ := y
  obtain ⟨hstep, hnote⟩ := carrying_eq_some_iff.mp hstep
  obtain rfl : deadline' = noteDeadline deadline w' := hnote
  change w.step clock config l = some w' at hstep
  -- a step that stamps nothing
  have hquiet : ¬ CompletingAck clock w l → stamps w'.human = stamps w.human →
      noteDeadline deadline w' = deadline →
      ((Counted w'.stage → w'.ackCount = (stamps w'.human).length) ↔
        (Counted w.stage → w.ackCount = (stamps w.human).length)) →
      (Punctual (w', noteDeadline deadline w') ↔
        Punctual (w, deadline) ∧ AckInTime clock (w, deadline) l) := by
    intro hnot hstamps hdeadline hcount
    have hintime : AckInTime clock (w, deadline) l := fun h => absurd h hnot
    rw [and_iff_left hintime, hdeadline]
    constructor
    · exact fun h => ⟨hstamps ▸ h.inTime, hcount.mp h.count⟩
    · exact fun h => ⟨hstamps.symm ▸ h.inTime, hcount.mpr h.count⟩
  cases does_of_step hinv hstep with
  | event hlive hstage hcount hstamps =>
    have hdeadline := noteDeadline_event hinv hstage
    have hcounted : Counted w'.stage ↔ Counted w.stage := by
      rcases hstage with hstage | ⟨hearly, hearly'⟩
      · rw [hstage]
      · exact iff_of_false (fun h => h.not_early hearly') fun h => h.not_early hearly
    rcases hstamps with ⟨hnot, hsame⟩ | ⟨hack, hperm⟩
    · refine hquiet hnot hsame hdeadline ?_
      rw [hcounted, hcount, hsame]
    · have hlength : (stamps w'.human).length = (stamps w.human).length + 1 := hperm.length_eq
      rw [hdeadline]
      constructor
      · rintro ⟨hintime, hcounts⟩
        have hall := hintime
        simp only [hperm.mem_iff, List.mem_cons, forall_eq_or_imp] at hall
        -- what was counted before is too little now
        have hsettling : ¬ Counted w.stage := by
          intro h
          have hmore := hcounts (hcounted.mpr h)
          have hless := hinv.count h
          change w'.ackCount = (stamps w'.human).length at hmore
          change w.ackCount ≤ (stamps w.human).length at hless
          omega
        refine ⟨⟨hall.2, fun h => absurd h hsettling⟩, fun _ => ⟨hall.1.1, ?_, hall.1.2⟩⟩
        exact fun h => hsettling (by rw [h]; trivial)
      · rintro ⟨⟨hintime, hcounts⟩, hack'⟩
        obtain ⟨hzero, hsettling, hbefore⟩ := hack' hack
        refine ⟨fun t ht => ?_, fun h => ?_⟩
        · rcases List.mem_cons.mp (hperm.mem_iff.mp ht) with rfl | ht
          · exact ⟨hzero, hbefore⟩
          · exact hintime t ht
        · have hstages := hcounted.mp h
          unfold Counted at hstages
          split at hstages
          · rename_i h
            exact absurd h hsettling
          · rename_i h
            exact absurd h hlive
          · exact hstages.elim
  | idle hnot hstage hstage' hcount hawaited hstamps =>
    have hnone := stamps_eq_nil hinv (hstage ▸ trivial) hawaited
    refine hquiet hnot hstamps (noteDeadline_of_ne fun d => ?_) ?_
    · rw [hstage']
      exact Stage.noConfusion
    · rw [hstage, hstamps, hnone, hcount]
      exact iff_of_true (fun _ => rfl) fun h => h.elim
  | armed hnot hstage hstage' hstamps =>
    have hintime : AckInTime clock (w, deadline) l := fun h => absurd h hnot
    have hunarmed : deadline = none := hinv.early (by rw [hstage]; trivial)
    rw [and_iff_left hintime, noteDeadline_of_waiting hstage', hunarmed]
    constructor
    · refine fun h => ⟨fun t ht => ⟨(h.inTime t (hstamps.symm ▸ ht)).1, nofun⟩, fun h => ?_⟩
      rw [hstage] at h
      exact h.elim
    · refine fun h => ⟨fun t ht => ⟨(h.inTime t (hstamps ▸ ht)).1, ?_⟩, fun h => ?_⟩
      · -- everything stamped so far is past
        rintro d hd
        obtain ⟨call, hcall, hcompleted⟩ := List.mem_filterMap.mp (hstamps ▸ ht)
        have hpast : t ≤ clock.read w.human.reads := (hinv.stamped call hcall).past t hcompleted
        have hcast : (t : ℚ) ≤ clock.read w.human.reads := by exact_mod_cast hpast
        rw [← Option.some_inj.mp hd, recoveryDeadlineSeconds]
        linarith
      · rw [hstage'] at h
        exact h.elim
  | expired hnot d hstage hstage' hstamps =>
    refine hquiet hnot hstamps (noteDeadline_of_ne fun d => ?_) ?_
    · rw [hstage']
      exact Stage.noConfusion
    · rw [hstage, hstage']
      exact iff_of_true (fun h => h.elim) fun h => h.elim
  | counted hnot hstage hstage' hcount hstamps =>
    refine hquiet hnot hstamps (noteDeadline_of_ne fun d => ?_) (iff_of_true (fun _ => hcount) ?_)
    · rw [hstage']
      exact Stage.noConfusion
    · intro h
      rcases hstage with hstage | ⟨d, hstage⟩ <;>
      · rw [hstage] at h
        exact h.elim
  | finished hnot hstage hstage' hcount hstamps =>
    refine hquiet hnot hstamps (noteDeadline_of_ne fun d => ?_) ?_
    · rw [hstage']
      exact Stage.noConfusion
    · rw [hstage, hstage', hcount, hstamps]
      exact Iff.rfl

end Steps

/-! ## 5.  The records -/

section Records

variable {config : RunConfig} {restartNs : ℕ}

/-- The records decide as the interactions do. -/
theorem forall_reports_iff {after : List RunnerRecord} {its : List Interaction}
    (h : List.Forall₂ (Reports config restartNs) after its) (deadline : Option ℚ) :
    (∀ r ∈ after, (r.outcome = .success ↔ BeforeDeadline deadline r.completedMonotonicNs)) ↔
      ∀ it ∈ its, (isCompleted it = true ↔ BeforeDeadline deadline it.completedMonotonicNs) := by
  induction h with
  | nil => simp
  | @cons r it after its hr _ ih =>
    obtain ⟨-, -, hout, hcompleted, -⟩ := hr.fields
    have hsuccess : r.outcome = .success ↔ isCompleted it = true := by
      rw [hout]
      split
      · exact iff_of_true rfl ‹_›
      · exact iff_of_false nofun ‹_›
    rw [List.forall_mem_cons, List.forall_mem_cons, ih, hsuccess, hcompleted]

/-- The successes are the interactions that completed. -/
theorem countP_reports {after : List RunnerRecord} {its : List Interaction}
    (h : List.Forall₂ (Reports config restartNs) after its) :
    after.countP (fun r => r.runPhase = .postRestart && r.outcome = .success) =
      its.countP isCompleted := by
  induction h with
  | nil => rfl
  | @cons r it after its hr _ ih =>
    obtain ⟨-, hphase, hout, -⟩ := hr.fields
    have hsame : (decide (r.runPhase = .postRestart) && decide (r.outcome = .success)) =
        isCompleted it := by
      rw [hphase, hout]
      cases isCompleted it <;> rfl
    rw [List.countP_cons, List.countP_cons, ih, hsame]

/-- An interaction is decided by the deadline when its stamp is not 0 and not past it. -/
theorem isCompleted_iff_beforeDeadline {d : ℚ} (hd : 0 ≤ d) (it : Interaction) :
    (isCompleted it = true ↔ BeforeDeadline (some d) it.completedMonotonicNs) ↔
      ∀ t, it.completedMonotonicNs = some t → t ≠ 0 ∧ (t : ℚ) ≤ d := by
  unfold isCompleted BeforeDeadline
  cases hcompleted : it.completedMonotonicNs with
  | none => exact iff_of_true (iff_of_false nofun fun ⟨_, _, h, _⟩ => nomatch h) nofun
  | some t =>
    have hany : (some t).any (· != 0) = true ↔ t ≠ 0 := by simp
    have hbefore :
        (∃ t' d', some t = some t' ∧ some d = some d' ∧ (t' : ℚ) ≤ d') ↔ (t : ℚ) ≤ d := by
      constructor
      · rintro ⟨t', d', ht, hd, hle⟩
        obtain rfl := Option.some_inj.mp ht
        obtain rfl := Option.some_inj.mp hd
        exact hle
      · exact fun hle => ⟨t, d, rfl, rfl, hle⟩
    rw [hany, hbefore]
    constructor
    · rintro hiff t' ht
      obtain rfl := Option.some_inj.mp ht
      have hzero : t ≠ 0 := by
        rintro rfl
        exact hiff.mpr (by exact_mod_cast hd) rfl
      exact ⟨hzero, hiff.mp hzero⟩
    · exact fun h => ⟨fun _ => (h t rfl).2, fun _ => (h t rfl).1⟩

/-- Without a stamp of 0, what completed is what was stamped. -/
theorem countP_isCompleted {calls : List Call}
    (h : ∀ t ∈ calls.filterMap (fun call => call.interaction.completedMonotonicNs), t ≠ 0) :
    (calls.map Call.interaction).countP isCompleted =
      (calls.filterMap fun call => call.interaction.completedMonotonicNs).length := by
  rw [List.countP_map, List.length_filterMap_eq_countP]
  refine List.countP_congr fun call hcall => ?_
  rw [Function.comp_apply, isCompleted]
  cases hcompleted : call.interaction.completedMonotonicNs with
  | none => rfl
  | some t =>
    have hzero := h t (List.mem_filterMap.mpr ⟨call, hcall, hcompleted⟩)
    simp [hzero]

/-- **At the end of a run, its verdicts are the deadline's exactly when it was punctual.** -/
theorem decidedByDeadline_iff_punctual {clock : MonotonicClock} {x : Timed}
    (hinv : TimedInv clock config x) (hreturned : x.1.stage = .returned) :
    DecidedByDeadline x ↔ Punctual x := by
  obtain ⟨w, deadline⟩ := x
  have htrace := hinv.trace
  unfold TraceInv at htrace
  rw [hreturned] at htrace
  obtain ⟨u, hbetween, htraced, hfinished⟩ := htrace
  obtain ⟨after, hfinish, hnumbers, hreports⟩ := finish_eq hbetween
  obtain rfl : w = _ := hfinished.trans hfinish
  have hnumbered : Numbered u.human := hinv.numbered Stage.noConfusion
  have hawaited := hnumbered.awaited_eq htraced
  rw [hawaited] at hreports
  have hmoment : config.offlineRequests = 0 ∨ ∃ d, deadline = some d ∧ 0 ≤ d := hinv.late id
  -- the verdicts of the records
  have houtcome : (∀ r ∈ u.records ++ after, r.runPhase = .postRestart →
      (r.outcome = .success ↔ BeforeDeadline deadline r.completedMonotonicNs)) ↔
      ∀ t ∈ stamps u.human, t ≠ 0 ∧ ∀ d, deadline = some d → (t : ℚ) ≤ d := by
    have hafter : (∀ r ∈ u.records ++ after, r.runPhase = .postRestart →
        (r.outcome = .success ↔ BeforeDeadline deadline r.completedMonotonicNs)) ↔
        ∀ r ∈ after, (r.outcome = .success ↔
          BeforeDeadline deadline r.completedMonotonicNs) := by
      refine ⟨fun h r hr => h r (List.mem_append_right _ hr)
        (postRestart_of_reports hreports r hr).runPhase, fun h r hr hphase => ?_⟩
      rcases List.mem_append.mp hr with hr | hr
      · rw [(hbetween.offline r hr).runPhase] at hphase
        cases hphase
      · exact h r hr
    rw [hafter, forall_reports_iff hreports]
    rcases hmoment with hnone | ⟨d, rfl, hd⟩
    · have hempty : u.human.calls = [] := by
        have hlength := congrArg List.length hnumbers
        rw [List.length_map, List.length_range', hnone, hreports.length_eq,
          List.length_map] at hlength
        exact List.eq_nil_of_length_eq_zero hlength
      rw [stamps, hempty]
      simp
    · simp only [List.forall_mem_map, isCompleted_iff_beforeDeadline hd, stamps,
        List.mem_filterMap, Option.some.injEq, forall_eq', forall_exists_index, and_imp]
      exact ⟨fun h t call hcall ht => h call hcall t ht, fun h call hcall t ht => h t call hcall ht⟩
  -- the number of successes
  have hcountP : (u.records ++ after).countP
      (fun r => r.runPhase = .postRestart && r.outcome = .success) =
      (u.human.calls.map Call.interaction).countP isCompleted := by
    have hoffline : u.records.countP
        (fun r => r.runPhase = .postRestart && r.outcome = .success) = 0 := by
      refine List.countP_eq_zero.mpr fun r hr => ?_
      rw [(hbetween.offline r hr).runPhase]
      exact Bool.false_ne_true
    rw [List.countP_append, hoffline, Nat.zero_add, countP_reports hreports]
  have hcount : (∀ t ∈ stamps u.human, t ≠ 0) →
      ((u.human.calls.map Call.interaction).countP isCompleted = (stamps u.human).length) :=
    countP_isCompleted
  constructor
  · rintro ⟨hout, hsuccesses⟩
    have hstamps := houtcome.mp hout
    refine ⟨hstamps, fun _ => ?_⟩
    exact hsuccesses.symm.trans (hcountP.trans (hcount fun t ht => (hstamps t ht).1))
  · rintro ⟨hstamps, hcounted⟩
    refine ⟨houtcome.mpr hstamps, ?_⟩
    exact hcountP.trans ((hcount fun t ht => (hstamps t ht).1).trans (hcounted trivial).symm)

end Records

/-! ## 6.  Whole runs -/

theorem timedInv_start (clock : MonotonicClock) (config : RunConfig) :
    TimedInv clock config (timedStart clock config) := by
  have htraced : Traced (RunState.initial config) := ⟨rfl, rfl⟩
  obtain ⟨hpasses, hearly⟩ :=
    passes_attempt clock config config.offlineRequests (RunState.initial config)
  exact
    { inv := (inv_start clock config).1
      trace := traced_attempt clock (between_start config) htraced
      stamped := hpasses.human.stamped fun _ h => absurd h List.not_mem_nil
      numbered := numbered_attempt clock (between_start config) htraced.keys rfl
      early := fun _ => rfl
      waiting := fun d h => absurd h (hearly.ne_waiting d)
      late := fun h => absurd hearly h
      count := fun h => absurd hearly h.not_early }

theorem punctual_start (clock : MonotonicClock) (config : RunConfig) :
    Punctual (timedStart clock config) := by
  obtain ⟨hpasses, hearly⟩ :=
    passes_attempt clock config config.offlineRequests (RunState.initial config)
  refine ⟨fun t ht => ?_, fun h => absurd hearly h.not_early⟩
  have hnone : stamps (RunState.start clock config).human = [] := hpasses.human.stamps_eq
  exact absurd (hnone ▸ ht) List.not_mem_nil

/-- **The recovery run decides by its deadline exactly when every ACK is in time**: when
each ACK that completes an interaction comes before `await_acks` has returned and no later
than its deadline, by a clock that does not read 0. -/
theorem decidedByDeadline_iff (clock : MonotonicClock) (config : RunConfig)
    (labels : List RunState.Label) (x : Timed)
    (hrun : exec (timedStep clock config) (timedStart clock config) labels = some x)
    (hreturned : x.1.stage = .returned) :
    DecidedByDeadline x ↔
      StepsMeet (timedStep clock config) (timedStart clock config) labels (AckInTime clock) := by
  have hstart := timedInv_start clock config
  have hend : TimedInv clock config x := invariant_of_exec (TimedInv clock config)
    (fun _ _ _ hu hstep => timedInv_step hu hstep) hstart hrun
  rw [decidedByDeadline_iff_punctual hend hreturned,
    final_iff_stepsMeet (TimedInv clock config) Punctual
      (fun _ _ _ hu hstep => timedInv_step hu hstep)
      (fun _ _ _ hu hstep => punctual_step_iff hu hstep) hstart hrun]
  exact and_iff_right (punctual_start clock config)

/-- The ACK comes while the run sleeps, after a wait that timed out. -/
def answeredInSleep : List RunState.Label :=
  [.human (.sendReturned 0 ['$', 'q']) [], .agentStarted, .timerFires, .acksReturn,
    .human (.deliver { sampleAck ['$', 'a'] with body := "FAM/1 ACK E2 r 1".toList } none) [],
    .slept]

/-- **A success that was not counted, past the deadline**, by a clock that runs three
minutes between readings. -/
theorem answeredInSleep_not_decided :
    ∃ x, exec (timedStep (steadyClock (180 * 10 ^ 9)) oneRequest)
        (timedStart (steadyClock (180 * 10 ^ 9)) oneRequest) answeredInSleep = some x ∧
      x.1.stage = .returned ∧ x.1.ackCount = 0 ∧
      (∃ r ∈ x.1.records, r.runPhase = .postRestart ∧ r.outcome = .success ∧
        ¬ BeforeDeadline x.2 r.completedMonotonicNs) ∧
      ¬ DecidedByDeadline x := by
  have hend : (exec (timedStep (steadyClock (180 * 10 ^ 9)) oneRequest)
      (timedStart (steadyClock (180 * 10 ^ 9)) oneRequest) answeredInSleep).map (fun x =>
        (x.1.stage, x.1.records.map fun r =>
          (r.runPhase, r.outcome, r.completedMonotonicNs))) =
      some (.returned, [(.offline, .offlineSend, none),
        (.postRestart, .success, some (1080 * 10 ^ 9))]) := by decide +kernel
  have harmed : (exec (timedStep (steadyClock (180 * 10 ^ 9)) oneRequest)
      (timedStart (steadyClock (180 * 10 ^ 9)) oneRequest) answeredInSleep).map (fun x =>
        (x.1.ackCount, x.2)) = some (0, some (900 * 10 ^ 9)) := by decide +kernel
  obtain ⟨x, hx, hfacts⟩ := Option.map_eq_some_iff.mp hend
  obtain ⟨hstage, hrecords⟩ := Prod.mk.inj hfacts
  rw [hx] at harmed
  obtain ⟨hcount, hdeadline⟩ := Prod.mk.inj (Option.some_inj.mp harmed)
  have hmem : (RunPhase.postRestart, InteractionOutcome.success, some (1080 * 10 ^ 9)) ∈
      x.1.records.map fun r => (r.runPhase, r.outcome, r.completedMonotonicNs) := by
    rw [hrecords]
    exact List.mem_cons_of_mem _ List.mem_cons_self
  obtain ⟨r, hr, heq⟩ := List.mem_map.mp hmem
  obtain ⟨hphase, heq⟩ := Prod.mk.inj heq
  obtain ⟨hout, hcompleted⟩ := Prod.mk.inj heq
  have hlate : ¬ BeforeDeadline x.2 r.completedMonotonicNs := by
    rintro ⟨t, d, ht, hd, hle⟩
    rw [hcompleted] at ht
    rw [hdeadline] at hd
    rw [← Option.some_inj.mp ht, ← Option.some_inj.mp hd] at hle
    norm_num at hle
  exact ⟨x, hx, hstage, hcount, ⟨r, hr, hphase, hout, hlate⟩,
    fun h => hlate ((h.outcome r hr hphase).mp hout)⟩

/-- A request that is answered while the run waits for it. -/
theorem acceptedSend_decided_iff :
    ∃ x, exec (timedStep (steadyClock 1) oneRequest) (timedStart (steadyClock 1) oneRequest)
        acceptedSend = some x ∧
      (DecidedByDeadline x ↔ StepsMeet (timedStep (steadyClock 1) oneRequest)
        (timedStart (steadyClock 1) oneRequest) acceptedSend (AckInTime (steadyClock 1))) := by
  have hend : (exec (timedStep (steadyClock 1) oneRequest) (timedStart (steadyClock 1) oneRequest)
      acceptedSend).map (fun x => x.1.stage) = some .returned := by decide +kernel
  obtain ⟨x, hx, hstage⟩ := Option.map_eq_some_iff.mp hend
  exact ⟨x, hx, decidedByDeadline_iff (steadyClock 1) oneRequest acceptedSend x hx hstage⟩

end OfflineRecovery
end FederatedMessaging
