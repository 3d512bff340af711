import FederatedMessaging.Participants.Human

/-!
# Successes and their deadlines

The timeout of a request bounds the whole interaction, from T0.  The task enforces it
by a budget check after the send and by a timer; the callback, which is what makes an
interaction a success, compares nothing with the deadline.  Between the moment the
deadline passes and the moment the task records the timeout --- while the send is still
in progress, or while a timer is due and has not run --- an ACK is accepted as if it
were in time.

`WithinDeadline` is the bound for one call, in exact arithmetic.  `withinDeadline_iff`
says in which runs every success meets it: those in which no callback reads the clock
past the deadline of an interaction that is still open.
-/

namespace FederatedMessaging
namespace Human

open PythonText Message LabelledRuns

/-- Nothing has been recorded of how the interaction ended. -/
def Interaction.StillOpen (it : Interaction) : Prop :=
  it.ackEventIds = [] ∧ it.timedOut = false ∧ it.sendErrcode = []

/-- Clock reading `t` is at most `timeout` seconds after T0. -/
def Interaction.InTime (it : Interaction) (timeout : ℚ) (t : ℕ) : Prop :=
  ((t : ℚ) - it.initiatedMonotonicNs) / 10 ^ 9 ≤ timeout

/-- **A success completed between T0 and the deadline.** -/
def WithinDeadline (call : Call) : Prop :=
  outcomeOf call.interaction = .success → ∀ timeout, call.timeout = some timeout →
    ∃ t, call.interaction.completedMonotonicNs = some t ∧
      call.interaction.initiatedMonotonicNs ≤ t ∧ call.interaction.InTime timeout t

/-- What may happen to a call that keeps its deadline: while it is open, an ACK of it is
stamped in time. -/
def AnsweredInTime (call : Call) : Happening → Prop
  | .acknowledged _ t3 _ => call.interaction.StillOpen → ∀ timeout, call.timeout = some timeout →
      call.interaction.InTime timeout t3
  | _ => True

/-- T0 is in the past. -/
def Begun (now : ℕ) (call : Call) : Prop := call.interaction.initiatedMonotonicNs ≤ now

theorem outcomeOf_congr {it it' : Interaction} (herr : it'.sendErrcode = it.sendErrcode)
    (htimed : it'.timedOut = it.timedOut)
    (hcomplete : it'.completedMonotonicNs = it.completedMonotonicNs) :
    outcomeOf it' = outcomeOf it := by
  rw [outcomeOf, outcomeOf, herr, htimed, hcomplete]

theorem outcomeOf_ne_success_of_timedOut {it : Interaction} (h : it.timedOut = true) :
    outcomeOf it ≠ .success := by
  unfold outcomeOf
  split_ifs with herr hout
  · exact fun h => by cases h
  · exact fun h => by cases h
  · exact absurd (Or.inl h) hout

theorem outcomeOf_ne_success_of_sendErrcode {it : Interaction} (h : it.sendErrcode ≠ []) :
    outcomeOf it ≠ .success := by
  rw [outcomeOf, if_pos h]
  exact fun h => by cases h

theorem Call.Fresh.withinDeadline {call : Call} {t : ℕ} (h : call.Fresh t) :
    Begun t call ∧ WithinDeadline call := by
  obtain ⟨⟨correlation, txnId, hit⟩, -⟩ := h
  rw [Begun, WithinDeadline, hit]
  exact ⟨le_rfl, fun hsuccess => by cases hsuccess⟩

theorem begun_after {now : ℕ} {call call' : Call} {h : Happening} (hinv : Begun now call)
    (hafter : call.after h = some call') : Begun now call' := by
  cases becomes_of_after hafter with
  | acknowledged e t3 episode =>
    rw [Begun, observeAck_initiated]
    exact hinv
  | _ => exact hinv

/-- A stretch of code that leaves the three fields of the outcome alone, and T0 and the
completion time, keeps the deadline. -/
theorem WithinDeadline.of_eq {call call' : Call} (hgood : WithinDeadline call)
    (htimeout : call'.timeout = call.timeout)
    (hinitiated : call'.interaction.initiatedMonotonicNs =
      call.interaction.initiatedMonotonicNs)
    (herr : call'.interaction.sendErrcode = call.interaction.sendErrcode)
    (htimed : call'.interaction.timedOut = call.interaction.timedOut)
    (hcomplete : call'.interaction.completedMonotonicNs =
      call.interaction.completedMonotonicNs) : WithinDeadline call' := by
  unfold WithinDeadline Interaction.InTime
  rw [outcomeOf_congr herr htimed hcomplete, htimeout, hcomplete, hinitiated]
  exact hgood

/-- **One stretch of code keeps the deadline exactly when it accepts no late ACK.** -/
theorem withinDeadline_after_iff {now : ℕ} {call call' : Call} {h : Happening}
    (hinv : Begun now call) (hlater : h.NotBefore now) (hgood : WithinDeadline call)
    (hafter : call.after h = some call') : WithinDeadline call' ↔ AnsweredInTime call h := by
  cases becomes_of_after hafter with
  | acknowledged e t3 episode =>
    by_cases haccepts : call.interaction.Accepts e
    · by_cases herr : call.interaction.sendErrcode = []
      · -- the callback makes a success
        have hopen : call.interaction.StillOpen := ⟨haccepts.2.2, haccepts.2.1, herr⟩
        have hsuccess : outcomeOf (call.interaction.observeAck e t3 episode) = .success := by
          rw [observeAck_of_accepts haccepts, outcomeOf, if_neg (not_not.mpr herr), if_neg]
          simp [haccepts.2.1]
        constructor
        · intro hwithin _ timeout htimeout
          obtain ⟨t, ht, -, hintime⟩ := hwithin hsuccess timeout htimeout
          rw [observeAck_of_accepts haccepts] at ht
          obtain rfl := Option.some_inj.mp ht
          rwa [Interaction.InTime, observeAck_initiated] at hintime
        · intro hmeet _ timeout htimeout
          refine ⟨t3, by rw [observeAck_of_accepts haccepts], ?_, ?_⟩
          · rw [observeAck_initiated]
            exact hinv.trans hlater
          · rw [Interaction.InTime, observeAck_initiated]
            exact hmeet hopen timeout htimeout
      · -- the send was rejected before
        refine iff_of_true (fun hsuccess => ?_) fun hopen => absurd hopen.2.2 herr
        exact absurd hsuccess
          (outcomeOf_ne_success_of_sendErrcode (by rwa [observeAck_sendErrcode]))
    · refine iff_of_true (hgood.of_eq rfl observeAck_initiated observeAck_sendErrcode
        observeAck_timedOut (observeAck_completed haccepts)) fun hopen => ?_
      exact absurd ⟨by rw [hopen.1]; exact List.not_mem_nil, hopen.2.1, hopen.1⟩ haccepts
  | exhausted =>
    exact iff_of_true (fun hsuccess => absurd hsuccess (outcomeOf_ne_success_of_timedOut rfl))
      trivial
  | rejected errcode message hphase =>
    exact iff_of_true (fun hsuccess => absurd hsuccess
      (outcomeOf_ne_success_of_sendErrcode (errcodeOf_ne_nil errcode))) trivial
  | expired =>
    exact iff_of_true (fun hsuccess => absurd hsuccess (outcomeOf_ne_success_of_timedOut rfl))
      trivial
  | _ => exact iff_of_true (hgood.of_eq rfl rfl rfl rfl rfl) trivial

/-- **Exactly the runs in which no success outlives its deadline.**  For every clock,
timeout and order of sends, callbacks and timers: in every state every success of a
`request` completed between T0 and T0 plus the timeout if and only if no callback for
an ACK of an open interaction reads the clock later than that. -/
theorem withinDeadline_iff {clock : MonotonicClock} {roomId : Option Text} {labels : List Label}
    {t : State} (hrun : exec (step clock) (State.initial roomId) labels = some t) :
    Always (step clock) (State.initial roomId) labels
        (fun s => ∀ call ∈ s.calls, WithinDeadline call) ↔
      StepsMeet (step clock) (State.initial roomId) labels (Respects clock AnsweredInTime) :=
  always_calls_iff Begun (fun _ _ _ hle hinv => le_trans hinv hle)
    (fun _ _ hfresh => hfresh.withinDeadline)
    (fun _ _ _ _ hinv _ hafter => begun_after hinv hafter)
    (fun _ _ _ _ hinv hlater hgood hafter => withinDeadline_after_iff hinv hlater hgood hafter)
    hrun

/-! ## A success after its deadline -/

/-- A request whose send returns at once, an ACK, and the return of the request. -/
def lateAnswer : List Label :=
  [.request sampleCorrelation none 10, .sendReturned 0 ['$', 'q'],
    .deliver (sampleAck ['$', 'a']) none, .resume 0]

/-- **A success twelve seconds after T0, with a timeout of ten.**  The budget is read
four seconds after T0 and the timer is armed at the next reading; the ACK is stamped
before that timer is due, and the request returns it as a success. -/
theorem lateAnswer_not_withinDeadline :
    ((exec (step (steadyClock 4000000000)) (State.initial (some ['!', 'r'])) lateAnswer).map
      fun s => s.calls.map fun call => (call.interaction.initiatedMonotonicNs,
        call.interaction.completedMonotonicNs, outcomeOf call.interaction, call.phase)) =
      some [(4000000000, some 16000000000, .success, .returned)] ∧
    ¬ Always (step (steadyClock 4000000000)) (State.initial (some ['!', 'r'])) lateAnswer
      fun s => ∀ call ∈ s.calls, WithinDeadline call := by
  have hend : ((exec (step (steadyClock 4000000000)) (State.initial (some ['!', 'r']))
      lateAnswer).map fun s => s.calls.map fun call => (call.interaction.initiatedMonotonicNs,
        call.interaction.completedMonotonicNs, outcomeOf call.interaction, call.phase)) =
      some [(4000000000, some 16000000000, .success, .returned)] := by decide +kernel
  have htimeouts : ((exec (step (steadyClock 4000000000)) (State.initial (some ['!', 'r']))
      lateAnswer).map fun s => s.calls.map Call.timeout) = some [some 10] := by decide +kernel
  refine ⟨hend, fun halways => ?_⟩
  obtain ⟨s, hs, hcalls⟩ := Option.map_eq_some_iff.mp hend
  rw [hs] at htimeouts
  have htimeouts : s.calls.map Call.timeout = [some 10] := Option.some_inj.mp htimeouts
  obtain ⟨call, hcall⟩ : ∃ call, s.calls = [call] := by
    rw [← List.length_eq_one_iff, ← List.length_map, hcalls]
    rfl
  rw [hcall] at hcalls htimeouts
  obtain ⟨hinitiated, hrest⟩ := Prod.mk.inj (List.cons.inj hcalls).1
  obtain ⟨hcomplete, hrest⟩ := Prod.mk.inj hrest
  have hgood := halways lateAnswer s (List.prefix_refl _) hs call (hcall ▸ List.mem_cons_self)
  obtain ⟨t, ht, -, hintime⟩ := hgood (Prod.mk.inj hrest).1 10 (List.cons.inj htimeouts).1
  rw [hcomplete] at ht
  rw [Interaction.InTime, hinitiated, ← Option.some_inj.mp ht] at hintime
  norm_num at hintime

/-- The exact condition at the same request, with prompt clock readings. -/
theorem promptAnswer_withinDeadline_iff :
    Always (step (steadyClock 1)) (State.initial (some ['!', 'r'])) lateAnswer
        (fun s => ∀ call ∈ s.calls, WithinDeadline call) ↔
      StepsMeet (step (steadyClock 1)) (State.initial (some ['!', 'r'])) lateAnswer
        (Respects (steadyClock 1) AnsweredInTime) :=
  withinDeadline_iff (Option.some_get (by decide +kernel)).symm

end Human
end FederatedMessaging
