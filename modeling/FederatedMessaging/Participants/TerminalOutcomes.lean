import FederatedMessaging.Participants.Human

/-!
# When terminal outcomes stay fixed

An interaction ends at its first ACK or at its timeout, and what it ended as is not to
change afterwards.  The outcome is computed from three fields, and three stretches of
code write them: the callback sets the completion time without looking at the send
error, and the task sets the send error, or the timeout, without looking at the
completion time.

`OutcomesFixed` is the property over a whole run: between any two of its states.  It
amounts to a property of each state (`OutcomeSettled`), since completion times and
timeouts are never unset, and that property is broken by the steps in which one writer
comes second --- `SettlesOnce` excludes them.  `outcomesFixed_iff` says that these are
the only ones: outcomes stay fixed along a run exactly when each of its steps settles
an interaction at most once.
-/

namespace FederatedMessaging
namespace Human

open PythonText Message LabelledRuns

/-! ## The property of a state -/

/-- The first ACK has been accepted and the deadline has not passed. -/
def Interaction.Accepted (it : Interaction) : Prop :=
  it.completedMonotonicNs ≠ none ∧ it.timedOut = false

/-- The record agrees with how the interaction ended. -/
structure OutcomeSettled (it : Interaction) : Prop where
  success : it.completedMonotonicNs ≠ none → outcomeOf it = .success
  timeout : it.timedOut = true → outcomeOf it = .timeout

theorem outcomeOf_eq_success_iff {it : Interaction} :
    outcomeOf it = .success ↔
      it.sendErrcode = [] ∧ it.timedOut = false ∧ it.completedMonotonicNs ≠ none := by
  unfold outcomeOf
  split_ifs with herr hout
  · simp [herr]
  · simp only [false_iff, not_and, not_not]
    intro _ htimed
    exact hout.resolve_left (by simp [htimed])
  · rw [not_or] at hout
    exact ⟨fun _ => ⟨by simpa using herr, by simpa using hout.1, hout.2⟩, fun _ => rfl⟩

theorem outcomeOf_of_timedOut {it : Interaction} (herr : it.sendErrcode = [])
    (htimed : it.timedOut = true) : outcomeOf it = .timeout := by
  rw [outcomeOf, if_neg (not_not.mpr herr), if_pos (Or.inl htimed)]

theorem outcomeSettled_iff {it : Interaction} :
    OutcomeSettled it ↔
      (it.completedMonotonicNs ≠ none → it.sendErrcode = [] ∧ it.timedOut = false) ∧
        (it.timedOut = true → it.sendErrcode = []) := by
  constructor
  · rintro ⟨hsuccess, htimeout⟩
    refine ⟨fun hcomplete => ?_, fun htimed => ?_⟩
    · obtain ⟨herr, htimed, -⟩ := outcomeOf_eq_success_iff.mp (hsuccess hcomplete)
      exact ⟨herr, htimed⟩
    · by_contra herr
      have hnot := htimeout htimed
      rw [outcomeOf, if_pos herr] at hnot
      cases hnot
  · rintro ⟨hcomplete, htimed⟩
    refine ⟨fun h => outcomeOf_eq_success_iff.mpr ⟨(hcomplete h).1, (hcomplete h).2, h⟩,
      fun h => outcomeOf_of_timedOut (htimed h) h⟩

/-! ## The condition on a step -/

/-- What may happen to a call that keeps its outcome: it is not completed after its send
was rejected, and once completed neither rejected nor timed out. -/
def SettlesOnce (call : Call) : Happening → Prop
  | .acknowledged e _ _ => call.interaction.Accepts e → call.interaction.sendErrcode = []
  | .sent _ now _ => ∀ timeout, call.phase = .sending → call.timeout = some timeout →
      remaining timeout call.interaction now ≤ 0 → call.interaction.completedMonotonicNs = none
  | .rejected _ _ => call.phase = .sending → call.interaction.completedMonotonicNs = none
  | .resumed => call.phase = .expired → call.interaction.completedMonotonicNs = none
  | .sendRaised => True
  | .timerFired _ => True

/-- While its task is inside `request`, a call is neither rejected nor timed out. -/
def Unsettled (_ : ℕ) (call : Call) : Prop :=
  call.phase.running = true → call.interaction.sendErrcode = [] ∧ call.interaction.timedOut = false

theorem Call.Fresh.unsettled {call : Call} {t : ℕ} (h : call.Fresh t) : Unsettled t call := by
  obtain ⟨⟨correlation, txnId, hit⟩, -⟩ := h
  intro _
  rw [hit]
  exact ⟨rfl, rfl⟩

theorem Call.Fresh.outcomeSettled {call : Call} {t : ℕ} (h : call.Fresh t) :
    OutcomeSettled call.interaction := by
  obtain ⟨⟨correlation, txnId, hit⟩, -⟩ := h
  rw [hit, outcomeSettled_iff]
  exact ⟨fun hne => absurd rfl hne, fun htimed => absurd htimed Bool.false_ne_true⟩

theorem unsettled_after {now : ℕ} {call call' : Call} {h : Happening} (hinv : Unsettled now call)
    (hafter : call.after h = some call') : Unsettled now call' := by
  cases becomes_of_after hafter with
  | acknowledged e t3 episode =>
    intro hrunning
    rw [observeAck_sendErrcode, observeAck_timedOut]
    exact hinv hrunning
  | sent e now armed timeout phase hphase =>
    intro _
    exact hinv (by rw [hphase]; rfl)
  | timerFired now deadline hphase =>
    intro _
    exact hinv (by rw [hphase]; rfl)
  | _ => exact fun hrunning => absurd hrunning Bool.false_ne_true

/-- **One stretch of code keeps the outcome exactly when it settles the call at most
once.** -/
theorem outcomeSettled_after_iff {now : ℕ} {call call' : Call} {h : Happening}
    (hinv : Unsettled now call) (hgood : OutcomeSettled call.interaction)
    (hafter : call.after h = some call') :
    OutcomeSettled call'.interaction ↔ SettlesOnce call h := by
  have hgood' := outcomeSettled_iff.mp hgood
  cases becomes_of_after hafter with
  | acknowledged e t3 episode =>
    by_cases haccepts : call.interaction.Accepts e
    · rw [outcomeSettled_iff, observeAck_of_accepts haccepts]
      simp only [SettlesOnce, haccepts.2.1, haccepts]
      simp
    · rw [outcomeSettled_iff, observeAck_completed haccepts, observeAck_sendErrcode,
        observeAck_timedOut]
      exact iff_of_true hgood' fun h => absurd h haccepts
  | exhausted e now armed timeout hphase htimeout hnone =>
    have hrunning := hinv (by rw [hphase]; rfl)
    rw [outcomeSettled_iff]
    constructor
    · intro hsettled timeout' _ _ _
      by_contra hcomplete
      exact absurd (hsettled.1 hcomplete).2 (by simp)
    · intro hmeet
      exact ⟨fun hcomplete => absurd (hmeet timeout hphase htimeout hnone) hcomplete,
        fun _ => hrunning.1⟩
  | sent e now armed timeout phase hphase htimeout hsome =>
    rw [outcomeSettled_iff]
    refine iff_of_true hgood' fun timeout' _ htimeout' hnone => ?_
    obtain rfl := Option.some_inj.mp (htimeout.symm.trans htimeout')
    exact absurd hnone hsome
  | sentOffline e now armed hphase =>
    rw [outcomeSettled_iff]
    refine iff_of_true hgood' fun timeout hsending => ?_
    rw [hphase] at hsending
    cases hsending
  | rejected errcode message hphase =>
    have hrunning := hinv (by rw [hphase]; rfl)
    rw [outcomeSettled_iff]
    constructor
    · intro hsettled _
      by_contra hcomplete
      exact errcodeOf_ne_nil errcode (hsettled.1 hcomplete).1
    · intro hmeet
      refine ⟨fun hcomplete => absurd (hmeet hphase) hcomplete, fun htimed => ?_⟩
      rw [hrunning.2] at htimed
      cases htimed
  | rejectedOffline errcode message hphase =>
    refine iff_of_true hgood fun hsending => ?_
    rw [hphase] at hsending
    cases hsending
  | sendRaised => exact iff_of_true hgood trivial
  | timerFired now deadline hphase => exact iff_of_true hgood trivial
  | answered deadline hphase hdone =>
    refine iff_of_true hgood fun hexpired => ?_
    rw [hphase] at hexpired
    cases hexpired
  | expired hphase =>
    have hrunning := hinv (by rw [hphase]; rfl)
    rw [outcomeSettled_iff]
    constructor
    · intro hsettled _
      by_contra hcomplete
      exact absurd (hsettled.1 hcomplete).2 (by simp)
    · intro hmeet
      exact ⟨fun hcomplete => absurd (hmeet hphase) hcomplete, fun _ => hrunning.1⟩

/-! ## Whole runs -/

/-- Completion times and timeouts are never unset. -/
def Remembers (s s' : State) : Prop :=
  ∀ (i : ℕ) (call : Call), s.calls[i]? = some call → ∃ call' : Call, s'.calls[i]? = some call' ∧
    (call.interaction.completedMonotonicNs ≠ none → call'.interaction.completedMonotonicNs ≠ none) ∧
    (call.interaction.timedOut = true → call'.interaction.timedOut = true)

theorem remembers_after {call call' : Call} {h : Happening} (hafter : call.after h = some call') :
    (call.interaction.completedMonotonicNs ≠ none → call'.interaction.completedMonotonicNs ≠ none) ∧
      (call.interaction.timedOut = true → call'.interaction.timedOut = true) := by
  cases becomes_of_after hafter with
  | acknowledged e t3 episode =>
    rw [observeAck_timedOut]
    refine ⟨fun hcomplete => ?_, id⟩
    by_cases haccepts : call.interaction.Accepts e
    · rw [observeAck_of_accepts haccepts]
      exact Option.some_ne_none t3
    · rwa [observeAck_completed haccepts]
  | exhausted => exact ⟨id, fun _ => rfl⟩
  | expired => exact ⟨id, fun _ => rfl⟩
  | _ => exact ⟨id, id⟩

theorem remembers_step {clock : MonotonicClock} {s s' : State} {l : Label}
    (h : step clock s l = some s') : Remembers s s' := by
  intro i call hcall
  obtain ⟨-, ⟨j, happening, c, c', -, hc, hc', hset⟩ | ⟨-, hsame | ⟨fresh, k, happend, -⟩⟩⟩ :=
    step_cases h
  · by_cases hij : j = i
    · subst hij
      obtain rfl := Option.some_inj.mp (hcall.symm.trans hc)
      have hlt : j < s.calls.length := (List.getElem?_eq_some_iff.mp hcall).1
      exact ⟨c', by rw [hset, List.getElem?_set_self hlt], remembers_after hc'⟩
    · exact ⟨call, by rw [hset, List.getElem?_set_ne hij, hcall], id, id⟩
  · exact ⟨call, by rw [hsame, hcall], id, id⟩
  · have hlt : i < s.calls.length := (List.getElem?_eq_some_iff.mp hcall).1
    exact ⟨call, by rw [happend, List.getElem?_append_left hlt, hcall], id, id⟩

theorem remembers_exec {clock : MonotonicClock} {s t : State} {labels : List Label}
    (hrun : exec (step clock) s labels = some t) : Remembers s t := by
  refine related_of_exec (R := Remembers) (fun s i call hcall => ⟨call, hcall, id, id⟩) ?_
    (fun s l s' => remembers_step) hrun
  intro s t u hst htu i call hcall
  obtain ⟨c, hc, hcomplete, htimed⟩ := hst i call hcall
  obtain ⟨c', hc', hcomplete', htimed'⟩ := htu i c hc
  exact ⟨c', hc', hcomplete' ∘ hcomplete, htimed' ∘ htimed⟩

/-- **Terminal outcomes never change** along a run: in any state after one in which an
interaction was accepted it is a success, after one in which it timed out it is a
timeout, and in no state is it both completed and timed out. -/
def OutcomesFixed (clock : MonotonicClock) (start : State) (labels : List Label) : Prop :=
  ∀ (front back : List Label) (s s' : State) (i : ℕ) (call call' : Call),
    front ++ back <+: labels → exec (step clock) start front = some s →
    exec (step clock) s back = some s' → s.calls[i]? = some call → s'.calls[i]? = some call' →
      (call.interaction.Accepted → outcomeOf call'.interaction = .success) ∧
      (call.interaction.timedOut = true → outcomeOf call'.interaction = .timeout) ∧
      ¬ (call'.interaction.completedMonotonicNs ≠ none ∧ call'.interaction.timedOut = true)

theorem outcomesFixed_iff_always {clock : MonotonicClock} {start : State} {labels : List Label} :
    OutcomesFixed clock start labels ↔ Always (step clock) start labels
      fun s => ∀ call ∈ s.calls, OutcomeSettled call.interaction := by
  constructor
  · intro hfixed front s hfront hs call hcall
    obtain ⟨i, hi⟩ := List.getElem?_of_mem hcall
    obtain ⟨hsuccess, htimeout, hboth⟩ := hfixed front [] s s i call call
      (by rwa [List.append_nil]) hs rfl hi hi
    refine ⟨fun hcomplete => hsuccess ⟨hcomplete, ?_⟩, htimeout⟩
    exact Bool.eq_false_iff.mpr fun htimed => hboth ⟨hcomplete, htimed⟩
  · intro halways front back s s' i call call' hgrows hs hs' hcall hcall'
    have hwhole : exec (step clock) start (front ++ back) = some s' := by
      rw [exec_append, hs]
      exact hs'
    have hsettled := halways (front ++ back) s' hgrows hwhole call' (List.mem_of_getElem? hcall')
    obtain ⟨c, hc, hcomplete, htimed⟩ := remembers_exec hs' i call hcall
    obtain rfl := Option.some_inj.mp (hcall'.symm.trans hc)
    refine ⟨fun haccepted => hsettled.success (hcomplete haccepted.1),
      fun h => hsettled.timeout (htimed h), fun hboth => ?_⟩
    rw [((outcomeSettled_iff.mp hsettled).1 hboth.1).2] at hboth
    exact Bool.false_ne_true hboth.2

/-- **Exactly the runs in which outcomes stay fixed.**  For every participant, clock and
order of sends, callbacks and timers: terminal outcomes never change if and only if no
step completes an interaction whose send was rejected, and none rejects or times out an
interaction that was completed. -/
theorem outcomesFixed_iff {clock : MonotonicClock} {roomId : Option Text} {labels : List Label}
    {t : State} (hrun : exec (step clock) (State.initial roomId) labels = some t) :
    OutcomesFixed clock (State.initial roomId) labels ↔
      StepsMeet (step clock) (State.initial roomId) labels (Respects clock SettlesOnce) := by
  rw [outcomesFixed_iff_always]
  exact always_calls_iff Unsettled (fun _ _ _ _ hinv => hinv)
    (fun t call hfresh => ⟨hfresh.unsettled, hfresh.outcomeSettled⟩)
    (fun _ _ _ _ hinv _ hafter => unsettled_after hinv hafter)
    (fun _ _ _ _ hinv _ hgood hafter => outcomeSettled_after_iff hinv hgood hafter) hrun

/-! ## A send that outlasts its answer -/

/-- A request, its ACK while the send is in progress, and the return of the send. -/
def slowSend : List Label :=
  [.request sampleCorrelation none 10, .deliver (sampleAck ['$', 'a']) none,
    .sendReturned 0 ['$', 'q']]

/-- The fields of the outcome, after a run. -/
def outcomesAfter (labels : List Label) (clock : MonotonicClock) :
    Option (List (Option ℕ × Bool × InteractionOutcome)) :=
  (exec (step clock) (State.initial (some ['!', 'r'])) labels).map fun s =>
    s.calls.map fun call => (call.interaction.completedMonotonicNs, call.interaction.timedOut,
      outcomeOf call.interaction)

/-- **A success becomes a timeout.**  With four seconds between clock readings, the ACK
is accepted four seconds after T0; the send returns eight seconds later, past the
timeout of ten, and the interaction is then both completed and timed out. -/
theorem slowSend_not_outcomesFixed :
    outcomesAfter (slowSend.take 2) (steadyClock 4000000000) =
        some [(some 8000000000, false, .success)] ∧
      outcomesAfter slowSend (steadyClock 4000000000) =
        some [(some 8000000000, true, .timeout)] ∧
      ¬ OutcomesFixed (steadyClock 4000000000) (State.initial (some ['!', 'r'])) slowSend := by
  have hend : outcomesAfter slowSend (steadyClock 4000000000) =
      some [(some 8000000000, true, .timeout)] := by decide +kernel
  refine ⟨by decide, hend, fun hfixed => ?_⟩
  obtain ⟨s, hs, hcalls⟩ := Option.map_eq_some_iff.mp hend
  obtain ⟨call, hcall⟩ : ∃ call, s.calls = [call] := by
    rw [← List.length_eq_one_iff, ← List.length_map, hcalls]
    rfl
  rw [hcall] at hcalls
  obtain ⟨hcomplete, htimed⟩ := Prod.mk.inj (List.cons.inj hcalls).1
  have hget : s.calls[0]? = some call := by rw [hcall]; rfl
  refine (hfixed slowSend [] s s 0 call call (List.append_nil slowSend ▸ List.prefix_refl _) hs rfl
    hget hget).2.2 ⟨?_, (Prod.mk.inj htimed).1⟩
  rw [hcomplete]
  exact Option.some_ne_none _

/-- The exact condition at a request that is answered after its send. -/
theorem promptSend_outcomesFixed_iff :
    OutcomesFixed (steadyClock 1) (State.initial (some ['!', 'r']))
        [.request sampleCorrelation none 10, .sendReturned 0 ['$', 'q'],
          .deliver (sampleAck ['$', 'a']) none, .resume 0] ↔
      StepsMeet (step (steadyClock 1)) (State.initial (some ['!', 'r']))
        [.request sampleCorrelation none 10, .sendReturned 0 ['$', 'q'],
          .deliver (sampleAck ['$', 'a']) none, .resume 0]
        (Respects (steadyClock 1) SettlesOnce) :=
  outcomesFixed_iff (Option.some_get (by decide +kernel)).symm

end Human
end FederatedMessaging
