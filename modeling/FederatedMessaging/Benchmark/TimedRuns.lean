import FederatedMessaging.Benchmark.ClosedLoop

/-!
# Throughput runs with the times their interactions end

An interaction ends by its accepted ACK, which leaves a timestamp; by its timeout, at
T0 plus the timeout; or by the rejection of its send, which leaves none.  A timed run
carries the times of the rejections beside the state, as proof-only data: a step happens at a
moment between two readings of the clock, and `rejectedAt` notes the moment of each
rejection.

## 1.  One call

`CallTimed` is what ties a call to the times: its deadline is not early, and once it has
returned it has ended.

## 2.  The slots in sequence

A slot makes its next request after the one before has returned.  So two calls of one slot
do not overlap, and at any time no more interactions are outstanding than there are slots
(`outstanding_le`).
-/

namespace FederatedMessaging
namespace Benchmark

open PythonText Message Human LabelledRuns

variable {clock : MonotonicClock} {config : RunConfig}

/-- A throughput run and the rejections in it, as call and time. -/
structure TimedRun where
  state : ThroughputState
  rejectedAt : List (ℕ × ℕ)

/-- The rejection a label brings, if it happens at time `now`. -/
def rejectionOf (l : ThroughputState.Label) (now : ℕ) : List (ℕ × ℕ) :=
  match l with
  | .human (.sendRejected i _ _) => [(i, now)]
  | _ => []

@[simp] theorem rejectionOf_slotStarts (j now : ℕ) : rejectionOf (.slotStarts j) now = [] := rfl

@[simp] theorem rejectionOf_gathered (now : ℕ) : rejectionOf .gathered now = [] := rfl

/-- The moment `now` comes after the first `reads` readings and not after the next. -/
def Between (clock : MonotonicClock) (reads now : ℕ) : Prop :=
  (∀ k < reads, clock.read k ≤ now) ∧ now ≤ clock.read reads

instance (reads now : ℕ) : Decidable (Between clock reads now) :=
  inferInstanceAs (Decidable (_ ∧ _))

/-- A step of the workload, at a time. -/
def TimedRun.step (clock : MonotonicClock) (config : RunConfig) (r : TimedRun)
    (e : ThroughputState.Label × ℕ) : Option TimedRun :=
  if Between clock r.state.human.reads e.2 then
    (r.state.step clock config e.1).map fun w => ⟨w, r.rejectedAt ++ rejectionOf e.1 e.2⟩
  else none

/-- The start of a run. -/
def TimedRun.start (clock : MonotonicClock) (config : RunConfig) (roomId : Option Text) :
    TimedRun :=
  ⟨ThroughputState.start clock config (State.initial roomId), []⟩

/-- **The times at which an interaction ended**: by its accepted ACK, by its timeout, by the
rejection of its send. -/
def endTimes (config : RunConfig) (rejectedAt : List (ℕ × ℕ)) (i : ℕ) (it : Interaction) :
    List ℚ :=
  (it.completedMonotonicNs.toList.map fun t : ℕ => (t : ℚ)) ++
    (if it.timedOut then [it.initiatedMonotonicNs + config.timeoutSeconds * 10 ^ 9] else []) ++
    (rejectedAt.filter fun entry => entry.1 = i).map fun entry => (entry.2 : ℚ)

/-- The interaction has ended by time `now`. -/
def EndedBy (config : RunConfig) (rejectedAt : List (ℕ × ℕ)) (i : ℕ) (it : Interaction)
    (now : ℕ) : Prop := ∃ e ∈ endTimes config rejectedAt i it, e ≤ now

/-- **The interaction is outstanding at a boundary**: initiated before it, and not ended
before it. -/
def isOutstanding (config : RunConfig) (rejectedAt : List (ℕ × ℕ)) (bound : ℤ) (i : ℕ)
    (it : Interaction) : Bool :=
  (it.initiatedMonotonicNs : ℤ) < bound && !(endTimes config rejectedAt i it).any (· < bound)

/-- The number of interactions outstanding at a boundary. -/
def TimedRun.outstanding (config : RunConfig) (r : TimedRun) (bound : ℤ) : ℕ :=
  (List.range r.state.human.calls.length).countP fun i =>
    r.state.human.calls[i]?.any
      fun call => isOutstanding config r.rejectedAt bound i call.interaction

/-! ## 1.  One call -/

section OneCall

variable {rejectedAt rejectedAt' : List (ℕ × ℕ)} {i : ℕ} {it it' : Interaction} {e : ℚ}

theorem mem_endTimes :
    e ∈ endTimes config rejectedAt i it ↔
      (∃ t, it.completedMonotonicNs = some t ∧ e = t) ∨
      (it.timedOut = true ∧ e = it.initiatedMonotonicNs + config.timeoutSeconds * 10 ^ 9) ∨
      ∃ t, (i, t) ∈ rejectedAt ∧ e = t := by
  unfold endTimes
  rw [List.mem_append, List.mem_append, or_assoc]
  refine or_congr ?_ (or_congr ?_ ?_)
  · cases it.completedMonotonicNs <;> simp
  · cases it.timedOut <;> simp
  · simp only [List.mem_map, List.mem_filter, decide_eq_true_eq, Prod.exists]
    constructor
    · rintro ⟨j, t, ⟨hmem, rfl⟩, rfl⟩
      exact ⟨t, hmem, rfl⟩
    · rintro ⟨t, hmem, rfl⟩
      exact ⟨i, t, ⟨hmem, rfl⟩, rfl⟩

theorem isOutstanding_iff {bound : ℤ} :
    isOutstanding config rejectedAt bound i it = true ↔
      (it.initiatedMonotonicNs : ℤ) < bound ∧
        ∀ e ∈ endTimes config rejectedAt i it, ¬ e < bound := by
  simp [isOutstanding]

/-- What has been recorded of an interaction's end is kept. -/
structure Extends (it it' : Interaction) : Prop where
  initiated : it'.initiatedMonotonicNs = it.initiatedMonotonicNs
  completed : ∀ t, it.completedMonotonicNs = some t → it'.completedMonotonicNs = some t
  timedOut : it.timedOut = true → it'.timedOut = true

theorem endTimes_subset (h : Extends it it') (hrejected : rejectedAt ⊆ rejectedAt') :
    endTimes config rejectedAt i it ⊆ endTimes config rejectedAt' i it' := by
  intro e he
  rw [mem_endTimes] at he ⊢
  rcases he with ⟨t, ht, rfl⟩ | ⟨htimed, rfl⟩ | ⟨t, ht, rfl⟩
  · exact Or.inl ⟨t, h.completed t ht, rfl⟩
  · exact Or.inr (Or.inl ⟨h.timedOut htimed, by rw [h.initiated]⟩)
  · exact Or.inr (Or.inr ⟨t, hrejected ht, rfl⟩)

theorem EndedBy.mono {now now' : ℕ} (h : EndedBy config rejectedAt i it now) (hit : Extends it it')
    (hrejected : rejectedAt ⊆ rejectedAt') (hnow : now ≤ now') :
    EndedBy config rejectedAt' i it' now' := by
  obtain ⟨e, he, hle⟩ := h
  exact ⟨e, endTimes_subset hit hrejected he, hle.trans (by exact_mod_cast hnow)⟩

/-- **A call and the times.** -/
structure CallTimed (config : RunConfig) (rejectedAt : List (ℕ × ℕ)) (now i : ℕ) (call : Call) :
    Prop where
  timeout : call.timeout = some config.timeoutSeconds
  online : call.phase ≠ .sendingOffline
  /-- a completed interaction has an ACK, so that no other is accepted -/
  acked : call.interaction.completedMonotonicNs ≠ none → call.interaction.ackEventIds ≠ []
  done : call.interaction.futureDone = true →
    ∃ t, call.interaction.completedMonotonicNs = some t ∧ t ≤ now
  waiting : ∀ deadline, call.phase = .waiting deadline →
    call.interaction.initiatedMonotonicNs + config.timeoutSeconds * 10 ^ 9 ≤ deadline
  expired : call.phase = .expired →
    call.interaction.initiatedMonotonicNs + config.timeoutSeconds * 10 ^ 9 ≤ now
  returned : call.phase = .returned → EndedBy config rejectedAt i call.interaction now

/-- The times a happening is stamped with are in order, and past at `now`. -/
def Happening.StampedBy (now : ℕ) : Happening → Prop
  | .acknowledged _ t3 _ => t3 ≤ now
  | .sent _ checked armed => checked ≤ armed ∧ armed ≤ now
  | .timerFired fired => fired ≤ now
  | _ => True

theorem extends_after {call call' : Call} {h : Happening} {now : ℕ}
    (hcall : CallTimed config rejectedAt now i call) (hafter : call.after h = some call') :
    Extends call.interaction call'.interaction := by
  cases becomes_of_after hafter with
  | acknowledged e t3 episode =>
    refine ⟨observeAck_initiated, fun t ht => ?_, fun htimed => by rwa [observeAck_timedOut]⟩
    rw [observeAck_completed, ht]
    intro haccepts
    exact hcall.acked (by rw [ht]; exact Option.some_ne_none t) haccepts.2.2
  | exhausted => exact ⟨rfl, fun _ h => h, fun _ => rfl⟩
  | expired => exact ⟨rfl, fun _ h => h, fun _ => rfl⟩
  | _ => exact ⟨rfl, fun _ h => h, id⟩

/-- A deadline that has passed, as the task computes it. -/
theorem deadline_le_of_remaining {timeout : ℚ} {checked : ℕ}
    (h : remaining timeout it checked ≤ 0) :
    it.initiatedMonotonicNs + timeout * 10 ^ 9 ≤ checked := by
  unfold remaining at h
  have h' : timeout ≤ ((checked : ℚ) - it.initiatedMonotonicNs) / 10 ^ 9 := by linarith
  rw [le_div_iff₀ (by positivity)] at h'
  linarith

/-- Where a send that returns in time leaves the task. -/
theorem phase_of_sent {call call' : Call} {eventId : Text} {checked armed : ℕ} {timeout : ℚ}
    (hphase : call.phase = .sending) (htimeout : call.timeout = some timeout)
    (hsome : ¬ remaining timeout call.interaction checked ≤ 0)
    (hafter : call.after (.sent eventId checked armed) = some call') :
    call'.phase = .returned ∧ call.interaction.futureDone = true ∨
      call'.phase = .waiting (armed + remaining timeout call.interaction checked * 10 ^ 9) := by
  unfold Call.after at hafter
  dsimp only at hafter
  rw [hphase, htimeout] at hafter
  dsimp only at hafter
  split at hafter
  · rename_i hnone
    exact absurd hnone hsome
  · split at hafter
    · rename_i hdone
      rw [← Option.some_inj.mp hafter]
      exact Or.inl ⟨rfl, hdone⟩
    · rw [← Option.some_inj.mp hafter]
      exact Or.inr rfl

/-- A timer does not fire early. -/
theorem le_of_timerFired {call call' : Call} {fired : ℕ} {deadline : ℚ}
    (hphase : call.phase = .waiting deadline)
    (hafter : call.after (.timerFired fired) = some call') : deadline ≤ fired := by
  unfold Call.after at hafter
  rw [hphase] at hafter
  dsimp only at hafter
  split at hafter
  · assumption
  · cases hafter

/-- **One stretch of code keeps a call tied to the times.** -/
theorem callTimed_after {call call' : Call} {h : Happening} {now now' : ℕ}
    (hcall : CallTimed config rejectedAt now i call) (hnow : now ≤ now')
    (hrejected : rejectedAt ⊆ rejectedAt')
    (hnoted : ∀ errcode message, h = .rejected errcode message →
      ∃ t, (i, t) ∈ rejectedAt' ∧ t ≤ now')
    (hstamped : Happening.StampedBy now' h) (hafter : call.after h = some call') :
    CallTimed config rejectedAt' now' i call' := by
  have hextends := extends_after hcall hafter
  have hle : (now : ℚ) ≤ now' := by exact_mod_cast hnow
  have hdone : call.interaction.futureDone = true →
      ∃ t, call.interaction.completedMonotonicNs = some t ∧ t ≤ now' := fun h => by
    obtain ⟨t, ht, htnow⟩ := hcall.done h
    exact ⟨t, ht, htnow.trans hnow⟩
  have hreturned : call.phase = .returned →
      EndedBy config rejectedAt' i call'.interaction now' := fun h =>
    (hcall.returned h).mono hextends hrejected hnow
  have hbecomes := becomes_of_after hafter
  cases hbecomes with
  | acknowledged e t3 episode =>
    refine ⟨hcall.timeout, hcall.online, ?_, ?_, fun deadline hphase => ?_, fun hphase => ?_,
      hreturned⟩
    · by_cases haccepts : call.interaction.Accepts e
      · rw [observeAck_of_accepts haccepts]
        exact fun _ => List.append_ne_nil_of_right_ne_nil _ (List.cons_ne_nil _ _)
      · rw [observeAck_completed haccepts]
        intro hcompleted
        have hacked := hcall.acked hcompleted
        unfold Interaction.observeAck
        split_ifs <;> first | exact hacked | exact List.append_ne_nil_of_left_ne_nil hacked _
    · by_cases haccepts : call.interaction.Accepts e
      · rw [observeAck_of_accepts haccepts]
        exact fun _ => ⟨t3, rfl, hstamped⟩
      · rw [observeAck_completed haccepts]
        intro hfuture
        refine hdone ?_
        unfold Interaction.observeAck at hfuture
        split_ifs at hfuture with hmem htimed hlate hids
        · exact hfuture
        · exact hfuture
        · exact hfuture
        · exact absurd ⟨hmem, by simpa using htimed, hids⟩ haccepts
        · exact hfuture
    · rw [observeAck_initiated]
      exact hcall.waiting deadline hphase
    · rw [observeAck_initiated]
      exact (hcall.expired hphase).trans hle
  | exhausted e checked armed timeout hphase htimeout hnone =>
    refine ⟨hcall.timeout, nofun, hcall.acked, hdone, nofun, nofun, fun _ => ?_⟩
    obtain rfl := Option.some_inj.mp (hcall.timeout.symm.trans htimeout)
    have hpast : (checked : ℚ) ≤ now' := by exact_mod_cast hstamped.1.trans hstamped.2
    exact ⟨_, mem_endTimes.mpr (Or.inr (Or.inl ⟨rfl, rfl⟩)),
      (deadline_le_of_remaining hnone).trans hpast⟩
  | sent e checked armed timeout phase hphase htimeout hsome =>
    obtain rfl := Option.some_inj.mp (hcall.timeout.symm.trans htimeout)
    rcases phase_of_sent hphase htimeout hsome hafter with ⟨rfl, hfuture⟩ | rfl
    · refine ⟨hcall.timeout, nofun, hcall.acked, hdone, nofun, nofun, fun _ => ?_⟩
      obtain ⟨t, ht, htnow⟩ := hdone hfuture
      exact ⟨t, mem_endTimes.mpr (Or.inl ⟨t, ht, rfl⟩), by exact_mod_cast htnow⟩
    · refine ⟨hcall.timeout, nofun, hcall.acked, hdone, ?_, nofun, nofun⟩
      rintro deadline ⟨rfl⟩
      -- the timer is armed after the budget is read
      have harmed : (checked : ℚ) ≤ armed := by exact_mod_cast hstamped.1
      unfold remaining
      dsimp only
      linarith
  | sentOffline e checked armed hphase => exact absurd hphase hcall.online
  | rejected errcode message hphase =>
    refine ⟨hcall.timeout, nofun, hcall.acked, hdone, nofun, nofun, fun _ => ?_⟩
    obtain ⟨t, ht, htnow⟩ := hnoted errcode message rfl
    exact ⟨t, mem_endTimes.mpr (Or.inr (Or.inr ⟨t, ht, rfl⟩)), by exact_mod_cast htnow⟩
  | rejectedOffline errcode message hphase => exact absurd hphase hcall.online
  | sendRaised => exact ⟨hcall.timeout, nofun, hcall.acked, hdone, nofun, nofun, nofun⟩
  | timerFired fired deadline hphase =>
    refine ⟨hcall.timeout, nofun, hcall.acked, hdone, nofun, fun _ => ?_, nofun⟩
    have hpast : (fired : ℚ) ≤ now' := by exact_mod_cast hstamped
    exact ((hcall.waiting deadline hphase).trans (le_of_timerFired hphase hafter)).trans hpast
  | answered deadline hphase hfuture =>
    refine ⟨hcall.timeout, nofun, hcall.acked, hdone, nofun, nofun, fun _ => ?_⟩
    obtain ⟨t, ht, htnow⟩ := hdone hfuture
    exact ⟨t, mem_endTimes.mpr (Or.inl ⟨t, ht, rfl⟩), by exact_mod_cast htnow⟩
  | expired hphase =>
    refine ⟨hcall.timeout, nofun, hcall.acked, hdone, nofun, nofun, fun _ => ?_⟩
    exact ⟨_, mem_endTimes.mpr (Or.inr (Or.inl ⟨rfl, rfl⟩)), (hcall.expired hphase).trans hle⟩

end OneCall

/-! ## 2.  The slots in sequence -/

/-- Every call of a participant is tied to the times. -/
def CallsTimed (clock : MonotonicClock) (config : RunConfig) (rejectedAt : List (ℕ × ℕ))
    (human : State) : Prop :=
  ∀ i call, human.calls[i]? = some call →
    CallTimed config rejectedAt (clock.read human.reads) i call

/-- **The calls of one slot do not overlap.**  `owner i` is the slot that made call `i`. -/
structure InSequence (clock : MonotonicClock) (config : RunConfig) (rejectedAt : List (ℕ × ℕ))
    (human : State) (awaited : ℕ → Option ℕ) (owner : ℕ → ℕ) : Prop where
  owner_lt : ∀ i < human.calls.length, owner i < config.concurrency
  ended : ∀ i call, human.calls[i]? = some call → awaited (owner i) = some i ∨
    EndedBy config rejectedAt i call.interaction (clock.read human.reads)
  apart : ∀ i i' call call', i < i' → human.calls[i]? = some call →
    human.calls[i']? = some call' → owner i = owner i' →
      EndedBy config rejectedAt i call.interaction call'.interaction.initiatedMonotonicNs

section Sequence

variable {rejectedAt : List (ℕ × ℕ)} {s s' : State} {l : Human.Label} {now : ℕ}

theorem CallTimed.mono {rejectedAt' : List (ℕ × ℕ)} {now now' i : ℕ} {call : Call}
    (h : CallTimed config rejectedAt now i call) (hrejected : rejectedAt ⊆ rejectedAt')
    (hnow : now ≤ now') : CallTimed config rejectedAt' now' i call := by
  have hle : (now : ℚ) ≤ now' := by exact_mod_cast hnow
  refine ⟨h.timeout, h.online, h.acked, fun hfuture => ?_, h.waiting,
    fun hphase => (h.expired hphase).trans hle, fun hphase => ?_⟩
  · obtain ⟨t, ht, htnow⟩ := h.done hfuture
    exact ⟨t, ht, htnow.trans hnow⟩
  · exact (h.returned hphase).mono ⟨rfl, fun _ h => h, id⟩ hrejected hnow

/-- The stamps of a happening are readings of the step. -/
theorem stampedBy_of_happening {i : ℕ} {h : Happening} (hl : s.happening clock l = some (i, h)) :
    Happening.StampedBy (clock.read (s.reads + 2)) h := by
  have hfirst : clock.read s.reads ≤ clock.read (s.reads + 2) := clock.mono (Nat.le_add_right _ _)
  cases l with
  | request => cases hl
  | sendOffline => cases hl
  | deliver event episode =>
    obtain ⟨j, -, hj⟩ := Option.map_eq_some_iff.mp hl
    rw [← (Prod.mk.inj hj).2]
    exact hfirst
  | sendReturned j eventId =>
    rw [← (Prod.mk.inj (Option.some_inj.mp hl)).2]
    exact ⟨clock.mono (Nat.le_succ _), clock.mono (Nat.le_succ _)⟩
  | sendRejected => rw [← (Prod.mk.inj (Option.some_inj.mp hl)).2]; trivial
  | sendRaised => rw [← (Prod.mk.inj (Option.some_inj.mp hl)).2]; trivial
  | timerFires =>
    rw [← (Prod.mk.inj (Option.some_inj.mp hl)).2]
    exact hfirst
  | resume => rw [← (Prod.mk.inj (Option.some_inj.mp hl)).2]; trivial

/-- A rejection is noted. -/
theorem noted_of_happening {i : ℕ} {errcode message : Text}
    (hl : s.happening clock l = some (i, .rejected errcode message)) :
    (i, now) ∈ rejectionOf (.human l) now := by
  cases l with
  | sendRejected j errcode' message' =>
    rw [← (Prod.mk.inj (Option.some_inj.mp hl)).1]
    exact List.mem_cons_self
  | request => cases hl
  | sendOffline => cases hl
  | deliver event episode =>
    obtain ⟨j, -, hj⟩ := Option.map_eq_some_iff.mp hl
    cases (Prod.mk.inj hj).2
  | sendReturned => cases (Prod.mk.inj (Option.some_inj.mp hl)).2
  | sendRaised => cases (Prod.mk.inj (Option.some_inj.mp hl)).2
  | timerFires => cases (Prod.mk.inj (Option.some_inj.mp hl)).2
  | resume => cases (Prod.mk.inj (Option.some_inj.mp hl)).2

/-- **A step of the participant, for each call.** -/
theorem timed_step (hcalls : CallsTimed clock config rejectedAt s) (hl : l.External)
    (hstep : Human.step clock s l = some s') (hnow : Between clock s.reads now) :
    CallsTimed clock config (rejectedAt ++ rejectionOf (.human l) now) s' ∧
      ∀ (i : ℕ) (call' : Call), s'.calls[i]? = some call' → ∃ call : Call,
        s.calls[i]? = some call ∧ Extends call.interaction call'.interaction := by
  have hgrows : rejectedAt ⊆ rejectedAt ++ rejectionOf (.human l) now :=
    List.subset_append_left _ _
  obtain ⟨hreads, -, -⟩ := step_external hl hstep
  have hmono := clock.mono hreads
  rcases exists_apply_of_step hl hstep with ⟨i, h, htarget, happly⟩ | rfl
  · obtain ⟨call, call', hcall, hafter, hset, -, hreads'⟩ := apply_eq_some happly
    have hlt : i < s.calls.length := (List.getElem?_eq_some_iff.mp hcall).1
    have hone : CallTimed config (rejectedAt ++ rejectionOf (.human l) now)
        (clock.read s'.reads) i call' := by
      refine callTimed_after (hcalls i call hcall) hmono hgrows ?_ ?_ hafter
      · rintro errcode message rfl
        exact ⟨now, List.mem_append_right _ (noted_of_happening htarget), hnow.2.trans hmono⟩
      · rw [hreads']
        exact stampedBy_of_happening htarget
    constructor
    · intro k c hc
      rw [hset] at hc
      by_cases hik : i = k
      · subst hik
        rw [List.getElem?_set_self hlt] at hc
        rw [← Option.some_inj.mp hc]
        exact hone
      · rw [List.getElem?_set_ne hik] at hc
        exact (hcalls k c hc).mono hgrows hmono
    · intro k c hc
      rw [hset] at hc
      by_cases hik : i = k
      · subst hik
        rw [List.getElem?_set_self hlt] at hc
        rw [← Option.some_inj.mp hc]
        exact ⟨call, hcall, extends_after (hcalls i call hcall) hafter⟩
      · rw [List.getElem?_set_ne hik] at hc
        exact ⟨c, hc, rfl, fun _ h => h, id⟩
  · exact ⟨fun k c hc => (hcalls k c hc).mono hgrows hmono,
      fun k c hc => ⟨c, hc, rfl, fun _ h => h, id⟩⟩

/-- A step of the participant keeps the slots in sequence. -/
theorem InSequence.human {awaited : ℕ → Option ℕ} {owner : ℕ → ℕ}
    (h : InSequence clock config rejectedAt s awaited owner)
    (hcalls : CallsTimed clock config rejectedAt s) (hl : l.External)
    (hstep : Human.step clock s l = some s') (hnow : Between clock s.reads now) :
    InSequence clock config (rejectedAt ++ rejectionOf (.human l) now) s' awaited owner := by
  have hgrows : rejectedAt ⊆ rejectedAt ++ rejectionOf (.human l) now :=
    List.subset_append_left _ _
  obtain ⟨hreads, -, -⟩ := step_external hl hstep
  obtain ⟨-, hback⟩ := timed_step hcalls hl hstep hnow
  refine ⟨?_, fun i call' hcall' => ?_, fun i i' call' other' hlt hcall' hother' howner => ?_⟩
  · rw [length_calls_step hl hstep]
    exact h.owner_lt
  · obtain ⟨call, hcall, hextends⟩ := hback i call' hcall'
    exact (h.ended i call hcall).imp_right fun hended =>
      hended.mono hextends hgrows (clock.mono hreads)
  · obtain ⟨call, hcall, hextends⟩ := hback i call' hcall'
    obtain ⟨other, hother, hextends'⟩ := hback i' other' hother'
    rw [hextends'.initiated]
    exact (h.apart i i' call other hlt hcall hother howner).mono hextends hgrows le_rfl

/-- T0 is the second reading of `request`. -/
theorem initiated_of_made {call : Call} (hmade : Made clock config s s' call) :
    call.interaction.initiatedMonotonicNs = clock.read (s.reads + 1) := by
  obtain ⟨correlation, txnId, hit⟩ := hmade.interaction
  rw [hit]
  rfl

/-- A call the workload has just made. -/
theorem callTimed_of_made {call : Call} (hmade : Made clock config s s' call) (i : ℕ) :
    CallTimed config rejectedAt (clock.read s'.reads) i call := by
  obtain ⟨correlation, txnId, hit⟩ := hmade.interaction
  have hphase := hmade.phase
  refine ⟨hmade.timeout, fun hoffline => (nomatch hphase.symm.trans hoffline), ?_, ?_,
    fun deadline hwaiting => (nomatch hphase.symm.trans hwaiting),
    fun hexpired => (nomatch hphase.symm.trans hexpired),
    fun hreturned => (nomatch hphase.symm.trans hreturned)⟩
  · rw [hit]
    exact fun hcompleted => absurd rfl hcompleted
  · rw [hit]
    exact fun hfuture => absurd hfuture Bool.false_ne_true

/-- **A slot that has nothing running goes on.**  Its earlier calls have ended, so the next
one it makes is apart from them. -/
theorem sequence_of_loops {w w' : ThroughputState} {j : ℕ} {owner : ℕ → ℕ}
    (hj : j < config.concurrency) (hslot : j < w.slots.length)
    (hcalls : CallsTimed clock config rejectedAt w.human)
    (howner : ∀ i < w.human.calls.length, owner i < config.concurrency)
    (hended : ∀ (i : ℕ) (call : Call), w.human.calls[i]? = some call →
      (owner i ≠ j ∧ awaitedBy w.slots (owner i) = some i) ∨
        EndedBy config rejectedAt i call.interaction (clock.read w.human.reads))
    (hapart : ∀ (i i' : ℕ) (call call' : Call), i < i' → w.human.calls[i]? = some call →
      w.human.calls[i']? = some call' → owner i = owner i' →
        EndedBy config rejectedAt i call.interaction call'.interaction.initiatedMonotonicNs)
    (hloops : Loops clock config w j w') (hstage' : w'.stage ≠ .raised) :
    CallsTimed clock config rejectedAt w'.human ∧
      ∃ owner', InSequence clock config rejectedAt w'.human (awaitedBy w'.slots) owner' := by
  have hkept : ∀ {it : Interaction}, Extends it it := ⟨rfl, fun _ h => h, id⟩
  cases hloops with
  | raised human => exact absurd rfl hstage'
  | issued human call hnow hmade hrun =>
    have happend : human.calls = w.human.calls ++ [call] := hmade.calls
    have hreads : human.reads = w.human.reads + 1 + 2 := hmade.reads
    have hmono : clock.read w.human.reads ≤ clock.read human.reads := clock.mono (by omega)
    have hnew : CallTimed config rejectedAt (clock.read human.reads) w.human.calls.length call :=
      callTimed_of_made hmade _
    have hbegun := initiated_of_made hmade
    have hcases : ∀ (i : ℕ) (c : Call), human.calls[i]? = some c →
        (w.human.calls[i]? = some c ∧ i < w.human.calls.length) ∨
          i = w.human.calls.length ∧ c = call := by
      intro i c hc
      rw [happend] at hc
      exact (getElem?_append_singleton_cases hc).imp_left fun hold =>
        ⟨hold, (List.getElem?_eq_some_iff.mp hold).1⟩
    have hold : ∀ i < w.human.calls.length,
        Function.update owner w.human.calls.length j i = owner i :=
      fun i hi => Function.update_of_ne hi.ne _ _
    have hnewest : Function.update owner w.human.calls.length j w.human.calls.length = j :=
      Function.update_self ..
    refine ⟨fun i c hc => ?_, Function.update owner w.human.calls.length j, fun i hi => ?_,
      fun i c hc => ?_, fun i i' c c' hlt hc hc' hsame => ?_⟩
    · rcases hcases i c hc with ⟨hc, -⟩ | ⟨rfl, rfl⟩
      · exact (hcalls i c hc).mono (List.Subset.refl _) hmono
      · exact hnew
    · change i < human.calls.length at hi
      rw [happend, List.length_append, List.length_singleton] at hi
      rcases Nat.lt_succ_iff_lt_or_eq.mp hi with hi | rfl
      · rw [hold i hi]
        exact howner i hi
      · rw [hnewest]
        exact hj
    · rw [awaitedBy_set hslot]
      rcases hcases i c hc with ⟨hc, hi⟩ | ⟨rfl, rfl⟩
      · rw [hold i hi]
        rcases hended i c hc with ⟨hne, hawaited⟩ | hended
        · rw [Function.update_of_ne hne]
          exact Or.inl hawaited
        · exact Or.inr (hended.mono hkept (List.Subset.refl _) hmono)
      · rw [hnewest, Function.update_self]
        exact Or.inl rfl
    · rcases hcases i c hc with ⟨hc, hi⟩ | ⟨rfl, rfl⟩
      · rcases hcases i' c' hc' with ⟨hc', hi'⟩ | ⟨rfl, rfl⟩
        · rw [hold i hi, hold i' hi'] at hsame
          exact hapart i i' c c' hlt hc hc' hsame
        · -- the call before it in slot `j` has ended
          rw [hold i hi, hnewest] at hsame
          rcases hended i c hc with ⟨hne, -⟩ | hended
          · exact absurd hsame hne
          · rw [hbegun]
            exact hended.mono hkept (List.Subset.refl _) (clock.mono (by
              change w.human.reads ≤ w.human.reads + 1 + 1
              omega))
      · rcases hcases i' c' hc' with ⟨-, hi'⟩ | ⟨rfl, -⟩
        · exact absurd hlt (Nat.lt_asymm hi')
        · exact absurd hlt (Nat.lt_irrefl _)
  | stopped hnow =>
    refine ⟨fun i call hcall => (hcalls i call hcall).mono (List.Subset.refl _)
      (clock.mono (Nat.le_succ _)), owner, howner, fun i call hcall => ?_, hapart⟩
    rw [awaitedBy_set hslot]
    rcases hended i call hcall with ⟨hne, hawaited⟩ | hended
    · rw [Function.update_of_ne hne]
      exact Or.inl hawaited
    · exact Or.inr (hended.mono hkept (List.Subset.refl _) (clock.mono (Nat.le_succ _)))

end Sequence

/-! ## 3.  Timed runs -/

/-- The invariant of a timed run. -/
structure TimedInv (clock : MonotonicClock) (config : RunConfig) (r : TimedRun) : Prop where
  run : RunInv config r.state
  timed : r.state.stage ≠ .raised → CallsTimed clock config r.rejectedAt r.state.human ∧
    ∃ owner, InSequence clock config r.rejectedAt r.state.human (awaitedBy r.state.slots) owner

theorem timedInv_start (clock : MonotonicClock) (config : RunConfig) (roomId : Option Text) :
    TimedInv clock config (TimedRun.start clock config roomId) :=
  ⟨runInv_start clock config roomId, fun _ => ⟨fun _ _ hcall => (nomatch hcall), id,
    fun i hi => absurd hi (Nat.not_lt_zero i), fun _ _ hcall => (nomatch hcall),
    fun _ _ _ _ _ hcall => (nomatch hcall)⟩⟩

theorem exists_step_of_timed {r r' : TimedRun} {e : ThroughputState.Label × ℕ}
    (hstep : r.step clock config e = some r') :
    Between clock r.state.human.reads e.2 ∧ r.state.step clock config e.1 = some r'.state ∧
      r'.rejectedAt = r.rejectedAt ++ rejectionOf e.1 e.2 := by
  unfold TimedRun.step at hstep
  split at hstep
  · rename_i hnow
    obtain ⟨w, hw, rfl⟩ := Option.map_eq_some_iff.mp hstep
    exact ⟨hnow, hw, rfl⟩
  · cases hstep

/-- **The step lemma of timed runs.** -/
theorem timedInv_step {r r' : TimedRun} {e : ThroughputState.Label × ℕ}
    (h : TimedInv clock config r) (hstep : r.step clock config e = some r') :
    TimedInv clock config r' := by
  obtain ⟨hnow, hw, hrejected⟩ := exists_step_of_timed hstep
  refine ⟨runInv_step h.run hw, fun hraised => ?_⟩
  have hstage := stage_of_step hw
  have hgoing : r.state.stage ≠ .raised := by
    rw [hstage]
    exact nofun
  have hloop := h.run.loop hgoing
  obtain ⟨hcalls, owner, hsequence⟩ := h.timed hgoing
  rw [hrejected]
  obtain ⟨l, now⟩ := e
  generalize hw' : r'.state = w' at hw hraised ⊢
  cases advances_of_step hloop.calls hloop.sequence hw with
  | waits l human hl hhuman =>
    exact ⟨(timed_step hcalls hl hhuman hnow).1, owner, hsequence.human hcalls hl hhuman hnow⟩
  | raised l human => exact absurd rfl hraised
  | completes l human j i call _ hl hhuman hslot hcall hphase hloops =>
    obtain ⟨hcalls', -⟩ := timed_step hcalls hl hhuman hnow
    have hsequence' := hsequence.human hcalls hl hhuman hnow
    have hj := (List.getElem?_eq_some_iff.mp hslot).1
    have hawaits : awaitedBy r.state.slots j = some i := by
      rw [awaitedBy, hslot]
      rfl
    refine sequence_of_loops
      (w := { r.state with human := human, completed := r.state.completed ++ [i] })
      (hloop.slots ▸ hj) hj hcalls' hsequence'.owner_lt (fun i' call' hcall' => ?_)
      hsequence'.apart hloops hraised
    rcases hsequence'.ended i' call' hcall' with hawaited | hended
    · by_cases howner : owner i' = j
      · -- the call that has returned
        rw [howner, hawaits] at hawaited
        obtain rfl := Option.some_inj.mp hawaited
        obtain rfl := Option.some_inj.mp (hcall.symm.trans hcall')
        exact Or.inr ((hcalls' i call hcall).returned hphase)
      · exact Or.inl ⟨howner, hawaited⟩
    · exact Or.inr hended
  | starts j _ hslot hloops =>
    have hj := (List.getElem?_eq_some_iff.mp hslot).1
    have hidle : awaitedBy r.state.slots j = none := by
      rw [awaitedBy, hslot]
      rfl
    dsimp only
    rw [rejectionOf_slotStarts, List.append_nil]
    refine sequence_of_loops (hloop.slots ▸ hj) hj hcalls hsequence.owner_lt
      (fun i call hcall => ?_) hsequence.apart hloops hraised
    refine (hsequence.ended i call hcall).imp_left fun hawaited => ⟨fun howner => ?_, hawaited⟩
    rw [howner, hidle] at hawaited
    cases hawaited
  | finishes hstopped =>
    have hhuman := (finish_keeps config r.state).2
    have hslots : (r.state.finish config).slots = r.state.slots := by
      unfold ThroughputState.finish
      split <;> rfl
    dsimp only
    rw [hhuman, hslots, rejectionOf_gathered, List.append_nil]
    exact ⟨hcalls, owner, hsequence⟩

theorem timedInv_of_exec {roomId : Option Text} {labels : List (ThroughputState.Label × ℕ)}
    {r : TimedRun}
    (hrun : exec (TimedRun.step clock config) (TimedRun.start clock config roomId) labels =
      some r) :
    TimedInv clock config r :=
  invariant_of_exec (TimedInv clock config) (fun _ _ _ h => timedInv_step h)
    (timedInv_start clock config roomId) hrun

/-- **No more interactions are outstanding than there are slots**, at any boundary. -/
theorem outstanding_le {r : TimedRun} (h : TimedInv clock config r)
    (hraised : r.state.stage ≠ .raised) (bound : ℤ) :
    r.outstanding config bound ≤ config.concurrency := by
  obtain ⟨-, owner, hsequence⟩ := h.timed hraised
  set outstanding := (List.range r.state.human.calls.length).filter fun i =>
    r.state.human.calls[i]?.any fun call =>
      isOutstanding config r.rejectedAt bound i call.interaction with houtstanding
  have hmem : ∀ i ∈ outstanding, ∃ call, r.state.human.calls[i]? = some call ∧
      (call.interaction.initiatedMonotonicNs : ℤ) < bound ∧
      ∀ e ∈ endTimes config r.rejectedAt i call.interaction, ¬ e < bound := by
    intro i hi
    obtain ⟨-, hany⟩ := List.mem_filter.mp hi
    obtain ⟨call, hcall, hout⟩ := (Option.any_eq_true _ _).mp hany
    exact ⟨call, hcall, isOutstanding_iff.mp hout⟩
  -- of two calls of one slot, the earlier has ended when the later begins
  have hinj : ∀ i ∈ outstanding, ∀ i' ∈ outstanding, i < i' → owner i ≠ owner i' := by
    intro i hi i' hi' hlt howner
    obtain ⟨call, hcall, -, hrunning⟩ := hmem i hi
    obtain ⟨call', hcall', hbegun, -⟩ := hmem i' hi'
    obtain ⟨e, he, hle⟩ := hsequence.apart i i' call call' hlt hcall hcall' howner
    refine hrunning e he (hle.trans_lt ?_)
    exact_mod_cast hbegun
  have hnodup : (outstanding.map owner).Nodup := by
    refine (List.nodup_range.filter _).map_on fun i hi i' hi' howner => ?_
    by_contra hne
    rcases Nat.lt_or_gt_of_ne hne with hlt | hlt
    · exact hinj i hi i' hi' hlt howner
    · exact hinj i' hi' i hi hlt howner.symm
  have hsubset : outstanding.map owner ⊆ List.range config.concurrency := by
    intro j hj
    obtain ⟨i, hi, rfl⟩ := List.mem_map.mp hj
    exact List.mem_range.mpr (hsequence.owner_lt i (List.mem_range.mp (List.mem_filter.mp hi).1))
  calc r.outstanding config bound
      = (outstanding.map owner).length := by
        rw [TimedRun.outstanding, List.countP_eq_length_filter, List.length_map]
    _ ≤ (List.range config.concurrency).length := (hnodup.subperm hsubset).length_le
    _ = config.concurrency := List.length_range

end Benchmark
end FederatedMessaging
