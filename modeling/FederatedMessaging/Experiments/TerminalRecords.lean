import FederatedMessaging.Common.TransactionIds
import FederatedMessaging.Experiments.E2Recovery

/-!
# The terminal records of the recovery experiment

Each logical request of a recovery run is one interaction, and the run writes about it
twice: in the offline loop, and after the restart.  The first record is meant to be
intermediate (`offline_send`) and the second to be terminal.

## 1.  What the two loops write

While the run has not ended, the records are those of the offline loop, one for each
request whose send has ended, in order (`Live`); the interaction of every request is
registered, whether or not its send failed.  So the second loop writes one terminal record
for each request, without exception (`Complete`).

## 2.  When that is one too many

The record of a send that failed is terminal as well.  `oneTerminal_iff` says that every
request has exactly one terminal record exactly when no offline send failed.
-/

namespace FederatedMessaging
namespace OfflineRecovery

open PythonText Message Human LabelledRuns
open FederatedMessaging.Matrix

/-! ## 1.  Statements -/

/-- `SUCCESS`, `TIMEOUT` or `SEND_ERROR`. -/
def isTerminal : InteractionOutcome → Bool
  | .success | .timeout | .sendError => true
  | _ => false

/-- A terminal record of one logical request. -/
def isTerminalOf (config : RunConfig) (sequence : ℕ) (record : RunnerRecord) : Bool :=
  record.runId = config.runId && record.sequenceId = sequence && isTerminal record.outcome

/-- **Every logical request has exactly one terminal record.** -/
def OneTerminal (config : RunConfig) (records : List RunnerRecord) : Prop :=
  ∀ sequence, 1 ≤ sequence → sequence ≤ config.offlineRequests →
    records.countP (isTerminalOf config sequence) = 1

/-- A send ends in an exception. -/
def RunState.Label.SendFails : RunState.Label → Prop
  | .human (.sendRejected ..) _ => True
  | .human (.sendRaised _) _ => True
  | _ => False

/-- The offline loop has written no terminal record. -/
def NoneEarly (records : List RunnerRecord) : Prop :=
  ∀ r ∈ records, r.runPhase = .offline → r.outcome = .offlineSend

/-- A record of the offline loop. -/
structure RunnerRecord.Offline (config : RunConfig) (r : RunnerRecord) : Prop where
  runId : r.runId = config.runId
  runPhase : r.runPhase = .offline
  outcome : r.outcome = .offlineSend ∨ r.outcome = .sendError

/-- A record of the second loop. -/
structure RunnerRecord.PostRestart (config : RunConfig) (r : RunnerRecord) : Prop where
  runId : r.runId = config.runId
  runPhase : r.runPhase = .postRestart
  outcome : r.outcome = .success ∨ r.outcome = .timeout

/-- **What a run leaves behind**: one record for each request from either loop. -/
def Complete (config : RunConfig) (records : List RunnerRecord) : Prop :=
  ∃ before after, records = before ++ after ∧
    before.map RunnerRecord.sequenceId = List.range' 1 config.offlineRequests ∧
    after.map RunnerRecord.sequenceId = List.range' 1 config.offlineRequests ∧
    (∀ r ∈ before, r.Offline config) ∧ ∀ r ∈ after, r.PostRestart config

/-! ### Counting -/

section Counting

variable {config : RunConfig} {records : List RunnerRecord} {n : ℕ}

/-- Among records numbered without repetition, one request has at most the one record. -/
theorem countP_eq_one_iff (hnumbered : records.map RunnerRecord.sequenceId = List.range' 1 n)
    (p : RunnerRecord → Bool) {sequence : ℕ} (hpos : 1 ≤ sequence) (hle : sequence ≤ n) :
    ∃ r ∈ records, r.sequenceId = sequence ∧
      records.countP (fun r => decide (r.sequenceId = sequence) && p r) = if p r then 1 else 0 := by
  have hmem : sequence ∈ records.map RunnerRecord.sequenceId := by
    rw [hnumbered, List.mem_range'_1]
    omega
  obtain ⟨r, hr, hsequence⟩ := List.mem_map.mp hmem
  obtain ⟨front, back, rfl⟩ := List.append_of_mem hr
  have hnodup : ((front ++ r :: back).map RunnerRecord.sequenceId).Nodup :=
    hnumbered ▸ List.nodup_range'
  have hothers : ∀ r' ∈ front ++ back, r'.sequenceId ≠ sequence := by
    intro r' hr' heq
    rw [List.map_append, List.map_cons, List.nodup_middle, List.nodup_cons, ← List.map_append,
      hsequence] at hnodup
    exact hnodup.1 (List.mem_map.mpr ⟨r', hr', heq⟩)
  have hzero : ∀ part : List RunnerRecord, (∀ r' ∈ part, r'.sequenceId ≠ sequence) →
      part.countP (fun r => decide (r.sequenceId = sequence) && p r) = 0 := by
    intro part hpart
    refine List.countP_eq_zero.mpr fun r' hr' => ?_
    simp [hpart r' hr']
  refine ⟨r, hr, hsequence, ?_⟩
  rw [List.countP_append, List.countP_cons,
    hzero front fun r' hr' => hothers r' (List.mem_append_left _ hr'),
    hzero back fun r' hr' => hothers r' (List.mem_append_right _ hr')]
  simp [hsequence]

/-- Records of one run, numbered 1 to `n`: the terminal records of a request are one or
none, by the outcome of its record. -/
theorem countP_isTerminalOf (hnumbered : records.map RunnerRecord.sequenceId = List.range' 1 n)
    (hruns : ∀ r ∈ records, r.runId = config.runId) {sequence : ℕ} (hpos : 1 ≤ sequence)
    (hle : sequence ≤ n) :
    ∃ r ∈ records, r.sequenceId = sequence ∧
      records.countP (isTerminalOf config sequence) = if isTerminal r.outcome then 1 else 0 := by
  obtain ⟨r, hr, hsequence, hcount⟩ :=
    countP_eq_one_iff hnumbered (fun r => isTerminal r.outcome) hpos hle
  refine ⟨r, hr, hsequence, hcount ▸ List.countP_congr fun r' hr' => ?_⟩
  rw [isTerminalOf, hruns r' hr', decide_eq_true rfl, Bool.true_and]

/-- **One terminal record each, exactly when none was early.** -/
theorem Complete.one_iff (h : Complete config records) :
    OneTerminal config records ↔ NoneEarly records := by
  obtain ⟨before, after, rfl, hbefore, hafter, hoffline, hpost⟩ := h
  have hone : ∀ sequence, 1 ≤ sequence → sequence ≤ config.offlineRequests →
      after.countP (isTerminalOf config sequence) = 1 := by
    intro sequence hpos hle
    obtain ⟨r, hr, -, hcount⟩ :=
      countP_isTerminalOf hafter (fun r hr => (hpost r hr).runId) hpos hle
    rw [hcount]
    rcases (hpost r hr).outcome with hout | hout <;> rw [hout] <;> rfl
  constructor
  · intro honly r hr hphase
    have hmem : r ∈ before := by
      rcases List.mem_append.mp hr with hr | hr
      · exact hr
      · rw [(hpost r hr).runPhase] at hphase
        cases hphase
    have hrange : r.sequenceId ∈ List.range' 1 config.offlineRequests :=
      hbefore ▸ List.mem_map_of_mem hmem
    obtain ⟨hpos, hlt⟩ := List.mem_range'_1.mp hrange
    have hsum := honly r.sequenceId hpos (by omega)
    rw [List.countP_append, hone r.sequenceId hpos (by omega), Nat.add_eq_right,
      List.countP_eq_zero] at hsum
    refine (hoffline r hmem).outcome.resolve_right fun hout => hsum r hmem ?_
    simp [isTerminalOf, (hoffline r hmem).runId, hout, isTerminal]
  · intro hearly sequence hpos hle
    rw [List.countP_append, hone sequence hpos hle, Nat.add_eq_right, List.countP_eq_zero]
    intro r hr
    rw [isTerminalOf, hearly r (List.mem_append_left _ hr) (hoffline r hr).runPhase]
    simp [isTerminal]

end Counting

/-! ## 2.  The participant during a run -/

/-- A send ends in an exception. -/
def failsSend : Happening → Bool
  | .rejected .. | .sendRaised => true
  | _ => false

/-- The task that made the call has ended. -/
def Ended (call : Call) : Prop := call.phase = .returned ∨ call.phase = .raised

section Participant

variable {clock : MonotonicClock} {s s' : State} {l : Human.Label}

theorem roomId_external (hl : l.External) (h : Human.step clock s l = some s') :
    s'.roomId = s.roomId := by
  have happly : ∀ i hap, s.apply i hap = some s' → s'.roomId = s.roomId := by
    intro i hap hs
    obtain ⟨call, -, hs⟩ := Option.bind_eq_some_iff.mp hs
    obtain ⟨call', -, hs⟩ := Option.bind_eq_some_iff.mp hs
    rw [← Option.some_inj.mp hs]
  cases l with
  | request => exact absurd hl id
  | sendOffline => exact absurd hl id
  | deliver event episode =>
    rw [step_deliver] at h
    cases htarget : s.happening clock (.deliver event episode) with
    | none =>
      rw [htarget] at h
      rw [← Option.some_inj.mp h]
    | some target =>
      rw [htarget] at h
      exact happly _ _ h
  | _ => exact happly _ _ h

/-- Only an ACK still reaches a call whose task has ended. -/
theorem phase_of_ended {call call' : Call} {hap : Happening} (hended : Ended call)
    (h : call.after hap = some call') : call'.phase = call.phase ∧ failsSend hap = false := by
  obtain ⟨it, timeout, phase⟩ := call
  rcases hended with hphase | hphase <;> obtain rfl := hphase <;> cases hap <;>
    first
    | exact ⟨(Option.some_inj.mp h) ▸ rfl, rfl⟩
    | cases h

/-- An offline send ends by returning or by raising. -/
theorem phase_of_sendingOffline {call call' : Call} {hap : Happening}
    (hphase : call.phase = .sendingOffline) (h : call.after hap = some call') :
    (call'.phase = .sendingOffline ∧ failsSend hap = false) ∨
      (call'.phase = .returned ∧ failsSend hap = false) ∨
      (call'.phase = .raised ∧ failsSend hap = true) := by
  obtain ⟨it, timeout, phase⟩ := call
  obtain rfl := hphase
  cases hap with
  | acknowledged => exact Or.inl ⟨(Option.some_inj.mp h) ▸ rfl, rfl⟩
  | sent => exact Or.inr (Or.inl ⟨(Option.some_inj.mp h) ▸ rfl, rfl⟩)
  | rejected => exact Or.inr (Or.inr ⟨(Option.some_inj.mp h) ▸ rfl, rfl⟩)
  | sendRaised => exact Or.inr (Or.inr ⟨(Option.some_inj.mp h) ▸ rfl, rfl⟩)
  | timerFired => cases h
  | resumed => cases h

/-- The failing labels are those that make a send fail. -/
theorem sendFails_iff {note : Text} {i : ℕ} {hap : Happening}
    (h : s.happening clock l = some (i, hap)) :
    (RunState.Label.human l note).SendFails ↔ failsSend hap = true := by
  cases l with
  | request => cases h
  | sendOffline => cases h
  | deliver event episode =>
    obtain ⟨j, -, hj⟩ := Option.map_eq_some_iff.mp h
    rw [← (Prod.mk.inj hj).2]
    exact iff_of_false id Bool.false_ne_true
  | sendReturned =>
    rw [← (Prod.mk.inj (Option.some_inj.mp h)).2]
    exact iff_of_false id Bool.false_ne_true
  | sendRejected =>
    rw [← (Prod.mk.inj (Option.some_inj.mp h)).2]
    exact iff_of_true trivial rfl
  | sendRaised =>
    rw [← (Prod.mk.inj (Option.some_inj.mp h)).2]
    exact iff_of_true trivial rfl
  | timerFires =>
    rw [← (Prod.mk.inj (Option.some_inj.mp h)).2]
    exact iff_of_false id Bool.false_ne_true
  | resume =>
    rw [← (Prod.mk.inj (Option.some_inj.mp h)).2]
    exact iff_of_false id Bool.false_ne_true

/-- A label that concerns no call makes no send fail. -/
theorem not_sendFails {note : Text} (h : s.happening clock l = none) :
    ¬ (RunState.Label.human l note).SendFails := by
  cases l with
  | sendRejected => cases h
  | sendRaised => cases h
  | _ => exact id

/-- **What `send_offline` does before its send**: it registers the interaction, or the
transaction id of the request cannot be formed. -/
theorem sendOffline_cases (clock : MonotonicClock) (correlation : Correlation) {roomId : Text}
    (hroom : s.roomId = some roomId) :
    (∃ e, correlation.txnId Direction.request.value = .error e ∧
        s.sendOffline clock correlation = (s, .error (.message e))) ∨
      ∃ token txnId, correlation.sequenceToken = .ok token ∧
        s.sendOffline clock correlation =
          (s.register ⟨.new correlation txnId (clock.read s.reads), none, .sendingOffline⟩ 1,
            .ok s.calls.length) := by
  unfold State.sendOffline
  rw [hroom]
  cases htoken : correlation.sequenceToken with
  | error e =>
    have htxn : correlation.txnId Direction.request.value = .error (.value e) := by
      rw [txnId_eq, htoken]
      rfl
    rw [htxn]
    exact Or.inl ⟨_, rfl, rfl⟩
  | ok token =>
    obtain ⟨txnId, htxn⟩ := exists_txnId htoken .request
    have hbody : ∃ body, buildRequest correlation none = .ok body := by
      unfold buildRequest buildBody envelope
      rw [htoken]
      exact ⟨_, rfl⟩
    obtain ⟨body, hbody⟩ := hbody
    rw [htxn, hbody]
    exact Or.inr ⟨token, txnId, rfl, rfl⟩

end Participant

/-! ## 3.  A run that has not ended -/

/-- **What holds until the second loop.**  Every correlation can be written out and has a
registered interaction, and the records are those of the requests whose sends have
ended. -/
structure Live (config : RunConfig) (w : RunState) : Prop where
  room : w.human.roomId = some config.roomId
  runIds : ∀ c ∈ w.correlations, c.runId = config.runId
  tokens : ∀ c ∈ w.correlations, ∃ token, c.sequenceToken = .ok token
  registered : ∀ c ∈ w.correlations, ∃ i, w.human.pending.get? c.key = some i
  pending : ∀ k i, w.human.pending.get? k = some i → i < w.human.calls.length
  numbered : w.correlations.map Correlation.sequenceId = List.range' 1 w.correlations.length
  written : w.records.map RunnerRecord.sequenceId = List.range' 1 w.records.length
  offline : ∀ r ∈ w.records, r.Offline config

/-- No send is awaited, and `left` requests are still to be made. -/
structure Between (config : RunConfig) (w : RunState) (left : ℕ) : Prop extends
    Live config w where
  recorded : w.records.length = w.correlations.length
  toGo : w.correlations.length + left = config.offlineRequests
  ended : ∀ call ∈ w.human.calls, Ended call

/-- The send of the latest request is awaited. -/
structure Awaiting (config : RunConfig) (w : RunState) (correlation : Correlation)
    (call left : ℕ) : Prop extends Live config w where
  latest : correlation ∈ w.correlations ∧ correlation.sequenceId = w.correlations.length
  recorded : w.records.length + 1 = w.correlations.length
  toGo : w.correlations.length + left = config.offlineRequests
  current : ∃ c, w.human.calls[call]? = some c ∧ c.phase = .sendingOffline
  others : ∀ i c, w.human.calls[i]? = some c → i ≠ call → Ended c

/-- The invariant of a run. -/
def Inv (config : RunConfig) (w : RunState) : Prop :=
  match w.stage with
  | .sending correlation call left => Awaiting config w correlation call left
  | .raised => True
  | .returned => Complete config w.records
  | _ => Between config w 0

section Run

variable {clock : MonotonicClock} {config : RunConfig} {w w' : RunState}

theorem inv_iff_awaiting {correlation : Correlation} {call left : ℕ}
    (hstage : w.stage = .sending correlation call left) :
    Inv config w ↔ Awaiting config w correlation call left := by
  unfold Inv
  rw [hstage]

/-- The stages between the offline loop and the second one. -/
def Idle : Stage → Prop
  | .restarting | .waiting _ | .expired | .settling => True
  | _ => False

theorem inv_iff_between (hstage : Idle w.stage) : Inv config w ↔ Between config w 0 := by
  unfold Inv
  cases h : w.stage with
  | sending => exact absurd hstage (h ▸ id)
  | returned => exact absurd hstage (h ▸ id)
  | raised => exact absurd hstage (h ▸ id)
  | _ => exact Iff.rfl

/-- Neither the clock nor the stage is part of what holds between two requests. -/
theorem Between.congr {left : ℕ} (h : Between config w left)
    (hcalls : w'.human.calls = w.human.calls) (hpending : w'.human.pending = w.human.pending)
    (hroom : w'.human.roomId = w.human.roomId) (hcorrelations : w'.correlations = w.correlations)
    (hrecords : w'.records = w.records) : Between config w' left where
  room := hroom.trans h.room
  runIds := hcorrelations ▸ h.runIds
  tokens := hcorrelations ▸ h.tokens
  registered := by
    rw [hcorrelations, hpending]
    exact h.registered
  pending := by
    rw [hpending, hcalls]
    exact h.pending
  numbered := hcorrelations ▸ h.numbered
  written := hrecords ▸ h.written
  offline := hrecords ▸ h.offline
  recorded := by
    rw [hrecords, hcorrelations]
    exact h.recorded
  toGo := hcorrelations ▸ h.toGo
  ended := hcalls ▸ h.ended

/-! ### Something happens to the participant -/

/-- An event of the participant moves no correlation and no record. -/
theorem Live.human {human : State} {l : Human.Label} (h : Live config w) (hl : l.External)
    (hstep : Human.step clock w.human l = some human) :
    Live config { w with human := human } := by
  obtain ⟨-, hpending, hcalls⟩ := step_external hl hstep
  have hlength : human.calls.length = w.human.calls.length := by
    rcases hcalls with ⟨i, hap, call, call', -, -, -, hset⟩ | ⟨-, hsame⟩
    · rw [hset, List.length_set]
    · rw [hsame]
  exact
    { room := (roomId_external hl hstep).trans h.room
      runIds := h.runIds
      tokens := h.tokens
      registered := fun c hc => (congrArg (fun d => d.get? c.key) hpending).symm ▸ h.registered c hc
      pending := by
        intro k i hk
        change human.pending.get? k = some i at hk
        rw [hpending] at hk
        change i < human.calls.length
        rw [hlength]
        exact h.pending k i hk
      numbered := h.numbered
      written := h.written
      offline := h.offline }

/-- Between two requests nothing but an ACK can reach a call. -/
theorem Between.human {human : State} {l : Human.Label} {left : ℕ} (note : Text)
    (h : Between config w left) (hl : l.External)
    (hstep : Human.step clock w.human l = some human) :
    Between config { w with human := human } left ∧ ¬ (RunState.Label.human l note).SendFails := by
  obtain ⟨-, -, hcalls⟩ := step_external hl hstep
  have hlive := h.toLive.human hl hstep
  rcases hcalls with ⟨i, hap, call, call', hlabel, hcall, hcall', hset⟩ | ⟨hnone, hsame⟩
  · have hmem := List.mem_of_getElem? hcall
    obtain ⟨hphase, hok⟩ := phase_of_ended (h.ended call hmem) hcall'
    refine ⟨⟨hlive, h.recorded, h.toGo, ?_⟩, ?_⟩
    · intro c hc
      change c ∈ human.calls at hc
      rw [hset] at hc
      rcases List.mem_or_eq_of_mem_set hc with hc | rfl
      · exact h.ended c hc
      · unfold Ended
        rw [hphase]
        exact h.ended call hmem
    · rw [sendFails_iff hlabel, hok]
      exact Bool.false_ne_true
  · refine ⟨⟨hlive, h.recorded, h.toGo, ?_⟩, not_sendFails hnone⟩
    intro c hc
    change c ∈ human.calls at hc
    rw [hsame] at hc
    exact h.ended c hc

/-- **The awaited send stays, returns, or raises**, and it raises on the failing labels
only. -/
theorem Awaiting.human {human : State} {l : Human.Label} {correlation : Correlation}
    {call left : ℕ} (note : Text) (h : Awaiting config w correlation call left) (hl : l.External)
    (hstep : Human.step clock w.human l = some human) :
    (Awaiting config { w with human := human } correlation call left ∧
        ¬ (RunState.Label.human l note).SendFails) ∨
      ((∀ c ∈ human.calls, Ended c) ∧ ∃ c, human.calls[call]? = some c ∧
        (c.phase = .returned ∧ ¬ (RunState.Label.human l note).SendFails ∨
          c.phase = .raised ∧ (RunState.Label.human l note).SendFails)) := by
  obtain ⟨-, -, hcalls⟩ := step_external hl hstep
  have hlive := h.toLive.human hl hstep
  obtain ⟨current, hcurrent, hsending⟩ := h.current
  rcases hcalls with ⟨i, hap, c, c', hlabel, hc, hc', hset⟩ | ⟨hnone, hsame⟩
  · have hlt : i < w.human.calls.length := (List.getElem?_eq_some_iff.mp hc).1
    have hat : human.calls[i]? = some c' := by rw [hset, List.getElem?_set_self hlt]
    have hne : ∀ j, j ≠ i → human.calls[j]? = w.human.calls[j]? := fun j hj => by
      rw [hset, List.getElem?_set_ne (Ne.symm hj)]
    rw [sendFails_iff hlabel]
    by_cases hi : i = call
    · -- the awaited call itself
      subst hi
      obtain rfl := Option.some_inj.mp (hc.symm.trans hcurrent)
      have hothers : ∀ j x, human.calls[j]? = some x → j ≠ i → Ended x := fun j x hx hj =>
        h.others j x (hne j hj ▸ hx) hj
      have hall : Ended c' → ∀ x ∈ human.calls, Ended x := by
        intro hended x hx
        obtain ⟨j, hj⟩ := List.mem_iff_getElem?.mp hx
        by_cases hji : j = i
        · rw [hji, hat] at hj
          exact Option.some_inj.mp hj ▸ hended
        · exact hothers j x hj hji
      rcases phase_of_sendingOffline hsending hc' with ⟨hp, hok⟩ | ⟨hp, hok⟩ | ⟨hp, hfails⟩
      · refine Or.inl ⟨⟨hlive, h.latest, h.recorded, h.toGo, ⟨c', hat, hp⟩, hothers⟩, ?_⟩
        rw [hok]
        exact Bool.false_ne_true
      · refine Or.inr ⟨hall (Or.inl hp), c', hat, Or.inl ⟨hp, ?_⟩⟩
        rw [hok]
        exact Bool.false_ne_true
      · exact Or.inr ⟨hall (Or.inr hp), c', hat, Or.inr ⟨hp, hfails⟩⟩
    · -- another call, whose task has ended
      have hended := h.others i c hc hi
      obtain ⟨hphase, hok⟩ := phase_of_ended hended hc'
      have hended' : Ended c' := by
        unfold Ended
        rw [hphase]
        exact hended
      refine Or.inl ⟨⟨hlive, h.latest, h.recorded, h.toGo,
        ⟨current, (hne call (Ne.symm hi)).trans hcurrent, hsending⟩, ?_⟩, ?_⟩
      · intro j x hx hj
        by_cases hji : j = i
        · rw [hji] at hx
          exact Option.some_inj.mp (hat.symm.trans hx) ▸ hended'
        · exact h.others j x (hne j hji ▸ hx) hj
      · rw [hok]
        exact Bool.false_ne_true
  · refine Or.inl ⟨⟨hlive, h.latest, h.recorded, h.toGo, ?_, ?_⟩, not_sendFails hnone⟩
    · exact ⟨current, (congrArg (·[call]?) hsame).trans hcurrent, hsending⟩
    · intro j x hx hj
      exact h.others j x ((congrArg (·[j]?) hsame).symm.trans hx) hj

/-! ### The run's own code -/

/-- The record of the latest request completes the records. -/
theorem Awaiting.record {human : State} {correlation : Correlation} {call left : ℕ}
    {r : RunnerRecord} (h : Awaiting config w correlation call left)
    (hlive : Live config { w with human := human }) (hended : ∀ c ∈ human.calls, Ended c)
    (hr : r.Offline config) (hsequence : r.sequenceId = correlation.sequenceId)
    (hhuman : w'.human.calls = human.calls ∧ w'.human.pending = human.pending ∧
      w'.human.roomId = human.roomId)
    (hcorrelations : w'.correlations = w.correlations) (hrecords : w'.records = w.records ++ [r]) :
    Between config w' left := by
  have hlatest : Between config { w with human := human, records := w.records ++ [r] } left :=
    { room := hlive.room
      runIds := hlive.runIds
      tokens := hlive.tokens
      registered := hlive.registered
      pending := hlive.pending
      numbered := hlive.numbered
      written := by
        change (w.records ++ [r]).map RunnerRecord.sequenceId =
          List.range' 1 (w.records ++ [r]).length
        rw [List.map_append, h.written, List.length_append, List.length_singleton,
          List.range'_1_concat, List.map_singleton, hsequence, h.latest.2, ← h.recorded,
          Nat.add_comm 1]
      offline := by
        intro r' hr'
        rcases List.mem_append.mp hr' with hr' | hr'
        · exact hlive.offline r' hr'
        · rw [List.mem_singleton.mp hr']
          exact hr
      recorded := by
        change (w.records ++ [r]).length = w.correlations.length
        rw [List.length_append, List.length_singleton, h.recorded]
      toGo := h.toGo
      ended := hended }
  exact hlatest.congr hhuman.1 hhuman.2.1 hhuman.2.2 hcorrelations hrecords

/-- **The loop from its head.**  It ends, or cannot form the identifiers of the next
request, or registers its interaction and suspends in its send. -/
theorem attempt_cases (clock : MonotonicClock) {left : ℕ} (h : Between config w left) :
    (left = 0 ∧ w.attempt clock config left = w.restart clock) ∨
      ((w.attempt clock config left).stage = .raised ∧
        (w.attempt clock config left).records = w.records) ∨
      ∃ correlation token txnId rest, left = rest + 1 ∧
        correlation.sequenceToken = .ok token ∧ correlation.runId = config.runId ∧
        correlation.sequenceId = w.correlations.length + 1 ∧
        w.attempt clock config left =
          { w with
            human := w.human.register
              ⟨.new correlation txnId (clock.read w.human.reads), none, .sendingOffline⟩ 1
            correlations := w.correlations ++ [correlation]
            stage := .sending correlation w.human.calls.length rest } := by
  cases left with
  | zero => exact Or.inl ⟨rfl, rfl⟩
  | succ left =>
    unfold RunState.attempt
    cases hnew : Correlation.new experiment config.runId (config.offlineRequests - left : ℕ) with
    | error e => exact Or.inr (Or.inl ⟨rfl, rfl⟩)
    | ok correlation =>
      obtain ⟨-, hrun, hsequence⟩ := fields_of_new hnew
      have htoGo := h.toGo
      have hlatest : correlation.sequenceId = w.correlations.length + 1 := by
        rw [hsequence, Int.toNat_natCast]
        omega
      dsimp only
      rcases sendOffline_cases clock correlation h.room
        with ⟨e, htxn, hsend⟩ | ⟨token, txnId, htoken, hsend⟩
      · rw [hsend]
        have hfails : ∀ note, RunState.sendFailed clock config
            { w with correlations := w.correlations ++ [correlation] } correlation note =
              .error e := by
          intro note
          unfold RunState.sendFailed sendErrorRecord
          rw [htxn]
          rfl
        dsimp only
        rw [hfails]
        exact Or.inr (Or.inl ⟨rfl, rfl⟩)
      · rw [hsend]
        exact Or.inr (Or.inr ⟨correlation, token, txnId, left, rfl, htoken, hrun, hlatest, rfl⟩)

/-- The registration of the next request. -/
theorem Between.register {correlation : Correlation} {token txnId : Text} {t0 left : ℕ}
    (h : Between config w (left + 1)) (htoken : correlation.sequenceToken = .ok token)
    (hrun : correlation.runId = config.runId)
    (hsequence : correlation.sequenceId = w.correlations.length + 1) :
    Awaiting config
      { w with
        human := w.human.register ⟨.new correlation txnId t0, none, .sendingOffline⟩ 1
        correlations := w.correlations ++ [correlation]
        stage := .sending correlation w.human.calls.length left }
      correlation w.human.calls.length left :=
  { room := h.room
    runIds := by
      intro c hc
      rcases List.mem_append.mp hc with hc | hc
      · exact h.runIds c hc
      · rw [List.mem_singleton.mp hc]
        exact hrun
    tokens := by
      intro c hc
      rcases List.mem_append.mp hc with hc | hc
      · exact h.tokens c hc
      · rw [List.mem_singleton.mp hc]
        exact ⟨token, htoken⟩
    registered := by
      intro c hc
      change ∃ i, (w.human.pending.set correlation.key w.human.calls.length).get? c.key = some i
      rw [OrderedDict.get?_set]
      split
      · exact ⟨_, rfl⟩
      · rename_i hkey
        rcases List.mem_append.mp hc with hc | hc
        · exact h.registered c hc
        · exact absurd (congrArg Correlation.key (List.mem_singleton.mp hc)) hkey
    pending := by
      intro k i hk
      change (w.human.pending.set correlation.key w.human.calls.length).get? k = some i at hk
      change i < (w.human.calls ++ [_]).length
      rw [OrderedDict.get?_set] at hk
      rw [List.length_append, List.length_singleton]
      split at hk
      · rw [← Option.some_inj.mp hk]
        exact Nat.lt_succ_self _
      · exact Nat.lt_succ_of_lt (h.pending k i hk)
    numbered := by
      change (w.correlations ++ [correlation]).map Correlation.sequenceId =
        List.range' 1 (w.correlations ++ [correlation]).length
      rw [List.map_append, h.numbered, List.length_append, List.length_singleton,
        List.range'_1_concat, List.map_singleton, hsequence, Nat.add_comm 1]
    written := h.written
    offline := h.offline
    latest := by
      refine ⟨List.mem_append_right _ List.mem_cons_self, ?_⟩
      change correlation.sequenceId = (w.correlations ++ [correlation]).length
      rw [hsequence, List.length_append, List.length_singleton]
    recorded := by
      change w.records.length + 1 = (w.correlations ++ [correlation]).length
      rw [h.recorded, List.length_append, List.length_singleton]
    toGo := by
      have htoGo := h.toGo
      change (w.correlations ++ [correlation]).length + left = config.offlineRequests
      rw [List.length_append, List.length_singleton]
      omega
    current := ⟨_, List.getElem?_concat_length, rfl⟩
    others := by
      intro i c hc hi
      change (w.human.calls ++ [_])[i]? = some c at hc
      obtain ⟨hlt, -⟩ := List.getElem?_eq_some_iff.mp hc
      rw [List.length_append, List.length_singleton] at hlt
      rw [List.getElem?_append_left (by omega)] at hc
      exact h.ended c (List.mem_of_getElem? hc) }

/-- The loop writes no record of its own up to the next suspension. -/
theorem attempt_spec (clock : MonotonicClock) {left : ℕ} (h : Between config w left) :
    Inv config (w.attempt clock config left) ∧
      (w.attempt clock config left).records = w.records := by
  rcases attempt_cases clock h with ⟨rfl, hattempt⟩ | ⟨hraised, hrecords⟩ |
    ⟨correlation, token, txnId, rest, rfl, htoken, hrun, hsequence, hattempt⟩
  · rw [hattempt]
    exact ⟨h.congr rfl rfl rfl rfl rfl, rfl⟩
  · refine ⟨?_, hrecords⟩
    unfold Inv
    rw [hraised]
    trivial
  · rw [hattempt]
    exact ⟨h.register htoken hrun hsequence, rfl⟩

/-- A failed send is recorded as a terminal error. -/
theorem exists_sendFailed (clock : MonotonicClock) {correlation : Correlation} {token : Text}
    (htoken : correlation.sequenceToken = .ok token) (note : Text) :
    ∃ w' r, w.sendFailed clock config correlation note = .ok w' ∧
      (w'.human.calls = w.human.calls ∧ w'.human.pending = w.human.pending ∧
        w'.human.roomId = w.human.roomId) ∧
      w'.correlations = w.correlations ∧ w'.records = w.records ++ [r] ∧
      w'.sentEventIds = w.sentEventIds ∪ (truthy r.requestEventId).toFinset ∧
      r.Offline config ∧ r.sequenceId = correlation.sequenceId ∧ r.outcome = .sendError := by
  obtain ⟨request, hrequest⟩ := exists_txnId htoken .request
  obtain ⟨response, hresponse⟩ := exists_txnId htoken .response
  unfold RunState.sendFailed sendErrorRecord
  rw [hrequest, hresponse]
  exact ⟨_, _, rfl, ⟨rfl, rfl, rfl⟩, rfl, rfl, (Finset.union_empty _).symm,
    ⟨rfl, rfl, Or.inr rfl⟩, rfl, rfl⟩

/-- A send that returned is recorded as intermediate. -/
theorem exists_sendReturned {correlation : Correlation} {token : Text}
    (htoken : correlation.sequenceToken = .ok token) (it : Interaction) :
    ∃ w' r, w.sendReturned config correlation it = .ok w' ∧
      (w'.human.calls = w.human.calls ∧ w'.human.pending = w.human.pending ∧
        w'.human.roomId = w.human.roomId) ∧
      w'.correlations = w.correlations ∧ w'.records = w.records ++ [r] ∧
      w'.sentEventIds = w.sentEventIds ∪ (truthy r.requestEventId).toFinset ∧
      r.Offline config ∧ r.sequenceId = correlation.sequenceId ∧ r.outcome = .offlineSend := by
  obtain ⟨response, hresponse⟩ := exists_txnId htoken .response
  unfold RunState.sendReturned offlineSendRecord
  rw [hresponse]
  refine ⟨_, _, rfl, ⟨rfl, rfl, rfl⟩, rfl, rfl, ?_, ⟨rfl, rfl, Or.inl rfl⟩, rfl, rfl⟩
  change _ = w.sentEventIds ∪ (truthy it.requestEventId).toFinset
  dsimp only
  cases truthy it.requestEventId with
  | none => exact (Finset.union_empty _).symm
  | some eventId => exact (Finset.insert_eq _ _).trans (Finset.union_comm _ _)

theorem noneEarly_append_iff {records : List RunnerRecord} {r : RunnerRecord}
    (hr : r.Offline config) :
    NoneEarly (records ++ [r]) ↔ NoneEarly records ∧ r.outcome = .offlineSend := by
  constructor
  · exact fun h => ⟨fun r' hr' => h r' (List.mem_append_left _ hr'),
      h r (List.mem_append_right _ List.mem_cons_self) hr.runPhase⟩
  · rintro ⟨hrecords, hout⟩ r' hr' hphase
    rcases List.mem_append.mp hr' with hr' | hr'
    · exact hrecords r' hr' hphase
    · rw [List.mem_singleton.mp hr']
      exact hout

/-- **What the run does once something happened to the participant during a send.**  The
send is still awaited, or its record is written and the loop goes on. -/
theorem resume_cases (note : Text) {human : State} {l : Human.Label} {correlation : Correlation}
    {call left : ℕ} (hstage : w.stage = .sending correlation call left)
    (h : Awaiting config w correlation call left) (hl : l.External)
    (hstep : Human.step clock w.human l = some human) (text : Text) :
    (Awaiting config { w with human := human } correlation call left ∧
        ¬ (RunState.Label.human l note).SendFails ∧
        { w with human := human }.resume clock config text = { w with human := human }) ∨
      ∃ w' r, { w with human := human }.resume clock config text = w'.attempt clock config left ∧
        Between config w' left ∧
        (w'.human.calls = human.calls ∧ w'.human.pending = human.pending) ∧
        w'.correlations = w.correlations ∧ w'.records = w.records ++ [r] ∧
        w'.sentEventIds = w.sentEventIds ∪ (truthy r.requestEventId).toFinset ∧
        r.Offline config ∧
        (r.outcome = .offlineSend ↔ ¬ (RunState.Label.human l note).SendFails) := by
  have hlive := h.toLive.human hl hstep
  obtain ⟨token, htoken⟩ := h.tokens correlation h.latest.1
  have hstage' : ({ w with human := human } : RunState).stage = _ := hstage
  rcases h.human note hl hstep with ⟨hawait, hok⟩ | ⟨hended, ⟨it, timeout, phase⟩, hc,
    hends⟩
  · obtain ⟨⟨it, timeout, phase⟩, hcurrent, hsending⟩ := hawait.current
    obtain rfl : phase = .sendingOffline := hsending
    exact Or.inl ⟨hawait, hok, RunState.resume_of_sendingOffline hstage' hcurrent⟩
  · have hc' : ({ w with human := human } : RunState).human.calls[call]? = _ := hc
    right
    rcases hends with ⟨hp, hok⟩ | ⟨hp, hfails⟩
    · obtain rfl : phase = .returned := hp
      obtain ⟨w', r, hw', hhuman, hcorrelations, hrecords, hsent, hoffline, hsequence, hout⟩ :=
        exists_sendReturned (w := { w with human := human }) htoken it
      exact ⟨w', r, RunState.resume_of_returned hstage' hc' hw',
        h.record hlive hended hoffline hsequence hhuman hcorrelations hrecords,
        ⟨hhuman.1, hhuman.2.1⟩,
        hcorrelations, hrecords, hsent, hoffline, iff_of_true hout hok⟩
    · obtain rfl : phase = .raised := hp
      obtain ⟨w', r, hw', hhuman, hcorrelations, hrecords, hsent, hoffline, hsequence, hout⟩ :=
        exists_sendFailed (w := { w with human := human }) clock htoken text
      refine ⟨w', r, RunState.resume_of_raised hstage' hc' hw',
        h.record hlive hended hoffline hsequence hhuman hcorrelations hrecords,
        ⟨hhuman.1, hhuman.2.1⟩,
        hcorrelations, hrecords, hsent, hoffline, ?_⟩
      rw [hout]
      exact iff_of_false InteractionOutcome.noConfusion fun hnot => hnot hfails

/-- **The offline loop goes on**: a failed send leaves a terminal record, and nothing else
does. -/
theorem resume_spec {human : State} {l : Human.Label} {correlation : Correlation}
    {call left : ℕ} {note : Text} (hstage : w.stage = .sending correlation call left)
    (h : Awaiting config w correlation call left) (hl : l.External)
    (hstep : Human.step clock w.human l = some human) (text : Text) :
    Inv config ({ w with human := human }.resume clock config text) ∧
      (NoneEarly ({ w with human := human }.resume clock config text).records ↔
        NoneEarly w.records ∧ ¬ (RunState.Label.human l note).SendFails) := by
  rcases resume_cases note hstage h hl hstep text with ⟨hawait, hok, hresume⟩ |
    ⟨w', r, hresume, hbetween, -, -, hrecords, -, hoffline, hout⟩
  · rw [hresume]
    have hstage' : ({ w with human := human } : RunState).stage = _ := hstage
    exact ⟨(inv_iff_awaiting hstage').mpr hawait, (and_iff_left hok).symm⟩
  · obtain ⟨hinv, hsame⟩ := attempt_spec clock hbetween
    rw [hresume, hsame, hrecords, noneEarly_append_iff hoffline, hout]
    exact ⟨hinv, Iff.rfl⟩

/-- The record the second loop writes about an interaction. -/
def Reports (config : RunConfig) (restartNs : ℕ) (r : RunnerRecord) (it : Interaction) : Prop :=
  ∃ c, postRestartRecord config restartNs c it = .ok r

/-- What a record of the second loop has from its interaction. -/
def RunnerRecord.acks (r : RunnerRecord) : Option Text × ℕ :=
  (r.responseEventId, r.duplicateAckCount)

/-- The same of the interaction. -/
def acksOf (it : Interaction) : Option Text × ℕ := (it.responseEventId, it.duplicateAckCount)

/-- What the second loop copies from an interaction, and what it decides about it. -/
theorem Reports.fields {restartNs : ℕ} {r : RunnerRecord} {it : Interaction}
    (h : Reports config restartNs r it) :
    r.runId = config.runId ∧ r.runPhase = .postRestart ∧
      r.outcome = (if isCompleted it then .success else .timeout) ∧
      r.completedMonotonicNs = it.completedMonotonicNs ∧ r.acks = acksOf it := by
  obtain ⟨c, hc⟩ := h
  unfold postRestartRecord at hc
  cases hresponse : c.txnId Direction.response.value with
  | error e =>
    rw [hresponse] at hc
    cases hc
  | ok response =>
    rw [hresponse] at hc
    rw [← Except.ok.inj hc]
    exact ⟨rfl, rfl, rfl, rfl, rfl⟩

theorem Reports.postRestart {restartNs : ℕ} {r : RunnerRecord} {it : Interaction}
    (h : Reports config restartNs r it) : r.PostRestart config := by
  obtain ⟨hrun, hphase, hout, -⟩ := h.fields
  refine ⟨hrun, hphase, ?_⟩
  rw [hout]
  split
  · exact Or.inl rfl
  · exact Or.inr rfl

/-- **The second loop** writes one terminal record for each request. -/
theorem exists_afterRestart (correlations : List Correlation)
    (hmem : ∀ c ∈ correlations, c.runId = config.runId ∧ (∃ token, c.sequenceToken = .ok token) ∧
      ∃ it, w.interaction c = some it) (records : List RunnerRecord) :
    ∃ after, correlations.foldlM (w.afterRestart config) records = .ok (records ++ after) ∧
      after.map RunnerRecord.sequenceId = correlations.map Correlation.sequenceId ∧
      List.Forall₂ (Reports config w.restartNs) after (correlations.filterMap w.interaction) := by
  induction correlations generalizing records with
  | nil => exact ⟨[], by rw [List.append_nil]; rfl, rfl, .nil⟩
  | cons c correlations ih =>
    obtain ⟨-, ⟨token, htoken⟩, it, hit⟩ := hmem c List.mem_cons_self
    obtain ⟨response, hresponse⟩ := exists_txnId htoken .response
    obtain ⟨r, hrecord, hsequence⟩ : ∃ r, postRestartRecord config w.restartNs c it = .ok r ∧
        r.sequenceId = c.sequenceId := by
      unfold postRestartRecord
      rw [hresponse]
      exact ⟨_, rfl, rfl⟩
    have hr : w.afterRestart config records c = .ok (records ++ [r]) := by
      unfold RunState.afterRestart
      rw [hit]
      dsimp only
      rw [hrecord]
      rfl
    obtain ⟨after, hfold, hnumbers, hall⟩ :=
      ih (fun c hc => hmem c (List.mem_cons_of_mem _ hc)) (records ++ [r])
    refine ⟨r :: after, ?_, ?_, ?_⟩
    · rw [List.foldlM_cons, hr]
      exact hfold.trans (by rw [List.append_assoc]; rfl)
    · rw [List.map_cons, List.map_cons, hsequence, hnumbers]
    · rw [List.filterMap_cons_some hit]
      exact .cons ⟨c, hrecord⟩ hall

/-- The acknowledgements in the records are those of the interactions. -/
theorem acks_eq_of_reports {restartNs : ℕ} {after : List RunnerRecord} {its : List Interaction}
    (h : List.Forall₂ (Reports config restartNs) after its) :
    after.map RunnerRecord.acks = its.map acksOf := by
  induction h with
  | nil => rfl
  | cons hr _ ih => rw [List.map_cons, List.map_cons, hr.fields.2.2.2.2, ih]

/-- Every record of the second loop is one. -/
theorem postRestart_of_reports {restartNs : ℕ} {after : List RunnerRecord}
    {its : List Interaction} (h : List.Forall₂ (Reports config restartNs) after its) :
    ∀ r ∈ after, r.PostRestart config := by
  induction h with
  | nil => exact fun r hr => absurd hr List.not_mem_nil
  | cons hr _ ih => exact List.forall_mem_cons.mpr ⟨hr.postRestart, ih⟩

/-- **The end of a run.** -/
theorem finish_eq (h : Between config w 0) :
    ∃ after, w.finish config =
        { w with
          duplicateAcks := w.human.duplicateAcks
          records := w.records ++ after
          stage := .returned } ∧
      after.map RunnerRecord.sequenceId = List.range' 1 config.offlineRequests ∧
      List.Forall₂ (Reports config w.restartNs) after w.awaited := by
  have hmem : ∀ c ∈ w.correlations, c.runId = config.runId ∧
      (∃ token, c.sequenceToken = .ok token) ∧
      ∃ it, ({ w with duplicateAcks := w.human.duplicateAcks } : RunState).interaction c =
        some it := by
    intro c hc
    refine ⟨h.runIds c hc, h.tokens c hc, ?_⟩
    obtain ⟨i, hi⟩ := h.registered c hc
    refine ⟨(w.human.calls.get ⟨i, h.pending _ i hi⟩).interaction, ?_⟩
    simp [RunState.interaction, hi, List.getElem?_eq_getElem (h.pending _ i hi)]
  obtain ⟨after, hfold, hnumbers, hreports⟩ :=
    exists_afterRestart w.correlations hmem w.records
  have hlength : w.correlations.length = config.offlineRequests := h.toGo
  refine ⟨after, ?_, ?_, hreports⟩
  · unfold RunState.finish
    dsimp only
    rw [hfold]
  · rw [hnumbers, h.numbered, hlength]

theorem finish_spec (h : Between config w 0) :
    Complete config (w.finish config).records ∧ (w.finish config).stage = .returned ∧
      (NoneEarly (w.finish config).records ↔ NoneEarly w.records) := by
  obtain ⟨after, hfinish, hnumbers, hreports⟩ := finish_eq h
  have hpost := postRestart_of_reports hreports
  have hlength : w.correlations.length = config.offlineRequests := h.toGo
  rw [hfinish]
  refine ⟨⟨w.records, after, rfl, ?_, hnumbers, h.offline, hpost⟩, rfl, ?_⟩
  · rw [h.written, h.recorded, hlength]
  · constructor
    · exact fun hearly r hr => hearly r (List.mem_append_left _ hr)
    · intro hearly r hr hphase
      rcases List.mem_append.mp hr with hr | hr
      · exact hearly r hr hphase
      · rw [(hpost r hr).runPhase] at hphase
        cases hphase

/-- **The steps of a run**: an event of the participant, a stretch between the two loops,
or the second loop. -/
theorem step_cases {l : RunState.Label} (h : w.step clock config l = some w') :
    (∃ label note human, l = .human label note ∧ w.stage ≠ .returned ∧ w.stage ≠ .raised ∧
        label.External ∧ Human.step clock w.human label = some human ∧
        w' = { w with human := human }.resume clock config (RunState.noteOf note label)) ∨
      (Idle w.stage ∧ ¬ l.SendFails ∧
        (w' = w.awaitAcks clock ∨ w' = { w with stage := .raised } ∨
          w' = { (w.readClock clock).2 with stage := .expired } ∨ w' = w.acksAwaited)) ∨
      (l = .slept ∧ Idle w.stage ∧ w' = w.finish config) := by
  unfold RunState.step at h
  split at h
  · cases h
  · cases h
  · cases h
  · cases h
  · rename_i label note hrequest hoffline hreturned hraised
    obtain ⟨human, hhuman, h⟩ := Option.bind_eq_some_iff.mp h
    refine Or.inl ⟨label, note, human, rfl, hreturned, hraised, ?_, hhuman,
      (Option.some_inj.mp h).symm⟩
    cases label with
    | request => exact absurd rfl (hrequest _ _ _)
    | sendOffline => exact absurd rfl (hoffline _)
    | _ => trivial
  · rename_i hstage
    exact Or.inr (Or.inl ⟨hstage ▸ trivial, id, Or.inl (Option.some_inj.mp h).symm⟩)
  · rename_i hstage
    exact Or.inr (Or.inl ⟨hstage ▸ trivial, id, Or.inr (Or.inl (Option.some_inj.mp h).symm)⟩)
  · rename_i deadline hstage
    dsimp only at h
    split at h
    · exact Or.inr (Or.inl ⟨hstage ▸ trivial, id,
        Or.inr (Or.inr (Or.inl (Option.some_inj.mp h).symm))⟩)
    · cases h
  · rename_i deadline hstage
    split at h
    · exact Or.inr (Or.inl ⟨hstage ▸ trivial, id,
        Or.inr (Or.inr (Or.inr (Option.some_inj.mp h).symm))⟩)
    · cases h
  · rename_i hstage
    exact Or.inr (Or.inl ⟨hstage ▸ trivial, id,
      Or.inr (Or.inr (Or.inr (Option.some_inj.mp h).symm))⟩)
  · rename_i hstage
    exact Or.inr (Or.inr ⟨rfl, hstage ▸ trivial, (Option.some_inj.mp h).symm⟩)
  · cases h

/-- **What one step keeps**, and when it writes a terminal record early. -/
theorem step_spec {l : RunState.Label} (h : Inv config w)
    (hstep : w.step clock config l = some w') :
    Inv config w' ∧ (NoneEarly w'.records ↔ NoneEarly w.records ∧ ¬ l.SendFails) := by
  rcases step_cases hstep with
    ⟨label, note, human, rfl, hreturned, hraised, hl, hhuman, rfl⟩ | ⟨hidle, hok, hw'⟩ |
    ⟨rfl, hidle, rfl⟩
  · by_cases hsending : ∃ correlation call left, w.stage = .sending correlation call left
    · obtain ⟨correlation, call, left, hstage⟩ := hsending
      exact resume_spec hstage ((inv_iff_awaiting hstage).mp h) hl hhuman _
    · have hidle : Idle w.stage := by
        cases hstage : w.stage with
        | sending correlation call left => exact absurd ⟨_, _, _, hstage⟩ hsending
        | returned => exact absurd hstage hreturned
        | raised => exact absurd hstage hraised
        | _ => trivial
      obtain ⟨hbetween, hok⟩ :=
        ((inv_iff_between hidle).mp h).human note hl hhuman
      have hidle' : ({ w with human := human } : RunState).resume clock config
          (RunState.noteOf note label) = { w with human := human } :=
        RunState.resume_of_ne_sending fun correlation call left hstage =>
          hsending ⟨correlation, call, left, hstage⟩
      rw [hidle']
      exact ⟨(inv_iff_between (w := { w with human := human }) hidle).mpr hbetween,
        (and_iff_left hok).symm⟩
  · have hbetween := (inv_iff_between hidle).mp h
    have hkept : w'.records = w.records ∧ Inv config w' := by
      rcases hw' with rfl | rfl | rfl | rfl
      · unfold RunState.awaitAcks
        split
        · exact ⟨rfl, hbetween.congr rfl rfl rfl rfl rfl⟩
        · exact ⟨rfl, hbetween.congr rfl rfl rfl rfl rfl⟩
      · exact ⟨rfl, trivial⟩
      · exact ⟨rfl, hbetween.congr rfl rfl rfl rfl rfl⟩
      · exact ⟨rfl, hbetween.congr rfl rfl rfl rfl rfl⟩
    rw [hkept.1]
    exact ⟨hkept.2, (and_iff_left hok).symm⟩
  · obtain ⟨hcomplete, hstage, hearly⟩ := finish_spec ((inv_iff_between hidle).mp h)
    refine ⟨?_, hearly.trans (and_iff_left id).symm⟩
    unfold Inv
    rw [hstage]
    exact hcomplete

/-- The state the run starts its loop in. -/
def RunState.initial (config : RunConfig) : RunState :=
  { human := .initial (some config.roomId)
    correlations := []
    records := []
    sendFailures := []
    sentEventIds := ∅
    restartNs := 0
    ackCount := 0
    duplicateAcks := 0
    stage := .raised }

theorem between_start (config : RunConfig) :
    Between config (RunState.initial config) config.offlineRequests where
  room := rfl
  runIds := fun c hc => absurd hc List.not_mem_nil
  tokens := fun c hc => absurd hc List.not_mem_nil
  registered := fun c hc => absurd hc List.not_mem_nil
  pending := fun k i hk => by cases hk
  numbered := rfl
  written := rfl
  offline := fun r hr => absurd hr List.not_mem_nil
  recorded := rfl
  toGo := Nat.zero_add _
  ended := fun c hc => absurd hc List.not_mem_nil

theorem inv_start (clock : MonotonicClock) (config : RunConfig) :
    Inv config (RunState.start clock config) ∧
      (RunState.start clock config).records = [] :=
  attempt_spec clock (between_start config)

end Run

/-! ## 4.  Whole runs -/

/-- **One terminal record for each logical request, exactly when no offline send failed.** -/
theorem oneTerminal_iff (clock : MonotonicClock) (config : RunConfig)
    (labels : List RunState.Label) (w : RunState)
    (hrun : exec (RunState.step clock config) (RunState.start clock config) labels = some w)
    (hreturned : w.stage = .returned) :
    OneTerminal config w.records ↔ ∀ l ∈ labels, ¬ l.SendFails := by
  obtain ⟨hstart, hempty⟩ := inv_start clock config
  have hend : Inv config w := invariant_of_exec (Inv config)
    (fun u l u' hu hstep => (step_spec hu hstep).1) hstart hrun
  have hcomplete : Complete config w.records := by
    unfold Inv at hend
    rw [hreturned] at hend
    exact hend
  have hsteps : NoneEarly w.records ↔ NoneEarly (RunState.start clock config).records ∧
      StepsMeet (RunState.step clock config) (RunState.start clock config) labels
        fun _ l => ¬ l.SendFails :=
    final_iff_stepsMeet (Inv config) (fun u => NoneEarly u.records)
      (fun u l u' hu hstep => (step_spec hu hstep).1)
      (fun u l u' hu hstep => (step_spec hu hstep).2) hstart hrun
  rw [hcomplete.one_iff, hsteps, hempty, stepsMeet_iff_forall hrun]
  exact and_iff_right fun r hr => absurd hr List.not_mem_nil

/-! ### One request -/

/-- A run of one offline request. -/
def oneRequest : RunConfig :=
  { runId := ['r'], roomId := ['!', 'r'], offlineRequests := 1, describe := fun _ => [] }

/-- The send is rejected; the wait for its ACK runs into the deadline. -/
def rejectedSend : List RunState.Label :=
  [.human (.sendRejected 0 limitExceeded ['n', 'o']) [], .agentStarted, .timerFires, .acksReturn,
    .slept]

/-- The send is accepted, and answered after the restart. -/
def acceptedSend : List RunState.Label :=
  [.human (.sendReturned 0 ['$', 'q']) [], .agentStarted,
    .human (.deliver { sampleAck ['$', 'a'] with
      body := ['F', 'A', 'M', '/', '1', ' ', 'A', 'C', 'K', ' ', 'E', '2', ' ', 'r', ' ', '1'] }
      none) [],
    .acksReturn, .slept]

/-- **A request whose send was rejected is also a timeout**: two terminal records, by a
clock that runs three minutes between readings. -/
theorem rejectedSend_not_oneTerminal :
    ∃ w, exec (RunState.step (steadyClock (180 * 10 ^ 9)) oneRequest)
        (RunState.start (steadyClock (180 * 10 ^ 9)) oneRequest) rejectedSend = some w ∧
      w.stage = .returned ∧
      w.records.map (fun r => (r.sequenceId, r.outcome)) = [(1, .sendError), (1, .timeout)] ∧
      ¬ OneTerminal oneRequest w.records := by
  have hend : (exec (RunState.step (steadyClock (180 * 10 ^ 9)) oneRequest)
      (RunState.start (steadyClock (180 * 10 ^ 9)) oneRequest) rejectedSend).map (fun w =>
        (w.stage, w.records.map (fun r => (r.sequenceId, r.outcome)),
          w.records.countP (isTerminalOf oneRequest 1))) =
      some (.returned, [(1, .sendError), (1, .timeout)], 2) := by decide +kernel
  obtain ⟨w, hw, hfacts⟩ := Option.map_eq_some_iff.mp hend
  obtain ⟨hstage, hrest⟩ := Prod.mk.inj hfacts
  obtain ⟨hrecords, hcount⟩ := Prod.mk.inj hrest
  refine ⟨w, hw, hstage, hrecords, fun h => ?_⟩
  have hone := h 1 le_rfl le_rfl
  rw [hcount] at hone
  cases hone

/-- A request whose send was accepted has one. -/
theorem acceptedSend_oneTerminal :
    ∃ w, exec (RunState.step (steadyClock 1) oneRequest)
        (RunState.start (steadyClock 1) oneRequest) acceptedSend = some w ∧
      OneTerminal oneRequest w.records := by
  have hend : (exec (RunState.step (steadyClock 1) oneRequest)
      (RunState.start (steadyClock 1) oneRequest) acceptedSend).map RunState.stage =
      some .returned := by decide +kernel
  obtain ⟨w, hw, hstage⟩ := Option.map_eq_some_iff.mp hend
  refine ⟨w, hw, (oneTerminal_iff (steadyClock 1) oneRequest acceptedSend w hw hstage).mpr ?_⟩
  intro l hl
  simp only [acceptedSend, List.mem_cons, List.not_mem_nil, or_false] at hl
  rcases hl with rfl | rfl | rfl | rfl | rfl <;> exact id

end OfflineRecovery
end FederatedMessaging
