import FederatedMessaging.Agent.Runtime
import FederatedMessaging.Experiments.TerminalRecords
import FederatedMessaging.Foundations.Fallible

/-!
# The recovery comparison and its regeneration

A recovery run ends with a comparison artifact, filled from what the run holds in memory.
`scripts/reproduce_derived.py` fills the same fields from the raw streams, by code of its
own, and compares.

## 1.  The two derivations

`comparisonOf` is `_write_artifacts`, `regenerate` the body of the loop of `regenerate_e2`,
both restricted to the fields they share.  The experiment reads the agent's telemetry
twice, before the interruption (`before`) and after the acknowledgements (`read`); the
agent may still write afterwards (`late`), and the archived stream has all of it.  What the
agent writes is any list of its records.

## 2.  The comparison

`compare` reports the fields that differ; `matches_iff` says that it reports a match
exactly when the two artifacts are the same.

## 3.  What a run leaves to both

`Traced` ties the counters of the run to its records, at every step of every run.

## 4.  When they agree

`regeneration_matches_iff` has the exact condition, `Regenerates`.  It asks nothing of the
fields whose two derivations always agree.
-/

namespace FederatedMessaging
namespace OfflineRecovery

open PythonText Message Human LabelledRuns Fallible
open FederatedMessaging.Matrix

/-! ## 1.  The two derivations -/

/-- `AGENT`. -/
def agentId : Text := "@agent:hs-b.test".toList

/-- `sorted`, on texts. -/
def sortedTexts (texts : List Text) : List Text := texts.insertionSort fun x y => x ≤ y

/-- `sorted`, on a set of texts. -/
def sortedSet (texts : Finset Text) : List Text := texts.sort fun x y => x ≤ y

/-- A `recovery_complete` record. -/
structure Recovery where
  recoveredEventIds : List Text
  syncEventIds : List Text
  historyEventIds : List Text
  summary : Agent.LedgerSummary
  deriving DecidableEq

/-- The record if its action is `recovery_complete`. -/
def recoveryOf : Agent.Record → Option Recovery
  | .recoveryComplete recovered fromSync fromHistory summary =>
    some ⟨recovered, fromSync, fromHistory, summary⟩
  | _ => none

/-- `logically_processed` of a `recovery_processing_complete` record. -/
def processedOf : Agent.Record → Option ℕ
  | .recoveryProcessingComplete summary => some summary.logicallyProcessed
  | _ => none

/-- `timeline_limited` of a `post_restart_sync` record. -/
def syncLimitedOf : Agent.Record → Option Bool
  | .postRestartSync limited .. => some limited
  | _ => none

/-- `resumed_from_checkpoint` of a `checkpoint_loaded` record. -/
def resumedOf : Agent.Record → Option Bool
  | .checkpointLoaded _ resumed _ => some resumed
  | _ => none

/-- `timeline_limit` of a `checkpoint_loaded` record. -/
def timelineLimitOf : Agent.Record → Option ℤ
  | .checkpointLoaded _ _ timelineLimit => timelineLimit
  | _ => none

/-- The action of the record is `connected`. -/
def isConnected : Agent.Record → Bool
  | .observation observed _ => observed.action = .connected
  | _ => false

/-- `agent_mxid`: the agent of this experiment is started under one name. -/
def agentMxid (_ : Agent.Record) : Text := agentId

/-- The last of the records of one kind. -/
def lastOf {α : Type} (select : Agent.Record → Option α) (telemetry : List Agent.Record) :
    Option α :=
  (telemetry.filterMap select).getLast?

/-- The fields the two artifacts share. -/
@[ext] structure Comparison where
  runId : Text
  offlineRequestCount : ℕ
  logicalRequestCount : Option ℕ
  sentEventIds : List Text
  recoveredEventIds : List Text
  syncEventIds : List Text
  historyRecoveredEventIds : List Text
  recoveredFromSyncCount : Option ℕ
  recoveredFromHistoryCount : Option ℕ
  historyPagesFetched : Option ℕ
  paginationInvoked : Option Bool
  syncLimited : Option Bool
  timelineLimit : Option ℤ
  missingFromRecovery : List Text
  unexpectedInRecovery : List Text
  ackCount : ℕ
  duplicateAckCount : ℕ
  duplicateObservationCount : Option ℕ
  duplicateProcessingCount : ℕ
  checkpointResumed : Bool
  sameAgentIdentity : Bool
  sourceRawDigests : Text × Text
  deriving DecidableEq

/-- `_identity`. -/
def identity (telemetry : List Agent.Record) : Text :=
  ((telemetry.filter isConnected).head?.map agentMxid).getD []

/-- `_checkpoint_resumed`. -/
def checkpointResumed (telemetry : List Agent.Record) : Bool :=
  (lastOf resumedOf telemetry).getD false

/-- What the artifact takes from `_recovery_summary`. -/
structure RecoverySummary where
  complete : Option Recovery
  syncLimited : Option Bool
  logicallyProcessed : Option ℕ

/-- `_recovery_summary`.  A `recovery_complete` record has no `sync_limited`, and a
`logically_processed` that the last record of the processing overwrites. -/
def recoverySummary (telemetry : List Agent.Record) : RecoverySummary :=
  let complete := lastOf recoveryOf telemetry
  { complete := complete
    syncLimited := lastOf syncLimitedOf telemetry
    logicallyProcessed :=
      match lastOf processedOf telemetry with
      | some processed => some processed
      | none => complete.map (·.summary.logicallyProcessed) }

/-- The event ids a recovery record lists; without a record there are none. -/
def idsOf (select : Recovery → List Text) (recovery : Option Recovery) : List Text :=
  (recovery.map select).getD []

section Streams

variable (runnerDigest : List RunnerRecord → Text) (agentDigest : List Agent.Record → Text)

/-- `_write_artifacts`.  The digests are of the streams as they are at the end. -/
def comparisonOf (config : RunConfig) (timelineLimit : ℤ) (w : RunState)
    (before read late : List Agent.Record) : Comparison :=
  let recovery := recoverySummary read
  let recovered := (idsOf (·.recoveredEventIds) recovery.complete).toFinset
  { runId := config.runId
    offlineRequestCount := config.offlineRequests
    logicalRequestCount := recovery.logicallyProcessed
    sentEventIds := sortedSet w.sentEventIds
    recoveredEventIds := sortedSet recovered
    syncEventIds := sortedTexts (idsOf (·.syncEventIds) recovery.complete)
    historyRecoveredEventIds := sortedTexts (idsOf (·.historyEventIds) recovery.complete)
    recoveredFromSyncCount := recovery.complete.map (·.summary.recoveredFromSync)
    recoveredFromHistoryCount := recovery.complete.map (·.summary.recoveredFromHistory)
    historyPagesFetched := recovery.complete.map (·.summary.historyPagesFetched)
    paginationInvoked := recovery.complete.map (·.summary.paginationInvoked)
    syncLimited := recovery.syncLimited
    timelineLimit := some timelineLimit
    missingFromRecovery := sortedSet (w.sentEventIds \ recovered)
    unexpectedInRecovery := sortedSet (recovered \ w.sentEventIds)
    ackCount := w.ackCount
    duplicateAckCount := w.duplicateAcks
    duplicateObservationCount := recovery.complete.map (·.summary.duplicateObservations)
    duplicateProcessingCount := recovery.logicallyProcessed.getD 0 - recovered.card
    checkpointResumed := checkpointResumed read
    sameAgentIdentity := identity before = identity read ∧ identity before ≠ []
    sourceRawDigests := (runnerDigest w.records, agentDigest (read ++ late)) }

/-- The records of one loop. -/
def inPhase (phase : RunPhase) (records : List RunnerRecord) : List RunnerRecord :=
  records.filter fun r => r.runPhase = phase

/-- The request event ids of some records, those that are not empty. -/
def requestIds (records : List RunnerRecord) : List Text :=
  records.filterMap fun r => truthy r.requestEventId

/-- The artifact of a run by its name. -/
def regeneratedAs (runId : Text) (runner : List RunnerRecord) (agent : List Agent.Record) :
    Comparison :=
  let sent := requestIds (inPhase .offline runner)
  let acks := (inPhase .postRestart runner).filterMap fun r => truthy r.responseEventId
  let recovery := agent.findSome? recoveryOf
  let recovered := idsOf (·.recoveredEventIds) recovery
  { runId := runId
    offlineRequestCount := (inPhase .offline runner).length
    logicalRequestCount := some (inPhase .postRestart runner).length
    sentEventIds := sortedTexts sent
    recoveredEventIds := sortedTexts recovered
    syncEventIds := sortedTexts (idsOf (·.syncEventIds) recovery)
    historyRecoveredEventIds := sortedTexts (idsOf (·.historyEventIds) recovery)
    recoveredFromSyncCount := recovery.map (·.summary.recoveredFromSync)
    recoveredFromHistoryCount := recovery.map (·.summary.recoveredFromHistory)
    historyPagesFetched := recovery.map (·.summary.historyPagesFetched)
    paginationInvoked := recovery.map (·.summary.paginationInvoked)
    syncLimited := recovery.map (·.summary.limitedTimeline)
    timelineLimit := agent.findSome? timelineLimitOf
    missingFromRecovery := sortedSet (sent.toFinset \ recovered.toFinset)
    unexpectedInRecovery := sortedSet (recovered.toFinset \ sent.toFinset)
    ackCount := acks.length
    duplicateAckCount := (runner.map RunnerRecord.duplicateAckCount).sum
    duplicateObservationCount := recovery.map (·.summary.duplicateObservations)
    duplicateProcessingCount := (agent.findSome? processedOf).getD 0 - recovered.toFinset.card
    checkpointResumed := agent.any fun a => resumedOf a = some true
    sameAgentIdentity := (agent.map agentMxid).toFinset.card = 1
    sourceRawDigests := (runnerDigest runner, agentDigest agent) }

/-- The body of the loop of `regenerate_e2`; without an interaction there is no first one
to name the run. -/
def regenerate (runner : List RunnerRecord) (agent : List Agent.Record) : Option Comparison :=
  runner.head?.map fun first =>
    regeneratedAs runnerDigest agentDigest first.runId runner agent

end Streams

/-! ## 2.  The comparison -/

/-- The keys of the two artifacts that are compared, and those that are left out of the
comparison by name. -/
inductive ArtifactKey where
  | runId
  | offlineRequestCount
  | logicalRequestCount
  | sentEventIds
  | recoveredEventIds
  | syncEventIds
  | historyRecoveredEventIds
  | recoveredFromSyncCount
  | recoveredFromHistoryCount
  | historyPagesFetched
  | paginationInvoked
  | syncLimited
  | timelineLimit
  | missingFromRecovery
  | unexpectedInRecovery
  | ackCount
  | duplicateAckCount
  | duplicateObservationCount
  | duplicateProcessingCount
  | checkpointResumed
  | sameAgentIdentity
  | sourceRawDigests
  | generatedAt
  | analysisCodeCommit
  | scopeNote
  deriving DecidableEq

/-- `VOLATILE`. -/
def volatile : List ArtifactKey := [.generatedAt, .analysisCodeCommit, .scopeNote]

/-- A value of an artifact. -/
inductive FieldValue where
  | null
  | bool (b : Bool)
  | int (n : ℤ)
  | text (t : Text)
  | texts (l : List Text)
  | digests (runner agent : Text)
  deriving DecidableEq

/-- The value of an optional field. -/
def FieldValue.ofOption {α : Type} (f : α → FieldValue) (value : Option α) : FieldValue :=
  value.elim .null f

/-- The value under a key; the volatile ones are not here. -/
def Comparison.get (c : Comparison) : ArtifactKey → FieldValue
  | .runId => .text c.runId
  | .offlineRequestCount => .int c.offlineRequestCount
  | .logicalRequestCount => .ofOption (fun n : ℕ => .int n) c.logicalRequestCount
  | .sentEventIds => .texts c.sentEventIds
  | .recoveredEventIds => .texts c.recoveredEventIds
  | .syncEventIds => .texts c.syncEventIds
  | .historyRecoveredEventIds => .texts c.historyRecoveredEventIds
  | .recoveredFromSyncCount => .ofOption (fun n : ℕ => .int n) c.recoveredFromSyncCount
  | .recoveredFromHistoryCount => .ofOption (fun n : ℕ => .int n) c.recoveredFromHistoryCount
  | .historyPagesFetched => .ofOption (fun n : ℕ => .int n) c.historyPagesFetched
  | .paginationInvoked => .ofOption .bool c.paginationInvoked
  | .syncLimited => .ofOption .bool c.syncLimited
  | .timelineLimit => .ofOption .int c.timelineLimit
  | .missingFromRecovery => .texts c.missingFromRecovery
  | .unexpectedInRecovery => .texts c.unexpectedInRecovery
  | .ackCount => .int c.ackCount
  | .duplicateAckCount => .int c.duplicateAckCount
  | .duplicateObservationCount => .ofOption (fun n : ℕ => .int n) c.duplicateObservationCount
  | .duplicateProcessingCount => .int c.duplicateProcessingCount
  | .checkpointResumed => .bool c.checkpointResumed
  | .sameAgentIdentity => .bool c.sameAgentIdentity
  | .sourceRawDigests => .digests c.sourceRawDigests.1 c.sourceRawDigests.2
  | .generatedAt => .null
  | .analysisCodeCommit => .null
  | .scopeNote => .null

/-- The keys both artifacts have. -/
def sharedKeys : List ArtifactKey :=
  [ .runId, .offlineRequestCount, .logicalRequestCount, .sentEventIds, .recoveredEventIds,
    .syncEventIds, .historyRecoveredEventIds, .recoveredFromSyncCount, .recoveredFromHistoryCount,
    .historyPagesFetched, .paginationInvoked, .syncLimited, .timelineLimit, .missingFromRecovery,
    .unexpectedInRecovery, .ackCount, .duplicateAckCount, .duplicateObservationCount,
    .duplicateProcessingCount, .checkpointResumed, .sameAgentIdentity, .sourceRawDigests ]

/-- The artifact as a dictionary. -/
def Comparison.items (c : Comparison) : List (ArtifactKey × FieldValue) :=
  sharedKeys.map fun key => (key, c.get key)

/-- What `compare` returns. -/
structure Verdict where
  fieldsCompared : List ArtifactKey
  fieldsMismatched : List ArtifactKey
  fieldsAbsentFromOriginal : List ArtifactKey

/-- `match`. -/
def Verdict.matches (v : Verdict) : Bool := v.fieldsMismatched.isEmpty

section Compare

variable (str : FieldValue → Text)

/-- The comparison of two values; a text of the original is compared with `str` of
anything else. -/
def sameValue (theirs value : FieldValue) : Bool :=
  match theirs, value with
  | .text theirs, .text value => theirs = value
  | .text theirs, value => str value = theirs
  | theirs, value => theirs = value

/-- One turn of the loop of `compare`. -/
def Verdict.add (original : List (ArtifactKey × FieldValue)) (v : Verdict)
    (item : ArtifactKey × FieldValue) : Verdict :=
  if item.1 ∈ volatile then v
  else
    match original.lookup item.1 with
    | none => { v with fieldsAbsentFromOriginal := v.fieldsAbsentFromOriginal ++ [item.1] }
    | some theirs =>
      if sameValue str theirs item.2 then
        { v with fieldsCompared := v.fieldsCompared ++ [item.1] }
      else { v with fieldsMismatched := v.fieldsMismatched ++ [item.1] }

/-- `compare`.  The order of the report is that of the regenerated fields. -/
def compare (original regenerated : List (ArtifactKey × FieldValue)) : Verdict :=
  regenerated.foldl (Verdict.add str original) ⟨[], [], []⟩

/-- A report without a mismatch: every field both have, and that is not volatile, has the
same value in both. -/
theorem compare_matches_iff (original regenerated : List (ArtifactKey × FieldValue)) :
    (compare str original regenerated).matches = true ↔
      ∀ item ∈ regenerated, item.1 ∉ volatile → ∀ theirs,
        original.lookup item.1 = some theirs → sameValue str theirs item.2 = true := by
  unfold compare Verdict.matches
  induction regenerated using List.reverseRecOn with
  | nil => simp
  | append_singleton regenerated item ih =>
    rw [List.foldl_append, List.foldl_cons, List.foldl_nil, List.forall_mem_append,
      List.forall_mem_singleton, ← ih]
    unfold Verdict.add
    split_ifs with hvolatile
    · simp [hvolatile]
    · split
      · rename_i habsent
        simp [habsent]
      · rename_i theirs htheirs
        split_ifs with hsame
        · simp [htheirs, hsame]
        · simp [htheirs, hsame, hvolatile]

theorem lookup_items (c : Comparison) {key : ArtifactKey} (h : key ∈ sharedKeys) :
    c.items.lookup key = some (c.get key) := by
  unfold Comparison.items
  generalize sharedKeys = keys at h
  induction keys with
  | nil => exact absurd h List.not_mem_nil
  | cons head keys ih =>
    rw [List.map_cons, List.lookup_cons]
    by_cases hkey : key = head
    · rw [hkey, beq_self_eq_true]
    · rw [beq_false_of_ne hkey]
      exact ih ((List.mem_cons.mp h).resolve_left hkey)

/-- Only the run's name is a text. -/
theorem get_ne_text (c : Comparison) {key : ArtifactKey} (h : key ≠ .runId) (t : Text) :
    c.get key ≠ .text t := by
  have hoption : ∀ {α : Type} (f : α → FieldValue) (value : Option α), (∀ a, f a ≠ .text t) →
      FieldValue.ofOption f value ≠ .text t := by
    intro α f value hf
    cases value with
    | none => exact FieldValue.noConfusion
    | some a => exact hf a
  cases key
  case runId => exact absurd rfl h
  case logicalRequestCount => exact hoption _ _ fun _ => FieldValue.noConfusion
  case recoveredFromSyncCount => exact hoption _ _ fun _ => FieldValue.noConfusion
  case recoveredFromHistoryCount => exact hoption _ _ fun _ => FieldValue.noConfusion
  case historyPagesFetched => exact hoption _ _ fun _ => FieldValue.noConfusion
  case paginationInvoked => exact hoption _ _ fun _ => FieldValue.noConfusion
  case syncLimited => exact hoption _ _ fun _ => FieldValue.noConfusion
  case timelineLimit => exact hoption _ _ fun _ => FieldValue.noConfusion
  case duplicateObservationCount => exact hoption _ _ fun _ => FieldValue.noConfusion
  all_goals exact FieldValue.noConfusion

/-- So two artifacts are compared by plain equality. -/
theorem sameValue_get (c c' : Comparison) (key : ArtifactKey) :
    sameValue str (c.get key) (c'.get key) = true ↔ c.get key = c'.get key := by
  by_cases hkey : key = .runId
  · subst hkey
    simp [sameValue, Comparison.get]
  · have hne := get_ne_text c hkey
    unfold sameValue
    split
    · rename_i h _
      exact absurd h (hne _)
    · rename_i h _
      exact absurd h (hne _)
    · exact decide_eq_true_iff

theorem FieldValue.ofOption_inj {α : Type} {f : α → FieldValue} (hf : Function.Injective f)
    (hnull : ∀ a, f a ≠ .null) {value value' : Option α} :
    FieldValue.ofOption f value = FieldValue.ofOption f value' ↔ value = value' := by
  cases value <;> cases value' <;> simp [FieldValue.ofOption, hf.eq_iff, hnull, (hnull _).symm]

/-- An artifact is what is under its keys. -/
theorem ext_of_get {c c' : Comparison} (h : ∀ key ∈ sharedKeys, c.get key = c'.get key) :
    c = c' := by
  have hnat : Function.Injective fun n : ℕ => FieldValue.int n := fun a b hab => by
    simpa using hab
  have hint : Function.Injective FieldValue.int := fun _ _ => FieldValue.int.inj
  have hbool : Function.Injective FieldValue.bool := fun _ _ => FieldValue.bool.inj
  have hofNat : ∀ {a b : Option ℕ}, _ → a = b :=
    (FieldValue.ofOption_inj hnat fun _ => FieldValue.noConfusion).mp
  have hofInt : ∀ {a b : Option ℤ}, _ → a = b :=
    (FieldValue.ofOption_inj hint fun _ => FieldValue.noConfusion).mp
  have hofBool : ∀ {a b : Option Bool}, _ → a = b :=
    (FieldValue.ofOption_inj hbool fun _ => FieldValue.noConfusion).mp
  simp only [sharedKeys, List.forall_mem_cons, Comparison.get] at h
  obtain ⟨h1, h2, h3, h4, h5, h6, h7, h8, h9, h10, h11, h12, h13, h14, h15, h16, h17, h18, h19,
    h20, h21, h22, -⟩ := h
  exact Comparison.ext (FieldValue.text.inj h1) (hnat h2) (hofNat h3) (FieldValue.texts.inj h4)
    (FieldValue.texts.inj h5) (FieldValue.texts.inj h6) (FieldValue.texts.inj h7) (hofNat h8)
    (hofNat h9) (hofNat h10) (hofBool h11) (hofBool h12) (hofInt h13) (FieldValue.texts.inj h14)
    (FieldValue.texts.inj h15) (hnat h16) (hnat h17) (hofNat h18) (hnat h19) (hbool h20)
    (hbool h21) (Prod.ext (FieldValue.digests.inj h22).1 (FieldValue.digests.inj h22).2)

/-- **Two artifacts match exactly when they are the same.** -/
theorem matches_iff (c c' : Comparison) :
    (compare str c.items c'.items).matches = true ↔ c = c' := by
  rw [compare_matches_iff]
  constructor
  · intro h
    refine ext_of_get fun key hkey => ?_
    have hvolatile : key ∉ volatile := by
      revert key
      decide
    exact (sameValue_get str c c' key).mp
      (h (key, c'.get key) (List.mem_map_of_mem hkey) hvolatile _ (lookup_items c hkey))
  · rintro rfl item hitem - theirs htheirs
    obtain ⟨key, hkey, rfl⟩ := List.mem_map.mp hitem
    rw [lookup_items c hkey] at htheirs
    rw [← Option.some_inj.mp htheirs]
    exact (sameValue_get str c c key).mpr rfl

end Compare

/-! ## 3.  What a run leaves to both -/

/-- **The counters of a run in its records**: the set of sent event ids is that of the
records, and an interaction is registered for each correlation and no other. -/
structure Traced (w : RunState) : Prop where
  sent : w.sentEventIds = (requestIds w.records).toFinset
  keys : w.human.pending.keys = w.correlations.map Correlation.key

section Run

variable {clock : MonotonicClock} {config : RunConfig} {w w' : RunState}

theorem Traced.congr (h : Traced w) (hsent : w'.sentEventIds = w.sentEventIds)
    (hpending : w'.human.pending = w.human.pending)
    (hcorrelations : w'.correlations = w.correlations)
    (hrecords : w'.records = w.records) : Traced w' where
  sent := by
    rw [hsent, hrecords]
    exact h.sent
  keys := by
    rw [hpending, hcorrelations]
    exact h.keys

/-- The invariant of a run, beside that of its records. -/
def TraceInv (config : RunConfig) (w : RunState) : Prop :=
  match w.stage with
  | .raised => True
  | .returned => ∃ u, Between config u 0 ∧ Traced u ∧ w = u.finish config
  | _ => Traced w

theorem traceInv_iff (hreturned : w.stage ≠ .returned) (hraised : w.stage ≠ .raised) :
    TraceInv config w ↔ Traced w := by
  unfold TraceInv
  cases h : w.stage with
  | returned => exact absurd h hreturned
  | raised => exact absurd h hraised
  | _ => exact Iff.rfl

/-- The number of the next request makes its key a new one. -/
theorem Between.notMem_keys {left : ℕ} (h : Between config w left)
    (hkeys : w.human.pending.keys = w.correlations.map Correlation.key)
    {correlation : Correlation} (hsequence : correlation.sequenceId = w.correlations.length + 1) :
    correlation.key ∉ w.human.pending.keys := by
  rw [hkeys, List.mem_map]
  rintro ⟨c, hc, hkey⟩
  have hmem : c.sequenceId ∈ List.range' 1 w.correlations.length :=
    h.numbered ▸ List.mem_map_of_mem hc
  have hsame : c.sequenceId = correlation.sequenceId := congrArg (·.2.2) hkey
  have hlt := (List.mem_range'_1.mp hmem).2
  omega

/-- The next request is registered under a key of its own. -/
theorem traced_attempt (clock : MonotonicClock) {left : ℕ} (h : Between config w left)
    (htraced : Traced w) : TraceInv config (w.attempt clock config left) := by
  rcases attempt_cases clock h with ⟨rfl, hattempt⟩ | ⟨hraised, -⟩ |
    ⟨correlation, token, txnId, rest, rfl, htoken, hrun, hsequence, hattempt⟩
  · rw [hattempt]
    exact htraced.congr rfl rfl rfl rfl
  · unfold TraceInv
    rw [hraised]
    trivial
  · rw [hattempt]
    have hnew := h.notMem_keys htraced.keys hsequence
    change Traced _
    refine ⟨htraced.sent, ?_⟩
    change (w.human.pending.set correlation.key w.human.calls.length).keys =
      (w.correlations ++ [correlation]).map Correlation.key
    rw [OrderedDict.keys_set_of_notMem hnew, htraced.keys, List.map_append, List.map_singleton]

/-- **One step keeps the trace.** -/
theorem traceInv_step {l : RunState.Label} (h : Inv config w) (htrace : TraceInv config w)
    (hstep : w.step clock config l = some w') : TraceInv config w' := by
  rcases step_cases hstep with
    ⟨label, note, human, rfl, hreturned, hraised, hl, hhuman, rfl⟩ | ⟨hidle, -, hw'⟩ |
    ⟨rfl, hidle, rfl⟩
  · have htraced := (traceInv_iff hreturned hraised).mp htrace
    obtain ⟨-, hpending, -⟩ := step_external hl hhuman
    have hmoved : Traced { w with human := human } := htraced.congr rfl hpending rfl rfl
    by_cases hsending : ∃ correlation call left, w.stage = .sending correlation call left
    · obtain ⟨correlation, call, left, hstage⟩ := hsending
      rcases resume_cases note hstage ((inv_iff_awaiting hstage).mp h) hl hhuman
        (RunState.noteOf note label) with ⟨-, -, hresume⟩ |
        ⟨u, r, hresume, hbetween, hkept, hcorrelations, hrecords, hsent, -, -⟩
      · rw [hresume]
        exact (traceInv_iff (w := { w with human := human }) hreturned hraised).mpr hmoved
      · rw [hresume]
        refine traced_attempt clock hbetween ⟨?_, ?_⟩
        · rw [hsent, hrecords, htraced.sent]
          unfold requestIds
          rw [List.filterMap_append, List.toFinset_append]
          congr 1
          cases htruthy : truthy r.requestEventId with
          | none => simp [htruthy]
          | some eventId => simp [htruthy]
        · rw [hkept.2, hcorrelations]
          exact hmoved.keys
    · rw [RunState.resume_of_ne_sending (w := { w with human := human })
        fun correlation call left hstage => hsending ⟨correlation, call, left, hstage⟩]
      exact (traceInv_iff (w := { w with human := human }) hreturned hraised).mpr hmoved
  · have hstages : w.stage ≠ .returned ∧ w.stage ≠ .raised := by
      constructor
      · intro hstage
        rw [hstage] at hidle
        exact hidle
      · intro hstage
        rw [hstage] at hidle
        exact hidle
    have htraced := (traceInv_iff hstages.1 hstages.2).mp htrace
    rcases hw' with rfl | rfl | rfl | rfl
    · unfold RunState.awaitAcks
      split
      · exact htraced.congr rfl rfl rfl rfl
      · exact htraced.congr rfl rfl rfl rfl
    · exact trivial
    · exact htraced.congr rfl rfl rfl rfl
    · exact htraced.congr rfl rfl rfl rfl
  · have hbetween := (inv_iff_between hidle).mp h
    have htraced : Traced w := by
      refine (traceInv_iff ?_ ?_).mp htrace
      · intro hstage
        rw [hstage] at hidle
        exact hidle
      · intro hstage
        rw [hstage] at hidle
        exact hidle
    obtain ⟨after, hfinish, -⟩ := finish_eq hbetween
    unfold TraceInv
    have hstage : (w.finish config).stage = .returned := by rw [hfinish]
    rw [hstage]
    exact ⟨w, hbetween, htraced, rfl⟩

/-- The interactions of the run are those of the participant. -/
theorem Traced.awaited_eq (h : Traced w) :
    w.awaited = w.human.pending.values.filterMap fun i =>
      w.human.calls[i]?.map Call.interaction := by
  rw [← OrderedDict.filterMap_keys, h.keys, List.filterMap_map]
  refine List.filterMap_congr fun c _ => ?_
  unfold RunState.interaction
  cases hget : w.human.pending.get? c.key with
  | none => simp [hget]
  | some i =>
    simp only [Function.comp_apply, hget, Option.bind_some]
    exact Option.map_eq_bind.symm

/-- So the duplicates the participant counts are those of the run's interactions. -/
theorem Traced.duplicateAcks_eq (h : Traced w) :
    w.human.duplicateAcks = (w.awaited.map Interaction.duplicateAckCount).sum := by
  rw [h.awaited_eq, List.map_filterMap]
  unfold State.duplicateAcks
  induction w.human.pending.values with
  | nil => rfl
  | cons i values ih =>
    rw [List.map_cons, List.sum_cons, List.filterMap_cons, ih]
    cases w.human.calls[i]? <;> simp

/-- **What a run that has returned leaves behind.** -/
structure Returned (config : RunConfig) (w : RunState) (offline postRestart : List RunnerRecord) :
    Prop where
  records : w.records = offline ++ postRestart
  ofOffline : ∀ r ∈ offline, r.Offline config
  ofPostRestart : ∀ r ∈ postRestart, r.PostRestart config
  offlineLength : offline.length = config.offlineRequests
  postRestartLength : postRestart.length = config.offlineRequests
  sent : w.sentEventIds = (requestIds offline).toFinset
  acks : postRestart.map RunnerRecord.acks = w.awaited.map acksOf
  duplicates : w.duplicateAcks = (w.awaited.map Interaction.duplicateAckCount).sum

theorem exists_returned {labels : List RunState.Label}
    (hrun : exec (RunState.step clock config) (RunState.start clock config) labels = some w)
    (hreturned : w.stage = .returned) : ∃ offline postRestart,
      Returned config w offline postRestart := by
  have hstart : Inv config (RunState.start clock config) ∧
      TraceInv config (RunState.start clock config) := by
    refine ⟨(inv_start clock config).1, ?_⟩
    unfold RunState.start
    refine traced_attempt clock (between_start config) ⟨rfl, rfl⟩
  have hend : Inv config w ∧ TraceInv config w :=
    invariant_of_exec (fun u => Inv config u ∧ TraceInv config u)
      (fun u l u' hu hstep => ⟨(step_spec hu.1 hstep).1, traceInv_step hu.1 hu.2 hstep⟩) hstart hrun
  obtain ⟨-, htrace⟩ := hend
  unfold TraceInv at htrace
  rw [hreturned] at htrace
  obtain ⟨u, hbetween, htraced, rfl⟩ := htrace
  obtain ⟨after, hfinish, hnumbers, hreports⟩ := finish_eq hbetween
  have hlength : u.correlations.length = config.offlineRequests := hbetween.toGo
  refine ⟨u.records, after, ?_⟩
  rw [hfinish]
  exact
    { records := rfl
      ofOffline := hbetween.offline
      ofPostRestart := postRestart_of_reports hreports
      offlineLength := hbetween.recorded.trans hlength
      postRestartLength := by rw [← List.length_map, hnumbers, List.length_range']
      sent := htraced.sent
      acks := acks_eq_of_reports hreports
      duplicates := htraced.duplicateAcks_eq }

namespace Returned

variable {offline postRestart : List RunnerRecord}

theorem inPhase_offline (h : Returned config w offline postRestart) :
    inPhase .offline w.records = offline := by
  unfold inPhase
  rw [h.records, List.filter_append, List.filter_eq_self.mpr, List.filter_eq_nil_iff.mpr,
    List.append_nil]
  · intro r hr
    simp [(h.ofPostRestart r hr).runPhase]
  · intro r hr
    simp [(h.ofOffline r hr).runPhase]

theorem inPhase_postRestart (h : Returned config w offline postRestart) :
    inPhase .postRestart w.records = postRestart := by
  unfold inPhase
  rw [h.records, List.filter_append, List.filter_eq_nil_iff.mpr, List.filter_eq_self.mpr,
    List.nil_append]
  · intro r hr
    simp [(h.ofPostRestart r hr).runPhase]
  · intro r hr
    simp [(h.ofOffline r hr).runPhase]

/-- The first record names the run. -/
theorem exists_head (h : Returned config w offline postRestart)
    (hrequests : config.offlineRequests ≠ 0) :
    ∃ first, w.records.head? = some first ∧ first.runId = config.runId := by
  cases hoffline : offline with
  | nil => exact absurd (hoffline ▸ h.offlineLength).symm hrequests
  | cons first rest =>
    refine ⟨first, ?_, (h.ofOffline first (hoffline ▸ List.mem_cons_self)).runId⟩
    rw [h.records, hoffline]
    rfl

/-- The acknowledgements the second loop recorded. -/
theorem length_acks (h : Returned config w offline postRestart) :
    (postRestart.filterMap fun r => truthy r.responseEventId).length =
      w.awaited.countP fun it => (truthy it.responseEventId).isSome := by
  have hmap : postRestart.map RunnerRecord.responseEventId =
      w.awaited.map Interaction.responseEventId := by
    have hacks := congrArg (List.map Prod.fst) h.acks
    rwa [List.map_map, List.map_map] at hacks
  have hfilter : (postRestart.filterMap fun r => truthy r.responseEventId) =
      w.awaited.filterMap fun it => truthy it.responseEventId := by
    have := congrArg (List.filterMap truthy) hmap
    rwa [List.filterMap_map, List.filterMap_map] at this
  rw [hfilter, List.length_filterMap_eq_countP]

/-- The duplicates in the records are those of the participant, and those the offline loop
had seen. -/
theorem sum_duplicates (h : Returned config w offline postRestart) :
    (w.records.map RunnerRecord.duplicateAckCount).sum =
      (offline.map RunnerRecord.duplicateAckCount).sum + w.duplicateAcks := by
  have hmap : postRestart.map RunnerRecord.duplicateAckCount =
      w.awaited.map Interaction.duplicateAckCount := by
    have hacks := congrArg (List.map Prod.snd) h.acks
    rwa [List.map_map, List.map_map] at hacks
  rw [h.records, List.map_append, List.sum_append, hmap, h.duplicates]

end Returned

end Run

/-! ## 4.  When they agree -/

theorem sortedTexts_eq_iff {l l' : List Text} : sortedTexts l = sortedTexts l' ↔ l.Perm l' := by
  unfold sortedTexts
  constructor
  · intro h
    exact (List.perm_insertionSort _ l).symm.trans (h ▸ List.perm_insertionSort _ l')
  · intro h
    exact List.Perm.eq_of_pairwise (fun _ _ _ _ => le_antisymm) (List.pairwise_insertionSort _ l)
      (List.pairwise_insertionSort _ l')
      ((List.perm_insertionSort _ l).trans (h.trans (List.perm_insertionSort _ l').symm))

theorem sortedSet_sdiff {s t u v : Finset Text} (hs : s = u) (ht : t = v) :
    sortedSet (s \ t) = sortedSet (u \ v) := by
  rw [hs, ht]

/-- A sorted list is a sorted set when nothing in it is repeated. -/
theorem sortedSet_eq_sortedTexts_iff {s : Finset Text} {l : List Text} :
    sortedSet s = sortedTexts l ↔ l.Nodup ∧ l.toFinset = s := by
  have hperm : (sortedTexts l).Perm l := List.perm_insertionSort _ l
  constructor
  · intro h
    have hset : (sortedSet s).Perm l := h ▸ hperm
    refine ⟨hset.nodup_iff.mp (Finset.sort_nodup s _), ?_⟩
    rw [← List.toFinset_eq_of_perm _ _ hset]
    exact Finset.sort_toFinset s _
  · rintro ⟨hnodup, rfl⟩
    refine List.Perm.eq_of_pairwise (fun _ _ _ _ => le_antisymm) (Finset.pairwise_sort _ _)
      (List.pairwise_insertionSort _ l) (List.Perm.trans ?_ hperm.symm)
    refine (List.perm_ext_iff_of_nodup (Finset.sort_nodup _ _) hnodup).mpr fun t => ?_
    rw [Finset.mem_sort, List.mem_toFinset]

theorem identity_eq (telemetry : List Agent.Record) :
    identity telemetry = if telemetry.any isConnected then agentId else [] := by
  unfold identity
  cases hconnected : telemetry.filter isConnected with
  | nil =>
    rw [if_neg]
    · rfl
    · rw [List.any_eq_true]
      rintro ⟨a, ha, hconn⟩
      exact List.filter_eq_nil_iff.mp hconnected a ha hconn
  | cons a rest =>
    rw [if_pos]
    · rfl
    · obtain ⟨ha, hconn⟩ := List.mem_filter.mp (hconnected ▸ List.mem_cons_self : a ∈ _)
      exact List.any_eq_true.mpr ⟨a, ha, hconn⟩

/-- The agent goes by one name, so one identity shows once it has written anything. -/
theorem card_agentMxid (telemetry : List Agent.Record) :
    (telemetry.map agentMxid).toFinset.card = 1 ↔ telemetry ≠ [] := by
  constructor
  · rintro h rfl
    cases h
  · intro h
    have hset : (telemetry.map agentMxid).toFinset = {agentId} := by
      ext t
      rw [List.mem_toFinset, List.mem_map, Finset.mem_singleton]
      constructor
      · rintro ⟨a, -, rfl⟩
        rfl
      · rintro rfl
        obtain ⟨a, ha⟩ := List.exists_mem_of_ne_nil _ h
        exact ⟨a, ha, rfl⟩
    rw [hset, Finset.card_singleton]

/-- What a regeneration takes from the counters of a recovery record. -/
def Recovery.counters (r : Recovery) : ℕ × ℕ × ℕ × Bool × ℕ :=
  (r.summary.recoveredFromSync, r.summary.recoveredFromHistory, r.summary.historyPagesFetched,
    r.summary.paginationInvoked, r.summary.duplicateObservations)

/-- **The exact condition.**  Of the runner's side: every accepted send has an event id of
its own, no ACK was repeated before the restart, and none arrived after `await_acks` had
returned.  Of the agent's: its first recovery record in the whole stream says what its last
one said when the run read it, the processing handled as many requests as were sent, and
the checkpoint, the timeline limit and the identity show once in every reading. -/
structure Regenerates (config : RunConfig) (timelineLimit : ℤ) (w : RunState)
    (before read late : List Agent.Record) : Prop where
  ownEventIds : (requestIds (inPhase .offline w.records)).Nodup
  noneRepeatedEarly : ∀ r ∈ inPhase .offline w.records, r.duplicateAckCount = 0
  noneLate : w.ackCount = w.awaited.countP fun it => (truthy it.responseEventId).isSome
  sameRecovered :
    (idsOf (·.recoveredEventIds) ((read ++ late).findSome? recoveryOf)).Nodup ∧
      (idsOf (·.recoveredEventIds) ((read ++ late).findSome? recoveryOf)).toFinset =
        (idsOf (·.recoveredEventIds) (lastOf recoveryOf read)).toFinset
  sameSync : (idsOf (·.syncEventIds) (lastOf recoveryOf read)).Perm
    (idsOf (·.syncEventIds) ((read ++ late).findSome? recoveryOf))
  sameHistory : (idsOf (·.historyEventIds) (lastOf recoveryOf read)).Perm
    (idsOf (·.historyEventIds) ((read ++ late).findSome? recoveryOf))
  sameCounters : (lastOf recoveryOf read).map Recovery.counters =
    ((read ++ late).findSome? recoveryOf).map Recovery.counters
  limited : lastOf syncLimitedOf read =
    ((read ++ late).findSome? recoveryOf).map (·.summary.limitedTimeline)
  limit : (read ++ late).findSome? timelineLimitOf = some timelineLimit
  processed : (recoverySummary read).logicallyProcessed = some config.offlineRequests
  processedOnce :
    config.offlineRequests - (idsOf (·.recoveredEventIds) (lastOf recoveryOf read)).toFinset.card =
      ((read ++ late).findSome? processedOf).getD 0 -
        (idsOf (·.recoveredEventIds) (lastOf recoveryOf read)).toFinset.card
  resumed : lastOf resumedOf read = some true ↔ some true ∈ (read ++ late).map resumedOf
  connected : before.any isConnected = true ↔ read ++ late ≠ []

section Agreement

variable {config : RunConfig} {w : RunState} {offline postRestart : List RunnerRecord}
  {runnerDigest : List RunnerRecord → Text} {agentDigest : List Agent.Record → Text}
  {timelineLimit : ℤ} {before read late : List Agent.Record}

/-- The identity shows in the artifact when the agent had connected by the first
reading. -/
theorem sameIdentity_iff (hread : before <+: read) :
    (identity before = identity read ∧ identity before ≠ []) ↔ before.any isConnected = true := by
  rw [identity_eq, identity_eq]
  have hmono : before.any isConnected = true → read.any isConnected = true := by
    rw [List.any_eq_true, List.any_eq_true]
    rintro ⟨a, ha, hconn⟩
    exact ⟨a, hread.subset ha, hconn⟩
  constructor
  · rintro ⟨-, hne⟩
    by_contra hnot
    rw [if_neg hnot] at hne
    exact hne rfl
  · intro hconn
    rw [if_pos hconn, if_pos (hmono hconn)]
    exact ⟨rfl, by decide⟩

/-- No ACK was repeated early exactly when the two sums of duplicates agree. -/
theorem duplicates_iff (h : Returned config w offline postRestart) :
    w.duplicateAcks = (w.records.map RunnerRecord.duplicateAckCount).sum ↔
      ∀ r ∈ inPhase .offline w.records, r.duplicateAckCount = 0 := by
  rw [h.sum_duplicates, h.inPhase_offline, eq_comm, Nat.add_eq_right, List.sum_eq_zero_iff,
    List.forall_mem_map]

/-- Nor late exactly when the two counts of ACKs do. -/
theorem acks_iff (h : Returned config w offline postRestart) :
    w.ackCount = ((inPhase .postRestart w.records).filterMap fun r =>
        truthy r.responseEventId).length ↔
      w.ackCount = w.awaited.countP fun it => (truthy it.responseEventId).isSome := by
  rw [h.inPhase_postRestart, h.length_acks]

theorem sent_iff (h : Returned config w offline postRestart) :
    sortedSet w.sentEventIds = sortedTexts (requestIds (inPhase .offline w.records)) ↔
      (requestIds (inPhase .offline w.records)).Nodup := by
  rw [sortedSet_eq_sortedTexts_iff, h.inPhase_offline, h.sent, and_iff_left rfl]

theorem counters_iff {first last : Option Recovery} :
    last.map Recovery.counters = first.map Recovery.counters ↔
      last.map (·.summary.recoveredFromSync) = first.map (·.summary.recoveredFromSync) ∧
      last.map (·.summary.recoveredFromHistory) = first.map (·.summary.recoveredFromHistory) ∧
      last.map (·.summary.historyPagesFetched) = first.map (·.summary.historyPagesFetched) ∧
      last.map (·.summary.paginationInvoked) = first.map (·.summary.paginationInvoked) ∧
      last.map (·.summary.duplicateObservations) =
        first.map (·.summary.duplicateObservations) := by
  cases last <;> cases first <;> simp [Recovery.counters]

theorem resumed_iff :
    (checkpointResumed read = (read ++ late).any fun a => decide (resumedOf a = some true)) ↔
      (lastOf resumedOf read = some true ↔ some true ∈ (read ++ late).map resumedOf) := by
  have hany : ((read ++ late).any fun a => decide (resumedOf a = some true)) = true ↔
      some true ∈ (read ++ late).map resumedOf := by
    rw [List.any_eq_true, List.mem_map]
    simp only [decide_eq_true_eq]
  have hlast : checkpointResumed read = true ↔ lastOf resumedOf read = some true := by
    unfold checkpointResumed
    cases lastOf resumedOf read with
    | none => simp
    | some b => simp
  rw [Bool.eq_iff_iff, hany, hlast]

theorem connected_iff (hread : before <+: read) :
    (decide (identity before = identity read ∧ identity before ≠ []) =
        decide (((read ++ late).map agentMxid).toFinset.card = 1)) ↔
      (before.any isConnected = true ↔ read ++ late ≠ []) := by
  rw [decide_eq_decide, sameIdentity_iff hread, card_agentMxid]

/-- **The two artifacts are one exactly when the condition holds.** -/
theorem eq_iff_regenerates (h : Returned config w offline postRestart) (hread : before <+: read) :
    comparisonOf runnerDigest agentDigest config timelineLimit w before read late =
        regeneratedAs runnerDigest agentDigest config.runId w.records (read ++ late) ↔
      Regenerates config timelineLimit w before read late := by
  have hoffline : (inPhase .offline w.records).length = config.offlineRequests := by
    rw [h.inPhase_offline, h.offlineLength]
  have hpost : (inPhase .postRestart w.records).length = config.offlineRequests := by
    rw [h.inPhase_postRestart, h.postRestartLength]
  have hsent : w.sentEventIds = (requestIds (inPhase .offline w.records)).toFinset := by
    rw [h.inPhase_offline, h.sent]
  constructor
  · intro heq
    have hids : sortedSet (idsOf (·.recoveredEventIds) (lastOf recoveryOf read)).toFinset =
        sortedTexts (idsOf (·.recoveredEventIds) ((read ++ late).findSome? recoveryOf)) :=
      congrArg Comparison.recoveredEventIds heq
    have hrecovered := sortedSet_eq_sortedTexts_iff.mp hids
    have hprocessed : (recoverySummary read).logicallyProcessed = some config.offlineRequests :=
      hpost ▸ congrArg Comparison.logicalRequestCount heq
    have honce : (recoverySummary read).logicallyProcessed.getD 0 -
          (idsOf (·.recoveredEventIds) (lastOf recoveryOf read)).toFinset.card =
        ((read ++ late).findSome? processedOf).getD 0 -
          (idsOf (·.recoveredEventIds) ((read ++ late).findSome? recoveryOf)).toFinset.card :=
      congrArg Comparison.duplicateProcessingCount heq
    rw [hprocessed, hrecovered.2] at honce
    exact
      { ownEventIds := (sent_iff h).mp (congrArg Comparison.sentEventIds heq)
        noneRepeatedEarly := (duplicates_iff h).mp (congrArg Comparison.duplicateAckCount heq)
        noneLate := (acks_iff h).mp (congrArg Comparison.ackCount heq)
        sameRecovered := hrecovered
        sameSync := sortedTexts_eq_iff.mp (congrArg Comparison.syncEventIds heq)
        sameHistory := sortedTexts_eq_iff.mp (congrArg Comparison.historyRecoveredEventIds heq)
        sameCounters := counters_iff.mpr
          ⟨congrArg Comparison.recoveredFromSyncCount heq,
            congrArg Comparison.recoveredFromHistoryCount heq,
            congrArg Comparison.historyPagesFetched heq,
            congrArg Comparison.paginationInvoked heq,
            congrArg Comparison.duplicateObservationCount heq⟩
        limited := congrArg Comparison.syncLimited heq
        limit := (congrArg Comparison.timelineLimit heq).symm
        processed := hprocessed
        processedOnce := honce
        resumed := resumed_iff.mp (congrArg Comparison.checkpointResumed heq)
        connected := (connected_iff hread).mp (congrArg Comparison.sameAgentIdentity heq) }
  · intro hcondition
    obtain ⟨hsync, hhistory, hpages, hpagination, hobservations⟩ :=
      counters_iff.mp hcondition.sameCounters
    obtain ⟨hnodup, hset⟩ := hcondition.sameRecovered
    refine Comparison.ext rfl hoffline.symm ?_ ((sent_iff h).mpr hcondition.ownEventIds)
      (sortedSet_eq_sortedTexts_iff.mpr ⟨hnodup, hset⟩)
      (sortedTexts_eq_iff.mpr hcondition.sameSync) (sortedTexts_eq_iff.mpr hcondition.sameHistory)
      hsync hhistory hpages hpagination hcondition.limited hcondition.limit.symm ?_ ?_
      ((acks_iff h).mpr hcondition.noneLate) ((duplicates_iff h).mpr hcondition.noneRepeatedEarly)
      hobservations ?_ (resumed_iff.mpr hcondition.resumed)
      ((connected_iff hread).mpr hcondition.connected) rfl
    · exact hcondition.processed.trans (congrArg some hpost.symm)
    · exact sortedSet_sdiff hsent hset.symm
    · exact sortedSet_sdiff hset.symm hsent
    · change (recoverySummary read).logicallyProcessed.getD 0 - _ = _ - _
      rw [hcondition.processed, hset]
      exact hcondition.processedOnce

end Agreement

/-- What an agent leaves behind that is started twice: its telemetry before the
interruption, and up to the reading of the run, having recovered `recovered` from the
history. -/
def startedTwice (recovered : List Text) : List Agent.Record × List Agent.Record :=
  let before :=
    [ .checkpointLoaded false false (some 10),
      .observation { action := .connected, duplicateDecision := none, note := .freshLogin } true,
      .recoverySkipped ]
  let summary : ℕ → Agent.LedgerSummary := fun processed =>
    ⟨true, true, true, 1, recovered.length, 0, recovered.length, 0, processed⟩
  (before, before ++
    [ .checkpointLoaded true true (some 10),
      .observation { action := .connected, duplicateDecision := none, note := .resumed } true,
      .postRestartSync true true 0 (some 10),
      .recoveryComplete recovered [] recovered (summary 0),
      .recoveryProcessingComplete (summary recovered.length) ])

/-- What it writes when it is stopped. -/
def stoppedLate : List Agent.Record :=
  [ .liveSyncSummary ⟨0, 0, 0, 0, 0, 1⟩ 0,
    .observation { action := .shutdown, duplicateDecision := none } true ]

/-- The run of the experiment. -/
def hundredRequests : RunConfig :=
  { runId := ['r'], roomId := ['!', 'r'], offlineRequests := 100, describe := fun _ => [] }

/-- Every send is rejected. -/
def allRejected : List RunState.Label :=
  ((List.range 100).map fun i => .human (.sendRejected i limitExceeded ['n', 'o']) []) ++
    [.agentStarted, .timerFires, .acksReturn, .slept]

end OfflineRecovery
end FederatedMessaging
