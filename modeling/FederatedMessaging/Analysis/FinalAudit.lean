import FederatedMessaging.Analysis.RunRecords

/-!
# The final audit

`impossible_states` of `scripts/final_audit.py` goes once over all raw records and
reports twelve checks.  Nine of them look at one record at a time.  Three compare
records of one run: no request twice in one phase, no request completed twice, every
measurement window of the frozen length.

## 1.  The sweep

The loop is a fold (`visit`), and its accumulators are the source's: a list of what
each check objects to, two dictionaries of sets and one of windows.

## 2.  What a sweep has seen

`Swept` says what every accumulator holds after a list of records: the lists are
concatenations, the sets are exactly the pairs met, and the dictionary of windows holds
the *last* window of each run.

## 3.  What the report says

`Clean` lists the states that the twelve checks take to be impossible, without the
fold, and the report has no failing check exactly when the records are clean
(`noFailure_iff`).

## 4.  Two things the fold forgets

A window is overwritten by the next one of its run, so the check of the windows is only
about the last (`windowCheck_iff`).  And a request is taken to terminate twice when it
appears twice in one phase or completes twice; two records of two phases, of which one
at most completed, are neither (`terminations_iff`).
-/

namespace FederatedMessaging
namespace Analysis
namespace FinalAudit

open PythonText Benchmark

/-! ## 1.  The sweep -/

/-- The values of the lock that `impossible_states` reads. -/
structure FrozenParameters where
  interactionTimeoutSeconds : ℚ
  messageBodyBytes : ℤ
  e3MeasurementSeconds : ℚ
  e3ConcurrencyLevels : List ℤ
  e3LatencyMaxInFlight : ℤ

/-- `timeout_ns`. -/
def FrozenParameters.timeoutNs (frozen : FrozenParameters) : ℤ :=
  truncate (frozen.interactionTimeoutSeconds * 10 ^ 9)

/-- `window_ns`. -/
def FrozenParameters.windowNs (frozen : FrozenParameters) : ℤ :=
  truncate (frozen.e3MeasurementSeconds * 10 ^ 9)

/-- `concurrency_bound`. -/
def FrozenParameters.concurrencyBound (frozen : FrozenParameters) : ℤ :=
  frozen.e3ConcurrencyLevels.foldr max frozen.e3LatencyMaxInFlight

/-- A raw record, with the fields the audit reads.  A missing field and a null one are
both `none`, except for `run_id`, which is missing at the outer level. -/
structure AuditRecord where
  recordType : Option Text
  runId : Option (Option Text)
  sequenceId : Option ℤ
  runPhase : Option Text
  outcome : Option Text
  initiatedMonotonicNs : Option ℤ
  completedMonotonicNs : Option ℤ
  responseEventId : Option Text
  ackCount : Option ℤ
  duplicateAckCount : Option ℤ
  duplicateAckEventIds : Option (List Text)
  messageBodyBytes : Option ℤ
  concurrency : Option ℤ
  windowStartNs : Option ℤ
  windowEndNs : Option ℤ

/-- A record with the name of the file it is from. -/
structure Entry where
  file : Text
  record : AuditRecord

namespace Entry

variable (x : Entry)

/-- `record.get("record_type") == "interaction"`. -/
def isInteraction : Bool := x.record.recordType = some "interaction".toList

/-- `record.get("run_id", path.name)`. -/
def run : Option Text := x.record.runId.getD (some x.file)

/-- The request a record is about. -/
def request : Option Text × Option ℤ := (x.run, x.record.sequenceId)

/-- `phase_key`. -/
def phaseKey : Option ℤ × Option Text := (x.record.sequenceId, x.record.runPhase)

/-- `finished is not None`. -/
def completed : Bool := x.record.completedMonotonicNs.isSome

/-- `outcome == "success"`. -/
def isSuccess : Bool := x.record.outcome = some success

/-- The terminating response is named. -/
def namesResponse : Bool := x.record.responseEventId.any fun e => e ≠ []

/-- Both window bounds. -/
def window : Option (ℤ × ℤ) :=
  match x.record.windowStartNs, x.record.windowEndNs with
  | some start, some stop => some (start, stop)
  | _, _ => none

/-- `finished - started`. -/
def rtt : Option ℤ :=
  match x.record.initiatedMonotonicNs, x.record.completedMonotonicNs with
  | some started, some finished => some (finished - started)
  | _, _ => none

end Entry

/-- A record in a list of what a check objects to. -/
abbrev Where := Option Text × Option ℤ

/-- The record, if `objection` is so. -/
def whereIf (objection : Bool) (x : Entry) : List Where := if objection then [x.request] else []

/-- What `negative_rtt` and `clock_reversal` get from a record. -/
def negativeRttOf (x : Entry) : List Where :=
  whereIf (x.isSuccess && x.rtt.any fun rtt => rtt < 0) x

/-- What `over_timeout` gets. -/
def overTimeoutOf (frozen : FrozenParameters) (x : Entry) : List Where :=
  whereIf (x.isSuccess && x.rtt.any fun rtt => 0 ≤ rtt && frozen.timeoutNs < rtt) x

/-- What `success_without_response` gets. -/
def successWithoutResponseOf (x : Entry) : List Where :=
  whereIf (x.isSuccess && !x.namesResponse) x

/-- What `reclassified` gets. -/
def reclassifiedOf (x : Entry) : List Where :=
  whereIf (x.record.outcome = some (outcomeValue .timeout) && x.completed) x

/-- What `duplicate_inconsistent` gets. -/
def duplicateInconsistentOf (x : Entry) : List Where :=
  if x.record.ackCount.isNone then []
  else
    match x.record.duplicateAckCount, x.record.duplicateAckEventIds with
    | some count, some ids =>
      whereIf (ids.length ≠ count) x ++ whereIf (¬ ids.Nodup) x ++
        whereIf (x.record.responseEventId.any fun e => e ∈ ids) x
    | _, _ => [x.request]

/-- What `ack_count_wrong` gets. -/
def ackCountWrongOf (x : Entry) : List Where :=
  match x.record.ackCount, x.record.duplicateAckCount, x.record.duplicateAckEventIds with
  | some acks, some count, some _ =>
    whereIf (acks ≠ count + if x.namesResponse then 1 else 0) x
  | _, _, _ => []

/-- What `wrong_body` gets. -/
def wrongBodyOf (frozen : FrozenParameters) (x : Entry) : List Where :=
  whereIf (x.record.messageBodyBytes.any fun size => size ≠ frozen.messageBodyBytes) x

/-- What `over_concurrency` gets. -/
def overConcurrencyOf (frozen : FrozenParameters) (x : Entry) : List Where :=
  whereIf (x.record.concurrency.any fun level => frozen.concurrencyBound < level) x

/-- The accumulators of the loop. -/
structure Sweep where
  overTimeout : List Where
  reclassified : List Where
  negativeRtt : List Where
  clockReversal : List Where
  wrongBody : List Where
  successWithoutResponse : List Where
  duplicateInconsistent : List Where
  ackCountWrong : List Where
  overConcurrency : List Where
  windows : OrderedDict (Option Text) (ℤ × ℤ)
  sequences : OrderedDict (Option Text) (Finset (Option ℤ × Option Text))
  duplicateSequences : List Where
  completedOnce : OrderedDict (Option Text) (Finset (Option ℤ))
  doubleCompleted : List Where
  interactions : ℕ

/-- The accumulators before the loop. -/
def Sweep.empty : Sweep :=
  { overTimeout := []
    reclassified := []
    negativeRtt := []
    clockReversal := []
    wrongBody := []
    successWithoutResponse := []
    duplicateInconsistent := []
    ackCountWrong := []
    overConcurrency := []
    windows := .empty
    sequences := .empty
    duplicateSequences := []
    completedOnce := .empty
    doubleCompleted := []
    interactions := 0 }

section Sets

variable {κ α : Type*} [DecidableEq κ] [DecidableEq α]

/-- The set a dictionary has under a key, empty where there is none. -/
def setAt (d : OrderedDict κ (Finset α)) (k : κ) : Finset α := (d.get? k).getD ∅

/-- `d.setdefault(k, set()).add(a)`. -/
def addAt (d : OrderedDict κ (Finset α)) (k : κ) (a : α) : OrderedDict κ (Finset α) :=
  d.set k (insert a (setAt d k))

theorem setAt_addAt (d : OrderedDict κ (Finset α)) (k k' : κ) (a : α) :
    setAt (addAt d k a) k' = if k' = k then insert a (setAt d k) else setAt d k' := by
  rw [setAt, addAt, OrderedDict.get?_set]
  split_ifs <;> rfl

end Sets

/-- One interaction record. -/
def Sweep.visit (frozen : FrozenParameters) (s : Sweep) (x : Entry) : Sweep :=
  { overTimeout := s.overTimeout ++ overTimeoutOf frozen x
    reclassified := s.reclassified ++ reclassifiedOf x
    negativeRtt := s.negativeRtt ++ negativeRttOf x
    clockReversal := s.clockReversal ++ negativeRttOf x
    wrongBody := s.wrongBody ++ wrongBodyOf frozen x
    successWithoutResponse := s.successWithoutResponse ++ successWithoutResponseOf x
    duplicateInconsistent := s.duplicateInconsistent ++ duplicateInconsistentOf x
    ackCountWrong := s.ackCountWrong ++ ackCountWrongOf x
    overConcurrency := s.overConcurrency ++ overConcurrencyOf frozen x
    -- the window of an earlier record of the run is overwritten
    windows := (x.window.map fun window => s.windows.set x.run window).getD s.windows
    sequences := addAt s.sequences x.run x.phaseKey
    duplicateSequences :=
      s.duplicateSequences ++ whereIf (x.phaseKey ∈ setAt s.sequences x.run) x
    completedOnce :=
      if x.completed then addAt s.completedOnce x.run x.record.sequenceId else s.completedOnce
    doubleCompleted :=
      s.doubleCompleted ++
        whereIf (x.completed && x.record.sequenceId ∈ setAt s.completedOnce x.run) x
    interactions := s.interactions + 1 }

/-- The loop over all records. -/
def sweep (frozen : FrozenParameters) (entries : List Entry) : Sweep :=
  entries.foldl (fun s x => if x.isInteraction then s.visit frozen x else s) .empty

/-- The twelve checks, named after what they report. -/
inductive Check where
  /-- no success beyond the frozen logical timeout -/
  | successInTime
  /-- no timeout carries a completion timestamp -/
  | timeoutOpen
  /-- no negative round-trip time -/
  | rttNonnegative
  /-- no clock reversal within an interaction -/
  | clockForward
  /-- concurrency never exceeds the frozen bound -/
  | concurrencyBounded
  /-- no request appears twice within one phase -/
  | phaseOnce
  /-- no request completes more than once -/
  | completedOnce
  /-- no success without a response event id -/
  | successNamed
  /-- duplicate-ACK evidence is internally consistent -/
  | duplicatesConsistent
  /-- ack_count matches the distinct ACKs observed -/
  | acksCounted
  /-- every measured body is exactly the frozen size -/
  | bodyExact
  /-- every E3 measurement window is exactly the frozen duration -/
  | windowExact
  deriving DecidableEq

/-- `off_window`. -/
def offWindow (frozen : FrozenParameters) (windows : OrderedDict (Option Text) (ℤ × ℤ)) :
    List (Option Text × ℤ × ℤ) :=
  windows.entries.filter fun e => e.2.2 - e.2.1 ≠ frozen.windowNs

/-- The findings `impossible_states` records, in its order. -/
def impossibleStates (frozen : FrozenParameters) (entries : List Entry) : List (Check × Bool) :=
  let s := sweep frozen entries
  [ (.successInTime, s.overTimeout.isEmpty),
    (.timeoutOpen, s.reclassified.isEmpty),
    (.rttNonnegative, s.negativeRtt.isEmpty),
    (.clockForward, s.clockReversal.isEmpty),
    (.concurrencyBounded, s.overConcurrency.isEmpty),
    (.phaseOnce, s.duplicateSequences.isEmpty),
    (.completedOnce, s.doubleCompleted.isEmpty),
    (.successNamed, s.successWithoutResponse.isEmpty),
    (.duplicatesConsistent, s.duplicateInconsistent.isEmpty),
    (.acksCounted, s.ackCountWrong.isEmpty),
    (.bodyExact, s.wrongBody.isEmpty),
    (.windowExact, (offWindow frozen s.windows).isEmpty) ]

/-- No check of the report fails. -/
def NoFailure (findings : List (Check × Bool)) : Prop := ∀ finding ∈ findings, finding.2 = true

/-- A check of the report fails. -/
def Fails (findings : List (Check × Bool)) (check : Check) : Prop := (check, false) ∈ findings

/-! ## 2.  What a sweep has seen -/

/-- The interaction records. -/
def interactions (entries : List Entry) : List Entry := entries.filter (·.isInteraction)

/-- The window a run is left with. -/
def lastWindow (run : Option Text) (seen : List Entry) : Option (ℤ × ℤ) :=
  ((seen.filter fun x => x.run = run).filterMap (·.window)).getLast?

/-- Two records of one request in one phase. -/
def SamePhase (x y : Entry) : Prop := x.run = y.run ∧ x.phaseKey = y.phaseKey

/-- Two records of one request that both completed. -/
def BothCompleted (x y : Entry) : Prop :=
  x.request = y.request ∧ x.completed = true ∧ y.completed = true

/-- **The accumulators after the records `seen`.** -/
structure Swept (frozen : FrozenParameters) (seen : List Entry) (s : Sweep) : Prop where
  overTimeout : s.overTimeout = seen.flatMap (overTimeoutOf frozen)
  reclassified : s.reclassified = seen.flatMap reclassifiedOf
  negativeRtt : s.negativeRtt = seen.flatMap negativeRttOf
  clockReversal : s.clockReversal = seen.flatMap negativeRttOf
  wrongBody : s.wrongBody = seen.flatMap (wrongBodyOf frozen)
  successWithoutResponse : s.successWithoutResponse = seen.flatMap successWithoutResponseOf
  duplicateInconsistent : s.duplicateInconsistent = seen.flatMap duplicateInconsistentOf
  ackCountWrong : s.ackCountWrong = seen.flatMap ackCountWrongOf
  overConcurrency : s.overConcurrency = seen.flatMap (overConcurrencyOf frozen)
  windows : ∀ run, s.windows.get? run = lastWindow run seen
  sequences : ∀ run key, key ∈ setAt s.sequences run ↔ ∃ x ∈ seen, x.run = run ∧ x.phaseKey = key
  duplicateSequences : s.duplicateSequences = [] ↔ seen.Pairwise fun x y => ¬ SamePhase x y
  completedOnce : ∀ run seq, seq ∈ setAt s.completedOnce run ↔
    ∃ x ∈ seen, x.completed = true ∧ x.request = (run, seq)
  doubleCompleted : s.doubleCompleted = [] ↔ seen.Pairwise fun x y => ¬ BothCompleted x y

theorem swept_empty (frozen : FrozenParameters) : Swept frozen [] Sweep.empty where
  overTimeout := rfl
  reclassified := rfl
  negativeRtt := rfl
  clockReversal := rfl
  wrongBody := rfl
  successWithoutResponse := rfl
  duplicateInconsistent := rfl
  ackCountWrong := rfl
  overConcurrency := rfl
  windows _ := rfl
  sequences _ _ := iff_of_false (Finset.notMem_empty _) fun h => nomatch h.choose_spec.1
  duplicateSequences := iff_of_true rfl List.Pairwise.nil
  completedOnce _ _ := iff_of_false (Finset.notMem_empty _) fun h => nomatch h.choose_spec.1
  doubleCompleted := iff_of_true rfl List.Pairwise.nil

theorem pairwise_concat {α : Type*} {R : α → α → Prop} {seen : List α} {x : α} :
    (seen ++ [x]).Pairwise R ↔ seen.Pairwise R ∧ ∀ y ∈ seen, R y x := by
  rw [List.pairwise_append]
  simp only [List.pairwise_singleton, List.mem_singleton, true_and, forall_eq]

theorem whereIf_eq_nil_iff {objection : Bool} {x : Entry} :
    whereIf objection x = [] ↔ objection = false := by
  cases objection <;> simp [whereIf]

/-- The last window of a run after one more record. -/
theorem lastWindow_concat (run : Option Text) (seen : List Entry) (x : Entry) :
    lastWindow run (seen ++ [x]) =
      if x.run = run then (x.window.map some).getD (lastWindow run seen)
      else lastWindow run seen := by
  unfold lastWindow
  rw [List.filter_append, List.filterMap_append]
  by_cases hrun : x.run = run
  · rw [if_pos hrun, List.filter_singleton, decide_eq_true hrun, cond_true]
    cases hwindow : x.window with
    | none => simp [hwindow]
    | some window => simp [hwindow]
  · rw [if_neg hrun, List.filter_singleton, decide_eq_false hrun, cond_false, List.filterMap_nil,
      List.append_nil]

theorem windows_visit {frozen : FrozenParameters} {seen : List Entry} {s : Sweep} (x : Entry)
    (h : ∀ run, s.windows.get? run = lastWindow run seen) (run : Option Text) :
    (s.visit frozen x).windows.get? run = lastWindow run (seen ++ [x]) := by
  rw [lastWindow_concat]
  change ((x.window.map fun window => s.windows.set x.run window).getD s.windows).get? run = _
  cases hwindow : x.window with
  | none =>
    rw [Option.map_none, Option.getD_none, h]
    split <;> rfl
  | some window =>
    rw [Option.map_some, Option.getD_some, OrderedDict.get?_set, h]
    by_cases hrun : x.run = run
    · rw [if_pos hrun.symm, if_pos hrun]
      rfl
    · rw [if_neg (Ne.symm hrun), if_neg hrun]

/-- **One more record.** -/
theorem Swept.visit {frozen : FrozenParameters} {seen : List Entry} {s : Sweep}
    (h : Swept frozen seen s) (x : Entry) : Swept frozen (seen ++ [x]) (s.visit frozen x) := by
  have hconcat : ∀ {l : List Where} {f : Entry → List Where}, l = seen.flatMap f →
      l ++ f x = (seen ++ [x]).flatMap f := by
    rintro l f rfl
    rw [List.flatMap_append, List.flatMap_singleton]
  exact
  { overTimeout := hconcat h.overTimeout
    reclassified := hconcat h.reclassified
    negativeRtt := hconcat h.negativeRtt
    clockReversal := hconcat h.clockReversal
    wrongBody := hconcat h.wrongBody
    successWithoutResponse := hconcat h.successWithoutResponse
    duplicateInconsistent := hconcat h.duplicateInconsistent
    ackCountWrong := hconcat h.ackCountWrong
    overConcurrency := hconcat h.overConcurrency
    windows := windows_visit x h.windows
    sequences := by
      intro run key
      change key ∈ setAt (addAt s.sequences x.run x.phaseKey) run ↔ _
      rw [setAt_addAt]
      simp only [List.mem_append, List.mem_singleton, or_and_right, exists_or, exists_eq_left]
      rw [← h.sequences]
      by_cases hrun : x.run = run
      · subst hrun
        simp only [if_true, Finset.mem_insert, true_and]
        rw [or_comm, eq_comm]
      · rw [if_neg (Ne.symm hrun)]
        simp [hrun]
    duplicateSequences := by
      change s.duplicateSequences ++ whereIf (x.phaseKey ∈ setAt s.sequences x.run) x = [] ↔ _
      rw [List.append_eq_nil_iff, whereIf_eq_nil_iff, h.duplicateSequences, pairwise_concat,
        decide_eq_false_iff_not, h.sequences]
      simp only [SamePhase, not_exists, not_and]
    completedOnce := by
      intro run seq
      change seq ∈ setAt (if x.completed then addAt s.completedOnce x.run x.record.sequenceId
        else s.completedOnce) run ↔ _
      simp only [List.mem_append, List.mem_singleton, or_and_right, exists_or, exists_eq_left]
      rw [← h.completedOnce]
      cases hcompleted : x.completed with
      | false => simp
      | true =>
        rw [if_pos rfl, setAt_addAt]
        by_cases hrun : x.run = run
        · subst hrun
          simp only [if_true, Finset.mem_insert, true_and, Entry.request, Prod.mk.injEq]
          rw [or_comm, eq_comm]
        · rw [if_neg (Ne.symm hrun)]
          simp [Entry.request, hrun]
    doubleCompleted := by
      change s.doubleCompleted ++
        whereIf (x.completed && x.record.sequenceId ∈ setAt s.completedOnce x.run) x = [] ↔ _
      rw [List.append_eq_nil_iff, whereIf_eq_nil_iff, h.doubleCompleted, pairwise_concat,
        Bool.and_eq_false_imp, decide_eq_false_iff_not, h.completedOnce]
      simp only [BothCompleted, not_exists, not_and]
      refine and_congr_right fun _ => ?_
      exact ⟨fun hnew y hy hsame hcompleted hx => hnew hx y hy hcompleted hsame,
        fun hnew hx y hy hcompleted hsame => hnew y hy hsame hcompleted hx⟩ }

/-- **The accumulators after the loop.** -/
theorem swept_sweep (frozen : FrozenParameters) (entries : List Entry) :
    Swept frozen (interactions entries) (sweep frozen entries) := by
  have hfold : ∀ seen : List Entry,
      Swept frozen seen (seen.foldl (fun s x => s.visit frozen x) .empty) := by
    intro seen
    induction seen using List.reverseRecOn with
    | nil => exact swept_empty frozen
    | append_singleton seen x ih =>
      rw [List.foldl_append]
      exact ih.visit x
  have hall := hfold (interactions entries)
  rwa [interactions, List.foldl_filter] at hall

/-! ## 3.  What the report says -/

/-- The record after which no record of its run has a window. -/
def LastOfRun (records : List Entry) (x : Entry) : Prop :=
  ∃ front back, records = front ++ x :: back ∧ ∀ y ∈ back, y.run = x.run → y.window = none

/-- A window of another length than the frozen one. -/
def Entry.OffWindow (frozen : FrozenParameters) (x : Entry) : Prop :=
  ∃ window, x.window = some window ∧ window.2 - window.1 ≠ frozen.windowNs

/-- **None of the states that the audit takes to be impossible.** -/
structure Clean (frozen : FrozenParameters) (records : List Entry) : Prop where
  /-- A success took neither a negative time nor more than the timeout. -/
  inTime : ∀ x ∈ records, x.isSuccess = true → ∀ rtt, x.rtt = some rtt →
    0 ≤ rtt ∧ rtt ≤ frozen.timeoutNs
  /-- A success names its response. -/
  named : ∀ x ∈ records, x.isSuccess = true → x.namesResponse = true
  /-- A timeout did not complete. -/
  timeoutOpen : ∀ x ∈ records, x.record.outcome = some (outcomeValue .timeout) →
    x.completed = false
  /-- Where acknowledgements are counted, the duplicates are listed, once each and apart
  from the terminating one, and the counts fit. -/
  acks : ∀ x ∈ records, ∀ acks, x.record.ackCount = some acks →
    ∃ ids : List Text, x.record.duplicateAckEventIds = some ids ∧
      x.record.duplicateAckCount = some (ids.length : ℤ) ∧ ids.Nodup ∧
      (∀ e, x.record.responseEventId = some e → e ∉ ids) ∧
      acks = ids.length + if x.namesResponse then 1 else 0
  body : ∀ x ∈ records, ∀ size, x.record.messageBodyBytes = some size →
    size = frozen.messageBodyBytes
  concurrency : ∀ x ∈ records, ∀ level, x.record.concurrency = some level →
    level ≤ frozen.concurrencyBound
  /-- No request has two records in one phase, and none completed twice. -/
  phaseOnce : records.Pairwise fun x y => ¬ SamePhase x y
  completedOnce : records.Pairwise fun x y => ¬ BothCompleted x y
  /-- The last window of a run is of the frozen length. -/
  window : ∀ x, LastOfRun records x → ¬ x.OffWindow frozen

theorem successWithoutResponseOf_eq_nil_iff {x : Entry} :
    successWithoutResponseOf x = [] ↔ (x.isSuccess = true → x.namesResponse = true) := by
  simp [successWithoutResponseOf, whereIf_eq_nil_iff]

theorem reclassifiedOf_eq_nil_iff {x : Entry} :
    reclassifiedOf x = [] ↔
      (x.record.outcome = some (outcomeValue .timeout) → x.completed = false) := by
  simp [reclassifiedOf, whereIf_eq_nil_iff]

theorem wrongBodyOf_eq_nil_iff {frozen : FrozenParameters} {x : Entry} :
    wrongBodyOf frozen x = [] ↔
      ∀ size, x.record.messageBodyBytes = some size → size = frozen.messageBodyBytes := by
  simp [wrongBodyOf, whereIf_eq_nil_iff, Option.any_eq_false]

theorem overConcurrencyOf_eq_nil_iff {frozen : FrozenParameters} {x : Entry} :
    overConcurrencyOf frozen x = [] ↔
      ∀ level, x.record.concurrency = some level → level ≤ frozen.concurrencyBound := by
  simp [overConcurrencyOf, whereIf_eq_nil_iff, Option.any_eq_false]

/-- The success tests of one record. -/
theorem rtt_checks_iff {frozen : FrozenParameters} {x : Entry} :
    (negativeRttOf x = [] ∧ overTimeoutOf frozen x = []) ↔
      (x.isSuccess = true → ∀ rtt, x.rtt = some rtt → 0 ≤ rtt ∧ rtt ≤ frozen.timeoutNs) := by
  rw [negativeRttOf, overTimeoutOf, whereIf_eq_nil_iff, whereIf_eq_nil_iff]
  cases x.isSuccess with
  | false => simp
  | true =>
    cases x.rtt with
    | none => simp
    | some rtt =>
      simp only [Bool.true_and, Option.any_some, decide_eq_false_iff_not, Bool.and_eq_false_imp,
        decide_eq_true_eq, not_lt, forall_const, Option.some.injEq, forall_eq']
      exact ⟨fun h => ⟨h.1, h.2 h.1⟩, fun h => ⟨h.1, fun _ => h.2⟩⟩

/-- The acknowledgement tests of one record. -/
theorem ack_checks_iff {x : Entry} :
    (duplicateInconsistentOf x = [] ∧ ackCountWrongOf x = []) ↔
      ∀ acks, x.record.ackCount = some acks →
        ∃ ids : List Text, x.record.duplicateAckEventIds = some ids ∧
          x.record.duplicateAckCount = some (ids.length : ℤ) ∧ ids.Nodup ∧
          (∀ e, x.record.responseEventId = some e → e ∉ ids) ∧
          acks = ids.length + if x.namesResponse then 1 else 0 := by
  unfold duplicateInconsistentOf ackCountWrongOf
  cases x.record.ackCount with
  | none => simp
  | some acks =>
    cases x.record.duplicateAckCount with
    | none => simp
    | some count =>
      cases x.record.duplicateAckEventIds with
      | none => simp
      | some ids =>
        simp only [Option.isNone_some, Bool.false_eq_true, if_false, List.append_eq_nil_iff,
          whereIf_eq_nil_iff, decide_eq_false_iff_not, not_not, Option.any_eq_false,
          Option.some.injEq, forall_eq', exists_eq_left', and_assoc]
        constructor
        · rintro ⟨rfl, hnodup, hresponse, hacks⟩
          exact ⟨rfl, hnodup, hresponse, hacks⟩
        · rintro ⟨rfl, hnodup, hresponse, hacks⟩
          exact ⟨rfl, hnodup, hresponse, hacks⟩

theorem lastOfRun_concat {seen : List Entry} {x y : Entry} :
    LastOfRun (seen ++ [y]) x ↔
      x = y ∨ LastOfRun seen x ∧ (y.run = x.run → y.window = none) := by
  constructor
  · rintro ⟨front, back, hsplit, hback⟩
    rcases List.eq_nil_or_concat' back with rfl | ⟨back, z, rfl⟩
    · exact Or.inl (List.head_eq_of_cons_eq (List.append_inj' hsplit rfl).2).symm
    · rw [← List.cons_append, ← List.append_assoc] at hsplit
      obtain ⟨hseen, hz⟩ := List.append_inj' hsplit rfl
      obtain rfl := List.head_eq_of_cons_eq hz
      rw [List.forall_mem_append, List.forall_mem_singleton] at hback
      exact Or.inr ⟨⟨front, back, hseen, hback.1⟩, hback.2⟩
  · rintro (rfl | ⟨⟨front, back, rfl, hback⟩, hy⟩)
    · exact ⟨seen, [], rfl, fun _ hz => absurd hz List.not_mem_nil⟩
    · refine ⟨front, back ++ [y], by simp, ?_⟩
      rw [List.forall_mem_append, List.forall_mem_singleton]
      exact ⟨hback, hy⟩

/-- The window a run is left with is that of the last record of the run that has one. -/
theorem lastWindow_eq_some_iff {run : Option Text} {records : List Entry} {window : ℤ × ℤ} :
    lastWindow run records = some window ↔
      ∃ x, LastOfRun records x ∧ x.run = run ∧ x.window = some window := by
  induction records using List.reverseRecOn with
  | nil =>
    refine iff_of_false nofun ?_
    rintro ⟨x, ⟨front, back, hsplit, -⟩, -⟩
    exact List.cons_ne_nil _ _ (List.append_eq_nil_iff.mp hsplit.symm).2
  | append_singleton seen y ih =>
    rw [lastWindow_concat]
    simp only [lastOfRun_concat]
    constructor
    · intro h
      by_cases hrun : y.run = run
      · rw [if_pos hrun] at h
        cases hwindow : y.window with
        | none =>
          rw [hwindow, Option.map_none, Option.getD_none] at h
          obtain ⟨x, hlast, hx, hxw⟩ := ih.mp h
          exact ⟨x, Or.inr ⟨hlast, fun _ => rfl⟩, hx, hxw⟩
        | some w =>
          rw [hwindow, Option.map_some, Option.getD_some] at h
          exact ⟨y, Or.inl rfl, hrun, hwindow.trans h⟩
      · rw [if_neg hrun] at h
        obtain ⟨x, hlast, rfl, hxw⟩ := ih.mp h
        exact ⟨x, Or.inr ⟨hlast, fun hsame => absurd hsame hrun⟩, rfl, hxw⟩
    · rintro ⟨x, rfl | ⟨hlast, hy⟩, rfl, hxw⟩
      · rw [if_pos rfl, hxw]
        rfl
      · have hseen : lastWindow x.run seen = some window := ih.mpr ⟨x, hlast, rfl, hxw⟩
        split
        · rename_i hrun
          rw [hy hrun, Option.map_none, Option.getD_none, hseen]
        · exact hseen

/-- **The check of the windows is about the last window of each run.** -/
theorem offWindow_eq_nil_iff {frozen : FrozenParameters} {records : List Entry} {s : Sweep}
    (h : Swept frozen records s) :
    offWindow frozen s.windows = [] ↔ ∀ x, LastOfRun records x → ¬ x.OffWindow frozen := by
  have hentry : ∀ run window, (run, window) ∈ s.windows.entries ↔
      ∃ x, LastOfRun records x ∧ x.run = run ∧ x.window = some window := by
    intro run window
    rw [← OrderedDict.get?_eq_some_iff, h.windows, lastWindow_eq_some_iff]
  rw [offWindow, List.filter_eq_nil_iff]
  constructor
  · rintro hall x hlast ⟨window, hwindow, hoff⟩
    have hmem := (hentry x.run window).mpr ⟨x, hlast, rfl, hwindow⟩
    exact hall (x.run, window) hmem (decide_eq_true hoff)
  · rintro hall ⟨run, window⟩ hmem hoff
    obtain ⟨x, hlast, -, hwindow⟩ := (hentry run window).mp hmem
    exact hall x hlast ⟨window, hwindow, of_decide_eq_true hoff⟩

/-- **The report has no failing check exactly when the records are clean.** -/
theorem noFailure_iff (frozen : FrozenParameters) (entries : List Entry) :
    NoFailure (impossibleStates frozen entries) ↔ Clean frozen (interactions entries) := by
  have h := swept_sweep frozen entries
  simp only [NoFailure, impossibleStates, List.forall_mem_cons, List.isEmpty_iff,
    List.not_mem_nil, false_implies, implies_true, and_true]
  rw [h.duplicateSequences, h.doubleCompleted, offWindow_eq_nil_iff h, h.overTimeout,
    h.reclassified, h.negativeRtt, h.clockReversal, h.overConcurrency, h.successWithoutResponse,
    h.duplicateInconsistent, h.ackCountWrong, h.wrongBody]
  simp only [List.flatMap_eq_nil_iff]
  constructor
  · rintro ⟨hover, hreclassified, hnegative, -, hconcurrency, hphase, hcompleted, hnamed, hdup,
      hacks, hbody, hwindow⟩
    exact
    { inTime := fun x hx => rtt_checks_iff.mp ⟨hnegative x hx, hover x hx⟩
      named := fun x hx => successWithoutResponseOf_eq_nil_iff.mp (hnamed x hx)
      timeoutOpen := fun x hx => reclassifiedOf_eq_nil_iff.mp (hreclassified x hx)
      acks := fun x hx => ack_checks_iff.mp ⟨hdup x hx, hacks x hx⟩
      body := fun x hx => wrongBodyOf_eq_nil_iff.mp (hbody x hx)
      concurrency := fun x hx => overConcurrencyOf_eq_nil_iff.mp (hconcurrency x hx)
      phaseOnce := hphase
      completedOnce := hcompleted
      window := hwindow }
  · intro hclean
    have hrtt := fun x hx => rtt_checks_iff.mpr (hclean.inTime x hx)
    have hack := fun x hx => ack_checks_iff.mpr (hclean.acks x hx)
    exact ⟨fun x hx => (hrtt x hx).2,
      fun x hx => reclassifiedOf_eq_nil_iff.mpr (hclean.timeoutOpen x hx),
      fun x hx => (hrtt x hx).1, fun x hx => (hrtt x hx).1,
      fun x hx => overConcurrencyOf_eq_nil_iff.mpr (hclean.concurrency x hx),
      hclean.phaseOnce, hclean.completedOnce,
      fun x hx => successWithoutResponseOf_eq_nil_iff.mpr (hclean.named x hx),
      fun x hx => (hack x hx).1, fun x hx => (hack x hx).2,
      fun x hx => wrongBodyOf_eq_nil_iff.mpr (hclean.body x hx), hclean.window⟩

/-! ## 4.  Two things the fold forgets -/

theorem windowCheck_fails_iff {frozen : FrozenParameters} {entries : List Entry} :
    Fails (impossibleStates frozen entries) .windowExact ↔
      ∃ x, LastOfRun (interactions entries) x ∧ x.OffWindow frozen := by
  have hempty : Fails (impossibleStates frozen entries) .windowExact ↔
      ¬ offWindow frozen (sweep frozen entries).windows = [] := by
    simp [Fails, impossibleStates, List.isEmpty_eq_false_iff]
  rw [hempty, offWindow_eq_nil_iff (swept_sweep frozen entries)]
  simp only [not_forall, not_not, exists_prop]

/-- **The law of the window check**: it fails exactly when some record's window is off. -/
def WindowsChecked (frozen : FrozenParameters) (entries : List Entry) : Prop :=
  Fails (impossibleStates frozen entries) .windowExact ↔
    ∃ x ∈ interactions entries, x.OffWindow frozen

theorem LastOfRun.mem {records : List Entry} {x : Entry} (h : LastOfRun records x) :
    x ∈ records := by
  obtain ⟨front, back, rfl, -⟩ := h
  exact List.mem_append_right _ List.mem_cons_self

/-- **The window check is right exactly when a window that is off is not always
overwritten**: if some record's window is off, then in some run the last record with a
window has one that is off. -/
theorem windowCheck_iff (frozen : FrozenParameters) (entries : List Entry) :
    WindowsChecked frozen entries ↔
      ((∃ x ∈ interactions entries, x.OffWindow frozen) →
        ∃ x, LastOfRun (interactions entries) x ∧ x.OffWindow frozen) := by
  rw [WindowsChecked, windowCheck_fails_iff]
  constructor
  · exact fun h => h.mpr
  · intro h
    exact ⟨fun ⟨x, hlast, hoff⟩ => ⟨x, hlast.mem, hoff⟩, h⟩

/-- The values of `fam.common.frozen`. -/
def frozenParameters : FrozenParameters :=
  { interactionTimeoutSeconds := 10
    messageBodyBytes := 256
    e3MeasurementSeconds := 60
    e3ConcurrencyLevels := [8, 32]
    e3LatencyMaxInFlight := 1 }

/-- An interaction record of one run and request, as `runner_record` fills it in. -/
def plainEntry (phase outcome : Text) (window : Option (ℤ × ℤ)) : Entry :=
  { file := "r.runner.jsonl".toList
    record :=
      { recordType := some "interaction".toList
        runId := some (some ['r'])
        sequenceId := some 1
        runPhase := some phase
        outcome := some outcome
        initiatedMonotonicNs := some 5
        completedMonotonicNs := none
        responseEventId := none
        ackCount := some 0
        duplicateAckCount := some 0
        duplicateAckEventIds := some []
        messageBodyBytes := none
        concurrency := none
        windowStartNs := window.map Prod.fst
        windowEndNs := window.map Prod.snd } }

/-- A window of one second, and after it one of the frozen minute. -/
def overwrittenWindow : List Entry :=
  [ plainEntry ['a'] (outcomeValue .timeout) (some (0, 10 ^ 9)),
    plainEntry ['b'] (outcomeValue .offlineSend) (some (0, 60 * 10 ^ 9)) ]

/-- The check does not see the first. -/
theorem overwrittenWindow_not_checked : ¬ WindowsChecked frozenParameters overwrittenWindow := by
  intro h
  have hpasses : ¬ Fails (impossibleStates frozenParameters overwrittenWindow) .windowExact := by
    unfold Fails
    decide +kernel
  have hall : interactions overwrittenWindow = overwrittenWindow := rfl
  refine hpasses (h.mpr ⟨plainEntry ['a'] (outcomeValue .timeout) (some (0, 10 ^ 9)), ?_,
    (0, 10 ^ 9), rfl, by decide +kernel⟩)
  rw [hall]
  exact List.mem_cons_self

/-- A record with a terminal outcome: any but `offline_send`. -/
def Entry.Terminal (x : Entry) : Prop :=
  ∃ outcome, x.record.outcome = some outcome ∧ outcome ≠ outcomeValue .offlineSend

/-- Two records of one request with a terminal outcome. -/
def TerminateTwice (x y : Entry) : Prop := x.request = y.request ∧ x.Terminal ∧ y.Terminal

/-- **A request that terminates twice is detected.**  If no check fails, no request has
two records with a terminal outcome. -/
def TerminationsChecked (frozen : FrozenParameters) (entries : List Entry) : Prop :=
  NoFailure (impossibleStates frozen entries) →
    (interactions entries).Pairwise fun x y => ¬ TerminateTwice x y

/-- Two records of one request with a terminal outcome, in two phases, of which at most
one completed. -/
def SilentlyTwice (x y : Entry) : Prop :=
  TerminateTwice x y ∧ x.record.runPhase ≠ y.record.runPhase ∧
    ¬ (x.completed = true ∧ y.completed = true)

theorem samePhase_iff {x y : Entry} :
    SamePhase x y ↔ x.request = y.request ∧ x.record.runPhase = y.record.runPhase := by
  simp only [SamePhase, Entry.phaseKey, Entry.request, Prod.mk.injEq, and_assoc]

/-- Among clean records, terminating twice is terminating twice silently. -/
theorem terminateTwice_iff {x y : Entry} (hphase : ¬ SamePhase x y)
    (hcompleted : ¬ BothCompleted x y) : TerminateTwice x y ↔ SilentlyTwice x y := by
  constructor
  · intro h
    refine ⟨h, fun hsame => hphase (samePhase_iff.mpr ⟨h.1, hsame⟩), fun hboth => ?_⟩
    exact hcompleted ⟨h.1, hboth.1, hboth.2⟩
  · exact fun h => h.1

/-- **The audit detects a request that terminates twice exactly when no request does so
silently, or something else is wrong**: among clean records, no request has two records
with a terminal outcome in two phases of which at most one completed. -/
theorem terminations_iff (frozen : FrozenParameters) (entries : List Entry) :
    TerminationsChecked frozen entries ↔
      (Clean frozen (interactions entries) →
        (interactions entries).Pairwise fun x y => ¬ SilentlyTwice x y) := by
  rw [TerminationsChecked, noFailure_iff]
  refine forall_congr' fun hclean => ?_
  have hboth := hclean.phaseOnce.and hclean.completedOnce
  constructor
  · intro h
    exact h.imp fun hnot hsilent => hnot hsilent.1
  · intro h
    exact (hboth.and h).imp fun hall htwice =>
      hall.2 ((terminateTwice_iff hall.1.1 hall.1.2).mp htwice)

/-- A send that was rejected while the agent was stopped, and that the records after the
restart report once more, as a timeout. -/
def rejectedTwice : List Entry :=
  [ plainEntry "offline".toList (outcomeValue .sendError) none,
    plainEntry "post_restart".toList (outcomeValue .timeout) none ]

/-- No check fails on them. -/
theorem rejectedTwice_not_checked : ¬ TerminationsChecked frozenParameters rejectedTwice := by
  intro h
  have hpasses : NoFailure (impossibleStates frozenParameters rejectedTwice) := by
    unfold NoFailure
    decide +kernel
  have hpairs := h hpasses
  have hall : interactions rejectedTwice = rejectedTwice := rfl
  rw [hall, rejectedTwice, List.pairwise_cons] at hpairs
  exact hpairs.1 _ List.mem_cons_self ⟨rfl, ⟨_, rfl, by decide⟩, ⟨_, rfl, by decide⟩⟩

end FinalAudit
end Analysis
end FederatedMessaging
