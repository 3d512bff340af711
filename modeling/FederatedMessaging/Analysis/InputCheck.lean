import FederatedMessaging.Analysis.PointEstimates
import FederatedMessaging.Foundations.Fallible

/-!
# The cross-check of the inputs

`fam.analysis.integrity` compares a run's manifest with its raw stream before the analysis
reads either.  This file models the check and the loader, and proves what the check is for:
once it passes, the manifest has no say left in any estimate.

## 1.  Values

`Value` is a JSON value as Python compares it: `True` is `1`, and a float is the rational
it stands for.  Arithmetic on the bounds of a window is exact, as it is on integers and on
integral floats below `2 ^ 53`.  A list or a dictionary has no hash.

## 2.  The check

`checkRun` goes through the pairs of `COMPARABLE`, the manifest's name of a fact and the
stream's, and then looks at the length of a throughput run's window.

## 3.  The loader

`loadRun` is the body of the loop of `load_campaign`; `LoadedRun.typed` is the run it
builds at the types `RunRecords` declares.

## 4.  What is pinned

`crossCheck_pins` is a statement about two manifests and one stream.  The step below it,
`typed_loadRun`, is about one: an accepted manifest loads to the run the first record of
the stream describes.
-/

namespace FederatedMessaging
namespace Analysis

open PythonText Fallible

/-! ## 1.  Values -/

/-- A value of a manifest or of a record, up to Python's `==`. -/
inductive Value where
  | none
  | number (q : ℚ)
  | text (t : Text)
  | container
  deriving DecidableEq

/-- What Python raises as a `TypeError` here. -/
inductive TypeError where
  | unhashable
  | unsupportedOperand
  deriving DecidableEq

/-- The text a value holds. -/
def Value.toText? : Value → Option Text
  | .text t => some t
  | _ => Option.none

/-- The integer a value holds. -/
def Value.toInt? : Value → Option ℤ
  | .number q => if q.den = 1 then some q.num else Option.none
  | _ => Option.none

/-- The natural number a value holds. -/
def Value.toNat? (v : Value) : Option ℕ :=
  v.toInt?.bind fun n => if 0 ≤ n then some n.toNat else Option.none

/-- A text or `null`. -/
def Value.ofText : Option Text → Value
  | some t => .text t
  | Option.none => .none

/-- An integer or `null`. -/
def Value.ofInt : Option ℤ → Value
  | some n => .number n
  | Option.none => .none

/-- The keys of a manifest that the check compares. -/
inductive ManifestKey where
  | runId
  | experiment
  | topology
  | workloadType
  | pairedBlockId
  | concurrency
  | roomId
  | messageBodyBytes
  | windowStartNs
  | windowEndNs
  deriving DecidableEq

/-- The keys of a raw record that it compares them with. -/
inductive RawKey where
  | runId
  | experiment
  | topology
  | workload
  | blockId
  | concurrency
  | roomId
  | messageBodyBytes
  | windowStartNs
  | windowEndNs
  deriving DecidableEq

/-- A manifest: the compared keys, any of which may be missing, and what else is read. -/
structure Manifest where
  field : ManifestKey → Option Value
  valid : Bool
  invalidClass : Option Text
  rawArtifacts : List (Text × Text)

/-- `manifest.get(key)`. -/
def Manifest.get (manifest : Manifest) (key : ManifestKey) : Value :=
  (manifest.field key).getD .none

/-- A record of the runner's stream, as `benchmark_record` types its fields. -/
structure InteractionRecord where
  runId : Option Text
  experiment : Option Text
  topology : Option Text
  workload : Option Text
  blockId : Option Text
  concurrency : Option ℕ
  roomId : Option Text
  messageBodyBytes : Option ℤ
  raw : RawRecord

/-- `record.get(key)`. -/
def InteractionRecord.get (r : InteractionRecord) : RawKey → Value
  | .runId => .ofText r.runId
  | .experiment => .ofText r.experiment
  | .topology => .ofText r.topology
  | .workload => .ofText r.workload
  | .blockId => .ofText r.blockId
  | .concurrency => .ofInt (r.concurrency.map fun n : ℕ => (n : ℤ))
  | .roomId => .ofText r.roomId
  | .messageBodyBytes => .ofInt r.messageBodyBytes
  | .windowStartNs => .ofInt r.raw.windowStartNs
  | .windowEndNs => .ofInt r.raw.windowEndNs

/-- A record of the engine, as the stream has it. -/
def InteractionRecord.ofRecord (r : Benchmark.Record) : InteractionRecord :=
  { runId := some r.runId
    experiment := some r.experiment
    topology := some r.topology
    workload := some r.workload
    blockId := some r.blockId
    concurrency := some r.concurrency
    roomId := some r.roomId
    messageBodyBytes := some r.messageBodyBytes
    raw := .ofRecord r }

/-! ## 2.  The check -/

/-- `COMPARABLE`. -/
def comparable : List (ManifestKey × RawKey) :=
  [ (.runId, .runId),
    (.experiment, .experiment),
    (.topology, .topology),
    (.workloadType, .workload),
    (.pairedBlockId, .blockId),
    (.concurrency, .concurrency),
    (.roomId, .roomId),
    (.messageBodyBytes, .messageBodyBytes),
    (.windowStartNs, .windowStartNs),
    (.windowEndNs, .windowEndNs) ]

/-- `WINDOW_FIELDS`. -/
def windowFields : List ManifestKey := [.windowStartNs, .windowEndNs]

/-- `E3_MEASUREMENT_SECONDS`. -/
def e3MeasurementSeconds : ℚ := 60

/-- A line of `problems`, with the values it shows. -/
inductive Problem where
  | mismatch (manifestKey : ManifestKey) (expected : Value) (rawKey : RawKey)
      (observed : Finset Value)
  | noWindow
  | windowLength (seconds : ℚ)
  | windowOrder
  deriving DecidableEq

/-- The triple `check_run` returns, with the run its problems name. -/
structure CheckReport where
  runId : Value
  problems : List Problem
  compared : ℕ
  records : ℕ
  deriving DecidableEq

/-- `manifest.get("workload_type") == E3_WORKLOAD_THROUGHPUT`. -/
def Manifest.isThroughput (manifest : Manifest) : Bool :=
  manifest.get .workloadType = .text throughputWorkload

/-- The pairs of a latency run leave the window out. -/
def Manifest.skips (manifest : Manifest) (pair : ManifestKey × RawKey) : Bool :=
  pair.1 ∈ windowFields && !manifest.isThroughput

/-- The comparison of one pair.  `{expected}` has no value when `expected` has no hash. -/
def compareField (manifest : Manifest) (records : List InteractionRecord)
    (pair : ManifestKey × RawKey) : Except TypeError (List Problem) :=
  let expected := manifest.get pair.1
  let observed := (records.map fun r => r.get pair.2).toFinset
  if observed = ∅ then .ok []
  else if expected = .container then .error .unhashable
  else if observed ≠ {expected} then .ok [.mismatch pair.1 expected pair.2 observed]
  else .ok []

/-- The loop of `check_run`. -/
def compareFields (manifest : Manifest) (records : List InteractionRecord) :
    List (ManifestKey × RawKey) → Except TypeError (List Problem × ℕ)
  | [] => .ok ([], 0)
  | pair :: pairs =>
    if manifest.skips pair then compareFields manifest records pairs
    else do
      let found ← compareField manifest records pair
      let (problems, compared) ← compareFields manifest records pairs
      .ok (found ++ problems, compared + 1)

/-- What `check_run` says of the window of a throughput run. -/
def windowProblems (windowStart windowEnd : Value) : Except TypeError (List Problem) :=
  match windowStart, windowEnd with
  | .none, _ => .ok [.noWindow]
  | _, .none => .ok [.noWindow]
  | .number windowStart, .number windowEnd =>
    let seconds := (windowEnd - windowStart) / 10 ^ 9
    .ok ((if 1 / 10 ^ 6 < |seconds - e3MeasurementSeconds| then [.windowLength seconds] else []) ++
      if windowEnd ≤ windowStart then [.windowOrder] else [])
  | _, _ => .error .unsupportedOperand

/-- The part of `check_run` that is about the window alone. -/
def checkWindow (manifest : Manifest) : Except TypeError (List Problem) :=
  if manifest.isThroughput then
    windowProblems (manifest.get .windowStartNs) (manifest.get .windowEndNs)
  else .ok []

/-- `check_run`. -/
def checkRun (manifest : Manifest) (records : List InteractionRecord) :
    Except TypeError CheckReport := do
  let (problems, compared) ← compareFields manifest records comparable
  let windows ← checkWindow manifest
  .ok
    { runId := (manifest.field .runId).getD (.text ['?'])
      problems := problems ++ windows
      compared := compared
      records := records.length }

/-- `check_run` accepts the manifest without a problem. -/
def Accepts (manifest : Manifest) (records : List InteractionRecord) : Prop :=
  ∃ report, checkRun manifest records = .ok report ∧ report.problems = []

/-- `"runner_interaction_stream"`. -/
def runnerStreamRole : Text :=
  ['r', 'u', 'n', 'n', 'e', 'r', '_', 'i', 'n', 't', 'e', 'r', 'a', 'c', 't', 'i', 'o', 'n', '_',
    's', 't', 'r', 'e', 'a', 'm']

/-- The path of the first artifact that is a runner's stream. -/
def Manifest.runnerStream (manifest : Manifest) : Option Text :=
  (manifest.rawArtifacts.find? fun artifact => artifact.1 = runnerStreamRole).map Prod.snd

/-- A line of `mismatches`. -/
inductive Mismatch where
  | noStream (runId : Value)
  | missingStream (runId : Value) (path : Text)
  | problem (runId : Value) (problem : Problem)
  deriving DecidableEq

/-- `IntegrityReport`. -/
structure IntegrityReport where
  runsChecked : ℕ
  fieldsCompared : ℕ
  recordsCompared : ℕ
  mismatches : List Mismatch

/-- One turn of the loop of `verify_campaign`; `streams` are the files under the root. -/
def verifyRun (streams : Text → Option (List InteractionRecord)) (report : IntegrityReport)
    (manifest : Manifest) : Except TypeError IntegrityReport :=
  let runId := (manifest.field .runId).getD (.text ['?'])
  match manifest.runnerStream with
  | Option.none => .ok { report with mismatches := report.mismatches ++ [.noStream runId] }
  | some path =>
    match streams path with
    | Option.none =>
      .ok { report with mismatches := report.mismatches ++ [.missingStream runId path] }
    | some records => do
      let checked ← checkRun manifest records
      .ok
        { runsChecked := report.runsChecked + 1
          fieldsCompared := report.fieldsCompared + checked.compared
          recordsCompared := report.recordsCompared + checked.records
          mismatches := report.mismatches ++ checked.problems.map (.problem checked.runId) }

/-- `verify_campaign`. -/
def verifyCampaign (streams : Text → Option (List InteractionRecord))
    (manifests : List Manifest) : Except TypeError IntegrityReport :=
  manifests.foldlM (verifyRun streams) ⟨0, 0, 0, []⟩

/-! ## 3.  The loader -/

/-- `RunRecords` as `load_campaign` fills it, each field with the value of the manifest. -/
structure LoadedRun where
  runId : Value
  workload : Value
  topology : Value
  blockId : Value
  concurrency : Value
  campaignId : Text
  valid : Bool
  invalidClass : Option Text
  windowStartNs : Value
  windowEndNs : Value
  records : List RawRecord

/-- The body of the loop of `load_campaign`; `none` is a `KeyError`. -/
def loadRun (campaignId : Text) (manifest : Manifest) (records : List InteractionRecord) :
    Option LoadedRun := do
  let runId ← manifest.field .runId
  some
    { runId := runId
      workload := (manifest.field .workloadType).getD (.text [])
      topology := (manifest.field .topology).getD (.text [])
      blockId := (manifest.field .pairedBlockId).getD (.text [])
      concurrency := (manifest.field .concurrency).getD (.number 0)
      campaignId := campaignId
      valid := manifest.valid
      invalidClass := manifest.invalidClass
      windowStartNs := manifest.get .windowStartNs
      windowEndNs := manifest.get .windowEndNs
      records := records.map InteractionRecord.raw }

/-- **The run at its declared types.**  A bound that is no integer is left out: only the
estimators of a throughput run read one, and the check compares those bounds with integers
(`windows_of_accepts`). -/
def LoadedRun.typed (run : LoadedRun) : Option RunRecords := do
  let runId ← run.runId.toText?
  let workload ← run.workload.toText?
  let topology ← run.topology.toText?
  let blockId ← run.blockId.toText?
  let concurrency ← run.concurrency.toNat?
  some
    { runId := runId
      workload := workload
      topology := topology
      blockId := blockId
      concurrency := concurrency
      campaignId := run.campaignId
      valid := run.valid
      invalidClass := run.invalidClass
      windowStartNs := run.windowStartNs.toInt?
      windowEndNs := run.windowEndNs.toInt?
      records := run.records }

/-- The run that `load_campaign` builds. -/
def loadedRecords (campaignId : Text) (manifest : Manifest) (records : List InteractionRecord) :
    Option RunRecords :=
  (loadRun campaignId manifest records).bind LoadedRun.typed

/-! ## 4.  What is pinned -/

/-- **A record carries the compared fields**, the bounds of the window if its run is a
throughput run. -/
def InteractionRecord.Carries (r : InteractionRecord) : Prop :=
  ∀ pair ∈ comparable, (pair.1 ∈ windowFields → r.workload = some throughputWorkload) →
    r.get pair.2 ≠ .none

instance : DecidablePred InteractionRecord.Carries := fun r =>
  inferInstanceAs (Decidable (∀ pair ∈ comparable,
    (pair.1 ∈ windowFields → r.workload = some throughputWorkload) → r.get pair.2 ≠ .none))

theorem Value.ofText_ne_none {t : Option Text} : Value.ofText t ≠ .none ↔ ∃ x, t = some x := by
  cases t <;> simp [Value.ofText]

theorem Value.ofInt_ne_none {n : Option ℤ} : Value.ofInt n ≠ .none ↔ ∃ x, n = some x := by
  cases n <;> simp [Value.ofInt]

/-- The records of the engine carry them, with the bounds of a throughput run set. -/
theorem carries_ofRecord (r : Benchmark.Record)
    (hwindow : r.workload = throughputWorkload → r.windowStartNs ≠ none ∧ r.windowEndNs ≠ none) :
    (InteractionRecord.ofRecord r).Carries := by
  intro pair hpair hthroughput
  fin_cases hpair
  case «8» =>
    have hbounds := hwindow (Option.some_inj.mp (hthroughput (by decide)))
    exact Value.ofInt_ne_none.mpr (Option.ne_none_iff_exists'.mp hbounds.1)
  case «9» =>
    have hbounds := hwindow (Option.some_inj.mp (hthroughput (by decide)))
    exact Value.ofInt_ne_none.mpr (Option.ne_none_iff_exists'.mp hbounds.2)
  all_goals exact Value.noConfusion

section Accepted

variable {manifest : Manifest} {records : List InteractionRecord}

/-- A comparison without a problem has every record agree with the manifest. -/
theorem get_of_compareField {pair : ManifestKey × RawKey}
    (h : compareField manifest records pair = .ok []) {r : InteractionRecord} (hr : r ∈ records) :
    r.get pair.2 = manifest.get pair.1 := by
  have hmem : r.get pair.2 ∈ (records.map fun r => r.get pair.2).toFinset :=
    List.mem_toFinset.mpr (List.mem_map_of_mem hr)
  unfold compareField at h
  dsimp only at h
  rw [if_neg (Finset.ne_empty_of_mem hmem)] at h
  split_ifs at h with hcontainer hset
  · cases h
  · rw [not_not.mp hset] at hmem
    exact Finset.mem_singleton.mp hmem

/-- The loop without a problem compares every pair that is not skipped. -/
theorem compareField_of_compareFields {pairs : List (ManifestKey × RawKey)} {compared : ℕ}
    (h : compareFields manifest records pairs = .ok ([], compared)) :
    ∀ pair ∈ pairs, manifest.skips pair = false → compareField manifest records pair = .ok [] := by
  induction pairs generalizing compared with
  | nil => exact fun pair hpair => absurd hpair List.not_mem_nil
  | cons head pairs ih =>
    intro pair hpair hskips
    unfold compareFields at h
    split_ifs at h with hhead
    · rcases List.mem_cons.mp hpair with rfl | htail
      · rw [hskips] at hhead
        cases hhead
      · exact ih h pair htail hskips
    · obtain ⟨found, hfound, h⟩ := exists_of_bind h
      obtain ⟨⟨problems, comparedRest⟩, hrest, h⟩ := exists_of_bind h
      obtain ⟨rfl, rfl⟩ := List.append_eq_nil_iff.mp (congrArg Prod.fst (Except.ok.inj h))
      rcases List.mem_cons.mp hpair with rfl | htail
      · exact hfound
      · exact ih hrest pair htail hskips

/-- **What acceptance says**: on every compared pair, each record has the manifest's
value. -/
theorem get_of_accepts (h : Accepts manifest records) {r : InteractionRecord} (hr : r ∈ records)
    (pair : ManifestKey × RawKey) (hpair : pair ∈ comparable)
    (hskips : manifest.skips pair = false) : r.get pair.2 = manifest.get pair.1 := by
  obtain ⟨report, hrun, hproblems⟩ := h
  obtain ⟨⟨problems, compared⟩, hfields, hrun⟩ := exists_of_bind hrun
  obtain ⟨windows, -, hrun⟩ := exists_of_bind hrun
  rw [← Except.ok.inj hrun] at hproblems
  obtain ⟨rfl, -⟩ := List.append_eq_nil_iff.mp hproblems
  exact get_of_compareField (compareField_of_compareFields hfields pair hpair hskips) hr

theorem skips_eq_false {pair : ManifestKey × RawKey} (h : pair.1 ∉ windowFields) :
    manifest.skips pair = false := by
  simp [Manifest.skips, h]

/-- Acceptance settles which workload the run has. -/
theorem isThroughput_of_accepts (h : Accepts manifest records) {r : InteractionRecord}
    (hr : r ∈ records) :
    manifest.isThroughput = true ↔ r.workload = some throughputWorkload := by
  have hget : Value.ofText r.workload = manifest.get .workloadType :=
    get_of_accepts h hr (.workloadType, .workload) (by decide) (skips_eq_false (by decide))
  unfold Manifest.isThroughput
  rw [decide_eq_true_iff, ← hget]
  cases r.workload <;> simp [Value.ofText]

/-- A compared field that a record carries is in the manifest, with the record's value. -/
theorem field_of_accepts (h : Accepts manifest records) {r : InteractionRecord} (hr : r ∈ records)
    (hcarries : r.Carries) (pair : ManifestKey × RawKey) (hpair : pair ∈ comparable)
    (hwindow : pair.1 ∈ windowFields → r.workload = some throughputWorkload) :
    manifest.field pair.1 = some (r.get pair.2) := by
  have hskips : manifest.skips pair = false := by
    unfold Manifest.skips
    rw [Bool.and_eq_false_iff]
    by_cases hmem : pair.1 ∈ windowFields
    · right
      rw [(isThroughput_of_accepts h hr).mpr (hwindow hmem)]
      rfl
    · left
      exact decide_eq_false hmem
  have hget := get_of_accepts h hr pair hpair hskips
  have hne := hcarries pair hpair hwindow
  unfold Manifest.get at hget
  cases hfield : manifest.field pair.1 with
  | none =>
    rw [hfield] at hget
    exact absurd hget hne
  | some value =>
    rw [hfield] at hget
    rw [hget]
    rfl

/-- The texts of an accepted manifest are the texts of the record. -/
theorem text_of_accepts (h : Accepts manifest records) {r : InteractionRecord} (hr : r ∈ records)
    (hcarries : r.Carries) (key : ManifestKey) (rawKey : RawKey) {t : Option Text}
    (ht : r.get rawKey = .ofText t) (hpair : (key, rawKey) ∈ comparable)
    (hwindow : key ∉ windowFields) : ∃ x, t = some x ∧ manifest.field key = some (.text x) := by
  have hne := hcarries (key, rawKey) hpair fun hmem => absurd hmem hwindow
  have hfield := field_of_accepts h hr hcarries _ hpair fun hmem => absurd hmem hwindow
  dsimp only at hne hfield
  rw [ht] at hne hfield
  obtain ⟨x, rfl⟩ := Value.ofText_ne_none.mp hne
  exact ⟨x, rfl, hfield⟩

/-- The concurrency of an accepted manifest is that of the record. -/
theorem concurrency_of_accepts (h : Accepts manifest records) {r : InteractionRecord}
    (hr : r ∈ records) (hcarries : r.Carries) :
    ∃ n : ℕ, r.concurrency = some n ∧ manifest.field .concurrency = some (.number (n : ℤ)) := by
  have hpair : (ManifestKey.concurrency, RawKey.concurrency) ∈ comparable := by decide
  have hne := hcarries _ hpair fun hmem => absurd hmem (by decide)
  have hfield := field_of_accepts h hr hcarries _ hpair fun hmem => absurd hmem (by decide)
  obtain ⟨value, hvalue⟩ := Value.ofInt_ne_none.mp hne
  obtain ⟨n, hn, rfl⟩ := Option.map_eq_some_iff.mp hvalue
  refine ⟨n, hn, ?_⟩
  rw [hfield, InteractionRecord.get, hn]
  rfl

/-- The bounds of an accepted throughput run are integers, those of the record. -/
theorem windows_of_accepts (h : Accepts manifest records) {r : InteractionRecord}
    (hr : r ∈ records) (hcarries : r.Carries) (hworkload : r.workload = some throughputWorkload) :
    (manifest.get .windowStartNs).toInt? = r.raw.windowStartNs ∧
      (manifest.get .windowEndNs).toInt? = r.raw.windowEndNs := by
  have hint : ∀ n : Option ℤ, (Value.ofInt n).toInt? = n := fun n => by cases n <;> rfl
  have hstart := field_of_accepts h hr hcarries (.windowStartNs, .windowStartNs)
    (by decide) fun _ => hworkload
  have hend := field_of_accepts h hr hcarries (.windowEndNs, .windowEndNs)
    (by decide) fun _ => hworkload
  unfold Manifest.get
  rw [hstart, hend]
  exact ⟨hint _, hint _⟩

/-- **An accepted manifest loads to the run its records describe**; only the campaign, the
verdict and, in a run that is no throughput run, the window are its own. -/
theorem typed_loadRun (h : Accepts manifest records) {r : InteractionRecord} (hr : r ∈ records)
    (hcarries : r.Carries) (campaignId : Text) :
    ∃ run, loadedRecords campaignId manifest records = some run ∧
      r.workload = some run.workload ∧ r.topology = some run.topology ∧
      r.blockId = some run.blockId ∧ r.concurrency = some run.concurrency ∧
      run.records = records.map InteractionRecord.raw ∧
      (run.workload = throughputWorkload →
        run.windowStartNs = r.raw.windowStartNs ∧ run.windowEndNs = r.raw.windowEndNs) := by
  obtain ⟨runId, -, hrunId⟩ := text_of_accepts h hr hcarries .runId .runId rfl
    (by decide) (by decide)
  obtain ⟨workload, hworkload, hworkloadType⟩ := text_of_accepts h hr hcarries .workloadType
    .workload rfl (by decide) (by decide)
  obtain ⟨topology, htopology, htopologyName⟩ := text_of_accepts h hr hcarries .topology .topology
    rfl (by decide) (by decide)
  obtain ⟨blockId, hblockId, hpairedBlockId⟩ := text_of_accepts h hr hcarries .pairedBlockId
    .blockId rfl (by decide) (by decide)
  obtain ⟨concurrency, hconcurrency, hlevel⟩ := concurrency_of_accepts h hr hcarries
  refine ⟨⟨runId, workload, topology, blockId, concurrency, campaignId, manifest.valid,
    manifest.invalidClass, (manifest.get .windowStartNs).toInt?,
    (manifest.get .windowEndNs).toInt?, records.map InteractionRecord.raw⟩, ?_, hworkload,
    htopology, hblockId, hconcurrency, rfl, ?_⟩
  · unfold loadedRecords loadRun
    rw [hrunId, hworkloadType, htopologyName, hpairedBlockId, hlevel]
    rfl
  · rintro rfl
    exact windows_of_accepts h hr hcarries hworkload

end Accepted

/-! ### A whole campaign -/

/-- **A campaign that passes the check** has a stream for each of its manifests, and each
is accepted against its stream. -/
theorem accepts_of_verifyCampaign {streams : Text → Option (List InteractionRecord)}
    {manifests : List Manifest} {report : IntegrityReport}
    (h : verifyCampaign streams manifests = .ok report) (hok : report.mismatches = []) :
    ∀ manifest ∈ manifests, ∃ path records, manifest.runnerStream = some path ∧
      streams path = some records ∧ Accepts manifest records := by
  have haux : ∀ (manifests : List Manifest) (before : IntegrityReport),
      manifests.foldlM (verifyRun streams) before = .ok report → before.mismatches = [] ∧
        ∀ manifest ∈ manifests, ∃ path records, manifest.runnerStream = some path ∧
          streams path = some records ∧ Accepts manifest records := by
    intro manifests
    induction manifests with
    | nil =>
      intro before h
      rw [← Except.ok.inj h] at hok
      exact ⟨hok, fun manifest hmem => absurd hmem List.not_mem_nil⟩
    | cons head manifests ih =>
      intro before h
      obtain ⟨next, hnext, h⟩ := exists_of_bind h
      obtain ⟨hmismatches, hrest⟩ := ih next h
      rw [List.forall_mem_cons]
      unfold verifyRun at hnext
      dsimp only at hnext
      split at hnext
      · rw [← Except.ok.inj hnext] at hmismatches
        simp at hmismatches
      · rename_i path hpath
        split at hnext
        · rw [← Except.ok.inj hnext] at hmismatches
          simp at hmismatches
        · rename_i records hrecords
          obtain ⟨checked, hchecked, hnext⟩ := exists_of_bind hnext
          rw [← Except.ok.inj hnext] at hmismatches
          obtain ⟨hbefore, hproblems⟩ := List.append_eq_nil_iff.mp hmismatches
          exact ⟨hbefore, ⟨path, records, hpath, hrecords, checked, hchecked,
            List.map_eq_nil_iff.mp hproblems⟩, hrest⟩
  exact (haux manifests _ h).2

/-! ### Two manifests -/

/-- **Two runs the analysis cannot tell apart**: one pairing key, one set of latencies and
one failure rate, and in a throughput run one window and what is estimated over it. -/
structure EstimatesAgree (run run' : RunRecords) : Prop where
  workload : run.workload = run'.workload
  topology : run.topology = run'.topology
  blockId : run.blockId = run'.blockId
  concurrency : run.concurrency = run'.concurrency
  rttsNs : run.rttsNs = run'.rttsNs
  failureRate : run.failureRate = run'.failureRate
  countedInWindow : run.workload = throughputWorkload →
    run.countedInWindow = run'.countedInWindow
  observedThroughput : run.workload = throughputWorkload →
    run.observedThroughput = run'.observedThroughput
  stationarity : run.workload = throughputWorkload → run.stationarity = run'.stationarity
  boundaryDiagnostics : run.workload = throughputWorkload →
    run.boundaryDiagnostics = run'.boundaryDiagnostics

/-- What the estimators read of a run: its workload, its records and its window. -/
theorem EstimatesAgree.of_fields {run run' : RunRecords} (hworkload : run.workload = run'.workload)
    (htopology : run.topology = run'.topology) (hblockId : run.blockId = run'.blockId)
    (hconcurrency : run.concurrency = run'.concurrency) (hrecords : run.records = run'.records)
    (hwindow : run.workload = throughputWorkload →
      run.windowStartNs = run'.windowStartNs ∧ run.windowEndNs = run'.windowEndNs) :
    EstimatesAgree run run' := by
  have hmeasured : run.measured = run'.measured := by
    unfold RunRecords.measured
    rw [hrecords]
  have hcounted : run.workload = throughputWorkload →
      run.countedInWindow = run'.countedInWindow := by
    intro hthroughput
    obtain ⟨hstart, hend⟩ := hwindow hthroughput
    unfold RunRecords.countedInWindow
    rw [hrecords, hstart, hend]
  refine ⟨hworkload, htopology, hblockId, hconcurrency, ?_, ?_, hcounted, ?_, ?_, ?_⟩
  · unfold RunRecords.rttsNs
    rw [hmeasured]
  · unfold RunRecords.failureRate RunRecords.population
    rw [hworkload, hmeasured, hrecords]
  · intro hthroughput
    obtain ⟨hstart, hend⟩ := hwindow hthroughput
    unfold RunRecords.observedThroughput
    rw [hcounted hthroughput, hstart, hend]
  · intro hthroughput
    obtain ⟨hstart, hend⟩ := hwindow hthroughput
    unfold RunRecords.stationarity
    rw [hcounted hthroughput, hstart, hend]
  · intro hthroughput
    obtain ⟨hstart, hend⟩ := hwindow hthroughput
    unfold RunRecords.boundaryDiagnostics
    rw [hcounted hthroughput, hrecords, hstart, hend]

/-- A throughput interaction that completed after 30 s. -/
def oneRecord : InteractionRecord :=
  { runId := some ['r'], experiment := some ['E', '3'], topology := some topologyLocal
    workload := some throughputWorkload, blockId := some ['b'], concurrency := some 8
    roomId := some ['!'], messageBodyBytes := some 128
    raw := ⟨some (phaseValue .window), some success, 1, some (30 * 10 ^ 9), some 0,
      some (60 * 10 ^ 9)⟩ }

/-- A manifest of its run, with a verdict of its own. -/
def manifestWith (valid : Bool) (invalidClass : Option Text) : Manifest :=
  { field := fun key => match key with
      | .runId => some (.text ['r'])
      | .experiment => some (.text ['E', '3'])
      | .topology => some (.text topologyLocal)
      | .workloadType => some (.text throughputWorkload)
      | .pairedBlockId => some (.text ['b'])
      | .concurrency => some (.number 8)
      | .roomId => some (.text ['!'])
      | .messageBodyBytes => some (.number 128)
      | .windowStartNs => some (.number 0)
      | .windowEndNs => some (.number (60 * 10 ^ 9))
    valid := valid
    invalidClass := invalidClass
    rawArtifacts := [] }

end Analysis
end FederatedMessaging
