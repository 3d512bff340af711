import FederatedMessaging.Benchmark.Schedule
import FederatedMessaging.Common.Digests
import FederatedMessaging.Foundations.JsonReads
import FederatedMessaging.Foundations.JsonZones
import FederatedMessaging.Foundations.TextLines

/-!
# The ledger of a campaign

`CampaignState` of `fam.benchmark.schedule`: which runs of a campaign are recorded.  It is one
file, named after the fingerprint of the parameters, that is written again as a whole after
every run and read when a campaign is resumed.

## 1.  Resuming

What a flush writes is read back as the state that was flushed (`readLedger_bytes`): the file is
printed JSON with keys that are given once, in UTF-8, without a carriage return that reading
would turn into a line break.  So after any records and reopenings the ledger knows the runs that
were recorded, and `pending` leaves the others, in the order of the schedule
(`pending_eq_filter`).

## 2.  Crashes

`write_text` opens the file for writing, which empties it, and then writes.  A process that is
cut off in between leaves a beginning of the new text, and the old one is gone.
`ledgerAtomic_iff` says when the campaign can still be resumed: the file was not yet emptied, or
at most its last line break is missing.
-/

namespace FederatedMessaging
namespace Benchmark

open PythonText Json Analysis

/-! ## The state -/

/-- `CampaignState`, apart from its path. -/
@[ext]
structure CampaignState where
  campaignId : Text
  parameters : Json
  fingerprint : Text
  createdAt : Text
  completed : OrderedDict Text Json

/-- What is recorded of a run. -/
structure LedgerEntry where
  runId : Text
  status : Text
  manifest : Text
  digests : OrderedDict Text Text
  completedAt : Text

/-- The entry as it is stored. -/
def LedgerEntry.toJson (entry : LedgerEntry) : Json :=
  .object [("run_id".toList, .string entry.runId), ("status".toList, .string entry.status),
    ("manifest".toList, .string entry.manifest),
    ("digests".toList, .object (entry.digests.entries.map fun d => (d.1, .string d.2))),
    ("completed_at".toList, .string entry.completedAt)]

section Parameters

variable (sha256 : List UInt8 → Text)

/-- `fingerprint`. -/
def fingerprint (parameters : Json) : Text :=
  sha256 (Utf8.encode (dumps .compact (sortKeys parameters)))

/-- `campaign_id`. -/
def campaignIdOf (parameters : Json) (publicationData : Bool) : Text :=
  (if publicationData then "fam-formal".toList else "e3dev".toList) ++
    '-' :: (fingerprint sha256 parameters).take 16

end Parameters

namespace CampaignState

/-- What `flush` writes. -/
def payload (state : CampaignState) : Json :=
  .object [("campaign_id".toList, .string state.campaignId),
    ("fingerprint".toList, .string state.fingerprint),
    ("created_at".toList, .string state.createdAt),
    ("parameters".toList, state.parameters),
    ("completed".toList, .object state.completed.entries)]

/-- The bytes of the file after `flush`. -/
def bytes (state : CampaignState) : List UInt8 :=
  Utf8.encode (dumps .indented state.payload ++ ['\n'])

/-- `is_done`. -/
def isDone (state : CampaignState) (run : ScheduledRun) : Bool := state.completed.contains run.key

/-- `record`, before its flush. -/
def record (state : CampaignState) (run : ScheduledRun) (entry : LedgerEntry) : CampaignState :=
  { state with completed := state.completed.set run.key entry.toJson }

end CampaignState

/-- `pending`. -/
def pending (runs : List ScheduledRun) (state : CampaignState) : List ScheduledRun :=
  runs.filter fun run => !state.isDone run

/-! ## Opening -/

/-- Why a ledger is not opened. -/
inductive OpenFailure where
  /-- It is not UTF-8, or not JSON. -/
  | unreadable
  /-- It has another fingerprint. -/
  | otherFingerprint
  /-- It is not what `flush` writes: a field is missing, or has another type. -/
  | malformed
  deriving DecidableEq, Repr

/-- `value == text`. -/
def isString (t : Text) : Json → Bool
  | .string s => s = t
  | _ => false

/-- A field of the ledger that is a string. -/
def stringField (members : List (Text × Json)) (key : Text) : Except OpenFailure Text :=
  match memberOrNone members key with
  | .string s => .ok s
  | _ => .error .malformed

/-- `payload.get("completed", {})`. -/
def completedField (members : List (Text × Json)) : Except OpenFailure (OrderedDict Text Json) :=
  match members.lookup "completed".toList with
  | none => .ok OrderedDict.empty
  | some (.object completed) => .ok (OrderedDict.empty.update completed)
  | some _ => .error .malformed

/-- The branch of `CampaignState.open` for a file that exists.  A string with half a surrogate
pair, which `flush` does not write, counts as unreadable. -/
def readLedger (digest : Text) (bytes : List UInt8) : Except OpenFailure CampaignState :=
  match Utf8.decode bytes with
  | none => .error .unreadable
  | some t =>
    match loads (universalNewlines t) with
    | .ok (.object members) => do
      if isString digest (memberOrNone members "fingerprint".toList) then
        let campaignId ← stringField members "campaign_id".toList
        let parameters ← (members.lookup "parameters".toList).elim (.error .malformed) .ok
        let createdAt ← stringField members "created_at".toList
        let completed ← completedField members
        pure ⟨campaignId, parameters, digest, createdAt, completed⟩
      else .error .otherFingerprint
    | .ok _ => .error .malformed
    | .error _ => .error .unreadable

variable (sha256 : List UInt8 → Text)

/-- `CampaignState.open`: the state and the file afterwards. -/
def openLedger (parameters : Json) (publicationData : Bool) (now : Text)
    (file : Option (List UInt8)) : Except OpenFailure CampaignState × Option (List UInt8) :=
  let digest := fingerprint sha256 parameters
  match file with
  | some bytes => (readLedger digest bytes, some bytes)
  | none =>
    let state : CampaignState :=
      ⟨campaignIdOf sha256 parameters publicationData, parameters, digest, now, OrderedDict.empty⟩
    (.ok state, some state.bytes)

/-- What is done with a ledger. -/
inductive LedgerStep where
  | record (run : ScheduledRun) (entry : LedgerEntry)
  | reopen (now : Text)

/-- The runs that are recorded by some steps. -/
def recordedRuns (steps : List LedgerStep) : List ScheduledRun :=
  steps.filterMap fun
    | .record run _ => some run
    | .reopen _ => none

/-- A campaign while a process runs: the state and the file. -/
abbrev OpenCampaign := CampaignState × Option (List UInt8)

/-- A process opens the ledger. -/
def enter (parameters : Json) (publicationData : Bool) (now : Text) (file : Option (List UInt8)) :
    Except OpenFailure OpenCampaign :=
  match openLedger sha256 parameters publicationData now file with
  | (.ok state, file) => .ok (state, file)
  | (.error failure, _) => .error failure

/-- One step of a campaign with some parameters. -/
def ledgerStep (parameters : Json) (publicationData : Bool) (before : OpenCampaign) :
    LedgerStep → Except OpenFailure OpenCampaign
  | .record run entry => .ok (before.1.record run entry, some (before.1.record run entry).bytes)
  | .reopen now => enter sha256 parameters publicationData now before.2

/-- A campaign that is opened for the first time, and what is done with its ledger then. -/
def campaign (parameters : Json) (publicationData : Bool) (now : Text) (steps : List LedgerStep) :
    Except OpenFailure OpenCampaign := do
  let first ← enter sha256 parameters publicationData now none
  steps.foldlM (ledgerStep sha256 parameters publicationData) first

/-! ## Reading what was written -/

/-- **A state that can be written and belongs to some parameters.** -/
structure Sound (parameters : Json) (publicationData : Bool) (state : CampaignState) : Prop where
  campaignId_eq : state.campaignId = campaignIdOf sha256 parameters publicationData
  parameters_eq : state.parameters = parameters
  fingerprint_eq : state.fingerprint = fingerprint sha256 parameters
  valid : ∀ entry ∈ state.completed.entries, entry.2.Valid

theorem valid_string (s : Text) : (Json.string s).Valid := by
  intro node hnode
  obtain rfl := List.mem_singleton.mp hnode
  trivial

theorem valid_object {members : List (Text × Json)} (hkeys : (members.map Prod.fst).Nodup)
    (h : ∀ m ∈ members, m.2.Valid) : (Json.object members).Valid := by
  intro node hnode
  rcases mem_nodes_object.mp hnode with rfl | ⟨m, hm, hnode⟩
  · exact hkeys
  · exact h m hm node hnode

theorem valid_toJson (entry : LedgerEntry) : entry.toJson.Valid := by
  have hkeys : ["run_id".toList, "status".toList, "manifest".toList, "digests".toList,
      "completed_at".toList].Nodup := by decide
  refine valid_object hkeys ?_
  simp only [List.forall_mem_cons, List.not_mem_nil, false_implies, implies_true, and_true]
  refine ⟨valid_string _, valid_string _, valid_string _, valid_object ?_ ?_, valid_string _⟩
  · rw [List.map_map]
    exact entry.digests.nodup_keys
  · intro m hm
    obtain ⟨d, -, rfl⟩ := List.mem_map.mp hm
    exact valid_string _

variable {sha256} {parameters : Json} {publicationData : Bool} {state : CampaignState}

theorem Sound.valid_payload (h : Sound sha256 parameters publicationData state)
    (hparameters : parameters.Valid) : state.payload.Valid := by
  have hkeys : ["campaign_id".toList, "fingerprint".toList, "created_at".toList,
      "parameters".toList, "completed".toList].Nodup := by decide
  refine valid_object hkeys ?_
  simp only [List.forall_mem_cons, List.not_mem_nil, false_implies, implies_true, and_true]
  exact ⟨valid_string _, valid_string _, valid_string _, h.parameters_eq ▸ hparameters,
    valid_object state.completed.nodup_keys h.valid⟩

/-- Printing puts no carriage return. -/
theorem notMem_dumps_indented {j : Json} (h : j.Valid) : '\r' ∉ dumps .indented j := by
  have hgap : ∀ level, ∀ c ∈ Style.indented.gap level, c ≠ '\r' := by
    intro level c hc
    rcases List.mem_cons.mp hc with rfl | hc
    · decide
    · rw [List.eq_of_mem_replicate hc]
      decide
  have hlow : ∀ c : Char, 32 ≤ c.toNat → c ≠ '\r' := by
    rintro c hc rfl
    exact absurd hc (by decide)
  exact fun hmem => forall_print (fun c hc _ => hlow c hc) hgap h (fun _ _ c _ hc => hlow c hc) 0
    _ hmem rfl

/-- Any text of the file that is read as the payload gives the state. -/
theorem readLedger_eq (h : Sound sha256 parameters publicationData state) {bytes : List UInt8}
    {t : Text} (hdecode : Utf8.decode bytes = some t)
    (hloads : loads (universalNewlines t) = .ok state.payload) :
    readLedger (fingerprint sha256 parameters) bytes = .ok state := by
  have hcompleted : OrderedDict.empty.update state.completed.entries = state.completed :=
    OrderedDict.eq_of_entries (OrderedDict.entries_update_of_nodup state.completed.nodup_keys)
  have hread : completedField [("campaign_id".toList, .string state.campaignId),
      ("fingerprint".toList, .string state.fingerprint),
      ("created_at".toList, .string state.createdAt), ("parameters".toList, state.parameters),
      ("completed".toList, .object state.completed.entries)] = .ok state.completed :=
    congrArg Except.ok hcompleted
  unfold readLedger
  rw [hdecode]
  dsimp only
  rw [hloads]
  dsimp only [CampaignState.payload]
  have hdigest : isString (fingerprint sha256 parameters) (.string state.fingerprint) = true :=
    decide_eq_true h.fingerprint_eq
  refine (if_pos hdigest).trans ?_
  rw [hread]
  exact congrArg Except.ok (CampaignState.ext rfl rfl h.fingerprint_eq.symm rfl rfl)

/-- **What a flush writes is read back.** -/
theorem readLedger_bytes (hparameters : parameters.Valid)
    (h : Sound sha256 parameters publicationData state) :
    readLedger (fingerprint sha256 parameters) state.bytes = .ok state := by
  have hvalid := h.valid_payload hparameters
  have hreturn : '\r' ∉ dumps .indented state.payload ++ ['\n'] := by
    rw [List.mem_append, not_or]
    exact ⟨notMem_dumps_indented hvalid, by decide⟩
  refine readLedger_eq h (Utf8.decode_encode _) ?_
  rw [universalNewlines_eq_self hreturn]
  exact loads_dumps_append .indented hvalid fun c hc => by
    obtain rfl := List.mem_singleton.mp hc
    rfl

/-! ## Steps -/

/-- Every value is an old one or the new one. -/
theorem valid_of_mem_set {d : OrderedDict Text Json} (h : ∀ entry ∈ d.entries, entry.2.Valid)
    {k : Text} {x : Json} (hx : x.Valid) : ∀ entry ∈ (d.set k x).entries, entry.2.Valid := by
  intro entry hentry
  rcases OrderedDict.mem_entries_set.mp hentry with ⟨-, rfl⟩ | ⟨-, hold⟩
  · exact hx
  · exact h entry hold

theorem Sound.record (h : Sound sha256 parameters publicationData state) (run : ScheduledRun)
    (entry : LedgerEntry) : Sound sha256 parameters publicationData (state.record run entry) :=
  { h with valid := valid_of_mem_set h.valid (valid_toJson entry) }

theorem isDone_record_iff {run run' : ScheduledRun} {entry : LedgerEntry} :
    (state.record run entry).isDone run' = true ↔
      state.isDone run' = true ∨ run'.key = run.key := by
  have hset : run'.key ∈ (state.completed.set run.key entry.toJson).keys ↔
      run'.key ∈ state.completed.keys ∨ run'.key = run.key := OrderedDict.mem_keys_set
  unfold CampaignState.isDone
  rw [OrderedDict.contains_iff, OrderedDict.contains_iff]
  exact hset

/-- **What holds of a campaign while it runs**: the file holds the state, and the state the runs
that were recorded. -/
structure Kept (sha256 : List UInt8 → Text) (parameters : Json) (publicationData : Bool)
    (recorded : List ScheduledRun) (now : OpenCampaign) : Prop where
  sound : Sound sha256 parameters publicationData now.1
  file : now.2 = some now.1.bytes
  isDone_iff : ∀ run, now.1.isDone run = true ↔ ∃ run' ∈ recorded, run.key = run'.key

/-- **A step** succeeds and keeps this. -/
theorem Kept.step (hparameters : parameters.Valid) {recorded : List ScheduledRun}
    {before : OpenCampaign} (h : Kept sha256 parameters publicationData recorded before)
    (step : LedgerStep) :
    ∃ after, ledgerStep sha256 parameters publicationData before step = .ok after ∧
      Kept sha256 parameters publicationData (recorded ++ recordedRuns [step]) after := by
  cases step with
  | record run entry =>
    refine ⟨_, rfl, h.sound.record run entry, rfl, fun run' => ?_⟩
    rw [isDone_record_iff, h.isDone_iff]
    simp only [recordedRuns, List.filterMap_cons, List.filterMap_nil, List.mem_append,
      List.mem_singleton]
    grind
  | reopen now =>
    refine ⟨before, ?_, ?_⟩
    · have hopen : openLedger sha256 parameters publicationData now before.2 =
          (.ok before.1, before.2) := by
        rw [h.file, openLedger, readLedger_bytes hparameters h.sound]
      change enter sha256 parameters publicationData now before.2 = .ok before
      rw [enter, hopen]
    · rw [recordedRuns, List.filterMap_cons_none rfl, List.filterMap_nil, List.append_nil]
      exact h

/-- **Any number of steps.** -/
theorem Kept.steps (hparameters : parameters.Valid) {recorded : List ScheduledRun}
    {before : OpenCampaign} (h : Kept sha256 parameters publicationData recorded before)
    (steps : List LedgerStep) :
    ∃ after, steps.foldlM (ledgerStep sha256 parameters publicationData) before = .ok after ∧
      Kept sha256 parameters publicationData (recorded ++ recordedRuns steps) after := by
  induction steps generalizing recorded before with
  | nil => exact ⟨before, rfl, by rwa [recordedRuns, List.filterMap_nil, List.append_nil]⟩
  | cons step steps ih =>
    obtain ⟨middle, hmiddle, hkept⟩ := h.step hparameters step
    obtain ⟨after, hafter, hkept⟩ := ih hkept
    refine ⟨after, ?_, ?_⟩
    · rw [List.foldlM_cons, hmiddle]
      exact hafter
    · have happend : recordedRuns (step :: steps) = recordedRuns [step] ++ recordedRuns steps :=
        List.filterMap_append (l := [step])
      rwa [happend, ← List.append_assoc]

/-- **A campaign can always be opened again**, and knows what was recorded. -/
theorem kept_campaign (sha256 : List UInt8 → Text) (hparameters : parameters.Valid)
    (publicationData : Bool) (now : Text) (steps : List LedgerStep) :
    ∃ after, campaign sha256 parameters publicationData now steps = .ok after ∧
      Kept sha256 parameters publicationData (recordedRuns steps) after := by
  refine @Kept.steps _ _ _ hparameters [] _ ⟨⟨rfl, rfl, rfl, ?_⟩, rfl, fun run => ?_⟩ steps
  · exact fun entry hentry => absurd hentry List.not_mem_nil
  · refine iff_of_false (fun hdone => ?_) ?_
    · exact absurd (OrderedDict.contains_iff.mp hdone) List.not_mem_nil
    · rintro ⟨run', hrun', -⟩
      exact absurd hrun' List.not_mem_nil

/-! ## The laws of a campaign -/

variable {random : Shuffles} {seed : ℤ} {blocks : ℕ} {levels : List ℤ} {workloads : List Text}

/-- **What is pending is what was not recorded**, in the order of the schedule. -/
theorem pending_eq_filter (hlevels : levels.Nodup) {recorded : List ScheduledRun}
    {now : OpenCampaign} (h : Kept sha256 parameters publicationData recorded now)
    (hrecorded : ∀ run ∈ recorded,
      run ∈ generateCampaignSchedule random seed blocks levels workloads) :
    pending (generateCampaignSchedule random seed blocks levels workloads) now.1 =
      (generateCampaignSchedule random seed blocks levels workloads).filter
        fun run => run ∉ recorded := by
  unfold pending
  refine List.filter_congr fun run hrun => ?_
  have hdone : now.1.isDone run = true ↔ run ∈ recorded := by
    rw [h.isDone_iff]
    constructor
    · rintro ⟨run', hrun', hkey⟩
      rwa [eq_of_key_eq hlevels hrun (hrecorded run' hrun') hkey]
    · exact fun hmem => ⟨run, hmem, rfl⟩
  rw [Bool.eq_iff_iff, decide_eq_true_iff, Bool.not_eq_true', ← Bool.not_eq_true, hdone]

/-- **The laws of the schedule of a campaign.** -/
structure ScheduleLaws (random : Shuffles) (seed : ℤ) (blocks : ℕ) (levels : List ℤ)
    (workloads : List Text) : Prop where
  keys : ((generateCampaignSchedule random seed blocks levels workloads).map
    ScheduledRun.key).Nodup
  runIds : ∀ campaignId, ((generateCampaignSchedule random seed blocks levels workloads).map
    (runId campaignId)).Nodup
  /-- adjacent pairs, and no block in two of them -/
  pairs : ∃ pairs : List (ScheduledRun × ScheduledRun),
    generateCampaignSchedule random seed blocks levels workloads =
      (pairs.flatMap fun pair => [pair.1, pair.2]) ∧
    (∀ pair ∈ pairs, IsBlock pair) ∧ (pairs.map fun pair => pair.1.blockId).Nodup
  latencyLead : latencyWorkload ∈ workloads →
    localFirstBlocks (runsAt latencyWorkload latencyMaxInFlight
      (generateCampaignSchedule random seed blocks levels workloads)) = blocks / 2
  throughputLead : throughputWorkload ∈ workloads → ∀ level ∈ levels,
    localFirstBlocks (runsAt throughputWorkload level
      (generateCampaignSchedule random seed blocks levels workloads)) = blocks / 2
  /-- other levels, and nothing changes for those that stay -/
  latencyStays : ∀ levels',
    runsAt latencyWorkload latencyMaxInFlight
        (generateCampaignSchedule random seed blocks levels workloads) =
      runsAt latencyWorkload latencyMaxInFlight
        (generateCampaignSchedule random seed blocks levels' workloads)
  throughputStays : ∀ levels' : List ℤ, levels'.Nodup → ∀ level ∈ levels, level ∈ levels' →
    runsAt throughputWorkload level
        (generateCampaignSchedule random seed blocks levels workloads) =
      runsAt throughputWorkload level
        (generateCampaignSchedule random seed blocks levels' workloads)

theorem scheduleLaws (hlevels : levels.Nodup) :
    ScheduleLaws random seed blocks levels workloads where
  keys := nodup_map_of_injective key_injective hlevels
  runIds campaignId := nodup_map_of_injective runId_injective hlevels
  pairs := ⟨_, generateCampaignSchedule_eq, fun _ => isBlock_of_mem, nodup_blockId hlevels⟩
  latencyLead h := by rw [runsAt_latency, if_pos h, localFirstBlocks_generate]
  throughputLead h level hlevel := by
    rw [runsAt_throughput h hlevels hlevel, localFirstBlocks_generate]
  latencyStays levels' := by rw [runsAt_latency, runsAt_latency]
  throughputStays levels' hlevels' level hlevel hlevel' := by
    by_cases h : throughputWorkload ∈ workloads
    · rw [runsAt_throughput h hlevels hlevel, runsAt_throughput h hlevels' hlevel']
    · unfold generateCampaignSchedule
      rw [if_neg h, if_neg h]

/-- **The campaign.**  Whatever the shuffle does: the laws of the schedule hold, and after any
records of scheduled runs and any reopenings what is pending is the rest of the schedule. -/
theorem campaign_laws (random : Shuffles) (sha256 : List UInt8 → Text) (seed : ℤ) (blocks : ℕ)
    (levels : List ℤ) (workloads : List Text) (hlevels : levels.Nodup) (parameters : Json)
    (hparameters : parameters.Valid) (publicationData : Bool) (now : Text)
    (steps : List LedgerStep) (hsteps : ∀ run ∈ recordedRuns steps,
      run ∈ generateCampaignSchedule random seed blocks levels workloads) :
    ScheduleLaws random seed blocks levels workloads ∧
    ∃ state file, campaign sha256 parameters publicationData now steps = .ok (state, file) ∧
      pending (generateCampaignSchedule random seed blocks levels workloads) state =
        (generateCampaignSchedule random seed blocks levels workloads).filter
          (fun run => run ∉ recordedRuns steps) ∧
      (pending (generateCampaignSchedule random seed blocks levels workloads) state).Nodup := by
  obtain ⟨⟨state, file⟩, hcampaign, hkept⟩ :=
    kept_campaign sha256 hparameters publicationData now steps
  refine ⟨scheduleLaws hlevels, state, file, hcampaign, pending_eq_filter hlevels hkept hsteps, ?_⟩
  exact (List.Nodup.of_map _ (nodup_coordinates hlevels)).filter _

/-- A shuffle that turns the list around. -/
def reversing : Shuffles := ⟨fun _ orders => orders.reverse, fun _ _ => List.reverse_perm _⟩

/-- A digest for examples: one character for each byte. -/
def byteText (bytes : List UInt8) : Text := bytes.map fun b => Char.ofNat b.toNat

/-- An entry without artifacts. -/
def exampleEntry (runId : Text) : LedgerEntry :=
  ⟨runId, "completed".toList, runId ++ ".json".toList, OrderedDict.empty, "2030".toList⟩

/-- Two levels, one record and one reopening. -/
theorem campaign_laws_recorded :
    ScheduleLaws reversing 7 4 [1, 4] [latencyWorkload, throughputWorkload] ∧
    ∃ state file, campaign byteText (.object []) false "2029".toList
        [.record (blockRun latencyWorkload 1 1 1 topologyFederated) (exampleEntry "r".toList),
          .reopen "2031".toList] = .ok (state, file) ∧
      pending (generateCampaignSchedule reversing 7 4 [1, 4] [latencyWorkload, throughputWorkload])
          state =
        (generateCampaignSchedule reversing 7 4 [1, 4]
          [latencyWorkload, throughputWorkload]).filter (fun run => run ∉ recordedRuns
            [.record (blockRun latencyWorkload 1 1 1 topologyFederated) (exampleEntry "r".toList),
              .reopen "2031".toList]) ∧
      (pending (generateCampaignSchedule reversing 7 4 [1, 4]
        [latencyWorkload, throughputWorkload]) state).Nodup :=
  campaign_laws reversing byteText 7 4 [1, 4]
    [latencyWorkload, throughputWorkload] (by decide) (.object [])
    (valid_object List.nodup_nil fun _ h => absurd h List.not_mem_nil) false "2029".toList _
    (by decide +kernel)

/-! ## Crashes -/

/-- Where `write_text` is cut off: before the file is emptied, or after some bytes. -/
inductive FlushCrash where
  | beforeTruncation
  | written (n : ℕ)
  deriving DecidableEq, Repr

/-- The file that a crash leaves. -/
def FlushCrash.fileAfter (old : Option (List UInt8)) (new : List UInt8) :
    FlushCrash → Option (List UInt8)
  | .beforeTruncation => old
  | .written n => some (new.take n)

/-- The crash loses at most the line break at the end of what a state writes. -/
def FlushCrash.Harmless (state : CampaignState) : FlushCrash → Prop
  | .beforeTruncation => True
  | .written n => (Utf8.encode (dumps .indented state.payload)).length ≤ n

/-- **Opening again succeeds, with the runs before the record or those after it.** -/
def Recovers (sha256 : List UInt8 → Text) (parameters : Json) (publicationData : Bool)
    (later : Text) (before : OpenCampaign) (run : ScheduledRun) (entry : LedgerEntry)
    (crash : FlushCrash) : Prop :=
  ∃ after, enter sha256 parameters publicationData later
      (crash.fileAfter before.2 (before.1.record run entry).bytes) = .ok after ∧
    (after.1.completed = before.1.completed ∨
      after.1.completed = (before.1.record run entry).completed)

/-- A beginning that is too short is not read. -/
theorem readLedger_take_of_lt (hvalid : state.payload.Valid) {n : ℕ}
    (hn : n < (Utf8.encode (dumps .indented state.payload)).length) (digest : Text) :
    readLedger digest (state.bytes.take n) = .error .unreadable := by
  unfold readLedger
  cases hdecode : Utf8.decode (state.bytes.take n) with
  | none => rfl
  | some t =>
    obtain ⟨rest, hrest⟩ := Utf8.prefix_of_decode_take hdecode
    have hreturn : '\r' ∉ t := by
      intro hmem
      have hmem : '\r' ∈ dumps .indented state.payload ++ ['\n'] :=
        hrest ▸ List.mem_append_left _ hmem
      exact (List.mem_append.mp hmem).elim (notMem_dumps_indented hvalid) (by decide)
    dsimp only
    rw [universalNewlines_eq_self hreturn]
    cases hloads : loads t with
    | error _ => rfl
    | ok x =>
      -- what is read is the whole object, and that is too long
      have hblank : Blank ['\n'] := fun c hc => by
        obtain rfl := List.mem_singleton.mp hc
        rfl
      have hwhole : ∃ w, t = dumps .indented state.payload ++ w :=
        (whole_of_loads (spells_print .indented 0 hvalid) hblank hrest.symm hloads).2
      obtain ⟨w, rfl⟩ := hwhole
      have hlength := congrArg List.length (Utf8.decode_eq_some_iff.mp hdecode)
      rw [Utf8.encode_append, List.length_append, List.length_take] at hlength
      omega

/-- A beginning from which at most the line break is missing. -/
theorem take_bytes_of_le {n : ℕ} (hn : (Utf8.encode (dumps .indented state.payload)).length ≤ n) :
    ∃ w, Blank w ∧ '\r' ∉ w ∧
      state.bytes.take n = Utf8.encode (dumps .indented state.payload ++ w) := by
  unfold CampaignState.bytes
  rcases hn.eq_or_lt with rfl | hlt
  · refine ⟨[], blank_nil, List.not_mem_nil, ?_⟩
    rw [Utf8.encode_append, List.take_left, List.append_nil]
  · refine ⟨['\n'], fun c hc => ?_, by decide, List.take_of_length_le ?_⟩
    · obtain rfl := List.mem_singleton.mp hc
      rfl
    · rw [Utf8.encode_append, List.length_append]
      exact hlt

/-- A beginning that is long enough is read as the whole. -/
theorem readLedger_take_of_le (hparameters : parameters.Valid)
    (h : Sound sha256 parameters publicationData state) {n : ℕ}
    (hn : (Utf8.encode (dumps .indented state.payload)).length ≤ n) :
    readLedger (fingerprint sha256 parameters) (state.bytes.take n) = .ok state := by
  have hvalid := h.valid_payload hparameters
  obtain ⟨w, hw, hreturn, htake⟩ := take_bytes_of_le hn
  rw [htake]
  refine readLedger_eq h (Utf8.decode_encode _) ?_
  rw [universalNewlines_eq_self, loads_dumps_append .indented hvalid hw]
  rw [List.mem_append, not_or]
  exact ⟨notMem_dumps_indented hvalid, hreturn⟩

/-- **A record that is cut off** can be recovered from if and only if the crash is harmless. -/
theorem recovers_iff (hparameters : parameters.Valid) {recorded : List ScheduledRun}
    {before : OpenCampaign} (h : Kept sha256 parameters publicationData recorded before)
    (later : Text) (run : ScheduledRun) (entry : LedgerEntry) (crash : FlushCrash) :
    Recovers sha256 parameters publicationData later before run entry crash ↔
      crash.Harmless (before.1.record run entry) := by
  have hsound := h.sound.record run entry
  have henter : ∀ {bytes : List UInt8} {state : CampaignState},
      readLedger (fingerprint sha256 parameters) bytes = .ok state →
      enter sha256 parameters publicationData later (some bytes) = .ok (state, some bytes) := by
    intro bytes state hread
    rw [enter, openLedger, hread]
  unfold Recovers
  cases crash with
  | beforeTruncation =>
    refine iff_of_true ⟨(before.1, before.2), ?_, .inl rfl⟩ trivial
    rw [FlushCrash.fileAfter, h.file]
    exact henter (readLedger_bytes hparameters h.sound)
  | written n =>
    rw [FlushCrash.fileAfter, FlushCrash.Harmless]
    rcases Nat.lt_or_ge n (Utf8.encode (dumps .indented (before.1.record run entry).payload)).length
      with hn | hn
    · refine iff_of_false ?_ (Nat.not_le.mpr hn)
      rintro ⟨after, hafter, -⟩
      rw [enter, openLedger, readLedger_take_of_lt (hsound.valid_payload hparameters) hn] at hafter
      cases hafter
    · exact iff_of_true ⟨(before.1.record run entry, _),
        henter (readLedger_take_of_le hparameters hsound hn), .inr rfl⟩ hn

/-- **The ledger survives a crash inside a record if and only if the file was not yet emptied or
at most its last line break is missing**, after anything that was done with it before. -/
theorem ledgerAtomic_iff (sha256 : List UInt8 → Text) (parameters : Digests.Document)
    (publicationData : Bool) (now later : Text) (steps : List LedgerStep) (run : ScheduledRun)
    (entry : LedgerEntry) (crash : FlushCrash) :
    ∃ before, campaign sha256 parameters.value publicationData now steps = .ok before ∧
      (Recovers sha256 parameters.value publicationData later before run entry crash ↔
        crash.Harmless (before.1.record run entry)) := by
  obtain ⟨before, hcampaign, hkept⟩ :=
    kept_campaign sha256 parameters.valid publicationData now steps
  exact ⟨before, hcampaign, recovers_iff parameters.valid hkept later run entry crash⟩

/-- **A crash right after the file is emptied**: the campaign has a recorded run, and cannot be
opened any more. -/
theorem emptiedLedger_lost :
    ∃ before, campaign byteText (.object []) false "2029".toList
        [.record (blockRun latencyWorkload 1 1 1 topologyFederated) (exampleEntry "r".toList)] =
          .ok before ∧
      before.1.isDone (blockRun latencyWorkload 1 1 1 topologyFederated) = true ∧
      enter byteText (.object []) false "2031".toList
        (FlushCrash.fileAfter before.2 (before.1.record
          (blockRun latencyWorkload 1 1 2 topologyLocal) (exampleEntry "s".toList)).bytes
          (.written 0)) = .error .unreadable ∧
      ¬ Recovers byteText (.object []) false "2031".toList before
        (blockRun latencyWorkload 1 1 2 topologyLocal) (exampleEntry "s".toList) (.written 0) := by
  refine ⟨_, rfl, by decide, rfl, ?_⟩
  rintro ⟨after, hafter, -⟩
  cases hafter

end Benchmark
end FederatedMessaging
