import FederatedMessaging.Benchmark.LedgerEvidence

/-!
# Evidence that is complete, and runs that are done

A run of E3 leaves two raw streams and a manifest, and then an entry in the ledger.  The
manifest makes the evidence complete; the entry is what the next invocation of
`experiments/e3_benchmark.py` goes by.  It executes the runs without an entry, and every execution
starts by unlinking the streams it is about to write.

## The gap

An invocation that is cut off after a manifest is complete and before the ledger is written
again leaves a complete run without an entry.  The next invocation takes its streams for debris
(`gap_destroys`).

## Everywhere else

Nothing is lost elsewhere: `evidence_preserved` says that in any sequence of invocations, each of
them cut off anywhere but in the gap, no file of a complete run is touched again.  While the
ledger is being written it may be left unreadable; then no later invocation does anything at all.

An invocation is the list of what it does to files, one step after the other; a file that is
written at once appears with all its beginnings.  A crash is a beginning of that list.
-/

namespace FederatedMessaging
namespace Benchmark

open PythonText Json Analysis

/-! ## File operations -/

/-- A step that changes a file.  The last write of a manifest is one of its own. -/
inductive FileOp where
  | unlink (place : Place)
  | write (place : Place) (bytes : List UInt8)
  | finish (run : ScheduledRun) (place : Place) (bytes : List UInt8)

namespace FileOp

/-- The file that is changed. -/
def place : FileOp → Place
  | unlink place => place
  | write place _ => place
  | finish _ place _ => place

/-- What stands there afterwards. -/
def node : FileOp → Option Node
  | unlink _ => none
  | write _ bytes => some (.file bytes)
  | finish _ _ bytes => some (.file bytes)

/-- The run whose manifest is complete with the step. -/
def finished : FileOp → Option ScheduledRun
  | finish run _ _ => some run
  | _ => none

/-- The files after a step. -/
def apply (disk : Disk) (op : FileOp) : Disk := Function.update disk op.place op.node

end FileOp

/-- The files after some steps. -/
def applyAll (disk : Disk) (ops : List FileOp) : Disk := ops.foldl FileOp.apply disk

/-- `write_text`: the file is emptied, and filled byte by byte. -/
def writeText (place : Place) (bytes : List UInt8) : List FileOp :=
  (List.range (bytes.length + 1)).map fun n => .write place (bytes.take n)

/-! ## Invocations -/

/-- What all invocations of a campaign have in common.  A digest is hexadecimal. -/
structure CampaignSetup where
  root : PosixPath
  sha256 : List UInt8 → Text
  sha256_slash : ∀ bytes, '/' ∉ sha256 bytes
  parameters : Digests.Document
  publicationData : Bool
  random : Shuffles
  seed : ℤ
  blocks : ℕ
  levels : List ℤ
  levels_nodup : levels.Nodup
  workloads : List Text

/-- What comes of one execution: the contents of the streams as they grow, the manifest, and
what is recorded. -/
structure Attempt where
  agentWrites : List (List UInt8)
  runnerWrites : List (List UInt8)
  manifest : List UInt8
  entry : LedgerEntry

/-- What an invocation meets. -/
structure Outside where
  now : Text
  scheduleText : List UInt8
  attempt : ScheduledRun → Attempt

namespace CampaignSetup

variable (setup : CampaignSetup)

/-- `schedule`. -/
def schedule : List ScheduledRun :=
  generateCampaignSchedule setup.random setup.seed setup.blocks setup.levels setup.workloads

/-- `identifier`. -/
def campaignId : Text :=
  campaignIdOf setup.sha256 setup.parameters.value setup.publicationData

/-- A file of `directory`. -/
def campaignsPlace (name : Text) : Place :=
  located ((setup.root.joinpath "campaigns".toList).joinpath name)

/-- `path`. -/
def ledgerPlace : Place := setup.campaignsPlace (setup.campaignId ++ ".json".toList)

section Places

variable (campaignId : Text) (run : ScheduledRun)

/-- `runner_path`. -/
def runnerPlace : Place :=
  located (streamPath setup.root run.workload (runId campaignId run) ".runner.jsonl".toList)

/-- `agent_path`. -/
def agentPlace : Place :=
  located (streamPath setup.root run.workload (runId campaignId run) ".agent.jsonl".toList)

/-- The manifest. -/
def manifestPlace : Place := located (setup.root.joinpath (manifestText (runId campaignId run)))

/-- `execute_benchmark_run`, up to the last byte of the manifest. -/
def gathering (attempt : Attempt) : List FileOp :=
  [.unlink (setup.runnerPlace campaignId run), .unlink (setup.agentPlace campaignId run)] ++
    attempt.agentWrites.map (.write (setup.agentPlace campaignId run)) ++
    attempt.runnerWrites.map (.write (setup.runnerPlace campaignId run)) ++
    (List.range attempt.manifest.length).map fun n =>
      .write (setup.manifestPlace campaignId run) (attempt.manifest.take n)

/-- `execute_benchmark_run`. -/
def executeBenchmarkRun (attempt : Attempt) : List FileOp :=
  setup.gathering campaignId run attempt ++
    [.finish run (setup.manifestPlace campaignId run) attempt.manifest]

end Places

/-- The files of a run. -/
def evidencePlaces (run : ScheduledRun) : List Place :=
  [setup.runnerPlace setup.campaignId run, setup.agentPlace setup.campaignId run,
    setup.manifestPlace setup.campaignId run]

/-- The loop of `main_async`. -/
def runLoop (outside : Outside) : CampaignState → List ScheduledRun → List FileOp
  | _, [] => []
  | state, run :: rest =>
    let recorded := state.record run (outside.attempt run).entry
    setup.executeBenchmarkRun state.campaignId run (outside.attempt run) ++
      (writeText setup.ledgerPlace recorded.bytes ++ runLoop outside recorded rest)

/-- `main_async`, once the ledger is open. -/
def resume (outside : Outside) (disk : Disk) (state : CampaignState) : List FileOp :=
  let writing := writeText (setup.campaignsPlace (state.campaignId ++ ".schedule.json".toList))
    outside.scheduleText
  writing ++
    if state.completed.entries.isEmpty ∨
        verifyCompleted setup.sha256 (applyAll disk writing) setup.root state = .ok [] then
      setup.runLoop outside state (pending setup.schedule state)
    else []

/-- `main_async`: what an invocation does to the files when nothing cuts it off. -/
def mainAsync (outside : Outside) (disk : Disk) : List FileOp :=
  match disk setup.ledgerPlace with
  | some .directory => []
  | some (.file bytes) =>
    match (openLedger setup.sha256 setup.parameters.value setup.publicationData outside.now
        (some bytes)).1 with
    | .ok state => setup.resume outside disk state
    | .error _ => []
  | none =>
    match (openLedger setup.sha256 setup.parameters.value setup.publicationData outside.now
        none).1 with
    | .ok state =>
      writeText setup.ledgerPlace state.bytes ++
        setup.resume outside (applyAll disk (writeText setup.ledgerPlace state.bytes)) state
    | .error _ => []

/-- **A sequence of invocations**, each cut off after a number of steps. -/
def trace : Disk → List (Outside × ℕ) → List FileOp
  | _, [] => []
  | disk, (outside, n) :: rest =>
    let ops := (setup.mainAsync outside disk).take n
    ops ++ trace (applyAll disk ops) rest

/-- The steps do not stop in the gap, right after a manifest is complete. -/
def StopsOutside (ops : List FileOp) : Prop := ∀ op ∈ ops.getLast?, op.finished = none

/-- **No invocation is cut off in the gap.** -/
def NoGap : Disk → List (Outside × ℕ) → Prop
  | _, [] => True
  | disk, (outside, n) :: rest =>
    let ops := (setup.mainAsync outside disk).take n
    StopsOutside ops ∧ NoGap (applyAll disk ops) rest

/-- **Complete evidence is not touched again**: not deleted, not written. -/
def Preserved (ops : List FileOp) : Prop :=
  ops.Pairwise fun op later => ∀ run ∈ op.finished, later.place ∉ setup.evidencePlaces run

instance (ops : List FileOp) : Decidable (StopsOutside ops) :=
  inferInstanceAs (Decidable (∀ op ∈ ops.getLast?, op.finished = none))

instance (ops : List FileOp) : Decidable (setup.Preserved ops) :=
  inferInstanceAs (Decidable (ops.Pairwise fun op later =>
    ∀ run ∈ op.finished, later.place ∉ setup.evidencePlaces run))

/-! ## Names of files -/

/-- How the names of the files of a run end. -/
def evidenceSuffixes : List Text :=
  [".runner.jsonl".toList, ".agent.jsonl".toList, ".manifest.json".toList]

theorem slash_notMem_campaignId : '/' ∉ setup.campaignId := by
  have hdigest : '/' ∉ (fingerprint setup.sha256 setup.parameters.value).take 16 :=
    fun hmem => setup.sha256_slash _ (List.mem_of_mem_take hmem)
  have hlead : ∀ formal : Bool,
      '/' ∉ (if formal then "fam-formal".toList else "e3dev".toList) := by decide
  unfold campaignId campaignIdOf
  rw [List.mem_append, List.mem_cons, not_or, not_or]
  exact ⟨hlead _, by decide, hdigest⟩

variable {setup} {run run' : ScheduledRun}

theorem regular_of_mem_schedule (h : run ∈ setup.schedule) : Regular run := regular_of_mem h

theorem slash_notMem_runId (h : run ∈ setup.schedule) :
    '/' ∉ runId setup.campaignId run := by
  have hregular := regular_of_mem_schedule h
  have hworkload : ∀ w ∈ [latencyWorkload, throughputWorkload], '/' ∉ w.take 3 := by decide
  have htopology : ∀ t ∈ [topologyLocal, topologyFederated], '/' ∉ t := by decide
  have hnumber : ∀ n, '/' ∉ format02 n := by
    intro n hmem
    rcases mem_format02 hmem with hdigit | heq
    · cases hdigit
    · exact absurd heq (by decide)
  unfold runId
  simp only [List.mem_append, List.mem_cons, not_or]
  exact ⟨⟨⟨⟨⟨⟨setup.slash_notMem_campaignId, by decide, hworkload _ hregular.workload⟩,
    by decide⟩, hnumber _⟩, by decide⟩, hnumber _⟩, by decide, htopology _ hregular.topology⟩

/-- **Where the files of a run are.** -/
theorem exists_of_mem_evidencePlaces (h : run ∈ setup.schedule) {place : Place}
    (hplace : place ∈ setup.evidencePlaces run) :
    ∃ folder, ∃ suffix ∈ evidenceSuffixes, folder.head? ≠ some "campaigns".toList ∧ folder ≠ [] ∧
      place = located setup.root ++ (folder ++ [runId setup.campaignId run ++ suffix]) := by
  have hrunId := slash_notMem_runId h
  have hworkload : ∀ w ∈ [latencyWorkload, throughputWorkload],
      '/' ∉ w ∧ w ∉ [[], ['.'], "..".toList] := by decide
  obtain ⟨hslash, hordinary⟩ := hworkload _ (regular_of_mem_schedule h).workload
  have hstream : ∀ suffix : Text, '/' ∉ suffix → 2 < suffix.length →
      located (streamPath setup.root run.workload (runId setup.campaignId run) suffix) =
        located setup.root ++ (["raw".toList, "e3".toList, run.workload] ++
          [runId setup.campaignId run ++ suffix]) :=
    fun suffix => located_streamPath hslash hordinary hrunId
  have hraw : ["raw".toList, "e3".toList, run.workload].head? ≠ some "campaigns".toList :=
    fun heq => absurd (Option.some_inj.mp heq) (by decide)
  simp only [evidencePlaces, List.mem_cons, List.not_mem_nil, or_false] at hplace
  rcases hplace with rfl | rfl | rfl
  · exact ⟨_, _, by decide, hraw, List.cons_ne_nil _ _, hstream _ (by decide) (by decide)⟩
  · exact ⟨_, _, by decide, hraw, List.cons_ne_nil _ _, hstream _ (by decide) (by decide)⟩
  · exact ⟨["manifests".toList], ".manifest.json".toList, by decide, by decide, by decide,
      located_manifest hrunId⟩

theorem suffix_eq {s s' x x' : Text} (hs : s ∈ evidenceSuffixes) (hs' : s' ∈ evidenceSuffixes)
    (h : x ++ s = x' ++ s') : s = s' := by
  have hincomparable : ∀ s ∈ evidenceSuffixes, ∀ s' ∈ evidenceSuffixes, s <:+ s' → s = s' := by
    decide
  have hsuffix : s <:+ x' ++ s' := h ▸ List.suffix_append x s
  rcases List.suffix_or_suffix_of_suffix hsuffix (List.suffix_append x' s') with hle | hle
  · exact hincomparable s hs s' hs' hle
  · exact (hincomparable s' hs' s hs hle).symm

/-- **Two runs of the schedule have no file in common.** -/
theorem eq_of_mem_evidencePlaces (h : run ∈ setup.schedule) (h' : run' ∈ setup.schedule)
    {place : Place} (hplace : place ∈ setup.evidencePlaces run)
    (hplace' : place ∈ setup.evidencePlaces run') : run = run' := by
  obtain ⟨folder, suffix, hsuffix, -, -, rfl⟩ := exists_of_mem_evidencePlaces h hplace
  obtain ⟨folder', suffix', hsuffix', -, -, heq⟩ := exists_of_mem_evidencePlaces h' hplace'
  have hname := (List.append_inj' (List.append_cancel_left heq) rfl).2
  have hname : runId setup.campaignId run ++ suffix = runId setup.campaignId run' ++ suffix' :=
    List.singleton_inj.mp hname
  obtain rfl := suffix_eq hsuffix hsuffix' hname
  have hnodup : (setup.schedule.map (runId setup.campaignId)).Nodup :=
    nodup_map_of_injective runId_injective setup.levels_nodup
  exact List.inj_on_of_nodup_map hnodup h h' (List.append_cancel_right hname)

/-- A file of the campaign directory. -/
theorem campaignsPlace_eq {suffix : Text} (hsuffix : '/' ∉ suffix) (hlength : 2 < suffix.length) :
    setup.campaignsPlace (setup.campaignId ++ suffix) =
      located setup.root ++ ["campaigns".toList, setup.campaignId ++ suffix] := by
  unfold campaignsPlace
  rw [located_suffix setup.slash_notMem_campaignId hsuffix hlength,
    located_joinpath (by decide) (by decide), List.append_assoc]
  rfl

/-- **It is no file of a run.** -/
theorem campaignsPlace_notMem (h : run ∈ setup.schedule) {suffix : Text} (hsuffix : '/' ∉ suffix)
    (hlength : 2 < suffix.length) :
    setup.campaignsPlace (setup.campaignId ++ suffix) ∉ setup.evidencePlaces run := by
  intro hmem
  obtain ⟨folder, suffix', -, hhead, hne, heq⟩ := exists_of_mem_evidencePlaces h hmem
  rw [campaignsPlace_eq hsuffix hlength] at heq
  have hparts := List.append_cancel_left heq
  obtain ⟨first, others, rfl⟩ := List.exists_cons_of_ne_nil hne
  exact hhead (congrArg some (List.cons.inj hparts).1.symm)

theorem ledgerPlace_notMem (h : run ∈ setup.schedule) :
    setup.ledgerPlace ∉ setup.evidencePlaces run :=
  campaignsPlace_notMem h (by decide) (by decide)

/-- The schedule is written to another file. -/
theorem schedulePlace_ne :
    setup.campaignsPlace (setup.campaignId ++ ".schedule.json".toList) ≠ setup.ledgerPlace := by
  unfold ledgerPlace
  rw [campaignsPlace_eq (by decide) (by decide), campaignsPlace_eq (by decide) (by decide)]
  intro heq
  have hname := (List.cons.inj (List.cons.inj (List.append_cancel_left heq)).2).1
  exact absurd (List.append_cancel_left hname) (by decide)

/-! ## What steps do to a file -/

theorem applyAll_append (disk : Disk) (ops ops' : List FileOp) :
    applyAll disk (ops ++ ops') = applyAll (applyAll disk ops) ops' := List.foldl_append

/-- Other files stay as they are. -/
theorem applyAll_of_ne {ops : List FileOp} {place : Place} (h : ∀ op ∈ ops, op.place ≠ place)
    (disk : Disk) : applyAll disk ops place = disk place := by
  induction ops generalizing disk with
  | nil => rfl
  | cons op ops ih =>
    obtain ⟨hop, hops⟩ := List.forall_mem_cons.mp h
    exact (ih hops (op.apply disk)).trans (Function.update_of_ne hop.symm _ _)

theorem mem_writeText {place : Place} {bytes : List UInt8} {op : FileOp}
    (h : op ∈ writeText place bytes) : ∃ n, op = .write place (bytes.take n) := by
  obtain ⟨n, -, rfl⟩ := List.mem_map.mp h
  exact ⟨n, rfl⟩

/-- **A file that is being written holds a beginning.** -/
theorem exists_applyAll_writeText {place : Place} {bytes : List UInt8} {cut : List FileOp}
    (hcut : cut <+: writeText place bytes) (hne : cut ≠ []) (disk : Disk) :
    ∃ n, applyAll disk cut place = some (.file (bytes.take n)) := by
  obtain ⟨front, op, rfl⟩ : ∃ front op, cut = front ++ [op] :=
    ⟨_, _, (List.dropLast_append_getLast hne).symm⟩
  obtain ⟨n, rfl⟩ := mem_writeText (hcut.subset List.mem_concat_self)
  refine ⟨n, ?_⟩
  rw [applyAll_append]
  exact Function.update_self _ _ _

/-- A file that is written holds all of it. -/
theorem applyAll_writeText (disk : Disk) (place : Place) (bytes : List UInt8) :
    applyAll disk (writeText place bytes) place = some (.file bytes) := by
  unfold writeText
  rw [List.range_succ, List.map_append, applyAll_append]
  refine (Function.update_self _ _ _).trans ?_
  change some (Node.file (bytes.take bytes.length)) = _
  rw [List.take_length]

/-- The runs that are finished by some steps. -/
def finishedRuns (ops : List FileOp) : List ScheduledRun := ops.filterMap FileOp.finished

theorem finishedRuns_append (ops ops' : List FileOp) :
    finishedRuns (ops ++ ops') = finishedRuns ops ++ finishedRuns ops' := List.filterMap_append

theorem finishedRuns_eq_nil {ops : List FileOp} (h : ∀ op ∈ ops, op.finished = none) :
    finishedRuns ops = [] := List.filterMap_eq_nil_iff.mpr h

theorem mem_finishedRuns {ops : List FileOp} {run : ScheduledRun} :
    run ∈ finishedRuns ops ↔ ∃ op ∈ ops, run ∈ op.finished := List.mem_filterMap

/-! ## Sparing what is done -/

variable (setup) in
/-- Nothing of some runs is touched, nor of those that are finished on the way. -/
structure Spared (done : List ScheduledRun) (ops : List FileOp) : Prop where
  preserved : setup.Preserved ops
  spared : ∀ op ∈ ops, ∀ run ∈ done, op.place ∉ setup.evidencePlaces run

theorem Spared.nil (done : List ScheduledRun) : setup.Spared done [] :=
  ⟨List.Pairwise.nil, fun _ h => absurd h List.not_mem_nil⟩

theorem Spared.append {done : List ScheduledRun} {ops ops' : List FileOp}
    (h : setup.Spared done ops) (h' : setup.Spared (done ++ finishedRuns ops) ops') :
    setup.Spared done (ops ++ ops') where
  preserved := by
    refine List.pairwise_append.mpr ⟨h.preserved, h'.preserved, fun op hop later hlater => ?_⟩
    intro run hrun
    exact h'.spared later hlater run
      (List.mem_append_right _ (mem_finishedRuns.mpr ⟨op, hop, hrun⟩))
  spared op hop run hrun := by
    rcases List.mem_append.mp hop with hop | hop
    · exact h.spared op hop run hrun
    · exact h'.spared op hop run (List.mem_append_left _ hrun)

theorem Spared.of_prefix {done : List ScheduledRun} {ops cut : List FileOp}
    (h : setup.Spared done ops) (hcut : cut <+: ops) : setup.Spared done cut :=
  ⟨h.preserved.sublist hcut.sublist, fun op hop => h.spared op (hcut.subset hop)⟩

/-- Steps that finish nothing. -/
theorem Spared.of_unfinished {done : List ScheduledRun} {ops : List FileOp}
    (hfinished : ∀ op ∈ ops, op.finished = none)
    (h : ∀ op ∈ ops, ∀ run ∈ done, op.place ∉ setup.evidencePlaces run) :
    setup.Spared done ops where
  preserved := by
    refine List.pairwise_of_forall_mem_list fun op hop later _ run hrun => ?_
    rw [hfinished op hop] at hrun
    cases hrun
  spared := h

/-! ## What holds between invocations -/

variable (setup) in
/-- The ledger holds a state that has the runs that are done. -/
structure Knows (disk : Disk) (state : CampaignState) (done : List ScheduledRun) : Prop where
  sound : Sound setup.sha256 setup.parameters.value setup.publicationData state
  file : ∃ bytes, disk setup.ledgerPlace = some (.file bytes) ∧
    readLedger (fingerprint setup.sha256 setup.parameters.value) bytes = .ok state
  isDone : ∀ run ∈ done, state.isDone run = true
  scheduled : ∀ run ∈ done, run ∈ setup.schedule

variable (setup) in
/-- **Between invocations**: the campaign has not begun, or the ledger has all runs that are done,
or nothing can be done any more. -/
inductive Between (disk : Disk) (done : List ScheduledRun) : Prop
  | fresh (hfile : disk setup.ledgerPlace = none) (hdone : done = [])
  | known (state : CampaignState) (h : setup.Knows disk state done)
  | lost (bytes : List UInt8) (hfile : disk setup.ledgerPlace = some (.file bytes))
      (hread : readLedger (fingerprint setup.sha256 setup.parameters.value) bytes =
        .error .unreadable)
      (hscheduled : ∀ run ∈ done, run ∈ setup.schedule)

variable (setup) in
/-- **Steps that can be cut off** anywhere outside the gap. -/
structure Guarded (disk : Disk) (done : List ScheduledRun) (ops : List FileOp) : Prop where
  spared : setup.Spared done ops
  between : ∀ cut, cut <+: ops → cut ≠ [] → StopsOutside cut →
    setup.Between (applyAll disk cut) (done ++ finishedRuns cut)

theorem Guarded.nil (disk : Disk) (done : List ScheduledRun) : setup.Guarded disk done [] :=
  ⟨Spared.nil done, fun _ hcut hne => absurd (List.prefix_nil.mp hcut) hne⟩

/-- A beginning of two lists. -/
theorem beginning_of_append {α : Type} {l a b : List α} (h : l <+: a ++ b) :
    l <+: a ∨ ∃ t, t ≠ [] ∧ l = a ++ t ∧ t <+: b := by
  rcases List.prefix_or_prefix_of_prefix h (List.prefix_append a b) with hle | ⟨t, rfl⟩
  · exact .inl hle
  · rcases eq_or_ne t [] with rfl | hne
    · refine .inl ?_
      rw [List.append_nil]
    · exact .inr ⟨t, hne, rfl, (List.prefix_append_right_inj a).mp h⟩

theorem Guarded.append {disk : Disk} {done : List ScheduledRun} {ops ops' : List FileOp}
    (h : setup.Guarded disk done ops)
    (h' : setup.Guarded (applyAll disk ops) (done ++ finishedRuns ops) ops') :
    setup.Guarded disk done (ops ++ ops') where
  spared := h.spared.append h'.spared
  between cut hcut hne hstops := by
    rcases beginning_of_append hcut with hcut | ⟨t, htne, rfl, ht⟩
    · exact h.between cut hcut hne hstops
    · rw [applyAll_append, finishedRuns_append, ← List.append_assoc]
      refine h'.between t ht htne fun op hop => hstops op ?_
      rw [List.getLast?_append_of_ne_nil _ htne]
      exact hop

/-! ## Steps of an invocation -/

/-- The ledger is as it was. -/
theorem Knows.of_eq {disk disk' : Disk} {state : CampaignState} {done : List ScheduledRun}
    (h : setup.Knows disk state done)
    (heq : disk' setup.ledgerPlace = disk setup.ledgerPlace) : setup.Knows disk' state done :=
  { h with file := heq.symm ▸ h.file }

/-- Writes elsewhere. -/
theorem Knows.guarded {disk : Disk} {state : CampaignState} {done : List ScheduledRun}
    (h : setup.Knows disk state done) {ops : List FileOp}
    (hfinished : ∀ op ∈ ops, op.finished = none)
    (hledger : ∀ op ∈ ops, op.place ≠ setup.ledgerPlace)
    (hdone : ∀ op ∈ ops, ∀ run ∈ done, op.place ∉ setup.evidencePlaces run) :
    setup.Guarded disk done ops where
  spared := Spared.of_unfinished hfinished hdone
  between cut hcut _ _ := by
    rw [finishedRuns_eq_nil fun op hop => hfinished op (hcut.subset hop), List.append_nil]
    exact .known state (h.of_eq (applyAll_of_ne (fun op hop => hledger op (hcut.subset hop)) disk))

theorem sound_readLedger_take {state : CampaignState}
    (h : Sound setup.sha256 setup.parameters.value setup.publicationData state) (n : ℕ) :
    readLedger (fingerprint setup.sha256 setup.parameters.value) (state.bytes.take n) =
        .ok state ∨
      readLedger (fingerprint setup.sha256 setup.parameters.value) (state.bytes.take n) =
        .error .unreadable := by
  rcases Nat.lt_or_ge n (Utf8.encode (dumps .indented state.payload)).length with hn | hn
  · exact .inr (readLedger_take_of_lt (h.valid_payload setup.parameters.valid) hn _)
  · exact .inl (readLedger_take_of_le setup.parameters.valid h hn)

/-- **The ledger is written**: it is then known, or lost. -/
theorem guarded_flush {state : CampaignState} {done : List ScheduledRun}
    (hsound : Sound setup.sha256 setup.parameters.value setup.publicationData state)
    (hdone : ∀ run ∈ done, state.isDone run = true)
    (hscheduled : ∀ run ∈ done, run ∈ setup.schedule) (disk : Disk) :
    setup.Guarded disk done (writeText setup.ledgerPlace state.bytes) where
  spared := by
    refine Spared.of_unfinished (fun op hop => ?_) fun op hop run hrun => ?_
    · obtain ⟨n, rfl⟩ := mem_writeText hop
      rfl
    · obtain ⟨n, rfl⟩ := mem_writeText hop
      exact ledgerPlace_notMem (hscheduled run hrun)
  between cut hcut hne _ := by
    have hfinished : finishedRuns cut = [] := finishedRuns_eq_nil fun op hop => by
      obtain ⟨n, rfl⟩ := mem_writeText (hcut.subset hop)
      rfl
    obtain ⟨n, hfile⟩ := exists_applyAll_writeText hcut hne disk
    rw [hfinished, List.append_nil]
    rcases sound_readLedger_take hsound n with hread | hread
    · exact .known state ⟨hsound, ⟨_, hfile, hread⟩, hdone, hscheduled⟩
    · exact .lost _ hfile hread hscheduled

theorem knows_flush {state : CampaignState} {done : List ScheduledRun}
    (hsound : Sound setup.sha256 setup.parameters.value setup.publicationData state)
    (hdone : ∀ run ∈ done, state.isDone run = true)
    (hscheduled : ∀ run ∈ done, run ∈ setup.schedule) (disk : Disk) :
    setup.Knows (applyAll disk (writeText setup.ledgerPlace state.bytes)) state done :=
  ⟨hsound, ⟨_, applyAll_writeText _ _ _, readLedger_bytes setup.parameters.valid hsound⟩, hdone,
    hscheduled⟩

/-- What an execution touches before its manifest is complete are its own files. -/
theorem mem_gathering {attempt : Attempt} {op : FileOp}
    (h : op ∈ setup.gathering setup.campaignId run attempt) :
    op.finished = none ∧ op.place ∈ setup.evidencePlaces run := by
  have hrunner : setup.runnerPlace setup.campaignId run ∈ setup.evidencePlaces run :=
    List.mem_cons_self
  have hagent : setup.agentPlace setup.campaignId run ∈ setup.evidencePlaces run :=
    List.mem_cons_of_mem _ List.mem_cons_self
  have hmanifest : setup.manifestPlace setup.campaignId run ∈ setup.evidencePlaces run :=
    List.mem_cons_of_mem _ (List.mem_cons_of_mem _ List.mem_cons_self)
  rcases List.mem_append.mp h with h | h
  · rcases List.mem_append.mp h with h | h
    · rcases List.mem_append.mp h with h | h
      · rcases List.mem_pair.mp h with rfl | rfl
        · exact ⟨rfl, hrunner⟩
        · exact ⟨rfl, hagent⟩
      · obtain ⟨bytes, -, rfl⟩ := List.mem_map.mp h
        exact ⟨rfl, hagent⟩
    · obtain ⟨bytes, -, rfl⟩ := List.mem_map.mp h
      exact ⟨rfl, hrunner⟩
  · obtain ⟨n, -, rfl⟩ := List.mem_map.mp h
    exact ⟨rfl, hmanifest⟩

/-! ## The loop -/

/-- **An execution** can be cut off anywhere before its manifest is complete. -/
theorem Knows.guarded_execute {disk : Disk} {state : CampaignState} {done : List ScheduledRun}
    (h : setup.Knows disk state done) (hrun : run ∈ setup.schedule) (hnew : run ∉ done)
    (attempt : Attempt) :
    setup.Guarded disk done (setup.executeBenchmarkRun state.campaignId run attempt) := by
  have hapart : ∀ place ∈ setup.evidencePlaces run, ∀ run' ∈ done,
      place ∉ setup.evidencePlaces run' := fun place hplace run' hrun' hmem =>
    hnew (eq_of_mem_evidencePlaces hrun (h.scheduled run' hrun') hplace hmem ▸ hrun')
  rw [h.sound.campaignId_eq]
  refine (h.guarded (fun op hop => (mem_gathering hop).1) (fun op hop heq => ?_)
    fun op hop => hapart _ (mem_gathering hop).2).append ⟨⟨List.pairwise_singleton _ _, ?_⟩, ?_⟩
  · exact ledgerPlace_notMem hrun (heq ▸ (mem_gathering hop).2)
  · intro op hop run' hrun'
    obtain rfl := List.mem_singleton.mp hop
    rw [finishedRuns_eq_nil fun op hop => (mem_gathering hop).1, List.append_nil] at hrun'
    exact hapart _ (List.mem_cons_of_mem _ (List.mem_cons_of_mem _ List.mem_cons_self)) run' hrun'
  · -- the gap
    intro cut hcut hne hstops
    obtain ⟨t, rfl, ht⟩ := (List.prefix_cons_iff.mp hcut).resolve_left hne
    obtain rfl := List.prefix_nil.mp ht
    exact absurd (hstops _ rfl) (Option.some_ne_none _)

theorem finishedRuns_execute (state : CampaignState) (hid : state.campaignId = setup.campaignId)
    (run : ScheduledRun) (attempt : Attempt) :
    finishedRuns (setup.executeBenchmarkRun state.campaignId run attempt) = [run] := by
  unfold executeBenchmarkRun
  rw [hid, finishedRuns_append, finishedRuns_eq_nil fun op hop => (mem_gathering hop).1]
  rfl

/-- **The loop** can be cut off anywhere outside the gaps. -/
theorem Knows.guarded_runLoop {outside : Outside} {todo : List ScheduledRun} :
    ∀ {disk : Disk} {state : CampaignState} {done : List ScheduledRun},
      setup.Knows disk state done → todo.Nodup → (∀ run ∈ todo, run ∈ setup.schedule) →
      (∀ run ∈ todo, run ∉ done) → setup.Guarded disk done (setup.runLoop outside state todo) := by
  induction todo with
  | nil => exact fun _ _ _ _ => Guarded.nil _ _
  | cons run rest ih =>
    intro disk state done h hnodup hscheduled hnew
    obtain ⟨hrun, hrest⟩ := List.forall_mem_cons.mp hscheduled
    obtain ⟨hrunNew, hrestNew⟩ := List.forall_mem_cons.mp hnew
    obtain ⟨hnotMem, hnodup⟩ := List.nodup_cons.mp hnodup
    -- what is known once the run is recorded
    have hsound := h.sound.record run (outside.attempt run).entry
    have hdone : ∀ run' ∈ done ++ [run],
        (state.record run (outside.attempt run).entry).isDone run' = true := by
      intro run' hrun'
      rw [isDone_record_iff]
      rcases List.mem_append.mp hrun' with hrun' | hrun'
      · exact .inl (h.isDone run' hrun')
      · exact .inr (congrArg ScheduledRun.key (List.mem_singleton.mp hrun'))
    have hin : ∀ run' ∈ done ++ [run], run' ∈ setup.schedule := by
      intro run' hrun'
      rcases List.mem_append.mp hrun' with hrun' | hrun'
      · exact h.scheduled run' hrun'
      · exact List.mem_singleton.mp hrun' ▸ hrun
    have hflushed : ∀ bytes, finishedRuns (writeText setup.ledgerPlace bytes) = [] :=
      fun bytes => finishedRuns_eq_nil fun op hop => by
        obtain ⟨n, rfl⟩ := mem_writeText hop
        rfl
    refine (h.guarded_execute hrun hrunNew _).append ?_
    rw [finishedRuns_execute state h.sound.campaignId_eq]
    refine (guarded_flush hsound hdone hin _).append ?_
    rw [hflushed, List.append_nil]
    refine ih (knows_flush hsound hdone hin _) hnodup hrest fun run' hrun' hmem => ?_
    rcases List.mem_append.mp hmem with hmem | hmem
    · exact hrestNew run' hrun' hmem
    · exact hnotMem (List.mem_singleton.mp hmem ▸ hrun')

/-! ## Invocations -/

theorem nodup_schedule : setup.schedule.Nodup :=
  List.Nodup.of_map _ (nodup_coordinates setup.levels_nodup)

/-- **Once the ledger is open.** -/
theorem Knows.guarded_resume {disk : Disk} {state : CampaignState} {done : List ScheduledRun}
    (h : setup.Knows disk state done) (outside : Outside) :
    setup.Guarded disk done (setup.resume outside disk state) := by
  have hplace : ∀ op ∈ writeText
      (setup.campaignsPlace (setup.campaignId ++ ".schedule.json".toList)) outside.scheduleText,
      op.finished = none ∧
        op.place = setup.campaignsPlace (setup.campaignId ++ ".schedule.json".toList) := by
    intro op hop
    obtain ⟨n, rfl⟩ := mem_writeText hop
    exact ⟨rfl, rfl⟩
  unfold resume
  rw [h.sound.campaignId_eq]
  refine (h.guarded (fun op hop => (hplace op hop).1) (fun op hop => ?_)
    fun op hop run hrun => ?_).append ?_
  · rw [(hplace op hop).2]
    exact schedulePlace_ne
  · rw [(hplace op hop).2]
    exact campaignsPlace_notMem (h.scheduled run hrun) (by decide) (by decide)
  · rw [finishedRuns_eq_nil fun op hop => (hplace op hop).1, List.append_nil]
    split_ifs
    · refine (h.of_eq (applyAll_of_ne (fun op hop => ?_) disk)).guarded_runLoop
        (nodup_schedule.filter _) (fun run hrun => (List.mem_filter.mp hrun).1)
        fun run hrun hmem => ?_
      · rw [(hplace op hop).2]
        exact schedulePlace_ne
      · have hpending := (List.mem_filter.mp hrun).2
        rw [h.isDone run hmem] at hpending
        cases hpending
    · exact Guarded.nil _ _

/-- **An invocation** can be cut off anywhere outside the gaps. -/
theorem Between.guarded_mainAsync {disk : Disk} {done : List ScheduledRun}
    (h : setup.Between disk done) (outside : Outside) :
    setup.Guarded disk done (setup.mainAsync outside disk) := by
  unfold mainAsync
  cases h with
  | fresh hfile hdone =>
    subst hdone
    rw [hfile]
    have hnone : ∀ {P : ScheduledRun → Prop}, ∀ run ∈ ([] : List ScheduledRun), P run :=
      fun _ hrun => absurd hrun List.not_mem_nil
    have hsound : Sound setup.sha256 setup.parameters.value setup.publicationData
        ⟨campaignIdOf setup.sha256 setup.parameters.value setup.publicationData,
          setup.parameters.value, fingerprint setup.sha256 setup.parameters.value, outside.now,
          OrderedDict.empty⟩ :=
      ⟨rfl, rfl, rfl, fun entry hentry => absurd hentry List.not_mem_nil⟩
    refine (guarded_flush hsound hnone hnone disk).append ?_
    rw [finishedRuns_eq_nil fun op hop => by
      obtain ⟨n, rfl⟩ := mem_writeText hop
      rfl]
    exact (knows_flush hsound hnone hnone disk).guarded_resume outside
  | known state hknows =>
    obtain ⟨bytes, hfile, hread⟩ := hknows.file
    rw [hfile]
    dsimp only [openLedger]
    rw [hread]
    exact hknows.guarded_resume outside
  | lost bytes hfile hread hscheduled =>
    rw [hfile]
    dsimp only [openLedger]
    rw [hread]
    exact Guarded.nil _ _

/-- **A history** spares what is done. -/
theorem Between.spared_trace {history : List (Outside × ℕ)} :
    ∀ {disk : Disk} {done : List ScheduledRun}, setup.Between disk done →
      setup.NoGap disk history → setup.Spared done (setup.trace disk history) := by
  induction history with
  | nil => exact fun _ _ => Spared.nil _
  | cons entry rest ih =>
    obtain ⟨outside, n⟩ := entry
    intro disk done h hgap
    have hguarded := h.guarded_mainAsync outside
    have hcut := List.take_prefix n (setup.mainAsync outside disk)
    refine (hguarded.spared.of_prefix hcut).append (ih ?_ hgap.2)
    rcases eq_or_ne ((setup.mainAsync outside disk).take n) [] with hnil | hne
    · rw [hnil, finishedRuns, List.filterMap_nil, List.append_nil]
      exact h
    · exact hguarded.between _ hcut hne hgap.1

/-- **Complete evidence is preserved** by any sequence of invocations of a campaign, each cut off
anywhere but in the gap. -/
theorem evidence_preserved (setup : CampaignSetup) (disk : Disk)
    (hfresh : disk setup.ledgerPlace = none) (history : List (Outside × ℕ))
    (hgap : setup.NoGap disk history) : setup.Preserved (setup.trace disk history) :=
  (Between.spared_trace (.fresh hfresh rfl) hgap).preserved

end CampaignSetup

/-! ## A crash in the gap -/

/-- A digest for examples: the number of bytes. -/
def countText (bytes : List UInt8) : Text := Nat.toDigits 10 bytes.length

theorem slash_notMem_countText (bytes : List UInt8) : '/' ∉ countText bytes := by
  intro hmem
  cases isDigit_of_mem_toDigits hmem

/-- A campaign of one latency block. -/
def exampleSetup : CampaignSetup where
  root := resultsRoot
  sha256 := countText
  sha256_slash := slash_notMem_countText
  parameters := ⟨.object [], valid_object List.nodup_nil fun _ h => absurd h List.not_mem_nil⟩
  publicationData := false
  random := reversing
  seed := 7
  blocks := 1
  levels := [1]
  levels_nodup := List.nodup_singleton 1
  workloads := [latencyWorkload]

/-- Streams of one byte, and a manifest of two. -/
def exampleOutside : Outside where
  now := "2029".toList
  scheduleText := []
  attempt run :=
    { agentWrites := [[1]]
      runnerWrites := [[2]]
      manifest := [123, 125]
      entry :=
        { runId := runId exampleSetup.campaignId run
          status := "complete".toList
          manifest := manifestText (runId exampleSetup.campaignId run)
          digests := OrderedDict.empty
          completedAt := "2030".toList } }

/-- No files. -/
def emptyDisk : Disk := fun _ => none

/-- The first invocation is cut off before the last byte of its first manifest. -/
theorem evidence_preserved_interrupted :
    exampleSetup.Preserved
      (exampleSetup.trace emptyDisk [(exampleOutside, 124), (exampleOutside, 2000)]) :=
  CampaignSetup.evidence_preserved exampleSetup emptyDisk rfl _
    ⟨by decide +kernel, by decide +kernel, trivial⟩

/-- **One step later** the manifest is complete, and the next invocation deletes the stream. -/
theorem gap_destroys :
    emptyDisk exampleSetup.ledgerPlace = none ∧
    ¬ exampleSetup.Preserved
      (exampleSetup.trace emptyDisk [(exampleOutside, 125), (exampleOutside, 2)]) :=
  ⟨rfl, by decide +kernel⟩

end Benchmark
end FederatedMessaging
