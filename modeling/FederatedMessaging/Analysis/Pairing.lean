import FederatedMessaging.Analysis.RunRecords
import FederatedMessaging.Foundations.OrderedDict

/-!
# Paired blocks and the gate of the analysis

The comparisons of `fam.analysis.e3` are between the two topologies of a block, and
`scripts/analyse.py` ends with a gate over what the analysis found.

## 1.  Grouping

`pair_blocks` files the valid runs by block and topology, a later run over an earlier
one; `incomplete_blocks` collects the topologies of the valid runs of each block.

## 2.  The gate

The gate looks at the incomplete blocks of the latency runs.  The runs of each throughput
level are paired in the same way, and nothing looks at their incomplete blocks.

## 3.  Complete pairing

`paired_iff` says what a population of valid runs needs for its pairing to be complete, and
`completePairing_iff` what the gate leaves open.
-/

namespace FederatedMessaging
namespace Analysis

open PythonText

/-! ## 1.  Grouping -/

/-- `E3_TOPOLOGY_LOCAL`. -/
def topologyLocal : Text := ['l', 'o', 'c', 'a', 'l']

/-- `E3_TOPOLOGY_FEDERATED`. -/
def topologyFederated : Text := ['f', 'e', 'd', 'e', 'r', 'a', 't', 'e', 'd']

/-- `PairedBlock`. -/
structure PairedBlock where
  blockId : Text
  localRun : RunRecords
  federatedRun : RunRecords

/-- One turn of the loop of `pair_blocks`. -/
def fileRun (grouped : OrderedDict Text (OrderedDict Text RunRecords)) (run : RunRecords) :
    OrderedDict Text (OrderedDict Text RunRecords) :=
  if run.valid then
    grouped.set run.blockId (((grouped.get? run.blockId).getD .empty).set run.topology run)
  else grouped

/-- The dictionary of `pair_blocks`. -/
def groupRuns (runs : List RunRecords) : OrderedDict Text (OrderedDict Text RunRecords) :=
  runs.foldl fileRun .empty

/-- `pair_blocks`. -/
def pairBlocks (runs : List RunRecords) : List PairedBlock :=
  ((groupRuns runs).entries.insertionSort fun x y => x.1 ≤ y.1).filterMap fun entry =>
    match entry.2.get? topologyLocal, entry.2.get? topologyFederated with
    | some localRun, some federatedRun => some ⟨entry.1, localRun, federatedRun⟩
    | _, _ => none

/-- One turn of the loop of `incomplete_blocks`. -/
def addTopology (grouped : OrderedDict Text (Finset Text)) (run : RunRecords) :
    OrderedDict Text (Finset Text) :=
  let grouped := grouped.setDefault run.blockId ∅
  if run.valid then
    grouped.set run.blockId (insert run.topology ((grouped.get? run.blockId).getD ∅))
  else grouped

/-- The dictionary of `incomplete_blocks`. -/
def groupTopologies (runs : List RunRecords) : OrderedDict Text (Finset Text) :=
  runs.foldl addTopology .empty

/-- `incomplete_blocks`. -/
def incompleteBlocks (runs : List RunRecords) : List Text :=
  (((groupTopologies runs).entries.filter fun entry =>
    entry.2 ≠ {topologyLocal, topologyFederated}).map Prod.fst).insertionSort fun x y => x ≤ y

/-! ### What the dictionaries hold -/

/-- The run filed under a block and a topology. -/
def filedRun (grouped : OrderedDict Text (OrderedDict Text RunRecords)) (blockId topology : Text) :
    Option RunRecords :=
  (grouped.get? blockId).bind fun topologies => topologies.get? topology

/-- The valid runs of a block under a topology. -/
def RunRecords.isOf (run : RunRecords) (blockId topology : Text) : Bool :=
  run.valid && (run.blockId == blockId && run.topology == topology)

theorem isOf_iff {run : RunRecords} {blockId topology : Text} :
    run.isOf blockId topology = true ↔
      run.valid = true ∧ run.blockId = blockId ∧ run.topology = topology := by
  simp [RunRecords.isOf]

theorem filedRun_fileRun (grouped : OrderedDict Text (OrderedDict Text RunRecords))
    (run : RunRecords) (blockId topology : Text) :
    filedRun (fileRun grouped run) blockId topology =
      if run.isOf blockId topology then some run else filedRun grouped blockId topology := by
  unfold fileRun filedRun RunRecords.isOf
  cases run.valid with
  | false => rfl
  | true =>
    rw [if_pos rfl, OrderedDict.get?_set, Bool.true_and]
    by_cases hblock : blockId = run.blockId
    · subst hblock
      rw [if_pos rfl, Option.bind_some, OrderedDict.get?_set, beq_self_eq_true, Bool.true_and]
      by_cases htopology : topology = run.topology
      · rw [if_pos htopology, if_pos (beq_iff_eq.mpr htopology.symm)]
      · rw [if_neg htopology, if_neg (fun h => htopology (beq_iff_eq.mp h).symm)]
        cases grouped.get? run.blockId <;> rfl
    · rw [if_neg hblock, if_neg]
      rw [Bool.and_eq_true, beq_iff_eq]
      exact fun h => hblock h.1.symm

/-- **The last valid run of a block and topology is the one that is filed.** -/
theorem filedRun_groupRuns (runs : List RunRecords) (blockId topology : Text) :
    filedRun (groupRuns runs) blockId topology =
      (runs.filter (·.isOf blockId topology)).getLast? := by
  unfold groupRuns
  induction runs using List.reverseRecOn with
  | nil => rfl
  | append_singleton runs run ih =>
    rw [List.foldl_append, List.foldl_cons, List.foldl_nil, filedRun_fileRun, ih,
      List.filter_append]
    rw [List.filter_singleton]
    cases run.isOf blockId topology with
    | true => rw [if_pos rfl, cond_true, List.getLast?_concat]
    | false => rw [if_neg Bool.false_ne_true, cond_false, List.append_nil]

/-- The blocks of a comparison are those with both topologies filed. -/
theorem mem_pairBlocks {runs : List RunRecords} {block : PairedBlock} :
    block ∈ pairBlocks runs ↔
      filedRun (groupRuns runs) block.blockId topologyLocal = some block.localRun ∧
        filedRun (groupRuns runs) block.blockId topologyFederated = some block.federatedRun := by
  unfold pairBlocks filedRun
  rw [List.mem_filterMap]
  constructor
  · rintro ⟨⟨blockId, topologies⟩, hentry, hblock⟩
    rw [List.mem_insertionSort] at hentry
    have hget := OrderedDict.get?_of_mem hentry
    split at hblock
    · rename_i localRun federatedRun hlocal hfederated
      rw [← Option.some_inj.mp hblock, hget]
      exact ⟨hlocal, hfederated⟩
    · cases hblock
  · rintro ⟨hlocal, hfederated⟩
    obtain ⟨topologies, hget, hlocal⟩ := Option.bind_eq_some_iff.mp hlocal
    rw [hget, Option.bind_some] at hfederated
    refine ⟨(block.blockId, topologies), ?_, ?_⟩
    · rw [List.mem_insertionSort]
      exact OrderedDict.get?_eq_some_iff.mp hget
    · dsimp only
      rw [hlocal, hfederated]

section Topologies

variable (grouped : OrderedDict Text (Finset Text)) (run : RunRecords) (blockId topology : Text)

theorem getD_setDefault (k : Text) :
    ((grouped.setDefault k ∅).get? blockId).getD ∅ = (grouped.get? blockId).getD ∅ := by
  unfold OrderedDict.setDefault
  split_ifs with hk
  · rfl
  · rw [OrderedDict.get?_set]
    split_ifs with hblock
    · rw [OrderedDict.contains_iff] at hk
      rw [hblock, OrderedDict.get?_eq_none_iff.mpr hk]
      rfl
    · rfl

theorem mem_keys_addTopology :
    blockId ∈ (addTopology grouped run).keys ↔ blockId ∈ grouped.keys ∨ run.blockId = blockId := by
  unfold addTopology
  dsimp only
  split_ifs
  · rw [OrderedDict.mem_keys_set, OrderedDict.mem_keys_setDefault, or_assoc, or_self, eq_comm]
  · rw [OrderedDict.mem_keys_setDefault, eq_comm]

theorem mem_getD_addTopology :
    topology ∈ ((addTopology grouped run).get? blockId).getD ∅ ↔
      topology ∈ (grouped.get? blockId).getD ∅ ∨ run.isOf blockId topology = true := by
  unfold addTopology
  rw [isOf_iff]
  dsimp only
  split_ifs with hvalid
  · rw [OrderedDict.get?_set, getD_setDefault]
    split_ifs with hblock
    · rw [hblock, Option.getD_some, Finset.mem_insert, or_comm]
      simp [hvalid, eq_comm]
    · rw [getD_setDefault]
      simp [hvalid, Ne.symm hblock]
  · rw [getD_setDefault]
    simp [hvalid]

end Topologies

theorem mem_keys_groupTopologies (runs : List RunRecords) (blockId : Text) :
    blockId ∈ (groupTopologies runs).keys ↔ ∃ run ∈ runs, run.blockId = blockId := by
  unfold groupTopologies
  induction runs using List.reverseRecOn with
  | nil => simp
  | append_singleton runs run ih =>
    rw [List.foldl_append, List.foldl_cons, List.foldl_nil, mem_keys_addTopology, ih]
    simp [or_and_right, exists_or]

theorem mem_getD_groupTopologies (runs : List RunRecords) (blockId topology : Text) :
    topology ∈ ((groupTopologies runs).get? blockId).getD ∅ ↔
      ∃ run ∈ runs, run.isOf blockId topology = true := by
  unfold groupTopologies
  induction runs using List.reverseRecOn with
  | nil => simp
  | append_singleton runs run ih =>
    rw [List.foldl_append, List.foldl_cons, List.foldl_nil, mem_getD_addTopology, ih]
    simp [or_and_right, exists_or]

/-- **No block is incomplete when the valid runs of each are under both topologies and no
other.** -/
theorem incompleteBlocks_eq_nil_iff (runs : List RunRecords) :
    incompleteBlocks runs = [] ↔ ∀ run ∈ runs, ∀ topology,
      (∃ run' ∈ runs, run'.isOf run.blockId topology = true) ↔
        topology = topologyLocal ∨ topology = topologyFederated := by
  have hnil : incompleteBlocks runs = [] ↔ ∀ entry ∈ (groupTopologies runs).entries,
      entry.2 = {topologyLocal, topologyFederated} := by
    unfold incompleteBlocks
    rw [← List.length_eq_zero_iff, List.length_insertionSort, List.length_map,
      List.length_eq_zero_iff, List.filter_eq_nil_iff]
    simp
  rw [hnil]
  constructor
  · intro h run hrun topology
    have hkey := (mem_keys_groupTopologies runs run.blockId).mpr ⟨run, hrun, rfl⟩
    obtain ⟨⟨blockId, topologies⟩, hentry, hblock⟩ := List.mem_map.mp hkey
    have hset : topologies = {topologyLocal, topologyFederated} := h _ hentry
    dsimp only at hblock
    rw [← mem_getD_groupTopologies, ← hblock, OrderedDict.get?_of_mem hentry, Option.getD_some,
      hset]
    simp
  · rintro h ⟨blockId, topologies⟩ hentry
    obtain ⟨run, hrun, rfl⟩ := (mem_keys_groupTopologies runs blockId).mp
      (List.mem_map_of_mem hentry)
    ext topology
    have hmem := mem_getD_groupTopologies runs run.blockId topology
    rw [OrderedDict.get?_of_mem hentry, Option.getD_some] at hmem
    rw [hmem, h run hrun]
    simp

/-! ## 2.  The gate -/

/-- What a summary counts: `runs_total` and `runs_passed`. -/
structure Totals where
  runsTotal : ℕ
  runsPassed : ℕ

/-- A line of `integrity_problems`, reported as the run, the count and the description. -/
structure IntegrityProblem where
  runId : Text
  count : ℕ
  description : String
  deriving DecidableEq

/-- `int(DEFAULT_INTERACTION_TIMEOUT_SECONDS * 1e9)`. -/
def budgetNs : ℤ := 10 * 10 ^ 9

/-- The problems of one run, with their counts. -/
def problemCounts (run : RunRecords) : List (ℕ × String) :=
  let successes := run.records.filter (·.isSuccess)
  let elapsed := successes.filterMap fun r =>
    r.completedMonotonicNs.map fun completed => completed - r.initiatedMonotonicNs
  [ (elapsed.countP (budgetNs < ·),
      "successful interactions with an RTT above the frozen 10s interaction timeout"),
    (elapsed.countP (· < 0), "interactions completing before they were initiated"),
    (if run.workload = throughputWorkload then
        run.records.countP fun r => r.windowStartNs.isNone || r.windowEndNs.isNone
      else 0,
      "throughput records without window bounds"),
    (successes.countP (·.completedMonotonicNs.isNone), "successes with no completion timestamp"),
    (run.records.countP fun r => !r.isSuccess && (r.outcome == some (outcomeValue .timeout) &&
        r.completedMonotonicNs.isSome),
      "timeouts carrying a completion timestamp") ]

/-- `integrity_problems`. -/
def integrityProblems (runs : List RunRecords) : List IntegrityProblem :=
  runs.flatMap fun run => (problemCounts run).filterMap fun problem =>
    if problem.1 = 0 then none else some ⟨run.runId, problem.1, problem.2⟩

/-- The runs of the latency workload. -/
def latencyRuns (runs : List RunRecords) : List RunRecords :=
  runs.filter fun r => r.workload = latencyWorkload

/-- The runs of the throughput workload at a level. -/
def levelRuns (runs : List RunRecords) (level : ℕ) : List RunRecords :=
  runs.filter fun r => r.workload = throughputWorkload ∧ r.concurrency = level

/-- The concurrency levels of a campaign. -/
def concurrencies (runs : List RunRecords) : List ℕ :=
  (((runs.filter fun r => r.workload = throughputWorkload).map
    RunRecords.concurrency).dedup).insertionSort fun x y => x ≤ y

/-- What the gate and the comparisons take from the dictionary `analyse` builds. -/
structure Summary where
  runsTotal : ℕ
  runsInvalid : List (Text × Option Text)
  integrityProblems : List IntegrityProblem
  latencyBlocks : List PairedBlock
  latencyIncompleteBlocks : List Text
  throughputBlocks : List (ℕ × List PairedBlock)

/-- `analyse`. -/
def analyse (runs : List RunRecords) : Summary :=
  { runsTotal := runs.length
    runsInvalid := (runs.filter fun r => !r.valid).map fun r => (r.runId, r.invalidClass)
    integrityProblems := integrityProblems runs
    latencyBlocks := pairBlocks (latencyRuns runs)
    latencyIncompleteBlocks := incompleteBlocks (latencyRuns runs)
    throughputBlocks :=
      (concurrencies runs).map fun level => (level, pairBlocks (levelRuns runs level)) }

/-- The verdict of `_analyse`.  `mismatches` are those of the comparison of the manifests
with the raw streams. -/
def gate (e0 e1 e2 readiness : Totals) (e3 : Summary) (mismatches : List Text) : Bool :=
  (0 < e0.runsTotal && e0.runsPassed == e0.runsTotal) &&
    (e1.runsTotal == 0 || e1.runsPassed == e1.runsTotal) &&
    (e2.runsTotal == 0 || e2.runsPassed == e2.runsTotal) &&
    (readiness.runsTotal == 0 || readiness.runsPassed == readiness.runsTotal) &&
    (e3.runsTotal == 0 ||
      (e3.runsInvalid.isEmpty && e3.latencyIncompleteBlocks.isEmpty &&
        e3.integrityProblems.isEmpty && mismatches.isEmpty))

/-! ## 3.  Complete pairing -/

/-- **A population is completely paired**: each of its blocks has one valid run under
either topology, and each of its runs is in a pair. -/
structure Paired (runs : List RunRecords) : Prop where
  one : ∀ run ∈ runs, ∀ topology ∈ [topologyLocal, topologyFederated],
    runs.countP (·.isOf run.blockId topology) = 1
  kept : ∀ run ∈ runs, ∃ block ∈ pairBlocks runs,
    run = block.localRun ∨ run = block.federatedRun

/-- No block has two runs under one topology. -/
def NoRepeats (runs : List RunRecords) : Prop :=
  (runs.map fun run => (run.blockId, run.topology)).Nodup

instance : DecidablePred NoRepeats := fun _ => inferInstanceAs (Decidable (List.Nodup _))

section Population

variable {runs : List RunRecords}

/-- Valid runs that are not repeated, counted. -/
theorem countP_isOf_le_one (hnodup : NoRepeats runs) (blockId topology : Text) :
    runs.countP (·.isOf blockId topology) ≤ 1 := by
  have hcount : runs.countP (·.isOf blockId topology) ≤
      runs.countP fun run => (run.blockId, run.topology) == (blockId, topology) := by
    refine List.countP_mono_left fun run _ hof => ?_
    obtain ⟨-, hblock, htopology⟩ := isOf_iff.mp hof
    rw [hblock, htopology]
    exact beq_self_eq_true _
  refine hcount.trans ?_
  have hle := List.nodup_iff_count_le_one.mp hnodup (blockId, topology)
  rwa [List.count, List.countP_map] at hle

/-- The run filed under its block and topology is the run itself, if it is not repeated. -/
theorem filedRun_of_mem (hnodup : NoRepeats runs) {run : RunRecords} (hrun : run ∈ runs)
    (hvalid : run.valid = true) :
    filedRun (groupRuns runs) run.blockId run.topology = some run := by
  rw [filedRun_groupRuns]
  have hof : run.isOf run.blockId run.topology = true := isOf_iff.mpr ⟨hvalid, rfl, rfl⟩
  have hmem : run ∈ runs.filter (·.isOf run.blockId run.topology) :=
    List.mem_filter.mpr ⟨hrun, hof⟩
  obtain ⟨last, hlast⟩ := Option.isSome_iff_exists.mp
    (List.getLast?_isSome.mpr (List.ne_nil_of_mem hmem))
  obtain ⟨hlastMem, hlastOf⟩ := List.mem_filter.mp (List.mem_of_getLast? hlast)
  obtain ⟨-, hblock, htopology⟩ := isOf_iff.mp hlastOf
  rw [hlast, List.inj_on_of_nodup_map hnodup hlastMem hrun (by rw [hblock, htopology])]

/-- **What completes the pairing of valid runs**: no incomplete block and no repeat. -/
theorem paired_iff (hvalid : ∀ run ∈ runs, run.valid = true) :
    Paired runs ↔ incompleteBlocks runs = [] ∧ NoRepeats runs := by
  rw [incompleteBlocks_eq_nil_iff]
  constructor
  · intro h
    have htopology : ∀ run ∈ runs,
        run.topology = topologyLocal ∨ run.topology = topologyFederated := by
      intro run hrun
      obtain ⟨block, hblock, hpair⟩ := h.kept run hrun
      obtain ⟨hlocal, hfederated⟩ := mem_pairBlocks.mp hblock
      rw [filedRun_groupRuns] at hlocal hfederated
      rcases hpair with rfl | rfl
      · exact Or.inl (isOf_iff.mp (List.mem_filter.mp (List.mem_of_getLast? hlocal)).2).2.2
      · exact Or.inr (isOf_iff.mp (List.mem_filter.mp (List.mem_of_getLast? hfederated)).2).2.2
    refine ⟨fun run hrun topology => ⟨?_, fun htopo => ?_⟩, ?_⟩
    · rintro ⟨run', hrun', hof⟩
      rw [← (isOf_iff.mp hof).2.2]
      exact htopology run' hrun'
    · have hone := h.one run hrun topology (by simpa using htopo)
      exact List.countP_pos_iff.mp (by omega)
    · refine List.nodup_iff_count_le_one.mpr fun ⟨blockId, topology⟩ => ?_
      have hcount : (runs.map fun run => (run.blockId, run.topology)).count (blockId, topology) =
          runs.countP (·.isOf blockId topology) := by
        rw [List.count, List.countP_map]
        refine List.countP_congr fun run hrun => ?_
        rw [isOf_iff]
        simp [hvalid run hrun]
      rw [hcount]
      by_contra hmany
      have hpos : 0 < runs.countP (·.isOf blockId topology) := by omega
      obtain ⟨run, hrun, hof⟩ := List.countP_pos_iff.mp hpos
      obtain ⟨-, rfl, rfl⟩ := isOf_iff.mp hof
      have hone := h.one run hrun run.topology (by simpa using htopology run hrun)
      omega
  · rintro ⟨hcomplete, hnodup⟩
    refine ⟨fun run hrun topology htopo => ?_, fun run hrun => ?_⟩
    · have hle := countP_isOf_le_one hnodup run.blockId topology
      have hpos :=
        List.countP_pos_iff.mpr ((hcomplete run hrun topology).mpr (by simpa using htopo))
      omega
    · -- the runs under the two topologies are the ones that are filed
      have hfiled : ∀ topology, topology = topologyLocal ∨ topology = topologyFederated →
          ∃ run', filedRun (groupRuns runs) run.blockId topology = some run' := by
        intro topology htopo
        obtain ⟨run', hrun', hof⟩ := (hcomplete run hrun topology).mpr htopo
        obtain ⟨hvalid', hblock, rfl⟩ := isOf_iff.mp hof
        exact ⟨run', hblock ▸ filedRun_of_mem hnodup hrun' hvalid'⟩
      obtain ⟨localRun, hlocal⟩ := hfiled topologyLocal (Or.inl rfl)
      obtain ⟨federatedRun, hfederated⟩ := hfiled topologyFederated (Or.inr rfl)
      refine ⟨⟨run.blockId, localRun, federatedRun⟩, mem_pairBlocks.mpr ⟨hlocal, hfederated⟩, ?_⟩
      have hself := filedRun_of_mem hnodup hrun (hvalid run hrun)
      have htopology := (hcomplete run hrun run.topology).mp
        ⟨run, hrun, isOf_iff.mpr ⟨hvalid run hrun, rfl, rfl⟩⟩
      rcases htopology with htopo | htopo
      · rw [htopo] at hself
        exact Or.inl (Option.some_inj.mp (hself.symm.trans hlocal))
      · rw [htopo] at hself
        exact Or.inr (Option.some_inj.mp (hself.symm.trans hfederated))

end Population

/-- **The pairing of a campaign is complete**, for the latency workload and for every
throughput level. -/
def CompletePairing (runs : List RunRecords) : Prop :=
  Paired (latencyRuns runs) ∧ ∀ level ∈ concurrencies runs, Paired (levelRuns runs level)

/-- What the gate does not look at: the incomplete blocks of the throughput levels, and
runs that repeat a block and topology. -/
structure NothingMissed (runs : List RunRecords) : Prop where
  levels : ∀ level ∈ concurrencies runs, incompleteBlocks (levelRuns runs level) = []
  latencyRepeats : NoRepeats (latencyRuns runs)
  levelRepeats : ∀ level ∈ concurrencies runs, NoRepeats (levelRuns runs level)

section Gate

variable {e0 e1 e2 readiness : Totals} {runs : List RunRecords} {mismatches : List Text}

/-- What the gate ensures of the runs. -/
theorem valid_of_gate (h : gate e0 e1 e2 readiness (analyse runs) mismatches = true) :
    (∀ run ∈ runs, run.valid = true) ∧ incompleteBlocks (latencyRuns runs) = [] := by
  unfold gate at h
  obtain ⟨-, h⟩ := Bool.and_eq_true_iff.mp h
  rcases Bool.or_eq_true_iff.mp h with hnone | hsome
  · have hruns : runs = [] := List.length_eq_zero_iff.mp (beq_iff_eq.mp hnone)
    rw [hruns]
    exact ⟨fun run hrun => absurd hrun List.not_mem_nil, rfl⟩
  · simp only [Bool.and_eq_true, List.isEmpty_iff] at hsome
    obtain ⟨⟨⟨hinvalid, hincomplete⟩, -⟩, -⟩ := hsome
    refine ⟨fun run hrun => ?_, hincomplete⟩
    have hfilter := List.filter_eq_nil_iff.mp (List.map_eq_nil_iff.mp hinvalid) run hrun
    simpa using hfilter

/-- **What the gate leaves open.**  When it passes, the pairing is complete exactly when no
throughput level has an incomplete block and no block, in the latency workload or at a
level, has two runs under one topology. -/
theorem completePairing_iff (e0 e1 e2 readiness : Totals) (runs : List RunRecords)
    (mismatches : List Text)
    (hgate : gate e0 e1 e2 readiness (analyse runs) mismatches = true) :
    CompletePairing runs ↔ NothingMissed runs := by
  obtain ⟨hvalid, hlatency⟩ := valid_of_gate hgate
  have hpaired := paired_iff fun run (hrun : run ∈ latencyRuns runs) =>
    hvalid run (List.mem_of_mem_filter hrun)
  have hlevel := fun level => paired_iff fun run (hrun : run ∈ levelRuns runs level) =>
    hvalid run (List.mem_of_mem_filter hrun)
  unfold CompletePairing
  rw [hpaired]
  constructor
  · rintro ⟨⟨-, hrepeats⟩, hlevels⟩
    exact ⟨fun level hmem => ((hlevel level).mp (hlevels level hmem)).1, hrepeats,
      fun level hmem => ((hlevel level).mp (hlevels level hmem)).2⟩
  · rintro ⟨hlevels, hrepeats, hlevelRepeats⟩
    exact ⟨⟨hlatency, hrepeats⟩, fun level hmem =>
      (hlevel level).mpr ⟨hlevels level hmem, hlevelRepeats level hmem⟩⟩

end Gate

/-! ### A block without its counterpart -/

/-- A valid run of block `b` that initiated nothing. -/
def runOf (workload topology : Text) : RunRecords :=
  { runId := ['r'], workload := workload, topology := topology, blockId := ['b']
    concurrency := 8, campaignId := ['c'], valid := true, invalidClass := none
    windowStartNs := if workload = throughputWorkload then some 0 else none
    windowEndNs := if workload = throughputWorkload then some (60 * 10 ^ 9) else none
    records := [] }

/-- One passed run of E0, and nothing else. -/
def onePassed : Totals := ⟨1, 1⟩

/-- A local throughput run alone passes the gate, and no comparison has it. -/
theorem loneRun_not_completePairing :
    ¬ ∀ (e0 e1 e2 readiness : Totals) (runs : List RunRecords) (mismatches : List Text),
      gate e0 e1 e2 readiness (analyse runs) mismatches = true → CompletePairing runs := by
  intro h
  have hgate : gate onePassed ⟨0, 0⟩ ⟨0, 0⟩ ⟨0, 0⟩
      (analyse [runOf throughputWorkload topologyLocal]) [] = true := by decide +kernel
  obtain ⟨-, hlevels⟩ := h _ _ _ _ _ _ hgate
  obtain ⟨block, hblock, -⟩ := (hlevels 8 (by decide +kernel)).kept
    (runOf throughputWorkload topologyLocal) (by decide +kernel)
  have hnone : pairBlocks (levelRuns [runOf throughputWorkload topologyLocal] 8) = [] := by
    decide +kernel
  rw [hnone] at hblock
  exact List.not_mem_nil hblock

/-- Two runs of one latency block pass, and are paired. -/
theorem twoRuns_completePairing :
    CompletePairing
      [runOf latencyWorkload topologyFederated, runOf latencyWorkload topologyLocal] :=
  (completePairing_iff onePassed ⟨0, 0⟩ ⟨0, 0⟩ ⟨0, 0⟩ _ [] (by decide +kernel)).mpr
    ⟨by decide +kernel, by decide +kernel, by decide +kernel⟩

end Analysis
end FederatedMessaging
