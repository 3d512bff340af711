import FederatedMessaging.Analysis.Pairing
import FederatedMessaging.Common.TransactionIds

/-!
# The schedule of a campaign

`fam.benchmark.schedule`, the part that is fixed before the first run: the paired blocks, the
order inside each, and the names of the runs.

## 1.  The shuffle

`random.Random(key).shuffle(orders)` is a permutation that depends on the key and on nothing
else.  `Shuffles` is that, and everything here holds for each of them.

## 2.  Names

A run has a key, by which the ledger knows it, and a run id, by which its files are named.
Both are made of the same four data: the workload, the concurrency, the index of the block and
the topology.  The numbers are padded to two digits and may be longer; what keeps the names
apart is that each number is followed or preceded by a letter that is in no number
(`key_injective`, `runId_injective`).

## 3.  Pairs

The schedule is a sequence of pairs, a local run and a federated one next to each other, and
every pair is a block of its own name.

## 4.  Levels and counterbalance

The key of the shuffle of a level has no trace of the other levels, so neither has its
schedule.  Half of the blocks of a level lead with the local run.
-/

namespace FederatedMessaging
namespace Benchmark

open PythonText Analysis

/-! ## 1.  The shuffle -/

/-- `random.Random(key).shuffle(orders)`, in place. -/
structure Shuffles where
  shuffle : Text → List Bool → List Bool
  perm : ∀ key orders, (shuffle key orders).Perm orders

/-- `str(n)`. -/
def strOfInt (n : ℤ) : Text :=
  if n < 0 then '-' :: Nat.toDigits 10 n.natAbs else Nat.toDigits 10 n.natAbs

/-- `f"{seed}:{workload}:{concurrency}"`. -/
def shuffleKey (seed : ℤ) (workload : Text) (concurrency : ℤ) : Text :=
  strOfInt seed ++ ':' :: workload ++ ':' :: strOfInt concurrency

/-- `_counterbalanced_orders`: true for local first. -/
def counterbalancedOrders (random : Shuffles) (key : Text) (blocks : ℕ) : List Bool :=
  random.shuffle key
    (List.replicate (blocks / 2) true ++ List.replicate (blocks - blocks / 2) false)

/-! ## 2.  Names -/

/-- `f"{n:02d}"`: the sign counts towards the width. -/
def format02 (n : ℤ) : Text :=
  if n < 0 then '-' :: zfill 1 (Nat.toDigits 10 n.natAbs) else zfill 2 (Nat.toDigits 10 n.natAbs)

/-- `ScheduledRun`. -/
structure ScheduledRun where
  workload : Text
  blockId : Text
  blockIndex : ℕ
  withinBlockOrder : ℕ
  topology : Text
  concurrency : ℤ
  deriving DecidableEq, Repr

/-- `ScheduledRun.key`. -/
def ScheduledRun.key (run : ScheduledRun) : Text :=
  run.workload ++ "-c".toList ++ format02 run.concurrency ++ '-' :: run.blockId ++
    '-' :: run.topology

/-- `_block_id`. -/
def blockIdOf (workload : Text) (concurrency : ℤ) (index : ℕ) : Text :=
  if workload = latencyWorkload then "lat-block".toList ++ format02 index
  else "thr-c".toList ++ format02 concurrency ++ "-block".toList ++ format02 index

/-- The `run_id` of `main_async`. -/
def runId (campaignId : Text) (run : ScheduledRun) : Text :=
  campaignId ++ '-' :: run.workload.take 3 ++ "-c".toList ++ format02 run.concurrency ++
    "-b".toList ++ format02 run.blockIndex ++ '-' :: run.topology

/-- The run of a block at an order. -/
def blockRun (workload : Text) (concurrency : ℤ) (index order : ℕ) (topology : Text) :
    ScheduledRun :=
  { workload
    blockId := blockIdOf workload concurrency index
    blockIndex := index
    withinBlockOrder := order
    topology
    concurrency }

/-- The two runs of a block, in order. -/
def block (workload : Text) (concurrency : ℤ) (localFirst : Bool) (index : ℕ) : List ScheduledRun :=
  if localFirst then
    [blockRun workload concurrency index 1 topologyLocal,
      blockRun workload concurrency index 2 topologyFederated]
  else
    [blockRun workload concurrency index 1 topologyFederated,
      blockRun workload concurrency index 2 topologyLocal]

/-- `generate_workload_schedule`. -/
def generateWorkloadSchedule (random : Shuffles) (workload : Text) (concurrency seed : ℤ)
    (blocks : ℕ) : List ScheduledRun :=
  ((counterbalancedOrders random (shuffleKey seed workload concurrency) blocks).zipIdx 1).flatMap
    fun entry => block workload concurrency entry.1 entry.2

/-- `E3_LATENCY_MAX_IN_FLIGHT`. -/
def latencyMaxInFlight : ℤ := 1

/-- `generate_campaign_schedule`. -/
def generateCampaignSchedule (random : Shuffles) (seed : ℤ) (blocks : ℕ) (levels : List ℤ)
    (workloads : List Text) : List ScheduledRun :=
  (if latencyWorkload ∈ workloads then
    generateWorkloadSchedule random latencyWorkload latencyMaxInFlight seed blocks else []) ++
  (if throughputWorkload ∈ workloads then
    levels.flatMap fun level => generateWorkloadSchedule random throughputWorkload level seed blocks
  else [])

/-! ### Numbers in names -/

theorem mem_format02 {n : ℤ} {c : Char} (h : c ∈ format02 n) : c.isDigit = true ∨ c = '-' := by
  have hdigits : ∀ width, ∀ c ∈ zfill width (Nat.toDigits 10 n.natAbs), c.isDigit = true :=
    fun width => isDigit_of_mem_zfill fun c hc => isDigit_of_mem_toDigits hc
  unfold format02 at h
  split_ifs at h
  · rcases List.mem_cons.mp h with rfl | h
    · exact .inr rfl
    · exact .inl (hdigits 1 c h)
  · exact .inl (hdigits 2 c h)

theorem letter_notMem_format02 {c : Char} (hc : c ∈ ['b', 'c', 'k']) (n : ℤ) : c ∉ format02 n := by
  intro h
  rcases mem_format02 h with hdigit | rfl
  · simp only [List.mem_cons, List.not_mem_nil, or_false] at hc
    rcases hc with rfl | rfl | rfl <;> cases hdigit
  · exact absurd hc (by decide)

theorem zfill_toDigits_injective {width m n : ℕ}
    (h : zfill width (Nat.toDigits 10 m) = zfill width (Nat.toDigits 10 n)) : m = n := by
  rw [← digitsValue_toDigits m, ← digitsValue_zfill width, h, digitsValue_zfill,
    digitsValue_toDigits]

/-- Two numbers with one name are one number. -/
theorem format02_injective {m n : ℤ} (h : format02 m = format02 n) : m = n := by
  -- a padded number does not start with a sign
  have hsign : ∀ {k : ℕ} {t : Text}, zfill 2 (Nat.toDigits 10 k) ≠ '-' :: t := by
    intro k t heq
    have hminus : '-' ∈ zfill 2 (Nat.toDigits 10 k) := heq ▸ List.mem_cons_self
    cases isDigit_of_mem_zfill (fun c hc => isDigit_of_mem_toDigits hc) '-' hminus
  unfold format02 at h
  split_ifs at h with hm hn hn
  · have habs := zfill_toDigits_injective (List.cons.inj h).2
    omega
  · exact absurd h.symm hsign
  · exact absurd h hsign
  · have habs := zfill_toDigits_injective h
    omega

/-! ### Names of runs -/

/-- A run that the generator can make. -/
structure Regular (run : ScheduledRun) : Prop where
  workload : run.workload ∈ [latencyWorkload, throughputWorkload]
  topology : run.topology ∈ [topologyLocal, topologyFederated]
  blockId : run.blockId = blockIdOf run.workload run.concurrency run.blockIndex

/-- What tells two runs of a campaign apart. -/
def ScheduledRun.coordinates (run : ScheduledRun) : Text × ℤ × ℕ × Text :=
  (run.workload, run.concurrency, run.blockIndex, run.topology)

theorem hyphen_notMem_topology {t : Text} (h : t ∈ [topologyLocal, topologyFederated]) :
    '-' ∉ t := by
  rcases List.mem_pair.mp h with rfl | rfl <;> decide

theorem coordinates_eq {run run' : ScheduledRun} (hworkload : run.workload = run'.workload)
    (hconcurrency : format02 run.concurrency = format02 run'.concurrency)
    (hindex : format02 run.blockIndex = format02 run'.blockIndex)
    (htopology : run.topology = run'.topology) : run.coordinates = run'.coordinates := by
  unfold ScheduledRun.coordinates
  rw [hworkload, format02_injective hconcurrency, htopology,
    Int.ofNat_inj.mp (format02_injective hindex)]

/-- **The key tells the runs apart.** -/
theorem key_injective {run run' : ScheduledRun} (h : Regular run) (h' : Regular run')
    (hkey : run.key = run'.key) : run.coordinates = run'.coordinates := by
  unfold ScheduledRun.key at hkey
  obtain ⟨hkey, htopology⟩ := Message.append_cons_inj_of_notMem (hyphen_notMem_topology h.topology)
    (hyphen_notMem_topology h'.topology) hkey
  rw [h.blockId, h'.blockId] at hkey
  have hk : ∀ n, 'k' ∉ format02 n := letter_notMem_format02 (by decide)
  have hc : ∀ n, 'c' ∉ format02 n := letter_notMem_format02 (by decide)
  rcases List.mem_pair.mp h.workload with hw | hw <;>
    rcases List.mem_pair.mp h'.workload with hw' | hw' <;> rw [hw, hw'] at hkey
  · -- two latency runs
    have hkey :
      (latencyWorkload ++ "-c".toList ++ format02 run.concurrency ++ "-lat-bloc".toList) ++
        'k' :: format02 run.blockIndex =
      (latencyWorkload ++ "-c".toList ++ format02 run'.concurrency ++ "-lat-bloc".toList) ++
        'k' :: format02 run'.blockIndex := by
      simpa [blockIdOf] using hkey
    obtain ⟨hkey, hindex⟩ := Message.append_cons_inj_of_notMem (hk _) (hk _) hkey
    exact coordinates_eq (hw.trans hw'.symm)
      (List.append_cancel_left (List.append_cancel_right hkey)) hindex htopology
  · exact absurd (congrArg List.head? hkey) (by simp [latencyWorkload, throughputWorkload])
  · exact absurd (congrArg List.head? hkey) (by simp [latencyWorkload, throughputWorkload])
  · -- two throughput runs
    have hne : throughputWorkload ≠ latencyWorkload := by decide
    have hkey : (throughputWorkload ++ "-c".toList ++ format02 run.concurrency ++ "-thr-c".toList ++
          format02 run.concurrency ++ "-bloc".toList) ++ 'k' :: format02 run.blockIndex =
        (throughputWorkload ++ "-c".toList ++ format02 run'.concurrency ++ "-thr-c".toList ++
          format02 run'.concurrency ++ "-bloc".toList) ++ 'k' :: format02 run'.blockIndex := by
      simpa [blockIdOf, hne] using hkey
    obtain ⟨hkey, hindex⟩ := Message.append_cons_inj_of_notMem (hk _) (hk _) hkey
    have hkey : (throughputWorkload ++ "-c".toList ++ format02 run.concurrency ++ "-thr-".toList) ++
          'c' :: format02 run.concurrency =
        (throughputWorkload ++ "-c".toList ++ format02 run'.concurrency ++ "-thr-".toList) ++
          'c' :: format02 run'.concurrency := by
      simpa using List.append_cancel_right hkey
    obtain ⟨-, hconcurrency⟩ := Message.append_cons_inj_of_notMem (hc _) (hc _) hkey
    exact coordinates_eq (hw.trans hw'.symm) hconcurrency hindex htopology

/-- **So does the run id, inside a campaign.** -/
theorem runId_injective {campaignId : Text} {run run' : ScheduledRun} (h : Regular run)
    (h' : Regular run') (hid : runId campaignId run = runId campaignId run') :
    run.coordinates = run'.coordinates := by
  unfold runId at hid
  obtain ⟨hid, htopology⟩ := Message.append_cons_inj_of_notMem (hyphen_notMem_topology h.topology)
    (hyphen_notMem_topology h'.topology) hid
  have hb : ∀ n, 'b' ∉ format02 n := letter_notMem_format02 (by decide)
  have hc : ∀ n, 'c' ∉ format02 n := letter_notMem_format02 (by decide)
  have hid : (campaignId ++ '-' :: run.workload.take 3 ++ "-c".toList ++ format02 run.concurrency ++
        ['-']) ++ 'b' :: format02 run.blockIndex =
      (campaignId ++ '-' :: run'.workload.take 3 ++ "-c".toList ++ format02 run'.concurrency ++
        ['-']) ++ 'b' :: format02 run'.blockIndex := by
    simpa using hid
  obtain ⟨hid, hindex⟩ := Message.append_cons_inj_of_notMem (hb _) (hb _) hid
  have hid :
      (campaignId ++ '-' :: run.workload.take 3 ++ ['-']) ++ 'c' :: format02 run.concurrency =
      (campaignId ++ '-' :: run'.workload.take 3 ++ ['-']) ++ 'c' :: format02 run'.concurrency := by
    simpa using List.append_cancel_right hid
  obtain ⟨hid, hconcurrency⟩ := Message.append_cons_inj_of_notMem (hc _) (hc _) hid
  have htake : run.workload.take 3 = run'.workload.take 3 :=
    (List.cons.inj (List.append_cancel_left (List.append_cancel_right hid))).2
  have hworkload : run.workload = run'.workload := by
    rcases List.mem_pair.mp h.workload with hw | hw <;>
      rcases List.mem_pair.mp h'.workload with hw' | hw' <;> rw [hw, hw'] at htake ⊢
    · exact absurd htake (by decide)
    · exact absurd htake (by decide)
  exact coordinates_eq hworkload hconcurrency hindex htopology

/-! ## 3.  Pairs -/

/-- The two runs of a block, as a pair. -/
def blockPair (workload : Text) (concurrency : ℤ) (localFirst : Bool) (index : ℕ) :
    ScheduledRun × ScheduledRun :=
  if localFirst then
    (blockRun workload concurrency index 1 topologyLocal,
      blockRun workload concurrency index 2 topologyFederated)
  else
    (blockRun workload concurrency index 1 topologyFederated,
      blockRun workload concurrency index 2 topologyLocal)

/-- The pairs of a workload. -/
def workloadPairs (random : Shuffles) (workload : Text) (concurrency seed : ℤ) (blocks : ℕ) :
    List (ScheduledRun × ScheduledRun) :=
  ((counterbalancedOrders random (shuffleKey seed workload concurrency) blocks).zipIdx 1).map
    fun entry => blockPair workload concurrency entry.1 entry.2

/-- The pairs of a campaign. -/
def campaignPairs (random : Shuffles) (seed : ℤ) (blocks : ℕ) (levels : List ℤ)
    (workloads : List Text) : List (ScheduledRun × ScheduledRun) :=
  (if latencyWorkload ∈ workloads then
    workloadPairs random latencyWorkload latencyMaxInFlight seed blocks else []) ++
  (if throughputWorkload ∈ workloads then
    levels.flatMap fun level => workloadPairs random throughputWorkload level seed blocks else [])

/-- **Two runs that are one block**: one local and one federated, at the orders 1 and 2. -/
structure IsBlock (pair : ScheduledRun × ScheduledRun) : Prop where
  workload : pair.1.workload = pair.2.workload
  concurrency : pair.1.concurrency = pair.2.concurrency
  blockIndex : pair.1.blockIndex = pair.2.blockIndex
  blockId : pair.1.blockId = pair.2.blockId
  orders : pair.1.withinBlockOrder = 1 ∧ pair.2.withinBlockOrder = 2
  topologies : pair.1.topology = topologyLocal ∧ pair.2.topology = topologyFederated ∨
    pair.1.topology = topologyFederated ∧ pair.2.topology = topologyLocal

variable {random : Shuffles} {workload : Text} {concurrency seed : ℤ} {blocks : ℕ}
  {levels : List ℤ} {workloads : List Text}

theorem isBlock_blockPair (workload : Text) (concurrency : ℤ) (localFirst : Bool) (index : ℕ) :
    IsBlock (blockPair workload concurrency localFirst index) := by
  cases localFirst with
  | true => exact ⟨rfl, rfl, rfl, rfl, ⟨rfl, rfl⟩, .inl ⟨rfl, rfl⟩⟩
  | false => exact ⟨rfl, rfl, rfl, rfl, ⟨rfl, rfl⟩, .inr ⟨rfl, rfl⟩⟩

theorem mem_workloadPairs {pair : ScheduledRun × ScheduledRun}
    (h : pair ∈ workloadPairs random workload concurrency seed blocks) :
    ∃ localFirst index, pair = blockPair workload concurrency localFirst index := by
  obtain ⟨entry, -, rfl⟩ := List.mem_map.mp h
  exact ⟨entry.1, entry.2, rfl⟩

/-- What all pairs have, the latency workload and every level give. -/
theorem forall_campaignPairs {P : ScheduledRun × ScheduledRun → Prop}
    (hlatency : ∀ localFirst index,
      P (blockPair latencyWorkload latencyMaxInFlight localFirst index))
    (hthroughput : ∀ level localFirst index,
      P (blockPair throughputWorkload level localFirst index)) :
    ∀ pair ∈ campaignPairs random seed blocks levels workloads, P pair := by
  intro pair hpair
  rcases List.mem_append.mp hpair with hpair | hpair <;> split_ifs at hpair
  · obtain ⟨localFirst, index, rfl⟩ := mem_workloadPairs hpair
    exact hlatency _ _
  · exact absurd hpair List.not_mem_nil
  · obtain ⟨level, -, hpair⟩ := List.mem_flatMap.mp hpair
    obtain ⟨localFirst, index, rfl⟩ := mem_workloadPairs hpair
    exact hthroughput _ _ _
  · exact absurd hpair List.not_mem_nil

theorem isBlock_of_mem {pair : ScheduledRun × ScheduledRun}
    (h : pair ∈ campaignPairs random seed blocks levels workloads) : IsBlock pair :=
  forall_campaignPairs (isBlock_blockPair _ _) (isBlock_blockPair _) pair h

theorem block_eq (workload : Text) (concurrency : ℤ) (localFirst : Bool) (index : ℕ) :
    block workload concurrency localFirst index =
      [(blockPair workload concurrency localFirst index).1,
        (blockPair workload concurrency localFirst index).2] := by
  cases localFirst <;> rfl

theorem generateWorkloadSchedule_eq :
    generateWorkloadSchedule random workload concurrency seed blocks =
      (workloadPairs random workload concurrency seed blocks).flatMap fun pair =>
        [pair.1, pair.2] := by
  unfold generateWorkloadSchedule workloadPairs
  rw [List.flatMap_map]
  exact List.flatMap_congr fun entry _ => block_eq _ _ _ _

/-- **The schedule is a sequence of pairs.** -/
theorem generateCampaignSchedule_eq :
    generateCampaignSchedule random seed blocks levels workloads =
      (campaignPairs random seed blocks levels workloads).flatMap fun pair => [pair.1, pair.2] := by
  unfold generateCampaignSchedule campaignPairs
  rw [List.flatMap_append]
  congr 1
  · split_ifs
    · exact generateWorkloadSchedule_eq
    · rfl
  · split_ifs
    · rw [List.flatMap_assoc]
      exact List.flatMap_congr fun level _ => generateWorkloadSchedule_eq
    · rfl

/-! ### Every block once -/

/-- What tells two blocks apart. -/
def blockCoordinates (pair : ScheduledRun × ScheduledRun) : Text × ℤ × ℕ :=
  (pair.1.workload, pair.1.concurrency, pair.1.blockIndex)

theorem blockCoordinates_blockPair (workload : Text) (concurrency : ℤ) (localFirst : Bool)
    (index : ℕ) :
    blockCoordinates (blockPair workload concurrency localFirst index) =
      (workload, concurrency, index) := by
  cases localFirst <;> rfl

/-- The blocks of a workload are numbered. -/
theorem map_blockCoordinates_workloadPairs :
    ∃ n, (workloadPairs random workload concurrency seed blocks).map blockCoordinates =
      (List.range' 1 n).map fun index => (workload, concurrency, index) := by
  unfold workloadPairs
  generalize counterbalancedOrders random (shuffleKey seed workload concurrency) blocks = orders
  refine ⟨orders.length, ?_⟩
  rw [← List.zipIdx_map_snd, List.map_map, List.map_map]
  exact List.map_congr_left fun entry _ => blockCoordinates_blockPair _ _ _ _

theorem nodup_workloadPairs :
    ((workloadPairs random workload concurrency seed blocks).map blockCoordinates).Nodup := by
  obtain ⟨n, hn⟩ := @map_blockCoordinates_workloadPairs random workload concurrency seed blocks
  rw [hn]
  exact List.Nodup.map (fun i j h => (Prod.mk.inj (Prod.mk.inj h).2).2) List.nodup_range'

theorem workload_of_mem_workloadPairs {x : Text × ℤ × ℕ}
    (h : x ∈ (workloadPairs random workload concurrency seed blocks).map blockCoordinates) :
    x.1 = workload ∧ x.2.1 = concurrency := by
  obtain ⟨pair, hpair, rfl⟩ := List.mem_map.mp h
  obtain ⟨localFirst, index, rfl⟩ := mem_workloadPairs hpair
  rw [blockCoordinates_blockPair]
  exact ⟨rfl, rfl⟩

/-- **No block is scheduled twice.** -/
theorem nodup_campaignPairs (hlevels : levels.Nodup) :
    ((campaignPairs random seed blocks levels workloads).map blockCoordinates).Nodup := by
  unfold campaignPairs
  rw [List.map_append, List.nodup_append]
  have hlatency : ∀ x ∈ (if latencyWorkload ∈ workloads then
      workloadPairs random latencyWorkload latencyMaxInFlight seed blocks else []).map
        blockCoordinates, x.1 = latencyWorkload := by
    intro x hx
    split_ifs at hx
    · exact (workload_of_mem_workloadPairs hx).1
    · exact absurd hx List.not_mem_nil
  have hthroughput : ∀ x ∈ (if throughputWorkload ∈ workloads then
      levels.flatMap fun level => workloadPairs random throughputWorkload level seed blocks
      else []).map blockCoordinates, x.1 = throughputWorkload := by
    intro x hx
    split_ifs at hx
    · rw [List.map_flatMap] at hx
      obtain ⟨level, -, hx⟩ := List.mem_flatMap.mp hx
      exact (workload_of_mem_workloadPairs hx).1
    · exact absurd hx List.not_mem_nil
  refine ⟨?_, ?_, ?_⟩
  · split_ifs
    · exact nodup_workloadPairs
    · exact List.nodup_nil
  · split_ifs
    · rw [List.map_flatMap, List.nodup_flatMap]
      refine ⟨fun level _ => nodup_workloadPairs, hlevels.imp fun hne x hx hx' => hne ?_⟩
      rw [← (workload_of_mem_workloadPairs hx).2, (workload_of_mem_workloadPairs hx').2]
    · exact List.nodup_nil
  · intro x hx x' hx' heq
    have hne : latencyWorkload ≠ throughputWorkload := by decide
    exact hne ((hlatency x hx).symm.trans (heq ▸ hthroughput x' hx'))

/-- **No run is scheduled twice.** -/
theorem nodup_coordinates (hlevels : levels.Nodup) :
    ((generateCampaignSchedule random seed blocks levels workloads).map
      ScheduledRun.coordinates).Nodup := by
  rw [generateCampaignSchedule_eq, List.map_flatMap, List.nodup_flatMap]
  have hblock : ∀ pair ∈ campaignPairs random seed blocks levels workloads, IsBlock pair :=
    fun pair => isBlock_of_mem
  have hpairs := List.pairwise_map.mp
    (@nodup_campaignPairs random seed blocks levels workloads hlevels)
  constructor
  · intro pair hpair
    have hne : topologyLocal ≠ topologyFederated := by decide
    refine List.nodup_cons.mpr ⟨fun hmem => ?_, List.nodup_singleton _⟩
    have htopology := congrArg (fun x => x.2.2.2) (List.mem_singleton.mp hmem)
    change pair.1.topology = pair.2.topology at htopology
    rcases (hblock pair hpair).topologies with ⟨h, h'⟩ | ⟨h, h'⟩
    · exact hne (h.symm.trans (htopology.trans h'))
    · exact hne (h'.symm.trans (htopology.symm.trans h))
  · refine hpairs.imp_of_mem fun {pair pair'} hpair hpair' hne x hx hx' => hne ?_
    have hread : ∀ {pair : ScheduledRun × ScheduledRun}, IsBlock pair →
        x ∈ [pair.1, pair.2].map ScheduledRun.coordinates →
        blockCoordinates pair = (x.1, x.2.1, x.2.2.1) := by
      intro pair h hx
      rcases List.mem_pair.mp hx with rfl | rfl
      · rfl
      · unfold blockCoordinates
        rw [h.workload, h.concurrency, h.blockIndex]
        rfl
    rw [hread (hblock pair hpair) hx, hread (hblock pair' hpair') hx']

theorem regular_of_mem_blockPair {workload : Text}
    (h : workload ∈ [latencyWorkload, throughputWorkload]) (concurrency : ℤ) (localFirst : Bool)
    (index : ℕ) : ∀ run ∈ [(blockPair workload concurrency localFirst index).1,
      (blockPair workload concurrency localFirst index).2], Regular run := by
  have hregular : ∀ order, ∀ topology ∈ [topologyLocal, topologyFederated],
      Regular (blockRun workload concurrency index order topology) :=
    fun order topology ht => ⟨h, ht, rfl⟩
  have hfederated : topologyFederated ∈ [topologyLocal, topologyFederated] :=
    List.mem_cons_of_mem _ List.mem_cons_self
  intro run hrun
  cases localFirst with
  | true =>
    rcases List.mem_pair.mp hrun with rfl | rfl
    · exact hregular _ _ List.mem_cons_self
    · exact hregular _ _ hfederated
  | false =>
    rcases List.mem_pair.mp hrun with rfl | rfl
    · exact hregular _ _ hfederated
    · exact hregular _ _ List.mem_cons_self

/-- Every scheduled run is regular. -/
theorem regular_of_mem {run : ScheduledRun}
    (h : run ∈ generateCampaignSchedule random seed blocks levels workloads) : Regular run := by
  rw [generateCampaignSchedule_eq] at h
  obtain ⟨pair, hpair, hrun⟩ := List.mem_flatMap.mp h
  refine forall_campaignPairs (P := fun pair => ∀ run ∈ [pair.1, pair.2], Regular run)
    ?_ ?_ pair hpair run hrun
  · exact regular_of_mem_blockPair List.mem_cons_self _
  · exact regular_of_mem_blockPair (List.mem_cons_of_mem _ List.mem_cons_self)

/-- A name that tells regular runs apart is given once. -/
theorem nodup_map_of_injective {name : ScheduledRun → Text}
    (hname : ∀ {run run'}, Regular run → Regular run' → name run = name run' →
      run.coordinates = run'.coordinates) (hlevels : levels.Nodup) :
    ((generateCampaignSchedule random seed blocks levels workloads).map name).Nodup := by
  refine List.pairwise_map.mpr ?_
  refine (List.pairwise_map.mp (nodup_coordinates hlevels)).imp_of_mem ?_
  intro run run' hrun hrun' hne heq
  exact hne (hname (regular_of_mem hrun) (regular_of_mem hrun') heq)

/-- **A scheduled run is known by its key.** -/
theorem eq_of_key_eq (hlevels : levels.Nodup) {run run' : ScheduledRun}
    (h : run ∈ generateCampaignSchedule random seed blocks levels workloads)
    (h' : run' ∈ generateCampaignSchedule random seed blocks levels workloads)
    (hkey : run.key = run'.key) : run = run' :=
  List.inj_on_of_nodup_map (nodup_map_of_injective key_injective hlevels) h h' hkey

/-! ### Names of blocks -/

/-- The name of a block tells the throughput blocks apart. -/
theorem blockIdOf_throughput_injective {c c' : ℤ} {i i' : ℕ}
    (h : blockIdOf throughputWorkload c i = blockIdOf throughputWorkload c' i') :
    c = c' ∧ i = i' := by
  have hne : throughputWorkload ≠ latencyWorkload := by decide
  have hk : ∀ n, 'k' ∉ format02 n := letter_notMem_format02 (by decide)
  have h : ("thr-c".toList ++ format02 c ++ "-bloc".toList) ++ 'k' :: format02 i =
      ("thr-c".toList ++ format02 c' ++ "-bloc".toList) ++ 'k' :: format02 i' := by
    simpa [blockIdOf, hne] using h
  obtain ⟨h, hindex⟩ := Message.append_cons_inj_of_notMem (hk _) (hk _) h
  exact ⟨format02_injective (List.append_cancel_left (List.append_cancel_right h)),
    Int.ofNat_inj.mp (format02_injective hindex)⟩

/-- **A block is known by its name.** -/
theorem blockCoordinates_eq_of_blockId {pair pair' : ScheduledRun × ScheduledRun}
    (h : pair ∈ campaignPairs random seed blocks levels workloads)
    (h' : pair' ∈ campaignPairs random seed blocks levels workloads)
    (hid : pair.1.blockId = pair'.1.blockId) : blockCoordinates pair = blockCoordinates pair' := by
  have hname : ∀ workload concurrency localFirst index,
      (blockPair workload concurrency localFirst index).1.blockId =
        blockIdOf workload concurrency index := by
    intro _ _ localFirst _
    cases localFirst <;> rfl
  have hlatency : ∀ (c c' : ℤ) (i i' : ℕ),
      blockIdOf latencyWorkload c i ≠ blockIdOf throughputWorkload c' i' := by
    intro c c' i i' heq
    have hne : throughputWorkload ≠ latencyWorkload := by decide
    exact absurd (congrArg List.head? heq) (by simp [blockIdOf, hne])
  refine forall_campaignPairs (P := fun pair =>
      ∀ pair' ∈ campaignPairs random seed blocks levels workloads,
        pair.1.blockId = pair'.1.blockId → blockCoordinates pair = blockCoordinates pair')
    (fun localFirst index => forall_campaignPairs
      (fun localFirst' index' hid => ?_) (fun level' localFirst' index' hid => ?_))
    (fun level localFirst index => forall_campaignPairs
      (fun localFirst' index' hid => ?_) (fun level' localFirst' index' hid => ?_))
    pair h pair' h' hid <;>
    rw [hname, hname] at hid <;> rw [blockCoordinates_blockPair, blockCoordinates_blockPair]
  · have hindex : format02 (index : ℤ) = format02 (index' : ℤ) := List.append_cancel_left hid
    rw [Int.ofNat_inj.mp (format02_injective hindex)]
  · exact absurd hid (hlatency _ _ _ _)
  · exact absurd hid.symm (hlatency _ _ _ _)
  · obtain ⟨rfl, rfl⟩ := blockIdOf_throughput_injective hid
    rfl

theorem nodup_blockId (hlevels : levels.Nodup) :
    ((campaignPairs random seed blocks levels workloads).map fun pair => pair.1.blockId).Nodup := by
  refine List.pairwise_map.mpr ((List.pairwise_map.mp (nodup_campaignPairs hlevels)).imp_of_mem ?_)
  intro pair pair' hpair hpair' hne heq
  exact hne (blockCoordinates_eq_of_blockId hpair hpair' heq)

/-! ## 4.  Levels and counterbalance -/

/-- The runs of one workload at one level. -/
def runsAt (workload : Text) (concurrency : ℤ) (schedule : List ScheduledRun) : List ScheduledRun :=
  schedule.filter fun run => run.workload = workload ∧ run.concurrency = concurrency

theorem mem_generateWorkloadSchedule {run : ScheduledRun}
    (h : run ∈ generateWorkloadSchedule random workload concurrency seed blocks) :
    run.workload = workload ∧ run.concurrency = concurrency := by
  obtain ⟨⟨localFirst, index⟩, -, hrun⟩ := List.mem_flatMap.mp h
  cases localFirst <;> rcases List.mem_pair.mp hrun with rfl | rfl <;> exact ⟨rfl, rfl⟩

theorem runsAt_self :
    runsAt workload concurrency (generateWorkloadSchedule random workload concurrency seed blocks) =
      generateWorkloadSchedule random workload concurrency seed blocks :=
  List.filter_eq_self.mpr fun _ hrun => decide_eq_true (mem_generateWorkloadSchedule hrun)

theorem runsAt_of_ne {workload' : Text} {concurrency' : ℤ}
    (hne : workload' = workload → concurrency' ≠ concurrency) :
    runsAt workload concurrency
      (generateWorkloadSchedule random workload' concurrency' seed blocks) = [] := by
  refine List.filter_eq_nil_iff.mpr fun run hrun hat => ?_
  obtain ⟨hw, hc⟩ := mem_generateWorkloadSchedule hrun
  obtain ⟨hw', hc'⟩ := of_decide_eq_true hat
  exact hne (hw.symm.trans hw') (hc.symm.trans hc')

/-- What is scheduled at a level depends on the other levels in no way. -/
theorem runsAt_flatMap (hlevels : levels.Nodup) {level : ℤ} (hlevel : level ∈ levels) :
    runsAt workload level
        (levels.flatMap fun level => generateWorkloadSchedule random workload level seed blocks) =
      generateWorkloadSchedule random workload level seed blocks := by
  have hothers : ∀ {levels' : List ℤ}, level ∉ levels' → runsAt workload level
      (levels'.flatMap fun level => generateWorkloadSchedule random workload level seed blocks) =
        [] := by
    intro levels' hnot
    unfold runsAt
    rw [List.filter_flatMap, List.flatMap_eq_nil_iff]
    exact fun level' hlevel' => runsAt_of_ne fun _ heq => hnot (heq ▸ hlevel')
  obtain ⟨front, back, rfl⟩ := List.append_of_mem hlevel
  obtain ⟨hfront, hback, hdisjoint⟩ := List.nodup_append.mp hlevels
  have hbefore : level ∉ front := fun hmem => hdisjoint level hmem level List.mem_cons_self rfl
  have hafter : level ∉ back := (List.nodup_cons.mp hback).1
  rw [List.flatMap_append, List.flatMap_cons]
  unfold runsAt at hothers ⊢
  rw [List.filter_append, List.filter_append, hothers hbefore, hothers hafter, List.append_nil]
  exact runsAt_self

/-- **The latency runs of a campaign.** -/
theorem runsAt_latency :
    runsAt latencyWorkload latencyMaxInFlight
        (generateCampaignSchedule random seed blocks levels workloads) =
      if latencyWorkload ∈ workloads then
        generateWorkloadSchedule random latencyWorkload latencyMaxInFlight seed blocks else [] := by
  have hne : throughputWorkload ≠ latencyWorkload := by decide
  have hthroughput : runsAt latencyWorkload latencyMaxInFlight
      (if throughputWorkload ∈ workloads then
        levels.flatMap fun level => generateWorkloadSchedule random throughputWorkload level seed
          blocks else []) = [] := by
    split_ifs
    · unfold runsAt
      rw [List.filter_flatMap, List.flatMap_eq_nil_iff]
      exact fun level _ => runsAt_of_ne fun heq => absurd heq hne
    · rfl
  unfold generateCampaignSchedule
  unfold runsAt at hthroughput ⊢
  rw [List.filter_append, hthroughput, List.append_nil]
  split_ifs
  · exact runsAt_self
  · rfl

/-- **The throughput runs of a level.** -/
theorem runsAt_throughput (h : throughputWorkload ∈ workloads) (hlevels : levels.Nodup) {level : ℤ}
    (hlevel : level ∈ levels) :
    runsAt throughputWorkload level
        (generateCampaignSchedule random seed blocks levels workloads) =
      generateWorkloadSchedule random throughputWorkload level seed blocks := by
  have hne : latencyWorkload ≠ throughputWorkload := by decide
  have hlatency : runsAt throughputWorkload level
      (if latencyWorkload ∈ workloads then
        generateWorkloadSchedule random latencyWorkload latencyMaxInFlight seed blocks else []) =
        [] := by
    split_ifs
    · exact runsAt_of_ne fun heq => absurd heq hne
    · rfl
  unfold generateCampaignSchedule
  rw [if_pos h]
  have hthroughput :=
    @runsAt_flatMap random throughputWorkload seed blocks levels hlevels level hlevel
  unfold runsAt at hlatency hthroughput ⊢
  rw [List.filter_append, hlatency, List.nil_append, hthroughput]

/-- The blocks that lead with the local run. -/
def localFirstBlocks (schedule : List ScheduledRun) : ℕ :=
  schedule.countP fun run => run.withinBlockOrder = 1 ∧ run.topology = topologyLocal

theorem localFirstBlocks_block (entry : Bool × ℕ) :
    localFirstBlocks (block workload concurrency entry.1 entry.2) = if entry.1 then 1 else 0 := by
  obtain ⟨localFirst, index⟩ := entry
  cases localFirst <;> rfl

/-- **Half of the blocks lead with the local run**, whatever the shuffle does. -/
theorem localFirstBlocks_generate :
    localFirstBlocks (generateWorkloadSchedule random workload concurrency seed blocks) =
      blocks / 2 := by
  have hcount : ∀ entries : List (Bool × ℕ),
      localFirstBlocks (entries.flatMap fun entry => block workload concurrency entry.1 entry.2) =
        (entries.map Prod.fst).count true := by
    intro entries
    induction entries with
    | nil => rfl
    | cons entry entries ih =>
      have happend : ∀ runs rest, localFirstBlocks (runs ++ rest) =
          localFirstBlocks runs + localFirstBlocks rest := fun _ _ => List.countP_append
      rw [List.flatMap_cons, happend, ih, localFirstBlocks_block, List.map_cons, List.count_cons,
        Nat.add_comm]
      cases entry.1 <;> rfl
  unfold generateWorkloadSchedule
  rw [hcount, List.zipIdx_map_fst, counterbalancedOrders,
    (random.perm _ _).count_eq, List.count_append, List.count_replicate_self,
    List.count_replicate]
  exact Nat.add_zero _

end Benchmark
end FederatedMessaging
