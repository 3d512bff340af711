import FederatedMessaging.Analysis.PointEstimates

/-!
# Pairing is a partition

`pair_blocks` and `incomplete_blocks` of `fam.analysis.e3` group the same runs by
different rules: the first skips an invalid run before it groups, the second keeps the
block of an invalid run and only does not count its topology.  What one reports as a
block and the other as a drop has to fit all the same.

## 1.  Who is paired and who is dropped

A block is paired when it has a valid run under both topologies, and dropped when it has
a run and the topologies of its valid runs are not those two
(`mem_pairedIds`, `mem_incompleteBlocks`).  Under the two topologies only, one is the
negation of the other.

## 2.  The order of the runs

Where no block has two valid runs under one topology, which run is filed does not depend
on the order (`filedRun_eq_of_perm`).  Both results are sorted by block, and a block
occurs once, so they do not either.
-/

namespace FederatedMessaging
namespace Analysis

open PythonText

/-! ## 1.  Who is paired and who is dropped -/

/-- No block has two valid runs under one topology. -/
def OneValidEach (runs : List RunRecords) : Prop :=
  ∀ blockId topology, runs.countP (·.isOf blockId topology) ≤ 1

section Runs

variable {runs : List RunRecords}

/-- A run is filed under a block and topology that have a valid run. -/
theorem isSome_filedRun_iff {blockId topology : Text} :
    (filedRun (groupRuns runs) blockId topology).isSome = true ↔
      ∃ run ∈ runs, run.isOf blockId topology = true := by
  rw [filedRun_groupRuns, List.getLast?_isSome]
  constructor
  · intro hne
    obtain ⟨run, hrun⟩ := List.exists_mem_of_ne_nil _ hne
    exact ⟨run, List.mem_filter.mp hrun⟩
  · rintro ⟨run, hrun⟩
    exact List.ne_nil_of_mem (List.mem_filter.mpr hrun)

/-- The blocks of the comparison are those with a valid run under both topologies. -/
theorem mem_pairedIds {blockId : Text} :
    blockId ∈ (pairBlocks runs).map PairedBlock.blockId ↔
      (∃ run ∈ runs, run.isOf blockId topologyLocal = true) ∧
        ∃ run ∈ runs, run.isOf blockId topologyFederated = true := by
  rw [← isSome_filedRun_iff, ← isSome_filedRun_iff, List.mem_map]
  constructor
  · rintro ⟨block, hblock, rfl⟩
    obtain ⟨hlocal, hfederated⟩ := mem_pairBlocks.mp hblock
    rw [hlocal, hfederated]
    exact ⟨rfl, rfl⟩
  · rintro ⟨hlocal, hfederated⟩
    obtain ⟨localRun, hlocal⟩ := Option.isSome_iff_exists.mp hlocal
    obtain ⟨federatedRun, hfederated⟩ := Option.isSome_iff_exists.mp hfederated
    exact ⟨⟨blockId, localRun, federatedRun⟩, mem_pairBlocks.mpr ⟨hlocal, hfederated⟩, rfl⟩

/-- The drops are the blocks whose valid runs are not under the two topologies. -/
theorem mem_incompleteBlocks {blockId : Text} :
    blockId ∈ incompleteBlocks runs ↔ (∃ run ∈ runs, run.blockId = blockId) ∧
      ¬ ∀ topology, (∃ run ∈ runs, run.isOf blockId topology = true) ↔
        topology = topologyLocal ∨ topology = topologyFederated := by
  have hset : ∀ topologies, (blockId, topologies) ∈ (groupTopologies runs).entries →
      (topologies = {topologyLocal, topologyFederated} ↔
        ∀ topology, (∃ run ∈ runs, run.isOf blockId topology = true) ↔
          topology = topologyLocal ∨ topology = topologyFederated) := by
    intro topologies hentry
    rw [Finset.ext_iff]
    refine forall_congr' fun topology => ?_
    rw [← mem_getD_groupTopologies, OrderedDict.get?_of_mem hentry, Option.getD_some,
      Finset.mem_insert, Finset.mem_singleton]
  rw [incompleteBlocks, List.mem_insertionSort, List.mem_map, ← mem_keys_groupTopologies]
  constructor
  · rintro ⟨⟨id, topologies⟩, hentry, rfl⟩
    rw [List.mem_filter, decide_eq_true_eq] at hentry
    exact ⟨List.mem_map_of_mem hentry.1, mt (hset topologies hentry.1).mpr hentry.2⟩
  · rintro ⟨hkey, hnot⟩
    obtain ⟨⟨id, topologies⟩, hentry, rfl⟩ := List.mem_map.mp hkey
    refine ⟨(id, topologies), List.mem_filter.mpr ⟨hentry, decide_eq_true ?_⟩, rfl⟩
    exact mt (hset topologies hentry).mp hnot

/-- Under the two topologies only, a block is complete when it has a valid run under
both. -/
theorem complete_iff
    (htopology : ∀ run ∈ runs,
      run.topology = topologyLocal ∨ run.topology = topologyFederated) {blockId : Text} :
    (∀ topology, (∃ run ∈ runs, run.isOf blockId topology = true) ↔
        topology = topologyLocal ∨ topology = topologyFederated) ↔
      (∃ run ∈ runs, run.isOf blockId topologyLocal = true) ∧
        ∃ run ∈ runs, run.isOf blockId topologyFederated = true := by
  constructor
  · intro h
    exact ⟨(h topologyLocal).mpr (Or.inl rfl), (h topologyFederated).mpr (Or.inr rfl)⟩
  · rintro ⟨hlocal, hfederated⟩ topology
    constructor
    · rintro ⟨run, hrun, hof⟩
      rw [← (isOf_iff.mp hof).2.2]
      exact htopology run hrun
    · rintro (rfl | rfl)
      · exact hlocal
      · exact hfederated

/-- **The blocks of the runs fall into the paired and the dropped.** -/
theorem partition
    (htopology : ∀ run ∈ runs,
      run.topology = topologyLocal ∨ run.topology = topologyFederated) (blockId : Text) :
    (∃ run ∈ runs, run.blockId = blockId) ↔
      Xor (blockId ∈ (pairBlocks runs).map PairedBlock.blockId)
        (blockId ∈ incompleteBlocks runs) := by
  rw [mem_pairedIds, mem_incompleteBlocks, complete_iff htopology]
  constructor
  · intro hrun
    by_cases hboth : (∃ run ∈ runs, run.isOf blockId topologyLocal = true) ∧
        ∃ run ∈ runs, run.isOf blockId topologyFederated = true
    · exact Or.inl ⟨hboth, fun h => h.2 hboth⟩
    · exact Or.inr ⟨⟨hrun, hboth⟩, hboth⟩
  · rintro (⟨⟨⟨run, hrun, hof⟩, -⟩, -⟩ | ⟨⟨hrun, -⟩, -⟩)
    · exact ⟨run, hrun, (isOf_iff.mp hof).2.1⟩
    · exact hrun

/-! ## 2.  The order of the runs -/

/-- Which run is filed does not depend on the order, if there is only one to file. -/
theorem filedRun_eq_of_perm {runs' : List RunRecords} (hperm : runs.Perm runs')
    (hone : OneValidEach runs) (blockId topology : Text) :
    filedRun (groupRuns runs') blockId topology = filedRun (groupRuns runs) blockId topology := by
  have hfilter := hperm.filter (·.isOf blockId topology)
  have hle := hone blockId topology
  rw [List.countP_eq_length_filter] at hle
  rw [filedRun_groupRuns, filedRun_groupRuns]
  match hruns : runs.filter (·.isOf blockId topology) with
  | [] =>
    rw [hruns] at hfilter ⊢
    rw [List.nil_perm.mp hfilter]
  | [run] =>
    rw [hruns] at hfilter ⊢
    rw [← List.singleton_perm.mp hfilter]
  | first :: second :: rest =>
    rw [hruns] at hle
    simp at hle

/-- The blocks are in the order of their ids. -/
theorem pairwise_pairBlocks (runs : List RunRecords) :
    (pairBlocks runs).Pairwise fun x y => x.blockId ≤ y.blockId := by
  have hsorted : ((groupRuns runs).entries.insertionSort fun x y => x.1 ≤ y.1).Pairwise
      fun x y => x.1 ≤ y.1 := by
    have : Std.Total fun x y : Text × OrderedDict Text RunRecords => x.1 ≤ y.1 :=
      ⟨fun x y => le_total x.1 y.1⟩
    have : IsTrans _ fun x y : Text × OrderedDict Text RunRecords => x.1 ≤ y.1 :=
      ⟨fun _ _ _ => le_trans⟩
    exact List.pairwise_insertionSort _ _
  refine hsorted.filterMap _ fun entry entry' hle block hblock block' hblock' => ?_
  split at hblock
  · split at hblock'
    · rw [← Option.some_inj.mp hblock, ← Option.some_inj.mp hblock']
      exact hle
    · cases hblock'
  · cases hblock

/-- The comparison does not depend on the order of the runs. -/
theorem pairBlocks_eq_of_perm {runs' : List RunRecords} (hperm : runs.Perm runs')
    (hone : OneValidEach runs) : pairBlocks runs' = pairBlocks runs := by
  have hmem : ∀ block, block ∈ pairBlocks runs' ↔ block ∈ pairBlocks runs := by
    intro block
    rw [mem_pairBlocks, mem_pairBlocks, filedRun_eq_of_perm hperm hone,
      filedRun_eq_of_perm hperm hone]
  have hsame : (pairBlocks runs').Perm (pairBlocks runs) :=
    (List.perm_ext_iff_of_nodup (nodup_blockIds runs').of_map (nodup_blockIds runs).of_map).mpr hmem
  refine hsame.eq_of_pairwise ?_ (pairwise_pairBlocks runs') (pairwise_pairBlocks runs)
  intro block block' hblock hblock' hle hge
  exact List.inj_on_of_nodup_map (nodup_blockIds runs) ((hmem block).mp hblock) hblock'
    (le_antisymm hle hge)

theorem nodup_incompleteBlocks (runs : List RunRecords) : (incompleteBlocks runs).Nodup := by
  refine (List.perm_insertionSort _ _).nodup_iff.mpr ?_
  exact (groupTopologies runs).nodup.sublist (List.filter_sublist.map Prod.fst)

/-- The drops do not depend on the order of the runs. -/
theorem incompleteBlocks_eq_of_perm {runs' : List RunRecords} (hperm : runs.Perm runs') :
    incompleteBlocks runs' = incompleteBlocks runs := by
  have hmem : ∀ blockId, blockId ∈ incompleteBlocks runs' ↔ blockId ∈ incompleteBlocks runs := by
    intro blockId
    simp only [mem_incompleteBlocks, hperm.mem_iff]
  have hsame : (incompleteBlocks runs').Perm (incompleteBlocks runs) :=
    (List.perm_ext_iff_of_nodup (nodup_incompleteBlocks runs') (nodup_incompleteBlocks runs)).mpr
      hmem
  exact hsame.eq_of_pairwise (fun _ _ _ _ => le_antisymm) (List.pairwise_insertionSort _ _)
    (List.pairwise_insertionSort _ _)

end Runs

/-- **Pairing is a partition.**  Of the blocks of runs under the two topologies each is
paired or reported as dropped, and not both; a paired block holds a valid run of its own
under either topology; and without repeated valid runs nothing depends on the order. -/
theorem pairing_partition (runs : List RunRecords)
    (htopology : ∀ run ∈ runs,
      run.topology = topologyLocal ∨ run.topology = topologyFederated) :
    (∀ blockId, (∃ run ∈ runs, run.blockId = blockId) ↔
      Xor (blockId ∈ (pairBlocks runs).map PairedBlock.blockId)
        (blockId ∈ incompleteBlocks runs)) ∧
    (∀ block ∈ pairBlocks runs,
      (block.localRun ∈ runs ∧ block.localRun.valid = true ∧
        block.localRun.blockId = block.blockId ∧ block.localRun.topology = topologyLocal) ∧
      (block.federatedRun ∈ runs ∧ block.federatedRun.valid = true ∧
        block.federatedRun.blockId = block.blockId ∧
        block.federatedRun.topology = topologyFederated)) ∧
    (OneValidEach runs → ∀ runs', runs.Perm runs' →
      pairBlocks runs' = pairBlocks runs ∧ incompleteBlocks runs' = incompleteBlocks runs ∧
      ∀ confidence draws,
        pairedBootstrapLatency confidence draws (pairBlocks runs') =
          pairedBootstrapLatency confidence draws (pairBlocks runs) ∧
        pairedBootstrapThroughput confidence draws (pairBlocks runs') =
          pairedBootstrapThroughput confidence draws (pairBlocks runs)) := by
  refine ⟨partition htopology, fun block hblock => ?_, fun hone runs' hperm => ?_⟩
  · obtain ⟨hlocal, hfederated⟩ := mem_pairBlocks.mp hblock
    exact ⟨mem_of_filedRun hlocal, mem_of_filedRun hfederated⟩
  · have hblocks := pairBlocks_eq_of_perm hperm hone
    refine ⟨hblocks, incompleteBlocks_eq_of_perm hperm, fun confidence draws => ?_⟩
    rw [hblocks]
    exact ⟨rfl, rfl⟩

/-- A block with a valid run under either topology, and the order of its runs. -/
theorem twoRuns_partition :
    pairBlocks [runOf latencyWorkload topologyFederated, runOf latencyWorkload topologyLocal] =
      pairBlocks [runOf latencyWorkload topologyLocal, runOf latencyWorkload topologyFederated] :=
  ((pairing_partition
      [runOf latencyWorkload topologyLocal, runOf latencyWorkload topologyFederated]
      (by decide)).2.2
    (fun blockId topology => countP_isOf_le_one (by decide) blockId topology) _
    (List.Perm.swap _ _ _)).1

end Analysis
end FederatedMessaging
