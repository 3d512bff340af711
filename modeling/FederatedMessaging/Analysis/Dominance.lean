import FederatedMessaging.Analysis.PointEstimates
import FederatedMessaging.Foundations.SortedSamples

/-!
# The paired bootstrap respects dominance

A replicate of the paired bootstrap draws blocks and keeps both runs of every block it
draws.  So where the federated run of every block is at least as slow as the local one,
interaction by interaction, it is so in every replicate, and no replicate can report that
federation is faster.

## 1.  Statistics by rank

`percentile` and `median` are monotone in a sorted sample, entry by entry, and both ends
of an interval are values of the sample it is of.

## 2.  Replicates

`latencyReplicates` and `throughputReplicates` are the pairs of values, local and
federated, that the two bootstraps collect.  The pools of a replicate are concatenations
of the blocks drawn, sorted; concatenation, selection and sorting keep domination
(`FederatedMessaging.SortedSamples`), because both topologies are drawn with one index
sequence.

## 3.  Intervals

A ratio is only kept where the local value is not zero, and is at least one where that
value is positive.  Observed throughputs are never negative; round-trip times are not
where no interaction completes before it starts.
-/

namespace FederatedMessaging
namespace Analysis

open PythonText SortedSamples

/-! ## 1.  Statistics by rank -/

/-- The nearest rank depends on the length of the sample only. -/
theorem percentile_mono {l m : List ℚ} (h : List.Forall₂ (· ≤ ·) l m) {q lo : ℚ}
    (hlo : percentile l q = some lo) : ∃ fe, percentile m q = some fe ∧ lo ≤ fe := by
  unfold percentile at hlo ⊢
  have hlength := h.length_eq
  by_cases hl : l = []
  · rw [if_pos hl] at hlo
    cases hlo
  · have hm : m ≠ [] := by
      rintro rfl
      exact hl (List.length_eq_zero_iff.mp hlength)
    rw [if_neg hl] at hlo
    rw [if_neg hm, ← hlength]
    exact exists_getElem?_of_forall₂ h hlo

/-- The median is monotone in the sample. -/
theorem median_mono {l m : List ℚ} (h : List.Forall₂ (· ≤ ·) l m) {lo : ℚ}
    (hlo : median l = some lo) : ∃ fe, median m = some fe ∧ lo ≤ fe := by
  have hsorted : List.Forall₂ (· ≤ ·) (sortedValues l) (sortedValues m) :=
    forall₂_insertionSort h
  have hlength := hsorted.length_eq
  unfold median at hlo ⊢
  dsimp only at hlo ⊢
  by_cases hl : sortedValues l = []
  · rw [if_pos hl] at hlo
    cases hlo
  · have hm : sortedValues m ≠ [] := by
      intro hnil
      rw [hnil] at hlength
      exact hl (List.length_eq_zero_iff.mp hlength)
    rw [if_neg hl] at hlo
    rw [if_neg hm, ← hlength]
    split at hlo
    · rename_i hodd
      rw [if_pos hodd]
      exact exists_getElem?_of_forall₂ hsorted hlo
    · rename_i heven
      rw [if_neg heven]
      obtain ⟨below, hbelow, hlo⟩ := Option.bind_eq_some_iff.mp hlo
      obtain ⟨above, habove, hlo⟩ := Option.bind_eq_some_iff.mp hlo
      obtain ⟨below', hbelow', hleBelow⟩ := exists_getElem?_of_forall₂ hsorted hbelow
      obtain ⟨above', habove', hleAbove⟩ := exists_getElem?_of_forall₂ hsorted habove
      obtain rfl := Option.some_inj.mp hlo
      refine ⟨(below' + above') / 2, ?_, ?_⟩
      · rw [hbelow', habove']
        rfl
      · exact div_le_div_of_nonneg_right (add_le_add hleBelow hleAbove) (by norm_num)

/-- A percentile is a value of the sample. -/
theorem mem_of_percentile {l : List ℚ} {q v : ℚ} (h : percentile l q = some v) : v ∈ l := by
  unfold percentile at h
  split at h
  · cases h
  · exact List.mem_of_getElem? h

/-- The low end of an interval is a value of the sample. -/
theorem mem_of_low {values : List ℚ} {confidence low : ℚ}
    (h : (confidenceInterval values confidence).low = some low) : low ∈ values :=
  (List.mem_insertionSort _).mp (mem_of_percentile h)

/-! ## 2.  Replicates -/

/-- The replicates of `paired_bootstrap_latency` for one quantile, as pairs of the local
and the federated value. -/
def latencyReplicates (draws : List (List ℕ)) (localSorted federatedSorted : List (List ℚ))
    (q : ℚ) : List (ℚ × ℚ) :=
  draws.filterMap fun indices => do
    let lo ← percentile (pooled (drawn localSorted indices)) q
    let fe ← percentile (pooled (drawn federatedSorted indices)) q
    some (lo, fe)

/-- The replicates of `paired_bootstrap_throughput`. -/
def throughputReplicates (draws : List (List ℕ)) (usable : List (ℚ × ℚ)) : List (ℚ × ℚ) :=
  draws.filterMap fun indices => do
    let lo ← median ((drawn usable indices).map Prod.fst)
    let fe ← median ((drawn usable indices).map Prod.snd)
    some (lo, fe)

/-- The intervals reported for a percentile are those of its replicates, converted. -/
theorem percentileEstimate_intervals (confidence : ℚ) (draws : List (List ℕ))
    (localSorted federatedSorted : List (List ℚ)) (q : ℚ) :
    let stats := ReplicateStats.ofPairs (latencyReplicates draws localSorted federatedSorted q)
    let estimate := percentileEstimate confidence draws localSorted federatedSorted q
    estimate.differenceCiMs = (confidenceInterval stats.differences confidence).map nsToMs ∧
      estimate.ratioCi = roundInterval (confidenceInterval stats.ratios confidence) :=
  ⟨rfl, rfl⟩

/-- The intervals reported for the throughput are those of its replicates, rounded. -/
theorem pairedBootstrapThroughput_intervals {confidence : ℚ} {draws : List (List ℕ)}
    {blocks : List PairedBlock} {b : ThroughputBootstrap}
    (h : pairedBootstrapThroughput confidence draws blocks = some b) :
    let stats := ReplicateStats.ofPairs
      (throughputReplicates draws (blocks.filterMap PairedBlock.throughputs))
    b.differenceCi = roundInterval (confidenceInterval stats.differences confidence) ∧
      b.ratioCi = roundInterval (confidenceInterval stats.ratios confidence) := by
  obtain ⟨pointLocal, -, h⟩ := Option.bind_eq_some_iff.mp h
  obtain ⟨pointFederated, -, h⟩ := Option.bind_eq_some_iff.mp h
  obtain rfl := Option.some_inj.mp h
  exact ⟨rfl, rfl⟩

/-- A replicate's pools keep what the blocks have. -/
theorem pooled_drawn_mono {l m : List (List ℚ)}
    (h : List.Forall₂ (List.Forall₂ (· ≤ ·)) l m) (indices : List ℕ) :
    List.Forall₂ (· ≤ ·) (pooled (drawn l indices)) (pooled (drawn m indices)) :=
  forall₂_insertionSort (List.rel_flatten (forall₂_filterMap_getElem? h indices))

/-- **Every latency replicate respects dominance.** -/
theorem latencyReplicates_mono {draws : List (List ℕ)} {localSorted federatedSorted : List (List ℚ)}
    (h : List.Forall₂ (List.Forall₂ (· ≤ ·)) localSorted federatedSorted) {q : ℚ}
    {pair : ℚ × ℚ} (hpair : pair ∈ latencyReplicates draws localSorted federatedSorted q) :
    pair.1 ≤ pair.2 := by
  obtain ⟨indices, -, hpair⟩ := List.mem_filterMap.mp hpair
  obtain ⟨lo, hlo, hpair⟩ := Option.bind_eq_some_iff.mp hpair
  obtain ⟨fe, hfe, hpair⟩ := Option.bind_eq_some_iff.mp hpair
  obtain rfl := Option.some_inj.mp hpair
  obtain ⟨fe', hfe', hle⟩ := percentile_mono (pooled_drawn_mono h indices) hlo
  rwa [← Option.some_inj.mp (hfe.symm.trans hfe')] at hle

/-- The local value of a latency replicate is a value of a block. -/
theorem fst_mem_of_latencyReplicates {draws : List (List ℕ)}
    {localSorted federatedSorted : List (List ℚ)} {q : ℚ} {pair : ℚ × ℚ}
    (hpair : pair ∈ latencyReplicates draws localSorted federatedSorted q) :
    ∃ values ∈ localSorted, pair.1 ∈ values := by
  obtain ⟨indices, -, hpair⟩ := List.mem_filterMap.mp hpair
  obtain ⟨lo, hlo, hpair⟩ := Option.bind_eq_some_iff.mp hpair
  obtain ⟨fe, -, hpair⟩ := Option.bind_eq_some_iff.mp hpair
  obtain rfl := Option.some_inj.mp hpair
  have hmem := (List.mem_insertionSort _).mp (mem_of_percentile hlo)
  obtain ⟨values, hvalues, hin⟩ := List.mem_flatten.mp hmem
  obtain ⟨i, -, hi⟩ := List.mem_filterMap.mp hvalues
  exact ⟨values, List.mem_of_getElem? hi, hin⟩

/-- **Every throughput replicate respects dominance.** -/
theorem throughputReplicates_mono {draws : List (List ℕ)} {usable : List (ℚ × ℚ)}
    (h : ∀ pair ∈ usable, pair.1 ≤ pair.2) {pair : ℚ × ℚ}
    (hpair : pair ∈ throughputReplicates draws usable) : pair.1 ≤ pair.2 := by
  obtain ⟨indices, -, hpair⟩ := List.mem_filterMap.mp hpair
  obtain ⟨lo, hlo, hpair⟩ := Option.bind_eq_some_iff.mp hpair
  obtain ⟨fe, hfe, hpair⟩ := Option.bind_eq_some_iff.mp hpair
  obtain rfl := Option.some_inj.mp hpair
  have hdrawn : List.Forall₂ (· ≤ ·) ((drawn usable indices).map Prod.fst)
      ((drawn usable indices).map Prod.snd) := by
    rw [List.forall₂_map_left_iff, List.forall₂_map_right_iff, List.forall₂_same]
    intro pair hmem
    obtain ⟨i, -, hi⟩ := List.mem_filterMap.mp hmem
    exact h pair (List.mem_of_getElem? hi)
  obtain ⟨fe', hfe', hle⟩ := median_mono hdrawn hlo
  rwa [← Option.some_inj.mp (hfe.symm.trans hfe')] at hle

/-- A median of values that are not negative is not negative. -/
theorem median_nonneg {l : List ℚ} (h : ∀ v ∈ l, 0 ≤ v) {m : ℚ} (hm : median l = some m) :
    0 ≤ m := by
  have hsorted : ∀ {i : ℕ} {v : ℚ}, (sortedValues l)[i]? = some v → 0 ≤ v := fun hv =>
    h _ ((List.mem_insertionSort _).mp (List.mem_of_getElem? hv))
  unfold median at hm
  dsimp only at hm
  split at hm
  · cases hm
  · split at hm
    · exact hsorted hm
    · obtain ⟨below, hbelow, hm⟩ := Option.bind_eq_some_iff.mp hm
      obtain ⟨above, habove, hm⟩ := Option.bind_eq_some_iff.mp hm
      obtain rfl := Option.some_inj.mp hm
      exact div_nonneg (add_nonneg (hsorted hbelow) (hsorted habove)) (by norm_num)

/-- An observed throughput is not negative. -/
theorem observedThroughput_nonneg {run : RunRecords} {v : ℚ}
    (h : run.observedThroughput = some v) : 0 ≤ v := by
  unfold RunRecords.observedThroughput at h
  split at h
  · split at h
    · cases h
    · rename_i windowStart windowEnd _ _ hlt
      obtain rfl := Option.some_inj.mp h
      have hpos : (0 : ℚ) ≤ ((windowEnd - windowStart : ℤ) : ℚ) := by
        exact_mod_cast Int.sub_nonneg_of_le (not_le.mp hlt).le
      positivity
  · cases h

/-- The local value of a throughput replicate is not negative. -/
theorem fst_nonneg_of_throughputReplicates {draws : List (List ℕ)} {usable : List (ℚ × ℚ)}
    (h : ∀ pair ∈ usable, 0 ≤ pair.1) {pair : ℚ × ℚ}
    (hpair : pair ∈ throughputReplicates draws usable) : 0 ≤ pair.1 := by
  obtain ⟨indices, -, hpair⟩ := List.mem_filterMap.mp hpair
  obtain ⟨lo, hlo, hpair⟩ := Option.bind_eq_some_iff.mp hpair
  obtain ⟨fe, -, hpair⟩ := Option.bind_eq_some_iff.mp hpair
  obtain rfl := Option.some_inj.mp hpair
  refine median_nonneg (fun v hv => ?_) hlo
  obtain ⟨pair, hmem, rfl⟩ := List.mem_map.mp hv
  obtain ⟨i, -, hi⟩ := List.mem_filterMap.mp hmem
  exact h pair (List.mem_of_getElem? hi)

theorem PairedBlock.fst_nonneg_of_throughputs {block : PairedBlock} {pair : ℚ × ℚ}
    (h : block.throughputs = some pair) : 0 ≤ pair.1 := by
  obtain ⟨lo, hlo, h⟩ := Option.bind_eq_some_iff.mp h
  obtain ⟨fe, -, h⟩ := Option.bind_eq_some_iff.mp h
  obtain rfl := Option.some_inj.mp h
  exact observedThroughput_nonneg hlo

/-! ## 3.  Intervals -/

section Pairs

variable {pairs : List (ℚ × ℚ)}

theorem differences_nonneg (h : ∀ pair ∈ pairs, pair.1 ≤ pair.2) :
    ∀ difference ∈ (ReplicateStats.ofPairs pairs).differences, 0 ≤ difference := by
  intro difference hdifference
  obtain ⟨pair, hpair, rfl⟩ := List.mem_map.mp hdifference
  exact sub_nonneg.mpr (h pair hpair)

theorem one_le_ratio (h : ∀ pair ∈ pairs, pair.1 ≤ pair.2) :
    ∀ pair ∈ pairs, 0 < pair.1 → 1 ≤ pair.2 / pair.1 :=
  fun pair hpair hpos => (one_le_div hpos).mpr (h pair hpair)

theorem one_le_of_mem_ratios (h : ∀ pair ∈ pairs, pair.1 ≤ pair.2)
    (hlocal : ∀ pair ∈ pairs, 0 ≤ pair.1) :
    ∀ ratio ∈ (ReplicateStats.ofPairs pairs).ratios, 1 ≤ ratio := by
  intro ratio hratio
  obtain ⟨pair, hpair, hratio⟩ := List.mem_filterMap.mp hratio
  split at hratio
  · rename_i hne
    obtain rfl := Option.some_inj.mp hratio
    exact one_le_ratio h pair hpair (lt_of_le_of_ne (hlocal pair hpair) (Ne.symm hne))
  · cases hratio

end Pairs

/-- **What dominance asks of the replicates of a bootstrap**: no difference is negative
and no ratio to a positive local value is below one, and the intervals stay there. -/
structure RespectsDominance (confidence : ℚ) (pairs : List (ℚ × ℚ)) : Prop where
  differences : ∀ pair ∈ pairs, 0 ≤ pair.2 - pair.1
  ratios : ∀ pair ∈ pairs, 0 < pair.1 → 1 ≤ pair.2 / pair.1
  differenceInterval : ∀ low,
    (confidenceInterval (ReplicateStats.ofPairs pairs).differences confidence).low = some low →
      0 ≤ low
  ratioInterval : (∀ pair ∈ pairs, 0 ≤ pair.1) → ∀ low,
    (confidenceInterval (ReplicateStats.ofPairs pairs).ratios confidence).low = some low → 1 ≤ low

theorem respectsDominance_of_mono {confidence : ℚ} {pairs : List (ℚ × ℚ)}
    (h : ∀ pair ∈ pairs, pair.1 ≤ pair.2) : RespectsDominance confidence pairs where
  differences pair hpair := sub_nonneg.mpr (h pair hpair)
  ratios := one_le_ratio h
  differenceInterval low hlow := differences_nonneg h low (mem_of_low hlow)
  ratioInterval hlocal low hlow := one_le_of_mem_ratios h hlocal low (mem_of_low hlow)

/-- **The paired bootstrap respects dominance**, whatever is drawn.  For every quantile of
the round-trip times, and for the throughput, where the federated side of every block
dominates, no replicate has a negative difference or a ratio below one, and neither
interval reaches below zero or one.  The intervals reported are these, rounded
(`percentileEstimate_intervals`, `pairedBootstrapThroughput_intervals`). -/
theorem bootstrap_respectsDominance (confidence : ℚ) (draws : List (List ℕ))
    (blocks : List PairedBlock) :
    ((∀ block ∈ blocks,
        List.Forall₂ (· ≤ ·) block.localRun.rttsNs block.federatedRun.rttsNs) →
      ∀ q,
        let pairs := latencyReplicates draws (blocks.map fun block => block.localRun.rttsNs)
          (blocks.map fun block => block.federatedRun.rttsNs) q
        RespectsDominance confidence pairs ∧
          ((∀ block ∈ blocks, ∀ rtt ∈ block.localRun.rttsNs, 0 ≤ rtt) → ∀ low,
            (confidenceInterval (ReplicateStats.ofPairs pairs).ratios confidence).low = some low →
              1 ≤ low)) ∧
    ((∀ block ∈ blocks, ∀ lo fe, block.throughputs = some (lo, fe) → lo ≤ fe) →
      let pairs := throughputReplicates draws (blocks.filterMap PairedBlock.throughputs)
      RespectsDominance confidence pairs ∧
        ∀ low,
          (confidenceInterval (ReplicateStats.ofPairs pairs).ratios confidence).low = some low →
            1 ≤ low) := by
  constructor
  · intro hdominates q
    have hblocks : List.Forall₂ (List.Forall₂ (· ≤ ·))
        (blocks.map fun block => block.localRun.rttsNs)
        (blocks.map fun block => block.federatedRun.rttsNs) := by
      rw [List.forall₂_map_left_iff, List.forall₂_map_right_iff, List.forall₂_same]
      exact hdominates
    have hmono : ∀ pair ∈ latencyReplicates draws _ _ q, pair.1 ≤ pair.2 := fun _ hpair =>
      latencyReplicates_mono hblocks hpair
    have hrespects := @respectsDominance_of_mono confidence _ hmono
    refine ⟨hrespects, fun hlocal => hrespects.ratioInterval fun pair hpair => ?_⟩
    obtain ⟨values, hvalues, hmem⟩ := fst_mem_of_latencyReplicates hpair
    obtain ⟨block, hblock, rfl⟩ := List.mem_map.mp hvalues
    exact hlocal block hblock _ hmem
  · intro hdominates
    have husable : ∀ pair ∈ blocks.filterMap PairedBlock.throughputs,
        pair.1 ≤ pair.2 ∧ 0 ≤ pair.1 := by
      intro pair hpair
      obtain ⟨block, hblock, hthroughputs⟩ := List.mem_filterMap.mp hpair
      exact ⟨hdominates block hblock _ _ hthroughputs,
        PairedBlock.fst_nonneg_of_throughputs hthroughputs⟩
    have hmono : ∀ pair ∈ throughputReplicates draws _, pair.1 ≤ pair.2 := fun _ hpair =>
      throughputReplicates_mono (fun pair hmem => (husable pair hmem).1) hpair
    have hrespects := @respectsDominance_of_mono confidence _ hmono
    exact ⟨hrespects, hrespects.ratioInterval fun pair hpair =>
      fst_nonneg_of_throughputReplicates (fun pair hmem => (husable pair hmem).2) hpair⟩

/-- A block whose federated interaction took nine milliseconds and whose local one four,
drawn twice. -/
theorem fourRuns_respectsDominance :
    RespectsDominance e3BootstrapConfidence
      (latencyReplicates [[0], [0]]
        ((pairBlocks (latencyRuns fourRuns)).map fun block => block.localRun.rttsNs)
        ((pairBlocks (latencyRuns fourRuns)).map fun block => block.federatedRun.rttsNs)
        (95 / 100)) ∧
    RespectsDominance e3BootstrapConfidence
      (throughputReplicates [[0], [0]]
        ((pairBlocks (levelRuns fourRuns 8)).filterMap PairedBlock.throughputs)) := by
  refine ⟨((bootstrap_respectsDominance e3BootstrapConfidence [[0], [0]]
      (pairBlocks (latencyRuns fourRuns))).1 (by decide +kernel) (95 / 100)).1,
    ((bootstrap_respectsDominance e3BootstrapConfidence [[0], [0]]
      (pairBlocks (levelRuns fourRuns 8))).2 ?_).1⟩
  have hequal : ∀ block ∈ pairBlocks (levelRuns fourRuns 8), block.throughputs = some (0, 0) := by
    decide +kernel
  intro block hblock lo fe h
  obtain ⟨rfl, rfl⟩ := Prod.mk.inj (Option.some_inj.mp (h.symm.trans (hequal block hblock)))
  exact le_refl 0

end Analysis
end FederatedMessaging
