import FederatedMessaging.Analysis.Dominance

/-!
# The laws of the nearest rank

What every reported percentile, interval and median rests on: `percentile`, `_interval` and
`median` of `fam.analysis.e3`, with exact arithmetic.

## The rank

`percentile` takes `⌈q * n⌉` and keeps it between `1` and `n`.  For `q ≤ 1` the upper bound
does nothing, and the lower one only where `q` is zero; so the value at the rank is the first
one that `⌈q * n⌉` values do not exceed (`exists_percentile`).

## The median

It is a value of the sorted sample or the mean of two, so it lies between any two bounds of
the sample.
-/

namespace FederatedMessaging
namespace Analysis

open SortedSamples

/-! ## Percentiles -/

section Percentile

variable {xs : List ℚ} {q v : ℚ}

/-- The position that `percentile` reads. -/
theorem exists_position (hne : xs ≠ []) (q : ℚ) :
    ∃ i : ℕ, i < xs.length ∧ (i : ℤ) + 1 = min (max 1 ⌈q * xs.length⌉) xs.length ∧
      percentile xs q = xs[i]? := by
  have hlength : 0 < xs.length := List.length_pos_iff.mpr hne
  have hrank : 1 ≤ min (max 1 ⌈q * xs.length⌉) (xs.length : ℤ) :=
    le_min (le_max_left _ _) (by omega)
  have hle : min (max 1 ⌈q * xs.length⌉) (xs.length : ℤ) ≤ xs.length := min_le_right _ _
  refine ⟨(min (max 1 ⌈q * xs.length⌉) (xs.length : ℤ) - 1).toNat, by omega, by omega, ?_⟩
  rw [percentile, if_neg hne]

/-- What the nearest rank is to give at `q`. -/
structure NearestRank (xs : List ℚ) (q v : ℚ) : Prop where
  mem : v ∈ xs
  enough : ⌈q * xs.length⌉ ≤ ((xs.countP fun x => x ≤ v : ℕ) : ℤ)
  least : 0 < q → ∀ w ∈ xs, ⌈q * xs.length⌉ ≤ ((xs.countP fun x => x ≤ w : ℕ) : ℤ) → v ≤ w

/-- **The percentile of a sorted sample is its nearest rank.** -/
theorem exists_percentile (hne : xs ≠ []) (hsorted : xs.Pairwise (· ≤ ·)) (hq : q ≤ 1) :
    ∃ v, percentile xs q = some v ∧ NearestRank xs q v := by
  obtain ⟨i, hi, hrank, hpercentile⟩ := exists_position hne q
  have hv : xs[i]? = some xs[i] := List.getElem?_eq_getElem hi
  have hlength : (0 : ℚ) ≤ xs.length := Nat.cast_nonneg _
  have hceil : ⌈q * xs.length⌉ ≤ (xs.length : ℤ) :=
    Int.ceil_le.mpr (by simpa using mul_le_of_le_one_left hlength hq)
  refine ⟨xs[i], hpercentile.trans hv, List.getElem_mem hi, ?_, fun hpos w _ hcount => ?_⟩
  · have hcount := succ_le_countP_le hsorted hv
    omega
  · by_contra hlt
    have hcount' := countP_le_le hsorted hv (not_le.mp hlt)
    have hone : 1 ≤ ⌈q * xs.length⌉ := by
      refine Int.one_le_ceil_iff.mpr (mul_pos hpos ?_)
      exact_mod_cast List.length_pos_iff.mpr hne
    omega

/-- **A larger quantile is not smaller.** -/
theorem percentile_mono_left (hne : xs ≠ []) (hsorted : xs.Pairwise (· ≤ ·)) {q' : ℚ} (h : q ≤ q')
    (hv : percentile xs q = some v) : ∃ v', percentile xs q' = some v' ∧ v ≤ v' := by
  obtain ⟨i, hi, hrank, hi'⟩ := exists_position hne q
  obtain ⟨j, hj, hrank', hj'⟩ := exists_position hne q'
  have hlength : (0 : ℚ) ≤ xs.length := Nat.cast_nonneg _
  have hceil : ⌈q * xs.length⌉ ≤ ⌈q' * xs.length⌉ :=
    Int.ceil_le_ceil (mul_le_mul_of_nonneg_right h hlength)
  have hw : xs[j]? = some xs[j] := List.getElem?_eq_getElem hj
  refine ⟨xs[j], hj'.trans hw, le_of_getElem? hsorted (hi'.symm.trans hv) hw ?_⟩
  omega

end Percentile

/-- **The ends of an interval are in order.** -/
theorem exists_confidenceInterval {values : List ℚ} (hne : values ≠ []) {confidence : ℚ}
    (h : 0 ≤ confidence) :
    ∃ low high, confidenceInterval values confidence = ⟨some low, some high⟩ ∧ low ≤ high := by
  have hne' : sortedValues values ≠ [] := by
    intro hnil
    have hlength := List.length_insertionSort (· ≤ ·) values
    rw [show values.insertionSort (· ≤ ·) = [] from hnil] at hlength
    exact hne (List.length_eq_zero_iff.mp hlength.symm)
  have hsorted : (sortedValues values).Pairwise (· ≤ ·) := List.pairwise_insertionSort _ values
  obtain ⟨i, hi, -, hlow⟩ := exists_position hne' ((1 - confidence) / 2)
  rw [List.getElem?_eq_getElem hi] at hlow
  have htails : (1 - confidence) / 2 ≤ 1 - (1 - confidence) / 2 := by linarith
  obtain ⟨high, hhigh, hle⟩ := percentile_mono_left hne' hsorted htails hlow
  exact ⟨_, high, by rw [confidenceInterval, hlow, hhigh], hle⟩

/-! ## Medians -/

/-- A median is a value of the sample or the mean of two of them. -/
theorem median_eq {xs : List ℚ} (hne : xs ≠ []) :
    ∃ a ∈ xs, ∃ b ∈ xs, median xs = some ((a + b) / 2) := by
  have hlength : (sortedValues xs).length = xs.length := List.length_insertionSort _ xs
  have hpos : 0 < (sortedValues xs).length := hlength ▸ List.length_pos_iff.mpr hne
  have hmem : ∀ {i : ℕ} (hi : i < (sortedValues xs).length), (sortedValues xs)[i] ∈ xs :=
    fun hi => (List.mem_insertionSort _).mp (List.getElem_mem hi)
  have hmiddle : (sortedValues xs).length / 2 < (sortedValues xs).length :=
    Nat.div_lt_self hpos (by decide)
  unfold median
  dsimp only
  rw [if_neg (List.length_pos_iff.mp hpos)]
  split_ifs with hodd
  · refine ⟨_, hmem hmiddle, _, hmem hmiddle, ?_⟩
    rw [List.getElem?_eq_getElem hmiddle, add_self_div_two]
  · have hbelow : (sortedValues xs).length / 2 - 1 < (sortedValues xs).length :=
      (Nat.sub_le _ _).trans_lt hmiddle
    refine ⟨_, hmem hbelow, _, hmem hmiddle, ?_⟩
    rw [List.getElem?_eq_getElem hmiddle, List.getElem?_eq_getElem hbelow]
    rfl

/-- A sample has a least and a greatest value. -/
theorem exists_bounds {xs : List ℚ} (hne : xs ≠ []) :
    ∃ lo ∈ xs, ∃ hi ∈ xs, ∀ x ∈ xs, lo ≤ x ∧ x ≤ hi := by
  have hfinset : xs.toFinset.Nonempty := (List.toFinset_nonempty_iff xs).mpr hne
  refine ⟨_, List.mem_toFinset.mp (xs.toFinset.min'_mem hfinset), _,
    List.mem_toFinset.mp (xs.toFinset.max'_mem hfinset), fun x hx => ⟨?_, ?_⟩⟩
  · exact xs.toFinset.min'_le x (List.mem_toFinset.mpr hx)
  · exact xs.toFinset.le_max' x (List.mem_toFinset.mpr hx)

/-- **What the estimators owe to a sample that is not empty.** -/
structure EstimatorLaws (xs : List ℚ) : Prop where
  /-- in a sorted sample a percentile is the nearest rank, and it is monotone in the quantile
  and in the sample -/
  percentile : xs.Pairwise (· ≤ ·) → ∀ q, 0 ≤ q → q ≤ 1 →
    ∃ v, percentile xs q = some v ∧ NearestRank xs q v ∧
      (∀ q', q ≤ q' → q' ≤ 1 → ∃ v', Analysis.percentile xs q' = some v' ∧ v ≤ v') ∧
      ∀ ys, List.Forall₂ (· ≤ ·) xs ys → ∃ w, Analysis.percentile ys q = some w ∧ v ≤ w
  interval : ∀ confidence, 0 ≤ confidence →
    ∃ low high, confidenceInterval xs confidence = ⟨some low, some high⟩ ∧ low ≤ high
  median : ∃ m, median xs = some m ∧
    (∀ ys, ys.Perm xs → Analysis.median ys = some m) ∧
    (∀ ys, List.Forall₂ (· ≤ ·) xs ys → ∃ m', Analysis.median ys = some m' ∧ m ≤ m') ∧
    ∃ lo ∈ xs, ∃ hi ∈ xs, (∀ x ∈ xs, lo ≤ x ∧ x ≤ hi) ∧ lo ≤ m ∧ m ≤ hi

/-- **The laws hold of every sample.** -/
theorem estimatorLaws {xs : List ℚ} (hne : xs ≠ []) : EstimatorLaws xs := by
  refine ⟨fun hsorted q _ hq => ?_, fun confidence hconfidence => ?_, ?_⟩
  · obtain ⟨v, hv, hrank⟩ := exists_percentile hne hsorted hq
    exact ⟨v, hv, hrank, fun q' hle _ => percentile_mono_left hne hsorted hle hv,
      fun ys hys => percentile_mono hys hv⟩
  · exact exists_confidenceInterval hne hconfidence
  · obtain ⟨a, ha, b, hb, hmedian⟩ := median_eq hne
    obtain ⟨lo, hlo, hi, hhi, hbounds⟩ := exists_bounds hne
    refine ⟨_, hmedian, fun ys hys => (median_eq_of_perm hys).trans hmedian,
      fun ys hys => median_mono hys hmedian, lo, hlo, hi, hhi, hbounds, ?_, ?_⟩
    · linarith [(hbounds a ha).1, (hbounds b hb).1]
    · linarith [(hbounds a ha).2, (hbounds b hb).2]

/-- A sample with a value twice. -/
theorem estimatorLaws_tied :
    EstimatorLaws [3, 3, 5, 8] ∧ percentile [3, 3, 5, 8] (1 / 2) = some 3 :=
  ⟨estimatorLaws (List.cons_ne_nil _ _), by decide +kernel⟩

end Analysis
end FederatedMessaging
