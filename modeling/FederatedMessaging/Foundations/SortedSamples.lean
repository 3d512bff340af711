import Mathlib.Data.List.Count
import Mathlib.Data.List.Forall2
import Mathlib.Data.List.Sort
import Mathlib.Order.Lattice

/-!
# Samples in order

A sample is a list over a linear order, and one sample dominates another when they have
the same length and each entry of the first is at least the entry of the second at the
same place.  This file has the facts about domination that estimators by rank need: it
survives sorting (`forall₂_insertionSort`), concatenation and selection by position.

Sorting is the one that takes an argument.  Inserting a larger value into a dominating
sorted list gives a list that dominates: where the two insertions stop at different
places, the entries in between are shifted by one on one side only, and the order of the
lists makes up for it.

In a sorted sample the position of a value bounds how many values are at most it, from both
sides: `succ_le_countP_le` and `countP_le_le`.
-/

namespace FederatedMessaging
namespace SortedSamples

variable {α : Type*} [LinearOrder α]

/-- A lower bound of a list goes in front of it. -/
theorem orderedInsert_of_forall_le {a : α} {l : List α} (h : ∀ b ∈ l, a ≤ b) :
    l.orderedInsert (· ≤ ·) a = a :: l := by
  cases l with
  | nil => rfl
  | cons b l => exact List.orderedInsert_cons_of_le _ l (h b List.mem_cons_self)

/-- **Insertion keeps domination.** -/
theorem forall₂_orderedInsert {x y : α} (hxy : x ≤ y) {l m : List α}
    (hl : l.Pairwise (· ≤ ·)) (hm : m.Pairwise (· ≤ ·)) (h : List.Forall₂ (· ≤ ·) l m) :
    List.Forall₂ (· ≤ ·) (l.orderedInsert (· ≤ ·) x) (m.orderedInsert (· ≤ ·) y) := by
  induction h generalizing x y with
  | nil => exact List.Forall₂.cons hxy List.Forall₂.nil
  | @cons a b l m hab h ih =>
    obtain ⟨hal, hl⟩ := List.pairwise_cons.mp hl
    obtain ⟨hbm, hm⟩ := List.pairwise_cons.mp hm
    -- where only one insertion goes on, the other list is its head inserted into its tail
    rcases le_or_gt x a with hxa | hax
    · rw [List.orderedInsert_cons_of_le _ l hxa]
      rcases le_or_gt y b with hyb | hby
      · rw [List.orderedInsert_cons_of_le _ m hyb]
        exact List.Forall₂.cons hxy (List.Forall₂.cons hab h)
      · rw [List.orderedInsert_of_not_le _ m (not_le.mpr hby), ← orderedInsert_of_forall_le hal]
        exact List.Forall₂.cons (hxa.trans hab) (ih (hab.trans hby.le) hl hm)
    · rw [List.orderedInsert_of_not_le _ l (not_le.mpr hax)]
      rcases le_or_gt y b with hyb | hby
      · rw [List.orderedInsert_cons_of_le _ m hyb, ← orderedInsert_of_forall_le hbm]
        exact List.Forall₂.cons (hax.le.trans hxy) (ih (hxy.trans hyb) hl hm)
      · rw [List.orderedInsert_of_not_le _ m (not_le.mpr hby)]
        exact List.Forall₂.cons hab (ih hxy hl hm)

/-- **Sorting keeps domination.** -/
theorem forall₂_insertionSort {l m : List α} (h : List.Forall₂ (· ≤ ·) l m) :
    List.Forall₂ (· ≤ ·) (l.insertionSort (· ≤ ·)) (m.insertionSort (· ≤ ·)) := by
  induction h with
  | nil => exact List.Forall₂.nil
  | cons hab _ ih =>
    rw [List.insertionSort_cons, List.insertionSort_cons]
    exact forall₂_orderedInsert hab (List.pairwise_insertionSort _ _)
      (List.pairwise_insertionSort _ _) ih

section Positions

variable {l : List α} {i : ℕ} {v : α}

/-- The values up to a position are at most the value there. -/
theorem le_of_mem_take (hl : l.Pairwise (· ≤ ·)) (hv : l[i]? = some v) :
    ∀ x ∈ l.take (i + 1), x ≤ v := by
  intro x hx
  rw [List.take_add_one, hv, List.mem_append] at hx
  rcases hx with hx | hx
  · have hdrop : v ∈ l.drop i := List.mem_of_getElem? (by rw [List.getElem?_drop, Nat.add_zero, hv])
    rw [← List.take_append_drop i l, List.pairwise_append] at hl
    exact hl.2.2 x hx v hdrop
  · exact (List.mem_singleton.mp hx).le

/-- The values from a position on are at least the value there. -/
theorem le_of_mem_drop (hl : l.Pairwise (· ≤ ·)) (hv : l[i]? = some v) :
    ∀ x ∈ l.drop i, v ≤ x := by
  intro x hx
  rw [List.drop_eq_getElem?_toList_append, hv, List.mem_append] at hx
  rcases hx with hx | hx
  · exact (List.mem_singleton.mp hx).ge
  · have htake : v ∈ l.take (i + 1) := by
      rw [List.take_add_one, hv]
      exact List.mem_append_right _ List.mem_cons_self
    rw [← List.take_append_drop (i + 1) l, List.pairwise_append] at hl
    exact hl.2.2 v htake x hx

/-- **The values up to a position count.** -/
theorem succ_le_countP_le (hl : l.Pairwise (· ≤ ·)) (hv : l[i]? = some v) :
    i + 1 ≤ l.countP fun x => x ≤ v := by
  have hi : i < l.length := (List.getElem?_eq_some_iff.mp hv).1
  have hall : (l.take (i + 1)).countP (fun x => x ≤ v) = (l.take (i + 1)).length :=
    List.countP_eq_length.mpr fun x hx => decide_eq_true (le_of_mem_take hl hv x hx)
  have hsublist := (List.take_sublist (i + 1) l).countP_le (p := fun x => decide (x ≤ v))
  rw [hall, List.length_take, min_eq_left (Nat.succ_le_of_lt hi)] at hsublist
  exact hsublist

/-- **Of a smaller value, only those before it do.** -/
theorem countP_le_le (hl : l.Pairwise (· ≤ ·)) (hv : l[i]? = some v) {w : α} (hw : w < v) :
    (l.countP fun x => x ≤ w) ≤ i := by
  have hnone : (l.drop i).countP (fun x => x ≤ w) = 0 :=
    List.countP_eq_zero.mpr fun x hx h =>
      absurd (hw.trans_le (le_of_mem_drop hl hv x hx)) (not_lt.mpr (of_decide_eq_true h))
  rw [← List.take_append_drop i l, List.countP_append, hnone, Nat.add_zero]
  exact List.countP_le_length.trans (List.length_take_le i l)

/-- A later position has a larger value. -/
theorem le_of_getElem? (hl : l.Pairwise (· ≤ ·)) {j : ℕ} {w : α} (hv : l[i]? = some v)
    (hw : l[j]? = some w) (hij : i ≤ j) : v ≤ w := by
  refine le_of_mem_drop hl hv w (List.mem_of_getElem? (i := j - i) ?_)
  rw [List.getElem?_drop, Nat.add_sub_cancel' hij, hw]

end Positions

section Selection

variable {β γ : Type*} {R : β → γ → Prop}

/-- Related lists have related entries at a position that one of them has. -/
theorem exists_getElem?_of_forall₂ {l : List β} {m : List γ} (h : List.Forall₂ R l m) {i : ℕ}
    {b : β} (hb : l[i]? = some b) : ∃ c, m[i]? = some c ∧ R b c := by
  induction h generalizing i with
  | nil => cases hb
  | cons hab _ ih =>
    cases i with
    | zero => exact ⟨_, rfl, Option.some_inj.mp hb ▸ hab⟩
    | succ i => exact ih hb

/-- Selecting the same positions of related lists gives related lists. -/
theorem forall₂_filterMap_getElem? {l : List β} {m : List γ} (h : List.Forall₂ R l m)
    (positions : List ℕ) :
    List.Forall₂ R (positions.filterMap fun i => l[i]?) (positions.filterMap fun i => m[i]?) := by
  induction positions with
  | nil => exact List.Forall₂.nil
  | cons i positions ih =>
    rw [List.filterMap_cons, List.filterMap_cons]
    cases hl : l[i]? with
    | none =>
      have hm : m[i]? = none := by
        rw [List.getElem?_eq_none_iff, ← h.length_eq]
        exact List.getElem?_eq_none_iff.mp hl
      rw [hm]
      exact ih
    | some b =>
      obtain ⟨c, hc, hbc⟩ := exists_getElem?_of_forall₂ h hl
      rw [hc]
      exact List.Forall₂.cons hbc ih

end Selection

end SortedSamples
end FederatedMessaging
