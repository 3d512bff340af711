import Mathlib.Data.List.Infix

/-!
# Steps that can be cut off

A process takes a list of steps on a state, and may be cut off after any of them.  `Throughout`
says that a property holds wherever that happens: it is proved part by part
(`throughout_append_iff`), and a property that every process keeps throughout holds after any
history of processes, each of them cut off somewhere (`invariant_history`).
-/

namespace FederatedMessaging
namespace CutOff

variable {σ α ι : Type*} {apply : σ → α → σ} {P Q : σ → Prop} {s : σ} {steps steps' : List α}

/-- **The property holds wherever the steps are cut off.** -/
def Throughout (apply : σ → α → σ) (P : σ → Prop) (s : σ) (steps : List α) : Prop :=
  ∀ cut, cut <+: steps → P (cut.foldl apply s)

theorem throughout_nil_iff : Throughout apply P s [] ↔ P s := by
  constructor
  · exact fun h => h [] List.nil_prefix
  · intro h cut hcut
    obtain rfl := List.prefix_nil.mp hcut
    exact h

theorem Throughout.first (h : Throughout apply P s steps) : P s := h [] List.nil_prefix

theorem Throughout.last (h : Throughout apply P s steps) : P (steps.foldl apply s) :=
  h steps List.prefix_rfl

theorem Throughout.take (h : Throughout apply P s steps) (n : ℕ) :
    P ((steps.take n).foldl apply s) := h _ (List.take_prefix n steps)

/-- **Part by part.** -/
theorem throughout_append_iff :
    Throughout apply P s (steps ++ steps') ↔
      Throughout apply P s steps ∧ Throughout apply P (steps.foldl apply s) steps' := by
  constructor
  · refine fun h => ⟨fun cut hcut => h cut (hcut.trans (List.prefix_append _ _)), ?_⟩
    intro cut hcut
    rw [← List.foldl_append]
    exact h _ ((List.prefix_append_right_inj steps).mpr hcut)
  · rintro ⟨h, h'⟩ cut hcut
    rcases List.prefix_or_prefix_of_prefix hcut (List.prefix_append steps steps') with hle | hle
    · exact h cut hle
    · obtain ⟨rest, rfl⟩ := hle
      rw [List.foldl_append]
      exact h' rest ((List.prefix_append_right_inj steps).mp hcut)

theorem Throughout.append (h : Throughout apply P s steps)
    (h' : Throughout apply P (steps.foldl apply s) steps') :
    Throughout apply P s (steps ++ steps') := throughout_append_iff.mpr ⟨h, h'⟩

/-! ## Histories -/

/-- The state after a history: each process is cut off after a number of steps. -/
def history (apply : σ → α → σ) (process : ι → σ → List α) : σ → List (ι × ℕ) → σ
  | s, [] => s
  | s, (i, n) :: rest => history apply process (((process i s).take n).foldl apply s) rest

/-- A last process that is not cut off. -/
theorem history_append_whole (process : ι → σ → List α) (entries : List (ι × ℕ)) (i : ι) (s : σ) :
    history apply process s
        (entries ++ [(i, (process i (history apply process s entries)).length)]) =
      (process i (history apply process s entries)).foldl apply
        (history apply process s entries) := by
  induction entries generalizing s with
  | nil =>
    change ((process i s).take (process i s).length).foldl apply s = _
    rw [List.take_length]
    rfl
  | cons entry entries ih => exact ih _

/-- **What every process keeps throughout holds after any history.** -/
theorem invariant_history {process : ι → σ → List α} {entries : List (ι × ℕ)}
    (hprocess : ∀ entry ∈ entries, ∀ s, P s → Throughout apply P s (process entry.1 s)) :
    ∀ {s : σ}, P s → P (history apply process s entries) := by
  induction entries with
  | nil => exact fun h => h
  | cons entry rest ih =>
    obtain ⟨hentry, hrest⟩ := List.forall_mem_cons.mp hprocess
    exact fun h => ih hrest ((hentry _ h).take entry.2)

end CutOff
end FederatedMessaging
