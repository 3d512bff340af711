import FederatedMessaging.Foundations.PythonText

/-!
# Pieces with a separator between them

A text that is made of pieces by putting one character between any two of them can be taken
apart again when the character is in no piece, and then the text says what the pieces were.
There is one exception: no pieces at all and one empty piece make the same text.
-/

namespace FederatedMessaging
namespace Separated

variable {α : Type*}

/-- A character of the text is the separator, or stands in a piece. -/
theorem mem_intercalate {sep : List α} {pieces : List (List α)} {c : α}
    (h : c ∈ sep.intercalate pieces) : c ∈ sep ∨ ∃ piece ∈ pieces, c ∈ piece := by
  induction pieces with
  | nil => exact absurd h List.not_mem_nil
  | cons piece pieces ih =>
    by_cases hne : pieces = []
    · subst hne
      rw [List.intercalate_singleton] at h
      exact Or.inr ⟨piece, List.mem_cons_self, h⟩
    · rw [List.intercalate_cons_of_ne_nil hne, List.mem_append, List.mem_append] at h
      rcases h with (h | h) | h
      · exact Or.inr ⟨piece, List.mem_cons_self, h⟩
      · exact Or.inl h
      · exact (ih h).imp_right fun ⟨p, hp, hc⟩ => ⟨p, List.mem_cons_of_mem piece hp, hc⟩

/-- The first separator tells where the first piece ends, whatever comes after it. -/
theorem eq_of_append_cons_eq {x : α} {a a' b b' : List α} (h : x ∉ a) (h' : x ∉ a')
    (heq : a ++ x :: b = a' ++ x :: b') : a = a' ∧ b = b' := by
  induction a generalizing a' with
  | nil =>
    cases a' with
    | nil => exact ⟨rfl, (List.cons.inj heq).2⟩
    | cons c a' => exact absurd ((List.cons.inj heq).1 ▸ List.mem_cons_self) h'
  | cons c a ih =>
    cases a' with
    | nil => exact absurd ((List.cons.inj heq).1 ▸ List.mem_cons_self) h
    | cons c' a' =>
      obtain ⟨rfl, hrest⟩ := List.cons.inj heq
      obtain ⟨rfl, hb⟩ := ih (fun hx => h (List.mem_cons_of_mem c hx))
        (fun hx => h' (List.mem_cons_of_mem c hx)) hrest
      exact ⟨rfl, hb⟩

variable [DecidableEq α] {x : α} {pieces pieces' : List (List α)}

/-- **The text says what the pieces were**, if there was one at all. -/
theorem eq_of_intercalate_eq (h : ∀ p ∈ pieces, x ∉ p) (hne : pieces ≠ [])
    (h' : ∀ p ∈ pieces', x ∉ p) (hne' : pieces' ≠ [])
    (heq : [x].intercalate pieces = [x].intercalate pieces') : pieces = pieces' := by
  rw [← List.splitOn_intercalate x h hne, heq, List.splitOn_intercalate x h' hne']

/-- Pieces that are not empty: then there may be none of them. -/
theorem eq_of_intercalate_eq_of_ne_nil (h : ∀ p ∈ pieces, x ∉ p ∧ p ≠ [])
    (h' : ∀ p ∈ pieces', x ∉ p ∧ p ≠ [])
    (heq : [x].intercalate pieces = [x].intercalate pieces') : pieces = pieces' := by
  have hnone : ∀ {l l' : List (List α)}, (∀ p ∈ l', x ∉ p ∧ p ≠ []) →
      [x].intercalate l = [x].intercalate l' → l = [] → l' = [] := by
    intro l l' hl' heq hl
    by_contra hne
    subst hl
    rw [List.intercalate_nil] at heq
    have hsplit := List.splitOn_intercalate x (fun p hp => (hl' p hp).1) hne
    rw [← heq, List.splitOn_nil] at hsplit
    exact (hl' [] (hsplit ▸ List.mem_cons_self)).2 rfl
  by_cases hnil : pieces = []
  · rw [hnil, hnone h' heq hnil]
  by_cases hnil' : pieces' = []
  · exact absurd (hnone h heq.symm hnil') hnil
  · exact eq_of_intercalate_eq (fun p hp => (h p hp).1) hnil (fun p hp => (h' p hp).1) hnil' heq

end Separated
end FederatedMessaging
