import FederatedMessaging.Foundations.PythonText

/-!
# Replacing a text in a text

`str.replace` goes from left to right and does not look into what it has put in.  So the result
may contain what was replaced: a replacement can complete it.  It does not, when the
replacement starts and ends with characters that the replaced text does not have, and does not
contain it between them (`not_infix_replaceAll`): every place in the result is then inside a
replacement or inside a stretch of the original without an occurrence.
-/

namespace FederatedMessaging
namespace PythonText

/-- The rest of a replacement, after some characters that are passed over. -/
def replaceFrom (old new : Text) : ℕ → Text → Text
  | _, [] => []
  | skip + 1, _ :: t => replaceFrom old new skip t
  | 0, c :: t =>
    if old <+: c :: t then new ++ replaceFrom old new (old.length - 1) t
    else c :: replaceFrom old new 0 t

/-- `t.replace(old, new)`, for an `old` that is not empty. -/
def replaceAll (old new t : Text) : Text := replaceFrom old new 0 t

/-- A text without a character does not reach over it. -/
theorem infix_append_cons {s a b : Text} {c : Char} (hc : c ∉ s) (h : s <:+: a ++ c :: b) :
    s <:+: a ∨ s <:+: b := by
  obtain ⟨front, back, h⟩ := h
  rcases List.append_eq_append_iff.mp h with ⟨rest, ha, -⟩ | ⟨rest, ha, hrest⟩
  · exact .inl ⟨front, rest, ha.symm⟩
  · -- the occurrence ends after the beginning of the rest
    rcases List.append_eq_append_iff.mp ha with ⟨middle, -, hs⟩ | ⟨middle, -, hmiddle⟩
    · cases rest with
      | nil => exact .inl ⟨front, [], by simpa using ha⟩
      | cons d rest =>
        refine absurd ?_ hc
        rw [hs, (List.cons.inj hrest).1]
        exact List.mem_append_right _ List.mem_cons_self
    · cases middle with
      | nil =>
        rw [List.nil_append] at hmiddle
        cases s with
        | nil => exact .inl (List.nil_infix)
        | cons d s =>
          rw [hmiddle] at hrest
          refine absurd ?_ hc
          rw [(List.cons.inj hrest).1]
          exact List.mem_cons_self
      | cons d middle =>
        refine .inr ⟨middle, back, ?_⟩
        rw [hmiddle] at hrest
        exact ((List.cons.inj hrest).2).symm

variable {old inner : Text} {opening closing : Char}

/-- What the result starts with, up to a replacement, the original starts with. -/
theorem prefix_of_prefix_replaceFrom {new s t : Text} (hopening : opening ∉ s)
    (h : s <+: replaceFrom old (opening :: new) 0 t) : s <+: t := by
  induction t generalizing s with
  | nil => exact h
  | cons c t ih =>
    rw [replaceFrom] at h
    cases s with
    | nil => exact List.nil_prefix
    | cons d s =>
      split_ifs at h
      · obtain ⟨rfl, -⟩ := List.cons_prefix_cons.mp h
        exact absurd List.mem_cons_self hopening
      · obtain ⟨rfl, hrest⟩ := List.cons_prefix_cons.mp h
        exact List.cons_prefix_cons.mpr
          ⟨rfl, ih (fun hmem => hopening (List.mem_cons_of_mem _ hmem)) hrest⟩

/-- **What was replaced does not occur in the result.** -/
theorem not_infix_replaceFrom (hne : old ≠ []) (hopening : opening ∉ old) (hclosing : closing ∉ old)
    (hinner : ¬ old <:+: inner) (skip : ℕ) (t : Text) :
    ¬ old <:+: replaceFrom old (opening :: (inner ++ [closing])) skip t := by
  induction t generalizing skip with
  | nil =>
    rw [replaceFrom]
    exact fun h => hne (List.infix_nil.mp h)
  | cons c t ih =>
    cases skip with
    | succ skip => exact ih skip
    | zero =>
      rw [replaceFrom]
      split_ifs with hprefix
      · intro h
        have h : old <:+: [] ++ opening ::
            (inner ++ closing ::
              replaceFrom old (opening :: (inner ++ [closing])) (old.length - 1) t) := by
          simpa using h
        rcases infix_append_cons hopening h with h | h
        · exact hne (List.infix_nil.mp h)
        · exact (infix_append_cons hclosing h).elim hinner (ih _)
      · intro h
        rcases List.infix_cons_iff.mp h with h | h
        · refine hprefix ?_
          cases old with
          | nil => exact List.nil_prefix
          | cons d s =>
            obtain ⟨rfl, hrest⟩ := List.cons_prefix_cons.mp h
            exact List.cons_prefix_cons.mpr ⟨rfl, prefix_of_prefix_replaceFrom
              (fun hmem => hopening (List.mem_cons_of_mem _ hmem)) hrest⟩
        · exact ih 0 h

theorem not_infix_replaceAll (hne : old ≠ []) (hopening : opening ∉ old) (hclosing : closing ∉ old)
    (hinner : ¬ old <:+: inner) (t : Text) :
    ¬ old <:+: replaceAll old (opening :: (inner ++ [closing])) t :=
  not_infix_replaceFrom hne hopening hclosing hinner 0 t

end PythonText
end FederatedMessaging
