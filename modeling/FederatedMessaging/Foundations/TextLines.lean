import FederatedMessaging.Foundations.PythonText

/-!
# Lines of a text

`str.splitlines` and the translation of line ends when a file is read as text.

The class of characters that end a line is wider than the line end of a file: besides the
control characters there are U+0085, U+2028 and U+2029.  A writer that ends its lines with
`\n` and leaves these in them has its lines cut by the reader.
-/

namespace FederatedMessaging
namespace PythonText

/-- The characters at which `splitlines` cuts. -/
def isLineBoundary (c : Char) : Bool :=
  (10 ≤ c.toNat && c.toNat ≤ 13) || (28 ≤ c.toNat && c.toNat ≤ 30) || c.toNat == 0x85 ||
    c.toNat == 0x2028 || c.toNat == 0x2029

/-- One line end for `\r\n`. -/
def foldLineEnds : Text → Text
  | [] => []
  | c :: t => if c = '\r' ∧ t.head? = some '\n' then foldLineEnds t else c :: foldLineEnds t

/-- What `read_text` makes of a file: every line end is `\n`. -/
def universalNewlines (t : Text) : Text :=
  (foldLineEnds t).map fun c => if c = '\r' then '\n' else c

/-- A last empty line is no line. -/
def dropLastEmpty (lines : List Text) : List Text :=
  if lines.getLast? = some [] then lines.dropLast else lines

/-- `str.splitlines`. -/
def splitlines (t : Text) : List Text := dropLastEmpty ((foldLineEnds t).splitOnP isLineBoundary)

theorem foldLineEnds_eq_self {t : Text} (h : '\r' ∉ t) : foldLineEnds t = t := by
  induction t with
  | nil => rfl
  | cons c t ih =>
    obtain ⟨hc, ht⟩ := not_or.mp (mt List.mem_cons.mpr h)
    rw [foldLineEnds, if_neg fun hcr => hc hcr.1.symm, ih ht]

theorem universalNewlines_eq_self {t : Text} (h : '\r' ∉ t) : universalNewlines t = t := by
  rw [universalNewlines, foldLineEnds_eq_self h]
  refine (List.map_congr_left fun c hc => ?_).trans (List.map_id t)
  exact if_neg fun hcr : c = '\r' => h (hcr ▸ hc)

/-- Lines, each ended by `\n`. -/
def unlines (lines : List Text) : Text := lines.flatMap fun line => line ++ ['\n']

theorem splitOnP_unlines (lines : List Text) :
    (unlines lines).splitOnP isLineBoundary =
      (lines.flatMap fun line => line.splitOnP isLineBoundary) ++ [[]] := by
  induction lines with
  | nil => rfl
  | cons line lines ih =>
    have hcons : unlines (line :: lines) = line ++ '\n' :: unlines lines := by
      rw [unlines, List.flatMap_cons, List.append_assoc]
      rfl
    rw [hcons, List.splitOnP_append_cons line _ (by decide), ih, List.flatMap_cons,
      List.append_assoc]

/-- **Lines that are written are read back in pieces**: each is cut at the boundaries in it. -/
theorem splitlines_unlines {lines : List Text} (h : ∀ line ∈ lines, '\r' ∉ line) :
    splitlines (universalNewlines (unlines lines)) =
      lines.flatMap fun line => line.splitOnP isLineBoundary := by
  have hcr : '\r' ∉ unlines lines := by
    intro hmem
    obtain ⟨line, hline, hmem⟩ := List.mem_flatMap.mp hmem
    rcases List.mem_append.mp hmem with hmem | hmem
    · exact h line hline hmem
    · exact absurd hmem (by decide)
  rw [universalNewlines_eq_self hcr, splitlines, foldLineEnds_eq_self hcr, splitOnP_unlines,
    dropLastEmpty, List.getLast?_concat, if_pos rfl, List.dropLast_concat]

/-- **Where a piece stands**: at the beginning, up to the end or a boundary, or after a
boundary. -/
theorem mem_splitOnP {p : Char → Bool} {t q : Text} (h : q ∈ t.splitOnP p) :
    (∀ c ∈ q, p c = false) ∧
      (t = q ∨ (∃ c after, t = q ++ c :: after ∧ p c = true) ∨
        ∃ before c after, t = before ++ c :: (q ++ after) ∧ p c = true) := by
  induction hlength : t.length using Nat.strong_induction_on generalizing t with
  | _ n ih =>
    -- the text is cut at its first boundary
    have hfirst : ∀ c ∈ t.takeWhile (fun c => !p c), p c = false := fun c hc => by
      simpa using List.mem_takeWhile_imp hc
    have ht : t = t.takeWhile (fun c => !p c) ++ t.dropWhile (fun c => !p c) :=
      List.takeWhile_append_dropWhile.symm
    cases hrest : t.dropWhile (fun c => !p c) with
    | nil =>
      rw [hrest, List.append_nil] at ht
      rw [← ht] at hfirst
      rw [List.splitOnP_eq_singleton hfirst, List.mem_singleton] at h
      exact ⟨h ▸ hfirst, .inl h.symm⟩
    | cons c b =>
      have hc : p c = true := by
        have := List.head_dropWhile_not (fun c => !p c) (l := t) (by simp [hrest])
        simpa [hrest] using this
      rw [hrest] at ht
      generalize t.takeWhile (fun c => !p c) = a at hfirst ht
      subst ht
      rw [List.splitOnP_append_cons_of_forall_mem hfirst c hc] at h
      rcases List.mem_cons.mp h with rfl | h
      · exact ⟨hfirst, .inr (.inl ⟨c, b, rfl, hc⟩)⟩
      · obtain ⟨hq, hplace⟩ := ih b.length (by simp [← hlength]; omega) h rfl
        refine ⟨hq, .inr (.inr ?_)⟩
        rcases hplace with rfl | ⟨d, after, rfl, -⟩ | ⟨before, d, after, rfl, hd⟩
        · exact ⟨a, c, [], by rw [List.append_nil], hc⟩
        · exact ⟨a, c, d :: after, rfl, hc⟩
        · exact ⟨a ++ c :: before, d, after, by simp, hd⟩

/-- What `strip` takes away is white space. -/
theorem exists_append_strip (t : Text) : ∃ before after,
    t = before ++ (strip t ++ after) ∧ (∀ c ∈ before, isSpace c = true) ∧
      ∀ c ∈ after, isSpace c = true := by
  refine ⟨t.takeWhile isSpace, (t.dropWhile isSpace).rtakeWhile isSpace, ?_,
    fun c hc => List.mem_takeWhile_imp hc, fun c hc => List.mem_rtakeWhile_imp hc⟩
  have hsplit :
      (t.dropWhile isSpace).rdropWhile isSpace ++ (t.dropWhile isSpace).rtakeWhile isSpace =
      t.dropWhile isSpace := by
    rw [List.rdropWhile, List.rtakeWhile, ← List.reverse_append, List.takeWhile_append_dropWhile,
      List.reverse_reverse]
  rw [strip, hsplit, List.takeWhile_append_dropWhile]

end PythonText
end FederatedMessaging
