import FederatedMessaging.Common.Message

/-!
# When two transaction identifiers coincide

A homeserver answers a repeated transaction identifier with the event it already
created, so two logical requests that share one lose a message without any error.
The correlation key and the identifier are two encodings of the same triple, and
they do not forget the same things:

* the key folds the case of the experiment, the identifier folds the case of the
  experiment *and of the run*;
* the identifier joins the fields with hyphens, which are legal inside both tokens.

`txnId_eq_iff` says exactly which pairs coincide.  Direction and sequence are always
recovered --- neither contains a hyphen, so both can be read off the right end ---
and what is left is one lowered word `<experiment>-<run>`, which has lost where the
experiment ends.  `TxnTwins` names the two ways in which different keys give the
same word, and the main result says that equality of identifiers is equality of keys
and directions exactly for the pairs that are not twins in the same direction and
sequence.
-/

namespace FederatedMessaging
namespace Message

open PythonText

/-! ## Reading the fields back from the right -/

/-- The last separator of a word is where the word was joined. -/
theorem append_cons_inj_of_notMem {α : Type*} {a : α} {u u' s s' : List α} (hs : a ∉ s)
    (hs' : a ∉ s') (h : u ++ a :: s = u' ++ a :: s') : u = u' ∧ s = s' := by
  rcases List.append_eq_append_iff.mp h with ⟨t, hu, ht⟩ | ⟨t, hu, ht⟩
  · cases t with
    | nil =>
      rw [List.nil_append] at ht
      exact ⟨by rw [hu, List.append_nil], (List.cons.inj ht).2⟩
    | cons b t =>
      obtain ⟨-, hts⟩ := List.cons.inj ht
      exact absurd (by rw [hts]; simp) hs
  · cases t with
    | nil =>
      rw [List.nil_append] at ht
      exact ⟨by rw [hu, List.append_nil], ((List.cons.inj ht).2).symm⟩
    | cons b t =>
      obtain ⟨-, hts⟩ := List.cons.inj ht
      exact absurd (by rw [hts]; simp) hs'

theorem hyphen_notMem_directionValue (d : Direction) : '-' ∉ d.value := by
  cases d <;> decide

theorem Direction.value_injective : Function.Injective Direction.value := by
  intro d d' h
  cases d <;> cases d' <;> first | rfl | exact absurd h (by decide)

/-- The word in which an identifier carries the experiment and the run. -/
def Correlation.loweredRun (c : Correlation) : Text := lower c.experiment ++ '-' :: lower c.runId

theorem sequenceToken_eq_ok {c : Correlation} {s : Text} (h : c.sequenceToken = .ok s) :
    s = zfill sequenceDigits (Nat.toDigits 10 c.sequenceId) ∧
      (Nat.toDigits 10 c.sequenceId).length ≤ maxStrDigits := by
  unfold Correlation.sequenceToken at h
  cases hd : strOfNat c.sequenceId with
  | error e => simp [hd, Except.map] at h
  | ok digits =>
    obtain ⟨rfl, hle⟩ := strOfNat_eq_ok_iff.mp hd
    rw [hd] at h
    exact ⟨(Except.ok.inj h).symm, hle⟩

theorem isDigit_of_mem_sequenceToken {c : Correlation} {s : Text}
    (h : c.sequenceToken = .ok s) : ∀ a ∈ s, a.isDigit = true := by
  rw [(sequenceToken_eq_ok h).1]
  exact isDigit_of_mem_zfill fun a ha => isDigit_of_mem_toDigits ha

theorem hyphen_notMem_sequenceToken {c : Correlation} {s : Text}
    (h : c.sequenceToken = .ok s) : '-' ∉ s := fun hmem =>
  absurd (isDigit_of_mem_sequenceToken h _ hmem) (by decide)

/-- Sequence tokens are equal exactly when the numbers are. -/
theorem sequenceToken_inj {c₁ c₂ : Correlation} {s₁ s₂ : Text} (h₁ : c₁.sequenceToken = .ok s₁)
    (h₂ : c₂.sequenceToken = .ok s₂) : s₁ = s₂ ↔ c₁.sequenceId = c₂.sequenceId := by
  rw [(sequenceToken_eq_ok h₁).1, (sequenceToken_eq_ok h₂).1]
  constructor
  · intro h
    have hvalue := congrArg digitsValue h
    rwa [digitsValue_zfill, digitsValue_zfill, digitsValue_toDigits, digitsValue_toDigits]
      at hvalue
  · intro h
    rw [h]

/-- The shape of an identifier. -/
theorem txnId_eq_ok {c : Correlation} {d : Direction} {x : Text} (h : c.txnId d.value = .ok x) :
    ∃ s, c.sequenceToken = .ok s ∧
      x = ['f', 'a', 'm', '-'] ++ (c.loweredRun ++ '-' :: d.value) ++ '-' :: s := by
  have hd : d.value = Direction.request.value ∨ d.value = Direction.response.value := by
    cases d
    · exact Or.inl rfl
    · exact Or.inr rfl
  rw [Correlation.txnId, if_pos hd] at h
  cases hs : c.sequenceToken with
  | error e =>
    rw [hs] at h
    cases h
  | ok s =>
    rw [hs] at h
    refine ⟨s, rfl, ?_⟩
    rw [← Except.ok.inj h]
    simp [Correlation.loweredRun]

/-- **What an identifier determines**: the direction, the sequence, and the lowered
`<experiment>-<run>` word. -/
theorem txnId_eq_iff {c₁ c₂ : Correlation} {d₁ d₂ : Direction} {x₁ x₂ : Text}
    (h₁ : c₁.txnId d₁.value = .ok x₁) (h₂ : c₂.txnId d₂.value = .ok x₂) :
    x₁ = x₂ ↔ d₁ = d₂ ∧ c₁.sequenceId = c₂.sequenceId ∧ c₁.loweredRun = c₂.loweredRun := by
  obtain ⟨s₁, hs₁, rfl⟩ := txnId_eq_ok h₁
  obtain ⟨s₂, hs₂, rfl⟩ := txnId_eq_ok h₂
  constructor
  · intro h
    obtain ⟨hleft, hseq⟩ := append_cons_inj_of_notMem (hyphen_notMem_sequenceToken hs₁)
      (hyphen_notMem_sequenceToken hs₂) h
    obtain ⟨hrun, hdir⟩ := append_cons_inj_of_notMem (hyphen_notMem_directionValue d₁)
      (hyphen_notMem_directionValue d₂) (List.append_cancel_left hleft)
    exact ⟨Direction.value_injective hdir, (sequenceToken_inj hs₁ hs₂).mp hseq, hrun⟩
  · rintro ⟨rfl, hseq, hrun⟩
    rw [hrun, (sequenceToken_inj hs₁ hs₂).mpr hseq]

/-- What the constructor accepts, it keeps. -/
theorem fields_of_new {e r : Text} {n : ℤ} {c : Correlation}
    (h : Correlation.new e r n = .ok c) :
    c.experiment = e ∧ c.runId = r ∧ c.sequenceId = n.toNat := by
  unfold Correlation.new checkToken at h
  split at h
  · split at h
    · simp only [bind, Except.bind] at h
      split at h
      · cases h
      · rw [← Except.ok.inj h]
        exact ⟨rfl, rfl, rfl⟩
    · cases h
  · cases h

theorem sequenceId_of_new {e r : Text} {n : ℤ} {c : Correlation}
    (h : Correlation.new e r n = .ok c) : c.sequenceId = n.toNat := (fields_of_new h).2.2

theorem txnId_eq (c : Correlation) (d : Direction) :
    c.txnId d.value = (c.sequenceToken.mapError MessageError.value).map fun sequence =>
      ['f', 'a', 'm', '-'] ++ lower c.experiment ++ '-' :: lower c.runId ++
        '-' :: d.value ++ '-' :: sequence := by
  have hd : d.value = Direction.request.value ∨ d.value = Direction.response.value := by
    cases d
    · exact Or.inl rfl
    · exact Or.inr rfl
  rw [Correlation.txnId, if_pos hd]
  cases c.sequenceToken <;> rfl

/-- A sequence number that can be written gives both identifiers. -/
theorem exists_txnId {c : Correlation} {s : Text} (h : c.sequenceToken = .ok s) (d : Direction) :
    ∃ x, c.txnId d.value = .ok x := by
  rw [txnId_eq, h]
  exact ⟨_, rfl⟩

/-- A parsed message has both its identifiers. -/
theorem exists_txnId_of_parse {body : Text} {message : ParsedMessage}
    (h : parse body = .ok (some message)) (d : Direction) :
    ∃ x, message.correlation.txnId d.value = .ok x := by
  unfold parse at h
  split at h
  · cases h
  split at h
  · cases h
  rename_i sequence hsequence
  split at h
  · cases h
  rename_i correlation hnew
  obtain rfl := Option.some_inj.mp (Except.ok.inj h)
  obtain ⟨t, ht⟩ := exists_strOfNat_of_intOfText hsequence
  refine exists_txnId (s := zfill sequenceDigits t) ?_ d
  rw [Correlation.sequenceToken, sequenceId_of_new hnew, Int.toNat_natCast, ht]
  rfl

/-! ## Twins -/

/-- `c₁` and `c₂` differ in where a hyphen belongs: part of the run of `c₁` is part
of the experiment of `c₂`. -/
def HyphenTwins (c₁ c₂ : Correlation) : Prop :=
  ∃ t, lower c₂.experiment = lower c₁.experiment ++ '-' :: t ∧
    lower c₁.runId = t ++ '-' :: lower c₂.runId

/-- `c₁` and `c₂` differ only in the case of the run. -/
def CaseTwins (c₁ c₂ : Correlation) : Prop :=
  upper c₁.experiment = upper c₂.experiment ∧ lower c₁.runId = lower c₂.runId ∧
    c₁.runId ≠ c₂.runId

/-- The two ways in which different experiments and runs give one lowered word. -/
def TxnTwins (c₁ c₂ : Correlation) : Prop :=
  CaseTwins c₁ c₂ ∨ HyphenTwins c₁ c₂ ∨ HyphenTwins c₂ c₁

theorem length_lower (s : Text) : (lower s).length = s.length := by
  simp [lower]

theorem HyphenTwins.upper_experiment_ne {c₁ c₂ : Correlation} (h : HyphenTwins c₁ c₂) :
    upper c₁.experiment ≠ upper c₂.experiment := by
  obtain ⟨t, ht, -⟩ := h
  intro heq
  have hlen := congrArg List.length ((lower_eq_of_upper_eq heq).trans ht)
  simp only [List.length_append, List.length_cons] at hlen
  omega

/-- The lowered words agree exactly when experiments and runs agree up to case, or a
hyphen has moved. -/
theorem loweredRun_eq_iff (c₁ c₂ : Correlation) :
    c₁.loweredRun = c₂.loweredRun ↔
      (upper c₁.experiment = upper c₂.experiment ∧ lower c₁.runId = lower c₂.runId) ∨
        HyphenTwins c₁ c₂ ∨ HyphenTwins c₂ c₁ := by
  unfold Correlation.loweredRun
  constructor
  · intro h
    rcases List.append_eq_append_iff.mp h with ⟨t, he, ht⟩ | ⟨t, he, ht⟩
    · cases t with
      | nil =>
        rw [List.append_nil] at he
        exact Or.inl ⟨upper_eq_of_lower_eq he.symm, (List.cons.inj ht).2⟩
      | cons b t =>
        obtain ⟨rfl, hr⟩ := List.cons.inj ht
        exact Or.inr (Or.inl ⟨t, he, hr⟩)
    · cases t with
      | nil =>
        rw [List.append_nil] at he
        exact Or.inl ⟨upper_eq_of_lower_eq he, ((List.cons.inj ht).2).symm⟩
      | cons b t =>
        obtain ⟨rfl, hr⟩ := List.cons.inj ht
        exact Or.inr (Or.inr ⟨t, he, hr⟩)
  · rintro (⟨he, hr⟩ | ⟨t, he, hr⟩ | ⟨t, he, hr⟩)
    · rw [lower_eq_of_upper_eq he, hr]
    · simp [he, hr]
    · simp [he, hr]

/-- Equal keys and directions give equal identifiers: a retry reuses its own. -/
theorem txnId_eq_of_key_eq {c₁ c₂ : Correlation} {d₁ d₂ : Direction} {x₁ x₂ : Text}
    (h₁ : c₁.txnId d₁.value = .ok x₁) (h₂ : c₂.txnId d₂.value = .ok x₂)
    (hkey : c₁.key = c₂.key) (hd : d₁ = d₂) : x₁ = x₂ := by
  simp only [Correlation.key, Prod.mk.injEq] at hkey
  obtain ⟨he, hr, hs⟩ := hkey
  exact (txnId_eq_iff h₁ h₂).mpr
    ⟨hd, hs, (loweredRun_eq_iff c₁ c₂).mpr (Or.inl ⟨he, by rw [hr]⟩)⟩

/-- **Identifiers separate keys and directions exactly away from twins.**  For any
two correlations and directions, "the identifiers are equal if and only if the keys
and the directions are" holds precisely when the two are not twins that agree in
direction and sequence. -/
theorem txnId_separates_iff {c₁ c₂ : Correlation} {d₁ d₂ : Direction} {x₁ x₂ : Text}
    (h₁ : c₁.txnId d₁.value = .ok x₁) (h₂ : c₂.txnId d₂.value = .ok x₂) :
    (x₁ = x₂ ↔ c₁.key = c₂.key ∧ d₁ = d₂) ↔
      ¬ (d₁ = d₂ ∧ c₁.sequenceId = c₂.sequenceId ∧ TxnTwins c₁ c₂) := by
  constructor
  · rintro hiff ⟨hd, hs, htwins⟩
    have hrun : c₁.loweredRun = c₂.loweredRun := by
      refine (loweredRun_eq_iff c₁ c₂).mpr ?_
      rcases htwins with ⟨he, hr, -⟩ | h
      · exact Or.inl ⟨he, hr⟩
      · exact Or.inr h
    obtain ⟨hkey, -⟩ := hiff.mp ((txnId_eq_iff h₁ h₂).mpr ⟨hd, hs, hrun⟩)
    simp only [Correlation.key, Prod.mk.injEq] at hkey
    rcases htwins with ⟨-, -, hne⟩ | h | h
    · exact hne hkey.2.1
    · exact h.upper_experiment_ne hkey.1
    · exact h.upper_experiment_ne hkey.1.symm
  · intro hsafe
    refine ⟨fun hx => ?_, fun ⟨hkey, hd⟩ => txnId_eq_of_key_eq h₁ h₂ hkey hd⟩
    obtain ⟨hd, hs, hrun⟩ := (txnId_eq_iff h₁ h₂).mp hx
    rcases (loweredRun_eq_iff c₁ c₂).mp hrun with ⟨he, hr⟩ | h
    · by_cases hne : c₁.runId = c₂.runId
      · exact ⟨by simp [Correlation.key, he, hne, hs], hd⟩
      · exact absurd ⟨hd, hs, Or.inl ⟨he, hr, hne⟩⟩ hsafe
    · exact absurd ⟨hd, hs, Or.inr h⟩ hsafe

/-! ## The two kinds of twins, seen on an instance -/

/-- `E3`, run `Run-1`, sequence 7. -/
def upperRun : Correlation := ⟨['E', '3'], ['R', 'u', 'n', '-', '1'], 7, by decide, by decide⟩

/-- `E3`, run `run-1`, sequence 7. -/
def lowerRun : Correlation := ⟨['E', '3'], ['r', 'u', 'n', '-', '1'], 7, by decide, by decide⟩

/-- `E3-run`, run `1`, sequence 7. -/
def hyphenRun : Correlation := ⟨['E', '3', '-', 'r', 'u', 'n'], ['1'], 7, by decide, by decide⟩

/-- **Different keys share a response identifier**, by the case of the run and by the
place of a hyphen. -/
theorem txnId_collision :
    (∃ x, upperRun.txnId Direction.response.value = .ok x ∧
      lowerRun.txnId Direction.response.value = .ok x ∧
      hyphenRun.txnId Direction.response.value = .ok x) ∧
    upperRun.key ≠ lowerRun.key ∧ hyphenRun.key ≠ lowerRun.key :=
  ⟨⟨['f', 'a', 'm', '-', 'e', '3', '-', 'r', 'u', 'n', '-', '1', '-', 'r', 'e', 's', 'p', 'o',
    'n', 's', 'e', '-', '0', '0', '0', '0', '7'], by decide, by decide, by decide⟩,
    by decide, by decide⟩

/-- Away from twins: the two directions of one correlation. -/
theorem txnId_separates_directions :
    ∃ x₁ x₂, upperRun.txnId Direction.request.value = .ok x₁ ∧
      upperRun.txnId Direction.response.value = .ok x₂ ∧
      ((x₁ = x₂ ↔ upperRun.key = upperRun.key ∧ Direction.request = Direction.response) ↔
        ¬ (Direction.request = Direction.response ∧
          upperRun.sequenceId = upperRun.sequenceId ∧ TxnTwins upperRun upperRun)) :=
  ⟨_, _, rfl, rfl, txnId_separates_iff rfl rfl⟩

end Message
end FederatedMessaging
