import FederatedMessaging.Common.TransactionIds

/-!
# Building a body and parsing it back

The token check, the envelope layout, the padding, the `strip` before matching and
the body grammar are written separately; this file is where they meet.

## 1.  What the grammar reads

`exists_leads_bodyRe` computes the match of a body laid out as the grammar has it:
five fields separated by nonempty white space, then a tail.  The letters of a field
are never white space and white space is never a letter of a field, so every greedy
repetition takes exactly its field and nothing backtracks.  The lemma is about any
spelling, not only the canonical one.

## 2.  What the builder writes

The envelope puts one space between fields and the padding is a space and a run of
`x`.  After `strip` a single byte of padding is gone, and the tail is empty.

## 3.  Where the two disagree

`$` in the token check lets one newline through at the end of a token.  The builder
copies it into the body, and the grammar reads it there as white space: the message
parses, under another key.  `roundTrips_iff` is the exact statement --- a built body
comes back under its own key precisely when neither token ends in a newline.
-/

namespace FederatedMessaging
namespace Message

open Backtracking PythonText

/-! ## 1.  What the grammar reads -/

theorem isTokenChar_eq_false_of_isSpace {c : Char} (hc : isSpace c = true) :
    isTokenChar c = false := by
  by_contra h
  have htoken : isTokenChar c = true := by simpa using h
  rw [isSpace_eq_false_of_isTokenChar htoken] at hc
  exact Bool.noConfusion hc

/-- The first letter of a nonempty word followed by anything is a letter of the word. -/
theorem mem_of_mem_head?_append {α : Type*} {u r : List α} (hne : u ≠ []) {c : α}
    (hc : c ∈ (u ++ r).head?) : c ∈ u := by
  rw [List.head?_append_of_ne_nil _ hne] at hc
  exact List.mem_of_mem_head? hc

/-- A nonempty field stops the white space before it. -/
theorem head?_append_stops {p : Char → Bool} {u : Text} (r : Text) (hne : u ≠ [])
    (hu : ∀ c ∈ u, p c = false) : ∀ c ∈ (u ++ r).head?, p c = false := fun c hc =>
  hu c (mem_of_mem_head?_append hne hc)

theorem leads_kind (kind : Kind) (rest : Text) :
    Leads (.alt (.word requestKeyword) (.word ackKeyword) : Pattern Char BodyGroup)
      (kind.keyword ++ rest) ⟨kind.keyword, rest, []⟩ := by
  cases kind with
  | request => exact leads_alt_left _ (leads_word requestKeyword rest)
  | ack =>
    exact leads_alt_right (ways_word_cons_eq_nil (by decide) _ _) (leads_word ackKeyword rest)

section Layout

variable {g₁ g₂ g₃ g₄ experiment run sequence tail : Text}

/-- White space between two fields. -/
def IsGap (g : Text) : Prop := g ≠ [] ∧ ∀ c ∈ g, isSpace c = true

/-- A word of the token class. -/
def IsToken (t : Text) : Prop := t ≠ [] ∧ ∀ c ∈ t, isTokenChar c = true

/-- A word of decimal digits. -/
def IsNumeral (t : Text) : Prop := t ≠ [] ∧ ∀ c ∈ t, isDecimal c = true

theorem isGap_space : IsGap [' '] :=
  ⟨List.cons_ne_nil _ _, fun c hc => by rw [List.mem_singleton.mp hc]; decide⟩

theorem leads_gap {g r : Text} (hg : IsGap g) (hr : ∀ c ∈ r.head?, isSpace c = false) :
    Leads (Pattern.many1 isSpace : Pattern Char BodyGroup) (g ++ r) ⟨g, r, []⟩ :=
  leads_many1 hg.1 hg.2 hr

theorem leads_token (name : BodyGroup) {t g r : Text} (ht : IsToken t) (hg : IsGap g) :
    Leads (.group name (.many1 isTokenChar)) (t ++ (g ++ r)) ⟨t, g ++ r, [(name, t)]⟩ :=
  leads_group name (leads_many1 ht.1 ht.2
    (head?_append_stops r hg.1 fun c hc => isTokenChar_eq_false_of_isSpace (hg.2 c hc)))

theorem IsToken.stops_space {t : Text} (ht : IsToken t) (r : Text) :
    ∀ c ∈ (t ++ r).head?, isSpace c = false :=
  head?_append_stops r ht.1 fun c hc => isSpace_eq_false_of_isTokenChar (ht.2 c hc)

/-- **The match of a laid-out body.**  The five fields are captured whole, whatever
the tail does.  Read from the right: each field stops the gap before it, each gap the
field before it. -/
theorem exists_leads_bodyRe (kind : Kind) (h₁ : IsGap g₁) (h₂ : IsGap g₂) (h₃ : IsGap g₃)
    (h₄ : IsGap g₄) (he : IsToken experiment) (hr : IsToken run) (hs : IsNumeral sequence)
    (hspace : ∀ c ∈ sequence, isSpace c = false)
    (hstop : ∀ c ∈ tail.head?, isDecimal c = false) {v : Way Char BodyGroup}
    (htail : Leads bodyTailRe tail v) :
    ∃ w, Leads bodyRe (protocolToken ++ (g₁ ++ (kind.keyword ++ (g₂ ++ (experiment ++
        (g₃ ++ (run ++ (g₄ ++ (sequence ++ tail))))))))) w ∧
      w.captures = [(.proto, protocolToken), (.kind, kind.keyword), (.experiment, experiment),
        (.run, run), (.sequence, sequence)] ++ v.captures := by
  have hkind : ∀ r : Text, ∀ c ∈ (kind.keyword ++ r).head?, isSpace c = false := by
    intro r
    refine head?_append_stops r ?_ ?_ <;>
      cases kind <;> simp [Kind.keyword, requestKeyword, ackKeyword, isSpace]
  have hsequence := leads_seq (leads_group .sequence (leads_many1 hs.1 hs.2 hstop)) htail
  have hgap₄ := leads_seq (leads_gap h₄ (head?_append_stops tail hs.1 hspace)) hsequence
  have hrun := leads_seq (leads_token .run hr h₄) hgap₄
  have hgap₃ := leads_seq (leads_gap h₃ (hr.stops_space _)) hrun
  have hexperiment := leads_seq (leads_token .experiment he h₃) hgap₃
  have hgap₂ := leads_seq (leads_gap h₂ (he.stops_space _)) hexperiment
  have hkeyword := leads_seq (leads_group .kind (leads_kind kind _)) hgap₂
  have hgap₁ := leads_seq (leads_gap h₁ (hkind _)) hkeyword
  have hproto := leads_seq (leads_group .proto (leads_word protocolToken _)) hgap₁
  exact ⟨_, hproto, by simp [Way.andThen]⟩

end Layout

/-! ### The two tails the builder leaves -/

theorem leads_tail_nil : Leads bodyTailRe [] ⟨[], [], []⟩ := by
  have hpad : ways (.group .padding (.seq (.many1 isSpace) (.many (· == 'x'))) :
      Pattern Char BodyGroup) [] = [] := rfl
  exact leads_seq (leads_opt_none hpad) (leads_look (p := atEnd) rfl)

theorem leads_tail_padding (k : ℕ) :
    Leads bodyTailRe (' ' :: List.replicate (k + 1) 'x')
      ⟨' ' :: List.replicate (k + 1) 'x', [],
        [(.padding, ' ' :: List.replicate (k + 1) 'x')]⟩ := by
  have hx : ∀ c ∈ List.replicate (k + 1) 'x', c = 'x' := fun c hc =>
    List.eq_of_mem_replicate hc
  have hgap : IsGap [' '] := isGap_space
  have hspace := leads_gap (r := List.replicate (k + 1) 'x') hgap fun c hc => by
    rw [hx c (List.mem_of_mem_head? hc)]
    decide
  have hfill : Leads (.many (· == 'x') : Pattern Char BodyGroup)
      (List.replicate (k + 1) 'x' ++ []) ⟨List.replicate (k + 1) 'x', [], []⟩ :=
    leads_many (fun c hc => by rw [hx c hc]; decide) (by simp)
  rw [List.append_nil] at hfill
  have hpad := leads_opt (leads_group .padding (leads_seq hspace hfill))
  have hall := leads_seq hpad (leads_look (p := atEnd) rfl)
  simpa [Way.andThen, bodyTailRe] using hall

/-! ## 2.  What the builder writes -/

theorem isTokenChar_toUpper {c : Char} (hc : isTokenChar c = true) :
    isTokenChar c.toUpper = true := by
  by_cases hlower : c.isLower = true
  · have halpha : c.toUpper.isAlpha = true := by
      rw [Char.isAlpha_toUpper_eq_isAlpha, Char.isAlpha, hlower, Bool.or_true]
    simp [isTokenChar, Char.isAlphanum, halpha]
  · rwa [Char.toUpper_eq_of_not_isLower hlower]

theorem IsToken.upper {t : Text} (ht : IsToken t) : IsToken (upper t) := by
  refine ⟨by simpa [PythonText.upper] using ht.1, fun c hc => ?_⟩
  obtain ⟨d, hd, rfl⟩ := List.mem_map.mp hc
  exact isTokenChar_toUpper (ht.2 d hd)

theorem IsToken.matchesToken {t : Text} (ht : IsToken t) : matchesToken t = true :=
  matchesToken_iff.mpr ⟨t, [], (List.append_nil t).symm, ht.1, ht.2, Or.inl rfl⟩

/-- The tail the builder writes after an envelope. -/
inductive IsTail : Text → Prop where
  | none : IsTail []
  | padding (k : ℕ) : IsTail (' ' :: List.replicate k 'x')

/-- A built body is an envelope and a tail. -/
theorem exists_eq_of_buildBody {kind : Kind} {c : Correlation} {size : Option ℤ} {body : Text}
    (h : buildBody kind c size = .ok body) :
    ∃ env tail, envelope kind c = .ok env ∧ body = env ++ tail ∧ IsTail tail := by
  unfold buildBody at h
  cases henv : envelope kind c with
  | error e =>
    rw [henv] at h
    cases h
  | ok env =>
    rw [henv] at h
    change (pad env size).mapError MessageError.format = .ok body at h
    cases size with
    | none =>
      have hbody : env = body := Except.ok.inj h
      exact ⟨env, [], rfl, by rw [hbody, List.append_nil], .none⟩
    | some n =>
      unfold pad at h
      dsimp only at h
      split at h
      · cases h
      · exact ⟨env, _, rfl, (Except.ok.inj h).symm, .padding _⟩

/-- **A sized body has exactly the requested size.** -/
theorem utf8Length_of_buildBody {kind : Kind} {c : Correlation} {n : ℤ} {body : Text}
    (h : buildBody kind c (some n) = .ok body) : (utf8Length body : ℤ) = n := by
  unfold buildBody at h
  cases henv : envelope kind c with
  | error e =>
    rw [henv] at h
    cases h
  | ok env =>
    rw [henv] at h
    change (pad env (some n)).mapError MessageError.format = .ok body at h
    unfold pad at h
    dsimp only at h
    split at h
    · cases h
    · rename_i hfits
      rw [← Except.ok.inj h, ← List.singleton_append, utf8Length_append, utf8Length_append,
        utf8Length_replicate_of_size_one (c := paddingCharacter) rfl]
      have hone : utf8Length [' '] = 1 := rfl
      omega

theorem envelope_eq_ok {kind : Kind} {c : Correlation} {env : Text}
    (h : envelope kind c = .ok env) :
    ∃ s, c.sequenceToken = .ok s ∧ env = protocolToken ++ ' ' :: kind.keyword ++
      ' ' :: upper c.experiment ++ ' ' :: c.runId ++ ' ' :: s := by
  unfold envelope at h
  cases hs : c.sequenceToken with
  | error e =>
    rw [hs] at h
    cases h
  | ok s =>
    rw [hs] at h
    exact ⟨s, rfl, (Except.ok.inj h).symm⟩

/-! ### Stripping a built body -/

theorem sequenceToken_ne_nil {c : Correlation} {s : Text} (h : c.sequenceToken = .ok s) :
    s ≠ [] := by
  rw [(sequenceToken_eq_ok h).1]
  exact zfill_ne_nil Nat.toDigits_ne_nil

/-- An envelope starts with a letter and ends with a digit. -/
theorem envelope_ends {kind : Kind} {c : Correlation} {env : Text}
    (h : envelope kind c = .ok env) :
    env ≠ [] ∧ (∀ a ∈ env.head?, isSpace a = false) ∧ ∀ a ∈ env.getLast?, isSpace a = false := by
  obtain ⟨s, hs, rfl⟩ := envelope_eq_ok h
  refine ⟨by simp, fun a ha => ?_, fun a ha => ?_⟩
  · have hF : 'F' = a := by simpa [protocolToken] using ha
    rw [← hF]
    decide
  · have hlast : a ∈ s.getLast? := by
      rwa [List.getLast?_append_of_ne_nil _ (List.cons_ne_nil _ _), ← List.singleton_append,
        List.getLast?_append_of_ne_nil _ (sequenceToken_ne_nil hs)] at ha
    exact isSpace_eq_false_of_isDigit
      (isDigit_of_mem_sequenceToken hs a (List.mem_of_mem_getLast? hlast))

/-- What is left of a built body after `strip`: a single byte of padding goes, any
other tail stays. -/
theorem exists_strip_eq {env tail : Text} (hne : env ≠ [])
    (hhead : ∀ a ∈ env.head?, isSpace a = false)
    (hlast : ∀ a ∈ env.getLast?, isSpace a = false) (ht : IsTail tail) :
    ∃ tail', strip (env ++ tail) = env ++ tail' ∧
      (tail' = [] ∨ ∃ k, tail' = ' ' :: List.replicate (k + 1) 'x') := by
  cases ht with
  | none => exact ⟨[], by rw [List.append_nil, strip_eq_self hhead hlast], Or.inl rfl⟩
  | padding k =>
    cases k with
    | zero => exact ⟨[], by simpa using strip_append_space hne hhead hlast, Or.inl rfl⟩
    | succ k =>
      refine ⟨_, strip_eq_self ?_ ?_, Or.inr ⟨k, rfl⟩⟩
      · rwa [List.head?_append_of_ne_nil _ hne]
      · intro a ha
        rw [List.getLast?_append_of_ne_nil _ (List.cons_ne_nil _ _), ← List.singleton_append,
          List.getLast?_append_of_ne_nil _ (by simp)] at ha
        rw [List.eq_of_mem_replicate (List.mem_of_mem_getLast? ha)]
        decide

/-! ## 3.  Where the two disagree -/

/-- The core of an accepted token: what is left without the newline the check lets
through. -/
theorem exists_core {v : Text} (h : matchesToken v = true) :
    ∃ u nl, v = u ++ nl ∧ IsToken u ∧ (nl = [] ∨ nl = ['\n']) := by
  obtain ⟨u, nl, hv, hne, hall, hnl⟩ := matchesToken_iff.mp h
  exact ⟨u, nl, hv, ⟨hne, hall⟩, hnl⟩

theorem isGap_newline_space {nl : Text} (h : nl = [] ∨ nl = ['\n']) : IsGap (nl ++ [' ']) := by
  rcases h with rfl | rfl
  · exact isGap_space
  · refine ⟨List.cons_ne_nil _ _, fun c hc => ?_⟩
    rcases List.mem_pair.mp hc with rfl | rfl <;> decide

theorem upper_append (s t : Text) : upper (s ++ t) = upper s ++ upper t :=
  List.map_append

theorem upper_newline {nl : Text} (h : nl = [] ∨ nl = ['\n']) : upper nl = nl := by
  rcases h with rfl | rfl
  · rfl
  · decide

/-- **What a built body parses to.**  The message has the kind and the number it was
built with, and the cores of the two tokens. -/
theorem parse_of_buildBody {kind : Kind} {c : Correlation} {size : Option ℤ} {body : Text}
    (h : buildBody kind c size = .ok body) {u nl r nl' : Text} (he : c.experiment = u ++ nl)
    (hu : IsToken u) (hnl : nl = [] ∨ nl = ['\n']) (hrun : c.runId = r ++ nl') (hr : IsToken r)
    (hnl' : nl' = [] ∨ nl' = ['\n']) :
    ∃ m, parse body = .ok (some m) ∧ m.kind = kind ∧
      m.correlation.key = (upper u, r, c.sequenceId) := by
  obtain ⟨env, tail, henv, rfl, htail⟩ := exists_eq_of_buildBody h
  obtain ⟨hne, hhead, hlast⟩ := envelope_ends henv
  obtain ⟨tail', hstrip, htail'⟩ := exists_strip_eq hne hhead hlast htail
  obtain ⟨s, hs, henv'⟩ := envelope_eq_ok henv
  have hdigit := isDigit_of_mem_sequenceToken hs
  have hv : ∃ v, Leads bodyTailRe tail' v ∧ ∀ a ∈ tail'.head?, isDecimal a = false := by
    rcases htail' with rfl | ⟨k, rfl⟩
    · exact ⟨_, leads_tail_nil, by simp⟩
    · refine ⟨_, leads_tail_padding k, fun a ha => ?_⟩
      rw [← Option.some_inj.mp ha]
      decide
  obtain ⟨v, hv, hstop⟩ := hv
  obtain ⟨w, hw, hcaptures⟩ := exists_leads_bodyRe kind isGap_space isGap_space
    (isGap_newline_space hnl) (isGap_newline_space hnl') hu.upper hr
    ⟨sequenceToken_ne_nil hs, fun a ha => isDecimal_of_isDigit (hdigit a ha)⟩
    (fun a ha => isSpace_eq_false_of_isDigit (hdigit a ha)) hstop hv
  have hlayout : strip (env ++ tail) = protocolToken ++ ([' '] ++ (kind.keyword ++ ([' '] ++
      (upper u ++ ((nl ++ [' ']) ++ (r ++ ((nl' ++ [' ']) ++ (s ++ tail')))))))) := by
    rw [hstrip, henv', he, hrun, upper_append, upper_newline hnl]
    simp
  have hint : intOfText s = .ok c.sequenceId := by
    obtain ⟨rfl, hle⟩ := sequenceToken_eq_ok hs
    rw [intOfText, length_zfill, if_pos (max_le (by decide) hle), digitsValue_zfill,
      digitsValue_toDigits]
  have hkind : (if kind.keyword = requestKeyword then Kind.request else Kind.ack) = kind := by
    cases kind <;> decide
  have hgroup : w.group .sequence = s ∧ w.group .experiment = upper u ∧ w.group .run = r ∧
      w.group .kind = kind.keyword := by
    simp only [Way.group, Way.group?, hcaptures]
    exact ⟨rfl, rfl, rfl, rfl⟩
  obtain ⟨hgs, hge, hgr, hgk⟩ := hgroup
  have hnew : Correlation.new (upper u) r c.sequenceId =
      .ok ⟨upper u, r, c.sequenceId, hu.upper.matchesToken, hr.matchesToken⟩ := by
    simp [Correlation.new, checkToken, hu.upper.matchesToken, hr.matchesToken, bind, Except.bind]
  refine ⟨⟨kind, ⟨upper u, r, c.sequenceId, hu.upper.matchesToken, hr.matchesToken⟩,
    w.group .padding ≠ []⟩, ?_, rfl, ?_⟩
  · rw [parse, hlayout, hw.firstWay_eq]
    simp only [hgs, hge, hgr, hgk, hint, hnew, hkind]
  · simp [Correlation.key, PythonText.upper]

/-- The builder of a kind. -/
def build : Kind → Correlation → Option ℤ → Except MessageError Text
  | .request => buildRequest
  | .ack => buildAck

/-- `body` comes back under the kind and the key it was built with, in the size it
was built for. -/
def RoundTrips (c : Correlation) (kind : Kind) (size : Option ℤ) (body : Text) : Prop :=
  (∃ m, parse body = .ok (some m) ∧ m.kind = kind ∧ m.correlation.key = c.key) ∧
    ∀ n, size = some n → (utf8Length body : ℤ) = n

theorem build_eq (kind : Kind) (c : Correlation) (size : Option ℤ) :
    build kind c size = buildBody kind c size := by
  cases kind <;> rfl

theorem newline_eq_nil_iff {u nl : Text} (hu : IsToken u) (hnl : nl = [] ∨ nl = ['\n']) :
    nl = [] ↔ (u ++ nl).getLast? ≠ some '\n' := by
  rcases hnl with rfl | rfl
  · simp only [List.append_nil, true_iff]
    intro hlast
    exact absurd (hu.2 _ (List.mem_of_mem_getLast? hlast)) (by decide)
  · simp

/-- **Exactly which built bodies come back.**  For every correlation, kind and size
for which the builder answers, the body parses to a message of that kind under the
same key, in the requested size, if and only if neither token ends in a newline. -/
theorem roundTrips_iff {c : Correlation} {kind : Kind} {size : Option ℤ} {body : Text}
    (h : build kind c size = .ok body) :
    RoundTrips c kind size body ↔
      c.experiment.getLast? ≠ some '\n' ∧ c.runId.getLast? ≠ some '\n' := by
  rw [build_eq] at h
  obtain ⟨u, nl, he, hu, hnl⟩ := exists_core c.experiment_matches
  obtain ⟨r, nl', hrun, hr, hnl'⟩ := exists_core c.runId_matches
  obtain ⟨m, hparse, hkind, hkey⟩ := parse_of_buildBody h he hu hnl hrun hr hnl'
  have hsize : ∀ n, size = some n → (utf8Length body : ℤ) = n := by
    rintro n rfl
    exact utf8Length_of_buildBody h
  have hckey : c.key = (upper u ++ nl, r ++ nl', c.sequenceId) := by
    rw [Correlation.key, he, hrun, upper_append, upper_newline hnl]
  rw [he, hrun, ← newline_eq_nil_iff hu hnl, ← newline_eq_nil_iff hr hnl']
  constructor
  · rintro ⟨⟨m', hparse', -, hkey'⟩, -⟩
    obtain rfl : m = m' := Option.some_inj.mp (Except.ok.inj (hparse.symm.trans hparse'))
    rw [hkey, hckey, Prod.mk.injEq, Prod.mk.injEq] at hkey'
    obtain ⟨hexp, hrun', -⟩ := hkey'
    exact ⟨List.self_eq_append_right.mp hexp, List.self_eq_append_right.mp hrun'⟩
  · rintro ⟨rfl, rfl⟩
    refine ⟨⟨m, hparse, hkind, ?_⟩, hsize⟩
    rw [hkey, hckey, List.append_nil, List.append_nil]

/-- A run identifier with a newline at its end, which the constructor accepts. -/
def newlineRun : Correlation := ⟨['E', '0'], ['r', '\n'], 1, by decide, by decide⟩

/-- **A request that can never be acknowledged**: the constructor accepts run `r\n`,
the builder answers, and the body parses under run `r`. -/
theorem newlineRun_not_roundTrips :
    (Correlation.new ['E', '0'] ['r', '\n'] 1).toOption = some newlineRun ∧
    ∃ body, build .request newlineRun none = .ok body ∧
      ¬ RoundTrips newlineRun .request none body := by
  refine ⟨by decide, _, rfl, ?_⟩
  rintro ⟨⟨m, hparse, -, hkey⟩, -⟩
  have hread : ((parse ['F', 'A', 'M', '/', '1', ' ', 'R', 'E', 'Q', 'U', 'E', 'S', 'T', ' ', 'E',
      '0', ' ', 'r', '\n', ' ', '0', '0', '0', '0', '1']).toOption.join.map
      fun m => m.correlation.key) = some (['E', '0'], ['r'], 1) := by decide
  have hm : some m.correlation.key = some (['E', '0'], ['r'], 1) :=
    (congrArg (fun r => r.toOption.join.map fun m => m.correlation.key) hparse).symm.trans hread
  rw [hkey] at hm
  exact absurd hm (by decide)

/-- A run identifier without one, for which a request padded to 40 bytes comes back. -/
theorem upperRun_roundTrips :
    ∃ body, build .request upperRun (some 40) = .ok body ∧
      RoundTrips upperRun .request (some 40) body :=
  ⟨_, rfl, (roundTrips_iff rfl).mpr (by decide)⟩

end Message
end FederatedMessaging
