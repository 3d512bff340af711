import FederatedMessaging.Foundations.JsonReading

/-!
# Inside and outside of strings

A scan of a JSON text from the left tells, without parsing, which characters stand inside a
string: a quote opens a string or closes it, and a backslash takes the next character with it.

## What the zones are for

A reader that cuts a text at characters the writer did not escape gets pieces that start inside
a string.  Such a piece may well be a JSON text (`123` is), but then inside and outside have
changed places in it.  Outside of strings there is no backslash, neither in the whole nor in
the piece; so there is none in the piece at all (`notMem_backslash_of_inside`), and its strings
are made of its own characters.
-/

namespace FederatedMessaging
namespace Json

open PythonText

/-- Where a character stands. -/
inductive Zone where
  | outside
  | inside
  /-- inside, after a backslash -/
  | escaped
  deriving DecidableEq, Repr

/-- The zone after one character more. -/
def zoneStep : Zone → Char → Zone
  | .outside, c => if c = '"' then .inside else .outside
  | .inside, c => if c = '"' then .outside else if c = '\\' then .escaped else .inside
  | .escaped, _ => .inside

/-- The zone after a text. -/
def zoneAfter (zone : Zone) (t : Text) : Zone := t.foldl zoneStep zone

/-- The characters outside of strings, without the quotes. -/
def outsideChars : Zone → Text → Text
  | _, [] => []
  | zone, c :: t =>
    (if zone = .outside ∧ c ≠ '"' then [c] else []) ++ outsideChars (zoneStep zone c) t

theorem zoneAfter_append (zone : Zone) (s t : Text) :
    zoneAfter zone (s ++ t) = zoneAfter (zoneAfter zone s) t := List.foldl_append

theorem outsideChars_append (zone : Zone) (s t : Text) :
    outsideChars zone (s ++ t) = outsideChars zone s ++ outsideChars (zoneAfter zone s) t := by
  induction s generalizing zone with
  | nil => rfl
  | cons c s ih =>
    rw [List.cons_append, outsideChars, outsideChars, ih, List.append_assoc]
    rfl

theorem mem_outsideChars {zone : Zone} {s t : Text} {c : Char}
    (hzone : zoneAfter zone s = .outside) (hc : c ≠ '"') :
    c ∈ outsideChars zone (s ++ c :: t) := by
  rw [outsideChars_append, hzone, outsideChars, if_pos ⟨rfl, hc⟩]
  exact List.mem_append_right _ List.mem_cons_self

/-! ## Texts that end where they start -/

/-- A printable ASCII character that means nothing in a string. -/
def Printable (c : Char) : Prop := 32 < c.toNat ∧ c.toNat < 127 ∧ c ≠ '"' ∧ c ≠ '\\'

instance (c : Char) : Decidable (Printable c) := inferInstanceAs (Decidable (_ ∧ _))

/-- The characters of the grammar outside of strings. -/
def Structural (c : Char) : Prop := isBlank c = Bool.true ∨ Printable c

/-- **Every string that is opened is closed, and outside of strings there are only characters
of the grammar.** -/
structure Balanced (t : Text) : Prop where
  closed : zoneAfter .outside t = .outside
  structural : ∀ c ∈ outsideChars .outside t, Structural c

theorem Balanced.append {s t : Text} (hs : Balanced s) (ht : Balanced t) : Balanced (s ++ t) := by
  constructor
  · rw [zoneAfter_append, hs.closed, ht.closed]
  · rw [outsideChars_append, hs.closed]
    exact fun c hc => (List.mem_append.mp hc).elim (hs.structural c) (ht.structural c)

/-- No quote and no backslash. -/
def Flat (t : Text) : Prop := ∀ c ∈ t, c ≠ '"' ∧ c ≠ '\\'

theorem zoneAfter_flat {zone : Zone} (hzone : zone ≠ .escaped) {t : Text} (h : Flat t) :
    zoneAfter zone t = zone := by
  induction t with
  | nil => rfl
  | cons c t ih =>
    obtain ⟨⟨hquote, hbackslash⟩, ht⟩ := List.forall_mem_cons.mp h
    have hstep : zoneStep zone c = zone := by
      cases zone with
      | outside => exact if_neg hquote
      | inside => exact (if_neg hquote).trans (if_neg hbackslash)
      | escaped => exact absurd rfl hzone
    change zoneAfter (zoneStep zone c) t = zone
    rw [hstep]
    exact ih ht

theorem mem_of_mem_outsideChars {zone : Zone} {t : Text} {c : Char}
    (h : c ∈ outsideChars zone t) : c ∈ t ∧ c ≠ '"' := by
  induction t generalizing zone with
  | nil => exact absurd h List.not_mem_nil
  | cons d t ih =>
    rw [outsideChars] at h
    rcases List.mem_append.mp h with h | h
    · split_ifs at h with hd
      · obtain rfl := List.mem_singleton.mp h
        exact ⟨List.mem_cons_self, hd.2⟩
      · exact absurd h List.not_mem_nil
    · exact ⟨List.mem_cons_of_mem d (ih h).1, (ih h).2⟩

theorem Structural.flat {c : Char} (h : Structural c) : c ≠ '"' ∧ c ≠ '\\' := by
  rcases h with h | ⟨-, -, hquote, hbackslash⟩
  · simp only [isBlank, Bool.or_eq_true, decide_eq_true_eq] at h
    rcases h with ((rfl | rfl) | rfl) | rfl <;> decide
  · exact ⟨hquote, hbackslash⟩

theorem balanced_of_structural {t : Text} (h : ∀ c ∈ t, Structural c) : Balanced t :=
  ⟨zoneAfter_flat (by decide) fun c hc => (h c hc).flat,
    fun c hc => h c (mem_of_mem_outsideChars hc).1⟩

theorem Blank.balanced {w : Text} (h : Blank w) : Balanced w :=
  balanced_of_structural fun c hc => .inl (h c hc)

theorem balanced_singleton {c : Char} (h : Structural c) : Balanced [c] :=
  balanced_of_structural fun _ hd => List.mem_singleton.mp hd ▸ h

/-! ## Strings -/

theorem zoneAfter_cons (zone : Zone) (c : Char) (t : Text) :
    zoneAfter zone (c :: t) = zoneAfter (zoneStep zone c) t := rfl

theorem outsideChars_cons_of_ne {zone : Zone} (h : zone ≠ .outside) (c : Char) (t : Text) :
    outsideChars zone (c :: t) = outsideChars (zoneStep zone c) t := by
  rw [outsideChars, if_neg fun hc => h hc.1]
  rfl

theorem hexDigit_flat {c : Char} {n : ℕ} (h : hexDigit c = some n) : c ≠ '"' ∧ c ≠ '\\' := by
  constructor <;> rintro rfl <;> cases h

theorem hexValue_flat {a b c d : Char} {n : ℕ} (h : hexValue a b c d = some n) :
    Flat [a, b, c, d] := by
  obtain ⟨_, ha, h⟩ := Option.bind_eq_some_iff.mp h
  obtain ⟨_, hb, h⟩ := Option.bind_eq_some_iff.mp h
  obtain ⟨_, hc, h⟩ := Option.bind_eq_some_iff.mp h
  obtain ⟨_, hd, -⟩ := Option.bind_eq_some_iff.mp h
  have hflat : Flat [] := fun _ he => absurd he List.not_mem_nil
  exact List.forall_mem_cons.mpr ⟨hexDigit_flat ha, List.forall_mem_cons.mpr ⟨hexDigit_flat hb,
    List.forall_mem_cons.mpr ⟨hexDigit_flat hc,
      List.forall_mem_cons.mpr ⟨hexDigit_flat hd, hflat⟩⟩⟩⟩

/-- A text that is inside from its beginning to its end. -/
structure Inside (t : Text) : Prop where
  stays : zoneAfter .inside t = .inside
  none_outside : outsideChars .inside t = []

theorem Inside.append {s t : Text} (hs : Inside s) (ht : Inside t) : Inside (s ++ t) :=
  ⟨by rw [zoneAfter_append, hs.stays, ht.stays],
    by rw [outsideChars_append, hs.none_outside, hs.stays, ht.none_outside]; rfl⟩

theorem Flat.inside {t : Text} (h : Flat t) : Inside t := by
  refine ⟨zoneAfter_flat (by decide) h, ?_⟩
  induction t with
  | nil => rfl
  | cons c t ih =>
    obtain ⟨⟨hquote, hbackslash⟩, ht⟩ := List.forall_mem_cons.mp h
    rw [outsideChars_cons_of_ne (by decide)]
    have hstep : zoneStep .inside c = .inside := (if_neg hquote).trans (if_neg hbackslash)
    rw [hstep, ih ht]

theorem inside_escape (c : Char) : Inside ['\\', c] := ⟨rfl, rfl⟩

/-- **A string does not end before its quote.** -/
theorem Quoted.inside {body s : Text} (h : Quoted body s) : Inside body := by
  induction h with
  | nil => exact ⟨rfl, rfl⟩
  | @plain c body s _ hquote hbackslash _ ih =>
    have hflat : Flat [c] := fun d hd => List.mem_singleton.mp hd ▸ ⟨hquote, hbackslash⟩
    exact hflat.inside.append ih
  | @letter e c body s _ _ ih => exact (inside_escape e).append ih
  | unicode hvalue _ _ _ ih =>
    exact (inside_escape 'u').append ((hexValue_flat hvalue).inside.append ih)
  | pair hvalue _ hvalue' _ _ ih =>
    exact (inside_escape 'u').append ((hexValue_flat hvalue).inside.append
      ((inside_escape 'u').append ((hexValue_flat hvalue').inside.append ih)))

theorem balanced_quoted {body s : Text} (h : Quoted body s) :
    Balanced ('"' :: (body ++ ['"'])) := by
  have hstep : zoneStep .outside '"' = .inside := rfl
  constructor
  · rw [zoneAfter_cons, hstep, zoneAfter_append, h.inside.stays]
    rfl
  · rw [outsideChars, hstep, outsideChars_append, h.inside.stays, h.inside.none_outside]
    exact fun c hc => absurd hc List.not_mem_nil

/-! ## Everything that is spelled -/

theorem printable_of_isDigit {c : Char} (h : c.isDigit = Bool.true) : Printable c := by
  have hrange : 48 ≤ c.toNat ∧ c.toNat ≤ 57 := by
    simpa [Char.isDigit, UInt32.le_iff_toNat_le] using h
  refine ⟨by omega, by omega, ?_, ?_⟩ <;> rintro rfl <;> cases h

theorem printable_numeral {n : Numeral} (h : n.Valid) : ∀ c ∈ n.text, Printable c := by
  have hwhole : ∀ c ∈ n.whole, Printable c := by
    rcases h.whole with hzero | ⟨-, -, hdigits⟩
    · rw [hzero]
      exact fun c hc => List.mem_singleton.mp hc ▸ printable_of_isDigit rfl
    · exact fun c hc => printable_of_isDigit (hdigits c hc)
  have hexponent : ∀ c ∈ n.exponent, Printable c := by
    rcases h.exponent with hnil | ⟨letter, hletter, sign, hsign, digits, heq, -, hdigits⟩
    · rw [hnil]
      exact fun c hc => absurd hc List.not_mem_nil
    · rw [heq]
      intro c hc
      rcases List.mem_append.mp hc with hc | hc
      · rcases List.mem_cons.mp hc with rfl | hc
        · rcases List.mem_pair.mp hletter with rfl | rfl <;> decide
        · rcases List.mem_cons.mp hsign with rfl | hsign
          · exact absurd hc List.not_mem_nil
          · rcases List.mem_pair.mp hsign with rfl | rfl <;>
              (obtain rfl := List.mem_singleton.mp hc; decide)
      · exact printable_of_isDigit (hdigits c hc)
  intro c hc
  unfold Numeral.text at hc
  simp only [List.mem_append] at hc
  rcases hc with ((hc | hc) | hc) | hc
  · split_ifs at hc
    · obtain rfl := List.mem_singleton.mp hc
      decide
    · exact absurd hc List.not_mem_nil
  · exact hwhole c hc
  · split_ifs at hc
    · exact absurd hc List.not_mem_nil
    · rcases List.mem_cons.mp hc with rfl | hc
      · decide
      · exact printable_of_isDigit (h.fraction c hc)
  · exact hexponent c hc

theorem printable_word (w : Word) : ∀ c ∈ w.text, Printable c := by
  have hall : w.text.all (fun c => decide (Printable c)) = Bool.true := by
    cases w <;> rfl
  exact fun c hc => of_decide_eq_true (List.all_eq_true.mp hall c hc)

/-- **A text of the grammar opens and closes its strings.** -/
theorem Spells.balanced {u : Text} {part : Part} (h : Spells u part) : Balanced u := by
  have char : ∀ c : Char, Printable c → Balanced [c] := fun c hc => balanced_singleton (.inr hc)
  induction h with
  | word w => exact balanced_of_structural fun c hc => .inr (printable_word w c hc)
  | int hvalid _ _ | float hvalid _ =>
    exact balanced_of_structural fun c hc => .inr (printable_numeral hvalid c hc)
  | string hquoted => exact balanced_quoted hquoted
  | emptyArray hw => exact (char '[' (by decide)).append (hw.balanced.append (char ']' (by decide)))
  | array hw _ ih => exact (char '[' (by decide)).append (hw.balanced.append ih)
  | emptyObject hw =>
    exact (char '\x7b' (by decide)).append (hw.balanced.append (char '\x7d' (by decide)))
  | object hw _ ih => exact (char '\x7b' (by decide)).append (hw.balanced.append ih)
  | lastItem _ hw ih => exact ih.append (hw.balanced.append (char ']' (by decide)))
  | item _ hw hw' _ ih ihitems =>
    exact ih.append
      (hw.balanced.append ((char ',' (by decide)).append (hw'.balanced.append ihitems)))
  | @lastMember body key w w' t w'' x hquoted hw hw' _ hw'' ih =>
    have htail := (char ':' (by decide)).append (hw'.balanced.append (ih.append
      (hw''.balanced.append (char '\x7d' (by decide)))))
    have hall := (balanced_quoted hquoted).append (hw.balanced.append htail)
    simpa using hall
  | @member body key w w' t w₁ w₂ t' x ms hquoted hw hw' _ hw₁ hw₂ _ ih ihmembers =>
    have htail := (char ':' (by decide)).append (hw'.balanced.append (ih.append
      (hw₁.balanced.append ((char ',' (by decide)).append (hw₂.balanced.append ihmembers)))))
    have hall := (balanced_quoted hquoted).append (hw.balanced.append htail)
    simpa using hall

/-! ## Pieces that start inside -/

/-- Outside for inside. -/
def Zone.other : Zone → Zone
  | .outside => .inside
  | .inside => .outside
  | .escaped => .escaped

/-- Without backslashes, a scan that starts in the other zone stays in the other zone. -/
theorem zoneAfter_other {t : Text} (h : '\\' ∉ t) {zone : Zone} (hzone : zone ≠ .escaped) :
    zoneAfter zone.other t = (zoneAfter zone t).other ∧ zoneAfter zone t ≠ .escaped := by
  induction t generalizing zone with
  | nil => exact ⟨rfl, hzone⟩
  | cons c t ih =>
    obtain ⟨hc, ht⟩ := not_or.mp (mt List.mem_cons.mpr h)
    have hstep : zoneStep zone.other c = (zoneStep zone c).other ∧ zoneStep zone c ≠ .escaped := by
      by_cases hquote : c = '"'
      · subst hquote
        cases zone with
        | escaped => exact absurd rfl hzone
        | _ => decide
      · have hne : ¬ c = '\\' := fun h => hc h.symm
        cases zone with
        | escaped => exact absurd rfl hzone
        | outside => simp [zoneStep, Zone.other, hquote, hne]
        | inside => simp [zoneStep, Zone.other, hquote, hne]
    rw [zoneAfter_cons, zoneAfter_cons, hstep.1]
    exact ih ht hstep.2

/-- **A piece that starts inside a string, and is itself a text of the grammar, has no
backslash.**  Outside of strings there is none, neither in the whole nor in the piece. -/
theorem notMem_backslash_of_inside {before u after : Text} {part : Part}
    (hwhole : Balanced (before ++ (u ++ after))) (hzone : zoneAfter .outside before = .inside)
    (h : Spells u part) : '\\' ∉ u := by
  intro hmem
  obtain ⟨s, t, rfl, hs⟩ := List.eq_append_cons_of_mem hmem
  have hbackslash : ¬ Structural '\\' := fun h => absurd rfl h.flat.2
  -- the piece is inside where the first one stands
  have hpiece : zoneAfter .outside s ≠ .outside := fun hout =>
    hbackslash (h.balanced.structural _ (mem_outsideChars hout (by decide)))
  obtain ⟨hother, hescaped⟩ := zoneAfter_other hs (by decide : Zone.outside ≠ .escaped)
  have hinside : zoneAfter .outside s = .inside := by
    cases hcase : zoneAfter .outside s with
    | outside => exact absurd hcase hpiece
    | inside => rfl
    | escaped => exact absurd hcase hescaped
  -- so the whole is outside
  have hout : zoneAfter .outside (before ++ s) = .outside := by
    rw [zoneAfter_append, hzone]
    exact hother.trans (congrArg Zone.other hinside)
  have hmem : '\\' ∈ outsideChars .outside (before ++ s ++ '\\' :: (t ++ after)) :=
    mem_outsideChars hout (by decide)
  refine hbackslash (hwhole.structural _ ?_)
  simpa only [List.append_assoc, List.cons_append] using hmem

/-- The strings of a part. -/
def Part.strings : Part → List Text
  | .value x => x.strings
  | .items xs => xs.flatMap Json.strings
  | .members ms => ms.flatMap fun m => m.1 :: m.2.strings

theorem strings_array (items : List Json) :
    (array items).strings = items.flatMap Json.strings := by
  unfold strings
  rw [nodes, nodesOfItems_eq, List.flatMap_cons, List.flatMap_assoc]
  rfl

theorem mem_strings_object {members : List (Text × Json)} {s : Text} :
    s ∈ (object members).strings ↔
      s ∈ members.map Prod.fst ∨ ∃ m ∈ members, s ∈ m.2.strings := by
  unfold strings
  rw [nodes, nodesOfMembers_eq, List.flatMap_cons, List.flatMap_assoc, List.mem_append,
    List.mem_flatMap]
  rfl

/-- Without backslashes a string is what stands between its quotes. -/
theorem Quoted.eq_of_notMem {body s : Text} (h : Quoted body s) (hflat : '\\' ∉ body) :
    s = body := by
  induction h with
  | nil => rfl
  | plain _ _ _ _ ih => rw [ih fun hmem => hflat (List.mem_cons_of_mem _ hmem)]
  | _ => exact absurd List.mem_cons_self hflat

/-- Without backslashes, the strings are made of characters of the text. -/
theorem Spells.mem_of_mem_strings {u : Text} {part : Part} (h : Spells u part) (hflat : '\\' ∉ u)
    {s : Text} (hs : s ∈ part.strings) {c : Char} (hc : c ∈ s) : c ∈ u := by
  induction h generalizing s with
  | word | int | float | emptyArray | emptyObject => exact absurd hs List.not_mem_nil
  | string hquoted =>
    obtain rfl := List.mem_singleton.mp hs
    have hbody := hquoted.eq_of_notMem fun hmem => hflat (by simp [hmem])
    simp [← hbody, hc]
  | array hw _ ih =>
    rw [Part.strings, strings_array] at hs
    have := ih (fun hmem => hflat (by simp [hmem])) hs hc
    simp [this]
  | @object w t ms hw _ ih =>
    have hs' : s ∈ Part.strings (.members ms) := by
      rw [Part.strings, mem_strings_object] at hs
      rw [Part.strings, List.mem_flatMap]
      rcases hs with hs | ⟨m, hm, hs⟩
      · obtain ⟨m, hm, rfl⟩ := List.mem_map.mp hs
        exact ⟨m, mem_of_mem_dictOf hm, List.mem_cons_self⟩
      · exact ⟨m, mem_of_mem_dictOf hm, List.mem_cons_of_mem _ hs⟩
    have := ih (fun hmem => hflat (by simp [hmem])) hs' hc
    simp [this]
  | lastItem _ hw ih =>
    have := ih (fun hmem => hflat (by simp [hmem])) (by simpa [Part.strings] using hs) hc
    simp [this]
  | item _ hw hw' _ ih ihitems =>
    rw [Part.strings, List.flatMap_cons] at hs
    rcases List.mem_append.mp hs with hs | hs
    · have := ih (fun hmem => hflat (by simp [hmem])) hs hc
      simp [this]
    · have := ihitems (fun hmem => hflat (by simp [hmem])) hs hc
      simp [this]
  | lastMember hquoted hw hw' _ hw'' ih =>
    have hbody := hquoted.eq_of_notMem fun hmem => hflat (by simp [hmem])
    rcases List.mem_cons.mp (by simpa [Part.strings] using hs) with rfl | hs
    · simp [← hbody, hc]
    · have := ih (fun hmem => hflat (by simp [hmem])) hs hc
      simp [this]
  | member hquoted hw hw' _ hw₁ hw₂ _ ih ihmembers =>
    have hbody := hquoted.eq_of_notMem fun hmem => hflat (by simp [hmem])
    rw [Part.strings, List.flatMap_cons] at hs
    rcases List.mem_append.mp hs with hs | hs
    · rcases List.mem_cons.mp hs with rfl | hs
      · simp [← hbody, hc]
      · have := ih (fun hmem => hflat (by simp [hmem])) hs hc
        simp [this]
    · have := ihmembers (fun hmem => hflat (by simp [hmem])) hs hc
      simp [this]

/-! ## The characters that are printed

A property of printable characters, of line breaks where there are some, and of the characters of
the strings that are not control characters, holds of all that is printed.
-/

section Printed

variable {style : Style} {Q : Char → Prop}

theorem forall_hex4 (hQ : ∀ c : Char, 32 ≤ c.toNat → c.toNat < 127 → Q c) (n : ℕ) :
    ∀ c ∈ hex4 n, Q c := by
  have hdigit : ∀ m : ℕ, Q (m % 16).digitChar := by
    intro m
    have hm : m % 16 < 16 := Nat.mod_lt m (by decide)
    generalize m % 16 = k at hm ⊢
    interval_cases k <;> exact hQ _ (by decide) (by decide)
  intro c hc
  simp only [hex4, List.mem_cons, List.not_mem_nil, or_false] at hc
  rcases hc with rfl | rfl | rfl | rfl <;> exact hdigit _

theorem forall_unicodeEscape (hQ : ∀ c : Char, 32 ≤ c.toNat → c.toNat < 127 → Q c) (c : Char) :
    ∀ d ∈ unicodeEscape c, Q d := by
  have hcons : ∀ n, ∀ d ∈ '\\' :: 'u' :: hex4 n, Q d := fun n =>
    List.forall_mem_cons.mpr ⟨hQ _ (by decide) (by decide),
      List.forall_mem_cons.mpr ⟨hQ _ (by decide) (by decide), forall_hex4 hQ n⟩⟩
  intro d hd
  unfold unicodeEscape at hd
  dsimp only at hd
  split_ifs at hd
  · exact hcons _ d hd
  · exact (List.mem_append.mp hd).elim (hcons _ d) (hcons _ d)

theorem shortEscape_range {c letter : Char} (h : shortEscape c = some letter) :
    32 ≤ letter.toNat ∧ letter.toNat < 127 := by
  unfold shortEscape at h
  split_ifs at h with hsame <;> obtain rfl := Option.some.inj h
  · rcases hsame with rfl | rfl <;> decide
  all_goals decide

theorem forall_quote (hQ : ∀ c : Char, 32 ≤ c.toNat → c.toNat < 127 → Q c) {asciiOnly : Bool}
    {s : Text} (hs : ∀ c ∈ s, 32 ≤ c.toNat → Q c) : ∀ c ∈ quote asciiOnly s, Q c := by
  have hchar : ∀ c ∈ s, ∀ d ∈ escapeChar asciiOnly c, Q d := by
    intro c hc d hd
    unfold escapeChar at hd
    cases hshort : shortEscape c with
    | some letter =>
      rw [hshort] at hd
      obtain ⟨hlow, hhigh⟩ := shortEscape_range hshort
      rcases List.mem_pair.mp hd with rfl | rfl
      · exact hQ _ (by decide) (by decide)
      · exact hQ _ hlow hhigh
    | none =>
      rw [hshort] at hd
      dsimp only at hd
      split_ifs at hd with hescape
      · exact forall_unicodeEscape hQ c d hd
      · obtain rfl := List.mem_singleton.mp hd
        exact hs d hc (not_lt.mp fun hlt => hescape (.inl hlt))
  refine List.forall_mem_cons.mpr ⟨hQ _ (by decide) (by decide), fun d hd => ?_⟩
  rcases List.mem_append.mp hd with hd | hd
  · obtain ⟨c, hc, hd⟩ := List.mem_flatMap.mp hd
    exact hchar c hc d hd
  · obtain rfl := List.mem_singleton.mp hd
    exact hQ _ (by decide) (by decide)

/-- On one line nothing stands before an item. -/
theorem forall_gap_of_oneLine (hstyle : style.indent = none) (level : ℕ) :
    ∀ c ∈ style.gap level, Q c := by
  rw [Style.gap, hstyle]
  exact fun c hc => absurd hc List.not_mem_nil

theorem forall_space (hQ : ∀ c : Char, 32 ≤ c.toNat → c.toNat < 127 → Q c) (b : Bool) :
    ∀ c ∈ (if b then [' '] else [] : Text), Q c := by
  intro c hc
  split_ifs at hc
  · exact List.mem_singleton.mp hc ▸ hQ ' ' (by decide) (by decide)
  · exact absurd hc List.not_mem_nil

theorem forall_append {s t : Text} (hs : ∀ c ∈ s, Q c) (ht : ∀ c ∈ t, Q c) : ∀ c ∈ s ++ t, Q c :=
  fun c hc => (List.mem_append.mp hc).elim (hs c) (ht c)

theorem forall_printItems (hQ : ∀ c : Char, 32 ≤ c.toNat → c.toNat < 127 → Q c)
    (hgap : ∀ level, ∀ c ∈ style.gap level, Q c) {level : ℕ} (xs : List Json)
    (hxs : ∀ x ∈ xs, ∀ c ∈ print style (level + 1) x, Q c) :
    ∀ c ∈ printItems style level xs, Q c := by
  induction xs with
  | nil =>
    rw [printItems]
    exact forall_append (hgap level) (List.forall_mem_cons.mpr ⟨hQ _ (by decide) (by decide),
      fun c hc => absurd hc List.not_mem_nil⟩)
  | cons x xs ih =>
    obtain ⟨hx, hxs⟩ := List.forall_mem_cons.mp hxs
    rw [printItems, Style.afterComma]
    exact forall_append (List.forall_mem_cons.mpr ⟨hQ _ (by decide) (by decide),
      forall_append (forall_space hQ _) (hgap (level + 1))⟩) (forall_append hx (ih hxs))

theorem forall_printMembers (hQ : ∀ c : Char, 32 ≤ c.toNat → c.toNat < 127 → Q c)
    (hgap : ∀ level, ∀ c ∈ style.gap level, Q c) {level : ℕ} (ms : List (Text × Json))
    (hkeys : ∀ m ∈ ms, ∀ c ∈ m.1, 32 ≤ c.toNat → Q c)
    (hms : ∀ m ∈ ms, ∀ c ∈ print style (level + 1) m.2, Q c) :
    ∀ c ∈ printMembers style level ms, Q c := by
  induction ms with
  | nil =>
    rw [printMembers]
    exact forall_append (hgap level) (List.forall_mem_cons.mpr ⟨hQ _ (by decide) (by decide),
      fun c hc => absurd hc List.not_mem_nil⟩)
  | cons m ms ih =>
    obtain ⟨hm, hms⟩ := List.forall_mem_cons.mp hms
    obtain ⟨hkey, hkeys⟩ := List.forall_mem_cons.mp hkeys
    rw [printMembers, Style.afterComma]
    exact forall_append (List.forall_mem_cons.mpr ⟨hQ _ (by decide) (by decide),
      forall_append (forall_space hQ _) (hgap (level + 1))⟩)
      (forall_append (forall_append (forall_quote hQ hkey)
        (List.forall_mem_cons.mpr ⟨hQ _ (by decide) (by decide), forall_space hQ _⟩))
          (forall_append hm (ih hkeys hms)))

/-- **What is printed.** -/
theorem forall_print (hQ : ∀ c : Char, 32 ≤ c.toNat → c.toNat < 127 → Q c)
    (hgap : ∀ level, ∀ c ∈ style.gap level, Q c) {j : Json} (hvalid : j.Valid)
    (hj : ∀ s ∈ j.strings, ∀ c ∈ s, 32 ≤ c.toNat → Q c) (level : ℕ) :
    ∀ c ∈ print style level j, Q c := by
  have hprintable : ∀ c, Printable c → Q c := fun c hc => hQ c hc.1.le hc.2.1
  have hchar : ∀ {c : Char} {t : Text}, Printable c → (∀ d ∈ t, Q d) → ∀ d ∈ c :: t, Q d :=
    fun hc ht => List.forall_mem_cons.mpr ⟨hprintable _ hc, ht⟩
  have hempty : ∀ d ∈ ([] : Text), Q d := fun d hd => absurd hd List.not_mem_nil
  induction j generalizing level with
  | word w => exact fun c hc => hprintable c (printable_word w c hc)
  | int n => exact fun c hc => hprintable c (printable_numeral (valid_ofInt n) c hc)
  | float numeral => exact fun c hc => hprintable c (printable_numeral hvalid.own.1 c hc)
  | string s => exact forall_quote hQ (hj s List.mem_cons_self)
  | array items ih =>
    have hitems : ∀ x ∈ items, ∀ c ∈ print style (level + 1) x, Q c := fun x hx =>
      ih x hx (hvalid.of_mem_array hx) (fun s hs => hj s
        (strings_array items ▸ List.mem_flatMap.mpr ⟨x, hx, hs⟩)) (level + 1)
    cases items with
    | nil => exact hchar (by decide) (hchar (by decide) hempty)
    | cons x xs =>
      obtain ⟨hx, hxs⟩ := List.forall_mem_cons.mp hitems
      rw [print]
      exact forall_append (hchar (by decide) (hgap (level + 1)))
        (forall_append hx (forall_printItems hQ hgap xs hxs))
  | object members ih =>
    have hkeys : ∀ m ∈ members, ∀ c ∈ m.1, 32 ≤ c.toNat → Q c := fun m hm =>
      hj m.1 (mem_strings_object.mpr (.inl (List.mem_map_of_mem hm)))
    have hmembers : ∀ m ∈ members, ∀ c ∈ print style (level + 1) m.2, Q c := fun m hm =>
      ih m hm (hvalid.of_mem_object hm) (fun s hs => hj s
        (mem_strings_object.mpr (.inr ⟨m, hm, hs⟩))) (level + 1)
    cases members with
    | nil => exact hchar (by decide) (hchar (by decide) hempty)
    | cons m ms =>
      obtain ⟨hm, hms⟩ := List.forall_mem_cons.mp hmembers
      obtain ⟨hkey, hkeys⟩ := List.forall_mem_cons.mp hkeys
      rw [print]
      exact forall_append (hchar (by decide) (hgap (level + 1))) (forall_append (forall_append
        (forall_quote hQ hkey) (hchar (by decide) (forall_space hQ _)))
          (forall_append hm (forall_printMembers hQ hgap ms hkeys hms)))

end Printed

/-! ## The characters that are not escaped -/

section Unescaped

variable {style : Style} {c : Char}

/-- Beyond ASCII a character is written as it is. -/
theorem mem_quote {s : Text} (hc : c ∈ s) (hascii : 127 < c.toNat) : c ∈ quote false s := by
  have hshort : shortEscape c = none := by
    cases h : shortEscape c with
    | none => rfl
    | some letter =>
      unfold shortEscape at h
      split_ifs at h with hsame hc hc hc hc hc
      · rcases hsame with rfl | rfl <;> exact absurd hascii (by decide)
      all_goals (subst hc; exact absurd hascii (by decide))
  refine List.mem_cons_of_mem _ (List.mem_append_left _ (List.mem_flatMap.mpr ⟨c, hc, ?_⟩))
  unfold escapeChar
  rw [hshort]
  dsimp only
  rw [if_neg]
  · exact List.mem_singleton_self c
  · rintro (h | ⟨h, -⟩)
    · omega
    · cases h

theorem mem_printItems {level : ℕ} {xs : List Json} {x : Json} (hx : x ∈ xs)
    (hc : c ∈ print style (level + 1) x) : c ∈ printItems style level xs := by
  induction xs with
  | nil => exact absurd hx List.not_mem_nil
  | cons y ys ih =>
    rw [printItems]
    refine List.mem_append_right _ ?_
    rcases List.mem_cons.mp hx with rfl | hx
    · exact List.mem_append_left _ hc
    · exact List.mem_append_right _ (ih hx)

theorem mem_printMembers {level : ℕ} {ms : List (Text × Json)} {m : Text × Json} (hm : m ∈ ms)
    (hc : c ∈ quote style.asciiOnly m.1 ∨ c ∈ print style (level + 1) m.2) :
    c ∈ printMembers style level ms := by
  induction ms with
  | nil => exact absurd hm List.not_mem_nil
  | cons m' ms ih =>
    rw [printMembers]
    refine List.mem_append_right _ ?_
    rcases List.mem_cons.mp hm with rfl | hm
    · rcases hc with hc | hc
      · exact List.mem_append_left _ (List.mem_append_left _ hc)
      · exact List.mem_append_right _ (List.mem_append_left _ hc)
    · exact List.mem_append_right _ (List.mem_append_right _ (ih hm))

/-- **Without `ensure_ascii`, every character beyond ASCII is in the text.** -/
theorem mem_print (hstyle : style.asciiOnly = false) (hascii : 127 < c.toNat) {j : Json} {s : Text}
    (hs : s ∈ j.strings) (hc : c ∈ s) (level : ℕ) : c ∈ print style level j := by
  induction j generalizing level with
  | word | int | float => exact absurd hs List.not_mem_nil
  | string s' =>
    obtain rfl := List.mem_singleton.mp hs
    rw [print, hstyle]
    exact mem_quote hc hascii
  | array items ih =>
    rw [strings_array] at hs
    obtain ⟨x, hx, hs⟩ := List.mem_flatMap.mp hs
    have hmem := ih x hx hs (level + 1)
    cases items with
    | nil => exact absurd hx List.not_mem_nil
    | cons y ys =>
      rw [print]
      refine List.mem_append_right _ ?_
      rcases List.mem_cons.mp hx with rfl | hx
      · exact List.mem_append_left _ hmem
      · exact List.mem_append_right _ (mem_printItems hx hmem)
  | object members ih =>
    obtain ⟨m, hm, hmem⟩ : ∃ m ∈ members,
        c ∈ quote style.asciiOnly m.1 ∨ c ∈ print style (level + 1) m.2 := by
      rcases mem_strings_object.mp hs with hs | ⟨m, hm, hs⟩
      · obtain ⟨m, hm, rfl⟩ := List.mem_map.mp hs
        exact ⟨m, hm, .inl (hstyle ▸ mem_quote hc hascii)⟩
      · exact ⟨m, hm, .inr (ih m hm hs (level + 1))⟩
    cases members with
    | nil => exact absurd hm List.not_mem_nil
    | cons m' ms =>
      rw [print]
      refine List.mem_append_right _ ?_
      rcases List.mem_cons.mp hm with rfl | hm
      · rcases hmem with hmem | hmem
        · exact List.mem_append_left _ (List.mem_append_left _ hmem)
        · exact List.mem_append_right _ (List.mem_append_left _ hmem)
      · exact List.mem_append_right _ (List.mem_append_right _ (mem_printMembers hm hmem))

end Unescaped

end Json
end FederatedMessaging
