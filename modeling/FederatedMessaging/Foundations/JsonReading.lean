import FederatedMessaging.Foundations.Fallible
import FederatedMessaging.Foundations.JsonGrammar

/-!
# Reading JSON

`json.loads`, as a scanner over the text.  The recursion is bounded by the length of the text,
which is enough: every other call takes a character.

## What is proved

The scanner is sound and complete for the grammar (`spells_of_scanValue`, `found_of_spells`),
so `loads` accepts the texts that spell a value, and returns it (`loads_eq_ok_iff`).  The round
trip follows, and so does what happens to a file that was not written to its end: no proper
part of the text of an object is accepted (`whole_of_loads`).

An escaped half of a surrogate pair is reported as an error of its own: `loads` accepts it, but
what it returns is not text.
-/

namespace FederatedMessaging
namespace Json

open PythonText

/-- Why a text is not read. -/
inductive ScanError where
  /-- `JSONDecodeError` -/
  | invalid
  /-- the `ValueError` of `int` -/
  | digitLimit
  /-- not an error of `loads`: what it returns is not text -/
  | loneSurrogate
  /-- not an error of `loads`: does not happen, see `loads_ne_exhausted` -/
  | exhausted
  deriving DecidableEq, Repr

/-! ## The scanner -/

/-- The text after a character. -/
def expect (c : Char) : Text → Option Text
  | [] => none
  | d :: t => if d = c then some t else none

/-- The text after a word. -/
def expectText : Text → Text → Option Text
  | [], t => some t
  | c :: cs, t => (expect c t).bind (expectText cs)

/-- The text after white space. -/
def skipBlank (t : Text) : Text := t.dropWhile isBlank

/-- A constant. -/
def scanWord (t : Text) : Option (Word × Text) :=
  [Word.null, .true, .false, .nan, .infinity, .negativeInfinity].findSome? fun w =>
    (expectText w.text t).map fun rest => (w, rest)

/-- A run of digits. -/
def scanDigits (t : Text) : Text × Text := (t.takeWhile Char.isDigit, t.dropWhile Char.isDigit)

/-- `-?` -/
def scanMinus (t : Text) : Bool × Text :=
  match expect '-' t with
  | some rest => (Bool.true, rest)
  | none => (Bool.false, t)

/-- `0|[1-9][0-9]*` -/
def scanWhole (t : Text) : Option (Text × Text) :=
  match expect '0' t with
  | some rest => some (['0'], rest)
  | none => if (scanDigits t).1 = [] then none else some (scanDigits t)

/-- `(\.[0-9]+)?` -/
def scanFraction (t : Text) : Text × Text :=
  match expect '.' t with
  | some rest => if (scanDigits rest).1 = [] then ([], t) else scanDigits rest
  | none => ([], t)

/-- `[-+]?` -/
def scanSign (t : Text) : Text × Text :=
  match expect '-' t with
  | some rest => (['-'], rest)
  | none =>
    match expect '+' t with
    | some rest => (['+'], rest)
    | none => ([], t)

/-- `([eE][-+]?[0-9]+)?` -/
def scanExponent : Text → Text × Text
  | [] => ([], [])
  | c :: t =>
    if c ∈ ['e', 'E'] then
      let (sign, rest) := scanSign t
      let (digits, rest) := scanDigits rest
      if digits = [] then ([], c :: t) else (c :: sign ++ digits, rest)
    else ([], c :: t)

/-- A number. -/
def scanNumeral (t : Text) : Option (Numeral × Text) := do
  let (negative, t) := scanMinus t
  let (whole, t) ← scanWhole t
  let (fraction, t) := scanFraction t
  let (exponent, t) := scanExponent t
  pure (⟨negative, whole, fraction, exponent⟩, t)

/-- The value of a number. -/
def ofNumeral (n : Numeral) : Except ScanError Json :=
  if n.IsInteger then
    if n.whole.length ≤ maxStrDigits then .ok (.int n.value) else .error .digitLimit
  else .ok (.float n)

/-- The rest of a string, after its opening quote. -/
def scanString : Text → Except ScanError (Text × Text)
  | [] => .error .invalid
  | c :: t =>
    if c = '"' then .ok ([], t)
    else if c = '\\' then
      match t with
      | [] => .error .invalid
      | e :: t =>
        if e = 'u' then
          match t with
          | a :: b :: c :: d :: t =>
            match hexValue a b c d with
            | none => .error .invalid
            | some n =>
              if IsHigh n then
                match t with
                | '\\' :: 'u' :: a :: b :: c :: d :: t =>
                  match hexValue a b c d with
                  | none => .error .invalid
                  | some n' =>
                    if IsLow n' then do
                      let (s, rest) ← scanString t
                      pure (joinPair n n' :: s, rest)
                    else .error .loneSurrogate
                | _ => .error .loneSurrogate
              else if IsLow n then .error .loneSurrogate
              else do
                let (s, rest) ← scanString t
                pure (Char.ofNat n :: s, rest)
          | _ => .error .invalid
        else
          match unescape e with
          | none => .error .invalid
          | some ch => do
            let (s, rest) ← scanString t
            pure (ch :: s, rest)
    else if c.toNat < 32 then .error .invalid
    else do
      let (s, rest) ← scanString t
      pure (c :: s, rest)

mutual

/-- A value, and the text after it. -/
def scanValue : ℕ → Text → Except ScanError (Json × Text)
  | 0, _ => .error .exhausted
  | fuel + 1, t =>
    match expect '"' t with
    | some t => do
      let (s, rest) ← scanString t
      pure (.string s, rest)
    | none =>
      match expect '[' t with
      | some t =>
        match expect ']' (skipBlank t) with
        | some rest => .ok (.array [], rest)
        | none => do
          let (xs, rest) ← scanItems fuel (skipBlank t)
          pure (.array xs, rest)
      | none =>
        match expect '\x7b' t with
        | some t =>
          match expect '\x7d' (skipBlank t) with
          | some rest => .ok (.object [], rest)
          | none => do
            let (ms, rest) ← scanMembers fuel (skipBlank t)
            pure (.object (dictOf ms), rest)
        | none =>
          match scanWord t with
          | some (w, rest) => .ok (.word w, rest)
          | none =>
            match scanNumeral t with
            | some (n, rest) => do
              let x ← ofNumeral n
              pure (x, rest)
            | none => .error .invalid

/-- The items of an array, and the text after the closing bracket. -/
def scanItems : ℕ → Text → Except ScanError (List Json × Text)
  | 0, _ => .error .exhausted
  | fuel + 1, t => do
    let (x, t) ← scanValue fuel t
    match expect ']' (skipBlank t) with
    | some rest => pure ([x], rest)
    | none =>
      match expect ',' (skipBlank t) with
      | some t => do
        let (xs, rest) ← scanItems fuel (skipBlank t)
        pure (x :: xs, rest)
      | none => .error .invalid

/-- The members of an object, and the text after the closing brace. -/
def scanMembers : ℕ → Text → Except ScanError (List (Text × Json) × Text)
  | 0, _ => .error .exhausted
  | fuel + 1, t =>
    match expect '"' t with
    | none => .error .invalid
    | some t => do
      let (key, t) ← scanString t
      match expect ':' (skipBlank t) with
      | none => .error .invalid
      | some t => do
        let (x, t) ← scanValue fuel (skipBlank t)
        match expect '\x7d' (skipBlank t) with
        | some rest => pure ([(key, x)], rest)
        | none =>
          match expect ',' (skipBlank t) with
          | some t => do
            let (ms, rest) ← scanMembers fuel (skipBlank t)
            pure ((key, x) :: ms, rest)
          | none => .error .invalid

end

/-- `json.loads`. -/
def loads (t : Text) : Except ScanError Json := do
  let (x, rest) ← scanValue (2 * t.length + 1) (skipBlank t)
  if skipBlank rest = [] then pure x else .error .invalid

/-! ## What the pieces of the scanner say -/

theorem expect_eq_some {c : Char} {t rest : Text} : expect c t = some rest ↔ t = c :: rest := by
  cases t with
  | nil => exact iff_of_false nofun nofun
  | cons d t =>
    rw [expect]
    split_ifs with h
    · rw [h, Option.some.injEq, List.cons.injEq, and_iff_right rfl]
    · exact iff_of_false nofun fun heq => h (List.cons.inj heq).1

@[simp] theorem expect_cons_self (c : Char) (t : Text) : expect c (c :: t) = some t :=
  expect_eq_some.mpr rfl

theorem expect_cons_of_ne {c d : Char} (h : d ≠ c) (t : Text) : expect c (d :: t) = none := if_neg h

theorem expectText_eq_some {cs t rest : Text} : expectText cs t = some rest ↔ t = cs ++ rest := by
  induction cs generalizing t with
  | nil => exact Option.some.injEq t rest ▸ Iff.rfl
  | cons c cs ih =>
    rw [expectText, Option.bind_eq_some_iff]
    constructor
    · rintro ⟨u, hu, hrest⟩
      rw [expect_eq_some.mp hu, ih.mp hrest, List.cons_append]
    · rintro rfl
      exact ⟨cs ++ rest, expect_cons_self c _, ih.mpr rfl⟩

/-- White space, and what is left has none in front. -/
theorem exists_blank_append (t : Text) : ∃ w, Blank w ∧ t = w ++ skipBlank t :=
  ⟨t.takeWhile isBlank, fun _ hc => List.mem_takeWhile_imp hc,
    (List.takeWhile_append_dropWhile).symm⟩

/-- The text does not start with white space. -/
def Solid (t : Text) : Prop := ∀ c ∈ t.head?, isBlank c = Bool.false

theorem skipBlank_append {w t : Text} (hw : Blank w) (ht : Solid t) : skipBlank (w ++ t) = t := by
  rw [skipBlank, List.dropWhile_append_of_pos hw]
  cases t with
  | nil => rfl
  | cons c t => exact List.dropWhile_cons_of_neg (Bool.not_eq_true _ ▸ ht c rfl)

theorem skipBlank_of_blank {w : Text} (hw : Blank w) : skipBlank w = [] :=
  List.dropWhile_eq_nil_iff.mpr hw

theorem blank_of_skipBlank {t : Text} (h : skipBlank t = []) : Blank t :=
  List.dropWhile_eq_nil_iff.mp h

theorem scanWord_sound {t rest : Text} {w : Word} (h : scanWord t = some (w, rest)) :
    t = w.text ++ rest := by
  obtain ⟨w', -, hw'⟩ := List.exists_of_findSome?_eq_some h
  obtain ⟨rest', hrest, heq⟩ := Option.map_eq_some_iff.mp hw'
  obtain ⟨rfl, rfl⟩ := Prod.mk.inj heq
  exact expectText_eq_some.mp hrest

theorem scanWord_complete (w : Word) (rest : Text) :
    scanWord (w.text ++ rest) = some (w, rest) := by
  cases w <;> rfl

/-! ## Numbers -/

theorem scanDigits_sound {t ds rest : Text} (h : scanDigits t = (ds, rest)) :
    t = ds ++ rest ∧ ∀ c ∈ ds, c.isDigit = Bool.true := by
  obtain ⟨rfl, rfl⟩ := Prod.mk.inj h
  exact ⟨(List.takeWhile_append_dropWhile).symm, fun _ hc => List.mem_takeWhile_imp hc⟩

theorem scanDigits_complete {ds rest : Text} (hds : ∀ c ∈ ds, c.isDigit = Bool.true)
    (hrest : ∀ c ∈ rest.head?, c.isDigit = Bool.false) : scanDigits (ds ++ rest) = (ds, rest) := by
  unfold scanDigits
  rw [List.takeWhile_append_of_pos hds, List.dropWhile_append_of_pos hds]
  cases rest with
  | nil => exact Prod.ext (List.append_nil ds) rfl
  | cons c rest =>
    have hc : ¬ c.isDigit = Bool.true := Bool.not_eq_true _ ▸ hrest c rfl
    rw [List.takeWhile_cons_of_neg hc, List.dropWhile_cons_of_neg hc, List.append_nil]

theorem scanMinus_sound (t : Text) :
    t = (if (scanMinus t).1 then ['-'] else []) ++ (scanMinus t).2 := by
  unfold scanMinus
  cases h : expect '-' t with
  | none => rfl
  | some rest => exact expect_eq_some.mp h

theorem scanWhole_sound {t whole rest : Text} (h : scanWhole t = some (whole, rest)) :
    t = whole ++ rest ∧ Numeral.IsWhole whole := by
  unfold scanWhole at h
  cases hzero : expect '0' t with
  | some rest' =>
    rw [hzero] at h
    obtain ⟨rfl, rfl⟩ := Prod.mk.inj (Option.some.inj h)
    exact ⟨expect_eq_some.mp hzero, .inl rfl⟩
  | none =>
    rw [hzero] at h
    dsimp only at h
    split_ifs at h with hne
    have hscan := Option.some.inj h
    obtain ⟨rfl, hdigits⟩ := scanDigits_sound hscan
    rw [hscan] at hne
    refine ⟨rfl, .inr ⟨hne, fun hhead => ?_, hdigits⟩⟩
    obtain ⟨ds, rfl⟩ := List.head?_eq_some_iff.mp hhead
    rw [List.cons_append, expect_cons_self] at hzero
    cases hzero

theorem scanFraction_sound {t fraction rest : Text} (h : scanFraction t = (fraction, rest)) :
    t = (if fraction = [] then [] else '.' :: fraction) ++ rest ∧
      ∀ c ∈ fraction, c.isDigit = Bool.true := by
  have hempty : ∀ {u : Text}, (([] : Text), u) = (fraction, rest) →
      u = (if fraction = [] then [] else '.' :: fraction) ++ rest ∧
        ∀ c ∈ fraction, c.isDigit = Bool.true := by
    intro u hu
    obtain ⟨rfl, rfl⟩ := Prod.mk.inj hu
    exact ⟨rfl, fun _ hc => absurd hc List.not_mem_nil⟩
  unfold scanFraction at h
  cases hpoint : expect '.' t with
  | none =>
    rw [hpoint] at h
    exact hempty h
  | some after =>
    rw [hpoint] at h
    dsimp only at h
    split_ifs at h with hne
    · exact hempty h
    · obtain ⟨rfl, hdigits⟩ := scanDigits_sound h
      rw [h] at hne
      rw [if_neg hne]
      exact ⟨expect_eq_some.mp hpoint, hdigits⟩

theorem scanSign_sound (t : Text) :
    (scanSign t).1 ∈ [[], ['+'], ['-']] ∧ t = (scanSign t).1 ++ (scanSign t).2 := by
  unfold scanSign
  cases hminus : expect '-' t with
  | some rest =>
    exact ⟨List.mem_cons_of_mem _ (List.mem_cons_of_mem _ List.mem_cons_self),
      expect_eq_some.mp hminus⟩
  | none =>
    dsimp only
    cases hplus : expect '+' t with
    | some rest =>
      exact ⟨List.mem_cons_of_mem _ List.mem_cons_self, expect_eq_some.mp hplus⟩
    | none => exact ⟨List.mem_cons_self, rfl⟩

theorem scanExponent_sound {t exponent rest : Text} (h : scanExponent t = (exponent, rest)) :
    t = exponent ++ rest ∧ (exponent = [] ∨ Numeral.IsExponent exponent) := by
  have hempty : ∀ {u : Text}, (([] : Text), u) = (exponent, rest) →
      u = exponent ++ rest ∧ (exponent = [] ∨ Numeral.IsExponent exponent) := by
    intro u hu
    obtain ⟨rfl, rfl⟩ := Prod.mk.inj hu
    exact ⟨rfl, .inl rfl⟩
  cases t with
  | nil => exact hempty h
  | cons c t =>
    rw [scanExponent] at h
    split_ifs at h with hletter
    · dsimp only at h
      split_ifs at h with hne
      · exact hempty h
      · obtain ⟨hsign, hafter⟩ := scanSign_sound t
        obtain ⟨hdigits, hall⟩ :=
          scanDigits_sound (Prod.mk.eta : _ = scanDigits (scanSign t).2).symm
        obtain ⟨rfl, rfl⟩ := Prod.mk.inj h
        refine ⟨?_, .inr ⟨c, hletter, _, hsign, _, rfl, hne, hall⟩⟩
        rw [List.append_assoc, ← hdigits, List.cons_append, ← hafter]
    · exact hempty h

/-- A scanned number is a number of the grammar. -/
theorem scanNumeral_sound {t rest : Text} {n : Numeral} (h : scanNumeral t = some (n, rest)) :
    t = n.text ++ rest ∧ n.Valid := by
  unfold scanNumeral at h
  rcases hminus : scanMinus t with ⟨negative, afterMinus⟩
  rw [hminus] at h
  obtain ⟨⟨whole, afterWhole⟩, hwhole, h⟩ := Option.bind_eq_some_iff.mp h
  rcases hfraction : scanFraction afterWhole with ⟨fraction, afterFraction⟩
  rcases hexponent : scanExponent afterFraction with ⟨exponent, afterExponent⟩
  simp only [hfraction, hexponent] at h
  obtain ⟨rfl, rfl⟩ := Prod.mk.inj (Option.some.inj h)
  obtain ⟨rfl, hiswhole⟩ := scanWhole_sound hwhole
  obtain ⟨rfl, hdigits⟩ := scanFraction_sound hfraction
  obtain ⟨rfl, hisexponent⟩ := scanExponent_sound hexponent
  refine ⟨?_, ⟨hiswhole, hdigits, hisexponent⟩⟩
  have hsign := scanMinus_sound t
  rw [hminus] at hsign
  rw [hsign, Numeral.text]
  simp only [List.append_assoc]

/-- What may follow a number: nothing that would continue it. -/
def Stops (t : Text) : Prop :=
  ∀ c ∈ t.head?, c.isDigit = Bool.false ∧ c ≠ '.' ∧ c ∉ ['e', 'E']

theorem scanExponent_complete {exponent rest : Text}
    (h : exponent = [] ∨ Numeral.IsExponent exponent) (hrest : Stops rest) :
    scanExponent (exponent ++ rest) = (exponent, rest) := by
  rcases h with rfl | ⟨letter, hletter, sign, hsign, digits, rfl, hne, hdigits⟩
  · cases rest with
    | nil => rfl
    | cons c rest => exact if_neg (hrest c rfl).2.2
  · have hscan : scanSign (sign ++ (digits ++ rest)) = (sign, digits ++ rest) := by
      obtain ⟨d, ds, rfl⟩ := List.exists_cons_of_ne_nil hne
      have hd : d.isDigit = Bool.true := hdigits d List.mem_cons_self
      have hminus : d ≠ '-' := by rintro rfl; cases hd
      have hplus : d ≠ '+' := by rintro rfl; cases hd
      rcases List.mem_cons.mp hsign with rfl | hsign
      · rw [List.nil_append, List.cons_append, scanSign, expect_cons_of_ne hminus,
          expect_cons_of_ne hplus]
      · rcases List.mem_pair.mp hsign with rfl | rfl <;> rfl
    rw [List.append_assoc, List.cons_append, scanExponent, if_pos hletter, hscan]
    dsimp only
    rw [scanDigits_complete hdigits fun c hc => (hrest c hc).1]
    exact if_neg hne

/-- What follows the digits of a number is not a digit. -/
theorem head?_exponent_append {exponent rest : Text}
    (h : exponent = [] ∨ Numeral.IsExponent exponent) (hrest : Stops rest) :
    ∀ c ∈ (exponent ++ rest).head?, c.isDigit = Bool.false ∧ c ≠ '.' := by
  rcases h with rfl | ⟨letter, hletter, sign, -, digits, rfl, -, -⟩
  · exact fun c hc => ⟨(hrest c hc).1, (hrest c hc).2.1⟩
  · rintro c ⟨⟩
    rcases List.mem_pair.mp hletter with rfl | rfl <;> decide

theorem scanFraction_complete {fraction exponent rest : Text}
    (hfraction : ∀ c ∈ fraction, c.isDigit = Bool.true)
    (h : exponent = [] ∨ Numeral.IsExponent exponent) (hrest : Stops rest) :
    scanFraction ((if fraction = [] then [] else '.' :: fraction) ++ (exponent ++ rest)) =
      (fraction, exponent ++ rest) := by
  have hhead := head?_exponent_append h hrest
  unfold scanFraction
  split_ifs with hne
  · subst hne
    rw [List.nil_append]
    generalize exponent ++ rest = t at hhead ⊢
    cases t with
    | nil => rfl
    | cons c t => rw [expect_cons_of_ne (hhead c rfl).2]
  · rw [List.cons_append, expect_cons_self]
    dsimp only
    rw [scanDigits_complete hfraction fun c hc => (hhead c hc).1]
    exact if_neg hne

theorem scanWhole_complete {whole rest : Text} (hwhole : Numeral.IsWhole whole)
    (hrest : ∀ c ∈ rest.head?, c.isDigit = Bool.false) :
    scanWhole (whole ++ rest) = some (whole, rest) := by
  rcases hwhole with rfl | ⟨hne, hhead, hdigits⟩
  · rfl
  · obtain ⟨d, ds, rfl⟩ := List.exists_cons_of_ne_nil hne
    have hd : d ≠ '0' := fun h => hhead (congrArg some h)
    have hscan := scanDigits_complete hdigits hrest
    unfold scanWhole
    rw [List.cons_append, expect_cons_of_ne hd, ← List.cons_append, hscan]
    exact if_neg hne

/-- The first character of a whole part is a digit. -/
theorem head_isWhole {whole : Text} (h : Numeral.IsWhole whole) :
    ∃ d ds, whole = d :: ds ∧ d.isDigit = Bool.true := by
  rcases h with rfl | ⟨hne, -, hdigits⟩
  · exact ⟨'0', [], rfl, rfl⟩
  · obtain ⟨d, ds, rfl⟩ := List.exists_cons_of_ne_nil hne
    exact ⟨d, ds, rfl, hdigits d List.mem_cons_self⟩

/-- Every number of the grammar is scanned, up to where it stops. -/
theorem scanNumeral_complete {n : Numeral} (h : n.Valid) {rest : Text} (hrest : Stops rest) :
    scanNumeral (n.text ++ rest) = some (n, rest) := by
  have hhead : ∀ c ∈ ((if n.fraction = [] then [] else '.' :: n.fraction) ++
      (n.exponent ++ rest)).head?, c.isDigit = Bool.false := by
    split_ifs
    · exact fun c hc => (head?_exponent_append h.exponent hrest c hc).1
    · rintro c ⟨⟩
      rfl
  have hminus : scanMinus (n.text ++ rest) = (n.negative, n.whole ++
      ((if n.fraction = [] then [] else '.' :: n.fraction) ++ (n.exponent ++ rest))) := by
    obtain ⟨d, ds, hd, hdigit⟩ := head_isWhole h.whole
    have hne : d ≠ '-' := by rintro rfl; cases hdigit
    unfold scanMinus Numeral.text
    cases n.negative with
    | true => simp
    | false =>
      simp only [Bool.false_eq_true, if_false, List.nil_append, hd, List.cons_append,
        List.append_assoc]
      rw [expect_cons_of_ne hne]
  unfold scanNumeral
  rw [hminus]
  dsimp only
  rw [scanWhole_complete h.whole hhead, Option.bind_eq_bind, Option.bind_some]
  dsimp only
  rw [scanFraction_complete h.fraction h.exponent hrest]
  dsimp only
  rw [scanExponent_complete h.exponent hrest]
  rfl

/-- A number starts with a digit or a minus. -/
theorem head_numeral {n : Numeral} (h : n.Valid) :
    ∃ d ds, n.text = d :: ds ∧ (d.isDigit = Bool.true ∨ d = '-') := by
  obtain ⟨d, ds, hd, hdigit⟩ := head_isWhole h.whole
  unfold Numeral.text
  cases n.negative with
  | true => exact ⟨'-', _, rfl, .inr rfl⟩
  | false => exact ⟨d, _, by rw [hd]; rfl, .inl hdigit⟩

/-! ## Strings -/

/-- A scanned string is one of the grammar. -/
theorem scanString_sound {t s rest : Text} (h : scanString t = .ok (s, rest)) :
    ∃ body, t = body ++ '"' :: rest ∧ Quoted body s := by
  -- every recursive call is followed by one character more
  have tail : ∀ {u : Text} {c : Char} {s rest : Text},
      (do let (s, rest) ← scanString u; pure (c :: s, rest)) = .ok (s, rest) →
        ∃ s', scanString u = .ok (s', rest) ∧ s = c :: s' := by
    intro u c s rest h
    obtain ⟨⟨s', rest'⟩, hu, heq⟩ := Fallible.exists_of_bind h
    obtain ⟨rfl, rfl⟩ := Prod.mk.inj (Except.ok.inj heq)
    exact ⟨s', hu, rfl⟩
  fun_induction scanString t generalizing s rest with
  | case2 t =>
    obtain ⟨rfl, rfl⟩ := Prod.mk.inj (Except.ok.inj h)
    exact ⟨[], rfl, .nil⟩
  | case6 a b c d n hvalue hhigh a' b' c' d' t n' hvalue' hlow _ ih =>
    obtain ⟨s', hs', rfl⟩ := tail h
    obtain ⟨body, rfl, hquoted⟩ := ih hs'
    exact ⟨_, rfl, .pair hvalue hhigh hvalue' hlow hquoted⟩
  | case10 a b c d t n hvalue hhigh hlow _ ih =>
    obtain ⟨s', hs', rfl⟩ := tail h
    obtain ⟨body, rfl, hquoted⟩ := ih hs'
    exact ⟨_, rfl, .unicode hvalue hhigh hlow hquoted⟩
  | case13 e t _ c hunescape _ ih =>
    obtain ⟨s', hs', rfl⟩ := tail h
    obtain ⟨body, rfl, hquoted⟩ := ih hs'
    exact ⟨_, rfl, .letter hunescape hquoted⟩
  | case15 c t hquote hbackslash hcontrol ih =>
    obtain ⟨s', hs', rfl⟩ := tail h
    obtain ⟨body, rfl, hquoted⟩ := ih hs'
    exact ⟨_, rfl, .plain (not_lt.mp hcontrol) hquote hbackslash hquoted⟩
  | _ => cases h

/-- Every string of the grammar is scanned, up to its quote. -/
theorem scanString_complete {body s : Text} (h : Quoted body s) (rest : Text) :
    scanString (body ++ '"' :: rest) = .ok (s, rest) := by
  induction h with
  | nil =>
    rw [List.nil_append, scanString.eq_def]
    exact if_pos rfl
  | plain hcontrol hquote hbackslash _ ih =>
    rw [List.cons_append, scanString.eq_def]
    simp only [if_neg hquote, if_neg hbackslash, if_neg (not_lt.mpr hcontrol), ih]
    rfl
  | @letter e c body s hunescape _ ih =>
    have hne : e ≠ 'u' := by
      rintro rfl
      cases hunescape
    rw [List.cons_append, List.cons_append, scanString.eq_def]
    simp only [if_neg hne, hunescape, ih]
    rfl
  | unicode hvalue hhigh hlow _ ih =>
    simp only [List.cons_append]
    rw [scanString.eq_def]
    simp only [if_true, hvalue, if_neg hhigh, if_neg hlow, ih]
    rfl
  | pair hvalue hhigh hvalue' hlow _ ih =>
    simp only [List.cons_append]
    rw [scanString.eq_def]
    simp only [if_true, hvalue, if_pos hhigh, hvalue', if_pos hlow, ih]
    rfl

/-! ## Values -/

/-- What a scan with so much fuel finds, the text spells. -/
structure SoundAt (fuel : ℕ) : Prop where
  value {t : Text} {x : Json} {rest : Text} (h : scanValue fuel t = .ok (x, rest)) :
    ∃ u, t = u ++ rest ∧ Spells u (.value x)
  items {t : Text} {xs : List Json} {rest : Text} (h : scanItems fuel t = .ok (xs, rest)) :
    ∃ u, t = u ++ rest ∧ Spells u (.items xs)
  members {t : Text} {ms : List (Text × Json)} {rest : Text}
    (h : scanMembers fuel t = .ok (ms, rest)) : ∃ u, t = u ++ rest ∧ Spells u (.members ms)

section Sound

variable {fuel : ℕ} (ih : SoundAt fuel) {t rest : Text}

include ih

theorem SoundAt.step_value {x : Json} (h : scanValue (fuel + 1) t = .ok (x, rest)) :
    ∃ u, t = u ++ rest ∧ Spells u (.value x) := by
  rw [scanValue] at h
  cases hquote : expect '"' t with
  | some t' =>
    rw [hquote] at h
    obtain ⟨⟨s, rest'⟩, hs, heq⟩ := Fallible.exists_of_bind h
    obtain ⟨rfl, rfl⟩ := Prod.mk.inj (Except.ok.inj heq)
    obtain ⟨body, rfl, hquoted⟩ := scanString_sound hs
    refine ⟨_, ?_, .string hquoted⟩
    rw [expect_eq_some.mp hquote]
    simp
  | none =>
    rw [hquote] at h
    dsimp only at h
    cases hbracket : expect '[' t with
    | some t' =>
      rw [hbracket] at h
      dsimp only at h
      obtain ⟨w, hw, ht'⟩ := exists_blank_append t'
      cases hclose : expect ']' (skipBlank t') with
      | some rest' =>
        rw [hclose] at h
        obtain ⟨rfl, rfl⟩ := Prod.mk.inj (Except.ok.inj h)
        refine ⟨_, ?_, .emptyArray hw⟩
        rw [expect_eq_some.mp hbracket, ht', expect_eq_some.mp hclose]
        simp
      | none =>
        rw [hclose] at h
        obtain ⟨⟨xs, rest'⟩, hxs, heq⟩ := Fallible.exists_of_bind h
        obtain ⟨rfl, rfl⟩ := Prod.mk.inj (Except.ok.inj heq)
        obtain ⟨u, hu, hspells⟩ := ih.items hxs
        refine ⟨_, ?_, .array hw hspells⟩
        rw [expect_eq_some.mp hbracket, ht', hu]
        simp
    | none =>
      rw [hbracket] at h
      dsimp only at h
      cases hbrace : expect '\x7b' t with
      | some t' =>
        rw [hbrace] at h
        dsimp only at h
        obtain ⟨w, hw, ht'⟩ := exists_blank_append t'
        cases hclose : expect '\x7d' (skipBlank t') with
        | some rest' =>
          rw [hclose] at h
          obtain ⟨rfl, rfl⟩ := Prod.mk.inj (Except.ok.inj h)
          refine ⟨_, ?_, .emptyObject hw⟩
          rw [expect_eq_some.mp hbrace, ht', expect_eq_some.mp hclose]
          simp
        | none =>
          rw [hclose] at h
          obtain ⟨⟨ms, rest'⟩, hms, heq⟩ := Fallible.exists_of_bind h
          obtain ⟨rfl, rfl⟩ := Prod.mk.inj (Except.ok.inj heq)
          obtain ⟨u, hu, hspells⟩ := ih.members hms
          refine ⟨_, ?_, .object hw hspells⟩
          rw [expect_eq_some.mp hbrace, ht', hu]
          simp
      | none =>
        rw [hbrace] at h
        dsimp only at h
        cases hword : scanWord t with
        | some found =>
          rw [hword] at h
          obtain ⟨rfl, rfl⟩ := Prod.mk.inj (Except.ok.inj h)
          exact ⟨_, scanWord_sound hword, .word _⟩
        | none =>
          rw [hword] at h
          dsimp only at h
          cases hnumeral : scanNumeral t with
          | none =>
            rw [hnumeral] at h
            cases h
          | some found =>
            rw [hnumeral] at h
            obtain ⟨n, rest'⟩ := found
            obtain ⟨x', hx', heq⟩ := Fallible.exists_of_bind h
            obtain ⟨rfl, rfl⟩ := Prod.mk.inj (Except.ok.inj heq)
            obtain ⟨ht, hvalid⟩ := scanNumeral_sound hnumeral
            refine ⟨_, ht, ?_⟩
            unfold ofNumeral at hx'
            split_ifs at hx' with hinteger hlimit
            · obtain rfl := Except.ok.inj hx'
              exact .int hvalid hinteger hlimit
            · obtain rfl := Except.ok.inj hx'
              exact .float hvalid hinteger

theorem SoundAt.step_items {xs : List Json} (h : scanItems (fuel + 1) t = .ok (xs, rest)) :
    ∃ u, t = u ++ rest ∧ Spells u (.items xs) := by
  rw [scanItems] at h
  obtain ⟨⟨x, t'⟩, hx, hafter⟩ := Fallible.exists_of_bind h
  clear h
  dsimp only at hafter
  obtain ⟨u, rfl, hspells⟩ := ih.value hx
  obtain ⟨w, hw, ht'⟩ := exists_blank_append t'
  cases hclose : expect ']' (skipBlank t') with
  | some rest' =>
    rw [hclose] at hafter
    obtain ⟨rfl, rfl⟩ := Prod.mk.inj (Except.ok.inj hafter)
    refine ⟨_, ?_, .lastItem hspells hw⟩
    rw [ht', expect_eq_some.mp hclose]
    simp
  | none =>
    rw [hclose] at hafter
    dsimp only at hafter
    cases hcomma : expect ',' (skipBlank t') with
    | none =>
      rw [hcomma] at hafter
      cases hafter
    | some t'' =>
      rw [hcomma] at hafter
      obtain ⟨⟨ys, rest'⟩, hys, heq⟩ := Fallible.exists_of_bind hafter
      obtain ⟨rfl, rfl⟩ := Prod.mk.inj (Except.ok.inj heq)
      obtain ⟨u', hu', hspells'⟩ := ih.items hys
      obtain ⟨w', hw', ht''⟩ := exists_blank_append t''
      refine ⟨_, ?_, .item hspells hw hw' hspells'⟩
      rw [ht', expect_eq_some.mp hcomma, ht'', hu']
      simp

theorem SoundAt.step_members {ms : List (Text × Json)}
    (h : scanMembers (fuel + 1) t = .ok (ms, rest)) :
    ∃ u, t = u ++ rest ∧ Spells u (.members ms) := by
  rw [scanMembers] at h
  cases hquote : expect '"' t with
  | none =>
    rw [hquote] at h
    cases h
  | some t₁ =>
    rw [hquote] at h
    obtain ⟨⟨key, t₂⟩, hkey, hafter⟩ := Fallible.exists_of_bind h
    clear h
    dsimp only at hafter
    obtain ⟨body, rfl, hquoted⟩ := scanString_sound hkey
    obtain ⟨w, hw, ht₂⟩ := exists_blank_append t₂
    cases hcolon : expect ':' (skipBlank t₂) with
    | none =>
      rw [hcolon] at hafter
      cases hafter
    | some t₃ =>
      rw [hcolon] at hafter
      obtain ⟨⟨x, t₄⟩, hx, hlast⟩ := Fallible.exists_of_bind hafter
      clear hafter
      dsimp only at hlast
      obtain ⟨w', hw', ht₃⟩ := exists_blank_append t₃
      obtain ⟨u, hu, hspells⟩ := ih.value hx
      obtain ⟨w₁, hw₁, ht₄⟩ := exists_blank_append t₄
      cases hclose : expect '\x7d' (skipBlank t₄) with
      | some rest' =>
        rw [hclose] at hlast
        obtain ⟨rfl, rfl⟩ := Prod.mk.inj (Except.ok.inj hlast)
        refine ⟨_, ?_, .lastMember hquoted hw hw' hspells hw₁⟩
        rw [expect_eq_some.mp hquote, ht₂, expect_eq_some.mp hcolon, ht₃, hu, ht₄,
          expect_eq_some.mp hclose]
        simp
      | none =>
        rw [hclose] at hlast
        dsimp only at hlast
        cases hcomma : expect ',' (skipBlank t₄) with
        | none =>
          rw [hcomma] at hlast
          cases hlast
        | some t₅ =>
          rw [hcomma] at hlast
          obtain ⟨⟨ms', rest'⟩, hms, heq⟩ := Fallible.exists_of_bind hlast
          obtain ⟨rfl, rfl⟩ := Prod.mk.inj (Except.ok.inj heq)
          obtain ⟨u', hu', hspells'⟩ := ih.members hms
          obtain ⟨w₂, hw₂, ht₅⟩ := exists_blank_append t₅
          refine ⟨_, ?_, .member hquoted hw hw' hspells hw₁ hw₂ hspells'⟩
          rw [expect_eq_some.mp hquote, ht₂, expect_eq_some.mp hcolon, ht₃, hu, ht₄,
            expect_eq_some.mp hcomma, ht₅, hu']
          simp

end Sound

/-- **What the scanner finds, the text spells.** -/
theorem soundAt (fuel : ℕ) : SoundAt fuel := by
  induction fuel with
  | zero => exact ⟨nofun, nofun, nofun⟩
  | succ fuel ih => exact ⟨ih.step_value, ih.step_items, ih.step_members⟩

theorem spells_of_scanValue {fuel : ℕ} {t rest : Text} {x : Json}
    (h : scanValue fuel t = .ok (x, rest)) : ∃ u, t = u ++ rest ∧ Spells u (.value x) :=
  (soundAt fuel).value h

/-! ## Every value is found -/

/-- What has to follow a value: a number must stop. -/
def Follows : Json → Text → Prop
  | .int _, rest => Stops rest
  | .float _, rest => Stops rest
  | _, _ => True

theorem follows_of_stops (x : Json) {rest : Text} (h : Stops rest) : Follows x rest := by
  cases x <;> first | exact h | exact trivial

/-- After a value in a list there is white space or a delimiter. -/
theorem stops_blank_append {w : Text} (hw : Blank w) {c : Char} (hc : c ∈ [',', ']', '\x7d'])
    (rest : Text) : Stops (w ++ c :: rest) := by
  cases w with
  | nil =>
    rintro d ⟨⟩
    rcases List.mem_cons.mp hc with rfl | hc
    · decide
    · rcases List.mem_pair.mp hc with rfl | rfl <;> decide
  | cons d w =>
    rintro e ⟨⟩
    have hd := hw d List.mem_cons_self
    simp only [isBlank, Bool.or_eq_true, decide_eq_true_eq] at hd
    rcases hd with ((rfl | rfl) | rfl) | rfl <;> decide

theorem stops_of_blank {w : Text} (hw : Blank w) : Stops w := by
  cases w with
  | nil => exact nofun
  | cons d w =>
    rintro e ⟨⟩
    have hd := hw d List.mem_cons_self
    simp only [isBlank, Bool.or_eq_true, decide_eq_true_eq] at hd
    rcases hd with ((rfl | rfl) | rfl) | rfl <;> decide

theorem ne_of_isDigit_or_minus {c : Char} (h : c.isDigit = Bool.true ∨ c = '-') :
    c ≠ '"' ∧ c ≠ '[' ∧ c ≠ '\x7b' ∧ isBlank c = Bool.false ∧ c ≠ ']' ∧ c ≠ '\x7d' := by
  rcases h with hc | rfl
  · refine ⟨?_, ?_, ?_, ?_, ?_, ?_⟩
    · rintro rfl; cases hc
    · rintro rfl; cases hc
    · rintro rfl; cases hc
    · by_contra hblank
      simp only [isBlank, Bool.not_eq_false, Bool.or_eq_true, decide_eq_true_eq] at hblank
      rcases hblank with ((rfl | rfl) | rfl) | rfl <;> cases hc
    · rintro rfl; cases hc
    · rintro rfl; cases hc
  · decide

/-- What is spelled is not empty, and starts with neither white space nor a closing bracket. -/
theorem exists_head {u : Text} {part : Part} (h : Spells u part) :
    ∃ c t, u = c :: t ∧ isBlank c = Bool.false ∧ c ≠ ']' ∧ c ≠ '\x7d' := by
  induction h with
  | word w => cases w <;> exact ⟨_, _, rfl, by decide, by decide, by decide⟩
  | int hvalid _ _ | float hvalid _ =>
    obtain ⟨d, ds, htext, hd⟩ := head_numeral hvalid
    obtain ⟨-, -, -, hd⟩ := ne_of_isDigit_or_minus hd
    exact ⟨d, ds, htext, hd⟩
  | lastItem _ _ ih | item _ _ _ _ ih _ =>
    obtain ⟨c, t, rfl, hc⟩ := ih
    exact ⟨c, _, rfl, hc⟩
  | _ => exact ⟨_, _, rfl, by decide, by decide, by decide⟩

theorem solid_append {u : Text} {part : Part} (h : Spells u part) (rest : Text) :
    Solid (u ++ rest) := by
  obtain ⟨c, t, rfl, hblank, -⟩ := exists_head h
  rintro d ⟨⟩
  exact hblank

theorem expect_bracket {u : Text} {part : Part} (h : Spells u part) (rest : Text) :
    expect ']' (u ++ rest) = none ∧ expect '\x7d' (u ++ rest) = none := by
  obtain ⟨c, t, rfl, -, hbracket, hbrace⟩ := exists_head h
  exact ⟨expect_cons_of_ne hbracket _, expect_cons_of_ne hbrace _⟩

theorem solid_cons {c : Char} (h : isBlank c = Bool.false) (t : Text) : Solid (c :: t) := by
  rintro d ⟨⟩
  exact h

/-- A number is no constant. -/
theorem scanWord_numeral {n : Numeral} (h : n.Valid) (rest : Text) :
    scanWord (n.text ++ rest) = none := by
  obtain ⟨d, ds, hd, hdigit⟩ := head_isWhole h.whole
  cases hscan : scanWord (n.text ++ rest) with
  | none => rfl
  | some found =>
    obtain ⟨w, r⟩ := found
    have htext := scanWord_sound hscan
    have hI : d ≠ 'I' := by rintro rfl; cases hdigit
    unfold Numeral.text at htext
    cases hn : n.negative with
    | true =>
      simp only [hn, hd, if_true, List.cons_append, List.nil_append] at htext
      cases w <;> first
        | exact absurd (List.cons.inj htext).1 (by decide)
        | exact absurd (List.cons.inj (List.cons.inj htext).2).1 hI
    | false =>
      simp only [hn, hd, Bool.false_eq_true, if_false, List.cons_append, List.nil_append] at htext
      cases w <;> (rw [(List.cons.inj htext).1] at hdigit; cases hdigit)

/-- A number, as a value. -/
theorem scanValue_numeral {n : Numeral} (h : n.Valid) {x : Json} (hx : ofNumeral n = .ok x)
    {rest : Text} (hrest : Stops rest) (fuel : ℕ) :
    scanValue (fuel + 1) (n.text ++ rest) = .ok (x, rest) := by
  have hword := scanWord_numeral h rest
  have hnumeral := scanNumeral_complete h hrest
  obtain ⟨d, ds, htext, hd⟩ := head_numeral h
  obtain ⟨hquote, hbracket, hbrace, -⟩ := ne_of_isDigit_or_minus hd
  rw [htext] at hword hnumeral ⊢
  rw [List.cons_append] at hword hnumeral ⊢
  rw [scanValue, expect_cons_of_ne hquote, expect_cons_of_ne hbracket, expect_cons_of_ne hbrace]
  dsimp only
  rw [hword, hnumeral]
  dsimp only
  rw [hx]
  rfl

/-- After the last item. -/
theorem scanItems_last {fuel : ℕ} {t t' rest : Text} {x : Json}
    (hx : scanValue fuel t = .ok (x, t')) (hclose : skipBlank t' = ']' :: rest) :
    scanItems (fuel + 1) t = .ok ([x], rest) := by
  simp only [scanItems, hx, hclose, expect_cons_self, bind, Except.bind, pure, Except.pure]

/-- After another item. -/
theorem scanItems_cons {fuel : ℕ} {t t' t'' rest : Text} {x : Json} {xs : List Json}
    (hx : scanValue fuel t = .ok (x, t')) (hcomma : skipBlank t' = ',' :: t'')
    (hxs : scanItems fuel (skipBlank t'') = .ok (xs, rest)) :
    scanItems (fuel + 1) t = .ok (x :: xs, rest) := by
  have hclose : expect ']' (',' :: t'') = none := expect_cons_of_ne (by decide) t''
  simp only [scanItems, hx, hcomma, hclose, expect_cons_self, hxs, bind, Except.bind, pure,
    Except.pure]

/-- After the last member. -/
theorem scanMembers_last {fuel : ℕ} {t t₁ t₂ t₃ rest key : Text} {x : Json}
    (hkey : scanString t = .ok (key, t₁)) (hcolon : skipBlank t₁ = ':' :: t₂)
    (hx : scanValue fuel (skipBlank t₂) = .ok (x, t₃)) (hclose : skipBlank t₃ = '\x7d' :: rest) :
    scanMembers (fuel + 1) ('"' :: t) = .ok ([(key, x)], rest) := by
  simp only [scanMembers, expect_cons_self, hkey, hcolon, hx, hclose, bind, Except.bind, pure,
    Except.pure]

/-- After another member. -/
theorem scanMembers_cons {fuel : ℕ} {t t₁ t₂ t₃ t₄ rest key : Text} {x : Json}
    {ms : List (Text × Json)} (hkey : scanString t = .ok (key, t₁))
    (hcolon : skipBlank t₁ = ':' :: t₂) (hx : scanValue fuel (skipBlank t₂) = .ok (x, t₃))
    (hcomma : skipBlank t₃ = ',' :: t₄)
    (hms : scanMembers fuel (skipBlank t₄) = .ok (ms, rest)) :
    scanMembers (fuel + 1) ('"' :: t) = .ok ((key, x) :: ms, rest) := by
  have hclose : expect '\x7d' (',' :: t₄) = none := expect_cons_of_ne (by decide) t₄
  simp only [scanMembers, expect_cons_self, hkey, hcolon, hx, hcomma, hclose, hms, bind,
    Except.bind, pure, Except.pure]

/-- What finding a part means, with enough fuel. -/
def Found (u : Text) : Part → Prop
  | .value x => ∀ fuel rest, 2 * (u ++ rest).length < fuel → Follows x rest →
      scanValue fuel (u ++ rest) = .ok (x, rest)
  | .items xs => ∀ fuel rest, 2 * (u ++ rest).length + 1 < fuel →
      scanItems fuel (u ++ rest) = .ok (xs, rest)
  | .members ms => ∀ fuel rest, 2 * (u ++ rest).length + 1 < fuel →
      scanMembers fuel (u ++ rest) = .ok (ms, rest)

/-- **What a text spells, the scanner finds.** -/
theorem found_of_spells {u : Text} {part : Part} (h : Spells u part) : Found u part := by
  induction h with
  | word w =>
    intro fuel rest hfuel _
    obtain ⟨fuel, rfl⟩ := Nat.exists_eq_add_one_of_ne_zero (Nat.ne_zero_of_lt hfuel)
    rw [scanValue]
    cases w <;> rfl
  | int hvalid hinteger hlimit =>
    intro fuel rest hfuel hrest
    obtain ⟨fuel, rfl⟩ := Nat.exists_eq_add_one_of_ne_zero (Nat.ne_zero_of_lt hfuel)
    exact scanValue_numeral hvalid ((if_pos hinteger).trans (if_pos hlimit)) hrest fuel
  | float hvalid hinteger =>
    intro fuel rest hfuel hrest
    obtain ⟨fuel, rfl⟩ := Nat.exists_eq_add_one_of_ne_zero (Nat.ne_zero_of_lt hfuel)
    exact scanValue_numeral hvalid (if_neg hinteger) hrest fuel
  | string hquoted =>
    intro fuel rest hfuel _
    obtain ⟨fuel, rfl⟩ := Nat.exists_eq_add_one_of_ne_zero (Nat.ne_zero_of_lt hfuel)
    rw [List.cons_append, List.append_assoc, List.singleton_append, scanValue, expect_cons_self]
    dsimp only
    rw [scanString_complete hquoted]
    rfl
  | emptyArray hw =>
    intro fuel rest hfuel _
    obtain ⟨fuel, rfl⟩ := Nat.exists_eq_add_one_of_ne_zero (Nat.ne_zero_of_lt hfuel)
    rw [List.cons_append, List.append_assoc, List.singleton_append, scanValue,
      expect_cons_of_ne (by decide), expect_cons_self]
    dsimp only
    rw [skipBlank_append hw (solid_cons (by decide) _), expect_cons_self]
  | @array w t xs hw hitems ih =>
    intro fuel rest hfuel _
    obtain ⟨fuel, rfl⟩ := Nat.exists_eq_add_one_of_ne_zero (Nat.ne_zero_of_lt hfuel)
    simp only [List.cons_append, List.append_assoc, List.length_cons, List.length_append] at hfuel ⊢
    rw [scanValue, expect_cons_of_ne (by decide), expect_cons_self]
    dsimp only
    rw [skipBlank_append hw (solid_append hitems rest), (expect_bracket hitems rest).1]
    dsimp only
    rw [ih fuel rest (by rw [List.length_append]; omega)]
    rfl
  | emptyObject hw =>
    intro fuel rest hfuel _
    obtain ⟨fuel, rfl⟩ := Nat.exists_eq_add_one_of_ne_zero (Nat.ne_zero_of_lt hfuel)
    rw [List.cons_append, List.append_assoc, List.singleton_append, scanValue,
      expect_cons_of_ne (by decide), expect_cons_of_ne (by decide), expect_cons_self]
    dsimp only
    rw [skipBlank_append hw (solid_cons (by decide) _), expect_cons_self]
  | object hw hmembers ih =>
    intro fuel rest hfuel _
    obtain ⟨fuel, rfl⟩ := Nat.exists_eq_add_one_of_ne_zero (Nat.ne_zero_of_lt hfuel)
    simp only [List.cons_append, List.append_assoc, List.length_cons, List.length_append] at hfuel ⊢
    rw [scanValue, expect_cons_of_ne (by decide), expect_cons_of_ne (by decide), expect_cons_self]
    dsimp only
    rw [skipBlank_append hw (solid_append hmembers rest), (expect_bracket hmembers rest).2]
    dsimp only
    rw [ih fuel rest (by rw [List.length_append]; omega)]
    rfl
  | @lastItem t w x hitem hw ih =>
    intro fuel rest hfuel
    obtain ⟨fuel, rfl⟩ := Nat.exists_eq_add_one_of_ne_zero (Nat.ne_zero_of_lt hfuel)
    simp only [List.append_assoc, List.singleton_append] at hfuel ⊢
    have hstops : Stops (w ++ ']' :: rest) := stops_blank_append hw (by decide) rest
    have hx := ih fuel _ (by omega) (follows_of_stops _ hstops)
    exact scanItems_last hx (skipBlank_append hw (solid_cons (by decide) rest))
  | @item t w w' t' x xs hitem hw hw' hitems ih ihitems =>
    intro fuel rest hfuel
    obtain ⟨fuel, rfl⟩ := Nat.exists_eq_add_one_of_ne_zero (Nat.ne_zero_of_lt hfuel)
    simp only [List.append_assoc, List.cons_append] at hfuel ⊢
    have hstops : Stops (w ++ ',' :: (w' ++ (t' ++ rest))) := stops_blank_append hw (by decide) _
    have hx := ih fuel _ (by omega) (follows_of_stops _ hstops)
    refine scanItems_cons hx (skipBlank_append hw (solid_cons (by decide) _)) ?_
    rw [skipBlank_append hw' (solid_append hitems rest)]
    refine ihitems fuel rest ?_
    simp only [List.length_append, List.length_cons] at hfuel ⊢
    omega
  | lastMember hquoted hw hw' hvalue hw'' ih =>
    intro fuel rest hfuel
    obtain ⟨fuel, rfl⟩ := Nat.exists_eq_add_one_of_ne_zero (Nat.ne_zero_of_lt hfuel)
    simp only [List.append_assoc, List.cons_append, List.nil_append] at hfuel ⊢
    refine scanMembers_last (scanString_complete hquoted _)
      (skipBlank_append hw (solid_cons (by decide) _)) ?_
      (skipBlank_append hw'' (solid_cons (by decide) rest))
    rw [skipBlank_append hw' (solid_append hvalue _)]
    refine ih fuel _ ?_ (follows_of_stops _ (stops_blank_append hw'' (by decide) rest))
    simp only [List.length_append, List.length_cons] at hfuel ⊢
    omega
  | @member body key w w' t w₁ w₂ t' x ms hquoted hw hw' hvalue hw₁ hw₂ hmembers ih ihmembers =>
    intro fuel rest hfuel
    obtain ⟨fuel, rfl⟩ := Nat.exists_eq_add_one_of_ne_zero (Nat.ne_zero_of_lt hfuel)
    simp only [List.append_assoc, List.cons_append, List.length_append, List.length_cons] at hfuel ⊢
    have hcomma : Stops (w₁ ++ ',' :: (w₂ ++ (t' ++ rest))) :=
      stops_blank_append hw₁ (by decide) _
    have hx := ih fuel _ (by simp only [List.length_append, List.length_cons]; omega)
      (follows_of_stops x hcomma)
    have hms := ihmembers fuel rest (by rw [List.length_append]; omega)
    rw [← skipBlank_append hw' (solid_append hvalue _)] at hx
    rw [← skipBlank_append hw₂ (solid_append hmembers rest)] at hms
    exact scanMembers_cons (scanString_complete hquoted _)
      (skipBlank_append hw (solid_cons (by decide) _)) hx
      (skipBlank_append hw₁ (solid_cons (by decide) _)) hms

/-! ## Whole texts -/

/-- **`loads` accepts what spells a value, and returns the value.** -/
theorem loads_eq_ok_iff {t : Text} {x : Json} :
    loads t = .ok x ↔
      ∃ w u w', t = w ++ (u ++ w') ∧ Blank w ∧ Blank w' ∧ Spells u (.value x) := by
  constructor
  · intro h
    obtain ⟨⟨x', rest⟩, hx, hend⟩ := Fallible.exists_of_bind h
    dsimp only at hend
    split_ifs at hend with hrest
    obtain rfl := Except.ok.inj hend
    obtain ⟨u, hu, hspells⟩ := spells_of_scanValue hx
    obtain ⟨w, hw, ht⟩ := exists_blank_append t
    exact ⟨w, u, rest, hu ▸ ht, hw, blank_of_skipBlank hrest, hspells⟩
  · rintro ⟨w, u, w', rfl, hw, hw', hspells⟩
    have hx := found_of_spells hspells (2 * (w ++ (u ++ w')).length + 1) w'
      (by simp only [List.length_append]; omega) (follows_of_stops x (stops_of_blank hw'))
    unfold loads
    rw [skipBlank_append hw (solid_append hspells w'), hx]
    exact if_pos (skipBlank_of_blank hw')

/-- **The round trip.** -/
theorem loads_dumps (style : Style) {j : Json} (h : j.Valid) : loads (dumps style j) = .ok j :=
  loads_eq_ok_iff.mpr ⟨[], dumps style j, [], (List.append_nil _).symm, blank_nil, blank_nil,
    spells_print style 0 h⟩

/-- The round trip, with white space after the document. -/
theorem loads_dumps_append (style : Style) {j : Json} (h : j.Valid) {w : Text} (hw : Blank w) :
    loads (dumps style j ++ w) = .ok j :=
  loads_eq_ok_iff.mpr ⟨[], dumps style j, w, rfl, blank_nil, hw, spells_print style 0 h⟩

/-- Two documents with one text are one document. -/
theorem dumps_injective (style : Style) {j j' : Json} (h : j.Valid) (h' : j'.Valid)
    (heq : dumps style j = dumps style j') : j = j' :=
  Except.ok.inj ((loads_dumps style h).symm.trans (heq ▸ loads_dumps style h'))

/-- Only an object starts with a brace. -/
theorem isObject_of_head {t : Text} {x : Json} (h : Spells ('\x7b' :: t) (.value x)) :
    ∃ ms, x = .object ms := by
  generalize hu : '\x7b' :: t = u at h
  generalize hpart : Part.value x = part at h
  cases h with
  | word w => cases w <;> cases hu
  | int hvalid _ _ | float hvalid _ =>
    obtain ⟨d, ds, htext, hd⟩ := head_numeral hvalid
    rw [htext] at hu
    obtain rfl := (List.cons.inj hu).1
    rcases hd with hd | hd <;> cases hd
  | lastItem | item | lastMember | member => cases hpart
  | emptyObject => exact ⟨_, Part.value.inj hpart⟩
  | object => exact ⟨_, Part.value.inj hpart⟩
  | _ => cases hu

/-- **A part of a file that holds an object.**  The beginning of such a file is accepted only
if nothing but white space is missing, and then as the whole is. -/
theorem whole_of_loads {u w p q : Text} {ms : List (Text × Json)} {x : Json}
    (h : Spells u (.value (.object ms))) (hw : Blank w) (hfile : u ++ w = p ++ q)
    (hp : loads p = .ok x) : x = .object ms ∧ ∃ w', p = u ++ w' := by
  obtain ⟨v, u', w', rfl, hv, hw', hspells⟩ := loads_eq_ok_iff.mp hp
  have hbrace : ∃ t, u = '\x7b' :: t := by
    generalize hpart : Part.value (object ms) = part at h
    cases h with
    | emptyObject | object => exact ⟨_, rfl⟩
    | int _ _ _ | float _ _ | word _ | string _ | emptyArray _ | array _ _ => cases hpart
    | lastItem | item | lastMember | member => cases hpart
  obtain ⟨t, rfl⟩ := hbrace
  -- nothing stands before the object
  have hnil : v = [] := by
    cases v with
    | nil => rfl
    | cons c v =>
      obtain rfl : '\x7b' = c := (List.cons.inj hfile).1
      exact absurd (hv '\x7b' List.mem_cons_self) (by decide)
  subst hnil
  obtain ⟨c, t', rfl, -⟩ := exists_head hspells
  obtain rfl : '\x7b' = c := (List.cons.inj hfile).1
  obtain ⟨ms', rfl⟩ := isObject_of_head hspells
  -- the scanner finds both objects in the file
  have hsame : '\x7b' :: t' ++ (w' ++ q) = '\x7b' :: t ++ w := by
    rw [hfile]
    simp only [List.nil_append, List.append_assoc]
  have hlong := found_of_spells h (2 * ('\x7b' :: t ++ w).length + 1) w (Nat.lt_succ_self _) trivial
  have hshort := found_of_spells hspells (2 * ('\x7b' :: t ++ w).length + 1) (w' ++ q)
    (hsame ▸ Nat.lt_succ_self _) trivial
  rw [hsame, hlong] at hshort
  obtain ⟨hx, rfl⟩ := Prod.mk.inj (Except.ok.inj hshort)
  refine ⟨hx.symm, w', ?_⟩
  rw [List.nil_append, List.append_cancel_right hsame]

/-! ## The bound is enough -/

theorem scanString_ne_exhausted (t : Text) : scanString t ≠ .error .exhausted := by
  fun_induction scanString t with
  | case6 _ _ _ _ _ _ _ _ _ _ _ _ _ _ _ _ ih | case10 _ _ _ _ _ _ _ _ _ _ ih
  | case13 _ _ _ _ _ _ ih | case15 _ _ _ _ _ ih =>
    exact Fallible.bind_ne_error ih fun _ _ => nofun
  | _ => exact nofun

theorem length_skipBlank_le (t : Text) : (skipBlank t).length ≤ t.length :=
  (List.dropWhile_sublist isBlank).length_le

theorem length_of_expect {c : Char} {t rest : Text} (h : expect c t = some rest) :
    t.length = rest.length + 1 := by
  rw [expect_eq_some.mp h, List.length_cons]

theorem length_of_expect_skip {c : Char} {t rest : Text} (h : expect c (skipBlank t) = some rest) :
    rest.length + 1 ≤ t.length :=
  length_of_expect h ▸ length_skipBlank_le t

theorem length_of_scanValue {fuel : ℕ} {t rest : Text} {x : Json}
    (h : scanValue fuel t = .ok (x, rest)) : rest.length + 1 ≤ t.length := by
  obtain ⟨u, rfl, hspells⟩ := spells_of_scanValue h
  obtain ⟨c, u, rfl, -⟩ := exists_head hspells
  simp only [List.length_append, List.length_cons]
  omega

theorem length_of_scanString {t rest s : Text} (h : scanString t = .ok (s, rest)) :
    rest.length + 1 ≤ t.length := by
  obtain ⟨body, rfl, -⟩ := scanString_sound h
  simp only [List.length_append, List.length_cons]
  omega

/-- So much fuel is enough for every text that is short enough. -/
structure EnoughAt (fuel : ℕ) : Prop where
  value {t : Text} (h : 2 * t.length < fuel) : scanValue fuel t ≠ .error .exhausted
  items {t : Text} (h : 2 * t.length + 1 < fuel) : scanItems fuel t ≠ .error .exhausted
  members {t : Text} (h : 2 * t.length + 1 < fuel) : scanMembers fuel t ≠ .error .exhausted

section Enough

variable {fuel : ℕ} (ih : EnoughAt fuel) {t : Text}

include ih

theorem EnoughAt.step_value (h : 2 * t.length < fuel + 1) :
    scanValue (fuel + 1) t ≠ .error .exhausted := by
  rw [scanValue]
  split
  · exact Fallible.bind_ne_error (scanString_ne_exhausted _) fun _ _ => nofun
  split
  · rename_i t' hbracket
    have hlength := length_of_expect hbracket
    have hskip := length_skipBlank_le t'
    split
    · exact nofun
    · exact Fallible.bind_ne_error (ih.items (by omega)) fun _ _ => nofun
  split
  · rename_i t' hbrace
    have hlength := length_of_expect hbrace
    have hskip := length_skipBlank_le t'
    split
    · exact nofun
    · exact Fallible.bind_ne_error (ih.members (by omega)) fun _ _ => nofun
  split
  · exact nofun
  split
  · refine Fallible.bind_ne_error ?_ fun _ _ => nofun
    unfold ofNumeral
    split_ifs <;> exact nofun
  · exact nofun

theorem EnoughAt.step_items (h : 2 * t.length + 1 < fuel + 1) :
    scanItems (fuel + 1) t ≠ .error .exhausted := by
  rw [scanItems]
  refine Fallible.bind_ne_error (ih.value (by omega)) fun found hfound => ?_
  have hvalue := length_of_scanValue hfound
  dsimp only
  split
  · exact nofun
  split
  · rename_i t'' hcomma
    have hlength := length_of_expect_skip hcomma
    have hskip := length_skipBlank_le t''
    exact Fallible.bind_ne_error (ih.items (by omega)) fun _ _ => nofun
  · exact nofun

theorem EnoughAt.step_members (h : 2 * t.length + 1 < fuel + 1) :
    scanMembers (fuel + 1) t ≠ .error .exhausted := by
  rw [scanMembers]
  split
  · exact nofun
  rename_i t₁ hquote
  have hlength₁ := length_of_expect hquote
  refine Fallible.bind_ne_error (scanString_ne_exhausted _) fun key hkey => ?_
  have hlength₂ := length_of_scanString hkey
  dsimp only
  split
  · exact nofun
  rename_i t₃ hcolon
  have hlength₃ := length_of_expect_skip hcolon
  have hskip₃ := length_skipBlank_le t₃
  refine Fallible.bind_ne_error (ih.value (by omega)) fun found hfound => ?_
  have hvalue := length_of_scanValue hfound
  split
  · exact nofun
  split
  · rename_i t₅ hcomma
    have hlength₅ := length_of_expect_skip hcomma
    have hskip₅ := length_skipBlank_le t₅
    exact Fallible.bind_ne_error (ih.members (by omega)) fun _ _ => nofun
  · exact nofun

end Enough

theorem enoughAt (fuel : ℕ) : EnoughAt fuel := by
  induction fuel with
  | zero => exact ⟨nofun, nofun, nofun⟩
  | succ fuel ih => exact ⟨ih.step_value, ih.step_items, ih.step_members⟩

/-- **The scanner is never cut short.** -/
theorem loads_ne_exhausted (t : Text) : loads t ≠ .error .exhausted := by
  have hskip := length_skipBlank_le t
  refine Fallible.bind_ne_error ((enoughAt _).value (by omega)) fun found _ => ?_
  dsimp only
  split_ifs <;> exact nofun

end Json
end FederatedMessaging
