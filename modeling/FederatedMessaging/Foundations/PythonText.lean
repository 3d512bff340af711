import Mathlib

/-!
# Python text

A Python `str` is a sequence of code points, and here it is a list of characters.
This file has the handful of operations on it that a line-oriented text protocol
uses: `strip`, the white space and decimal digit classes of the `re` module,
`str` and `int` on natural numbers, `zfill`, and the length of the UTF-8 encoding.

## Two places where Python is wider than ASCII

`\d` and `int` accept every decimal digit of Unicode, not only `0` to `9`; the
digits come in runs of ten consecutive code points, and `decimalZeros` lists where
each run starts (Unicode 15.0, the version of Python 3.12).  `\s` and `strip`
accept the same class of white space, `isSpace`.

## The integer conversion limit

Since Python 3.11 both `str` and `int` raise `ValueError` beyond 4300 decimal
digits.  The two conversions are therefore fallible here (`strOfNat`, `intOfText`),
and `int (str n) = n` holds whenever the first of them answers.
-/

namespace FederatedMessaging
namespace PythonText

/-- A Python `str`, as its list of code points. -/
abbrev Text := List Char

/-! Membership in a list of texts and the order of `sorted` are decided everywhere, so the
laws these decisions rest on have names of their own. -/

instance lawfulBEq_text : LawfulBEq Text := inferInstance

instance isTrans_text : IsTrans Text fun x y => x ≤ y := inferInstance

instance antisymm_text : @Std.Antisymm Text fun x y => x ≤ y := inferInstance

instance total_text : @Std.Total Text fun x y => x ≤ y := inferInstance

/-- The exceptions of `str` and `int` on numbers too long to convert. -/
inductive ValueError where
  /-- Exceeds the limit for integer string conversion. -/
  | digitLimit (digits : ℕ)
  deriving DecidableEq, Repr

/-! ## Character classes -/

/-- `str.isspace` on one character, which is also the class `\s`. -/
def isSpace (c : Char) : Bool :=
  (9 ≤ c.toNat && c.toNat ≤ 13) || (28 ≤ c.toNat && c.toNat ≤ 32) || c.toNat == 0x85 ||
    c.toNat == 0xA0 || c.toNat == 0x1680 || (0x2000 ≤ c.toNat && c.toNat ≤ 0x200A) ||
    c.toNat == 0x2028 || c.toNat == 0x2029 || c.toNat == 0x202F || c.toNat == 0x205F ||
    c.toNat == 0x3000

/-- Where the runs of ten decimal digits start. -/
def decimalZeros : List ℕ :=
  [0x30, 0x660, 0x6F0, 0x7C0, 0x966, 0x9E6, 0xA66, 0xAE6, 0xB66, 0xBE6, 0xC66, 0xCE6, 0xD66,
    0xDE6, 0xE50, 0xED0, 0xF20, 0x1040, 0x1090, 0x17E0, 0x1810, 0x1946, 0x19D0, 0x1A80, 0x1A90,
    0x1B50, 0x1BB0, 0x1C40, 0x1C50, 0xA620, 0xA8D0, 0xA900, 0xA9D0, 0xA9F0, 0xAA50, 0xABF0,
    0xFF10, 0x104A0, 0x10D30, 0x11066, 0x110F0, 0x11136, 0x111D0, 0x112F0, 0x11450, 0x114D0,
    0x11650, 0x116C0, 0x11730, 0x118E0, 0x11950, 0x11C50, 0x11D50, 0x11DA0, 0x11F50, 0x16A60,
    0x16AC0, 0x16B50, 0x1D7CE, 0x1D7D8, 0x1D7E2, 0x1D7EC, 0x1D7F6, 0x1E140, 0x1E2F0, 0x1E4F0,
    0x1E950, 0x1FBF0]

/-- The value of a decimal digit of any script. -/
def decimalValue (c : Char) : Option ℕ :=
  (decimalZeros.find? fun z => z ≤ c.toNat && c.toNat < z + 10).map fun z => c.toNat - z

/-- The class `\d`. -/
def isDecimal (c : Char) : Bool := (decimalValue c).isSome

/-! ## Operations -/

/-- `str.strip` without arguments. -/
def strip (s : Text) : Text := (s.dropWhile isSpace).rdropWhile isSpace

/-- `str.upper` on ASCII text. -/
def upper (s : Text) : Text := s.map Char.toUpper

/-- `str.lower` on ASCII text. -/
def lower (s : Text) : Text := s.map Char.toLower

/-- The default of `sys.get_int_max_str_digits`. -/
def maxStrDigits : ℕ := 4300

/-- `str(n)`. -/
def strOfNat (n : ℕ) : Except ValueError Text :=
  if (Nat.toDigits 10 n).length ≤ maxStrDigits then .ok (Nat.toDigits 10 n)
  else .error (.digitLimit (Nat.toDigits 10 n).length)

/-- The number a string of decimal digits spells. -/
def digitsValue (s : Text) : ℕ :=
  s.foldl (fun acc c => 10 * acc + (decimalValue c).getD 0) 0

/-- `int(s)` on a string of decimal digits; leading zeros count towards the limit. -/
def intOfText (s : Text) : Except ValueError ℕ :=
  if s.length ≤ maxStrDigits then .ok (digitsValue s) else .error (.digitLimit s.length)

/-- `str.zfill` on a string without a sign. -/
def zfill (width : ℕ) (s : Text) : Text := List.replicate (width - s.length) '0' ++ s

/-- `len(s.encode("utf-8"))`. -/
def utf8Length (s : Text) : ℕ := (s.map Char.utf8Size).sum

/-! ## Stripping -/

theorem strip_eq_self {s : Text} (hhead : ∀ c ∈ s.head?, isSpace c = false)
    (hlast : ∀ c ∈ s.getLast?, isSpace c = false) : strip s = s := by
  have hdrop : s.dropWhile isSpace = s := by
    cases s with
    | nil => rfl
    | cons c s => simp [hhead c rfl]
  rw [strip, hdrop, List.rdropWhile_eq_self_iff]
  intro hne
  simp [hlast _ (List.getLast_mem_getLast? hne)]

/-- One trailing space does not survive. -/
theorem strip_append_space {s : Text} (hne : s ≠ []) (hhead : ∀ c ∈ s.head?, isSpace c = false)
    (hlast : ∀ c ∈ s.getLast?, isSpace c = false) : strip (s ++ [' ']) = s := by
  have hdrop : (s ++ [' ']).dropWhile isSpace = s ++ [' '] := by
    cases s with
    | nil => exact absurd rfl hne
    | cons c s => simp [hhead c rfl]
  rw [strip, hdrop, List.rdropWhile_concat_pos _ _ _ (by decide), List.rdropWhile_eq_self_iff]
  intro hne
  simp [hlast _ (List.getLast_mem_getLast? hne)]

/-! ## Decimal numerals -/

theorem decimalValue_of_isDigit {c : Char} (hc : c.isDigit = true) :
    decimalValue c = some (c.toNat - 48) := by
  have hrange : 48 ≤ c.toNat ∧ c.toNat ≤ 57 := by
    simpa [Char.isDigit, UInt32.le_iff_toNat_le] using hc
  have hfirst : (48 ≤ c.toNat && c.toNat < 48 + 10) = true := by
    simp only [Bool.and_eq_true, decide_eq_true_eq]
    omega
  simp [decimalValue, decimalZeros, hfirst]

theorem isDecimal_of_isDigit {c : Char} (hc : c.isDigit = true) : isDecimal c = true := by
  simp [isDecimal, decimalValue_of_isDigit hc]

theorem isSpace_eq_false_of_isDigit {c : Char} (hc : c.isDigit = true) : isSpace c = false := by
  have hrange : 48 ≤ c.toNat ∧ c.toNat ≤ 57 := by
    simpa [Char.isDigit, UInt32.le_iff_toNat_le] using hc
  obtain ⟨hlo, hhi⟩ := hrange
  simp only [isSpace, Bool.or_eq_false_iff, Bool.and_eq_false_iff, decide_eq_false_iff_not,
    beq_eq_false_iff_ne]
  omega

theorem digitsValue_append_singleton (s : Text) (c : Char) :
    digitsValue (s ++ [c]) = 10 * digitsValue s + (decimalValue c).getD 0 := by
  simp [digitsValue]

theorem decimalValue_digitChar {d : ℕ} (hd : d < 10) : decimalValue d.digitChar = some d := by
  interval_cases d <;> decide

/-- **A decimal numeral spells its number.** -/
theorem digitsValue_toDigits (n : ℕ) : digitsValue (Nat.toDigits 10 n) = n := by
  induction n using Nat.strong_induction_on with
  | _ n ih =>
    rcases lt_or_ge n 10 with hn | hn
    · rw [Nat.toDigits_of_lt_base hn]
      simp [digitsValue, decimalValue_digitChar hn]
    · have hmod : n % 10 < 10 := Nat.mod_lt n (by omega)
      rw [Nat.toDigits_of_base_le (by omega) hn, digitsValue_append_singleton,
        ih (n / 10) (by omega), decimalValue_digitChar hmod]
      simp only [Option.getD_some]
      omega

theorem digitsValue_replicate_zero_append (k : ℕ) (s : Text) :
    digitsValue (List.replicate k '0' ++ s) = digitsValue s := by
  have hzero : (decimalValue '0').getD 0 = 0 := by decide
  induction k with
  | zero => rfl
  | succ k ih =>
    rw [List.replicate_succ, List.cons_append, digitsValue, List.foldl_cons, hzero]
    exact ih

/-- Padding with zeros does not change the number. -/
theorem digitsValue_zfill (width : ℕ) (s : Text) : digitsValue (zfill width s) = digitsValue s :=
  digitsValue_replicate_zero_append _ s

theorem isDigit_of_mem_toDigits {n : ℕ} {c : Char} (hc : c ∈ Nat.toDigits 10 n) :
    c.isDigit = true :=
  Nat.isDigit_of_mem_toDigits (by decide) (by decide) hc

theorem isDigit_of_mem_zfill {width : ℕ} {s : Text} (hs : ∀ c ∈ s, c.isDigit = true) :
    ∀ c ∈ zfill width s, c.isDigit = true := by
  intro c hc
  rw [zfill, List.mem_append] at hc
  rcases hc with hc | hc
  · rw [List.eq_of_mem_replicate hc]
    rfl
  · exact hs c hc

theorem zfill_ne_nil {width : ℕ} {s : Text} (hs : s ≠ []) : zfill width s ≠ [] := by
  simp [zfill, hs]

theorem length_zfill (width : ℕ) (s : Text) : (zfill width s).length = max width s.length := by
  rw [zfill, List.length_append, List.length_replicate]
  omega

theorem strOfNat_eq_ok_iff {n : ℕ} {s : Text} :
    strOfNat n = .ok s ↔ s = Nat.toDigits 10 n ∧ s.length ≤ maxStrDigits := by
  unfold strOfNat
  constructor
  · intro h
    split at h
    · rename_i hle
      cases h
      exact ⟨rfl, hle⟩
    · cases h
  · rintro ⟨rfl, hle⟩
    simp [hle]

theorem decimalValue_lt {c : Char} {d : ℕ} (h : decimalValue c = some d) : d < 10 := by
  unfold decimalValue at h
  obtain ⟨z, hz, rfl⟩ := Option.map_eq_some_iff.mp h
  have hrange := List.find?_some hz
  simp only [Bool.and_eq_true, decide_eq_true_eq] at hrange
  omega

theorem digitsValue_lt (s : Text) : digitsValue s < 10 ^ s.length := by
  induction s using List.reverseRecOn with
  | nil => decide
  | append_singleton s c ih =>
    rw [digitsValue_append_singleton, List.length_append, List.length_singleton, pow_succ]
    have hd : (decimalValue c).getD 0 < 10 := by
      cases hc : decimalValue c with
      | none => decide
      | some d => exact decimalValue_lt hc
    omega

/-- `str` takes back what `int` accepted. -/
theorem exists_strOfNat_of_intOfText {s : Text} {n : ℕ} (h : intOfText s = .ok n) :
    ∃ t, strOfNat n = .ok t := by
  unfold intOfText at h
  split at h
  · rename_i hlen
    obtain rfl := Except.ok.inj h
    refine ⟨_, strOfNat_eq_ok_iff.mpr ⟨rfl, ?_⟩⟩
    refine (Nat.length_toDigits_le_iff (by decide) (by decide)).mpr ?_
    exact (digitsValue_lt s).trans_le (Nat.pow_le_pow_right (by decide) hlen)
  · cases h

/-! ## Encoded length -/

theorem utf8Length_append (s t : Text) : utf8Length (s ++ t) = utf8Length s + utf8Length t := by
  simp [utf8Length]

theorem utf8Length_replicate_of_size_one {c : Char} (hc : c.utf8Size = 1) (n : ℕ) :
    utf8Length (List.replicate n c) = n := by
  simp [utf8Length, hc]

/-! ## Case -/

/-- Lower case forgets at least what upper case forgets. -/
theorem lower_eq_of_upper_eq {s t : Text} (h : upper s = upper t) : lower s = lower t := by
  have hback : ∀ u : Text, lower (upper u) = lower u := by
    intro u
    simp [lower, upper, List.map_map, Function.comp_def]
  rw [← hback s, h, hback t]

theorem upper_eq_of_lower_eq {s t : Text} (h : lower s = lower t) : upper s = upper t := by
  have hback : ∀ u : Text, upper (lower u) = upper u := by
    intro u
    simp [lower, upper, List.map_map, Function.comp_def]
  rw [← hback s, h, hback t]

end PythonText
end FederatedMessaging
