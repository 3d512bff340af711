import FederatedMessaging.Foundations.PythonText

/-!
# Encoded text

`str.encode("utf-8")` and `bytes.decode("utf-8")`, on lists.  The code of a character is
`String.utf8EncodeChar`; the decoder takes one character after the other and fails where there
is none.

No code is the beginning of another one.  So bytes decode to at most one text
(`decode_eq_some_iff`), and what decodes among the first bytes of an encoded text is the
beginning of the text (`prefix_of_decode_take`).
-/

namespace FederatedMessaging
namespace Utf8

open PythonText

/-- `t.encode("utf-8")`. -/
def encode (t : Text) : List UInt8 := t.flatMap String.utf8EncodeChar

/-- The first character of some bytes. -/
def firstChar (bytes : List UInt8) : Option Char := bytes.toByteArray.utf8DecodeChar? 0

/-- The characters of some bytes, as many as the fuel allows. -/
def decodeFrom : ℕ → List UInt8 → Option Text
  | _, [] => some []
  | 0, _ => none
  | fuel + 1, bytes => do
    let c ← firstChar bytes
    let rest ← decodeFrom fuel (bytes.drop c.utf8Size)
    some (c :: rest)

/-- `bytes.decode("utf-8")`, none for `UnicodeDecodeError`. -/
def decode (bytes : List UInt8) : Option Text := decodeFrom bytes.length bytes

theorem encode_cons (c : Char) (t : Text) :
    encode (c :: t) = String.utf8EncodeChar c ++ encode t := rfl

theorem encode_append (s t : Text) : encode (s ++ t) = encode s ++ encode t := List.flatMap_append

/-- **A character is found where its code begins.** -/
theorem firstChar_encodeChar_append (c : Char) (bytes : List UInt8) :
    firstChar (String.utf8EncodeChar c ++ bytes) = some c := by
  rw [firstChar, List.toByteArray_append]
  exact ByteArray.utf8DecodeChar?_utf8EncodeChar_append

/-- It is found only there. -/
theorem exists_of_firstChar {bytes : List UInt8} {c : Char} (h : firstChar bytes = some c) :
    ∃ rest, bytes = String.utf8EncodeChar c ++ rest := by
  obtain ⟨l, hl⟩ := ByteArray.exists_of_utf8DecodeChar?_eq_some h
  have hdata := congrArg (fun b : ByteArray => b.data.toList) hl
  simp only [List.data_toByteArray, ByteArray.data_append, Array.toList_append] at hdata
  exact ⟨l.data.toList, hdata⟩

theorem drop_encodeChar_append (c : Char) (bytes : List UInt8) :
    (String.utf8EncodeChar c ++ bytes).drop c.utf8Size = bytes :=
  List.drop_left' (String.length_utf8EncodeChar c)

theorem encodeChar_ne_nil (c : Char) : String.utf8EncodeChar c ≠ [] := String.utf8EncodeChar_ne_nil

theorem decodeFrom_succ {bytes : List UInt8} (h : bytes ≠ []) (fuel : ℕ) :
    decodeFrom (fuel + 1) bytes = (firstChar bytes).bind fun c =>
      (decodeFrom fuel (bytes.drop c.utf8Size)).bind fun rest => some (c :: rest) := by
  cases bytes with
  | nil => exact absurd rfl h
  | cons b bytes => rfl

/-- What is decoded is the text of the bytes. -/
theorem encode_of_decodeFrom {fuel : ℕ} {bytes : List UInt8} {t : Text}
    (h : decodeFrom fuel bytes = some t) : encode t = bytes := by
  induction fuel generalizing bytes t with
  | zero =>
    cases bytes with
    | nil =>
      obtain rfl := Option.some_inj.mp h
      rfl
    | cons b bytes => cases h
  | succ fuel ih =>
    cases bytes with
    | nil =>
      obtain rfl := Option.some_inj.mp h
      rfl
    | cons b bytes =>
      obtain ⟨c, hc, h⟩ := Option.bind_eq_some_iff.mp h
      obtain ⟨rest, hrest, h⟩ := Option.bind_eq_some_iff.mp h
      obtain rfl := Option.some_inj.mp h
      obtain ⟨after, hafter⟩ := exists_of_firstChar hc
      rw [hafter, drop_encodeChar_append] at hrest
      rw [encode_cons, ih hrest, hafter]

/-- An encoded text is decoded, given fuel for its characters. -/
theorem decodeFrom_encode {t : Text} {fuel : ℕ} (h : t.length ≤ fuel) :
    decodeFrom fuel (encode t) = some t := by
  induction t generalizing fuel with
  | nil => cases fuel <;> rfl
  | cons c t ih =>
    cases fuel with
    | zero => exact absurd h (Nat.not_succ_le_zero _)
    | succ fuel =>
      have hne : String.utf8EncodeChar c ++ encode t ≠ [] := fun h =>
        encodeChar_ne_nil c (List.append_eq_nil_iff.mp h).1
      rw [encode_cons, decodeFrom_succ hne, firstChar_encodeChar_append]
      change (decodeFrom fuel ((String.utf8EncodeChar c ++ encode t).drop c.utf8Size)).bind _ = _
      rw [drop_encodeChar_append, ih (Nat.le_of_succ_le_succ h)]
      rfl

theorem length_le_length_encode (t : Text) : t.length ≤ (encode t).length := by
  induction t with
  | nil => exact le_rfl
  | cons c t ih =>
    rw [encode_cons, List.length_append, String.length_utf8EncodeChar, List.length_cons]
    have := c.utf8Size_pos
    omega

/-- **Bytes decode to the text they are the code of, and to no other.** -/
theorem decode_eq_some_iff {bytes : List UInt8} {t : Text} :
    decode bytes = some t ↔ encode t = bytes := by
  refine ⟨encode_of_decodeFrom, ?_⟩
  rintro rfl
  exact decodeFrom_encode (length_le_length_encode t)

theorem decode_encode (t : Text) : decode (encode t) = some t := decode_eq_some_iff.mpr rfl

/-- **Two texts have two codes.** -/
theorem encode_injective {s t : Text} (h : encode s = encode t) : s = t :=
  Option.some_inj.mp ((decode_encode s).symm.trans ((congrArg decode h).trans (decode_encode t)))

/-- A text whose code begins like that of another begins like it. -/
theorem prefix_of_encode_prefix {s t : Text} (h : encode s <+: encode t) : s <+: t := by
  induction s generalizing t with
  | nil => exact List.nil_prefix
  | cons c s ih =>
    obtain ⟨rest, hrest⟩ := h
    rw [encode_cons, List.append_assoc] at hrest
    cases t with
    | nil => exact absurd (List.append_eq_nil_iff.mp hrest).1 (encodeChar_ne_nil c)
    | cons d t =>
      rw [encode_cons] at hrest
      have hfirst := congrArg firstChar hrest
      rw [firstChar_encodeChar_append, firstChar_encodeChar_append, Option.some_inj] at hfirst
      subst hfirst
      exact List.cons_prefix_cons.mpr ⟨rfl, ih ⟨rest, List.append_cancel_left hrest⟩⟩

/-- **What decodes among the first bytes is the beginning of the text.** -/
theorem prefix_of_decode_take {t s : Text} {n : ℕ} (h : decode ((encode t).take n) = some s) :
    s <+: t := by
  refine prefix_of_encode_prefix ?_
  rw [decode_eq_some_iff.mp h]
  exact List.take_prefix n _

end Utf8
end FederatedMessaging
