import FederatedMessaging.Foundations.Json

/-!
# The grammar of JSON

Which texts spell which values, as `json.loads` reads them: `Spells` for values, for the items
of an array and for the members of an object, `Quoted` for what stands between quotes.

## Why a grammar

The printer and the reader are compared through it.  What the printer writes spells the value
(`spells_print`), the reader finds a value that the text spells, and it finds every such value.
A property of all accepted texts is then an induction on a derivation, with no reader in it.

Strings have no control characters, and a `\u` escape for half a surrogate pair is outside the
grammar: what it denotes is not text.
-/

namespace FederatedMessaging
namespace Json

open PythonText

/-! ## Blanks -/

/-- The white space of JSON. -/
def isBlank (c : Char) : Bool := c = ' ' || c = '\t' || c = '\n' || c = '\r'

/-- White space only. -/
def Blank (t : Text) : Prop := ∀ c ∈ t, isBlank c = Bool.true

theorem blank_nil : Blank [] := fun _ hc => absurd hc List.not_mem_nil

theorem Blank.append {s t : Text} (hs : Blank s) (ht : Blank t) : Blank (s ++ t) :=
  fun c hc => (List.mem_append.mp hc).elim (hs c) (ht c)

/-! ## Strings -/

/-- The value of a hexadecimal digit. -/
def hexDigit (c : Char) : Option ℕ :=
  if '0' ≤ c ∧ c ≤ '9' then some (c.toNat - 48)
  else if 'a' ≤ c ∧ c ≤ 'f' then some (c.toNat - 87)
  else if 'A' ≤ c ∧ c ≤ 'F' then some (c.toNat - 55)
  else none

/-- `int(digits, 16)`, of four digits. -/
def hexValue (a b c d : Char) : Option ℕ := do
  let a ← hexDigit a
  let b ← hexDigit b
  let c ← hexDigit c
  let d ← hexDigit d
  pure (4096 * a + 256 * b + 16 * c + d)

/-- What a letter after a backslash stands for. -/
def unescape (c : Char) : Option Char :=
  if c = '"' ∨ c = '\\' ∨ c = '/' then some c
  else if c = 'n' then some '\n'
  else if c = 'r' then some '\r'
  else if c = 't' then some '\t'
  else if c = 'b' then some (Char.ofNat 8)
  else if c = 'f' then some (Char.ofNat 12)
  else none

/-- The first half of a surrogate pair. -/
def IsHigh (n : ℕ) : Prop := 0xd800 ≤ n ∧ n < 0xdc00

/-- The second half. -/
def IsLow (n : ℕ) : Prop := 0xdc00 ≤ n ∧ n < 0xe000

instance (n : ℕ) : Decidable (IsHigh n) := inferInstanceAs (Decidable (_ ∧ _))

instance (n : ℕ) : Decidable (IsLow n) := inferInstanceAs (Decidable (_ ∧ _))

/-- The character of a surrogate pair. -/
def joinPair (high low : ℕ) : Char :=
  Char.ofNat (0x10000 + (high - 0xd800) * 0x400 + (low - 0xdc00))

/-- **What stands between quotes, and the string it denotes.** -/
inductive Quoted : Text → Text → Prop
  | nil : Quoted [] []
  | plain {c : Char} {body s : Text} (control : 32 ≤ c.toNat) (quote : c ≠ '"')
      (backslash : c ≠ '\\') (rest : Quoted body s) : Quoted (c :: body) (c :: s)
  | letter {e c : Char} {body s : Text} (unescaped : unescape e = some c)
      (rest : Quoted body s) : Quoted ('\\' :: e :: body) (c :: s)
  | unicode {a b c d : Char} {n : ℕ} {body s : Text} (value : hexValue a b c d = some n)
      (high : ¬ IsHigh n) (low : ¬ IsLow n) (rest : Quoted body s) :
      Quoted ('\\' :: 'u' :: a :: b :: c :: d :: body) (Char.ofNat n :: s)
  | pair {a b c d a' b' c' d' : Char} {n n' : ℕ} {body s : Text}
      (value : hexValue a b c d = some n) (high : IsHigh n)
      (value' : hexValue a' b' c' d' = some n') (low : IsLow n') (rest : Quoted body s) :
      Quoted ('\\' :: 'u' :: a :: b :: c :: d :: '\\' :: 'u' :: a' :: b' :: c' :: d' :: body)
        (joinPair n n' :: s)

/-! ## Values -/

/-- What a text can spell. -/
inductive Part where
  | value (x : Json)
  | items (xs : List Json)
  | members (ms : List (Text × Json))

/-- **The grammar.**  Items and members are spelled with their closing bracket. -/
inductive Spells : Text → Part → Prop
  | word (w : Word) : Spells w.text (.value (.word w))
  | int {n : Numeral} (valid : n.Valid) (integer : n.IsInteger)
      (limit : n.whole.length ≤ maxStrDigits) : Spells n.text (.value (.int n.value))
  | float {n : Numeral} (valid : n.Valid) (fractional : ¬ n.IsInteger) :
      Spells n.text (.value (.float n))
  | string {body s : Text} (quoted : Quoted body s) :
      Spells ('"' :: (body ++ ['"'])) (.value (.string s))
  | emptyArray {w : Text} (blank : Blank w) : Spells ('[' :: (w ++ [']'])) (.value (.array []))
  | array {w t : Text} {xs : List Json} (blank : Blank w) (items : Spells t (.items xs)) :
      Spells ('[' :: (w ++ t)) (.value (.array xs))
  | emptyObject {w : Text} (blank : Blank w) :
      Spells ('\x7b' :: (w ++ ['\x7d'])) (.value (.object []))
  | object {w t : Text} {ms : List (Text × Json)} (blank : Blank w)
      (members : Spells t (.members ms)) :
      Spells ('\x7b' :: (w ++ t)) (.value (.object (dictOf ms)))
  | lastItem {t w : Text} {x : Json} (item : Spells t (.value x)) (blank : Blank w) :
      Spells (t ++ (w ++ [']'])) (.items [x])
  | item {t w w' t' : Text} {x : Json} {xs : List Json} (item : Spells t (.value x))
      (blank : Blank w) (blank' : Blank w') (items : Spells t' (.items xs)) :
      Spells (t ++ (w ++ ',' :: (w' ++ t'))) (.items (x :: xs))
  | lastMember {body key w w' t w'' : Text} {x : Json} (quoted : Quoted body key)
      (blank : Blank w) (blank' : Blank w') (value : Spells t (.value x)) (blank'' : Blank w'') :
      Spells ('"' :: (body ++ '"' :: (w ++ ':' :: (w' ++ (t ++ (w'' ++ ['\x7d']))))))
        (.members [(key, x)])
  | member {body key w w' t w₁ w₂ t' : Text} {x : Json} {ms : List (Text × Json)}
      (quoted : Quoted body key) (blank : Blank w) (blank' : Blank w')
      (value : Spells t (.value x)) (blank₁ : Blank w₁) (blank₂ : Blank w₂)
      (members : Spells t' (.members ms)) :
      Spells ('"' :: (body ++ '"' :: (w ++ ':' :: (w' ++ (t ++ (w₁ ++ ',' :: (w₂ ++ t')))))))
        (.members ((key, x) :: ms))

/-! ## Strings, quoted -/

theorem hexDigit_digitChar {n : ℕ} (h : n < 16) : hexDigit n.digitChar = some n := by
  interval_cases n <;> rfl

/-- Four digits, read back. -/
theorem hexValue_hex4 {n : ℕ} (h : n < 0x10000) :
    hexValue (n / 4096 % 16).digitChar (n / 256 % 16).digitChar (n / 16 % 16).digitChar
      (n % 16).digitChar = some n := by
  have hlt : ∀ m : ℕ, m % 16 < 16 := fun m => Nat.mod_lt m (by decide)
  simp only [hexValue, hexDigit_digitChar (hlt _), Option.pure_def, Option.bind_eq_bind,
    Option.bind_some, Option.some.injEq]
  omega

theorem unescape_of_shortEscape {c e : Char} (h : shortEscape c = some e) :
    unescape e = some c := by
  unfold shortEscape at h
  split_ifs at h with hsame <;> obtain rfl := Option.some.inj h
  · rcases hsame with rfl | rfl <;> rfl
  all_goals (rename_i hc; subst hc; rfl)

/-- A scalar value is not half a pair. -/
theorem toNat_not_surrogate (c : Char) : ¬ IsHigh c.toNat ∧ ¬ IsLow c.toNat := by
  have hvalid := c.valid
  unfold IsHigh IsLow
  rcases hvalid with h | ⟨h, -⟩
  · have : c.toNat < 0xd800 := h
    omega
  · have : 0xdfff < c.toNat := h
    omega

theorem toNat_lt (c : Char) : c.toNat < 0x110000 := by
  rcases c.valid with h | ⟨-, h⟩
  · exact Nat.lt_trans h (by decide)
  · exact h

/-- One escaped character denotes itself. -/
theorem quoted_unicodeEscape (c : Char) {body s : Text} (h : Quoted body s) :
    Quoted (unicodeEscape c ++ body) (c :: s) := by
  obtain ⟨hhigh, hlow⟩ := toNat_not_surrogate c
  have hbound := toNat_lt c
  by_cases hbasic : c.toNat < 0x10000
  · have hquoted := Quoted.unicode (hexValue_hex4 hbasic) hhigh hlow h
    rw [Char.ofNat_toNat] at hquoted
    simpa [unicodeEscape, hbasic, hex4] using hquoted
  · have hn : 0xd800 + (c.toNat - 0x10000) / 0x400 < 0x10000 := by omega
    have hn' : 0xdc00 + (c.toNat - 0x10000) % 0x400 < 0x10000 := by omega
    have hquoted := Quoted.pair (hexValue_hex4 hn) (by unfold IsHigh; omega) (hexValue_hex4 hn')
      (by unfold IsLow; omega) h
    have hjoin : joinPair (0xd800 + (c.toNat - 0x10000) / 0x400)
        (0xdc00 + (c.toNat - 0x10000) % 0x400) = c := by
      unfold joinPair
      rw [show 0x10000 + (0xd800 + (c.toNat - 0x10000) / 0x400 - 0xd800) * 0x400 +
        (0xdc00 + (c.toNat - 0x10000) % 0x400 - 0xdc00) = c.toNat by omega, Char.ofNat_toNat]
    rw [hjoin] at hquoted
    simpa [unicodeEscape, hbasic, hex4] using hquoted

theorem quoted_escapeChar (asciiOnly : Bool) (c : Char) {body s : Text} (h : Quoted body s) :
    Quoted (escapeChar asciiOnly c ++ body) (c :: s) := by
  unfold escapeChar
  cases hshort : shortEscape c with
  | some letter => exact .letter (unescape_of_shortEscape hshort) h
  | none =>
    dsimp only
    split_ifs with hescape
    · exact quoted_unicodeEscape c h
    · refine .plain (not_lt.mp fun hlt => hescape (.inl hlt)) ?_ ?_ h
      · rintro rfl
        exact absurd hshort (by decide)
      · rintro rfl
        exact absurd hshort (by decide)

/-- **What is written between quotes denotes the string.** -/
theorem quoted_escape (asciiOnly : Bool) (s : Text) : Quoted (escape asciiOnly s) s := by
  induction s with
  | nil => exact .nil
  | cons c s ih => exact quoted_escapeChar asciiOnly c ih

/-! ## Documents, printed -/

theorem blank_replicate (n : ℕ) : Blank (List.replicate n ' ') := by
  intro c hc
  rw [List.eq_of_mem_replicate hc]
  rfl

theorem blank_gap (style : Style) (level : ℕ) : Blank (style.gap level) := by
  unfold Style.gap
  split
  · exact blank_nil
  · exact List.forall_mem_cons.mpr ⟨rfl, blank_replicate _⟩

theorem blank_afterComma (style : Style) (level : ℕ) : Blank (style.afterComma level) := by
  refine Blank.append ?_ (blank_gap style level)
  split
  · exact blank_replicate 1
  · exact blank_nil

theorem blank_afterColon (style : Style) : Blank style.afterColon := by
  unfold Style.afterColon
  split
  · exact blank_replicate 1
  · exact blank_nil

/-- Keys that differ are kept as they are. -/
theorem dictOf_eq_self {ms : List (Text × Json)} (h : (ms.map Prod.fst).Nodup) :
    dictOf ms = ms :=
  OrderedDict.entries_update_of_nodup h

/-- Every member of a dictionary is one of the pairs it was made of. -/
theorem mem_of_mem_dictOf {ms : List (Text × Json)} {m : Text × Json} (h : m ∈ dictOf ms) :
    m ∈ ms :=
  (OrderedDict.mem_or_mem_of_mem_update h).resolve_left List.not_mem_nil

theorem head?_toDigits_ne {n : ℕ} (hpos : 0 < n) : (Nat.toDigits 10 n).head? ≠ some '0' := by
  induction n using Nat.strong_induction_on with
  | _ n ih =>
    rcases lt_or_ge n 10 with hn | hn
    · rw [Nat.toDigits_of_lt_base hn]
      interval_cases n <;> decide
    · rw [Nat.toDigits_of_base_le (by decide) hn,
        List.head?_append_of_ne_nil _ Nat.toDigits_ne_nil]
      exact ih (n / 10) (by omega) (by omega)

theorem isWhole_toDigits (n : ℕ) : Numeral.IsWhole (Nat.toDigits 10 n) := by
  rcases Nat.eq_zero_or_pos n with rfl | hpos
  · exact .inl rfl
  · exact .inr ⟨Nat.toDigits_ne_nil, head?_toDigits_ne hpos,
      fun c hc => isDigit_of_mem_toDigits hc⟩

theorem valid_ofInt (n : ℤ) : (Numeral.ofInt n).Valid :=
  ⟨isWhole_toDigits _, fun _ hc => absurd hc List.not_mem_nil, .inl rfl⟩

theorem value_ofInt (n : ℤ) : (Numeral.ofInt n).value = n := by
  unfold Numeral.value Numeral.ofInt
  dsimp only
  rw [digitsValue_toDigits]
  by_cases h : n < 0
  · simp only [h, decide_true, if_true]
    omega
  · simp only [h, decide_false, Bool.false_eq_true, if_false]
    omega

theorem nodesOfItems_eq (items : List Json) : nodesOfItems items = items.flatMap nodes := by
  induction items with
  | nil => rfl
  | cons x xs ih => rw [nodesOfItems, ih, List.flatMap_cons]

theorem nodesOfMembers_eq (members : List (Text × Json)) :
    nodesOfMembers members = members.flatMap fun m => m.2.nodes := by
  induction members with
  | nil => rfl
  | cons m ms ih => rw [nodesOfMembers, ih, List.flatMap_cons]

theorem mem_nodes_self (j : Json) : j ∈ j.nodes := by
  cases j <;> exact List.mem_cons_self

theorem mem_nodes_array {items : List Json} {node : Json} :
    node ∈ (array items).nodes ↔ node = .array items ∨ ∃ x ∈ items, node ∈ x.nodes := by
  rw [nodes, nodesOfItems_eq, List.mem_cons, List.mem_flatMap]

theorem mem_nodes_object {members : List (Text × Json)} {node : Json} :
    node ∈ (object members).nodes ↔
      node = .object members ∨ ∃ m ∈ members, node ∈ m.2.nodes := by
  rw [nodes, nodesOfMembers_eq, List.mem_cons, List.mem_flatMap]

theorem Valid.own {j : Json} (h : j.Valid) : j.OwnValid := h j (mem_nodes_self j)

theorem Valid.of_mem_array {items : List Json} (h : (array items).Valid) {x : Json}
    (hx : x ∈ items) : x.Valid :=
  fun node hnode => h node (mem_nodes_array.mpr (.inr ⟨x, hx, hnode⟩))

theorem Valid.of_mem_object {members : List (Text × Json)} (h : (object members).Valid)
    {m : Text × Json} (hm : m ∈ members) : m.2.Valid :=
  fun node hnode => h node (mem_nodes_object.mpr (.inr ⟨m, hm, hnode⟩))

/-- The items of an array, from the spelling of each. -/
theorem spells_printItems {style : Style} {level : ℕ} {t : Text} {x : Json}
    (ht : Spells t (.value x)) (xs : List Json)
    (hxs : ∀ y ∈ xs, Spells (print style (level + 1) y) (.value y)) :
    Spells (t ++ printItems style level xs) (.items (x :: xs)) := by
  induction xs generalizing t x with
  | nil => exact .lastItem ht (blank_gap style level)
  | cons y ys ih =>
    obtain ⟨hy, hys⟩ := List.forall_mem_cons.mp hxs
    exact .item ht blank_nil (blank_afterComma style (level + 1)) (ih hy hys)

/-- The members of an object, from the spelling of each value. -/
theorem spells_printMembers {style : Style} {level : ℕ} (key : Text) {t : Text} {x : Json}
    (ht : Spells t (.value x)) (ms : List (Text × Json))
    (hms : ∀ m ∈ ms, Spells (print style (level + 1) m.2) (.value m.2)) :
    Spells (quote style.asciiOnly key ++ ':' :: style.afterColon ++
      (t ++ printMembers style level ms)) (.members ((key, x) :: ms)) := by
  induction ms generalizing key t x with
  | nil =>
    have hspells := Spells.lastMember (quoted_escape style.asciiOnly key) blank_nil
      (blank_afterColon style) ht (blank_gap style level)
    simpa [quote, printMembers] using hspells
  | cons m ms ih =>
    obtain ⟨hm, hms⟩ := List.forall_mem_cons.mp hms
    have hspells := Spells.member (quoted_escape style.asciiOnly key) blank_nil
      (blank_afterColon style) ht blank_nil (blank_afterComma style (level + 1)) (ih m.1 hm hms)
    simpa [quote, printMembers] using hspells

/-- **What is printed spells the value.** -/
theorem spells_print (style : Style) (level : ℕ) {j : Json} (h : j.Valid) :
    Spells (print style level j) (.value j) := by
  induction j generalizing level with
  | word w => exact .word w
  | int n =>
    have hint := Spells.int (valid_ofInt n) ⟨rfl, rfl⟩ h.own
    rwa [value_ofInt] at hint
  | float numeral => exact .float h.own.1 h.own.2
  | string s => exact .string (quoted_escape style.asciiOnly s)
  | array items ih =>
    cases items with
    | nil => exact .emptyArray blank_nil
    | cons x xs =>
      have hall : ∀ y ∈ x :: xs, Spells (print style (level + 1) y) (.value y) :=
        fun y hy => ih y hy (level + 1) (h.of_mem_array hy)
      obtain ⟨hx, hxs⟩ := List.forall_mem_cons.mp hall
      exact .array (blank_gap style (level + 1)) (spells_printItems hx xs hxs)
  | object members ih =>
    cases members with
    | nil => exact .emptyObject blank_nil
    | cons m ms =>
      have hall : ∀ m' ∈ m :: ms, Spells (print style (level + 1) m'.2) (.value m'.2) :=
        fun m' hm' => ih m' hm' (level + 1) (h.of_mem_object hm')
      obtain ⟨hm, hms⟩ := List.forall_mem_cons.mp hall
      have hobject := Spells.object (blank_gap style (level + 1))
        (spells_printMembers m.1 hm ms hms)
      rwa [dictOf_eq_self h.own] at hobject

end Json
end FederatedMessaging
