import FederatedMessaging.Foundations.OrderedDict
import FederatedMessaging.Foundations.PythonText

/-!
# JSON documents

The values `json.dumps` writes and `json.loads` returns, and the text `dumps` makes of them.

## Values

An object is the list of its members in order, as a Python dictionary has them.  A float is
kept as the numeral that `float.__repr__` gives it, with its fraction or exponent: nothing
here computes with one.  `NaN` and the infinities are words, as in the text.

`dumps` refuses an integer beyond the conversion limit, and a dictionary has no key twice.
`Valid` is what this leaves.

## Layout

The options of `dumps` are a `Style`: an indent or none, a blank after `,` or `:` or none, and
whether everything outside ASCII is escaped.  With an indent a line break stands before every
item and before the closing bracket of what is not empty.
-/

namespace FederatedMessaging
namespace Json

open PythonText

/-! ## Values -/

/-- The constants. -/
inductive Word where
  | null
  | true
  | false
  | nan
  | infinity
  | negativeInfinity
  deriving DecidableEq, Repr

/-- A constant, spelled. -/
def Word.text : Word → Text
  | .null => ['n', 'u', 'l', 'l']
  | .true => ['t', 'r', 'u', 'e']
  | .false => ['f', 'a', 'l', 's', 'e']
  | .nan => ['N', 'a', 'N']
  | .infinity => ['I', 'n', 'f', 'i', 'n', 'i', 't', 'y']
  | .negativeInfinity => ['-', 'I', 'n', 'f', 'i', 'n', 'i', 't', 'y']

/-- A number as it is spelled: `fraction` without its point, `exponent` with its letter. -/
structure Numeral where
  negative : Bool
  whole : Text
  fraction : Text
  exponent : Text
  deriving DecidableEq, Repr

namespace Numeral

/-- The spelling. -/
def text (n : Numeral) : Text :=
  (if n.negative then ['-'] else []) ++ n.whole ++
    (if n.fraction = [] then [] else '.' :: n.fraction) ++ n.exponent

/-- An exponent: a letter, an optional sign and digits. -/
def IsExponent (t : Text) : Prop :=
  ∃ letter ∈ ['e', 'E'], ∃ sign ∈ [[], ['+'], ['-']], ∃ digits : Text,
    t = letter :: sign ++ digits ∧ digits ≠ [] ∧ ∀ c ∈ digits, c.isDigit = Bool.true

/-- The whole part: digits, and no leading zero. -/
def IsWhole (t : Text) : Prop :=
  t = ['0'] ∨ (t ≠ [] ∧ t.head? ≠ some '0' ∧ ∀ c ∈ t, c.isDigit = Bool.true)

/-- What the grammar of numbers asks for. -/
structure Valid (n : Numeral) : Prop where
  whole : IsWhole n.whole
  fraction : ∀ c ∈ n.fraction, c.isDigit = Bool.true
  exponent : n.exponent = [] ∨ IsExponent n.exponent

/-- Without fraction and exponent. -/
def IsInteger (n : Numeral) : Prop := n.fraction = [] ∧ n.exponent = []

instance (n : Numeral) : Decidable n.IsInteger := inferInstanceAs (Decidable (_ ∧ _))

/-- `int(text)`, of an integer. -/
def value (n : Numeral) : ℤ := if n.negative then -digitsValue n.whole else digitsValue n.whole

/-- `int.__repr__`. -/
def ofInt (n : ℤ) : Numeral := ⟨decide (n < 0), Nat.toDigits 10 n.natAbs, [], []⟩

end Numeral

end Json

/-- A JSON value. -/
inductive Json where
  | word (w : Json.Word)
  | int (n : ℤ)
  | float (numeral : Json.Numeral)
  | string (s : PythonText.Text)
  | array (items : List Json)
  | object (members : List (PythonText.Text × Json))

namespace Json

open PythonText

/-- **Induction on a document**: what holds of the parts holds of the whole. -/
@[induction_eliminator]
theorem induction {motive : Json → Prop} (word : ∀ w, motive (.word w))
    (int : ∀ n, motive (.int n)) (float : ∀ numeral, motive (.float numeral))
    (string : ∀ s, motive (.string s))
    (array : ∀ items, (∀ x ∈ items, motive x) → motive (.array items))
    (object : ∀ members, (∀ m ∈ members, motive m.2) → motive (.object members)) (j : Json) :
    motive j := by
  refine @Json.rec motive (fun items => ∀ x ∈ items, motive x)
    (fun members => ∀ m ∈ members, motive m.2) (fun m => motive m.2)
    word int float string array object ?_ ?_ ?_ ?_ ?_ j
  · exact fun x hx => absurd hx List.not_mem_nil
  · exact fun x xs hx hxs => List.forall_mem_cons.mpr ⟨hx, hxs⟩
  · exact fun m hm => absurd hm List.not_mem_nil
  · exact fun m ms hm hms => List.forall_mem_cons.mpr ⟨hm, hms⟩
  · exact fun _ _ h => h

/-- `dict(pairs)`. -/
def dictOf (pairs : List (Text × Json)) : List (Text × Json) :=
  (OrderedDict.empty.update pairs).entries

mutual

/-- The values in a document, itself included. -/
def nodes : Json → List Json
  | .array items => .array items :: nodesOfItems items
  | .object members => .object members :: nodesOfMembers members
  | j => [j]

/-- The values in a list of documents. -/
def nodesOfItems : List Json → List Json
  | [] => []
  | x :: xs => nodes x ++ nodesOfItems xs

/-- The values in the members of an object. -/
def nodesOfMembers : List (Text × Json) → List Json
  | [] => []
  | (_, x) :: ms => nodes x ++ nodesOfMembers ms

end

/-- The strings of a value itself: a string, or the keys of an object. -/
def ownStrings : Json → List Text
  | .string s => [s]
  | .object members => members.map Prod.fst
  | _ => []

/-- All strings in a document, keys included. -/
def strings (j : Json) : List Text := j.nodes.flatMap ownStrings

/-- What `dumps` asks of a value, and a dictionary of its keys. -/
def OwnValid : Json → Prop
  | .int n => (Nat.toDigits 10 n.natAbs).length ≤ maxStrDigits
  | .float numeral => numeral.Valid ∧ ¬ numeral.IsInteger
  | .object members => (members.map Prod.fst).Nodup
  | _ => True

/-- **The values that can be written.** -/
def Valid (j : Json) : Prop := ∀ node ∈ j.nodes, node.OwnValid

/-! ## Strings, quoted -/

/-- `'{0:04x}'`. -/
def hex4 (n : ℕ) : Text :=
  [(n / 4096 % 16).digitChar, (n / 256 % 16).digitChar, (n / 16 % 16).digitChar,
    (n % 16).digitChar]

/-- `'\\u{0:04x}'`, or two of them beyond the basic plane. -/
def unicodeEscape (c : Char) : Text :=
  let n := c.toNat
  if n < 0x10000 then '\\' :: 'u' :: hex4 n
  else
    '\\' :: 'u' :: hex4 (0xd800 + (n - 0x10000) / 0x400) ++
      '\\' :: 'u' :: hex4 (0xdc00 + (n - 0x10000) % 0x400)

/-- The characters that are escaped by a letter. -/
def shortEscape (c : Char) : Option Char :=
  if c = '"' ∨ c = '\\' then some c
  else if c = '\n' then some 'n'
  else if c = '\r' then some 'r'
  else if c = '\t' then some 't'
  else if c = Char.ofNat 8 then some 'b'
  else if c = Char.ofNat 12 then some 'f'
  else none

/-- One character of a string, escaped where it has to be. -/
def escapeChar (asciiOnly : Bool) (c : Char) : Text :=
  match shortEscape c with
  | some letter => ['\\', letter]
  | none =>
    if c.toNat < 32 ∨ (asciiOnly ∧ 127 ≤ c.toNat) then unicodeEscape c else [c]

/-- A string without its quotes. -/
def escape (asciiOnly : Bool) (s : Text) : Text := s.flatMap (escapeChar asciiOnly)

/-- A string with its quotes. -/
def quote (asciiOnly : Bool) (s : Text) : Text := '"' :: escape asciiOnly s ++ ['"']

/-! ## Documents, printed -/

/-- The options of `dumps`. -/
structure Style where
  indent : Option ℕ
  itemBlank : Bool
  keyBlank : Bool
  asciiOnly : Bool
  deriving DecidableEq, Repr

namespace Style

/-- `dumps(value)`, with `ensure_ascii=False`. -/
def oneLine : Style := ⟨none, true, true, false⟩

/-- `indent=2`, with `ensure_ascii=False`. -/
def indented : Style := ⟨some 2, false, true, false⟩

/-- `separators=(",", ":")`. -/
def compact : Style := ⟨none, false, false, true⟩

variable (style : Style)

/-- The line break before an item at a level. -/
def gap (level : ℕ) : Text :=
  match style.indent with
  | none => []
  | some width => '\n' :: List.replicate (width * level) ' '

/-- What follows a comma. -/
def afterComma (level : ℕ) : Text := (if style.itemBlank then [' '] else []) ++ style.gap level

/-- What follows a colon. -/
def afterColon : Text := if style.keyBlank then [' '] else []

end Style

mutual

/-- `dumps`, at a level of nesting. -/
def print (style : Style) (level : ℕ) : Json → Text
  | .word w => w.text
  | .int n => (Numeral.ofInt n).text
  | .float numeral => numeral.text
  | .string s => quote style.asciiOnly s
  | .array [] => ['[', ']']
  | .array (x :: xs) =>
    '[' :: style.gap (level + 1) ++ (print style (level + 1) x ++ printItems style level xs)
  | .object [] => ['\x7b', '\x7d']
  | .object ((key, x) :: ms) =>
    '\x7b' :: style.gap (level + 1) ++ (quote style.asciiOnly key ++ ':' :: style.afterColon ++
      (print style (level + 1) x ++ printMembers style level ms))

/-- The items after the first, and the closing bracket. -/
def printItems (style : Style) (level : ℕ) : List Json → Text
  | [] => style.gap level ++ [']']
  | x :: xs =>
    ',' :: style.afterComma (level + 1) ++
      (print style (level + 1) x ++ printItems style level xs)

/-- The members after the first, and the closing brace. -/
def printMembers (style : Style) (level : ℕ) : List (Text × Json) → Text
  | [] => style.gap level ++ ['\x7d']
  | (key, x) :: ms =>
    ',' :: style.afterComma (level + 1) ++ (quote style.asciiOnly key ++
      ':' :: style.afterColon ++ (print style (level + 1) x ++ printMembers style level ms))

end

/-- `json.dumps`. -/
def dumps (style : Style) (j : Json) : Text := print style 0 j

example : dumps .indented (.object [("a".toList, .array [.int (-10), .word .null]),
    ("b".toList, .object [])]) =
    "\x7b\n  \"a\": [\n    -10,\n    null\n  ],\n  \"b\": \x7b\x7d\n\x7d".toList := by decide

example : dumps .compact (.string [Char.ofNat 0x2028, Char.ofNat 0x1F600, '"']) =
    "\"\\u2028\\ud83d\\ude00\\\"\"".toList := by decide

end Json
end FederatedMessaging
