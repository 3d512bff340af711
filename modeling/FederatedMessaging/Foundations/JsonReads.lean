import FederatedMessaging.Foundations.JsonReading

/-!
# Reading a document one did not write

A program that takes a JSON value from elsewhere asks it for attributes and items as if it had
the type it should have, and raises where it has not.  Here are the reads of such a program:
`.get`, `or`, the first item, iteration, `str.join` and `.strip`, each with what it raises.

`truthy` is the truth value of a document.  A float is false when it is zero, and a numeral
spells zero as soon as it is too small: `1e-400` does.
-/

namespace FederatedMessaging
namespace Json

open PythonText

/-- What a read raises. -/
inductive ReadFailure where
  /-- `AttributeError` -/
  | noAttribute (type name : Text)
  /-- `TypeError` of a loop -/
  | notIterable (type : Text)
  /-- `TypeError` of `[0]` -/
  | notSubscriptable (type : Text)
  /-- `KeyError`: the keys are strings -/
  | noKeyZero
  /-- `IndexError` -/
  | noFirst (type : Text)
  /-- `TypeError` of `str.join` -/
  | notText (index : ℕ) (type : Text)
  deriving DecidableEq, Repr

namespace ReadFailure

/-- `type(exc).__name__`. -/
def className : ReadFailure → Text
  | .noAttribute _ _ => "AttributeError".toList
  | .noKeyZero => "KeyError".toList
  | .noFirst _ => "IndexError".toList
  | _ => "TypeError".toList

/-- `str(exc)`. -/
def message : ReadFailure → Text
  | .noAttribute type name =>
    "'".toList ++ type ++ "' object has no attribute '".toList ++ name ++ "'".toList
  | .notIterable type => "'".toList ++ type ++ "' object is not iterable".toList
  | .notSubscriptable type => "'".toList ++ type ++ "' object is not subscriptable".toList
  | .noKeyZero => ['0']
  | .noFirst type => type ++ " index out of range".toList
  | .notText index type =>
    "sequence item ".toList ++ Nat.toDigits 10 index ++ ": expected str instance, ".toList ++
      type ++
      " found".toList

end ReadFailure

/-- `type(value).__name__`. -/
def typeName : Json → Text
  | .word .null => "NoneType".toList
  | .word .true => "bool".toList
  | .word .false => "bool".toList
  | .word _ => "float".toList
  | .int _ => "int".toList
  | .float _ => "float".toList
  | .string _ => "str".toList
  | .array _ => "list".toList
  | .object _ => "dict".toList

/-! ## Truth -/

/-- The exponent a numeral is written with. -/
def Numeral.exponentValue (n : Numeral) : ℤ :=
  match n.exponent with
  | [] => 0
  | _ :: '-' :: digits => -digitsValue digits
  | _ :: '+' :: digits => digitsValue digits
  | _ :: digits => digitsValue digits

/-- The float is zero: its digits are, or it is at most half of the smallest one. -/
def Numeral.isZero (n : Numeral) : Bool :=
  let digits := digitsValue (n.whole ++ n.fraction)
  let shift := n.exponentValue - n.fraction.length
  digits = 0 ∨ shift < 0 ∧ digits * 2 ^ 1075 ≤ 10 ^ (-shift).toNat

/-- `bool(value)`. -/
def truthy : Json → Bool
  | .word .null => false
  | .word .false => false
  | .word _ => true
  | .int n => n ≠ 0
  | .float numeral => !numeral.isZero
  | .string s => s ≠ []
  | .array items => !items.isEmpty
  | .object members => !members.isEmpty

/-- `x or y`. -/
def orElse (x y : Json) : Json := if x.truthy then x else y

/-! ## Reads -/

/-- The value of a key among some members, or `None`. -/
def memberOrNone (members : List (Text × Json)) (key : Text) : Json :=
  (members.lookup key).getD (.word .null)

/-- `value.get(key)`. -/
def get (key : Text) : Json → Except ReadFailure Json
  | .object members => .ok (memberOrNone members key)
  | value => .error (.noAttribute value.typeName "get".toList)

/-- `value[0]`. -/
def first : Json → Except ReadFailure Json
  | .array (x :: _) => .ok x
  | .string (c :: _) => .ok (.string [c])
  | .array [] => .error (.noFirst "list".toList)
  | .string [] => .error (.noFirst "string".toList)
  | .object _ => .error .noKeyZero
  | value => .error (.notSubscriptable value.typeName)

/-- What `for x in value` runs over. -/
def elements : Json → Except ReadFailure (List Json)
  | .array items => .ok items
  | .string s => .ok (s.map fun c => .string [c])
  | .object members => .ok (members.map fun m => .string m.1)
  | value => .error (.notIterable value.typeName)

/-- `"".join(parts)`, from an index on. -/
def joinFrom (index : ℕ) : List Json → Except ReadFailure Text
  | [] => .ok []
  | .string s :: parts => do
    let rest ← joinFrom (index + 1) parts
    pure (s ++ rest)
  | part :: _ => .error (.notText index part.typeName)

/-- `"".join(parts)`. -/
def join (parts : List Json) : Except ReadFailure Text := joinFrom 0 parts

/-- `value.strip()`. -/
def stripped : Json → Except ReadFailure Text
  | .string s => .ok (strip s)
  | value => .error (.noAttribute value.typeName "strip".toList)

/-! ## When a read returns -/

/-- The value is a dictionary. -/
def IsObject (x : Json) : Prop := ∃ members, x = .object members

/-- The value is a string. -/
def IsText (x : Json) : Prop := ∃ s, x = .string s

theorem get_eq_ok_iff {key : Text} {x y : Json} :
    x.get key = .ok y ↔ ∃ members, x = .object members ∧ y = memberOrNone members key := by
  constructor
  · intro h
    unfold get at h
    split at h
    · exact ⟨_, rfl, (Except.ok.inj h).symm⟩
    · cases h
  · rintro ⟨members, rfl, rfl⟩
    rfl

/-- **A join returns when every part is text.** -/
theorem joinFrom_eq_ok_iff {index : ℕ} {parts : List Json} :
    (∃ t, joinFrom index parts = .ok t) ↔ ∀ part ∈ parts, part.IsText := by
  induction parts generalizing index with
  | nil => exact iff_of_true ⟨[], rfl⟩ fun _ h => absurd h List.not_mem_nil
  | cons part parts ih =>
    rw [List.forall_mem_cons, ← @ih (index + 1)]
    constructor
    · rintro ⟨t, h⟩
      cases part with
      | string s =>
        obtain ⟨rest, hrest, -⟩ := Fallible.exists_of_bind h
        exact ⟨⟨s, rfl⟩, rest, hrest⟩
      | _ => cases h
    · rintro ⟨⟨s, rfl⟩, rest, hrest⟩
      refine ⟨s ++ rest, ?_⟩
      rw [joinFrom, hrest]
      rfl

theorem stripped_eq_ok_iff {x : Json} : (∃ t, x.stripped = .ok t) ↔ x.IsText := by
  constructor
  · rintro ⟨t, h⟩
    unfold stripped at h
    split at h
    · exact ⟨_, rfl⟩
    · cases h
  · rintro ⟨s, rfl⟩
    exact ⟨_, rfl⟩

end Json
end FederatedMessaging
