import FederatedMessaging.Foundations.Fallible
import FederatedMessaging.Foundations.PythonText

/-!
# Dynamic values

A report in Python is a nest of dictionaries and lists, and its reader indexes it: by
`d[key]`, which raises when the key is missing, or by `d.get(key)`, which does not.  Whether
the reader gets through depends on the keys the writer put in, so the dictionaries are kept
as such here (`Item`), over an arbitrary type of keys.

## What a reader relies on

`Succeeds x` says that a computation that may raise returns.  A reader is a sequence of
reads and loops; the rules below take it apart, and a loop gets through when its body does on
every element.
-/

namespace FederatedMessaging
namespace DynamicValues

open PythonText

variable {κ : Type}

/-- A Python value of a report. -/
inductive Item (κ : Type) where
  | none
  | bool (b : Bool)
  | int (n : ℤ)
  | float (x : ℚ)
  | str (s : Text)
  | list (items : List (Item κ))
  | dict (fields : List (κ × Item κ))

/-- What reading a value may raise. -/
inductive ReadError (κ : Type) where
  /-- `KeyError` -/
  | key (key : κ)
  /-- `TypeError` or `AttributeError`: the value is of another type -/
  | type
  /-- `ValueError` -/
  | value
  deriving DecidableEq, Repr

namespace Item

/-- `str(x)` or a missing one as `None`. -/
def ofText : Option Text → Item κ
  | Option.none => .none
  | some s => .str s

/-- A float, or `None`. -/
def ofFloat : Option ℚ → Item κ
  | Option.none => .none
  | some x => .float x

/-- An int, or `None`. -/
def ofInt : Option ℤ → Item κ
  | Option.none => .none
  | some n => .int n

/-- A count. -/
def ofNat (n : ℕ) : Item κ := .int n

/-- `bool(value)`. -/
def truthy : Item κ → Bool
  | .none => false
  | .bool b => b
  | .int n => n ≠ 0
  | .float x => x ≠ 0
  | .str s => s ≠ []
  | .list items => !items.isEmpty
  | .dict fields => !fields.isEmpty

/-- `value is None`. -/
def isNone : Item κ → Bool
  | .none => true
  | _ => false

/-- `value == s`. -/
def isText (value : Item κ) (s : Text) : Bool :=
  match value with
  | .str t => t = s
  | _ => false

/-- `value or {}`. -/
def orEmpty (value : Item κ) : Item κ := if value.truthy then value else .dict []

variable [DecidableEq κ]

/-- `value[key]`. -/
def getItem (value : Item κ) (key : κ) : Except (ReadError κ) (Item κ) :=
  match value with
  | .dict fields =>
    match fields.lookup key with
    | some item => .ok item
    | Option.none => .error (.key key)
  | _ => .error .type

/-- `value.get(key)`. -/
def get (value : Item κ) (key : κ) : Except (ReadError κ) (Item κ) :=
  match value with
  | .dict fields => .ok ((fields.lookup key).getD .none)
  | _ => .error .type

/-- `value.get(key, default)`. -/
def getD (value : Item κ) (key : κ) (default : Item κ) : Except (ReadError κ) (Item κ) :=
  match value with
  | .dict fields => .ok ((fields.lookup key).getD default)
  | _ => .error .type

/-- `value.items()`. -/
def items (value : Item κ) : Except (ReadError κ) (List (κ × Item κ)) :=
  match value with
  | .dict fields => .ok fields
  | _ => .error .type

/-- What `for item in value` runs over, for a list. -/
def elements (value : Item κ) : Except (ReadError κ) (List (Item κ)) :=
  match value with
  | .list items => .ok items
  | _ => .error .type

/-- The number in a float. -/
def toFloat (value : Item κ) : Except (ReadError κ) ℚ :=
  match value with
  | .float x => .ok x
  | _ => .error .type

end Item

/-! ## Readers that get through -/

/-- The computation returns. -/
def Succeeds {ε α : Type} (x : Except ε α) : Prop := ∃ a, x = .ok a

section Succeeds

variable {ε α β : Type}

theorem succeeds_ok (a : α) : Succeeds (.ok a : Except ε α) := ⟨a, rfl⟩

theorem not_succeeds_error (e : ε) : ¬ Succeeds (.error e : Except ε α) := nofun

theorem succeeds_bind_ok {f : α → Except ε β} {x : Except ε α} {a : α} (h : x = .ok a) :
    Succeeds (x >>= f) ↔ Succeeds (f a) := by
  rw [h]
  exact Iff.rfl

/-- When what follows returns whatever it is given, only the first part can raise. -/
theorem succeeds_bind_iff {x : Except ε α} {f : α → Except ε β} {p : Prop}
    (hf : ∀ a, Succeeds (f a) ↔ p) : Succeeds (x >>= f) ↔ Succeeds x ∧ p := by
  cases x with
  | error e => exact iff_of_false nofun fun h => nomatch h.1
  | ok a =>
    change Succeeds (f a) ↔ _
    rw [hf a, and_iff_right (succeeds_ok a)]

theorem succeeds_bind {x : Except ε α} {f : α → Except ε β} (hx : Succeeds x)
    (hf : ∀ a, Succeeds (f a)) : Succeeds (x >>= f) :=
  (succeeds_bind_iff fun a => iff_true_intro (hf a)).mpr ⟨hx, trivial⟩

theorem succeeds_map {x : Except ε α} (f : α → β) (hx : Succeeds x) : Succeeds (f <$> x) := by
  obtain ⟨a, rfl⟩ := hx
  exact ⟨f a, rfl⟩

/-- **A loop gets through when its body does on every element.** -/
theorem succeeds_mapM_iff {f : α → Except ε β} {l : List α} :
    Succeeds (l.mapM f) ↔ ∀ a ∈ l, Succeeds (f a) := by
  induction l with
  | nil => exact iff_of_true ⟨[], rfl⟩ fun _ h => absurd h List.not_mem_nil
  | cons a l ih =>
    rw [List.mapM_cons, List.forall_mem_cons, ← ih]
    refine succeeds_bind_iff fun b => ?_
    exact (succeeds_bind_iff fun bs => iff_true_intro (succeeds_ok (b :: bs))).trans
      (and_iff_left trivial)

end Succeeds

end DynamicValues
end FederatedMessaging
