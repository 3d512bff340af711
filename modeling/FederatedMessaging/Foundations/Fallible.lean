import Mathlib.Data.List.Basic

/-!
# Bodies that may raise

A function of the source that may raise is a function into `Except ε`.  These are the
rules for taking a successful body apart: a sequence succeeds when its parts do
(`exists_of_bind`), a loop succeeds when its body does on every element (`mapM_eq_ok`), and
so does a loop that keeps elements (`filterM_eq_ok_iff`).
-/

namespace FederatedMessaging
namespace Fallible

universe u

variable {ε : Type*}

/-- A sequence that succeeds, taken apart. -/
theorem exists_of_bind {α β : Type u} {x : Except ε α} {f : α → Except ε β} {b : β}
    (h : x >>= f = .ok b) : ∃ a, x = .ok a ∧ f a = .ok b := by
  cases x with
  | error e => cases h
  | ok a => exact ⟨a, rfl, h⟩

/-- Once the first part is known, the rest is what remains. -/
theorem bind_of_eq_ok {α β : Type u} {x : Except ε α} {a : α} (h : x = .ok a)
    (f : α → Except ε β) : x >>= f = f a := by
  rw [h]
  rfl

/-- An error that no part of a sequence raises. -/
theorem bind_ne_error {α β : Type u} {x : Except ε α} {f : α → Except ε β} {e : ε}
    (hx : x ≠ .error e) (hf : ∀ a, x = .ok a → f a ≠ .error e) : (x >>= f) ≠ .error e := by
  cases x with
  | error e' => exact fun h => hx (congrArg Except.error (Except.error.inj h))
  | ok a => exact hf a rfl

/-- A loop whose body returns on every element. -/
theorem mapM_eq_ok {α β : Type} {f : α → Except ε β} {g : α → β} {l : List α}
    (h : ∀ a ∈ l, f a = .ok (g a)) : l.mapM f = .ok (l.map g) := by
  induction l with
  | nil => rfl
  | cons a l ih =>
    obtain ⟨ha, hl⟩ := List.forall_mem_cons.mp h
    rw [List.mapM_cons, ha, ih hl]
    rfl

/-- Loops with bodies that agree on every element. -/
theorem mapM_congr {α β : Type} {f g : α → Except ε β} {l : List α} (h : ∀ a ∈ l, f a = g a) :
    l.mapM f = l.mapM g := by
  induction l with
  | nil => rfl
  | cons a l ih =>
    obtain ⟨ha, hl⟩ := List.forall_mem_cons.mp h
    rw [List.mapM_cons, List.mapM_cons, ha, ih hl]

/-- Every result of a loop is that of its body on some element. -/
theorem exists_of_mem_mapM {α β : Type} {f : α → Except ε β} {l : List α} {bs : List β}
    (h : l.mapM f = .ok bs) {b : β} (hb : b ∈ bs) : ∃ a ∈ l, f a = .ok b := by
  induction l generalizing bs with
  | nil =>
    obtain rfl := Except.ok.inj h
    exact absurd hb List.not_mem_nil
  | cons a l ih =>
    rw [List.mapM_cons] at h
    obtain ⟨b', hb', h⟩ := exists_of_bind h
    obtain ⟨bs', hbs', h⟩ := exists_of_bind h
    obtain rfl := Except.ok.inj h
    rcases List.mem_cons.mp hb with rfl | hb
    · exact ⟨a, List.mem_cons_self, hb'⟩
    · obtain ⟨a', ha', hab⟩ := ih hbs' hb
      exact ⟨a', List.mem_cons_of_mem a ha', hab⟩

/-- A loop returns the results of its body, one for each element. -/
theorem mapM_eq_ok_iff {α β : Type} {f : α → Except ε β} {l : List α} {bs : List β} :
    l.mapM f = .ok bs ↔ List.Forall₂ (fun a b => f a = .ok b) l bs := by
  constructor
  · intro h
    induction l generalizing bs with
    | nil =>
      obtain rfl := Except.ok.inj h
      exact .nil
    | cons a l ih =>
      rw [List.mapM_cons] at h
      obtain ⟨b, hb, h⟩ := exists_of_bind h
      obtain ⟨bs', hbs', h⟩ := exists_of_bind h
      obtain rfl := Except.ok.inj h
      exact .cons hb (ih hbs')
  · intro h
    induction h with
    | nil => rfl
    | cons hb _ ih =>
      rw [List.mapM_cons, hb, ih]
      rfl

/-- A loop whose body returns something good on every element. -/
theorem exists_mapM_of_forall {α β : Type} {f : α → Except ε β} {P : β → Prop} {l : List α}
    (h : ∀ a ∈ l, ∃ b, f a = .ok b ∧ P b) : ∃ bs, l.mapM f = .ok bs ∧ ∀ b ∈ bs, P b := by
  induction l with
  | nil => exact ⟨[], rfl, fun _ hb => absurd hb List.not_mem_nil⟩
  | cons a l ih =>
    obtain ⟨⟨b, hb, hP⟩, hl⟩ := List.forall_mem_cons.mp h
    obtain ⟨bs, hbs, hall⟩ := ih hl
    refine ⟨b :: bs, ?_, List.forall_mem_cons.mpr ⟨hP, hall⟩⟩
    rw [List.mapM_cons, hb, hbs]
    rfl

/-- **A loop that collects lists** returns with nothing exactly when its body does on every
element. -/
theorem mapM_flatten_eq_nil_iff {α β : Type} {f : α → Except ε (List β)} {l : List α} :
    (l.mapM f >>= fun parts => pure parts.flatten) = .ok [] ↔ ∀ a ∈ l, f a = .ok [] := by
  constructor
  · intro h
    obtain ⟨parts, hparts, hflatten⟩ := exists_of_bind h
    have hnil : ∀ part ∈ parts, part = [] :=
      List.flatten_eq_nil_iff.mp (Except.ok.inj hflatten)
    clear h hflatten
    induction l generalizing parts with
    | nil => exact fun _ ha => absurd ha List.not_mem_nil
    | cons a l ih =>
      rw [List.mapM_cons] at hparts
      obtain ⟨part, hpart, hparts⟩ := exists_of_bind hparts
      obtain ⟨parts', hparts', hcons⟩ := exists_of_bind hparts
      obtain rfl := Except.ok.inj hcons
      obtain ⟨hfirst, hrest⟩ := List.forall_mem_cons.mp hnil
      exact List.forall_mem_cons.mpr ⟨hfirst ▸ hpart, ih parts' hparts' hrest⟩
  · intro h
    rw [mapM_eq_ok h, List.map_const']
    exact congrArg Except.ok (List.flatten_eq_nil_iff.mpr fun _ => List.eq_of_mem_replicate)

/-- **Filtering by a predicate that may raise.**  It returns when the predicate does on
every element, and then what an ordinary filter would. -/
theorem filterM_eq_ok_iff {ε α : Type} {f : α → Except ε Bool} {l kept : List α} :
    l.filterM f = .ok kept ↔
      (∀ a ∈ l, ∃ b, f a = .ok b) ∧ kept = l.filter fun a => (f a).toOption.getD false := by
  have haux : ∀ (l acc kept : List α), List.filterAuxM f l acc = .ok kept ↔
      (∀ a ∈ l, ∃ b, f a = .ok b) ∧
        kept = (l.filter fun a => (f a).toOption.getD false).reverse ++ acc := by
    intro l
    induction l with
    | nil =>
      intro acc kept
      exact ⟨fun h => ⟨fun _ ha => absurd ha List.not_mem_nil, (Except.ok.inj h).symm⟩,
        fun h => congrArg Except.ok h.2.symm⟩
    | cons a l ih =>
      intro acc kept
      rw [List.filterAuxM, List.forall_mem_cons, List.filter_cons]
      cases hf : f a with
      | error e => exact ⟨nofun, fun h => nomatch h.1.1.choose_spec⟩
      | ok b =>
        change List.filterAuxM f l (cond b (a :: acc) acc) = _ ↔ _
        rw [ih]
        cases b <;> simp [Except.toOption]
  unfold List.filterM
  constructor
  · intro h
    cases hkept : List.filterAuxM f l [] with
    | error e =>
      rw [hkept] at h
      cases h
    | ok reversed =>
      rw [hkept] at h
      obtain ⟨hall, rfl⟩ := (haux l [] reversed).mp hkept
      refine ⟨hall, (Except.ok.inj h).symm.trans ?_⟩
      rw [List.append_nil, List.reverse_reverse]
  · rintro ⟨hall, rfl⟩
    rw [(haux l [] _).mpr ⟨hall, rfl⟩]
    change Except.ok (List.reverse _) = _
    rw [List.append_nil, List.reverse_reverse]

end Fallible
end FederatedMessaging
