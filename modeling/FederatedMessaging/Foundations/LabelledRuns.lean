import Mathlib

/-!
# Runs of a labelled step function

A system whose every interleaving is a list of labels: `step s l` is the state after
label `l`, or `none` when `l` is not enabled in `s`.  Whatever the surroundings may
decide --- which callback runs next, what an answer contains --- is in the labels, so
a statement about every list of labels is a statement about every run.

## Two kinds of statement

`Always` says that a predicate holds in every state a run goes through, `StepsMeet`
that every step of it satisfies a condition on the state before and the label.  The
rules of the last section tie the two together.  For a system that keeps a property
only on some steps they reduce "in which runs does the property hold" to one
question about one step:

* `always_iff_stepsMeet` --- from a good state, a step leads to a good state exactly
  when it meets the condition;
* `final_iff_stepsMeet` --- the same, for a property that is never regained once lost.
-/

namespace FederatedMessaging
namespace LabelledRuns

variable {σ ℓ : Type*} (step : σ → ℓ → Option σ)

/-- The state after a list of labels, if each is enabled when its turn comes. -/
def exec (s : σ) (labels : List ℓ) : Option σ := labels.foldlM step s

/-- `Good` holds in every state the run goes through. -/
def Always (s : σ) (labels : List ℓ) (Good : σ → Prop) : Prop :=
  ∀ front s', front <+: labels → exec step s front = some s' → Good s'

/-- Every step of the run meets `Cond` in the state it starts from. -/
def StepsMeet (s : σ) (labels : List ℓ) (Cond : σ → ℓ → Prop) : Prop :=
  ∀ front l s', front ++ [l] <+: labels → exec step s front = some s' → Cond s' l

variable {step}

@[simp] theorem exec_nil (s : σ) : exec step s [] = some s := rfl

theorem exec_cons (s : σ) (l : ℓ) (labels : List ℓ) :
    exec step s (l :: labels) = (step s l).bind fun s' => exec step s' labels := rfl

theorem exec_cons_of_step {s s' : σ} {l : ℓ} (h : step s l = some s') (labels : List ℓ) :
    exec step s (l :: labels) = exec step s' labels := by
  rw [exec_cons, h]
  rfl

theorem exec_append (s : σ) (front back : List ℓ) :
    exec step s (front ++ back) = (exec step s front).bind fun s' => exec step s' back :=
  List.foldlM_append

/-- The part of a run after a prefix of it. -/
theorem exec_of_prefix {s t s' : σ} {front labels : List ℓ} (hrun : exec step s labels = some t)
    (hgrows : front <+: labels) (hfront : exec step s front = some s') :
    ∃ back, labels = front ++ back ∧ exec step s' back = some t := by
  obtain ⟨back, rfl⟩ := hgrows
  rw [exec_append, hfront] at hrun
  exact ⟨back, rfl, hrun⟩

/-! ## Both statements, one label at a time -/

theorem always_nil {s : σ} {Good : σ → Prop} : Always step s [] Good ↔ Good s := by
  constructor
  · intro h
    exact h [] s (List.prefix_refl []) rfl
  · intro h front s' hfront hs'
    rw [List.prefix_nil.mp hfront] at hs'
    exact Option.some_inj.mp hs' ▸ h

theorem always_cons {s s' : σ} {l : ℓ} {labels : List ℓ} {Good : σ → Prop}
    (hstep : step s l = some s') :
    Always step s (l :: labels) Good ↔ Good s ∧ Always step s' labels Good := by
  constructor
  · intro h
    refine ⟨h [] s (List.nil_prefix) rfl, fun front t hfront ht => ?_⟩
    exact h (l :: front) t (List.cons_prefix_cons.mpr ⟨rfl, hfront⟩)
      ((exec_cons_of_step hstep front).trans ht)
  · rintro ⟨hs, h⟩ front t hfront ht
    cases front with
    | nil => exact Option.some_inj.mp ht ▸ hs
    | cons l' front =>
      obtain ⟨rfl, htail⟩ := List.cons_prefix_cons.mp hfront
      exact h front t htail ((exec_cons_of_step hstep front).symm.trans ht)

theorem stepsMeet_nil {s : σ} {Cond : σ → ℓ → Prop} : StepsMeet step s [] Cond := by
  intro front l s' hfront
  simp at hfront

theorem stepsMeet_cons {s s' : σ} {l : ℓ} {labels : List ℓ} {Cond : σ → ℓ → Prop}
    (hstep : step s l = some s') :
    StepsMeet step s (l :: labels) Cond ↔ Cond s l ∧ StepsMeet step s' labels Cond := by
  constructor
  · intro h
    refine ⟨h [] l s (List.cons_prefix_cons.mpr ⟨rfl, List.nil_prefix⟩) rfl,
      fun front l' t hfront ht => ?_⟩
    exact h (l :: front) l' t (List.cons_prefix_cons.mpr ⟨rfl, hfront⟩)
      ((exec_cons_of_step hstep front).trans ht)
  · rintro ⟨hl, h⟩ front l' t hfront ht
    cases front with
    | nil =>
      obtain ⟨rfl, -⟩ := List.cons_prefix_cons.mp hfront
      exact Option.some_inj.mp ht ▸ hl
    | cons l'' front =>
      obtain ⟨rfl, htail⟩ := List.cons_prefix_cons.mp hfront
      exact h front l' t htail ((exec_cons_of_step hstep front).symm.trans ht)

/-- A condition on the labels alone. -/
theorem stepsMeet_iff_forall {s t : σ} {labels : List ℓ} {Cond : ℓ → Prop}
    (hrun : exec step s labels = some t) :
    StepsMeet step s labels (fun _ l => Cond l) ↔ ∀ l ∈ labels, Cond l := by
  constructor
  · intro h l hl
    obtain ⟨front, back, rfl⟩ := List.append_of_mem hl
    rw [exec_append] at hrun
    obtain ⟨s', hs', -⟩ := Option.bind_eq_some_iff.mp hrun
    exact h front l s' ⟨back, by simp⟩ hs'
  · intro h front l s' hfront _
    exact h l (hfront.subset (List.mem_append_right _ List.mem_cons_self))

/-- A run of at least one label starts with a step. -/
theorem exists_step_of_exec_cons {s t : σ} {l : ℓ} {labels : List ℓ}
    (h : exec step s (l :: labels) = some t) :
    ∃ s', step s l = some s' ∧ exec step s' labels = some t :=
  Option.bind_eq_some_iff.mp h

/-! ## Rules -/

/-- What steps preserve, runs preserve. -/
theorem invariant_of_exec (Inv : σ → Prop) (hstep : ∀ s l s', Inv s → step s l = some s' → Inv s')
    {s t : σ} {labels : List ℓ} (hs : Inv s) (hrun : exec step s labels = some t) : Inv t := by
  induction labels generalizing s with
  | nil => exact Option.some_inj.mp hrun ▸ hs
  | cons l labels ih =>
    obtain ⟨s', hs', hrest⟩ := exists_step_of_exec_cons hrun
    exact ih (hstep s l s' hs hs') hrest

/-- What the steps under some labels preserve, the runs of such labels preserve. -/
theorem invariant_of_exec_of_forall (Inv : σ → Prop) (Allowed : ℓ → Prop)
    (hstep : ∀ s l s', Allowed l → Inv s → step s l = some s' → Inv s') {s t : σ}
    {labels : List ℓ} (hlabels : ∀ l ∈ labels, Allowed l) (hs : Inv s)
    (hrun : exec step s labels = some t) : Inv t := by
  induction labels generalizing s with
  | nil => exact Option.some_inj.mp hrun ▸ hs
  | cons l labels ih =>
    obtain ⟨s', hs', hrest⟩ := exists_step_of_exec_cons hrun
    exact ih (fun l' hl' => hlabels l' (List.mem_cons_of_mem l hl'))
      (hstep s l s' (hlabels l List.mem_cons_self) hs hs') hrest

/-- A preorder that contains the steps contains the runs. -/
theorem related_of_exec {R : σ → σ → Prop} (hrefl : ∀ s, R s s)
    (htrans : ∀ s t u, R s t → R t u → R s u) (hstep : ∀ s l s', step s l = some s' → R s s')
    {s t : σ} {labels : List ℓ} (hrun : exec step s labels = some t) : R s t :=
  invariant_of_exec (R s) (fun u l u' hu hu' => htrans s u u' hu (hstep u l u' hu'))
    (hrefl s) hrun

variable (Inv : σ → Prop) {Good : σ → Prop} {Cond : σ → ℓ → Prop}

/-- **The exact runs of a property.**  If a step from a good state leads to a good state
exactly when it meets the condition, then the good runs are those whose steps all do. -/
theorem always_iff_stepsMeet (hinv : ∀ s l s', Inv s → step s l = some s' → Inv s')
    (hexact : ∀ s l s', Inv s → Good s → step s l = some s' → (Good s' ↔ Cond s l))
    {s t : σ} {labels : List ℓ} (hs : Inv s) (hgood : Good s)
    (hrun : exec step s labels = some t) :
    Always step s labels Good ↔ StepsMeet step s labels Cond := by
  induction labels generalizing s with
  | nil => exact ⟨fun _ => stepsMeet_nil, fun _ => always_nil.mpr hgood⟩
  | cons l labels ih =>
    obtain ⟨s', hs', hrest⟩ := exists_step_of_exec_cons hrun
    have hkeep := hexact s l s' hs hgood hs'
    have hinv' := hinv s l s' hs hs'
    rw [always_cons hs', stepsMeet_cons hs']
    constructor
    · rintro ⟨-, halways⟩
      have hgood' : Good s' := halways [] s' List.nil_prefix rfl
      exact ⟨hkeep.mp hgood', (ih hinv' hgood' hrest).mp halways⟩
    · rintro ⟨hl, hmeet⟩
      exact ⟨hgood, (ih hinv' (hkeep.mpr hl) hrest).mpr hmeet⟩

/-- **The exact runs of a property that is never regained**: it holds at the end
exactly when every step meets the condition. -/
theorem final_iff_stepsMeet (Good : σ → Prop)
    (hinv : ∀ s l s', Inv s → step s l = some s' → Inv s')
    (hexact : ∀ s l s', Inv s → step s l = some s' → (Good s' ↔ Good s ∧ Cond s l))
    {s t : σ} {labels : List ℓ} (hs : Inv s) (hrun : exec step s labels = some t) :
    Good t ↔ Good s ∧ StepsMeet step s labels Cond := by
  induction labels generalizing s with
  | nil =>
    obtain rfl := Option.some_inj.mp hrun
    exact ⟨fun h => ⟨h, stepsMeet_nil⟩, And.left⟩
  | cons l labels ih =>
    obtain ⟨s', hs', hrest⟩ := exists_step_of_exec_cons hrun
    rw [ih (hinv s l s' hs hs') hrest, hexact s l s' hs hs', stepsMeet_cons hs', and_assoc]

/-! ## A value carried along

Some statements need something a run has left behind, like a deadline that was armed
once.  It can be carried beside the state without changing which runs there are. -/

section Carrying

variable {γ : Type*} {note : γ → σ → γ}

/-- The same steps, with a value beside the state that takes note of each state reached. -/
def carrying (step : σ → ℓ → Option σ) (note : γ → σ → γ) (x : σ × γ) (l : ℓ) :
    Option (σ × γ) :=
  (step x.1 l).map fun s' => (s', note x.2 s')

/-- What a step does to the state, and what it notes. -/
theorem carrying_eq_some_iff {x y : σ × γ} {l : ℓ} :
    carrying step note x l = some y ↔ step x.1 l = some y.1 ∧ y.2 = note x.2 y.1 := by
  constructor
  · intro h
    obtain ⟨s', hs', rfl⟩ := Option.map_eq_some_iff.mp h
    exact ⟨hs', rfl⟩
  · rintro ⟨hs, hnote⟩
    rw [carrying, hs, Option.map_some, ← hnote]

/-- The states of a run that carries something are those of the run. -/
theorem exec_of_exec_carrying {x y : σ × γ} {labels : List ℓ}
    (hrun : exec (carrying step note) x labels = some y) : exec step x.1 labels = some y.1 := by
  induction labels generalizing x with
  | nil => exact congrArg (fun z => some z.1) (Option.some_inj.mp hrun)
  | cons l labels ih =>
    obtain ⟨x', hx', hrest⟩ := exists_step_of_exec_cons hrun
    rw [exec_cons_of_step (carrying_eq_some_iff.mp hx').1]
    exact ih hrest

/-- Every run can carry it. -/
theorem exists_exec_carrying {s t : σ} {labels : List ℓ} (hrun : exec step s labels = some t)
    (g : γ) : ∃ g', exec (carrying step note) (s, g) labels = some (t, g') := by
  induction labels generalizing s g with
  | nil => exact ⟨g, congrArg some (Prod.ext (Option.some_inj.mp hrun) rfl)⟩
  | cons l labels ih =>
    obtain ⟨s', hs', hrest⟩ := exists_step_of_exec_cons hrun
    obtain ⟨g', hg'⟩ := ih hrest (note g s')
    have hstep : carrying step note (s, g) l = some (s', note g s') :=
      carrying_eq_some_iff.mpr ⟨hs', rfl⟩
    exact ⟨g', (exec_cons_of_step hstep labels).trans hg'⟩

end Carrying

end LabelledRuns
end FederatedMessaging
