import Mathlib

/-!
# Programs that may stop at any step

A program of a process that talks to an unreliable outside.  It runs on a state, may
raise, and may be cut off: the process can be told to stop, or die.  What the outside
answers is decided by oracles, functions of the number of questions asked so far.  A
statement about every oracle is then a statement about every behaviour of the outside
and about every place at which the process can be cut off.

## The logic

`Triple P m Q E` says: started in a state with `P`, the program returns in a state
with `Q`, and if it does not return it leaves a state with `E`.  The clock is not
visible to the assertions, so what they say cannot depend on when a step is made.
There is one postcondition for raising and for being cut off: the code that catches an
exception and the code that runs after a restart both start from a state about which
only `E` is known.

There is one rule for each construct, one for loops over a list, and one for a
process that is started again and again.

## How a program ends

A triple says nothing of *whether* a program returns.  `Ends P m Q R H` does: from `P`
the program returns with `Q`, or raises an error that satisfies `R`, or is cut off in a
way that satisfies `H`.  With `R` and `H` false it is total correctness.  Here an
exception that is caught leaves its trace in `R`, so code that survives an error can
be told from code that never meets one.
-/

namespace FederatedMessaging
namespace CrashPrograms

universe u v w x

/-- How a program ends: it returns, it raises, or the process is cut off. -/
inductive Outcome (κ : Type w) (ε : Type x) (α : Type u) where
  | ok (value : α)
  | raised (error : ε)
  | halted (how : κ)
  deriving DecidableEq

/-- A program: from the clock and a state to an outcome, the clock and a state. -/
def Prog (σ : Type v) (κ : Type w) (ε : Type x) (α : Type u) : Type (max u v w x) :=
  ℕ → σ → Outcome κ ε α × ℕ × σ

variable {σ : Type v} {κ : Type w} {ε : Type x} {α β : Type u}

/-! ## Constructs -/

namespace Prog

/-- Return a value. -/
def ret (a : α) : Prog σ κ ε α := fun n s => (.ok a, n, s)

/-- Run a program and then another one with its value. -/
def andThen (m : Prog σ κ ε α) (f : α → Prog σ κ ε β) : Prog σ κ ε β := fun n s =>
  match m n s with
  | (.ok a, n, s) => f a n s
  | (.raised e, n, s) => (.raised e, n, s)
  | (.halted how, n, s) => (.halted how, n, s)

instance : Monad (Prog σ κ ε) where
  pure := ret
  bind := andThen

/-- Raise an exception. -/
def raise (e : ε) : Prog σ κ ε α := fun n s => (.raised e, n, s)

/-- Cut the process off. -/
def halt (how : κ) : Prog σ κ ε α := fun n s => (.halted how, n, s)

/-- Catch what a program raises.  Being cut off is not caught. -/
def attempt (m : Prog σ κ ε α) : Prog σ κ ε (Except ε α) := fun n s =>
  match m n s with
  | (.ok a, n, s) => (.ok (.ok a), n, s)
  | (.raised e, n, s) => (.ok (.error e), n, s)
  | (.halted how, n, s) => (.halted how, n, s)

/-- Run something else where a program is cut off. -/
def onHalt (m : Prog σ κ ε α) (f : κ → Prog σ κ ε α) : Prog σ κ ε α := fun n s =>
  match m n s with
  | (.halted how, n, s) => f how n s
  | ended => ended

/-- Ask the outside. -/
def ask (oracle : ℕ → α) : Prog σ κ ε α := fun n s => (.ok (oracle n), n + 1, s)

/-- Read from the state. -/
def read (f : σ → α) : Prog σ κ ε α := fun n s => (.ok (f s), n, s)

/-- Change the state. -/
def update (f : σ → σ) : Prog σ κ ε PUnit := fun n s => (.ok ⟨⟩, n, f s)

/-- Return what was computed, or raise what the computation raised. -/
def ofExcept (x : Except ε α) : Prog σ κ ε α :=
  match x with
  | .ok a => pure a
  | .error e => raise e

end Prog

open Prog

/-! ## Triples -/

/-- `Q` of what was returned, or `E`. -/
def Post (Q : α → σ → Prop) (E : σ → Prop) : Outcome κ ε α × ℕ × σ → Prop
  | (.ok a, _, s) => Q a s
  | (.raised _, _, s) => E s
  | (.halted _, _, s) => E s

/-- From `P` the program returns with `Q`, or does not return and leaves `E`. -/
def Triple (P : σ → Prop) (m : Prog σ κ ε α) (Q : α → σ → Prop) (E : σ → Prop) : Prop :=
  ∀ n s, P s → Post Q E (m n s)

/-- `S` survives the program, however it ends. -/
def Preserves (S : σ → Prop) (m : Prog σ κ ε α) : Prop := Triple S m (fun _ => S) S

variable {P P' : σ → Prop} {m : Prog σ κ ε α} {Q Q' : α → σ → Prop} {E E' : σ → Prop}

theorem triple_consequence (h : Triple P m Q E) (hpre : ∀ s, P' s → P s)
    (hpost : ∀ a s, Q a s → Q' a s) (hexc : ∀ s, E s → E' s) : Triple P' m Q' E' := by
  intro n s hs
  have hrun := h n s (hpre s hs)
  revert hrun
  rcases m n s with ⟨a | e | how, n', s'⟩
  · exact hpost a s'
  · exact hexc s'
  · exact hexc s'

theorem triple_pre (h : Triple P m Q E) (hpre : ∀ s, P' s → P s) : Triple P' m Q E :=
  triple_consequence h hpre (fun _ _ hq => hq) (fun _ he => he)

/-- A value that only the precondition mentions may be fixed. -/
theorem triple_exists {ι : Sort*} {P : ι → σ → Prop} (h : ∀ i, Triple (P i) m Q E) :
    Triple (fun s => ∃ i, P i s) m Q E := fun n s ⟨i, hs⟩ => h i n s hs

/-- A fact that does not depend on the state may be used to prove the triple. -/
theorem triple_pure_fact {fact : Prop} (h : fact → Triple P m Q E) :
    Triple (fun s => fact ∧ P s) m Q E := fun n s ⟨hfact, hs⟩ => h hfact n s hs

/-- Two triples about one program hold together. -/
theorem triple_and (h : Triple P m Q E) (h' : Triple P' m Q' E') :
    Triple (fun s => P s ∧ P' s) m (fun a s => Q a s ∧ Q' a s) (fun s => E s ∧ E' s) := by
  intro n s ⟨hs, hs'⟩
  have hrun := h n s hs
  have hrun' := h' n s hs'
  revert hrun hrun'
  rcases m n s with ⟨a | e | how, n', s'⟩
  all_goals exact fun hq hq' => ⟨hq, hq'⟩

/-- What holds for every index may be carried along together. -/
theorem preserves_forall {ι : Sort*} {S : ι → σ → Prop} (h : ∀ i, Preserves (S i) m) :
    Preserves (fun s => ∀ i, S i s) m := by
  intro n s hs
  have hrun := fun i => h i n s (hs i)
  revert hrun
  rcases m n s with ⟨a | e | how, n', s'⟩
  all_goals exact fun hq i => hq i

theorem triple_ret {a : α} (h : ∀ s, P s → Q a s) :
    Triple P (pure a : Prog σ κ ε α) Q E := fun _ s hs => h s hs

theorem triple_bind {R : α → σ → Prop} {Q : β → σ → Prop} {f : α → Prog σ κ ε β}
    (hm : Triple P m R E) (hf : ∀ a, Triple (R a) (f a) Q E) : Triple P (m >>= f) Q E := by
  intro n s hs
  have hrun := hm n s hs
  change Post Q E (andThen m f n s)
  unfold andThen
  revert hrun
  rcases m n s with ⟨a | e | how, n', s'⟩
  · exact hf a n' s'
  · exact fun he => he
  · exact fun he => he

theorem triple_raise {e : ε} (h : ∀ s, P s → E s) :
    Triple P (raise e : Prog σ κ ε α) Q E := fun _ s hs => h s hs

theorem triple_halt {how : κ} (h : ∀ s, P s → E s) :
    Triple P (halt how : Prog σ κ ε α) Q E := fun _ s hs => h s hs

theorem triple_attempt {Q : Except ε α → σ → Prop}
    (h : Triple P m (fun a s => Q (.ok a) s) E) (hcatch : ∀ e s, E s → Q (.error e) s) :
    Triple P (attempt m) Q E := by
  intro n s hs
  have hrun := h n s hs
  unfold attempt
  revert hrun
  rcases m n s with ⟨a | e | how, n', s'⟩
  · exact fun hq => hq
  · exact hcatch e s'
  · exact fun he => he

theorem triple_onHalt {f : κ → Prog σ κ ε α} (hm : Triple P m Q E)
    (hf : ∀ how, Triple E (f how) Q E') (hexc : ∀ s, E s → E' s) :
    Triple P (onHalt m f) Q E' := by
  intro n s hs
  have hrun := hm n s hs
  unfold onHalt
  revert hrun
  rcases m n s with ⟨a | e | how, n', s'⟩
  · exact fun hq => hq
  · exact hexc s'
  · exact hf how n' s'

theorem triple_ask {oracle : ℕ → α} (h : ∀ n s, P s → Q (oracle n) s) :
    Triple P (ask oracle : Prog σ κ ε α) Q E := fun n s hs => h n s hs

theorem triple_read {f : σ → α} (h : ∀ s, P s → Q (f s) s) :
    Triple P (read f : Prog σ κ ε α) Q E := fun _ s hs => h s hs

theorem triple_update {f : σ → σ} {Q : PUnit → σ → Prop} (h : ∀ s, P s → Q ⟨⟩ (f s)) :
    Triple P (update f : Prog σ κ ε PUnit) Q E := fun _ s hs => h s hs

theorem triple_ofExcept {x : Except ε α} (h : ∀ a, x = .ok a → ∀ s, P s → Q a s)
    (herror : ∀ e, x = .error e → ∀ s, P s → E s) :
    Triple P (ofExcept x : Prog σ κ ε α) Q E := by
  cases x with
  | ok a => exact triple_ret (h a rfl)
  | error e => exact triple_raise (herror e rfl)

/-! ## Loops -/

/-- A loop over a list, with an assertion about the part already done. -/
theorem triple_forM {f : α → Prog σ κ ε PUnit} {l : List α} {I : List α → σ → Prop}
    (h : ∀ front a, front ++ [a] <+: l → Triple (I front) (f a) (fun _ => I (front ++ [a])) E) :
    Triple (I []) (l.forM f) (fun _ => I l) E := by
  induction l generalizing I with
  | nil => exact triple_ret fun _ hs => hs
  | cons a l ih =>
    refine triple_bind (h [] a (List.cons_prefix_cons.mpr ⟨rfl, List.nil_prefix⟩)) fun _ => ?_
    exact ih (I := fun front => I (a :: front)) fun front b hfront =>
      h (a :: front) b (List.cons_prefix_cons.mpr ⟨rfl, hfront⟩)

theorem preserves_forM {f : α → Prog σ κ ε PUnit} {l : List α} {S : σ → Prop}
    (h : ∀ a ∈ l, Preserves S (f a)) : Preserves S (l.forM f) :=
  triple_forM (I := fun _ => S) fun _ a ha => h a (ha.subset (by simp))

/-! ## How a program ends -/

/-- `Q` of what was returned, `R` of what was raised, `H` of how it was cut off. -/
def Ending (Q : α → σ → Prop) (R : ε → Prop) (H : κ → Prop) : Outcome κ ε α × ℕ × σ → Prop
  | (.ok a, _, s) => Q a s
  | (.raised e, _, _) => R e
  | (.halted how, _, _) => H how

/-- From `P` the program returns with `Q`, or raises an error with `R`, or is cut off in
a way with `H`. -/
def Ends (P : σ → Prop) (m : Prog σ κ ε α) (Q : α → σ → Prop) (R : ε → Prop)
    (H : κ → Prop) : Prop :=
  ∀ n s, P s → Ending Q R H (m n s)

section Ends

variable {R : ε → Prop} {H : κ → Prop}

theorem ends_consequence (h : Ends P m Q R H) (hpre : ∀ s, P' s → P s)
    (hpost : ∀ a s, Q a s → Q' a s) : Ends P' m Q' R H := by
  intro n s hs
  have hrun := h n s (hpre s hs)
  revert hrun
  rcases m n s with ⟨a | e | how, n', s'⟩
  · exact hpost a s'
  · exact fun he => he
  · exact fun hh => hh

theorem ends_weaken {R' : ε → Prop} (h : Ends P m Q R H) (hraise : ∀ e, R e → R' e) :
    Ends P m Q R' H := by
  intro n s hs
  have hrun := h n s hs
  revert hrun
  rcases m n s with ⟨a | e | how, n', s'⟩
  · exact fun hq => hq
  · exact hraise e
  · exact fun hh => hh

/-- A triple adds what it says of a return. -/
theorem ends_and_triple (h : Ends P m Q R H) (h' : Triple P' m Q' E) :
    Ends (fun s => P s ∧ P' s) m (fun a s => Q a s ∧ Q' a s) R H := by
  intro n s ⟨hs, hs'⟩
  have hrun := h n s hs
  have hrun' := h' n s hs'
  revert hrun hrun'
  rcases m n s with ⟨a | e | how, n', s'⟩
  · exact fun hq hq' => ⟨hq, hq'⟩
  · exact fun he _ => he
  · exact fun hh _ => hh

theorem ends_pure_fact {fact : Prop} (h : fact → Ends P m Q R H) :
    Ends (fun s => fact ∧ P s) m Q R H := fun n s ⟨hfact, hs⟩ => h hfact n s hs

theorem ends_ret {a : α} (h : ∀ s, P s → Q a s) :
    Ends P (pure a : Prog σ κ ε α) Q R H := fun _ s hs => h s hs

theorem ends_bind {M : α → σ → Prop} {Q : β → σ → Prop} {f : α → Prog σ κ ε β}
    (hm : Ends P m M R H) (hf : ∀ a, Ends (M a) (f a) Q R H) : Ends P (m >>= f) Q R H := by
  intro n s hs
  have hrun := hm n s hs
  change Ending Q R H (andThen m f n s)
  unfold andThen
  revert hrun
  rcases m n s with ⟨a | e | how, n', s'⟩
  · exact hf a n' s'
  · exact fun he => he
  · exact fun hh => hh

/-- What is caught is not raised. -/
theorem ends_attempt {T : ε → Prop} {Q : Except ε α → σ → Prop}
    (h : Ends P m (fun a s => Q (.ok a) s) T H) (hcatch : ∀ e s, T e → Q (.error e) s) :
    Ends P (attempt m) Q R H := by
  intro n s hs
  have hrun := h n s hs
  unfold attempt
  revert hrun
  rcases m n s with ⟨a | e | how, n', s'⟩
  · exact fun hq => hq
  · exact hcatch e s'
  · exact fun hh => hh

theorem ends_halt {how : κ} (h : H how) : Ends P (halt how : Prog σ κ ε α) Q R H :=
  fun _ _ _ => h

theorem ends_ask {oracle : ℕ → α} (h : ∀ n s, P s → Q (oracle n) s) :
    Ends P (ask oracle : Prog σ κ ε α) Q R H := fun n s hs => h n s hs

theorem ends_read {f : σ → α} (h : ∀ s, P s → Q (f s) s) :
    Ends P (read f : Prog σ κ ε α) Q R H := fun _ s hs => h s hs

theorem ends_update {f : σ → σ} {Q : PUnit → σ → Prop} (h : ∀ s, P s → Q ⟨⟩ (f s)) :
    Ends P (update f : Prog σ κ ε PUnit) Q R H := fun _ s hs => h s hs

theorem ends_ofExcept {x : Except ε α} (h : ∀ a, x = .ok a → ∀ s, P s → Q a s)
    (herror : ∀ e, x = .error e → R e) : Ends P (ofExcept x : Prog σ κ ε α) Q R H := by
  cases x with
  | ok a => exact ends_ret (h a rfl)
  | error e => exact fun _ _ _ => herror e rfl

theorem ends_forM {f : α → Prog σ κ ε PUnit} {l : List α}
    (h : ∀ a ∈ l, Ends P (f a) (fun _ => P) R H) : Ends P (l.forM f) (fun _ => P) R H := by
  induction l with
  | nil => exact ends_ret fun _ hs => hs
  | cons a l ih =>
    exact ends_bind (h a List.mem_cons_self) fun _ =>
      ih fun b hb => h b (List.mem_cons_of_mem a hb)

/-- A loop over a list does not return when it does not return from one of its elements. -/
theorem ends_forM_stuck {f : α → Prog σ κ ε PUnit} {l : List α} {a : α} (ha : a ∈ l)
    (hstuck : Ends P (f a) (fun _ _ => False) R H)
    (h : ∀ b ∈ l, Ends P (f b) (fun _ => P) R H) :
    Ends P (l.forM f) (fun _ _ => False) R H := by
  obtain ⟨front, back, rfl⟩ := List.append_of_mem ha
  induction front with
  | nil => exact ends_bind hstuck fun _ _ _ hfalse => hfalse.elim
  | cons b front ih =>
    exact ends_bind (h b List.mem_cons_self) fun _ =>
      ih (List.mem_append_right _ List.mem_cons_self) fun c hc => h c (List.mem_cons_of_mem b hc)

end Ends

/-! ## A process that is started again and again -/

/-- The clock and the state after running the bodies one after another, each in what the
one before it left behind, however it ended. -/
def lives (body : β → Prog σ κ ε α) (inputs : List β) (start : ℕ × σ) :
    ℕ × σ :=
  inputs.foldl (fun now input => (body input now.1 now.2).2) start

/-- What every life preserves, a sequence of lives preserves. -/
theorem preserves_lives {body : β → Prog σ κ ε α} {S : σ → Prop}
    (h : ∀ input, Preserves S (body input)) (inputs : List β) {start : ℕ × σ}
    (hstart : S start.2) : S (lives body inputs start).2 := by
  induction inputs generalizing start with
  | nil => exact hstart
  | cons input inputs ih =>
    refine ih ?_
    have hlife := h input start.1 start.2 hstart
    change S (body input start.1 start.2).2.2
    revert hlife
    rcases body input start.1 start.2 with ⟨a | e | how, n, s⟩
    all_goals exact fun hs => hs

end CrashPrograms
end FederatedMessaging
