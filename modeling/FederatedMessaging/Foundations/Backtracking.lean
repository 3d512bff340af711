import Mathlib

/-!
# Greedy backtracking patterns

A regular-expression engine of the backtracking kind does not decide a language;
it *searches*.  It tries the ways a pattern can match in a fixed order --- the
longest repetition first, the left branch of an alternative first, the optional
part before its absence --- and reports the first one that lets the rest of the
pattern match.  What a program reads off a match is therefore the first way, not
the set of ways, and that order has to be in the model.

Here a pattern is a datatype (`Pattern`), and `ways` lists every way it can match
a prefix of the input, in the order the engine would try them.  The engine's
answer is the head of that list.  Repetition ranges over single letters
(`many p`), which is all that tokenising patterns need and which keeps the
recursion structural.

## How a match is computed

`Leads P s w` says that the first way of `P` on `s` is `w`.  Each constructor has
one rule for it, and the rules compose along `seq`: when the first way of the left
part lets the right part match, the engine never backtracks.  That is the shape of
every delimited format, where a letter of one field cannot be a letter of the next,
and there the rules compute the match without enumerating the alternatives.
-/

namespace FederatedMessaging
namespace Backtracking

variable {α γ : Type*}

/-- Patterns over letters `α` with capture groups named by `γ`. -/
inductive Pattern (α γ : Type*) where
  /-- One letter satisfying `p`. -/
  | one (p : α → Bool)
  /-- Greedy repetition, zero or more letters satisfying `p`. -/
  | many (p : α → Bool)
  /-- A zero-width test of what is left. -/
  | look (p : List α → Bool)
  | seq (P Q : Pattern α γ)
  | alt (P Q : Pattern α γ)
  /-- `P` or nothing, trying `P` first. -/
  | opt (P : Pattern α γ)
  | group (g : γ) (P : Pattern α γ)

/-- One way of matching: what was consumed, what is left, and what the groups
captured. -/
structure Way (α γ : Type*) where
  consumed : List α
  rest : List α
  captures : List (γ × List α)

/-- The way `w` followed by the way `v` on what `w` left over. -/
def Way.andThen (w v : Way α γ) : Way α γ :=
  ⟨w.consumed ++ v.consumed, v.rest, w.captures ++ v.captures⟩

/-- What a named group captured, if it took part in the match. -/
def Way.group? [BEq γ] (w : Way α γ) (g : γ) : Option (List α) :=
  w.captures.lookup g

/-- What a named group captured; empty when it took no part. -/
def Way.group [BEq γ] (w : Way α γ) (g : γ) : List α :=
  (w.group? g).getD []

/-- The splits of `s` into a run of letters satisfying `p` and the remainder,
longest run first. -/
def runs (p : α → Bool) : List α → List (List α × List α)
  | [] => [([], [])]
  | c :: s => if p c then (runs p s).map (fun u => (c :: u.1, u.2)) ++ [([], c :: s)]
      else [([], c :: s)]

@[simp] theorem runs_nil (p : α → Bool) : runs p [] = [([], [])] := rfl

theorem runs_cons (p : α → Bool) (c : α) (s : List α) :
    runs p (c :: s) =
      if p c then (runs p s).map (fun u => (c :: u.1, u.2)) ++ [([], c :: s)]
      else [([], c :: s)] := rfl

/-- Every way of matching a prefix of the input, in the order they are tried. -/
def ways : Pattern α γ → List α → List (Way α γ)
  | .one _, [] => []
  | .one p, c :: s => if p c then [⟨[c], s, []⟩] else []
  | .many p, s => (runs p s).map fun u => ⟨u.1, u.2, []⟩
  | .look p, s => if p s then [⟨[], s, []⟩] else []
  | .seq P Q, s => (ways P s).flatMap fun w => (ways Q w.rest).map w.andThen
  | .alt P Q, s => ways P s ++ ways Q s
  | .opt P, s => ways P s ++ [⟨[], s, []⟩]
  | .group g P, s => (ways P s).map fun w => { w with captures := (g, w.consumed) :: w.captures }

section Ways

variable (p : α → Bool) (P Q : Pattern α γ) (g : γ) (c : α) (s : List α)

@[simp] theorem ways_one_nil : ways (.one p : Pattern α γ) [] = [] := rfl

@[simp] theorem ways_one_cons :
    ways (.one p : Pattern α γ) (c :: s) = if p c then [⟨[c], s, []⟩] else [] := rfl

@[simp] theorem ways_many :
    ways (.many p : Pattern α γ) s = (runs p s).map fun u => ⟨u.1, u.2, []⟩ := rfl

@[simp] theorem ways_look (p : List α → Bool) :
    ways (.look p : Pattern α γ) s = if p s then [⟨[], s, []⟩] else [] := rfl

@[simp] theorem ways_seq :
    ways (.seq P Q) s = (ways P s).flatMap fun w => (ways Q w.rest).map w.andThen := rfl

@[simp] theorem ways_alt : ways (.alt P Q) s = ways P s ++ ways Q s := rfl

@[simp] theorem ways_opt : ways (.opt P) s = ways P s ++ [⟨[], s, []⟩] := rfl

@[simp] theorem ways_group : ways (.group g P) s =
    (ways P s).map fun w => { w with captures := (g, w.consumed) :: w.captures } := rfl

end Ways

/-- The engine's answer: the first way that matches at the start of the input. -/
def firstWay (P : Pattern α γ) (s : List α) : Option (Way α γ) := (ways P s).head?

namespace Pattern

/-- One or more letters satisfying `p`, greedily. -/
def many1 (p : α → Bool) : Pattern α γ := .seq (.one p) (.many p)

/-- The empty pattern. -/
def empty : Pattern α γ := .look fun _ => true

/-- A literal word. -/
def word [BEq α] : List α → Pattern α γ
  | [] => empty
  | c :: w => .seq (.one (· == c)) (word w)

end Pattern

/-! ## Computing the first way -/

/-- The first way of `P` on `s` is `w`. -/
structure Leads (P : Pattern α γ) (s : List α) (w : Way α γ) : Prop where
  firstWay_eq : firstWay P s = some w

theorem Leads.exists_ways_eq {P : Pattern α γ} {s : List α} {w : Way α γ} (h : Leads P s w) :
    ∃ ws, ways P s = w :: ws :=
  List.head?_eq_some_iff.mp h.firstWay_eq

theorem leads_one {p : α → Bool} {c : α} (hc : p c = true) (s : List α) :
    Leads (.one p : Pattern α γ) (c :: s) ⟨[c], s, []⟩ :=
  ⟨by rw [firstWay, ways_one_cons, if_pos hc, List.head?_cons]⟩

theorem leads_look {p : List α → Bool} {s : List α} (hs : p s = true) :
    Leads (.look p : Pattern α γ) s ⟨[], s, []⟩ :=
  ⟨by rw [firstWay, ways_look, if_pos hs, List.head?_cons]⟩

theorem leads_empty (s : List α) : Leads (Pattern.empty : Pattern α γ) s ⟨[], s, []⟩ :=
  leads_look rfl

/-- A greedy repetition first takes the whole run it faces. -/
theorem head?_runs {p : α → Bool} {u r : List α} (hu : ∀ c ∈ u, p c = true)
    (hr : ∀ c ∈ r.head?, p c = false) : (runs p (u ++ r)).head? = some (u, r) := by
  induction u with
  | nil =>
    cases r with
    | nil => rfl
    | cons c r =>
      have hc : p c = false := hr c rfl
      simp [runs_cons, hc]
  | cons c u ih =>
    have hc : p c = true := hu c List.mem_cons_self
    have htail := ih fun d hd => hu d (List.mem_cons_of_mem c hd)
    simp [runs_cons, hc, htail]

theorem leads_many {p : α → Bool} {u r : List α} (hu : ∀ c ∈ u, p c = true)
    (hr : ∀ c ∈ r.head?, p c = false) :
    Leads (.many p : Pattern α γ) (u ++ r) ⟨u, r, []⟩ :=
  ⟨by simp [firstWay, ways_many, head?_runs hu hr]⟩

/-- **Matching composes while nothing backtracks.**  If the first way of `P` lets
`Q` match, the first way of the sequence is the one followed by the other. -/
theorem leads_seq {P Q : Pattern α γ} {s : List α} {w v : Way α γ} (hP : Leads P s w)
    (hQ : Leads Q w.rest v) : Leads (.seq P Q) s (w.andThen v) := by
  obtain ⟨ws, hws⟩ := hP.exists_ways_eq
  obtain ⟨vs, hvs⟩ := hQ.exists_ways_eq
  exact ⟨by rw [firstWay, ways_seq, hws, List.flatMap_cons, hvs, List.map_cons, List.cons_append,
    List.head?_cons]⟩

theorem leads_alt_left {P : Pattern α γ} (Q : Pattern α γ) {s : List α} {w : Way α γ}
    (hP : Leads P s w) : Leads (.alt P Q) s w := by
  obtain ⟨ws, hws⟩ := hP.exists_ways_eq
  exact ⟨by rw [firstWay, ways_alt, hws, List.cons_append, List.head?_cons]⟩

theorem leads_alt_right {P Q : Pattern α γ} {s : List α} {w : Way α γ}
    (hP : ways P s = []) (hQ : Leads Q s w) : Leads (.alt P Q) s w := by
  obtain ⟨ws, hws⟩ := hQ.exists_ways_eq
  exact ⟨by rw [firstWay, ways_alt, hP, hws, List.nil_append, List.head?_cons]⟩

theorem leads_opt {P : Pattern α γ} {s : List α} {w : Way α γ} (hP : Leads P s w) :
    Leads (.opt P) s w := by
  obtain ⟨ws, hws⟩ := hP.exists_ways_eq
  exact ⟨by rw [firstWay, ways_opt, hws, List.cons_append, List.head?_cons]⟩

theorem leads_opt_none {P : Pattern α γ} {s : List α} (hP : ways P s = []) :
    Leads (.opt P) s ⟨[], s, []⟩ :=
  ⟨by rw [firstWay, ways_opt, hP, List.nil_append, List.head?_cons]⟩

theorem leads_group (g : γ) {P : Pattern α γ} {s : List α} {w : Way α γ} (hP : Leads P s w) :
    Leads (.group g P) s { w with captures := (g, w.consumed) :: w.captures } := by
  obtain ⟨ws, hws⟩ := hP.exists_ways_eq
  exact ⟨by rw [firstWay, ways_group, hws, List.map_cons, List.head?_cons]⟩

theorem leads_many1 {p : α → Bool} {u r : List α} (hne : u ≠ []) (hu : ∀ c ∈ u, p c = true)
    (hr : ∀ c ∈ r.head?, p c = false) :
    Leads (Pattern.many1 p : Pattern α γ) (u ++ r) ⟨u, r, []⟩ := by
  cases u with
  | nil => exact absurd rfl hne
  | cons c u =>
    have hc : p c = true := hu c List.mem_cons_self
    have htail : ∀ d ∈ u, p d = true := fun d hd => hu d (List.mem_cons_of_mem c hd)
    exact leads_seq (leads_one hc (u ++ r)) (leads_many htail hr)

theorem leads_word [BEq α] [LawfulBEq α] (w r : List α) :
    Leads (Pattern.word w : Pattern α γ) (w ++ r) ⟨w, r, []⟩ := by
  induction w with
  | nil => exact leads_empty r
  | cons c w ih => exact leads_seq (leads_one (p := (· == c)) (beq_self_eq_true c) (w ++ r)) ih

/-! ## What a way says about its input -/

/-- Every split listed by `runs` is a split, and its first part satisfies `p`. -/
theorem mem_runs {p : α → Bool} {s : List α} {u : List α × List α} (hu : u ∈ runs p s) :
    s = u.1 ++ u.2 ∧ ∀ c ∈ u.1, p c = true := by
  induction s generalizing u with
  | nil =>
    rw [runs_nil, List.mem_singleton] at hu
    subst hu
    simp
  | cons c s ih =>
    by_cases hc : p c = true
    · simp only [runs_cons, hc, if_true, List.mem_append, List.mem_map, List.mem_singleton] at hu
      rcases hu with ⟨v, hv, rfl⟩ | rfl
      · obtain ⟨hsplit, hall⟩ := ih hv
        exact ⟨by rw [hsplit]; rfl, List.forall_mem_cons.mpr ⟨hc, hall⟩⟩
      · simp
    · rw [runs_cons, if_neg hc, List.mem_singleton] at hu
      subst hu
      simp

theorem mem_ways_many1 {p : α → Bool} {s : List α} {w : Way α γ}
    (hw : w ∈ ways (Pattern.many1 p) s) :
    s = w.consumed ++ w.rest ∧ w.consumed ≠ [] ∧ ∀ c ∈ w.consumed, p c = true := by
  cases s with
  | nil => simp [Pattern.many1] at hw
  | cons c s =>
    by_cases hc : p c = true
    · simp only [Pattern.many1, ways_seq, ways_one_cons, ways_many, hc, if_true,
        List.flatMap_cons, List.flatMap_nil, List.append_nil, List.map_map, List.mem_map] at hw
      obtain ⟨u, hu, rfl⟩ := hw
      obtain ⟨hsplit, hall⟩ := mem_runs hu
      refine ⟨?_, by simp [Way.andThen], ?_⟩
      · rw [hsplit]
        rfl
      · exact List.forall_mem_cons.mpr ⟨hc, hall⟩
    · simp [Pattern.many1, hc] at hw

theorem exists_way_of_firstWay_isSome {P : Pattern α γ} {s : List α}
    (h : (firstWay P s).isSome = true) : ∃ w, w ∈ ways P s := by
  obtain ⟨w, hw⟩ := Option.isSome_iff_exists.mp h
  exact ⟨w, List.mem_of_mem_head? hw⟩

/-! ## What the groups can capture -/

/-- Every group of the pattern captures words related to its name by `R`: what the
pattern under a group can consume decides what the group can hold. -/
def Pattern.Captures (R : γ → List α → Prop) : Pattern α γ → Prop
  | .one _ => True
  | .many _ => True
  | .look _ => True
  | .seq P Q => P.Captures R ∧ Q.Captures R
  | .alt P Q => P.Captures R ∧ Q.Captures R
  | .opt P => P.Captures R
  | .group g P => P.Captures R ∧ ∀ s, ∀ w ∈ ways P s, R g w.consumed

section Captures

variable {R : γ → List α → Prop}

theorem captures_word [BEq α] (w : List α) : (Pattern.word w : Pattern α γ).Captures R := by
  induction w with
  | nil => exact trivial
  | cons c w ih => exact ⟨trivial, ih⟩

theorem captures_many1 (p : α → Bool) : (Pattern.many1 p : Pattern α γ).Captures R :=
  ⟨trivial, trivial⟩

/-- A group over one repetition holds nonempty words of its class. -/
theorem captures_group_many1 {g : γ} {p : α → Bool}
    (h : ∀ t, t ≠ [] → (∀ c ∈ t, p c = true) → R g t) :
    (Pattern.group g (Pattern.many1 p)).Captures R :=
  ⟨captures_many1 p, fun _ w hw => h w.consumed (mem_ways_many1 hw).2.1 (mem_ways_many1 hw).2.2⟩

/-- **Every capture of every way is one its group allows.** -/
theorem captures_of_mem_ways {P : Pattern α γ} (hP : P.Captures R) {s : List α} {w : Way α γ}
    (hw : w ∈ ways P s) : ∀ x ∈ w.captures, R x.1 x.2 := by
  induction P generalizing s w with
  | one p =>
    cases s with
    | nil => exact absurd hw List.not_mem_nil
    | cons c s =>
      rw [ways_one_cons] at hw
      split_ifs at hw
      · rw [List.mem_singleton.mp hw]
        exact fun x hx => absurd hx List.not_mem_nil
      · exact absurd hw List.not_mem_nil
  | many p =>
    obtain ⟨u, -, rfl⟩ := List.mem_map.mp hw
    exact fun x hx => absurd hx List.not_mem_nil
  | look p =>
    rw [ways_look] at hw
    split_ifs at hw
    · rw [List.mem_singleton.mp hw]
      exact fun x hx => absurd hx List.not_mem_nil
    · exact absurd hw List.not_mem_nil
  | seq P Q ihP ihQ =>
    obtain ⟨v, hv, hw⟩ := List.mem_flatMap.mp hw
    obtain ⟨u, hu, rfl⟩ := List.mem_map.mp hw
    intro x hx
    rcases List.mem_append.mp hx with hx | hx
    · exact ihP hP.1 hv x hx
    · exact ihQ hP.2 hu x hx
  | alt P Q ihP ihQ =>
    rcases List.mem_append.mp hw with hw | hw
    · exact ihP hP.1 hw
    · exact ihQ hP.2 hw
  | opt P ih =>
    rcases List.mem_append.mp hw with hw | hw
    · exact ih hP hw
    · rw [List.mem_singleton.mp hw]
      exact fun x hx => absurd hx List.not_mem_nil
  | group g P ih =>
    obtain ⟨v, hv, rfl⟩ := List.mem_map.mp hw
    intro x hx
    rcases List.mem_cons.mp hx with rfl | hx
    · exact hP.2 s v hv
    · exact ih hP.1 hv x hx

/-- What a nonempty group holds after a match. -/
theorem captures_group [BEq γ] [LawfulBEq γ] {P : Pattern α γ} (hP : P.Captures R) {s : List α}
    {w : Way α γ} (hw : firstWay P s = some w) {g : γ} (hne : w.group g ≠ []) :
    R g (w.group g) := by
  unfold Way.group Way.group? at hne ⊢
  cases hget : w.captures.lookup g with
  | none =>
    rw [hget] at hne
    exact absurd rfl hne
  | some t =>
    have hmem : (g, t) ∈ w.captures := by
      obtain ⟨front, back, hsplit, -⟩ := List.lookup_eq_some_iff.mp hget
      rw [hsplit]
      exact List.mem_append_right front List.mem_cons_self
    exact captures_of_mem_ways hP (List.mem_of_mem_head? hw) (g, t) hmem

end Captures

/-! ## Failing to match -/

theorem ways_word_cons_eq_nil [BEq α] [LawfulBEq α] {c d : α} (hcd : d ≠ c) (w s : List α) :
    ways (Pattern.word (c :: w) : Pattern α γ) (d :: s) = [] := by
  simp [Pattern.word, hcd]

end Backtracking
end FederatedMessaging
