import FederatedMessaging.Foundations.PythonText

/-!
# The membership gate of the human session

`run_session` of `experiments/e4_human_llm.py` creates a room, invites an actual human
and an agent, and polls the room's membership until everyone expected is there or a
deadline has passed.  A gate after the wait then either lets the session go on to the
interactions or declares the run invalid.

## 1.  The wait and the gate

A poll is a reading of the clock and the membership the homeserver would report at that
moment (`Poll`).  The wait stops at the first poll that reports a superset of the
expected members, and at the first reading of the clock that is past the deadline
(`awaitMembership`).  The gate then asks whether what was read last is a *proper subset*
of the expected members.

## 2.  Where the two tests part

On sets, "not a superset" and "a proper subset" are not the same: a membership that
lacks somebody and has somebody else is neither.  The wait does not end on it, and the
gate lets it through.

## 3.  When the session starts as it should

So the session starts with everyone present, or is declared invalid, exactly when the
wait was not cut off by the deadline on such a membership (`gateRight_iff`).
-/

namespace FederatedMessaging
namespace HumanSession

open PythonText

/-- `ACTUAL_HUMAN`. -/
def actualHuman : Text := "@actual-human:hs-a.test".toList

/-- `HUMAN_ROLE_B`. -/
def humanRoleB : Text := "@human-role-b:hs-b.test".toList

/-- `LLM_AGENT`. -/
def llmAgent : Text := "@llm-agent:hs-b.test".toList

/-- `EXPECTED_MEMBERSHIP`. -/
def expectedMembership : Finset Text := {actualHuman, humanRoleB, llmAgent}

/-! ## 1.  The wait and the gate -/

/-- One turn of the poll loop: what `loop.time()` reads, and what `joined_members`
answers if it is asked then. -/
structure Poll where
  time : ℚ
  joined : List Text

namespace Poll

/-- The membership as a set. -/
def members (p : Poll) : Finset Text := p.joined.toFinset

end Poll

section Gate

variable (expected : Finset Text) (deadline : ℚ)

/-- The loop of `_await_membership` from the snapshot read `last`.  It has not returned
yet where the history of polls stops before the deadline. -/
def awaitMembership : List Text → List Poll → Option (List Text)
  | _, [] => none
  | last, p :: polls =>
    if p.time < deadline then
      if expected ⊆ p.members then some p.joined else awaitMembership p.joined polls
    else some last

/-- Where `run_session` stands after the wait. -/
inductive Gate where
  /-- The wait has not returned. -/
  | waiting
  /-- The interaction phase, with the membership that was read last. -/
  | interaction (membership : List Text)
  /-- `InvalidRun`: these expected members did not join. -/
  | invalidRun (missing : List Text)
  deriving DecidableEq

/-- `run_session` from the wait to the interaction phase. -/
def sessionGate (polls : List Poll) : Gate :=
  match awaitMembership expected deadline [] polls with
  | none => .waiting
  | some membership =>
    if membership.toFinset ⊂ expected then
      .invalidRun ((expected \ membership.toFinset).sort fun x y => x ≤ y)
    else .interaction membership

/-- **The gate does its work.**  Once the wait has returned, the session goes on if the
membership it read last contains every expected member, and is invalid if not. -/
def GateRight (polls : List Poll) : Prop :=
  ∀ membership, awaitMembership expected deadline [] polls = some membership →
    if expected ⊆ membership.toFinset then
      sessionGate expected deadline polls = .interaction membership
    else ∃ missing, sessionGate expected deadline polls = .invalidRun missing

/-! ## 2.  Where the two tests part -/

/-- Somebody expected is missing and somebody else is there. -/
def Mixed (members : Finset Text) : Prop := ¬ expected ⊆ members ∧ ¬ members ⊆ expected

instance (members : Finset Text) : Decidable (Mixed expected members) :=
  inferInstanceAs (Decidable (_ ∧ _))

/-- The polls made: those before the deadline. -/
def made (polls : List Poll) : List Poll := polls.takeWhile fun p => p.time < deadline

/-- What the last poll made reports, nothing where none was made. -/
def lastMade (polls : List Poll) : Finset Text :=
  ((made deadline polls).getLast?.map Poll.members).getD ∅

/-- The deadline cuts the wait off on a mixed membership: no poll made reports everyone,
a later reading of the clock is past the deadline, and the last poll made lacks somebody
expected and has somebody else. -/
def CutOffMixed (polls : List Poll) : Prop :=
  (∀ p ∈ made deadline polls, ¬ expected ⊆ p.members) ∧
    (∃ p ∈ polls, deadline ≤ p.time) ∧ Mixed expected (lastMade deadline polls)

variable {expected deadline}

/-- The gate's test is the wait's, except on mixed memberships. -/
theorem ssubset_iff_of_not_mixed {members : Finset Text} (h : ¬ Mixed expected members) :
    members ⊂ expected ↔ ¬ expected ⊆ members := by
  rw [Mixed, not_and_not_right] at h
  rw [Finset.ssubset_iff_subset_ne]
  constructor
  · rintro ⟨hsub, hne⟩ hsup
    exact hne (Finset.Subset.antisymm hsub hsup)
  · intro hnot
    exact ⟨h hnot, fun heq => hnot heq.ge⟩

/-- On a mixed membership the gate lets the session through. -/
theorem not_ssubset_of_mixed {members : Finset Text} (h : Mixed expected members) :
    ¬ members ⊂ expected :=
  fun hsub => h.2 hsub.1

/-- One poll that is made and does not report everyone. -/
theorem awaitMembership_cons_of_lt {last : List Text} {p : Poll} {polls : List Poll}
    (ht : p.time < deadline) (hp : ¬ expected ⊆ p.members) :
    awaitMembership expected deadline last (p :: polls) =
      awaitMembership expected deadline p.joined polls := by
  rw [awaitMembership, if_pos ht, if_neg hp]

theorem made_cons_of_lt {p : Poll} {polls : List Poll} (ht : p.time < deadline) :
    made deadline (p :: polls) = p :: made deadline polls :=
  List.takeWhile_cons_of_pos (decide_eq_true ht)

theorem made_cons_of_le {p : Poll} {polls : List Poll} (ht : deadline ≤ p.time) :
    made deadline (p :: polls) = [] :=
  List.takeWhile_cons_of_neg fun h => absurd (of_decide_eq_true h) (not_lt.mpr ht)

/-- The membership after the polls made, from the snapshot `last`. -/
theorem getLast?_cons_members {p : Poll} {polls : List Poll} (members : Finset Text) :
    (((p :: polls).getLast?).map Poll.members).getD members =
      ((polls.getLast?).map Poll.members).getD p.members := by
  cases polls with
  | nil => rfl
  | cons q polls =>
    rw [List.getLast?_cons_cons, List.getLast?_cons]
    rfl

/-- **What the wait returns.**  Somebody's membership with everyone in it, or, when the
deadline has passed on none, the one read last. -/
theorem awaitMembership_spec {last membership : List Text} {polls : List Poll}
    (h : awaitMembership expected deadline last polls = some membership) :
    ((∃ p ∈ made deadline polls, expected ⊆ p.members) ∧ expected ⊆ membership.toFinset) ∨
    ((∀ p ∈ made deadline polls, ¬ expected ⊆ p.members) ∧ (∃ p ∈ polls, deadline ≤ p.time) ∧
      membership.toFinset =
        (((made deadline polls).getLast?).map Poll.members).getD last.toFinset) := by
  induction polls generalizing last with
  | nil => cases h
  | cons p polls ih =>
    by_cases ht : p.time < deadline
    · rw [made_cons_of_lt ht]
      by_cases hp : expected ⊆ p.members
      · rw [awaitMembership, if_pos ht, if_pos hp] at h
        obtain rfl := Option.some_inj.mp h
        exact Or.inl ⟨⟨p, List.mem_cons_self, hp⟩, hp⟩
      · rw [awaitMembership_cons_of_lt ht hp] at h
        rcases ih h with ⟨⟨q, hq, hall⟩, hmem⟩ | ⟨hnone, ⟨q, hq, hlate⟩, hlast⟩
        · exact Or.inl ⟨⟨q, List.mem_cons_of_mem p hq, hall⟩, hmem⟩
        · refine Or.inr ⟨?_, ⟨q, List.mem_cons_of_mem p hq, hlate⟩, ?_⟩
          · exact List.forall_mem_cons.mpr ⟨hp, hnone⟩
          · rw [getLast?_cons_members, hlast]
            rfl
    · rw [awaitMembership, if_neg ht] at h
      obtain rfl := Option.some_inj.mp h
      rw [made_cons_of_le (not_lt.mp ht)]
      exact Or.inr ⟨fun _ hq => absurd hq List.not_mem_nil,
        ⟨p, List.mem_cons_self, not_lt.mp ht⟩, rfl⟩

/-- The wait returns once a reading of the clock is past the deadline. -/
theorem exists_awaitMembership {last : List Text} {polls : List Poll}
    (h : ∃ p ∈ polls, deadline ≤ p.time) :
    ∃ membership, awaitMembership expected deadline last polls = some membership := by
  induction polls generalizing last with
  | nil => exact absurd h.choose_spec.1 List.not_mem_nil
  | cons p polls ih =>
    rw [awaitMembership]
    split
    · rename_i ht
      split
      · exact ⟨_, rfl⟩
      · obtain ⟨q, hq, hlate⟩ := h
        rcases List.mem_cons.mp hq with rfl | hq
        · exact absurd ht (not_lt.mpr hlate)
        · exact ih ⟨q, hq, hlate⟩
    · exact ⟨_, rfl⟩

/-! ## 3.  When the session starts as it should -/

theorem sessionGate_of_some {polls : List Poll} {membership : List Text}
    (h : awaitMembership expected deadline [] polls = some membership) :
    sessionGate expected deadline polls =
      if membership.toFinset ⊂ expected then
        .invalidRun ((expected \ membership.toFinset).sort fun x y => x ≤ y)
      else .interaction membership := by
  rw [sessionGate, h]

/-- The gate's answer is the right one exactly off the mixed memberships. -/
theorem gate_right_iff_not_mixed {polls : List Poll} {membership : List Text}
    (h : awaitMembership expected deadline [] polls = some membership) :
    (if expected ⊆ membership.toFinset then
      sessionGate expected deadline polls = .interaction membership
    else ∃ missing, sessionGate expected deadline polls = .invalidRun missing) ↔
      ¬ Mixed expected membership.toFinset := by
  rw [sessionGate_of_some h]
  by_cases hmixed : Mixed expected membership.toFinset
  · rw [if_neg hmixed.1, if_neg (not_ssubset_of_mixed hmixed)]
    exact iff_of_false (fun hright => nomatch hright.choose_spec) (not_not.mpr hmixed)
  · refine ⟨fun _ => hmixed, fun _ => ?_⟩
    by_cases hall : expected ⊆ membership.toFinset
    · rw [if_pos hall, if_neg fun hsub => (ssubset_iff_of_not_mixed hmixed).mp hsub hall]
    · rw [if_neg hall, if_pos ((ssubset_iff_of_not_mixed hmixed).mpr hall)]
      exact ⟨_, rfl⟩

end Gate

/-- **The session starts only with everyone present, unless the deadline cuts the wait
off on a membership that lacks somebody expected and has somebody else.** -/
theorem gateRight_iff (expected : Finset Text) (deadline : ℚ) (polls : List Poll) :
    GateRight expected deadline polls ↔ ¬ CutOffMixed expected deadline polls := by
  constructor
  · rintro hright ⟨hnone, hlate, hmixed⟩
    obtain ⟨membership, hreturned⟩ := @exists_awaitMembership expected deadline [] polls hlate
    have hnot := (gate_right_iff_not_mixed hreturned).mp (hright membership hreturned)
    rcases awaitMembership_spec hreturned with ⟨⟨p, hp, hall⟩, -⟩ | ⟨-, -, hlast⟩
    · exact hnone p hp hall
    · rw [hlast] at hnot
      exact hnot hmixed
  · intro hcut membership hreturned
    rw [gate_right_iff_not_mixed hreturned]
    intro hmixed
    rcases awaitMembership_spec hreturned with ⟨-, hall⟩ | ⟨hnone, hlate, hlast⟩
    · exact hmixed.1 hall
    · rw [hlast] at hmixed
      exact hcut ⟨hnone, hlate, hmixed⟩

/-- The agent never joins, and somebody nobody expected does. -/
def strangerPolls : List Poll :=
  [⟨0, [humanRoleB]⟩, ⟨1, [humanRoleB, actualHuman, "@stranger:hs-a.test".toList]⟩, ⟨3, []⟩]

/-- The session then starts without the agent. -/
theorem stranger_not_gateRight : ¬ GateRight expectedMembership 2 strangerPolls := by
  intro h
  have hgate : sessionGate expectedMembership 2 strangerPolls =
      .interaction [humanRoleB, actualHuman, "@stranger:hs-a.test".toList] := by decide +kernel
  have hread := h [humanRoleB, actualHuman, "@stranger:hs-a.test".toList] (by decide +kernel)
  rw [if_neg (by decide +kernel), hgate] at hread
  exact nomatch hread.choose_spec

end HumanSession
end FederatedMessaging
