import FederatedMessaging.Matrix.DomainViews

/-!
# The federation comparison

`FederationComparison` of `fam.instrumentation.federation` compares what the two
federation domains show of a room with what the run generated, and says so twice: as a
verdict, `overall_result`, and as a list of sentences, `failure_reasons`.

## 1.  One domain

A domain is looked at through a view that may be absent; an absent view shows no event
and no member (`eventIds`, `memberIds`).  What goes wrong on one domain is that events
are missing, that events are unexpected, or that its membership is another one.

## 2.  The verdict and the reasons

The verdict is a conjunction of equalities and inclusions.  The reasons come from set
differences, written down apart from it.  They coincide for all sets and views
(`overallResult_iff_failureReasons`): two finite sets are equal exactly when both
differences are empty.

## 3.  What the verdict amounts to

The two directional inclusions follow from the equalities as soon as the expected
requests are among the expected events, which is how `e1_federation` builds its
comparison (`ofRun`).  The verdict is then the four equalities and nothing else
(`verdict_is_equality`).

Left out: the fields that only `to_dict` reads.
-/

namespace FederatedMessaging
namespace Instrumentation

open PythonText FederatedMessaging.Matrix

/-! ## 1.  One domain -/

/-- The experimental events a view shows, none where there is no view. -/
def eventIds (view : Option DomainView) : Finset Text :=
  match view with
  | some view => view.experimentalEventIds
  | none => ∅

/-- The members a view shows, none where there is no view. -/
def memberIds (view : Option DomainView) : Finset Text :=
  match view with
  | some view => view.membership.toFinset
  | none => ∅

/-- The two domains by the letter a reason names them with. -/
inductive Domain where
  | a
  | b
  deriving DecidableEq, Repr

/-- One sentence of `failure_reasons`, with the values it interpolates. -/
inductive FailureReason where
  /-- `{count} expected events missing on Domain {domain}` -/
  | missing (count : ℕ) (domain : Domain)
  /-- `{count} unexpected experimental events on Domain {domain}` -/
  | unexpected (count : ℕ) (domain : Domain)
  /-- `{count} Human {sender} request events not visible on Domain {domain}` -/
  | notVisible (count : ℕ) (sender domain : Domain)
  /-- `Domain {domain} membership {members} != expected` -/
  | membership (domain : Domain) (members : List Text)
  deriving DecidableEq, Repr

/-- `if condition: reasons.append(reason)` on an empty list. -/
def reasonIf (condition : Bool) (reason : FailureReason) : List FailureReason :=
  if condition then [reason] else []

theorem reasonIf_eq_nil_iff {condition : Bool} {reason : FailureReason} :
    reasonIf condition reason = [] ↔ condition = false := by
  cases condition <;> simp [reasonIf]

/-! ## 2.  The verdict and the reasons -/

/-- What a run expects of the two domains, and what each of them shows. -/
structure FederationComparison where
  expectedEventIds : Finset Text
  expectedRequestIdsA : Finset Text
  expectedRequestIdsB : Finset Text
  expectedMembership : Finset Text
  viewA : Option DomainView
  viewB : Option DomainView

namespace FederationComparison

variable (c : FederationComparison)

/-- `set_a`. -/
def setA : Finset Text := eventIds c.viewA

/-- `set_b`. -/
def setB : Finset Text := eventIds c.viewB

/-- `missing_on_a`. -/
def missingOnA : Finset Text := c.expectedEventIds \ c.setA

/-- `missing_on_b`. -/
def missingOnB : Finset Text := c.expectedEventIds \ c.setB

/-- `unexpected_on_a`. -/
def unexpectedOnA : Finset Text := c.setA \ c.expectedEventIds

/-- `unexpected_on_b`. -/
def unexpectedOnB : Finset Text := c.setB \ c.expectedEventIds

/-- `event_set_equal`. -/
def eventSetEqual : Bool :=
  c.setA = c.expectedEventIds && c.setB = c.expectedEventIds && c.setA = c.setB

/-- `a_requests_visible_on_b`. -/
def aRequestsVisibleOnB : Bool := c.expectedRequestIdsA ⊆ c.setB

/-- `b_requests_visible_on_a`. -/
def bRequestsVisibleOnA : Bool := c.expectedRequestIdsB ⊆ c.setA

/-- `a_requests_missing_on_b`. -/
def aRequestsMissingOnB : Finset Text := c.expectedRequestIdsA \ c.setB

/-- `b_requests_missing_on_a`. -/
def bRequestsMissingOnA : Finset Text := c.expectedRequestIdsB \ c.setA

/-- `membership_a`. -/
def membershipA : Finset Text := memberIds c.viewA

/-- `membership_b`. -/
def membershipB : Finset Text := memberIds c.viewB

/-- `membership_compatible`. -/
def membershipCompatible : Bool :=
  c.membershipA = c.expectedMembership && c.membershipB = c.expectedMembership

/-- `overall_result`. -/
def overallResult : Bool :=
  c.eventSetEqual && c.aRequestsVisibleOnB && c.bRequestsVisibleOnA && c.membershipCompatible

/-- `failure_reasons`. -/
def failureReasons : List FailureReason :=
  reasonIf (c.missingOnA.Nonempty) (.missing c.missingOnA.card .a) ++
  reasonIf (c.missingOnB.Nonempty) (.missing c.missingOnB.card .b) ++
  reasonIf (c.unexpectedOnA.Nonempty) (.unexpected c.unexpectedOnA.card .a) ++
  reasonIf (c.unexpectedOnB.Nonempty) (.unexpected c.unexpectedOnB.card .b) ++
  reasonIf (!c.aRequestsVisibleOnB) (.notVisible c.aRequestsMissingOnB.card .a .b) ++
  reasonIf (!c.bRequestsVisibleOnA) (.notVisible c.bRequestsMissingOnA.card .b .a) ++
  reasonIf (c.membershipA ≠ c.expectedMembership)
    (.membership .a (c.membershipA.sort fun x y => x ≤ y)) ++
  reasonIf (c.membershipB ≠ c.expectedMembership)
    (.membership .b (c.membershipB.sort fun x y => x ≤ y))

variable {c}

theorem eventSetEqual_iff :
    c.eventSetEqual = true ↔ c.setA = c.expectedEventIds ∧ c.setB = c.expectedEventIds := by
  unfold eventSetEqual
  constructor
  · intro h
    simp only [Bool.and_eq_true, decide_eq_true_eq] at h
    exact h.1
  · rintro ⟨ha, hb⟩
    simp [ha, hb]

theorem membershipCompatible_iff :
    c.membershipCompatible = true ↔
      c.membershipA = c.expectedMembership ∧ c.membershipB = c.expectedMembership := by
  simp [membershipCompatible]

theorem overallResult_iff :
    c.overallResult = true ↔
      (c.setA = c.expectedEventIds ∧ c.setB = c.expectedEventIds) ∧
      c.expectedRequestIdsA ⊆ c.setB ∧ c.expectedRequestIdsB ⊆ c.setA ∧
      c.membershipA = c.expectedMembership ∧ c.membershipB = c.expectedMembership := by
  rw [overallResult, Bool.and_eq_true, Bool.and_eq_true, Bool.and_eq_true, eventSetEqual_iff,
    membershipCompatible_iff]
  simp only [aRequestsVisibleOnB, bRequestsVisibleOnA, decide_eq_true_eq, and_assoc]

/-- Nothing missing and nothing unexpected is equality. -/
theorem eq_iff_sdiff_eq_empty {α : Type*} [DecidableEq α] {shown expected : Finset α} :
    shown = expected ↔ expected \ shown = ∅ ∧ shown \ expected = ∅ := by
  rw [Finset.sdiff_eq_empty_iff_subset, Finset.sdiff_eq_empty_iff_subset]
  exact ⟨fun h => ⟨h.ge, h.le⟩, fun h => Finset.Subset.antisymm h.2 h.1⟩

/-- There is no reason exactly when none of the eight conditions holds. -/
theorem failureReasons_eq_nil_iff :
    c.failureReasons = [] ↔
      (c.missingOnA = ∅ ∧ c.unexpectedOnA = ∅) ∧ (c.missingOnB = ∅ ∧ c.unexpectedOnB = ∅) ∧
      c.expectedRequestIdsA ⊆ c.setB ∧ c.expectedRequestIdsB ⊆ c.setA ∧
      c.membershipA = c.expectedMembership ∧ c.membershipB = c.expectedMembership := by
  simp only [failureReasons, List.append_eq_nil_iff, reasonIf_eq_nil_iff, Bool.not_eq_false',
    decide_eq_false_iff_not, Finset.not_nonempty_iff_eq_empty, not_not, aRequestsVisibleOnB,
    bRequestsVisibleOnA, decide_eq_true_eq]
  tauto

/-- **The verdict and the reasons coincide.** -/
theorem overallResult_iff_failureReasons (c : FederationComparison) :
    c.overallResult = true ↔ c.failureReasons = [] := by
  rw [overallResult_iff, failureReasons_eq_nil_iff, @eq_iff_sdiff_eq_empty _ _ c.setA,
    @eq_iff_sdiff_eq_empty _ _ c.setB, and_assoc]
  rfl

/-! ## 3.  What the verdict amounts to -/

/-- With the expected requests among the expected events, the inclusions say nothing
that the equalities do not. -/
theorem overallResult_iff_of_subset
    (h : c.expectedRequestIdsA ∪ c.expectedRequestIdsB ⊆ c.expectedEventIds) :
    c.overallResult = true ↔
      c.setA = c.expectedEventIds ∧ c.setB = c.expectedEventIds ∧
      c.membershipA = c.expectedMembership ∧ c.membershipB = c.expectedMembership := by
  obtain ⟨ha, hb⟩ := Finset.union_subset_iff.mp h
  rw [overallResult_iff]
  constructor
  · rintro ⟨⟨hA, hB⟩, -, -, hmA, hmB⟩
    exact ⟨hA, hB, hmA, hmB⟩
  · rintro ⟨hA, hB, hmA, hmB⟩
    exact ⟨⟨hA, hB⟩, hB ▸ ha, hA ▸ hb, hmA, hmB⟩

/-- **The verdict is given for the reasons listed, and for nothing else.**  It holds
exactly when no reason is listed, and, the expected requests being expected events,
exactly when both domains show the expected events and the expected members. -/
theorem verdict_is_equality (c : FederationComparison) :
    (c.overallResult = true ↔ c.failureReasons = []) ∧
    (c.expectedRequestIdsA ∪ c.expectedRequestIdsB ⊆ c.expectedEventIds →
      (c.overallResult = true ↔
        c.setA = c.expectedEventIds ∧ c.setB = c.expectedEventIds ∧
        c.membershipA = c.expectedMembership ∧ c.membershipB = c.expectedMembership)) :=
  ⟨overallResult_iff_failureReasons c, overallResult_iff_of_subset⟩

/-- The comparison of `e1_federation.execute_run`: the expected events are the requests
of both humans and the acknowledgements. -/
def ofRun (requestsA requestsB acks membership : Finset Text) (viewA viewB : Option DomainView) :
    FederationComparison :=
  { expectedEventIds := requestsA ∪ requestsB ∪ acks
    expectedRequestIdsA := requestsA
    expectedRequestIdsB := requestsB
    expectedMembership := membership
    viewA := viewA
    viewB := viewB }

/-- The comparison of a run passes exactly when both domains show what was generated. -/
theorem overallResult_ofRun_iff {requestsA requestsB acks membership : Finset Text}
    {viewA viewB : Option DomainView} :
    (ofRun requestsA requestsB acks membership viewA viewB).overallResult = true ↔
      eventIds viewA = requestsA ∪ requestsB ∪ acks ∧
      eventIds viewB = requestsA ∪ requestsB ∪ acks ∧
      memberIds viewA = membership ∧ memberIds viewB = membership :=
  overallResult_iff_of_subset Finset.subset_union_left

/-- A view of one request and two members. -/
def oneRequestView (domain : Text) : DomainView :=
  { DomainView.new domain ['o'] 1 with
    requestEventIds := {['$', 'r']}
    experimentalEventIds := {['$', 'r']}
    membership := [['@', 'h'], ['@', 'a']] }

/-- The verdict law at a run of one request, which both domains show. -/
theorem oneRequest_verdict :
    (ofRun {['$', 'r']} ∅ ∅ {['@', 'a'], ['@', 'h']} (some (oneRequestView ['A']))
      (some (oneRequestView ['B']))).overallResult = true :=
  ((verdict_is_equality _).2 Finset.subset_union_left).mpr
    ⟨by decide, by decide, by decide, by decide⟩

end FederationComparison
end Instrumentation
end FederatedMessaging
