import FederatedMessaging.Foundations.OrderedDict
import FederatedMessaging.Foundations.PythonText

/-!
# The recovery ledger

`fam.agent.recovery`: what a restarted runtime saw, by which path, and what it has
already processed.  The dictionary of observations keeps the source that first
delivered an event and counts the later sightings.
-/

namespace FederatedMessaging
namespace Agent

open PythonText

/-- `Source`. -/
inductive Source where
  | sync
  | history
  deriving DecidableEq, Repr

/-- `Observation`. -/
structure Observation where
  eventId : Text
  firstSource : Source
  timesObserved : ℕ
  deriving DecidableEq, Repr

/-- `RecoveryLedger`. -/
structure RecoveryLedger where
  observations : OrderedDict Text Observation
  processed : Finset Text
  limitedTimeline : Bool
  prevBatch : Option Text
  paginationInvoked : Bool
  historyPagesFetched : ℕ

/-- `RecoveryLedger()`. -/
def RecoveryLedger.empty : RecoveryLedger :=
  { observations := .empty
    processed := ∅
    limitedTimeline := false
    prevBatch := none
    paginationInvoked := false
    historyPagesFetched := 0 }

/-- `RecoveryLedger.observe`: whether this is the first sighting, and the ledger
after it. -/
def RecoveryLedger.observe (ledger : RecoveryLedger) (eventId : Text) (source : Source) :
    Bool × RecoveryLedger :=
  match ledger.observations.get? eventId with
  | none =>
    (true, { ledger with
      observations := ledger.observations.set eventId ⟨eventId, source, 1⟩ })
  | some existing =>
    (false, { ledger with
      observations := ledger.observations.set eventId
        { existing with timesObserved := existing.timesObserved + 1 } })

/-- `RecoveryLedger.note_pagination`. -/
def RecoveryLedger.notePagination (ledger : RecoveryLedger) (pages : ℕ) : RecoveryLedger :=
  { ledger with
    paginationInvoked := true
    historyPagesFetched := ledger.historyPagesFetched + pages }

/-- `RecoveryLedger.should_process`. -/
def RecoveryLedger.shouldProcess (ledger : RecoveryLedger) (eventId : Text) : Bool :=
  eventId ∉ ledger.processed

/-- `RecoveryLedger.mark_processed`. -/
def RecoveryLedger.markProcessed (ledger : RecoveryLedger) (eventId : Text) : RecoveryLedger :=
  { ledger with processed := insert eventId ledger.processed }

/-- The observations whose first source is the given one: `from_sync` and
`from_history`. -/
def RecoveryLedger.firstSeenBy (ledger : RecoveryLedger) (source : Source) : List Observation :=
  ledger.observations.values.filter fun item => item.firstSource == source

/-- `RecoveryLedger.duplicate_observation_count`. -/
def RecoveryLedger.duplicateObservationCount (ledger : RecoveryLedger) : ℕ :=
  ((ledger.observations.values.filter fun item => item.timesObserved > 1).map
    fun item => item.timesObserved - 1).sum

/-- `RecoveryLedger.processed_count`. -/
def RecoveryLedger.processedCount (ledger : RecoveryLedger) : ℕ := ledger.processed.card

/-- What `RecoveryLedger.summary` reports. -/
structure LedgerSummary where
  limitedTimeline : Bool
  prevBatchPresent : Bool
  paginationInvoked : Bool
  historyPagesFetched : ℕ
  recoveredTotal : ℕ
  recoveredFromSync : ℕ
  recoveredFromHistory : ℕ
  duplicateObservations : ℕ
  logicallyProcessed : ℕ
  deriving DecidableEq, Repr

/-- `RecoveryLedger.summary`. -/
def RecoveryLedger.summary (ledger : RecoveryLedger) : LedgerSummary :=
  { limitedTimeline := ledger.limitedTimeline
    prevBatchPresent := ledger.prevBatch.isSome
    paginationInvoked := ledger.paginationInvoked
    historyPagesFetched := ledger.historyPagesFetched
    recoveredTotal := ledger.observations.values.length
    recoveredFromSync := (ledger.firstSeenBy .sync).length
    recoveredFromHistory := (ledger.firstSeenBy .history).length
    duplicateObservations := ledger.duplicateObservationCount
    logicallyProcessed := ledger.processedCount }

/-! ## First sightings -/

variable {ledger : RecoveryLedger}

/-- A first sighting is a sighting of an event that is not in the ledger. -/
theorem RecoveryLedger.observe_first_iff {eventId : Text} {source : Source} :
    (ledger.observe eventId source).1 = true ↔ ledger.observations.get? eventId = none := by
  unfold RecoveryLedger.observe
  cases ledger.observations.get? eventId <;> simp

/-- After a sighting the event is in the ledger. -/
theorem RecoveryLedger.mem_keys_observe {eventId other : Text} {source : Source} :
    other ∈ (ledger.observe eventId source).2.observations.keys ↔
      other ∈ ledger.observations.keys ∨ other = eventId := by
  unfold RecoveryLedger.observe
  cases ledger.observations.get? eventId <;> exact OrderedDict.mem_keys_set

/-- Seeing an event is not processing it. -/
theorem RecoveryLedger.processed_observe (eventId : Text) (source : Source) :
    (ledger.observe eventId source).2.processed = ledger.processed := by
  unfold RecoveryLedger.observe
  cases ledger.observations.get? eventId <;> rfl

end Agent
end FederatedMessaging
