import FederatedMessaging.Common.TransactionIds

/-!
# What the agent takes for a request, and what it remembers

`fam.agent.protocol` and `fam.common.dedup`.  A protocol says of an event whether it
carries a request, what the logical identity of that request is, and under which
transaction identifier the response goes out.  The registry remembers what has been
processed, by event and by logical identity.

`hashlib.sha256(..).hexdigest()` is a parameter, any function on texts: nothing below
depends on which one it is.  The configured protocol names are the two that
`argparse` admits, so `build` has no failing branch.

The result of this file is the one fact a restarted agent lives on: within a protocol
the response identifier is a function of the logical identity
(`responseTxnId_eq_of_correlationKey_eq`).
-/

namespace FederatedMessaging
namespace Agent

open PythonText Message

/-! ## The registry -/

/-- `Decision`. -/
inductive Decision where
  | process
  | skipDuplicate
  | skipOwnEvent
  | skipNotRequest
  deriving DecidableEq, Repr

/-- `ProcessedRegistry`. -/
structure ProcessedRegistry where
  logical : Finset Key
  events : Finset Text
  deriving DecidableEq

/-- `ProcessedRegistry()`. -/
def ProcessedRegistry.empty : ProcessedRegistry := ⟨∅, ∅⟩

/-- `ProcessedRegistry.decide`. -/
def ProcessedRegistry.decide (registry : ProcessedRegistry) (eventId : Text)
    (correlationKey : Key) : Decision :=
  if eventId ∈ registry.events ∨ correlationKey ∈ registry.logical then .skipDuplicate
  else .process

/-- `ProcessedRegistry.commit`. -/
def ProcessedRegistry.commit (registry : ProcessedRegistry) (eventId : Text)
    (correlationKey : Key) : ProcessedRegistry :=
  ⟨insert correlationKey registry.logical, insert eventId registry.events⟩

/-- `ProcessedRegistry.processed_count`. -/
def ProcessedRegistry.processedCount (registry : ProcessedRegistry) : ℕ :=
  registry.logical.card

theorem ProcessedRegistry.decide_eq_process_iff {registry : ProcessedRegistry} {eventId : Text}
    {key : Key} : registry.decide eventId key = .process ↔
      eventId ∉ registry.events ∧ key ∉ registry.logical := by
  unfold ProcessedRegistry.decide
  rw [← not_or]
  split <;> simp_all

/-! ## Requests -/

/-- `ExecutionRequest`. -/
structure ExecutionRequest where
  text : Text
  message : Option ParsedMessage
  deriving DecidableEq

/-- `InboundRequest`. -/
structure InboundRequest where
  correlationKey : Key
  responseTxnId : Text
  execution : ExecutionRequest
  sequenceId : Option ℕ
  deriving DecidableEq

/-- The two envelopes. -/
inductive ProtocolName where
  | controlled
  | naturalLanguage
  deriving DecidableEq, Repr

/-- `NATURAL_LANGUAGE`. -/
def naturalLanguageName : Text :=
  ['n', 'a', 't', 'u', 'r', 'a', 'l', '_', 'l', 'a', 'n', 'g', 'u', 'a', 'g', 'e']

/-- A request protocol.  The natural-language one knows whose agent it serves. -/
inductive RequestProtocol where
  | controlled
  | naturalLanguage (agentMxid : Text)
  deriving DecidableEq, Repr

/-- `build`. -/
def build (name : ProtocolName) (agentMxid : Text) : RequestProtocol :=
  match name with
  | .controlled => .controlled
  | .naturalLanguage => .naturalLanguage agentMxid

section Inbound

variable (hexdigest : Text → Text)

/-- `response_txn_for_event`. -/
def responseTxnForEvent (eventId : Text) : Text :=
  ['f', 'a', 'm', '-', 'e', '4', '-', 'r', 'e', 's', 'p', 'o', 'n', 's', 'e', '-'] ++
    (hexdigest eventId).take 32

/-- `ControlledProtocol.inbound`. -/
def controlledInbound (body : Text) : Except MessageError (Option InboundRequest) := do
  match ← parse body with
  | none => .ok none
  | some message =>
    if message.isRequest then
      let responseTxnId ← message.correlation.txnId Direction.response.value
      .ok (some
        { correlationKey := message.correlation.key
          responseTxnId := responseTxnId
          execution := ⟨body, some message⟩
          sequenceId := some message.correlation.sequenceId })
    else .ok none

/-- `NaturalLanguageProtocol.inbound`. -/
def naturalLanguageInbound (agentMxid eventId sender body : Text) : Option InboundRequest :=
  if sender = agentMxid then none
  else if strip body = [] then none
  else some
    { correlationKey := (naturalLanguageName, eventId, 0)
      responseTxnId := responseTxnForEvent hexdigest eventId
      execution := ⟨strip body, none⟩
      sequenceId := none }

/-- `RequestProtocol.inbound`: the request an event carries, or `none` to ignore it. -/
def RequestProtocol.inbound (protocol : RequestProtocol) (eventId sender body : Text) :
    Except MessageError (Option InboundRequest) :=
  match protocol with
  | .controlled => controlledInbound body
  | .naturalLanguage agentMxid =>
    .ok (naturalLanguageInbound hexdigest agentMxid eventId sender body)

end Inbound

variable {hexdigest : Text → Text}

/-- **What a controlled request is**: a body that parses to a message of the request
kind. -/
theorem controlledInbound_eq_some {body : Text} {r : InboundRequest}
    (h : controlledInbound body = .ok (some r)) :
    ∃ message, parse body = .ok (some message) ∧ message.isRequest = true ∧
      r.correlationKey = message.correlation.key ∧
      message.correlation.txnId Direction.response.value = .ok r.responseTxnId := by
  unfold controlledInbound at h
  cases hparse : parse body with
  | error e =>
    rw [hparse] at h
    cases h
  | ok found =>
    rw [hparse] at h
    cases found with
    | none => cases h
    | some message =>
      change (if message.isRequest = true then _ else _) = _ at h
      split at h
      · rename_i hrequest
        cases htxn : message.correlation.txnId Direction.response.value with
        | error e =>
          rw [htxn] at h
          cases h
        | ok txn =>
          rw [htxn] at h
          obtain rfl : _ = r := Option.some_inj.mp (Except.ok.inj h)
          exact ⟨message, rfl, hrequest, rfl, htxn⟩
      · cases h

/-- Every body that parses to a request is one. -/
theorem exists_controlledInbound {body : Text} {message : ParsedMessage}
    (h : parse body = .ok (some message)) (hrequest : message.isRequest = true) :
    ∃ r, controlledInbound body = .ok (some r) ∧
      r.correlationKey = message.correlation.key := by
  obtain ⟨txn, htxn⟩ := exists_txnId_of_parse h .response
  refine ⟨⟨message.correlation.key, txn, ⟨body, some message⟩,
    some message.correlation.sequenceId⟩, ?_, rfl⟩
  unfold controlledInbound
  rw [h]
  change (if message.isRequest = true then _ else _) = _
  rw [if_pos hrequest, htxn]
  rfl

theorem naturalLanguageInbound_eq_some {agentMxid eventId sender body : Text}
    {r : InboundRequest}
    (h : naturalLanguageInbound hexdigest agentMxid eventId sender body = some r) :
    sender ≠ agentMxid ∧ strip body ≠ [] ∧
      r.correlationKey = (naturalLanguageName, eventId, 0) ∧
      r.responseTxnId = responseTxnForEvent hexdigest eventId := by
  unfold naturalLanguageInbound at h
  split at h
  · cases h
  · rename_i hsender
    split at h
    · cases h
    · rename_i hbody
      obtain rfl := Option.some_inj.mp h
      exact ⟨hsender, hbody, rfl, rfl⟩

/-- **The response identifier is a function of the logical request.**  Within one
protocol two events with the same correlation key are answered under the same
transaction identifier. -/
theorem responseTxnId_eq_of_correlationKey_eq {protocol : RequestProtocol}
    {eventId eventId' sender sender' body body' : Text} {r r' : InboundRequest}
    (h : protocol.inbound hexdigest eventId sender body = .ok (some r))
    (h' : protocol.inbound hexdigest eventId' sender' body' = .ok (some r'))
    (hkey : r.correlationKey = r'.correlationKey) : r.responseTxnId = r'.responseTxnId := by
  cases protocol with
  | controlled =>
    obtain ⟨message, -, -, hmessage, htxn⟩ := controlledInbound_eq_some h
    obtain ⟨message', -, -, hmessage', htxn'⟩ := controlledInbound_eq_some h'
    exact txnId_eq_of_key_eq htxn htxn' (hmessage.symm.trans (hkey.trans hmessage')) rfl
  | naturalLanguage agentMxid =>
    obtain ⟨-, -, hr, htxn⟩ := naturalLanguageInbound_eq_some (Except.ok.inj h)
    obtain ⟨-, -, hr', htxn'⟩ := naturalLanguageInbound_eq_some (Except.ok.inj h')
    rw [hr, hr'] at hkey
    have hid : eventId = eventId' := congrArg (fun key : Key => key.2.1) hkey
    rw [htxn, htxn', hid]

/-- A natural-language key names its source event. -/
theorem correlationKey_eq_iff_of_naturalLanguage {agentMxid : Text}
    {eventId eventId' sender sender' body body' : Text} {r r' : InboundRequest}
    (h : (RequestProtocol.naturalLanguage agentMxid).inbound hexdigest eventId sender body =
      .ok (some r))
    (h' : (RequestProtocol.naturalLanguage agentMxid).inbound hexdigest eventId' sender' body' =
      .ok (some r')) : r.correlationKey = r'.correlationKey ↔ eventId = eventId' := by
  obtain ⟨-, -, hr, -⟩ := naturalLanguageInbound_eq_some (Except.ok.inj h)
  obtain ⟨-, -, hr', -⟩ := naturalLanguageInbound_eq_some (Except.ok.inj h')
  rw [hr, hr']
  exact ⟨fun hkey => congrArg (fun key : Key => key.2.1) hkey, fun hid => by rw [hid]⟩

end Agent
end FederatedMessaging
