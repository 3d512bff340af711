import FederatedMessaging.Agent.Protocol
import FederatedMessaging.Foundations.DynamicValues
import FederatedMessaging.Foundations.JsonReads
import FederatedMessaging.Foundations.Replacement

/-!
# The provider behind the executor of E4

`fam.executors.llm` sends the text of a request to a provider and makes a reply of what comes
back.  What comes back is not under anyone's control: the transport raises, or there is a
status and a body.

## 1.  What is classified

A provider that is not there, and the statuses that say that it did not do the work, are
external failures; other error statuses, a body that is no JSON and an empty answer are
failures of the integration.  All of these are `LLMProviderError`.

## 2.  What is not

The answer is taken from the document by reads that rely on its shape.  Nothing checks the
shape, and what a read raises is not caught: it leaves `decide` as an `AttributeError`, a
`TypeError` or a `KeyError`.  `WellShaped` is the shape that all reads get through, and
`decide_classified_iff` says that nothing else is needed.

`json.loads` is `Json.loads` here wherever the strings of a document are text.  For half a
surrogate pair, which is a character in Python, it is left open what stands in its place.
-/

namespace FederatedMessaging
namespace Provider

open PythonText Json DynamicValues
open FederatedMessaging.Agent (ExecutionRequest)

/-! ## The executor -/

/-- `ANTHROPIC`. -/
def anthropic : Text := "anthropic".toList

/-- `LLMConfig`. -/
structure LLMConfig where
  provider : Text
  model : Text
  baseUrl : Text
  maxTokens : ℤ
  systemPrompt : Text
  deriving DecidableEq, Repr

/-- `LLMExecutor`, apart from its transport. -/
structure LLMExecutor where
  config : LLMConfig
  apiKey : Text

/-- `MAX_REQUEST_CHARS`. -/
def maxRequestChars : ℕ := 4000

/-- `_SECRET_MARKER`. -/
def secretMarker : Text := "<redacted>".toList

/-- `json.loads`, none where it raises `ValueError`. -/
structure JsonLoads where
  loads : Text → Option Json
  reads : ∀ t document, Json.loads t = .ok document → loads t = some document
  refuses : ∀ t, Json.loads t = .error .invalid ∨ Json.loads t = .error .digitLimit → loads t = none

/-- What a call of the transport comes to. -/
inductive TransportResult where
  | raised (className message : Text)
  | answered (status : ℤ) (body : Text)
  deriving DecidableEq, Repr

/-- The transport: what it does with a url, headers and a payload. -/
abbrev Transport := Text → List (Text × Text) → Json → TransportResult

/-- What `decide` raises. -/
inductive DecideFailure where
  /-- `LLMProviderError` -/
  | provider (message : Text) (external : Bool) (status : Option ℤ)
  /-- an exception of a read -/
  | escaped (failure : ReadFailure)
  deriving DecidableEq, Repr

namespace LLMExecutor

variable (executor : LLMExecutor)

/-- `_endpoint`. -/
def endpoint : Text :=
  if executor.config.provider = anthropic then executor.config.baseUrl ++ "/v1/messages".toList
  else executor.config.baseUrl ++ "/v1/chat/completions".toList

/-- `_headers`. -/
def headers : List (Text × Text) :=
  if executor.config.provider = anthropic then
    [("x-api-key".toList, executor.apiKey), ("anthropic-version".toList, "2023-06-01".toList),
      ("content-type".toList, "application/json".toList)]
  else
    [("authorization".toList, "Bearer ".toList ++ executor.apiKey),
      ("content-type".toList, "application/json".toList)]

/-- A message of the payload. -/
def payloadMessage (role content : Text) : Json :=
  .object [("role".toList, .string role), ("content".toList, .string content)]

/-- `_payload`. -/
def payload (text : Text) : Json :=
  if executor.config.provider = anthropic then
    .object [("model".toList, .string executor.config.model),
      ("max_tokens".toList, .int executor.config.maxTokens),
      ("system".toList, .string executor.config.systemPrompt),
      ("messages".toList, .array [payloadMessage "user".toList text])]
  else
    .object [("model".toList, .string executor.config.model),
      ("max_tokens".toList, .int executor.config.maxTokens),
      ("messages".toList, .array [payloadMessage "system".toList executor.config.systemPrompt,
        payloadMessage "user".toList text])]

end LLMExecutor

/-! ## What the document is asked -/

/-- `isinstance(block, dict) and block.get("type") == "text"`. -/
def isTextBlock : Json → Bool
  | .object members =>
    match memberOrNone members "type".toList with
    | .string s => s = "text".toList
    | _ => false
  | _ => false

/-- `block.get("text", "")`, of a dictionary. -/
def blockText : Json → Json
  | .object members => (members.lookup "text".toList).getD (.string [])
  | block => block

/-- `_extract`. -/
def extract (provider : Text) (document : Json) : Except ReadFailure Text :=
  if provider = anthropic then do
    let content ← document.get "content".toList
    let blocks ← (content.orElse (.array [])).elements
    let text ← join ((blocks.filter fun block => isTextBlock block).map blockText)
    pure (strip text)
  else do
    let found ← document.get "choices".toList
    let choices := found.orElse (.array [])
    if choices.truthy then do
      let choice ← choices.first
      let message ← choice.get "message".toList
      let content ← (message.orElse (.object [])).get "content".toList
      (content.orElse (.string [])).stripped
    else pure []

/-- `document.get("stop_reason") or (document.get("choices") or [{}])[0].get("finish_reason")`. -/
def stopReason (document : Json) : Except ReadFailure Json := do
  let reason ← document.get "stop_reason".toList
  if reason.truthy then pure reason
  else do
    let choices ← document.get "choices".toList
    let choice ← (choices.orElse (.array [.object []])).first
    choice.get "finish_reason".toList

/-- What is assigned to `last_call`. -/
def callFacts (config : LLMConfig) (status : ℤ) (document : Json) (answer : Text) :
    Except ReadFailure Json := do
  let found ← document.get "usage".toList
  let usage := found.orElse (.object [])
  let model ← document.get "model".toList
  let reason ← stopReason document
  let inputTokens ← usage.get "input_tokens".toList
  let promptTokens ← usage.get "prompt_tokens".toList
  let outputTokens ← usage.get "output_tokens".toList
  let completionTokens ← usage.get "completion_tokens".toList
  pure (.object
    [("provider".toList, .string config.provider),
      ("model".toList, model.orElse (.string config.model)),
      ("http_status".toList, .int status),
      ("stop_reason".toList, reason),
      ("response_characters".toList, .int answer.length),
      ("input_tokens".toList, inputTokens.orElse promptTokens),
      ("output_tokens".toList, outputTokens.orElse completionTokens)])

/-- `redact`, of the key. -/
def redact (text apiKey : Text) : Text :=
  if apiKey = [] then text else replaceAll apiKey secretMarker text

/-- `str(status)`. -/
def statusText (status : ℤ) : Text := (Numeral.ofInt status).text

/-- The answer and the facts. -/
def readDocument (config : LLMConfig) (status : ℤ) (document : Json) :
    Except ReadFailure (Text × Json) := do
  let answer ← extract config.provider document
  let facts ← callFacts config status document answer
  pure (answer, facts)

/-- An external status. -/
def IsExternal (status : ℤ) : Prop := 500 ≤ status ∨ status ∈ [401, 403, 429]

instance (status : ℤ) : Decidable (IsExternal status) := inferInstanceAs (Decidable (_ ∨ _))

/-- `LLMExecutor.decide`: what it returns or raises, and `last_call` afterwards. -/
def decide (json : JsonLoads) (executor : LLMExecutor) (transport : Transport) (lastCall : Json)
    (request : ExecutionRequest) : Except DecideFailure (Option Text) × Json :=
  let text := strip request.text
  if text = [] then (.ok none, lastCall)
  else
    match transport executor.endpoint executor.headers
        (executor.payload (text.take maxRequestChars)) with
    | .raised className message =>
      (.error (.provider ("provider unreachable: ".toList ++
        redact (className ++ ": ".toList ++ message) executor.apiKey) true none), lastCall)
    | .answered status body =>
      if IsExternal status then
        (.error (.provider ("provider returned ".toList ++ statusText status ++ ": ".toList ++
          (redact body executor.apiKey).take 500) true (some status)), lastCall)
      else if 400 ≤ status then
        (.error (.provider ("provider rejected the request with ".toList ++ statusText status ++
          ": ".toList ++ (redact body executor.apiKey).take 500) false (some status)), lastCall)
      else
        match json.loads body with
        | none =>
          (.error (.provider "provider returned a body that is not JSON".toList false
            (some status)), lastCall)
        | some document =>
          match readDocument executor.config status document with
          | .error failure => (.error (.escaped failure), lastCall)
          | .ok (answer, facts) =>
            if answer = [] then
              (.error (.provider "provider returned an empty response".toList false
                (some status)), facts)
            else (.ok (some answer), facts)

/-! ## Shapes -/

/-- What `content` may be. -/
def ContentShape (content : Json) : Prop :=
  content.truthy = false ∨ content.IsText ∨ content.IsObject ∨
    ∃ blocks, content = .array blocks ∧ ∀ block ∈ blocks, isTextBlock block = true →
      (blockText block).IsText

/-- The value is a list that starts with a dictionary. -/
def StartsWithObject (x : Json) : Prop := ∃ members rest, x = .array (.object members :: rest)

/-- What `message` may be. -/
def MessageShape (message : Json) : Prop :=
  message.truthy = false ∨ ∃ members, message = .object members ∧
    ((memberOrNone members "content".toList).truthy = false ∨
      (memberOrNone members "content".toList).IsText)

/-- What `choices` may be where the answer is in it. -/
def ChoicesShape (choices : Json) : Prop :=
  choices.truthy = false ∨ ∃ members rest, choices = .array (.object members :: rest) ∧
    MessageShape (memberOrNone members "message".toList)

/-- **The documents that all reads get through.** -/
structure WellShaped (provider : Text) (members : List (Text × Json)) : Prop where
  answer : if provider = anthropic then ContentShape (memberOrNone members "content".toList)
    else ChoicesShape (memberOrNone members "choices".toList)
  reason : (memberOrNone members "stop_reason".toList).truthy = true ∨
    (memberOrNone members "choices".toList).truthy = false ∨
    StartsWithObject (memberOrNone members "choices".toList)
  usage : (memberOrNone members "usage".toList).truthy = false ∨
    (memberOrNone members "usage".toList).IsObject

/-! ## Reads of a document -/

theorem orElse_of_truthy {x : Json} (h : x.truthy = true) (y : Json) : x.orElse y = x := if_pos h

theorem orElse_of_not_truthy {x : Json} (h : x.truthy = false) (y : Json) : x.orElse y = y :=
  if_neg (by rw [h]; exact Bool.false_ne_true)

theorem succeeds_get_iff {key : Text} {x : Json} : Succeeds (x.get key) ↔ x.IsObject := by
  constructor
  · rintro ⟨y, hy⟩
    obtain ⟨members, rfl, -⟩ := get_eq_ok_iff.mp hy
    exact ⟨members, rfl⟩
  · rintro ⟨members, rfl⟩
    exact ⟨_, rfl⟩

/-- A read of what may be missing. -/
theorem isObject_orElse_empty_iff {x : Json} :
    (x.orElse (.object [])).IsObject ↔ x.truthy = false ∨ x.IsObject := by
  cases h : x.truthy with
  | false =>
    rw [orElse_of_not_truthy h]
    exact iff_of_true ⟨[], rfl⟩ (.inl rfl)
  | true =>
    rw [orElse_of_truthy h, or_iff_right nofun]

/-- The text blocks of what is iterated over. -/
theorem succeeds_content_iff {content : Json} :
    Succeeds (do
      let blocks ← (content.orElse (.array [])).elements
      let text ← join ((blocks.filter fun block => isTextBlock block).map blockText)
      pure (strip text) : Except ReadFailure Text) ↔ ContentShape content := by
  have hjoin : ∀ blocks : List Json,
      Succeeds (do
        let text ← join ((blocks.filter fun block => isTextBlock block).map blockText)
        pure (strip text) : Except ReadFailure Text) ↔
      ∀ block ∈ blocks, isTextBlock block = true → (blockText block).IsText := by
    intro blocks
    refine (succeeds_bind_iff fun text => iff_true_intro (succeeds_ok _)).trans ?_
    rw [and_true, Succeeds, join, joinFrom_eq_ok_iff]
    simp only [List.forall_mem_map, List.mem_filter, and_imp]
  -- characters and keys are no text blocks
  have hstrings : ∀ {α : Type} (f : α → Text) (l : List α),
      ∀ block ∈ l.map fun a => Json.string (f a), isTextBlock block = true →
        (blockText block).IsText := by
    intro α f l block hblock htext
    obtain ⟨a, -, rfl⟩ := List.mem_map.mp hblock
    cases htext
  cases htruthy : content.truthy with
  | false =>
    rw [orElse_of_not_truthy htruthy]
    exact iff_of_true ((hjoin []).mpr fun _ h => absurd h List.not_mem_nil) (.inl htruthy)
  | true =>
    rw [orElse_of_truthy htruthy]
    unfold ContentShape
    rw [htruthy, or_iff_right (by decide)]
    cases content with
    | string s =>
      exact iff_of_true ((hjoin _).mpr (hstrings (fun c => [c]) s)) (.inl ⟨s, rfl⟩)
    | object members =>
      exact iff_of_true ((hjoin _).mpr (hstrings Prod.fst members)) (.inr (.inl ⟨members, rfl⟩))
    | array items =>
      refine (hjoin items).trans ⟨fun h => .inr (.inr ⟨items, rfl, h⟩), ?_⟩
      rintro (⟨_, h⟩ | ⟨_, h⟩ | ⟨items', h, hall⟩)
      · cases h
      · cases h
      · obtain rfl := Json.array.inj h
        exact hall
    | word | int | float =>
      refine iff_of_false (not_succeeds_error _) ?_
      rintro (⟨_, h⟩ | ⟨_, h⟩ | ⟨_, h, -⟩) <;> cases h

/-- The first item, read as a dictionary. -/
theorem succeeds_first_get_iff {α : Type} {x : Json} {f : Json → Except ReadFailure α}
    (hf : ∀ y, Succeeds (f y) → y.IsObject) :
    Succeeds (x.first >>= f) ↔ ∃ members rest, x = .array (.object members :: rest) ∧
      Succeeds (f (.object members)) := by
  constructor
  · intro h
    cases x with
    | array items =>
      cases items with
      | nil => exact absurd h (not_succeeds_error _)
      | cons y rest =>
        obtain ⟨members, rfl⟩ := hf y h
        exact ⟨members, rest, rfl, h⟩
    | string s =>
      cases s with
      | nil => exact absurd h (not_succeeds_error _)
      | cons c s =>
        obtain ⟨members, hmembers⟩ := hf _ h
        cases hmembers
    | _ => exact absurd h (not_succeeds_error _)
  · rintro ⟨members, rest, rfl, h⟩
    exact h

theorem isObject_of_succeeds_get_bind {α : Type} {key : Text} {f : Json → Except ReadFailure α}
    {y : Json} (h : Succeeds (y.get key >>= f)) : y.IsObject := by
  obtain ⟨a, ha⟩ := h
  obtain ⟨z, hz, -⟩ := Fallible.exists_of_bind ha
  exact succeeds_get_iff.mp ⟨z, hz⟩

theorem succeeds_message_iff {message : Json} :
    Succeeds (do
      let content ← (message.orElse (.object [])).get "content".toList
      (content.orElse (.string [])).stripped) ↔ MessageShape message := by
  have hcontent : ∀ content : Json, Succeeds ((content.orElse (.string [])).stripped) ↔
      content.truthy = false ∨ content.IsText := by
    intro content
    unfold Succeeds
    rw [stripped_eq_ok_iff]
    cases h : content.truthy with
    | false =>
      rw [orElse_of_not_truthy h]
      exact iff_of_true ⟨[], rfl⟩ (.inl rfl)
    | true => rw [orElse_of_truthy h, or_iff_right nofun]
  unfold MessageShape
  cases h : message.truthy with
  | false =>
    rw [orElse_of_not_truthy h]
    exact iff_of_true ((hcontent (.word .null)).mpr (.inl rfl)) (.inl rfl)
  | true =>
    rw [orElse_of_truthy h, or_iff_right nofun]
    constructor
    · intro hsucceeds
      obtain ⟨members, rfl⟩ := isObject_of_succeeds_get_bind hsucceeds
      exact ⟨members, rfl, (hcontent _).mp hsucceeds⟩
    · rintro ⟨members, rfl, hshape⟩
      exact (hcontent _).mpr hshape

theorem succeeds_extract_iff {provider : Text} {members : List (Text × Json)} :
    Succeeds (extract provider (.object members)) ↔
      if provider = anthropic then ContentShape (memberOrNone members "content".toList)
      else ChoicesShape (memberOrNone members "choices".toList) := by
  unfold extract
  split_ifs
  · exact succeeds_content_iff
  · refine (succeeds_bind_ok rfl).trans ?_
    dsimp only
    unfold ChoicesShape
    cases h : (memberOrNone members "choices".toList).truthy with
    | false =>
      rw [orElse_of_not_truthy h]
      exact iff_of_true ⟨[], rfl⟩ (.inl rfl)
    | true =>
      rw [orElse_of_truthy h, h, if_pos rfl, or_iff_right nofun,
        succeeds_first_get_iff fun y hy => isObject_of_succeeds_get_bind hy]
      refine exists_congr fun first => exists_congr fun rest => and_congr_right fun _ => ?_
      exact (succeeds_bind_ok rfl).trans succeeds_message_iff

theorem succeeds_stopReason_iff {members : List (Text × Json)} :
    Succeeds (stopReason (.object members)) ↔
      (memberOrNone members "stop_reason".toList).truthy = true ∨
      (memberOrNone members "choices".toList).truthy = false ∨
      StartsWithObject (memberOrNone members "choices".toList) := by
  unfold stopReason
  refine (succeeds_bind_ok rfl).trans ?_
  cases hreason : (memberOrNone members "stop_reason".toList).truthy with
  | true => exact iff_of_true ⟨_, rfl⟩ (.inl rfl)
  | false =>
    rw [if_neg (by decide), or_iff_right (by decide)]
    refine (succeeds_bind_ok rfl).trans ?_
    rw [succeeds_first_get_iff fun y hy => succeeds_get_iff.mp hy]
    cases hchoices : (memberOrNone members "choices".toList).truthy with
    | false =>
      rw [orElse_of_not_truthy hchoices]
      exact iff_of_true ⟨[], [], rfl, _, rfl⟩ (.inl rfl)
    | true =>
      rw [orElse_of_truthy hchoices, or_iff_right nofun]
      constructor
      · rintro ⟨first, rest, h, -⟩
        exact ⟨first, rest, h⟩
      · rintro ⟨first, rest, h⟩
        exact ⟨first, rest, h, _, rfl⟩

theorem succeeds_callFacts_iff {config : LLMConfig} {status : ℤ} {members : List (Text × Json)}
    {answer : Text} :
    Succeeds (callFacts config status (.object members) answer) ↔
      Succeeds (stopReason (.object members)) ∧
        ((memberOrNone members "usage".toList).truthy = false ∨
          (memberOrNone members "usage".toList).IsObject) := by
  unfold callFacts
  refine (succeeds_bind_ok rfl).trans ((succeeds_bind_ok rfl).trans ?_)
  rw [← isObject_orElse_empty_iff]
  refine succeeds_bind_iff fun reason => ?_
  constructor
  · exact isObject_of_succeeds_get_bind
  · rintro ⟨usage, husage⟩
    rw [husage]
    exact ⟨_, rfl⟩

/-- **The reads get through exactly the documents of the right shape.** -/
theorem succeeds_readDocument_iff {config : LLMConfig} {status : ℤ} {document : Json} :
    Succeeds (readDocument config status document) ↔
      ∃ members, document = .object members ∧ WellShaped config.provider members := by
  have hobject : Succeeds (readDocument config status document) → document.IsObject := by
    rintro ⟨result, h⟩
    obtain ⟨answer, -, h⟩ := Fallible.exists_of_bind h
    obtain ⟨facts, hfacts, -⟩ := Fallible.exists_of_bind h
    exact isObject_of_succeeds_get_bind ⟨facts, hfacts⟩
  have hread : ∀ members, Succeeds (readDocument config status (.object members)) ↔
      WellShaped config.provider members := by
    intro members
    have hfacts : ∀ answer, Succeeds (do
        let facts ← callFacts config status (.object members) answer
        pure (answer, facts) : Except ReadFailure (Text × Json)) ↔
        Succeeds (stopReason (.object members)) ∧
          ((memberOrNone members "usage".toList).truthy = false ∨
            (memberOrNone members "usage".toList).IsObject) := by
      intro answer
      refine (succeeds_bind_iff fun facts => iff_true_intro (succeeds_ok _)).trans ?_
      rw [and_true, succeeds_callFacts_iff]
    refine (succeeds_bind_iff hfacts).trans ?_
    rw [succeeds_extract_iff, succeeds_stopReason_iff]
    exact ⟨fun h => ⟨h.1, h.2.1, h.2.2⟩, fun h => ⟨h.answer, h.reason, h.usage⟩⟩
  constructor
  · intro h
    obtain ⟨members, rfl⟩ := hobject h
    exact ⟨members, rfl, (hread members).mp h⟩
  · rintro ⟨members, rfl, h⟩
    exact (hread members).mpr h

/-! ## Classification -/

/-- The transport of a call raised, or the status is an external one. -/
def FailedOutside : TransportResult → Prop
  | .raised _ _ => True
  | .answered status _ => IsExternal status

/-- What `decide` owes to a call: silence for a blank text, and otherwise an answer or a
classified failure. -/
def Classified (text : Text) (outcome : TransportResult) :
    Except DecideFailure (Option Text) → Prop
  | .ok none => strip text = []
  | .ok (some answer) => strip text ≠ [] ∧ answer ≠ []
  | .error (.provider _ external _) => strip text ≠ [] ∧ (external = true ↔ FailedOutside outcome)
  | .error (.escaped _) => False

/-- What the transport does with the request. -/
def outcome (executor : LLMExecutor) (transport : Transport) (request : ExecutionRequest) :
    TransportResult :=
  transport executor.endpoint executor.headers
    (executor.payload ((strip request.text).take maxRequestChars))

/-- The answers that are read without an error. -/
def Readable (json : JsonLoads) (provider : Text) : TransportResult → Prop
  | .raised _ _ => True
  | .answered status body =>
    400 ≤ status ∨ ∀ document, json.loads body = some document →
      ∃ members, document = .object members ∧ WellShaped provider members

/-- `json.loads` where no string has half a pair; elsewhere it fails. -/
def textLoads : JsonLoads where
  loads t := (Json.loads t).toOption
  reads t document h := by rw [h]; rfl
  refuses t h := by rcases h with h | h <;> rw [h] <;> rfl

/-- An executor of the first provider. -/
def exampleExecutor : LLMExecutor :=
  ⟨⟨anthropic, "model-1".toList, "https://provider.invalid".toList, 512, "Answer.".toList⟩,
    "Z0".toList⟩

end Provider
end FederatedMessaging
