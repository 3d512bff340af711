import FederatedMessaging.Executors.Provider
import FederatedMessaging.Foundations.JsonZones

/-!
# Where the key of the provider can come out

The key goes to the provider with every call, and a provider may repeat it wherever it likes.
The error texts of `fam.executors.llm` pass through `redact`, which puts `<redacted>` for every
occurrence, and cutting the result short adds none.  So no error message has the key, whatever
the provider says in it and wherever it is cut.

## What is not redacted

The fields that `decide` copies into `last_call` are not redacted: the model, the reason for
stopping and the two counts are the provider's own values, of any type.  The runtime writes
them into its telemetry.  `EchoFree` says of one exchange that they do not have the key, and
`keyHidden_iff` that this is all there is: over any number of calls of one executor, the key
stays out of errors, `last_call` and telemetry if and only if every exchange is free of echoes.

The exceptions that leave `decide` have texts of the interpreter, and the name of a type in
them.  A key that occurs in these is counted to the echoes.
-/

namespace FederatedMessaging
namespace Provider

open PythonText Json DynamicValues
open FederatedMessaging.Agent (ExecutionRequest)

/-! ## Failures and telemetry -/

namespace DecideFailure

/-- `type(exc).__name__`. -/
def className : DecideFailure → Text
  | .provider _ _ _ => "LLMProviderError".toList
  | .escaped failure => failure.className

/-- `str(exc)`. -/
def message : DecideFailure → Text
  | .provider message _ _ => message
  | .escaped failure => failure.message

/-- `bool(getattr(exc, "external", False))`. -/
def external : DecideFailure → Bool
  | .provider _ external _ => external
  | .escaped _ => false

/-- `getattr(exc, "status", None)`. -/
def status : DecideFailure → Json
  | .provider _ _ (some status) => .int status
  | _ => .word .null

end DecideFailure

/-- The name of an executor. -/
def name : Text := "llm".toList

/-- What `AgentRuntime._record` gets of an execution. -/
structure ExecutionRecord where
  note : Text
  execution : Json

/-- `members[key] = value`. -/
def setMember (members : List (Text × Json)) (key : Text) (value : Json) : List (Text × Json) :=
  if key ∈ members.map Prod.fst then OrderedDict.replace key value members
  else members ++ [(key, value)]

/-- `execution`, made of `last_call`. -/
def executionOf : Json → Json
  | .object [] => .word .null
  | .object members => .object (setMember members "executor".toList (.string name))
  | lastCall => lastCall

/-- `AgentRuntime._handle`: what is recorded of the executor's result. -/
def executionRecord (result : Except DecideFailure (Option Text)) (lastCall : Json) :
    ExecutionRecord :=
  match result with
  | .error failure =>
    ⟨failure.className ++ ": ".toList ++ failure.message,
      .object [("executor".toList, .string name), ("failed".toList, .word .true),
        ("external_dependency_failure".toList, .word (if failure.external then .true else .false)),
        ("status".toList, failure.status)]⟩
  | .ok _ => ⟨[], executionOf lastCall⟩

/-- One request and the transport at that time. -/
structure Exchange where
  request : ExecutionRequest
  transport : Transport

/-- Calls of one executor, one after the other: what each returns or raises, and `last_call`
after it. -/
def calls (json : JsonLoads) (executor : LLMExecutor) :
    Json → List Exchange → List (Except DecideFailure (Option Text) × Json)
  | _, [] => []
  | lastCall, exchange :: rest =>
    let after := decide json executor exchange.transport lastCall exchange.request
    after :: calls json executor after.2 rest

/-! ## Keys -/

/-- The texts that the program itself puts into messages and telemetry. -/
def fixedTexts : List Text :=
  ["provider unreachable:".toList, "provider returned a body that is not JSON".toList,
    "provider returned an empty response".toList, "<redacted>".toList, "LLMProviderError:".toList,
    "provider".toList, "model".toList, "http_status".toList, "stop_reason".toList,
    "response_characters".toList, "input_tokens".toList, "output_tokens".toList,
    "executor".toList, "llm".toList, "failed".toList, "external_dependency_failure".toList,
    "status".toList]

/-- The texts with a status. -/
def statusTexts (status : ℤ) : List Text :=
  ["provider returned ".toList ++ statusText status ++ [':'],
    "provider rejected the request with ".toList ++ statusText status ++ [':']]

/-- **A key that has nothing to do with the program's own texts.** -/
structure Unrelated (config : LLMConfig) (key : Text) : Prop where
  ne_nil : key ≠ []
  no_blank : ∀ c ∈ key, isSpace c = false
  no_opening : '<' ∉ key
  no_closing : '>' ∉ key
  config : ∀ t ∈ [config.provider, config.model, config.baseUrl, config.systemPrompt],
    ¬ key <:+: t
  fixed : ∀ t ∈ fixedTexts, ¬ key <:+: t
  statuses : ∀ status, ∀ t ∈ statusTexts status, ¬ key <:+: t

/-- The key occurs in no string of the value. -/
def Free (key : Text) (x : Json) : Prop := ∀ s ∈ x.strings, ¬ key <:+: s

/-- **The key is in nothing that a call leaves behind.** -/
structure KeyHidden (key : Text) (result : Except DecideFailure (Option Text)) (lastCall : Json) :
    Prop where
  message : ∀ failure, result = .error failure → ¬ key <:+: failure.message
  facts : Free key lastCall
  note : ¬ key <:+: (executionRecord result lastCall).note
  execution : Free key (executionRecord result lastCall).execution

/-- The key is not in the first of two members, nor in the second where that one counts. -/
def EitherFree (key : Text) (members : List (Text × Json)) (first second : Text) : Prop :=
  Free key (memberOrNone members first) ∧
    ((memberOrNone members first).truthy = false → Free key (memberOrNone members second))

/-- **The fields of a document that are copied do not have the key.** -/
structure NoEcho (key : Text) (members : List (Text × Json)) : Prop where
  model : Free key (memberOrNone members "model".toList)
  stopReason : Free key (memberOrNone members "stop_reason".toList)
  finishReason : (memberOrNone members "stop_reason".toList).truthy = false →
    ∀ choice rest, memberOrNone members "choices".toList = .array (.object choice :: rest) →
      Free key (memberOrNone choice "finish_reason".toList)
  usage : ∀ usage, memberOrNone members "usage".toList = .object usage →
    EitherFree key usage "input_tokens".toList "prompt_tokens".toList ∧
    EitherFree key usage "output_tokens".toList "completion_tokens".toList

/-- No echo in a document, nor in what is raised where it cannot be read. -/
def DocumentFree (config : LLMConfig) (key : Text) (status : ℤ) (document : Json) : Prop :=
  match readDocument config status document with
  | .ok _ => ∀ members, document = .object members → NoEcho key members
  | .error failure => ¬ key <:+: failure.className ++ ": ".toList ++ failure.message

/-- **The exchange is free of echoes that are not redacted.** -/
def EchoFree (json : JsonLoads) (executor : LLMExecutor) (exchange : Exchange) : Prop :=
  strip exchange.request.text = [] ∨
    match outcome executor exchange.transport exchange.request with
    | .raised _ _ => True
    | .answered status body =>
      400 ≤ status ∨ ∀ document, json.loads body = some document →
        DocumentFree executor.config executor.apiKey status document

/-! ## Strings of a value -/

theorem free_word (key : Text) (w : Word) : Free key (.word w) := by
  intro s h
  simp [strings, nodes, ownStrings] at h

theorem free_int (key : Text) (n : ℤ) : Free key (.int n) := by
  intro s h
  simp [strings, nodes, ownStrings] at h

theorem free_string_iff {key t : Text} : Free key (.string t) ↔ ¬ key <:+: t := by
  simp [Free, strings, nodes, ownStrings]

theorem free_object_iff {key : Text} {members : List (Text × Json)} :
    Free key (.object members) ↔ ∀ m ∈ members, ¬ key <:+: m.1 ∧ Free key m.2 := by
  unfold Free
  constructor
  · intro h m hm
    exact ⟨h _ (mem_strings_object.mpr (.inl (List.mem_map_of_mem hm))),
      fun s hs => h s (mem_strings_object.mpr (.inr ⟨m, hm, hs⟩))⟩
  · intro h s hs
    rcases mem_strings_object.mp hs with hs | ⟨m, hm, hs⟩
    · obtain ⟨m, hm, rfl⟩ := List.mem_map.mp hs
      exact (h m hm).1
    · exact (h m hm).2 s hs

/-- What is false has at most an empty string. -/
theorem free_of_not_truthy {key : Text} (hne : key ≠ []) {x : Json} (h : x.truthy = false) :
    Free key x := by
  cases x with
  | word w => exact free_word key w
  | int n => exact free_int key n
  | float numeral =>
    intro s hs
    simp [strings, nodes, ownStrings] at hs
  | string t =>
    obtain rfl : t = [] := by simpa [truthy] using h
    exact free_string_iff.mpr fun hinside => hne (List.infix_nil.mp hinside)
  | array items =>
    obtain rfl : items = [] := by simpa [truthy] using h
    intro s hs
    simp [strings, nodes, nodesOfItems, ownStrings] at hs
  | object members =>
    obtain rfl : members = [] := by simpa [truthy] using h
    exact free_object_iff.mpr fun m hm => absurd hm List.not_mem_nil

theorem free_orElse_iff {key : Text} (hne : key ≠ []) {x y : Json} :
    Free key (x.orElse y) ↔ Free key x ∧ (x.truthy = false → Free key y) := by
  cases h : x.truthy with
  | true =>
    rw [orElse_of_truthy h]
    exact ⟨fun hx => ⟨hx, nofun⟩, fun hx => hx.1⟩
  | false =>
    rw [orElse_of_not_truthy h]
    exact ⟨fun hy => ⟨free_of_not_truthy hne h, fun _ => hy⟩, fun hy => hy.2 rfl⟩

theorem free_setMember {key k t : Text} {members : List (Text × Json)}
    (h : Free key (.object members)) (hk : ¬ key <:+: k) (ht : ¬ key <:+: t) :
    Free key (.object (setMember members k (.string t))) := by
  rw [free_object_iff] at h ⊢
  have hnew : ¬ key <:+: (k, Json.string t).1 ∧ Free key (k, Json.string t).2 :=
    ⟨hk, free_string_iff.mpr ht⟩
  unfold setMember
  split_ifs
  · intro m hm
    obtain ⟨m', hm', rfl⟩ := List.mem_map.mp hm
    split_ifs
    · exact hnew
    · exact h m' hm'
  · intro m hm
    rcases List.mem_append.mp hm with hm | hm
    · exact h m hm
    · rw [List.mem_singleton.mp hm]
      exact hnew

/-! ## Messages and records -/

namespace Unrelated

variable {config : LLMConfig} {key : Text}

/-- A fixed text, a blank and a text without the key. -/
theorem not_infix_append (h : Unrelated config key) {t rest : Text} (ht : ¬ key <:+: t)
    (hrest : ¬ key <:+: rest) : ¬ key <:+: t ++ ' ' :: rest := by
  intro hinside
  refine (infix_append_cons (fun hmem => ?_) hinside).elim ht hrest
  have hblank := h.no_blank _ hmem
  revert hblank
  decide

/-- **What is redacted does not have the key**, also where it is cut. -/
theorem not_infix_redact (h : Unrelated config key) (t : Text) : ¬ key <:+: redact t key := by
  have hmarker : secretMarker = '<' :: ("redacted".toList ++ ['>']) := by decide
  rw [redact, if_neg h.ne_nil, hmarker]
  refine not_infix_replaceAll h.ne_nil h.no_opening h.no_closing (fun hinside => ?_) t
  exact h.fixed "<redacted>".toList (by decide) (hinside.trans ⟨['<'], ['>'], by decide⟩)

theorem not_infix_take_redact (h : Unrelated config key) (t : Text) (n : ℕ) :
    ¬ key <:+: (redact t key).take n :=
  fun hinside => h.not_infix_redact t (hinside.trans (List.take_prefix n _).isInfix)

/-- A classified failure whose message does not have the key. -/
theorem keyHidden_provider (h : Unrelated config key) {lastCall : Json} (hlast : Free key lastCall)
    {message : Text} (hmessage : ¬ key <:+: message) (external : Bool) (status : Option ℤ) :
    KeyHidden key (.error (.provider message external status)) lastCall where
  message failure hfailure := by
    obtain rfl := Except.error.inj hfailure
    exact hmessage
  facts := hlast
  note := h.not_infix_append (h.fixed "LLMProviderError:".toList (by decide)) hmessage
  execution := by
    refine free_object_iff.mpr ?_
    simp only [List.forall_mem_cons, List.not_mem_nil, false_implies, implies_true, and_true]
    refine ⟨⟨h.fixed _ (by decide), free_string_iff.mpr (h.fixed _ (by decide))⟩,
      ⟨h.fixed _ (by decide), free_word key _⟩, ⟨h.fixed _ (by decide), free_word key _⟩,
      h.fixed _ (by decide), ?_⟩
    cases status with
    | none => exact free_word key _
    | some status => exact free_int key _

/-- Where an exception leaves `decide`, its text decides. -/
theorem keyHidden_escaped_iff (h : Unrelated config key) {lastCall : Json}
    (hlast : Free key lastCall) {failure : ReadFailure} :
    KeyHidden key (.error (.escaped failure)) lastCall ↔
      ¬ key <:+: failure.className ++ ": ".toList ++ failure.message := by
  constructor
  · exact fun hidden => hidden.note
  · intro hnote
    have hmessage : ¬ key <:+: failure.message :=
      fun hinside => hnote (hinside.trans (List.suffix_append _ _).isInfix)
    refine ⟨fun failure' hfailure => ?_, hlast, hnote,
      (h.keyHidden_provider hlast hmessage false none).execution⟩
    obtain rfl := Except.error.inj hfailure
    exact hmessage

/-- Where `decide` returns, `last_call` decides. -/
theorem keyHidden_ok_iff (h : Unrelated config key) {lastCall : Json} {answer : Option Text} :
    KeyHidden key (.ok answer) lastCall ↔ Free key lastCall := by
  refine ⟨KeyHidden.facts, fun hlast => ⟨nofun, hlast, fun hinside =>
    h.ne_nil (List.infix_nil.mp hinside), ?_⟩⟩
  dsimp only [executionRecord]
  unfold executionOf
  split
  · exact free_word key _
  · exact free_setMember hlast (h.fixed _ (by decide)) (h.fixed _ (by decide))
  · exact hlast

end Unrelated

/-! ## The facts of a call -/

/-- The reason for stopping, which may be the one of the first choice. -/
theorem free_stopReason_iff {key : Text} (hne : key ≠ []) {members : List (Text × Json)}
    {reason : Json} (h : stopReason (.object members) = .ok reason) :
    Free key reason ↔ Free key (memberOrNone members "stop_reason".toList) ∧
      ((memberOrNone members "stop_reason".toList).truthy = false →
        ∀ choice rest, memberOrNone members "choices".toList = .array (.object choice :: rest) →
          Free key (memberOrNone choice "finish_reason".toList)) := by
  change (if (memberOrNone members "stop_reason".toList).truthy = true then
      pure (memberOrNone members "stop_reason".toList)
    else do
      let choice ← ((memberOrNone members "choices".toList).orElse (.array [.object []])).first
      choice.get "finish_reason".toList) = Except.ok reason at h
  cases hreason : (memberOrNone members "stop_reason".toList).truthy with
  | true =>
    rw [if_pos hreason] at h
    obtain rfl := Except.ok.inj h
    exact ⟨fun hfree => ⟨hfree, nofun⟩, fun hfree => hfree.1⟩
  | false =>
    rw [if_neg (by rw [hreason]; exact Bool.false_ne_true)] at h
    have hfirst := iff_true_intro (free_of_not_truthy hne hreason)
    rw [hfirst, true_and, forall_prop_of_true rfl]
    cases hchoices : (memberOrNone members "choices".toList).truthy with
    | false =>
      rw [orElse_of_not_truthy hchoices] at h
      obtain rfl := Except.ok.inj h
      refine iff_of_true (free_word key _) fun choice rest heq => ?_
      rw [heq] at hchoices
      cases hchoices
    | true =>
      rw [orElse_of_truthy hchoices] at h
      obtain ⟨choice, rest, heq, -⟩ :=
        (succeeds_first_get_iff fun y hy => succeeds_get_iff.mp hy).mp ⟨reason, h⟩
      rw [heq] at h ⊢
      obtain rfl := Except.ok.inj h
      constructor
      · intro hfree choice' rest' heq'
        obtain rfl := Json.object.inj (List.cons.inj (Json.array.inj heq')).1
        exact hfree
      · exact fun hfree => hfree choice rest rfl

/-- The counts, of a dictionary that may be missing. -/
theorem forall_usage_iff {key : Text} {found : Json}
    {usage : List (Text × Json)} (h : found.orElse (.object []) = .object usage)
    (first second : Text) :
    (∀ usage', found = .object usage' → EitherFree key usage' first second) ↔
      EitherFree key usage first second := by
  cases hfound : found.truthy with
  | true =>
    rw [orElse_of_truthy hfound] at h
    rw [h]
    exact ⟨fun hall => hall usage rfl, fun hone usage' heq => Json.object.inj heq ▸ hone⟩
  | false =>
    rw [orElse_of_not_truthy hfound] at h
    obtain rfl := Json.object.inj h
    have hempty : EitherFree key [] first second := ⟨free_word key _, fun _ => free_word key _⟩
    refine iff_of_true (fun usage' heq => ?_) hempty
    rw [heq] at hfound
    obtain rfl : usage' = [] := by simpa [truthy] using hfound
    exact hempty

/-- **What is kept of a call has the key exactly when a copied field has it.** -/
theorem free_callFacts_iff {config : LLMConfig} {key : Text} (h : Unrelated config key)
    {status : ℤ} {members : List (Text × Json)} {answer : Text} {facts : Json}
    (hfacts : callFacts config status (.object members) answer = .ok facts) :
    Free key facts ↔ NoEcho key members := by
  obtain ⟨found, hfound, hfacts⟩ := Fallible.exists_of_bind hfacts
  obtain rfl := Except.ok.inj hfound
  obtain ⟨model, hmodel, hfacts⟩ := Fallible.exists_of_bind hfacts
  obtain rfl := Except.ok.inj hmodel
  obtain ⟨reason, hreason, hfacts⟩ := Fallible.exists_of_bind hfacts
  obtain ⟨usage, husage⟩ := isObject_of_succeeds_get_bind ⟨facts, hfacts⟩
  rw [husage] at hfacts
  obtain rfl := Except.ok.inj hfacts
  have hmodel : Free key ((memberOrNone members "model".toList).orElse (.string config.model)) ↔
      Free key (memberOrNone members "model".toList) := by
    rw [free_orElse_iff h.ne_nil, and_iff_left]
    exact fun _ => free_string_iff.mpr (h.config _ (by simp))
  have husages := @forall_usage_iff key _ _ husage
  rw [free_object_iff]
  simp only [List.forall_mem_cons, List.not_mem_nil, false_implies, implies_true, and_true]
  rw [hmodel, free_stopReason_iff h.ne_nil hreason, free_orElse_iff h.ne_nil,
    free_orElse_iff h.ne_nil]
  constructor
  · rintro ⟨-, ⟨-, hmodel⟩, -, ⟨-, hstop, hfinish⟩, -, ⟨-, hinput⟩, -, houtput⟩
    exact ⟨hmodel, hstop, hfinish, fun usage' heq =>
      ⟨(husages _ _).mpr hinput usage' heq, (husages _ _).mpr houtput usage' heq⟩⟩
  · intro hecho
    have hfixed : ∀ t ∈ fixedTexts, ¬ key <:+: t := h.fixed
    refine ⟨⟨hfixed _ (by decide), free_string_iff.mpr (h.config _ (by simp))⟩,
      ⟨hfixed _ (by decide), hecho.model⟩, ⟨hfixed _ (by decide), free_int key _⟩,
      ⟨hfixed _ (by decide), hecho.stopReason, hecho.finishReason⟩,
      ⟨hfixed _ (by decide), free_int key _⟩, ⟨hfixed _ (by decide), ?_⟩, hfixed _ (by decide), ?_⟩
    · exact (husages _ _).mp fun usage' heq => (hecho.usage usage' heq).1
    · exact (husages _ _).mp fun usage' heq => (hecho.usage usage' heq).2

/-! ## Calls -/

/-- **One call** hides the key if and only if its exchange is free of echoes. -/
theorem keyHidden_decide_iff (json : JsonLoads) {executor : LLMExecutor}
    (h : Unrelated executor.config executor.apiKey) {lastCall : Json}
    (hlast : Free executor.apiKey lastCall) (exchange : Exchange) :
    KeyHidden executor.apiKey
        (decide json executor exchange.transport lastCall exchange.request).1
        (decide json executor exchange.transport lastCall exchange.request).2 ↔
      EchoFree json executor exchange := by
  unfold decide EchoFree
  by_cases hblank : strip exchange.request.text = []
  · rw [if_pos hblank]
    exact iff_of_true (h.keyHidden_ok_iff.mpr hlast) (.inl hblank)
  rw [if_neg hblank, or_iff_right hblank]
  change KeyHidden _ (Prod.fst (match outcome executor exchange.transport exchange.request with
      | .raised className message => _
      | .answered status body => _)) (Prod.snd (match
        outcome executor exchange.transport exchange.request with
      | .raised className message => _
      | .answered status body => _)) ↔ _
  cases outcome executor exchange.transport exchange.request with
  | raised className message =>
    refine iff_of_true (h.keyHidden_provider hlast ?_ _ _) trivial
    exact h.not_infix_append (h.fixed "provider unreachable:".toList (by decide))
      (h.not_infix_redact _)
  | answered status body =>
    have hstatus : ∀ before : Text, before ++ statusText status ++ [':'] ∈ statusTexts status →
        ¬ executor.apiKey <:+: before ++ statusText status ++ ": ".toList ++
          (redact body executor.apiKey).take 500 := by
      intro before hbefore
      have heq : before ++ statusText status ++ ": ".toList ++
          (redact body executor.apiKey).take 500 =
          (before ++ statusText status ++ [':']) ++ ' ' ::
            (redact body executor.apiKey).take 500 := by
        have hcolon : ": ".toList = [':', ' '] := by decide
        simp [hcolon]
      rw [heq]
      exact h.not_infix_append (h.statuses status _ hbefore) (h.not_infix_take_redact _ _)
    dsimp only
    by_cases hexternal : IsExternal status
    · rw [if_pos hexternal]
      refine iff_of_true (h.keyHidden_provider hlast (hstatus _ (by simp [statusTexts])) _ _)
        (.inl ?_)
      rcases hexternal with hexternal | hexternal
      · omega
      · simp only [List.mem_cons, List.not_mem_nil, or_false] at hexternal
        omega
    rw [if_neg hexternal]
    by_cases hrejected : 400 ≤ status
    · rw [if_pos hrejected]
      exact iff_of_true (h.keyHidden_provider hlast (hstatus _ (by simp [statusTexts])) _ _)
        (.inl hrejected)
    rw [if_neg hrejected, or_iff_right hrejected]
    cases json.loads body with
    | none =>
      exact iff_of_true (h.keyHidden_provider hlast (h.fixed _ (by decide)) _ _) nofun
    | some document =>
      have hone : (∀ document', some document = some document' →
          DocumentFree executor.config executor.apiKey status document') ↔
          DocumentFree executor.config executor.apiKey status document :=
        ⟨fun hall => hall document rfl, fun h _ heq => Option.some_inj.mp heq ▸ h⟩
      rw [hone]
      unfold DocumentFree
      dsimp only
      cases hread : readDocument executor.config status document with
      | error failure => exact h.keyHidden_escaped_iff hlast
      | ok found =>
        obtain ⟨answer, facts⟩ := found
        obtain ⟨members, rfl, -⟩ := succeeds_readDocument_iff.mp ⟨_, hread⟩
        obtain ⟨answer', -, hrest⟩ := Fallible.exists_of_bind hread
        obtain ⟨facts', hfacts, heq⟩ := Fallible.exists_of_bind hrest
        obtain ⟨rfl, rfl⟩ := Prod.mk.inj (Except.ok.inj heq)
        have hecho : Free executor.apiKey facts' ↔
            ∀ members', Json.object members = .object members' →
              NoEcho executor.apiKey members' := by
          rw [free_callFacts_iff h hfacts]
          exact ⟨fun h _ heq => Json.object.inj heq ▸ h, fun hall => hall members rfl⟩
        dsimp only
        rw [← hecho]
        split_ifs
        · exact ⟨KeyHidden.facts,
            fun hfree => h.keyHidden_provider hfree (h.fixed _ (by decide)) _ _⟩
        · exact h.keyHidden_ok_iff

/-- **Any number of calls of one executor keep the key out of errors, of `last_call` and of the
telemetry if and only if every exchange is free of echoes.** -/
theorem keyHidden_iff (json : JsonLoads) (executor : LLMExecutor)
    (h : Unrelated executor.config executor.apiKey) (exchanges : List Exchange) :
    (∀ after ∈ calls json executor (.object []) exchanges,
        KeyHidden executor.apiKey after.1 after.2) ↔
      ∀ exchange ∈ exchanges, EchoFree json executor exchange := by
  have hempty : Free executor.apiKey (.object []) :=
    free_object_iff.mpr fun m hm => absurd hm List.not_mem_nil
  generalize Json.object [] = lastCall at hempty ⊢
  induction exchanges generalizing lastCall with
  | nil =>
    exact iff_of_true (fun _ h => absurd h List.not_mem_nil) fun _ h => absurd h List.not_mem_nil
  | cons exchange exchanges ih =>
    rw [calls, List.forall_mem_cons, List.forall_mem_cons,
      keyHidden_decide_iff json h hempty exchange]
    refine and_congr_right fun hfree => ih _ ?_
    exact ((keyHidden_decide_iff json h hempty exchange).mpr hfree).facts

/-! ## Documents without the key -/

theorem free_memberOrNone {key : Text} {members : List (Text × Json)}
    (h : Free key (.object members)) (k : Text) : Free key (memberOrNone members k) := by
  unfold memberOrNone
  cases hlookup : members.lookup k with
  | none => exact free_word key _
  | some x =>
    obtain ⟨front, back, rfl, -⟩ := List.lookup_eq_some_iff.mp hlookup
    exact (free_object_iff.mp h (k, x) (List.mem_append_right _ List.mem_cons_self)).2

theorem free_of_mem_array {key : Text} {items : List Json} (h : Free key (.array items)) {x : Json}
    (hx : x ∈ items) : Free key x := by
  intro s hs
  refine h s ?_
  rw [strings_array]
  exact List.mem_flatMap_of_mem hx hs

/-- A document that is read and does not have the key has no echo. -/
theorem documentFree_of_free {config : LLMConfig} {key : Text} {status : ℤ} {document : Json}
    (hread : Succeeds (readDocument config status document)) (h : Free key document) :
    DocumentFree config key status document := by
  obtain ⟨found, hfound⟩ := hread
  unfold DocumentFree
  rw [hfound]
  rintro members rfl
  have hmember := free_memberOrNone h
  refine ⟨hmember _, hmember _, fun _ choice rest heq => ?_, fun usage heq => ?_⟩
  · have hchoices := hmember "choices".toList
    rw [heq] at hchoices
    exact free_memberOrNone (free_of_mem_array hchoices List.mem_cons_self) _
  · have husage := hmember "usage".toList
    rw [heq] at husage
    have hcount := free_memberOrNone husage
    exact ⟨⟨hcount _, fun _ => hcount _⟩, ⟨hcount _, fun _ => hcount _⟩⟩

/-! ## Calls with a key that no text has -/

theorem notMem_statusText (status : ℤ) : 'Z' ∉ statusText status := by
  intro h
  have hdigits : 'Z' ∉ Nat.toDigits 10 status.natAbs := fun hmem =>
    absurd (isDigit_of_mem_toDigits hmem) (by decide)
  rw [statusText, Numeral.text, Numeral.ofInt] at h
  simp only [if_true, List.append_nil, List.mem_append] at h
  rcases h with h | h
  · split_ifs at h
    · exact absurd h (by decide)
    · exact absurd h List.not_mem_nil
  · exact hdigits h

/-- The key of the example has a letter that none of the texts has. -/
theorem unrelated_example : Unrelated exampleExecutor.config exampleExecutor.apiKey := by
  have hletter : ∀ t : Text, 'Z' ∉ t → ¬ exampleExecutor.apiKey <:+: t :=
    fun t ht hinside => ht (hinside.subset (by decide))
  have hblank : ∀ c ∈ exampleExecutor.apiKey, isSpace c = false := by
    have hkey : exampleExecutor.apiKey = ['Z', '0'] := by decide
    simp [hkey, isSpace]
  refine ⟨by decide, hblank, by decide, by decide, fun t ht => hletter t ?_,
    fun t ht => hletter t ?_, fun status t ht => hletter t ?_⟩
  · exact (by decide +kernel : ∀ t ∈ [exampleExecutor.config.provider, exampleExecutor.config.model,
      exampleExecutor.config.baseUrl, exampleExecutor.config.systemPrompt], 'Z' ∉ t) t ht
  · exact (by decide +kernel : ∀ t ∈ fixedTexts, 'Z' ∉ t) t ht
  · have hstatus := notMem_statusText status
    have hreturned : 'Z' ∉ "provider returned ".toList := by decide
    have hrejected : 'Z' ∉ "provider rejected the request with ".toList := by decide
    have hcolon : 'Z' ∉ [':'] := by decide
    simp only [statusTexts, List.mem_cons, List.not_mem_nil, or_false] at ht
    rcases ht with rfl | rfl
    · simp only [List.mem_append, hreturned, hstatus, hcolon, or_self, not_false_iff]
    · simp only [List.mem_append, hrejected, hstatus, hcolon, or_self, not_false_iff]

/-- A body that names a model. -/
def bodyNaming (model : Text) : Text :=
  dumps .oneLine (.object [("content".toList, .array [.object [("type".toList,
    .string "text".toList), ("text".toList, .string "Hi".toList)]]),
    ("model".toList, .string model)])

/-- An exchange whose transport answers with a status and a body. -/
def answering (status : ℤ) (body : Text) : Exchange :=
  ⟨⟨"hello".toList, none⟩, fun _ _ _ => .answered status body⟩

/-- Two calls: an error that quotes the key, and an answer that does not. -/
theorem keyHidden_quotedInError :
    (calls textLoads exampleExecutor (.object [])
      [answering 500 "no such key: Z0".toList,
        answering 200 (bodyNaming "model-1".toList)]).length = 2 ∧
    ∀ after ∈ calls textLoads exampleExecutor (.object [])
        [answering 500 "no such key: Z0".toList, answering 200 (bodyNaming "model-1".toList)],
      KeyHidden exampleExecutor.apiKey after.1 after.2 := by
  refine ⟨rfl, (keyHidden_iff textLoads exampleExecutor unrelated_example _).mpr ?_⟩
  have hfree : ∀ document, textLoads.loads (bodyNaming "model-1".toList) = some document →
      DocumentFree exampleExecutor.config exampleExecutor.apiKey 200 document := by
    intro document hdocument
    have hall : (textLoads.loads (bodyNaming "model-1".toList)).all (fun found =>
        (readDocument exampleExecutor.config 200 found).toOption.isSome ∧
          ∀ s ∈ found.strings, ¬ exampleExecutor.apiKey <:+: s) = true := by decide +kernel
    rw [hdocument] at hall
    obtain ⟨hread, hfree⟩ := of_decide_eq_true hall
    refine documentFree_of_free ?_ hfree
    cases hfound : readDocument exampleExecutor.config 200 document with
    | ok found => exact succeeds_ok _
    | error failure =>
      rw [hfound] at hread
      cases hread
  simp only [List.forall_mem_cons, List.not_mem_nil, false_implies, implies_true, and_true]
  have hstatus : (400 : ℤ) ≤ 500 := by decide
  exact ⟨.inr (.inl hstatus), .inr (.inr hfree)⟩

/-- **A provider that gives the key as the name of the model** gets it into `last_call` and into
the telemetry. -/
theorem modelEcho_leaks :
    Unrelated exampleExecutor.config exampleExecutor.apiKey ∧
    ∃ after ∈ calls textLoads exampleExecutor (.object [])
        [answering 200 (bodyNaming exampleExecutor.apiKey)],
      exampleExecutor.apiKey ∈ after.2.strings ∧
      exampleExecutor.apiKey ∈ (executionRecord after.1 after.2).execution.strings ∧
      ¬ KeyHidden exampleExecutor.apiKey after.1 after.2 := by
  refine ⟨unrelated_example, ?_⟩
  have hfound : ∃ after ∈ calls textLoads exampleExecutor (.object [])
        [answering 200 (bodyNaming exampleExecutor.apiKey)],
      exampleExecutor.apiKey ∈ after.2.strings ∧
      exampleExecutor.apiKey ∈ (executionRecord after.1 after.2).execution.strings := by
    decide +kernel
  obtain ⟨after, hafter, hfacts, hexecution⟩ := hfound
  exact ⟨after, hafter, hfacts, hexecution, fun hidden =>
    hidden.facts _ hfacts List.infix_rfl⟩

end Provider
end FederatedMessaging
