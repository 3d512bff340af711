import FederatedMessaging.Foundations.Backtracking
import FederatedMessaging.Foundations.PythonText

/-!
# The controlled message format

`fam.common.message`: the `FAM/1` envelope that carries the correlation triple of
one logical interaction, and the transaction identifiers derived from the same
triple.

    FAM/1 REQUEST <experiment> <run> <sequence>
    FAM/1 ACK     <experiment> <run> <sequence>

## What is modelled

The token check and the body grammar are the two regular expressions of the
source, as patterns of `Foundations.Backtracking`; `parse` runs the second one on
the stripped body.  `$` is kept as Python has it: it matches at the end of the
string and also just before a newline that ends it.

A `Correlation` carries the outcome of its constructor's checks as fields, so a
value of the type is one the constructor accepted.

## Exceptions

`MessageFormatError` is a subclass of `ValueError`, and `parse` catches only the
former.  The `ValueError` of `int` and `str` on numbers beyond the conversion limit
is a different constructor here (`MessageError.value`), so that what `parse`
catches and what escapes it stay apart.
-/

namespace FederatedMessaging
namespace Message

open Backtracking PythonText

/-! ## Constants of `fam.common.frozen` -/

/-- `PROTOCOL_TOKEN`. -/
def protocolToken : Text := ['F', 'A', 'M', '/', '1']

/-- `REQUEST_KEYWORD`. -/
def requestKeyword : Text := ['R', 'E', 'Q', 'U', 'E', 'S', 'T']

/-- `ACK_KEYWORD`. -/
def ackKeyword : Text := ['A', 'C', 'K']

/-- `E3_BODY_BYTES`. -/
def e3BodyBytes : ℤ := 256

/-- `PADDING_CHARACTER`. -/
def paddingCharacter : Char := 'x'

/-- `SEQUENCE_DIGITS`. -/
def sequenceDigits : ℕ := 5

/-- The two message kinds. -/
inductive Kind where
  | request
  | ack
  deriving DecidableEq, Repr

/-- The keyword that stands for a kind in the body. -/
def Kind.keyword : Kind → Text
  | .request => requestKeyword
  | .ack => ackKeyword

/-! ## Errors -/

/-- What a `MessageFormatError` reports, with the values its text is formatted from. -/
inductive FormatFault where
  /-- `{name} must be a whitespace-free token matching [A-Za-z0-9._:-]+, got {value!r}` -/
  | token (name : String) (value : Text)
  /-- `sequence_id must be non-negative` -/
  | negativeSequence
  /-- `direction must be 'request' or 'response'` -/
  | direction
  /-- `envelope is {encoded} bytes; cannot pad to {body_bytes} with a separator` -/
  | padding (encoded : ℕ) (bodyBytes : ℤ)
  /-- `body is {actual} encoded bytes, frozen size is {expected_bytes}` -/
  | bodyLength (actual : ℕ) (expectedBytes : ℤ)
  deriving DecidableEq, Repr

/-- The exceptions of this module: a `MessageFormatError`, or the plain `ValueError`
of a number conversion. -/
inductive MessageError where
  | format (fault : FormatFault)
  | value (error : ValueError)
  deriving DecidableEq, Repr

/-! ## The two regular expressions -/

/-- The class `[A-Za-z0-9._:-]`. -/
def isTokenChar (c : Char) : Bool :=
  c.isAlphanum || c == '.' || c == '_' || c == ':' || c == '-'

/-- `$` without `re.MULTILINE`. -/
def atEnd (rest : Text) : Bool := rest == [] || rest == ['\n']

/-- `_TOKEN_RE`. -/
def tokenRe : Pattern Char Unit := .seq (.many1 isTokenChar) (.look atEnd)

/-- The named groups of `_BODY_RE`. -/
inductive BodyGroup where
  | proto
  | kind
  | experiment
  | run
  | sequence
  | padding
  deriving DecidableEq, Repr

/-- The end of `_BODY_RE`: optional padding, then `$`. -/
def bodyTailRe : Pattern Char BodyGroup :=
  .seq (.opt (.group .padding (.seq (.many1 isSpace) (.many (· == 'x'))))) (.look atEnd)

/-- `_BODY_RE`. -/
def bodyRe : Pattern Char BodyGroup :=
  .seq (.group .proto (.word protocolToken)) <|
  .seq (.many1 isSpace) <|
  .seq (.group .kind (.alt (.word requestKeyword) (.word ackKeyword))) <|
  .seq (.many1 isSpace) <|
  .seq (.group .experiment (.many1 isTokenChar)) <|
  .seq (.many1 isSpace) <|
  .seq (.group .run (.many1 isTokenChar)) <|
  .seq (.many1 isSpace) <|
  .seq (.group .sequence (.many1 isDecimal)) bodyTailRe

/-! ## Correlations -/

/-- `_TOKEN_RE.match(value)` succeeds. -/
def matchesToken (value : Text) : Bool := (firstWay tokenRe value).isSome

/-- `_check_token`. -/
def checkToken (name : String) (value : Text) :
    Except FormatFault { v : Text // matchesToken v = true } :=
  if h : matchesToken value = true then .ok ⟨value, h⟩ else .error (.token name value)

/-- Scientific identity of one logical interaction: experiment, run and sequence. -/
structure Correlation where
  experiment : Text
  runId : Text
  sequenceId : ℕ
  experiment_matches : matchesToken experiment = true
  runId_matches : matchesToken runId = true
  deriving DecidableEq

/-- The constructor with its `__post_init__` checks. -/
def Correlation.new (experiment runId : Text) (sequenceId : ℤ) :
    Except FormatFault Correlation := do
  let e ← checkToken "experiment" experiment
  let r ← checkToken "run_id" runId
  if sequenceId < 0 then .error .negativeSequence
  else .ok ⟨e.1, r.1, sequenceId.toNat, e.2, r.2⟩

/-- `str(self.sequence_id).zfill(SEQUENCE_DIGITS)`. -/
def Correlation.sequenceToken (c : Correlation) : Except ValueError Text :=
  (strOfNat c.sequenceId).map (zfill sequenceDigits)

/-- The correlation key, by which the registry and the pending table look up. -/
abbrev Key := Text × Text × ℕ

/-- `Correlation.key`. -/
def Correlation.key (c : Correlation) : Key := (upper c.experiment, c.runId, c.sequenceId)

/-- The two directions a transaction identifier is made for. -/
inductive Direction where
  | request
  | response
  deriving DecidableEq, Repr

/-- The string a caller passes for a direction. -/
def Direction.value : Direction → Text
  | .request => ['r', 'e', 'q', 'u', 'e', 's', 't']
  | .response => ['r', 'e', 's', 'p', 'o', 'n', 's', 'e']

/-- `Correlation.txn_id`. -/
def Correlation.txnId (c : Correlation) (direction : Text) : Except MessageError Text :=
  if direction = Direction.request.value ∨ direction = Direction.response.value then do
    let sequence ← c.sequenceToken.mapError .value
    .ok (['f', 'a', 'm', '-'] ++ lower c.experiment ++ '-' :: lower c.runId ++
      '-' :: direction ++ '-' :: sequence)
  else .error (.format .direction)

/-! ## Building bodies -/

/-- `_envelope`. -/
def envelope (kind : Kind) (c : Correlation) : Except ValueError Text := do
  let sequence ← c.sequenceToken
  .ok (protocolToken ++ ' ' :: kind.keyword ++ ' ' :: upper c.experiment ++
    ' ' :: c.runId ++ ' ' :: sequence)

/-- `_pad`. -/
def pad (envelope : Text) (bodyBytes : Option ℤ) : Except FormatFault Text :=
  match bodyBytes with
  | none => .ok envelope
  | some size =>
    if (utf8Length envelope : ℤ) > size - 1 then
      .error (.padding (utf8Length envelope) size)
    else
      .ok (envelope ++
        ' ' :: List.replicate (size - utf8Length envelope - 1).toNat paddingCharacter)

/-- The body of either kind: an envelope, padded. -/
def buildBody (kind : Kind) (c : Correlation) (bodyBytes : Option ℤ) :
    Except MessageError Text := do
  let env ← (envelope kind c).mapError .value
  (pad env bodyBytes).mapError .format

/-- `build_request`. -/
def buildRequest (c : Correlation) (bodyBytes : Option ℤ) : Except MessageError Text :=
  buildBody .request c bodyBytes

/-- `build_ack`. -/
def buildAck (c : Correlation) (bodyBytes : Option ℤ) : Except MessageError Text :=
  buildBody .ack c bodyBytes

/-- `assert_body_length`. -/
def assertBodyLength (body : Text) (expectedBytes : ℤ) : Except MessageError Unit :=
  if (utf8Length body : ℤ) ≠ expectedBytes then
    .error (.format (.bodyLength (utf8Length body) expectedBytes))
  else .ok ()

/-! ## Parsing -/

/-- `ParsedMessage`. -/
structure ParsedMessage where
  kind : Kind
  correlation : Correlation
  padded : Bool
  deriving DecidableEq

/-- `ParsedMessage.is_request`. -/
def ParsedMessage.isRequest (m : ParsedMessage) : Bool := m.kind == .request

/-- `ParsedMessage.is_ack`. -/
def ParsedMessage.isAck (m : ParsedMessage) : Bool := m.kind == .ack

/-- `parse`: a message, or `none` for a body that is not one.  A sequence number too
long for `int` is neither: that `ValueError` is not the one the source catches. -/
def parse (body : Text) : Except MessageError (Option ParsedMessage) :=
  match firstWay bodyRe (strip body) with
  | none => .ok none
  | some found =>
    match intOfText (found.group .sequence) with
    | .error e => .error (.value e)
    | .ok sequence =>
      match Correlation.new (found.group .experiment) (found.group .run) sequence with
      | .error _ => .ok none
      | .ok correlation =>
        .ok (some
          { kind := if found.group .kind = requestKeyword then .request else .ack
            correlation := correlation
            padded := found.group .padding ≠ [] })

/-! ## Accepted tokens

`_TOKEN_RE` ends in `$`, so it accepts a token, and also a token followed by one
newline. -/

theorem isSpace_eq_false_of_isTokenChar {c : Char} (hc : isTokenChar c = true) :
    isSpace c = false := by
  have hrange : 45 ≤ c.toNat ∧ c.toNat ≤ 122 := by
    simp only [isTokenChar, Char.isAlphanum, Char.isAlpha, Char.isUpper, Char.isLower,
      Char.isDigit, Bool.or_eq_true, Bool.and_eq_true, decide_eq_true_eq, beq_iff_eq,
      UInt32.le_iff_toNat_le, ge_iff_le] at hc
    change ((((((65 ≤ c.toNat ∧ c.toNat ≤ 90) ∨ (97 ≤ c.toNat ∧ c.toNat ≤ 122)) ∨
      (48 ≤ c.toNat ∧ c.toNat ≤ 57)) ∨ c = '.') ∨ c = '_') ∨ c = ':') ∨ c = '-' at hc
    rcases hc with (((hc | rfl) | rfl) | rfl) | rfl
    · omega
    all_goals decide
  obtain ⟨hlo, hhi⟩ := hrange
  simp only [isSpace, Bool.or_eq_false_iff, Bool.and_eq_false_iff, decide_eq_false_iff_not,
    beq_eq_false_iff_ne]
  omega

/-- **What the token check admits**: a nonempty word over the class, with or without
one newline after it. -/
theorem matchesToken_iff {v : Text} :
    matchesToken v = true ↔
      ∃ u nl, v = u ++ nl ∧ u ≠ [] ∧ (∀ c ∈ u, isTokenChar c = true) ∧
        (nl = [] ∨ nl = ['\n']) := by
  constructor
  · intro h
    obtain ⟨w, hw⟩ := exists_way_of_firstWay_isSome h
    simp only [tokenRe, ways, List.mem_flatMap, List.mem_map] at hw
    obtain ⟨w', hw', w'', hw'', -⟩ := hw
    obtain ⟨hsplit, hne, hall⟩ := mem_ways_many1 hw'
    refine ⟨w'.consumed, w'.rest, hsplit, hne, hall, ?_⟩
    by_contra hrest
    have hend : atEnd w'.rest = false := by simpa [atEnd, not_or] using hrest
    simp [hend] at hw''
  · rintro ⟨u, nl, rfl, hne, hall, hnl⟩
    have hstop : ∀ c ∈ nl.head?, isTokenChar c = false := by
      rcases hnl with rfl | rfl
      · simp
      · intro c hc
        rw [← Option.some_inj.mp hc]
        decide
    have hend : atEnd nl = true := by
      rcases hnl with rfl | rfl <;> rfl
    have hleads : Leads tokenRe (u ++ nl) _ :=
      leads_seq (leads_many1 hne hall hstop) (leads_look hend)
    simp [matchesToken, hleads.firstWay_eq]

example :
    (parse ['F', 'A', 'M', '/', '1', ' ', 'A', 'C', 'K', '\t', 'e', '3', ' ', 'r', ' ', '٠', '٤',
      ' ', 'x', 'x', '\n']).toOption.join.map (fun m => (m.kind, m.correlation.key, m.padded))
      = some (.ack, (['E', '3'], ['r'], 4), true) := by decide

end Message
end FederatedMessaging
