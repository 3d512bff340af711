import FederatedMessaging.Foundations.JsonPositions
import FederatedMessaging.Foundations.Utf8

/-!
# What a configuration hash covers

`fam.common.digests` publishes the hash of a configuration without its secrets: `sanitize`
replaces every value under a secret key by one marker, and `config_hash` is the SHA-256 of the
canonical JSON of what is left.

## Secret keys

A key is secret when its lower case contains one of seven words and is not one of six
structural names.  What `str.lower` does beyond ASCII is left open: nothing here depends on
which keys are secret, only on the fact that both documents are asked the same question.

## Two documents

Seen from outside of the secrets, sanitizing changes no head: keys, lengths and leaves stay
where they are (`valueAt_sanitize`).  So two sanitized documents are the same exactly when the
documents agree there (`same_sanitize_iff`), and the canonical text, whose keys are sorted, is
the same exactly then.
-/

namespace FederatedMessaging
namespace Digests

open PythonText Json

/-! ## Secret keys -/

/-- `str.lower`. -/
structure CaseTable where
  lower : Text → Text
  ascii : ∀ t, (∀ c ∈ t, c.toNat < 128) → lower t = PythonText.lower t

/-- `SECRET_KEY_MARKERS`. -/
def secretKeyMarkers : List Text :=
  ["password".toList, "secret".toList, "token".toList, "key".toList, "credential".toList,
    "salt".toList, "pepper".toList]

/-- `SECRET_KEY_EXCEPTIONS`. -/
def secretKeyExceptions : List Text :=
  ["signing_key_path".toList, "macaroon_secret_key_path".toList, "trusted_key_servers".toList,
    "key_server".toList, "suppress_key_server_warning".toList, "form_secret_path".toList]

variable (table : CaseTable)

/-- `_is_secret_key`. -/
def isSecretKey (key : Text) : Bool :=
  let lowered := table.lower key
  if lowered ∈ secretKeyExceptions then false
  else secretKeyMarkers.any fun marker => marker <:+: lowered

/-! ## Sanitizing -/

/-- What stands in the place of a secret. -/
def redacted : Json := .string "<redacted>".toList

mutual

/-- `sanitize`. -/
def sanitize : Json → Json
  | .object members => .object (sanitizeMembers members)
  | .array items => .array (sanitizeItems items)
  | document => document

/-- The items of a list. -/
def sanitizeItems : List Json → List Json
  | [] => []
  | item :: items => sanitize item :: sanitizeItems items

/-- The loop over the items of a dictionary. -/
def sanitizeMembers : List (Text × Json) → List (Text × Json)
  | [] => []
  | (key, value) :: members =>
    (key, if isSecretKey table key then redacted else sanitize value) :: sanitizeMembers members

end

/-- `canonical_json`. -/
def canonicalJson (document : Json) : List UInt8 :=
  Utf8.encode (dumps ⟨none, false, false, false⟩ (sortKeys document))

/-- `config_hash`, over any digest. -/
def configHash (sha256 : List UInt8 → Text) (document : Json) : Text :=
  sha256 (canonicalJson (sanitize table document))

/-- A document: no key twice, and every number can be written. -/
structure Document where
  value : Json
  valid : value.Valid

/-- The two documents agree wherever no secret key is in the way. -/
def AgreeOutsideSecrets (d e : Document) : Prop :=
  AgreeOutside (fun key => isSecretKey table key = true) d.value e.value

variable {table}

/-! ## What sanitizing keeps -/

theorem sanitizeItems_eq (items : List Json) :
    sanitizeItems table items = items.map (sanitize table) := by
  induction items with
  | nil => rfl
  | cons item items ih => rw [sanitizeItems, ih, List.map_cons]

/-- What stands under a key. -/
def sanitizedValue (table : CaseTable) (key : Text) (value : Json) : Json :=
  if isSecretKey table key then redacted else sanitize table value

theorem sanitizeMembers_eq (members : List (Text × Json)) :
    sanitizeMembers table members = members.map fun m => (m.1, sanitizedValue table m.1 m.2) := by
  induction members with
  | nil => rfl
  | cons m members ih => rw [sanitizeMembers, ih, List.map_cons, sanitizedValue]

theorem map_fst_sanitizeMembers (members : List (Text × Json)) :
    (sanitizeMembers table members).map Prod.fst = members.map Prod.fst := by
  rw [sanitizeMembers_eq, List.map_map]
  rfl

theorem head_sanitize (j : Json) : (sanitize table j).head = j.head := by
  cases j with
  | array items => rw [sanitize, head, head, sanitizeItems_eq, List.length_map]
  | object members => rw [sanitize, head, head, map_fst_sanitizeMembers]
  | _ => rfl

/-- One step, away from the secrets. -/
theorem child_sanitize {j : Json} {s : Step} (hs : ∀ k, s = .key k → ¬ isSecretKey table k = true) :
    (sanitize table j).child s = (j.child s).map (sanitize table) := by
  cases j with
  | array items =>
    cases s with
    | key k => rfl
    | index i => rw [sanitize, sanitizeItems_eq, child, child, List.getElem?_map]
  | object members =>
    cases s with
    | key k =>
      have hvalue : sanitizedValue table k = sanitize table := by
        funext value
        exact if_neg (hs k rfl)
      rw [sanitize, sanitizeMembers_eq, child, child, lookup_map_snd, hvalue]
    | index i => rfl
  | _ => rfl

/-- Under a secret key there is the marker. -/
theorem eq_redacted_of_child {j x : Json} {k : Text} (hk : isSecretKey table k = true)
    (h : (sanitize table j).child (.key k) = some x) : x = redacted := by
  cases j with
  | object members =>
    rw [sanitize, sanitizeMembers_eq, child, lookup_map_snd] at h
    obtain ⟨value, -, rfl⟩ := Option.map_eq_some_iff.mp h
    exact if_pos hk
  | _ => cases h

/-- **Away from the secrets everything stays where it is.** -/
theorem valueAt_sanitize (j : Json) {path : List Step}
    (hpath : Visible (fun key => isSecretKey table key = true) path) :
    (sanitize table j).valueAt path = (j.valueAt path).map (sanitize table) :=
  @valueAt_of_child (sanitize table) (fun _ => True) _ (fun _ _ => trivial)
    (fun _ hs => child_sanitize hs) j trivial path hpath

/-- **Two sanitized documents are the same when the documents agree away from the secrets.** -/
theorem same_sanitize_iff {x y : Json} :
    Same (sanitize table x) (sanitize table y) ↔
      AgreeOutside (fun key => isSecretKey table key = true) x y := by
  constructor
  · intro h path hpath a b ha hb
    have hheads := h path (fun _ _ => not_false) (sanitize table a) (sanitize table b)
      (by rw [valueAt_sanitize x hpath, ha]; rfl) (by rw [valueAt_sanitize y hpath, hb]; rfl)
    rwa [head_sanitize, head_sanitize] at hheads
  · intro h path _ a b ha hb
    induction path generalizing x y with
    | nil =>
      obtain rfl := Option.some_inj.mp ha
      obtain rfl := Option.some_inj.mp hb
      rw [head_sanitize, head_sanitize]
      exact h.head_eq
    | cons s path ih =>
      obtain ⟨a', ha', hrestA⟩ := Option.bind_eq_some_iff.mp ha
      obtain ⟨b', hb', hrestB⟩ := Option.bind_eq_some_iff.mp hb
      by_cases hs : ∀ k, s = .key k → ¬ isSecretKey table k = true
      · rw [child_sanitize hs] at ha' hb'
        obtain ⟨x', hx', rfl⟩ := Option.map_eq_some_iff.mp ha'
        obtain ⟨y', hy', rfl⟩ := Option.map_eq_some_iff.mp hb'
        exact ih (h.child hs hx' hy') (fun _ _ => not_false) hrestA hrestB
      · -- both values are the marker
        push Not at hs
        obtain ⟨k, rfl, hk⟩ := hs
        rw [eq_redacted_of_child hk ha'] at hrestA
        rw [eq_redacted_of_child hk hb'] at hrestB
        exact congrArg head (Option.some_inj.mp (hrestA.symm.trans hrestB))

theorem valid_redacted : redacted.Valid := by
  intro node hnode
  obtain rfl := List.mem_singleton.mp hnode
  exact trivial

/-- A sanitized document can be written. -/
theorem valid_sanitize {j : Json} (h : j.Valid) : (sanitize table j).Valid := by
  induction j with
  | word | int | float | string => exact h
  | array items ih =>
    intro node hnode
    rw [sanitize, sanitizeItems_eq] at hnode
    rcases mem_nodes_array.mp hnode with rfl | ⟨x, hx, hnode⟩
    · exact trivial
    · obtain ⟨x, hmem, rfl⟩ := List.mem_map.mp hx
      exact ih x hmem (h.of_mem_array hmem) node hnode
  | object members ih =>
    intro node hnode
    rw [sanitize] at hnode
    rcases mem_nodes_object.mp hnode with rfl | ⟨m, hm, hnode⟩
    · change ((sanitizeMembers table members).map Prod.fst).Nodup
      rw [map_fst_sanitizeMembers]
      exact h.own
    · rw [sanitizeMembers_eq] at hm
      obtain ⟨m, hmem, rfl⟩ := List.mem_map.mp hm
      unfold sanitizedValue at hnode
      dsimp only at hnode
      split_ifs at hnode
      · exact valid_redacted node hnode
      · exact ih m hmem (h.of_mem_object hmem) node hnode

/-- **Every value under a secret key is the marker**, at any depth. -/
theorem redacted_of_mem_nodes {j : Json} {members : List (Text × Json)}
    (h : .object members ∈ (sanitize table j).nodes) {m : Text × Json} (hm : m ∈ members)
    (hkey : isSecretKey table m.1 = true) : m.2 = redacted := by
  induction j with
  | word | int | float | string => cases List.mem_singleton.mp h
  | array items ih =>
    rw [sanitize, sanitizeItems_eq] at h
    rcases mem_nodes_array.mp h with h | ⟨x, hx, h⟩
    · cases h
    · obtain ⟨x, hmem, rfl⟩ := List.mem_map.mp hx
      exact ih x hmem h
  | object members' ih =>
    rw [sanitize, sanitizeMembers_eq] at h
    rcases mem_nodes_object.mp h with h | ⟨m', hm', h⟩
    · obtain rfl := Json.object.inj h
      obtain ⟨m', -, rfl⟩ := List.mem_map.mp hm
      exact if_pos hkey
    · obtain ⟨m', hmem, rfl⟩ := List.mem_map.mp hm'
      unfold sanitizedValue at h
      dsimp only at h
      split_ifs at h
      · cases List.mem_singleton.mp h
      · exact ih m' hmem h

/-- **Sanitizing twice is sanitizing once.** -/
theorem sanitize_sanitize (j : Json) : sanitize table (sanitize table j) = sanitize table j := by
  induction j with
  | word | int | float | string => rfl
  | array items ih =>
    rw [sanitize, sanitize, sanitizeItems_eq, sanitizeItems_eq, List.map_map]
    exact congrArg Json.array (List.map_congr_left fun x hx => ih x hx)
  | object members ih =>
    rw [sanitize, sanitize, sanitizeMembers_eq, sanitizeMembers_eq, List.map_map]
    refine congrArg Json.object (List.map_congr_left fun m hm => Prod.ext rfl ?_)
    change sanitizedValue table m.1 (sanitizedValue table m.1 m.2) = sanitizedValue table m.1 m.2
    unfold sanitizedValue
    split_ifs
    · rfl
    · exact ih m hm

/-- Documents that are the same have one canonical text. -/
theorem canonicalJson_eq_iff {x y : Json} (hx : x.Valid) (hy : y.Valid) :
    canonicalJson x = canonicalJson y ↔ Same x y := by
  rw [same_iff_dumps_sortKeys _ hx hy]
  exact ⟨Utf8.encode_injective, congrArg _⟩

/-- **A hash that has no collisions covers all but the secrets.** -/
theorem configHash_eq_iff {sha256 : List UInt8 → Text} (hsha : Function.Injective sha256)
    (d e : Document) :
    configHash table sha256 d.value = configHash table sha256 e.value ↔
      AgreeOutsideSecrets table d e := by
  unfold configHash AgreeOutsideSecrets
  rw [hsha.eq_iff, canonicalJson_eq_iff (valid_sanitize d.valid) (valid_sanitize e.valid),
    same_sanitize_iff]

/-- What sanitizing owes to two documents. -/
structure HidesSecretsOnly (table : CaseTable) (sha256 : List UInt8 → Text) (d e : Document) :
    Prop where
  /-- what differs under secret keys only is not told apart -/
  hides : AgreeOutsideSecrets table d e →
    Same (sanitize table d.value) (sanitize table e.value) ∧
      configHash table sha256 d.value = configHash table sha256 e.value
  /-- a difference at any other position stays -/
  keeps : ¬ AgreeOutsideSecrets table d e →
    ¬ Same (sanitize table d.value) (sanitize table e.value)
  marked : ∀ members, .object members ∈ (sanitize table d.value).nodes →
    ∀ m ∈ members, isSecretKey table m.1 = true → m.2 = redacted
  idempotent : sanitize table (sanitize table d.value) = sanitize table d.value

/-- **Sanitizing hides the secrets and nothing else.** -/
theorem sanitize_hidesSecretsOnly (table : CaseTable) (sha256 : List UInt8 → Text)
    (d e : Document) : HidesSecretsOnly table sha256 d e := by
  refine ⟨fun h => ?_, fun h hsame => h (same_sanitize_iff.mp hsame),
    fun members hmembers m hm hkey => redacted_of_mem_nodes hmembers hm hkey,
    sanitize_sanitize d.value⟩
  have hsame : Same (sanitize table d.value) (sanitize table e.value) := same_sanitize_iff.mpr h
  exact ⟨hsame, congrArg sha256
    ((canonicalJson_eq_iff (valid_sanitize d.valid) (valid_sanitize e.valid)).mpr hsame)⟩

/-- ASCII alone. -/
def asciiCase : CaseTable := ⟨PythonText.lower, fun _ _ => rfl⟩

example : (sanitize asciiCase (.object [("Access_Token".toList, .array [.int 1]),
    ("signing_key_path".toList, .string "a".toList)])).valueAt [.key "Access_Token".toList,
      .index 0] = none := by rfl

end Digests
end FederatedMessaging
