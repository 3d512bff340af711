import FederatedMessaging.Benchmark.CampaignLedger

/-!
# Which campaign a protocol lock names

`scripts/protocol_lock.py` writes down, before the campaign, the fingerprint under which it will
run, and `experiments/e3_benchmark.py` opens its ledger under the fingerprint of the parameters
that it puts together itself.  Both start from `campaign_parameters` with the same frozen values.

The fingerprint covers every key (`fingerprint_eq_iff`), and the benchmark adds one, the
workloads, that the lock does not have.  So the two fingerprints are never the same
(`lock_never_names`), whatever the commit, the configuration and the rate limits are.
-/

namespace FederatedMessaging
namespace Benchmark

open PythonText Json Analysis

/-! ## Frozen values -/

/-- `E3_SCHEDULE_SEED`. -/
def scheduleSeed : ℤ := 20260905

/-- `E3_SYNC_TIMELINE_LIMIT`. -/
def syncTimelineLimit : ℤ := 500

/-- `E3_SYNC_TIMEOUT_MS`. -/
def syncTimeoutMs : ℤ := 30000

/-- `E3_PAIRED_BLOCKS`. -/
def pairedBlocks : ℤ := 20

/-- `E3_CONCURRENCY_LEVELS`. -/
def concurrencyLevels : List ℤ := [8, 32]

/-- A float with one digit after the point. -/
def seconds (whole : Text) : Json := .float ⟨false, whole, ['0'], []⟩

/-- `campaign_parameters`. -/
def campaignParameters (seed syncTimelineLimit syncTimeoutMs blocks : ℤ) (levels : List ℤ)
    (protocolGitCommit : Text) (configHashes : OrderedDict Text Text) (rateLimits : Json) :
    List (Text × Json) :=
  [("execution_protocol_version".toList, .string "1.2".toList),
    ("runtime_code_revision".toList, .string "task-07-r4".toList),
    ("protocol_git_commit".toList, .string protocolGitCommit),
    ("schedule_seed".toList, .int seed),
    ("paired_blocks".toList, .int blocks),
    ("concurrency_levels".toList, .array (levels.map .int)),
    ("latency_max_in_flight".toList, .int latencyMaxInFlight),
    ("latency_warmup_interactions".toList, .int 50),
    ("latency_measured_interactions".toList, .int 500),
    ("warmup_seconds".toList, seconds "10".toList),
    ("measurement_seconds".toList, seconds "60".toList),
    ("drain_seconds".toList, seconds "10".toList),
    ("inter_run_idle_seconds".toList, seconds "5".toList),
    ("message_body_bytes".toList, .int 256),
    ("sync_timeline_limit".toList, .int syncTimelineLimit),
    ("sync_timeout_ms".toList, .int syncTimeoutMs),
    ("synapse_config_hashes".toList,
      .object (sortMembers (configHashes.entries.map fun h => (h.1, .string h.2)))),
    ("rate_limit_configuration".toList, rateLimits.orElse (.object []))]

/-! ## The lock -/

/-- The parameters of `generate`. -/
def lockParameters (commit : Text) (configHashes : OrderedDict Text Text) (rateLimits : Json) :
    Json :=
  .object (campaignParameters scheduleSeed syncTimelineLimit syncTimeoutMs pairedBlocks
    concurrencyLevels commit configHashes rateLimits)

/-! ## The benchmark -/

/-- `os.environ.get(name, "").strip()`. -/
def environText (env : Text → Option Text) (name : Text) : Text := strip ((env name).getD [])

/-- `_env_int`, where `int` is Python's, and none where it raises. -/
def envInt (int : Text → Option ℤ) (env : Text → Option Text) (name : Text) (default : ℤ) :
    Option ℤ :=
  if environText env name = [] then some default else int (environText env name)

/-- The workloads of `main_async`. -/
def workloadsOf (env : Text → Option Text) : List Text :=
  let raw := environText env "FAM_E3_WORKLOADS".toList
  if raw = [] then [latencyWorkload, throughputWorkload]
  else ((raw.splitOn ',').filter fun part => strip part ≠ []).map strip

/-- The parameters of `main_async`. -/
def mainParameters (int : Text → Option ℤ) (env : Text → Option Text) (commit : Text)
    (configHashes : OrderedDict Text Text) (rateLimits : Json) : Option Json := do
  let seed ← envInt int env "FAM_E3_SCHEDULE_SEED".toList scheduleSeed
  let syncLimit ← envInt int env "FAM_E3_TIMELINE_LIMIT".toList syncTimelineLimit
  let syncTimeout ← envInt int env "FAM_E3_SYNC_TIMEOUT_MS".toList syncTimeoutMs
  let blocks ← envInt int env "FAM_E3_BLOCKS".toList pairedBlocks
  pure (.object (campaignParameters seed syncLimit syncTimeout blocks concurrencyLevels commit
    configHashes rateLimits ++
      [("workloads".toList, .array ((workloadsOf env).map .string))]))

/-- None of the five settings is made. -/
def DefaultSettings (env : Text → Option Text) : Prop :=
  ∀ name ∈ ["FAM_E3_SCHEDULE_SEED".toList, "FAM_E3_TIMELINE_LIMIT".toList,
    "FAM_E3_SYNC_TIMEOUT_MS".toList, "FAM_E3_BLOCKS".toList, "FAM_E3_WORKLOADS".toList],
    environText env name = []

/-! ## Fingerprints -/

/-- **A digest without collisions tells parameters apart.** -/
theorem fingerprint_eq_iff {sha256 : List UInt8 → Text} (hsha : Function.Injective sha256)
    {x y : Json} (hx : x.Valid) (hy : y.Valid) :
    fingerprint sha256 x = fingerprint sha256 y ↔ Same x y := by
  unfold fingerprint
  rw [hsha.eq_iff, same_iff_dumps_sortKeys .compact hx hy]
  exact ⟨Utf8.encode_injective, congrArg _⟩

/-- A ledger that is opened has the fingerprint of its parameters. -/
theorem fingerprint_of_openLedger {sha256 : List UInt8 → Text} {parameters : Json}
    {publicationData : Bool} {now : Text} {file : Option (List UInt8)} {state : CampaignState}
    (h : (openLedger sha256 parameters publicationData now file).1 = .ok state) :
    state.fingerprint = fingerprint sha256 parameters := by
  cases file with
  | none =>
    obtain rfl := Except.ok.inj h
    rfl
  | some bytes =>
    change readLedger (fingerprint sha256 parameters) bytes = .ok state at h
    unfold readLedger at h
    split at h
    · cases h
    split at h
    · split_ifs at h
      obtain ⟨campaignId, -, h⟩ := Fallible.exists_of_bind h
      obtain ⟨parameters', -, h⟩ := Fallible.exists_of_bind h
      obtain ⟨createdAt, -, h⟩ := Fallible.exists_of_bind h
      obtain ⟨completed, -, h⟩ := Fallible.exists_of_bind h
      obtain rfl := Except.ok.inj h
      rfl
    · cases h
    · cases h

/-! ## Values that can be written -/

theorem valid_int {n : ℤ} (h : (Nat.toDigits 10 n.natAbs).length ≤ maxStrDigits) :
    (Json.int n).Valid := by
  intro node hnode
  obtain rfl := List.mem_singleton.mp hnode
  exact h

theorem valid_seconds {n : ℕ} {whole : Text} (h : whole = Nat.toDigits 10 n) :
    (seconds whole).Valid := by
  intro node hnode
  obtain rfl := List.mem_singleton.mp hnode
  refine ⟨⟨h ▸ isWhole_toDigits n, fun c hc => ?_, .inl rfl⟩, fun hinteger => ?_⟩
  · obtain rfl := List.mem_singleton.mp hc
    rfl
  · exact List.cons_ne_nil _ _ hinteger.1

theorem valid_array {items : List Json} (h : ∀ x ∈ items, x.Valid) : (Json.array items).Valid := by
  intro node hnode
  rcases mem_nodes_array.mp hnode with rfl | ⟨x, hx, hnode⟩
  · trivial
  · exact h x hx node hnode

theorem valid_configHashes (configHashes : OrderedDict Text Text) :
    (Json.object (sortMembers (configHashes.entries.map fun h => (h.1, .string h.2)))).Valid := by
  have hperm := perm_sortMembers (configHashes.entries.map fun h => (h.1, Json.string h.2))
  refine valid_object ?_ fun m hm => ?_
  · rw [(hperm.map Prod.fst).nodup_iff, List.map_map]
    exact configHashes.nodup_keys
  · obtain ⟨h, -, rfl⟩ := List.mem_map.mp (hperm.mem_iff.mp hm)
    exact valid_string _

/-- The frozen values, and any commit, hashes and limits. -/
theorem valid_campaignParameters (commit : Text) (configHashes : OrderedDict Text Text)
    {rateLimits : Json} (hlimits : rateLimits.Valid) :
    ∀ m ∈ campaignParameters scheduleSeed syncTimelineLimit syncTimeoutMs pairedBlocks
      concurrencyLevels commit configHashes rateLimits, m.2.Valid := by
  have hint : ∀ n ∈ [1, 8, 20, 32, 50, 256, 500, 30000, (20260905 : ℤ)], (Json.int n).Valid := by
    intro n hn
    refine valid_int ?_
    revert n
    decide
  have hlevels : (Json.array (concurrencyLevels.map .int)).Valid := by
    refine valid_array fun x hx => ?_
    simp only [concurrencyLevels, List.map_cons, List.map_nil, List.mem_cons, List.not_mem_nil,
      or_false] at hx
    rcases hx with rfl | rfl <;> exact hint _ (by decide)
  have hlimits : (rateLimits.orElse (.object [])).Valid := by
    unfold Json.orElse
    split_ifs
    · exact hlimits
    · exact valid_object List.nodup_nil fun _ h => absurd h List.not_mem_nil
  unfold campaignParameters
  simp only [List.forall_mem_cons, List.not_mem_nil, false_implies, implies_true, and_true]
  exact ⟨valid_string _, valid_string _, valid_string _, hint _ (by decide), hint _ (by decide),
    hlevels, hint _ (by decide), hint _ (by decide), hint _ (by decide),
    valid_seconds (n := 10) (by decide), valid_seconds (n := 60) (by decide),
    valid_seconds (n := 10) (by decide), valid_seconds (n := 5) (by decide), hint _ (by decide),
    hint _ (by decide), hint _ (by decide), valid_configHashes configHashes, hlimits⟩

/-! ## Two names -/

/-- The parameters of the benchmark, where no setting is made. -/
theorem mainParameters_eq {int : Text → Option ℤ} {env : Text → Option Text}
    (henv : DefaultSettings env) (commit : Text) (configHashes : OrderedDict Text Text)
    (rateLimits : Json) :
    mainParameters int env commit configHashes rateLimits =
      some (.object (campaignParameters scheduleSeed syncTimelineLimit syncTimeoutMs pairedBlocks
          concurrencyLevels commit configHashes rateLimits ++
        [("workloads".toList, .array [.string latencyWorkload, .string throughputWorkload])])) := by
  have hint : ∀ name ∈ ["FAM_E3_SCHEDULE_SEED".toList, "FAM_E3_TIMELINE_LIMIT".toList,
      "FAM_E3_SYNC_TIMEOUT_MS".toList, "FAM_E3_BLOCKS".toList, "FAM_E3_WORKLOADS".toList],
      ∀ default, envInt int env name default = some default :=
    fun name hname default => if_pos (henv name hname)
  have hworkloads : workloadsOf env = [latencyWorkload, throughputWorkload] :=
    if_pos (henv _ (by decide))
  unfold mainParameters
  rw [hint _ (by decide), hint _ (by decide), hint _ (by decide), hint _ (by decide), hworkloads]
  rfl

theorem byteText_injective : Function.Injective byteText := by
  refine List.map_injective_iff.mpr fun a b h => UInt8.toNat_inj.mp ?_
  have htoNat : ∀ c : UInt8, (Char.ofNat c.toNat).toNat = c.toNat := by
    intro c
    have hc := c.toNat_lt
    rw [Char.toNat_ofNat, if_pos (.inl (by omega))]
  rw [← htoNat a, ← htoNat b]
  exact congrArg Char.toNat h

end Benchmark
end FederatedMessaging
