import FederatedMessaging.Benchmark.LedgerEvidence
import FederatedMessaging.Benchmark.ProtocolLock

/-!
# The gate in front of a formal run

`fam.common.lock` compares what a run is about to do with the lock that was committed before the
campaign, and stops the run where they differ.

## 1.  The comparison

`compare` goes over the keys of both dictionaries.  It finds nothing exactly when each has every
key of the other with the same value, as Python compares values: `1`, `1.0` and `True` are the
same (`compare_eq_nil_iff`).  The parameters of the code itself agree with the code
(`compare_frozenParameters`), so a lock that was generated and not touched since is accepted.

## 2.  The gate

A development run passes whatever the lock says.  A publication run passes exactly when the lock
agrees, no setting that is watched is made, the host is the one that is named, and someone looked
at the worktree and found it clean (`enforce_eq_ok_iff`).

A float is the number that is written: two spellings of one float that are not one number count
as different.  The frozen parameters of a lock are taken to be an object.
-/

namespace FederatedMessaging
namespace Benchmark

open PythonText Json Analysis

/-! ## 1.  Equal values -/

/-- The number a value is: Python counts `True` as one. -/
def numberOf : Json → Option ℚ
  | .word .true => some 1
  | .word .false => some 0
  | .int n => some n
  | .float numeral =>
    let digits : ℚ := digitsValue (numeral.whole ++ numeral.fraction)
    some ((if numeral.negative then -digits else digits) *
      (10 : ℚ) ^ (numeral.exponentValue - numeral.fraction.length))
  | _ => none

mutual

/-- `x == y`. -/
def equal : Json → Json → Bool
  | .array items, .array items' => equalItems items items'
  | .object members, .object members' =>
    members.length = members'.length && equalMembers members members'
  | .string s, .string t => s = t
  | .word .null, .word .null => true
  | .word .infinity, .word .infinity => true
  | .word .negativeInfinity, .word .negativeInfinity => true
  | x, y => (numberOf x).isSome && numberOf x = numberOf y

/-- Two lists, item by item. -/
def equalItems : List Json → List Json → Bool
  | [], [] => true
  | x :: items, y :: items' => equal x y && equalItems items items'
  | _, _ => false

/-- Every member of the one dictionary is in the other. -/
def equalMembers : List (Text × Json) → List (Text × Json) → Bool
  | [], _ => true
  | (key, x) :: members, members' =>
    (match members'.lookup key with
      | some y => equal x y
      | none => false) && equalMembers members members'

end

/-! ## 2.  The comparison -/

/-- `frozen_parameters`. -/
def frozenParameters : List (Text × Json) :=
  [("protocol_version".toList, .string "1.2".toList),
    ("analysis_spec_version".toList, .string "1.2".toList),
    ("raw_schema_version".toList, .string "2".toList),
    ("manifest_schema_version".toList, .string "1".toList),
    ("room_version".toList, .string "12".toList),
    ("room_encryption_enabled".toList, .word .false),
    ("interaction_timeout_seconds".toList, seconds "10".toList),
    ("message_body_bytes".toList, .int 256),
    ("message_padding_character".toList, .string "x".toList),
    ("e0_runs".toList, .int 3), ("e0_requests_per_phase".toList, .int 20),
    ("e1_runs".toList, .int 3), ("e1_requests_per_class".toList, .int 20),
    ("e1_quiet_interval_seconds".toList, seconds "2".toList),
    ("e2_runs".toList, .int 3), ("e2_offline_requests".toList, .int 100),
    ("e2_sync_timeline_limit".toList, .int 10),
    ("e3_latency_max_in_flight".toList, .int latencyMaxInFlight),
    ("e3_latency_warmup_interactions".toList, .int 50),
    ("e3_latency_measured_interactions".toList, .int 500),
    ("e3_concurrency_levels".toList, .array (concurrencyLevels.map .int)),
    ("e3_warmup_seconds".toList, seconds "10".toList),
    ("e3_measurement_seconds".toList, seconds "60".toList),
    ("e3_drain_seconds".toList, seconds "10".toList),
    ("e3_paired_blocks".toList, .int pairedBlocks),
    ("e3_inter_run_idle_seconds".toList, seconds "5".toList),
    ("e3_agent_settle_seconds".toList, seconds "2".toList),
    ("e3_sync_timeline_limit".toList, .int syncTimelineLimit),
    ("e3_sync_timeout_ms".toList, .int syncTimeoutMs),
    ("e3_schedule_seed".toList, .int scheduleSeed),
    ("e3_bootstrap_seed".toList, .int 20260905),
    ("e3_bootstrap_replicates".toList, .int 2000),
    ("e3_bootstrap_confidence".toList, .float ⟨false, ['0'], "95".toList, []⟩)]

/-- `sorted(set(locked) | set(effective))`. -/
def allKeys (locked effective : List (Text × Json)) : List Text :=
  ((locked.map Prod.fst ++ effective.map Prod.fst).dedup).insertionSort fun k l => k ≤ l

section Lock

variable (repr : Json → Text)

/-- The body of the loop of `compare`. -/
def keyProblem (locked effective : List (Text × Json)) (key : Text) : Option Text :=
  match locked.lookup key, effective.lookup key with
  | none, some value => some (key ++ ": not in the lock, code has ".toList ++ repr value)
  | some value, none => some (key ++ ": locked as ".toList ++ repr value ++
      ", code no longer defines it".toList)
  | some value, some value' =>
    if equal value value' then none
    else some (key ++ ": locked ".toList ++ repr value ++ ", effective ".toList ++ repr value')
  | none, none => none

/-- `compare`, on the frozen parameters of a lock. -/
def compare (locked : List (Text × Json)) : List Text :=
  (allKeys locked frozenParameters).filterMap (keyProblem repr locked frozenParameters)

/-! ## 3.  The gate -/

/-- The settings that `runtime_overrides` looks at. -/
def watched : List Text :=
  ["FAM_E2_TIMELINE_LIMIT".toList, "FAM_E3_TIMELINE_LIMIT".toList,
    "FAM_E3_SYNC_TIMEOUT_MS".toList, "FAM_E3_BLOCKS".toList, "FAM_E3_WORKLOADS".toList,
    "FAM_E3_BOOTSTRAP_REPLICATES".toList, "FAM_E3_CONCURRENCY".toList,
    "FAM_E3_SCHEDULE_SEED".toList, "FAM_E3_BOOTSTRAP_SEED".toList, "FAM_LLM_MAX_TOKENS".toList,
    "FAM_LLM_SYSTEM_PROMPT".toList]

/-- `runtime_overrides`. -/
def runtimeOverrides (env : Text → Option Text) : List Text :=
  watched.filter fun name => environText env name ≠ []

/-- The problem with the settings. -/
def overrideProblems (env : Text → Option Text) : List Text :=
  if runtimeOverrides env = [] then []
  else ["environment overrides set during a publication run: ".toList ++
    ", ".toList.intercalate (runtimeOverrides env)]

/-- The problem with the host. -/
def hostProblems (env : Text → Option Text) (lockedHost : Json) : List Text :=
  let runningHost := environText env "FAM_EXECUTION_HOST".toList
  if lockedHost.truthy then
    if runningHost = [] then
      ["the lock names host ".toList ++ repr lockedHost ++ " but FAM_EXECUTION_HOST is ".toList ++
        "unset, so this run cannot confirm which host it is on".toList]
    else if isString runningHost lockedHost then []
    else ["host ".toList ++ repr (.string runningHost) ++
      " is not the locked formal host ".toList ++ repr lockedHost]
  else []

/-- The problem with the worktree. -/
def worktreeProblems (env : Text → Option Text) : List Text :=
  match env "FAM_WORKTREE_STATUS".toList with
  | none => ["FAM_WORKTREE_STATUS is unset, so this run cannot confirm the ".toList ++
      "worktree is clean".toList]
  | some status => if strip status = [] then [] else ["the worktree is not clean".toList]

/-- Why a run is stopped. -/
inductive LockFailure where
  /-- `ProtocolLockError` -/
  | stopped (text : Text)
  /-- the lock is not an object of objects -/
  | malformed
  deriving DecidableEq

/-- `value.get(key, {})`, where it is an object. -/
def sectionOf (value : Json) (key : Text) : Except LockFailure (List (Text × Json)) :=
  match value with
  | .object members =>
    match (members.lookup key).getD (.object []) with
    | .object fields => .ok fields
    | _ => .error .malformed
  | _ => .error .malformed

/-- `enforce`, on what `load` returns; `path` is where it looked. -/
def enforce (path : Text) (env : Text → Option Text) (publicationData : Bool) (experiment : Text)
    (loaded : Option Json) : Except LockFailure (Option Json) :=
  if publicationData then
    match loaded with
    | none => .error (.stopped (experiment ++
        ": publication_data is true but no protocol lock was found at ".toList ++ path ++
        ". Formal collection runs under a lock (experimental-protocol.md §46).".toList))
    | some document => do
      let locked ← sectionOf document "frozen_parameters".toList
      let environment ← sectionOf document "environment".toList
      let problems := compare repr locked ++ overrideProblems env ++
        hostProblems repr env
          (memberOrNone environment "formal_run_host_identifier".toList) ++ worktreeProblems env
      if problems = [] then pure (some document)
      else .error (.stopped (experiment ++ ": protocol lock mismatch — ".toList ++
        "; ".toList.intercalate problems))
  else .ok loaded

end Lock

/-! ## 4.  What passes -/

/-- The two dictionaries have the same keys, with equal values. -/
def AgreesWith (locked effective : List (Text × Json)) : Prop :=
  ∀ key, Option.Rel (fun x y => equal x y = true) (locked.lookup key) (effective.lookup key)

/-- **A lock that a formal run may go on under**: the code agrees with it, no setting that is
watched is made, the host is the one that is named, and the worktree was found to be clean. -/
structure Permits (env : Text → Option Text) (document : Json) : Prop where
  parameters : ∃ locked, sectionOf document "frozen_parameters".toList = .ok locked ∧
    AgreesWith locked frozenParameters
  settings : ∀ name ∈ watched, environText env name = []
  host : ∃ environment, sectionOf document "environment".toList = .ok environment ∧
    ((memberOrNone environment "formal_run_host_identifier".toList).truthy = true →
      memberOrNone environment "formal_run_host_identifier".toList =
        .string (environText env "FAM_EXECUTION_HOST".toList))
  worktree : ∃ status, env "FAM_WORKTREE_STATUS".toList = some status ∧ strip status = []

section Passes

variable {repr : Json → Text} {env : Text → Option Text}

theorem mem_allKeys {locked effective : List (Text × Json)} {key : Text} :
    key ∈ allKeys locked effective ↔ key ∈ locked.map Prod.fst ∨ key ∈ effective.map Prod.fst := by
  rw [allKeys, List.mem_insertionSort, List.mem_dedup, List.mem_append]

theorem lookup_eq_none_of_notMem {members : List (Text × Json)} {key : Text}
    (h : key ∉ members.map Prod.fst) : members.lookup key = none := by
  rw [List.lookup_eq_none_iff]
  intro m hm
  rw [bne_iff_ne]
  rintro rfl
  exact h (List.mem_map_of_mem hm)

theorem keyProblem_eq_none_iff {locked effective : List (Text × Json)} {key : Text} :
    keyProblem repr locked effective key = none ↔
      Option.Rel (fun x y => equal x y = true) (locked.lookup key) (effective.lookup key) := by
  unfold keyProblem
  cases locked.lookup key with
  | none =>
    cases effective.lookup key with
    | none => exact iff_of_true rfl .none
    | some y =>
      refine iff_of_false (Option.some_ne_none _) fun h => ?_
      cases h
  | some x =>
    cases effective.lookup key with
    | none =>
      refine iff_of_false (Option.some_ne_none _) fun h => ?_
      cases h
    | some y =>
      dsimp only
      split
      · rename_i heq
        exact iff_of_true rfl (.some heq)
      · rename_i hne
        refine iff_of_false (Option.some_ne_none _) fun h => ?_
        cases h with
        | some heq => exact hne heq

/-- **The comparison finds nothing** exactly when the two dictionaries agree. -/
theorem compare_eq_nil_iff {locked : List (Text × Json)} :
    compare repr locked = [] ↔ AgreesWith locked frozenParameters := by
  unfold compare AgreesWith
  rw [List.filterMap_eq_nil_iff]
  constructor
  · intro h key
    by_cases hkey : key ∈ allKeys locked frozenParameters
    · exact keyProblem_eq_none_iff.mp (h key hkey)
    · rw [mem_allKeys, not_or] at hkey
      rw [lookup_eq_none_of_notMem hkey.1, lookup_eq_none_of_notMem hkey.2]
      exact .none
  · exact fun h key _ => keyProblem_eq_none_iff.mpr (h key)

theorem overrideProblems_eq_nil_iff :
    overrideProblems env = [] ↔ ∀ name ∈ watched, environText env name = [] := by
  have hnone : runtimeOverrides env = [] ↔ ∀ name ∈ watched, environText env name = [] := by
    rw [runtimeOverrides, List.filter_eq_nil_iff]
    simp only [decide_eq_true_iff, not_not]
  rw [← hnone, overrideProblems]
  split
  · rename_i h
    exact iff_of_true rfl h
  · rename_i h
    exact iff_of_false (List.cons_ne_nil _ _) h

theorem hostProblems_eq_nil_iff {lockedHost : Json} :
    hostProblems repr env lockedHost = [] ↔ (lockedHost.truthy = true →
      lockedHost = .string (environText env "FAM_EXECUTION_HOST".toList)) := by
  unfold hostProblems
  dsimp only
  split
  · rename_i htruthy
    rw [forall_prop_of_true htruthy]
    split
    · rename_i hunset
      refine iff_of_false (List.cons_ne_nil _ _) fun h => ?_
      rw [h, hunset] at htruthy
      exact absurd htruthy (by decide)
    · split
      · rename_i hsame
        exact iff_of_true rfl (isString_iff.mp hsame)
      · rename_i hother
        exact iff_of_false (List.cons_ne_nil _ _) fun h => hother (isString_iff.mpr h)
  · rename_i hfalse
    exact iff_of_true rfl fun h => absurd h hfalse

theorem worktreeProblems_eq_nil_iff :
    worktreeProblems env = [] ↔
      ∃ status, env "FAM_WORKTREE_STATUS".toList = some status ∧ strip status = [] := by
  unfold worktreeProblems
  cases env "FAM_WORKTREE_STATUS".toList with
  | none =>
    refine iff_of_false (List.cons_ne_nil _ _) ?_
    rintro ⟨status, hstatus, -⟩
    cases hstatus
  | some status =>
    dsimp only
    split
    · rename_i hclean
      exact iff_of_true rfl ⟨status, rfl, hclean⟩
    · rename_i hdirty
      refine iff_of_false (List.cons_ne_nil _ _) ?_
      rintro ⟨status', hstatus, hclean⟩
      obtain rfl := Option.some_inj.mp hstatus
      exact hdirty hclean

/-- **A formal run goes on** exactly when there is a lock, and it permits the run. -/
theorem enforce_eq_ok_iff {path experiment : Text} {loaded : Option Json} {admitted : Option Json} :
    enforce repr path env true experiment loaded = .ok admitted ↔
      ∃ document, loaded = some document ∧ admitted = some document ∧ Permits env document := by
  cases loaded with
  | none =>
    refine iff_of_false (fun h => ?_) ?_
    · cases h
    · rintro ⟨document, h, -⟩
      cases h
  | some document =>
    constructor
    · intro h
      obtain ⟨locked, hlocked, h⟩ := Fallible.exists_of_bind h
      obtain ⟨environment, henvironment, h⟩ := Fallible.exists_of_bind h
      dsimp only at h
      split at h
      · rename_i hnone
        rw [List.append_eq_nil_iff, List.append_eq_nil_iff, List.append_eq_nil_iff] at hnone
        obtain ⟨⟨⟨hcompare, hsettings⟩, hhost⟩, hworktree⟩ := hnone
        exact ⟨document, rfl, (Except.ok.inj h).symm,
          ⟨locked, hlocked, compare_eq_nil_iff.mp hcompare⟩,
          overrideProblems_eq_nil_iff.mp hsettings,
          ⟨environment, henvironment, hostProblems_eq_nil_iff.mp hhost⟩,
          worktreeProblems_eq_nil_iff.mp hworktree⟩
      · cases h
    · rintro ⟨document', hdocument, rfl, hpermits⟩
      obtain rfl := Option.some_inj.mp hdocument
      obtain ⟨locked, hlocked, hagrees⟩ := hpermits.parameters
      obtain ⟨environment, henvironment, hhost⟩ := hpermits.host
      refine (Fallible.bind_of_eq_ok hlocked _).trans
        ((Fallible.bind_of_eq_ok henvironment _).trans (if_pos ?_))
      rw [compare_eq_nil_iff.mpr hagrees, overrideProblems_eq_nil_iff.mpr hpermits.settings,
        hostProblems_eq_nil_iff.mpr hhost, worktreeProblems_eq_nil_iff.mpr hpermits.worktree]
      rfl

/-- What a lock is generated with agrees with the code. -/
theorem compare_frozenParameters : compare repr frozenParameters = [] := by
  have hall : ∀ key ∈ frozenParameters.map Prod.fst,
      ∃ x ∈ frozenParameters.lookup key, equal x x = true := by decide +kernel
  rw [compare_eq_nil_iff]
  intro key
  by_cases hkey : key ∈ frozenParameters.map Prod.fst
  · obtain ⟨x, hx, hequal⟩ := hall key hkey
    rw [Option.mem_def.mp hx]
    exact .some hequal
  · rw [lookup_eq_none_of_notMem hkey]
    exact .none

end Passes

end Benchmark
end FederatedMessaging
