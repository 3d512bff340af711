import FederatedMessaging.Benchmark.CompletedEvidence
import FederatedMessaging.Benchmark.LockGate
import FederatedMessaging.Foundations.CutOff

/-!
# What a formal campaign records

`experiments/e3_benchmark.py` is run again and again over one directory of results: to develop, to
collect, and to go on after a crash.  Each time it asks the gate, puts its parameters together from
the environment and the environment manifest, opens the ledger that they name, and works through
what is pending.

## 1.  Invocations

`invoke` is one invocation, from the gate on, as a list of steps on the files; a history is a list
of invocations, each cut off after some number of steps (`applyHistory`).  The environment, the lock
and the environment manifest may be others each time.

## 2.  What a ledger may be

A ledger is absent, or a flush that was cut off and cannot be read, or holds a state of the
campaign that it is named after (`LedgerAt`).  A development run and a formal run never share a
ledger, and only the invocation that opened it writes it; where the first sixteen digits of two
fingerprints are the same, the second campaign is refused.

## 3.  What a formal ledger records

The gate lets a formal run pass only if no setting changes its schedule (`schedule_of_begin`).  So
whatever is read from a formal ledger, at any time and after any history, is a beginning of the one
frozen schedule (`formal_ledger_prefix`), and an invocation that is not cut off and whose evidence
verifies records all of it (`formal_ledger_complete`).
-/

namespace FederatedMessaging
namespace Benchmark

open PythonText Json Analysis CutOff

/-! ## 1.  Settings -/

/-- `publication_data`. -/
def publicationDataOf (env : Text → Option Text) : Bool :=
  lower (strip ((env "FAM_PUBLICATION_DATA".toList).getD "false".toList)) = "true".toList

/-- `protocol_git_commit`. -/
def protocolGitCommit (env : Text → Option Text) : Text :=
  (env "FAM_PROTOCOL_GIT_COMMIT".toList).getD "unknown".toList

/-- The environment manifest, as far as it is used. -/
structure EnvironmentManifest where
  configHashes : OrderedDict Text Text
  sanitizedConfig : OrderedDict Text (OrderedDict Text Digests.Document)

/-- `_rate_limits_from`. -/
def rateLimitsFrom (manifest : EnvironmentManifest) : Json :=
  .object (manifest.sanitizedConfig.entries.map fun domain =>
    (domain.1, .object ((domain.2.entries.filter fun setting =>
      "rc_".toList.isPrefixOf setting.1).map fun setting => (setting.1, setting.2.value))))

/-- **What all invocations have in common.**  A digest is hexadecimal, and `int` does not read
more digits than `json` writes. -/
structure Site where
  root : PosixPath
  lockPath : Text
  sha256 : List UInt8 → Text
  sha256_slash : ∀ bytes, '/' ∉ sha256 bytes
  sha256_dot : ∀ bytes, '.' ∉ sha256 bytes
  repr : Json → Text
  random : Shuffles
  int : Text → Option ℤ
  int_short : ∀ t n, int t = some n → (Nat.toDigits 10 n.natAbs).length ≤ maxStrDigits

/-- What one invocation meets.  `lock` is what `load` returns, and `environment` is none where
there is no environment manifest. -/
structure Invocation where
  env : Text → Option Text
  lock : Option Json
  environment : Option EnvironmentManifest
  outside : Outside

/-- The schedule of the frozen values. -/
def frozenSchedule (random : Shuffles) : List ScheduledRun :=
  generateCampaignSchedule random scheduleSeed pairedBlocks.toNat concurrencyLevels
    [latencyWorkload, throughputWorkload]

theorem nodup_concurrencyLevels : concurrencyLevels.Nodup := by decide

/-- What is printed can be read. -/
theorem valid_rateLimitsFrom (manifest : EnvironmentManifest) :
    (rateLimitsFrom manifest).Valid := by
  refine valid_object ?_ fun m hm => ?_
  · rw [List.map_map]
    exact manifest.sanitizedConfig.nodup_keys
  · obtain ⟨domain, -, rfl⟩ := List.mem_map.mp hm
    refine valid_object ?_ fun m hm => ?_
    · rw [List.map_map]
      exact domain.2.nodup_keys.sublist (List.filter_sublist.map _)
    · obtain ⟨setting, -, rfl⟩ := List.mem_map.mp hm
      exact setting.2.valid

/-- Any settings that `int` reads. -/
theorem valid_members_campaignParameters {seed syncLimit syncTimeout blocks : ℤ}
    (hseed : (Json.int seed).Valid) (hlimit : (Json.int syncLimit).Valid)
    (htimeout : (Json.int syncTimeout).Valid) (hblocks : (Json.int blocks).Valid) (commit : Text)
    (configHashes : OrderedDict Text Text) {rateLimits : Json} (hlimits : rateLimits.Valid) :
    ∀ m ∈ campaignParameters seed syncLimit syncTimeout blocks concurrencyLevels commit
      configHashes rateLimits, m.2.Valid := by
  have hfrozen := valid_campaignParameters commit configHashes hlimits
  unfold campaignParameters at hfrozen ⊢
  simp only [List.forall_mem_cons, List.not_mem_nil, false_implies, implies_true, and_true]
    at hfrozen ⊢
  tauto

namespace Site

variable (site : Site)

theorem valid_of_envInt {env : Text → Option Text} {name : Text} {default n : ℤ}
    (hdefault : (Json.int default).Valid) (h : envInt site.int env name default = some n) :
    (Json.int n).Valid := by
  unfold envInt at h
  split_ifs at h
  · obtain rfl := Option.some_inj.mp h
    exact hdefault
  · exact valid_int (site.int_short _ _ h)

/-- **The parameters of an invocation can be written.** -/
theorem valid_of_mainParameters {env : Text → Option Text} {commit : Text}
    {configHashes : OrderedDict Text Text} {rateLimits : Json} (hlimits : rateLimits.Valid)
    (parameters : Json)
    (h : mainParameters site.int env commit configHashes rateLimits = some parameters) :
    parameters.Valid := by
  unfold mainParameters at h
  obtain ⟨seed, hseed, h⟩ := Option.bind_eq_some_iff.mp h
  obtain ⟨syncLimit, hlimit, h⟩ := Option.bind_eq_some_iff.mp h
  obtain ⟨syncTimeout, htimeout, h⟩ := Option.bind_eq_some_iff.mp h
  obtain ⟨blocks, hblocks, h⟩ := Option.bind_eq_some_iff.mp h
  obtain rfl := Option.some_inj.mp h
  have hint : ∀ n ∈ [scheduleSeed, syncTimelineLimit, syncTimeoutMs, pairedBlocks],
      (Json.int n).Valid := by
    intro n hn
    refine valid_int ?_
    revert n
    decide
  have hmembers := valid_members_campaignParameters
    (site.valid_of_envInt (hint _ (by decide)) hseed)
    (site.valid_of_envInt (hint _ (by decide)) hlimit)
    (site.valid_of_envInt (hint _ (by decide)) htimeout)
    (site.valid_of_envInt (hint _ (by decide)) hblocks) commit configHashes hlimits
  refine valid_object ?_ fun m hm => ?_
  · simp only [campaignParameters, List.map_append, List.map_cons, List.map_nil]
    decide
  · rcases List.mem_append.mp hm with hm | hm
    · exact hmembers m hm
    · obtain rfl := List.mem_singleton.mp hm
      refine valid_array fun x hx => ?_
      obtain ⟨workload, -, rfl⟩ := List.mem_map.mp hx
      exact valid_string workload

/-- `parameters`. -/
def parameters (env : Text → Option Text) (manifest : EnvironmentManifest) :
    Option Digests.Document :=
  (mainParameters site.int env (protocolGitCommit env) manifest.configHashes
    (rateLimitsFrom manifest)).pmap Digests.Document.mk
      (site.valid_of_mainParameters (valid_rateLimitsFrom manifest))

/-- The campaign that the settings name, or none where a setting is no number. -/
def setup (env : Text → Option Text) (manifest : EnvironmentManifest) : Option CampaignSetup := do
  let seed ← envInt site.int env "FAM_E3_SCHEDULE_SEED".toList scheduleSeed
  let blocks ← envInt site.int env "FAM_E3_BLOCKS".toList pairedBlocks
  let parameters ← site.parameters env manifest
  pure
    { root := site.root
      sha256 := site.sha256
      sha256_slash := site.sha256_slash
      parameters := parameters
      publicationData := publicationDataOf env
      random := site.random
      seed := seed
      blocks := blocks.toNat
      levels := concurrencyLevels
      levels_nodup := nodup_concurrencyLevels
      workloads := workloadsOf env }

/-- `main_async`, until the ledger is opened: none where it stops or raises before. -/
def begin (invocation : Invocation) : Option CampaignSetup :=
  match enforce site.repr site.lockPath invocation.env (publicationDataOf invocation.env)
      "E3".toList invocation.lock with
  | .error _ => none
  | .ok _ => invocation.environment.bind (site.setup invocation.env)

/-- `main_async`: what an invocation does to the files when nothing cuts it off. -/
def invoke (invocation : Invocation) (disk : Disk) : List FileOp :=
  ((site.begin invocation).map fun setup => setup.mainAsync invocation.outside disk).getD []

/-- **A history**: invocations, each cut off after a number of steps. -/
def applyHistory (disk : Disk) (entries : List (Invocation × ℕ)) : Disk :=
  history FileOp.apply site.invoke disk entries

end Site

/-! ## 2.  What a ledger may be -/

section Ledgers

/-- The ledger of a campaign. -/
def ledgerPlaceOf (root : PosixPath) (campaignId : Text) : Place :=
  located ((root.joinpath "campaigns".toList).joinpath (campaignId ++ ".json".toList))

/-- Some bytes are read as a state, under its own fingerprint and no other. -/
def Carries (bytes : List UInt8) (state : CampaignState) : Prop :=
  ∀ digest, readLedger digest bytes =
    if digest = state.fingerprint then .ok state else .error .otherFingerprint

/-- **What stands where a ledger belongs.** -/
inductive LedgerAt (sha256 : List UInt8 → Text) (frozen : List ScheduledRun) (formal : Bool)
    (campaignId : Text) : Option Node → Prop
  | absent : LedgerAt sha256 frozen formal campaignId none
  /-- a flush that was cut off -/
  | damaged (bytes : List UInt8) (h : ∀ digest, readLedger digest bytes = .error .unreadable) :
    LedgerAt sha256 frozen formal campaignId (some (.file bytes))
  | readable (bytes : List UInt8) (state : CampaignState) (parameters : Digests.Document)
    (sound : Sound sha256 parameters.value formal state) (named : state.campaignId = campaignId)
    (begins : formal = true → state.completed.keys <+: frozen.map ScheduledRun.key)
    (carries : Carries bytes state) : LedgerAt sha256 frozen formal campaignId (some (.file bytes))

/-- **Every ledger is one of its campaign.** -/
def Orderly (root : PosixPath) (sha256 : List UInt8 → Text) (frozen : List ScheduledRun)
    (disk : Disk) : Prop :=
  ∀ (parameters : Digests.Document) (formal : Bool),
    LedgerAt sha256 frozen formal (campaignIdOf sha256 parameters.value formal)
      (disk (ledgerPlaceOf root (campaignIdOf sha256 parameters.value formal)))

variable {sha256 : List UInt8 → Text} {root : PosixPath} {frozen : List ScheduledRun}

/-- Another fingerprint is refused. -/
theorem carries_of_loads {parameters : Json} {publicationData : Bool} {state : CampaignState}
    (h : Sound sha256 parameters publicationData state) {bytes : List UInt8} {t : Text}
    (hdecode : Utf8.decode bytes = some t)
    (hloads : loads (universalNewlines t) = .ok state.payload) : Carries bytes state := by
  intro digest
  by_cases hdigest : digest = state.fingerprint
  · rw [if_pos hdigest, hdigest, h.fingerprint_eq]
    exact readLedger_eq h hdecode hloads
  · have hother : ¬ isString digest (.string state.fingerprint) = true := by
      rw [isString_iff, Json.string.injEq]
      exact fun heq => hdigest heq.symm
    rw [if_neg hdigest, readLedger, hdecode]
    dsimp only
    rw [hloads]
    exact if_neg hother

/-- A flush that lacks at most its line break. -/
theorem carries_take_of_le {parameters : Digests.Document} {publicationData : Bool}
    {state : CampaignState} (h : Sound sha256 parameters.value publicationData state) {n : ℕ}
    (hn : (Utf8.encode (dumps .indented state.payload)).length ≤ n) :
    Carries (state.bytes.take n) state := by
  have hvalid := h.valid_payload parameters.valid
  obtain ⟨w, hw, hreturn, htake⟩ := take_bytes_of_le hn
  rw [htake]
  refine carries_of_loads h (Utf8.decode_encode _) ?_
  rw [universalNewlines_eq_self, loads_dumps_append .indented hvalid hw]
  rw [List.mem_append, not_or]
  exact ⟨notMem_dumps_indented hvalid, hreturn⟩

theorem carries_bytes {parameters : Digests.Document} {publicationData : Bool}
    {state : CampaignState} (h : Sound sha256 parameters.value publicationData state) :
    Carries state.bytes state := by
  have hlength : (Utf8.encode (dumps .indented state.payload)).length ≤ state.bytes.length := by
    unfold CampaignState.bytes
    rw [Utf8.encode_append, List.length_append]
    omega
  have hwhole := carries_take_of_le h hlength
  rwa [List.take_length] at hwhole

/-- **A flush that is cut off** leaves what cannot be read, or what is read as the whole. -/
theorem damaged_or_carries {parameters : Digests.Document} {publicationData : Bool}
    {state : CampaignState} (h : Sound sha256 parameters.value publicationData state) (n : ℕ) :
    (∀ digest, readLedger digest (state.bytes.take n) = .error .unreadable) ∨
      Carries (state.bytes.take n) state := by
  rcases Nat.lt_or_ge n (Utf8.encode (dumps .indented state.payload)).length with hn | hn
  · exact .inl (readLedger_take_of_lt (h.valid_payload parameters.valid) hn)
  · exact .inr (carries_take_of_le h hn)

theorem ledgerAt_take {parameters : Digests.Document} {formal : Bool} {state : CampaignState}
    (h : Sound sha256 parameters.value formal state)
    (hbegins : formal = true → state.completed.keys <+: frozen.map ScheduledRun.key) (n : ℕ) :
    LedgerAt sha256 frozen formal state.campaignId (some (.file (state.bytes.take n))) := by
  rcases damaged_or_carries h n with hdamaged | hcarries
  · exact .damaged _ hdamaged
  · exact .readable _ state parameters h rfl hbegins hcarries

/-! ### Names -/

/-- **A development campaign never has the name of a formal one.** -/
theorem formal_eq_of_campaignIdOf_eq {x y : Json} {formal formal' : Bool}
    (h : campaignIdOf sha256 x formal = campaignIdOf sha256 y formal') : formal = formal' := by
  have hhead : ∀ (z : Json) (b : Bool),
      (campaignIdOf sha256 z b).head? = some (if b then 'f' else 'e') := by
    intro z b
    cases b <;> rfl
  have heq := (hhead x formal).symm.trans ((congrArg List.head? h).trans (hhead y formal'))
  revert heq
  cases formal <;> cases formal' <;> decide

/-- Signs that no digest has are in no name. -/
theorem notMem_campaignIdOf {c : Char} (hc : c ∈ ['/', '.']) (hsha : ∀ bytes, c ∉ sha256 bytes)
    (x : Json) (formal : Bool) : c ∉ campaignIdOf sha256 x formal := by
  have hslash : ∀ formal : Bool,
      '/' ∉ (if formal then "fam-formal".toList else "e3dev".toList) := by decide
  have hdot : ∀ formal : Bool,
      '.' ∉ (if formal then "fam-formal".toList else "e3dev".toList) := by decide
  unfold campaignIdOf
  rw [List.mem_append, List.mem_cons, not_or, not_or]
  refine ⟨?_, ?_, fun hmem => hsha _ (List.mem_of_mem_take hmem)⟩
  · rcases List.mem_pair.mp hc with rfl | rfl
    · exact hslash formal
    · exact hdot formal
  · rintro rfl
    exact absurd hc (by decide)

theorem ledgerPlaceOf_eq {campaignId : Text} (h : '/' ∉ campaignId) :
    ledgerPlaceOf root campaignId =
      located root ++ ["campaigns".toList, campaignId ++ ".json".toList] := by
  unfold ledgerPlaceOf
  rw [located_suffix h (by decide) (by decide), located_joinpath (by decide) (by decide),
    List.append_assoc]
  rfl

theorem ledgerPlaceOf_injective {campaignId campaignId' : Text} (h : '/' ∉ campaignId)
    (h' : '/' ∉ campaignId')
    (heq : ledgerPlaceOf root campaignId = ledgerPlaceOf root campaignId') :
    campaignId = campaignId' := by
  rw [ledgerPlaceOf_eq h, ledgerPlaceOf_eq h'] at heq
  have hname := (List.cons.inj (List.cons.inj (List.append_cancel_left heq)).2).1
  exact List.append_cancel_right hname

/-! ### Steps that keep the ledgers in order -/

/-- **Other files are written.** -/
theorem Orderly.elsewhere {disk : Disk} (h : Orderly root sha256 frozen disk) {ops : List FileOp}
    (hops : ∀ op ∈ ops, ∀ (parameters : Digests.Document) (formal : Bool),
      op.place ≠ ledgerPlaceOf root (campaignIdOf sha256 parameters.value formal)) :
    Throughout FileOp.apply (Orderly root sha256 frozen) disk ops := by
  intro cut hcut parameters formal
  change LedgerAt _ _ _ _ (applyAll disk cut _)
  rw [CampaignSetup.applyAll_of_ne fun op hop => hops op (hcut.subset hop) parameters formal]
  exact h parameters formal

/-- **A ledger is flushed.** -/
theorem Orderly.flush {disk : Disk} (h : Orderly root sha256 frozen disk)
    (hsha : ∀ bytes, '/' ∉ sha256 bytes) {parameters : Digests.Document} {formal : Bool}
    {state : CampaignState} (hsound : Sound sha256 parameters.value formal state)
    (hbegins : formal = true → state.completed.keys <+: frozen.map ScheduledRun.key) :
    Throughout FileOp.apply (Orderly root sha256 frozen) disk
      (writeText (ledgerPlaceOf root state.campaignId) state.bytes) := by
  intro cut hcut
  by_cases hne : cut = []
  · rw [hne]
    exact h
  intro parameters' formal'
  have hslash := notMem_campaignIdOf (by decide) hsha
  have hid := hsound.campaignId_eq
  by_cases hsame : campaignIdOf sha256 parameters'.value formal' = state.campaignId
  · -- the ledger that is written
    obtain rfl := formal_eq_of_campaignIdOf_eq (hsame.trans hid)
    obtain ⟨n, hfile⟩ := CampaignSetup.exists_applyAll_writeText hcut hne disk
    change LedgerAt _ _ _ _ (applyAll disk cut _)
    rw [hsame, hfile]
    exact ledgerAt_take hsound hbegins n
  · have hother : ledgerPlaceOf root state.campaignId ≠
        ledgerPlaceOf root (campaignIdOf sha256 parameters'.value formal') := by
      intro heq
      refine hsame (ledgerPlaceOf_injective ?_ (hslash _ _) heq).symm
      rw [hid]
      exact hslash _ _
    change LedgerAt _ _ _ _ (applyAll disk cut _)
    rw [CampaignSetup.applyAll_of_ne fun op hop => ?_]
    · exact h parameters' formal'
    · obtain ⟨n, rfl⟩ := CampaignSetup.mem_writeText (hcut.subset hop)
      exact hother

end Ledgers

/-! ## 3.  One invocation -/

/-- **What is pending is the rest**, where what is recorded is a beginning. -/
theorem pending_eq_drop {schedule : List ScheduledRun}
    (hnodup : (schedule.map ScheduledRun.key).Nodup) {state : CampaignState} {n : ℕ}
    (h : state.completed.keys = (schedule.take n).map ScheduledRun.key) :
    pending schedule state = schedule.drop n := by
  have hdone : ∀ run, state.isDone run = true ↔ run.key ∈ (schedule.take n).map ScheduledRun.key :=
    fun run => h ▸ OrderedDict.contains_iff
  have hbefore : pending (schedule.take n) state = [] := by
    refine List.filter_eq_nil_iff.mpr fun run hrun => ?_
    rw [(hdone run).mpr (List.mem_map_of_mem hrun)]
    decide
  have hafter : pending (schedule.drop n) state = schedule.drop n := by
    refine List.filter_eq_self.mpr fun run hrun => ?_
    rw [← List.take_append_drop n schedule, List.map_append] at hnodup
    rw [Bool.not_eq_true', ← Bool.not_eq_true, hdone]
    exact fun hmem => (List.nodup_append.mp hnodup).2.2 _ hmem _ (List.mem_map_of_mem hrun) rfl
  calc pending schedule state
      = pending (schedule.take n ++ schedule.drop n) state := by rw [List.take_append_drop]
    _ = pending (schedule.take n) state ++ pending (schedule.drop n) state := List.filter_append _ _
    _ = schedule.drop n := by rw [hbefore, hafter, List.nil_append]

theorem exists_keys_eq {schedule : List ScheduledRun} {keys : List Text}
    (h : keys <+: schedule.map ScheduledRun.key) :
    ∃ n, keys = (schedule.take n).map ScheduledRun.key :=
  ⟨keys.length, by rw [List.map_take]; exact List.prefix_iff_eq_take.mp h⟩

/-- The key of a run that is next is put behind those that are recorded. -/
theorem keys_record {frozen : List Text} (hnodup : frozen.Nodup) {state : CampaignState}
    {run : ScheduledRun} {rest : List Text} (entry : LedgerEntry)
    (h : state.completed.keys ++ run.key :: rest = frozen) :
    (state.record run entry).completed.keys ++ rest = frozen := by
  have hnew : run.key ∉ state.completed.keys := by
    rw [← h] at hnodup
    exact fun hmem => (List.nodup_append.mp hnodup).2.2 _ hmem _ List.mem_cons_self rfl
  have hset : (state.record run entry).completed.keys = state.completed.keys ++ [run.key] :=
    OrderedDict.keys_set_of_notMem hnew _
  rw [hset, List.append_assoc]
  exact h

namespace CampaignSetup

section Invocation

variable {setup : CampaignSetup} {frozen : List ScheduledRun} {run : ScheduledRun}

theorem place_ne_ledgerPlaceOf (h : run ∈ setup.schedule) {place : Place}
    (hplace : place ∈ setup.evidencePlaces run) (parameters : Digests.Document) (formal : Bool) :
    place ≠ ledgerPlaceOf setup.root (campaignIdOf setup.sha256 parameters.value formal) := by
  obtain ⟨folder, suffix, -, hhead, hne, rfl⟩ := exists_of_mem_evidencePlaces h hplace
  rw [ledgerPlaceOf_eq (notMem_campaignIdOf (by decide) setup.sha256_slash _ _)]
  intro heq
  obtain ⟨first, others, rfl⟩ := List.exists_cons_of_ne_nil hne
  exact hhead (congrArg some (List.cons.inj (List.append_cancel_left heq)).1)

/-- The schedule of one campaign is not the ledger of another. -/
theorem schedulePlace_ne_ledgerPlaceOf (hdot : ∀ bytes, '.' ∉ setup.sha256 bytes)
    (parameters : Digests.Document) (formal : Bool) :
    setup.campaignsPlace (setup.campaignId ++ ".schedule.json".toList) ≠
      ledgerPlaceOf setup.root (campaignIdOf setup.sha256 parameters.value formal) := by
  rw [campaignsPlace_eq (by decide) (by decide),
    ledgerPlaceOf_eq (notMem_campaignIdOf (by decide) setup.sha256_slash _ _)]
  intro heq
  have hname := (List.cons.inj (List.cons.inj (List.append_cancel_left heq)).2).1
  have hparts : ".schedule.json".toList = ".schedule".toList ++ ".json".toList := by decide
  rw [hparts, ← List.append_assoc] at hname
  have hid := List.append_cancel_right hname
  refine notMem_campaignIdOf (by decide) hdot parameters.value formal ?_
  rw [← hid]
  exact List.mem_append_right _ (by decide)

/-- **The loop** keeps the ledgers in order. -/
theorem orderly_runLoop (hnodup : (frozen.map ScheduledRun.key).Nodup) {outside : Outside}
    {todo : List ScheduledRun} :
    ∀ {disk : Disk} {state : CampaignState} {parameters : Digests.Document},
      Orderly setup.root setup.sha256 frozen disk →
      Sound setup.sha256 parameters.value setup.publicationData state →
      state.campaignId = setup.campaignId → (∀ run ∈ todo, run ∈ setup.schedule) →
      (setup.publicationData = true →
        state.completed.keys ++ todo.map ScheduledRun.key = frozen.map ScheduledRun.key) →
      Throughout FileOp.apply (Orderly setup.root setup.sha256 frozen) disk (setup.runLoop outside state todo) := by
  induction todo with
  | nil => exact fun h _ _ _ _ => throughout_nil_iff.mpr h
  | cons run rest ih =>
    intro disk state parameters h hsound hid hscheduled hkeys
    obtain ⟨hrun, hrest⟩ := List.forall_mem_cons.mp hscheduled
    have hsound' := hsound.record run (outside.attempt run).entry
    have hkeys' : setup.publicationData = true →
        (state.record run (outside.attempt run).entry).completed.keys ++
          rest.map ScheduledRun.key = frozen.map ScheduledRun.key :=
      fun hformal => keys_record hnodup _ (hkeys hformal)
    have hbegins : setup.publicationData = true →
        (state.record run (outside.attempt run).entry).completed.keys <+:
          frozen.map ScheduledRun.key := fun hformal => ⟨_, hkeys' hformal⟩
    have hexecute : Throughout FileOp.apply (Orderly setup.root setup.sha256 frozen) disk
        (setup.executeBenchmarkRun state.campaignId run (outside.attempt run)) := by
      refine h.elsewhere fun op hop parameters' formal => ?_
      refine place_ne_ledgerPlaceOf hrun ?_ parameters' formal
      rw [hid] at hop
      rcases List.mem_append.mp hop with hop | hop
      · exact (mem_gathering hop).2
      · obtain rfl := List.mem_singleton.mp hop
        exact List.mem_cons_of_mem _ (List.mem_cons_of_mem _ List.mem_cons_self)
    have hflush := hexecute.last.flush setup.sha256_slash hsound' hbegins
    rw [show (state.record run (outside.attempt run).entry).campaignId = setup.campaignId from hid]
      at hflush
    refine hexecute.append (hflush.append ?_)
    exact ih hflush.last hsound' hid hrest hkeys'

/-- **An open ledger.** -/
theorem orderly_resume (hnodup : (frozen.map ScheduledRun.key).Nodup)
    (hdot : ∀ bytes, '.' ∉ setup.sha256 bytes)
    (hfrozen : setup.publicationData = true → setup.schedule = frozen) {disk : Disk}
    (h : Orderly setup.root setup.sha256 frozen disk) {parameters : Digests.Document}
    {state : CampaignState}
    (hsound : Sound setup.sha256 parameters.value setup.publicationData state)
    (hid : state.campaignId = setup.campaignId)
    (hbegins : setup.publicationData = true →
      state.completed.keys <+: frozen.map ScheduledRun.key) (outside : Outside) :
    Throughout FileOp.apply (Orderly setup.root setup.sha256 frozen) disk (setup.resume outside disk state) := by
  have hwriting : Throughout FileOp.apply (Orderly setup.root setup.sha256 frozen) disk (writeText
      (setup.campaignsPlace (setup.campaignId ++ ".schedule.json".toList))
      outside.scheduleText) := by
    refine h.elsewhere fun op hop parameters' formal => ?_
    obtain ⟨n, rfl⟩ := mem_writeText hop
    exact schedulePlace_ne_ledgerPlaceOf hdot parameters' formal
  have horderly := hwriting.last
  unfold resume
  rw [hid]
  refine hwriting.append ?_
  split_ifs
  · refine orderly_runLoop hnodup horderly hsound hid (fun run hrun => ?_) fun hformal => ?_
    · exact List.mem_of_mem_filter hrun
    · rw [hfrozen hformal]
      obtain ⟨n, hkeys⟩ := exists_keys_eq (hbegins hformal)
      rw [pending_eq_drop hnodup hkeys, hkeys, ← List.map_append, List.take_append_drop]
  · exact throughout_nil_iff.mpr horderly

/-- **An invocation** keeps the ledgers in order, wherever it is cut off. -/
theorem orderly_mainAsync (hnodup : (frozen.map ScheduledRun.key).Nodup)
    (hdot : ∀ bytes, '.' ∉ setup.sha256 bytes)
    (hfrozen : setup.publicationData = true → setup.schedule = frozen) {disk : Disk}
    (h : Orderly setup.root setup.sha256 frozen disk) (outside : Outside) :
    Throughout FileOp.apply (Orderly setup.root setup.sha256 frozen) disk (setup.mainAsync outside disk) := by
  have hledger := h setup.parameters setup.publicationData
  change LedgerAt _ _ _ _ (disk setup.ledgerPlace) at hledger
  unfold mainAsync
  generalize hnode : disk setup.ledgerPlace = node at hledger
  cases hledger with
  | absent =>
    -- the ledger is opened for the first time
    dsimp only [openLedger]
    have hsound : Sound setup.sha256 setup.parameters.value setup.publicationData
        ⟨campaignIdOf setup.sha256 setup.parameters.value setup.publicationData,
          setup.parameters.value, fingerprint setup.sha256 setup.parameters.value, outside.now,
          OrderedDict.empty⟩ :=
      ⟨rfl, rfl, rfl, fun entry hentry => absurd hentry List.not_mem_nil⟩
    have hbegins : setup.publicationData = true →
        (OrderedDict.empty : OrderedDict Text Json).keys <+: frozen.map ScheduledRun.key :=
      fun _ => List.nil_prefix
    have hflush := h.flush setup.sha256_slash hsound hbegins
    refine hflush.append ?_
    exact orderly_resume hnodup hdot hfrozen hflush.last hsound rfl hbegins
      outside
  | damaged bytes hdamaged =>
    dsimp only [openLedger]
    rw [hdamaged]
    exact throughout_nil_iff.mpr h
  | readable bytes state parameters hsound hid hbegins hcarries =>
    dsimp only [openLedger]
    rw [hcarries]
    split_ifs
    · exact orderly_resume hnodup hdot hfrozen h hsound hid hbegins outside
    · exact throughout_nil_iff.mpr h

/-! ### An invocation that is not cut off -/

variable (setup) in
/-- **The ledger can be gone on with**: where there is one, it is read, and its evidence verifies
once the schedule is written. -/
def Intact (outside : Outside) (disk : Disk) : Prop :=
  ∀ node, disk setup.ledgerPlace = some node → ∃ bytes state, node = .file bytes ∧
    readLedger (fingerprint setup.sha256 setup.parameters.value) bytes = .ok state ∧
    verifyCompleted setup.sha256 (applyAll disk (writeText (setup.campaignsPlace
      (setup.campaignId ++ ".schedule.json".toList)) outside.scheduleText)) setup.root state =
        .ok []

variable (setup) in
/-- The ledger has all of a schedule. -/
def Complete (frozen : List ScheduledRun) (disk : Disk) : Prop :=
  ∃ bytes state, disk setup.ledgerPlace = some (.file bytes) ∧
    readLedger (fingerprint setup.sha256 setup.parameters.value) bytes = .ok state ∧
    state.completed.keys = frozen.map ScheduledRun.key

/-- **The loop** records what is left. -/
theorem complete_runLoop (hnodup : (frozen.map ScheduledRun.key).Nodup) {outside : Outside}
    {todo : List ScheduledRun} :
    ∀ {disk : Disk} {state : CampaignState} {parameters : Digests.Document} {bytes : List UInt8},
      Sound setup.sha256 parameters.value setup.publicationData state →
      state.campaignId = setup.campaignId →
      state.fingerprint = fingerprint setup.sha256 setup.parameters.value →
      disk setup.ledgerPlace = some (.file bytes) → Carries bytes state →
      state.completed.keys ++ todo.map ScheduledRun.key = frozen.map ScheduledRun.key →
      setup.Complete frozen (applyAll disk (setup.runLoop outside state todo)) := by
  induction todo with
  | nil =>
    intro disk state parameters bytes _ _ hdigest hfile hcarries hkeys
    refine ⟨bytes, state, hfile, (hcarries _).trans (if_pos hdigest.symm), ?_⟩
    rwa [List.map_nil, List.append_nil] at hkeys
  | cons run rest ih =>
    intro disk state parameters bytes hsound hid hdigest hfile hcarries hkeys
    have hsound' := hsound.record run (outside.attempt run).entry
    change setup.Complete frozen (applyAll disk (_ ++ (_ ++ _)))
    rw [applyAll_append, applyAll_append]
    exact ih hsound' hid hdigest (applyAll_writeText _ _ _) (carries_bytes hsound')
      (keys_record hnodup _ hkeys)

/-- **An open ledger whose evidence verifies.** -/
theorem complete_resume (hnodup : (frozen.map ScheduledRun.key).Nodup)
    (hfrozen : setup.schedule = frozen) {disk : Disk} {parameters : Digests.Document}
    {state : CampaignState} {bytes : List UInt8} {outside : Outside}
    (hsound : Sound setup.sha256 parameters.value setup.publicationData state)
    (hid : state.campaignId = setup.campaignId)
    (hdigest : state.fingerprint = fingerprint setup.sha256 setup.parameters.value)
    (hbegins : state.completed.keys <+: frozen.map ScheduledRun.key)
    (hfile : disk setup.ledgerPlace = some (.file bytes)) (hcarries : Carries bytes state)
    (hverified : verifyCompleted setup.sha256 (applyAll disk (writeText (setup.campaignsPlace
      (setup.campaignId ++ ".schedule.json".toList)) outside.scheduleText)) setup.root state =
        .ok []) :
    setup.Complete frozen (applyAll disk (setup.resume outside disk state)) := by
  obtain ⟨n, hkeys⟩ := exists_keys_eq hbegins
  have hledger : applyAll disk (writeText (setup.campaignsPlace
      (setup.campaignId ++ ".schedule.json".toList)) outside.scheduleText) setup.ledgerPlace =
        some (.file bytes) := by
    rw [applyAll_of_ne fun op hop => ?_]
    · exact hfile
    · obtain ⟨m, rfl⟩ := mem_writeText hop
      exact schedulePlace_ne
  unfold resume
  rw [hid]
  dsimp only
  rw [applyAll_append, if_pos (.inr hverified)]
  refine complete_runLoop hnodup hsound hid hdigest hledger hcarries ?_
  rw [hfrozen, pending_eq_drop hnodup hkeys, hkeys, ← List.map_append, List.take_append_drop]

/-- **An invocation that is not cut off** records all of the schedule. -/
theorem complete_mainAsync (hnodup : (frozen.map ScheduledRun.key).Nodup)
    (hformal : setup.publicationData = true) (hfrozen : setup.schedule = frozen) {disk : Disk}
    (h : Orderly setup.root setup.sha256 frozen disk) {outside : Outside}
    (hintact : setup.Intact outside disk) :
    setup.Complete frozen (applyAll disk (setup.mainAsync outside disk)) := by
  have hledger := h setup.parameters setup.publicationData
  change LedgerAt _ _ _ _ (disk setup.ledgerPlace) at hledger
  unfold mainAsync
  generalize hnode : disk setup.ledgerPlace = node at hledger
  cases hledger with
  | absent =>
    dsimp only [openLedger]
    have hsound : Sound setup.sha256 setup.parameters.value setup.publicationData
        ⟨campaignIdOf setup.sha256 setup.parameters.value setup.publicationData,
          setup.parameters.value, fingerprint setup.sha256 setup.parameters.value, outside.now,
          OrderedDict.empty⟩ :=
      ⟨rfl, rfl, rfl, fun entry hentry => absurd hentry List.not_mem_nil⟩
    rw [applyAll_append]
    exact complete_resume hnodup hfrozen hsound rfl rfl List.nil_prefix (applyAll_writeText _ _ _)
      (carries_bytes hsound) rfl
  | damaged bytes hdamaged =>
    obtain ⟨bytes', state, hbytes, hread, -⟩ := hintact _ hnode
    obtain rfl := Node.file.inj hbytes
    rw [hdamaged] at hread
    cases hread
  | readable bytes kept parameters hsound hid hbegins hcarries =>
    obtain ⟨bytes', state, hbytes, hread, hverified⟩ := hintact _ hnode
    obtain rfl := Node.file.inj hbytes
    dsimp only [openLedger]
    rw [hcarries] at hread ⊢
    split_ifs at hread ⊢ with hdigest
    obtain rfl := Except.ok.inj hread
    exact complete_resume hnodup hfrozen hsound hid hdigest.symm (hbegins hformal) hnode hcarries
      hverified

end Invocation

end CampaignSetup

/-! ## 4.  Histories -/

theorem nodup_frozenKeys (random : Shuffles) :
    ((frozenSchedule random).map ScheduledRun.key).Nodup :=
  nodup_map_of_injective key_injective nodup_concurrencyLevels

/-- No setting that the gate watches is made. -/
theorem Permits.defaultSettings {env : Text → Option Text} {document : Json}
    (h : Permits env document) : DefaultSettings env := by
  have hwatched : ∀ name ∈ ["FAM_E3_SCHEDULE_SEED".toList, "FAM_E3_TIMELINE_LIMIT".toList,
      "FAM_E3_SYNC_TIMEOUT_MS".toList, "FAM_E3_BLOCKS".toList, "FAM_E3_WORKLOADS".toList],
      name ∈ watched := by decide
  exact fun name hname => h.settings name (hwatched name hname)

namespace Site

variable {site : Site} {invocation : Invocation} {setup : CampaignSetup}

theorem setup_eq_some {env : Text → Option Text} {manifest : EnvironmentManifest}
    (h : site.setup env manifest = some setup) :
    setup.root = site.root ∧ setup.sha256 = site.sha256 ∧
      setup.publicationData = publicationDataOf env ∧
      (DefaultSettings env → setup.schedule = frozenSchedule site.random) := by
  unfold Site.setup at h
  obtain ⟨seed, hseed, h⟩ := Option.bind_eq_some_iff.mp h
  obtain ⟨blocks, hblocks, h⟩ := Option.bind_eq_some_iff.mp h
  obtain ⟨parameters, -, h⟩ := Option.bind_eq_some_iff.mp h
  obtain rfl := Option.some_inj.mp h
  refine ⟨rfl, rfl, rfl, fun hdefault => ?_⟩
  have hworkloads : workloadsOf env = [latencyWorkload, throughputWorkload] :=
    if_pos (hdefault _ (by decide))
  rw [envInt, if_pos (hdefault _ (by decide))] at hseed hblocks
  obtain rfl := Option.some_inj.mp hseed
  obtain rfl := Option.some_inj.mp hblocks
  change generateCampaignSchedule site.random scheduleSeed pairedBlocks.toNat concurrencyLevels
    (workloadsOf env) = _
  rw [hworkloads]
  rfl

/-- **A formal run that passes the gate** has the frozen schedule. -/
theorem schedule_of_begin (h : site.begin invocation = some setup) :
    setup.root = site.root ∧ setup.sha256 = site.sha256 ∧
      setup.publicationData = publicationDataOf invocation.env ∧
      (setup.publicationData = true → setup.schedule = frozenSchedule site.random) := by
  unfold begin at h
  split at h
  · cases h
  · rename_i admitted henforce
    obtain ⟨manifest, -, hsetup⟩ := Option.bind_eq_some_iff.mp h
    obtain ⟨hroot, hsha, hformal, hschedule⟩ := setup_eq_some hsetup
    refine ⟨hroot, hsha, hformal, fun hpublication => hschedule ?_⟩
    rw [← hformal, hpublication] at henforce
    obtain ⟨document, -, -, hpermits⟩ := enforce_eq_ok_iff.mp henforce
    exact hpermits.defaultSettings

/-- **The step lemma**: an invocation that is cut off anywhere. -/
theorem orderly_invoke {disk : Disk}
    (h : Orderly site.root site.sha256 (frozenSchedule site.random) disk) :
    Throughout FileOp.apply (Orderly site.root site.sha256 (frozenSchedule site.random)) disk
      (site.invoke invocation disk) := by
  unfold invoke
  cases hbegin : site.begin invocation with
  | none =>
    rw [Option.map_none, Option.getD_none]
    exact throughout_nil_iff.mpr h
  | some setup =>
    obtain ⟨hroot, hsha, -, hschedule⟩ := schedule_of_begin hbegin
    rw [← hroot, ← hsha] at h ⊢
    refine CampaignSetup.orderly_mainAsync (nodup_frozenKeys site.random) ?_ hschedule h
      invocation.outside
    rw [hsha]
    exact site.sha256_dot

/-- **The run lemma.** -/
theorem orderly_applyHistory {disk : Disk} (entries : List (Invocation × ℕ))
    (h : Orderly site.root site.sha256 (frozenSchedule site.random) disk) :
    Orderly site.root site.sha256 (frozenSchedule site.random)
      (site.applyHistory disk entries) :=
  invariant_history (fun _ _ _ h => orderly_invoke h) h

/-- No campaign has begun. -/
theorem orderly_of_fresh {disk : Disk}
    (hfresh : ∀ campaignId, disk (ledgerPlaceOf site.root campaignId) = none) :
    Orderly site.root site.sha256 (frozenSchedule site.random) disk := by
  intro parameters formal
  rw [hfresh]
  exact .absent

/-- **A formal ledger never records anything but a beginning of the frozen schedule**: whatever
invocations there were, formal and for development, under whatever settings and locks, and
wherever each of them was cut off.  What is pending is the rest. -/
theorem formal_ledger_prefix (site : Site) (disk : Disk)
    (hfresh : ∀ campaignId, disk (ledgerPlaceOf site.root campaignId) = none)
    (history : List (Invocation × ℕ)) (parameters : Digests.Document) (bytes : List UInt8)
    (digest : Text) (state : CampaignState)
    (hfile : site.applyHistory disk history
      (ledgerPlaceOf site.root (campaignIdOf site.sha256 parameters.value true)) =
        some (.file bytes))
    (hread : readLedger digest bytes = .ok state) :
    state.fingerprint = digest ∧
      state.campaignId = campaignIdOf site.sha256 parameters.value true ∧
      ∃ n, state.completed.keys = ((frozenSchedule site.random).take n).map ScheduledRun.key ∧
        pending (frozenSchedule site.random) state = (frozenSchedule site.random).drop n := by
  have horderly : Orderly site.root site.sha256 (frozenSchedule site.random)
      (site.applyHistory disk history) := orderly_applyHistory history (orderly_of_fresh hfresh)
  have hledger := horderly parameters true
  rw [hfile] at hledger
  cases hledger with
  | damaged _ hdamaged =>
    rw [hdamaged] at hread
    cases hread
  | readable _ kept _ _ hid hbegins hcarries =>
    rw [hcarries] at hread
    split_ifs at hread with hdigest
    obtain rfl := Except.ok.inj hread
    obtain ⟨n, hkeys⟩ := exists_keys_eq (hbegins rfl)
    exact ⟨hdigest.symm, hid, n, hkeys, pending_eq_drop (nodup_frozenKeys site.random) hkeys⟩

theorem complete_invoke {disk : Disk}
    (h : Orderly site.root site.sha256 (frozenSchedule site.random) disk)
    (hformal : publicationDataOf invocation.env = true)
    (hbegin : site.begin invocation = some setup)
    (hintact : setup.Intact invocation.outside disk) :
    setup.Complete (frozenSchedule site.random)
      (applyAll disk (site.invoke invocation disk)) := by
  obtain ⟨hroot, hsha, hpublication, hschedule⟩ := schedule_of_begin hbegin
  rw [← hroot, ← hsha] at h
  rw [hformal] at hpublication
  unfold invoke
  rw [hbegin, Option.map_some, Option.getD_some]
  exact CampaignSetup.complete_mainAsync (nodup_frozenKeys site.random) hpublication
    (hschedule hpublication) h hintact

/-- Where the lock permits the run, it begins. -/
theorem exists_begin {document : Json} {manifest : EnvironmentManifest}
    (hformal : publicationDataOf invocation.env = true) (hlock : invocation.lock = some document)
    (hpermits : Permits invocation.env document)
    (hmanifest : invocation.environment = some manifest) :
    ∃ setup, site.begin invocation = some setup := by
  have hdefault := hpermits.defaultSettings
  have henforce : enforce site.repr site.lockPath invocation.env true "E3".toList invocation.lock =
      .ok (some document) := enforce_eq_ok_iff.mpr ⟨document, hlock, rfl, hpermits⟩
  have hparameters : ∃ parameters, site.parameters invocation.env manifest = some parameters :=
    ⟨_, Option.pmap_eq_some_iff.mpr ⟨_, site.valid_of_mainParameters
      (valid_rateLimitsFrom manifest) _ (mainParameters_eq hdefault _ _ _),
      mainParameters_eq hdefault _ _ _, rfl⟩⟩
  obtain ⟨parameters, hparameters⟩ := hparameters
  unfold begin
  rw [hformal, henforce, hmanifest]
  dsimp only
  rw [Option.bind_some]
  unfold Site.setup
  rw [envInt, if_pos (hdefault _ (by decide)), envInt, if_pos (hdefault _ (by decide)),
    hparameters]
  exact ⟨_, rfl⟩

end Site

/-- Some settings, by name. -/
def settings (pairs : List (Text × Text)) : Text → Option Text := fun name => pairs.lookup name

/-- A lock that was generated and not touched since. -/
def generatedLock : Json :=
  .object [("frozen_parameters".toList, .object frozenParameters),
    ("environment".toList, .object [])]

/-- A formal run on a clean worktree. -/
def formalInvocation : Invocation where
  env := settings [("FAM_PUBLICATION_DATA".toList, "true".toList),
    ("FAM_WORKTREE_STATUS".toList, [])]
  lock := some generatedLock
  environment := some ⟨OrderedDict.empty, OrderedDict.empty⟩
  outside := exampleOutside

/-- A development run of one block, without a lock. -/
def developmentInvocation : Invocation where
  env := settings [("FAM_E3_BLOCKS".toList, "1".toList)]
  lock := none
  environment := some ⟨OrderedDict.empty, OrderedDict.empty⟩
  outside := exampleOutside

theorem dot_notMem_countText (bytes : List UInt8) : '.' ∉ countText bytes := by
  intro hmem
  cases isDigit_of_mem_toDigits hmem

/-- An `int` that reads one digit. -/
def readsOne (t : Text) : Option ℤ := if t = ['1'] then some 1 else none

theorem readsOne_short (t : Text) (n : ℤ) (h : readsOne t = some n) :
    (Nat.toDigits 10 n.natAbs).length ≤ maxStrDigits := by
  unfold readsOne at h
  split_ifs at h
  obtain rfl := Option.some_inj.mp h
  decide

/-- A site for examples. -/
def exampleSite : Site where
  root := resultsRoot
  lockPath := "protocol-lock.json".toList
  sha256 := countText
  sha256_slash := slash_notMem_countText
  sha256_dot := dot_notMem_countText
  repr := fun _ => []
  random := reversing
  int := readsOne
  int_short := readsOne_short

theorem permits_generatedLock : Permits formalInvocation.env generatedLock where
  parameters := ⟨frozenParameters, rfl, compare_eq_nil_iff.mp
    (@compare_frozenParameters fun _ => [])⟩
  settings := by decide
  host := ⟨[], rfl, fun h => absurd h (by decide)⟩
  worktree := ⟨[], rfl, rfl⟩

/-- The development run has written its own ledger. -/
theorem developmentFiles : ((exampleSite.begin formalInvocation).map fun setup =>
    exampleSite.applyHistory emptyDisk [(developmentInvocation, 124)] setup.ledgerPlace) =
      some none := by
  decide +kernel

/-- The formal campaign has not begun. -/
theorem intact_formalInvocation {setup : CampaignSetup}
    (hbegin : exampleSite.begin formalInvocation = some setup) :
    setup.Intact formalInvocation.outside
      (exampleSite.applyHistory emptyDisk [(developmentInvocation, 124)]) := by
  have hfile := developmentFiles
  rw [hbegin, Option.map_some, Option.some_inj] at hfile
  intro node hnode
  rw [hfile] at hnode
  cases hnode

/-- The formal invocation, as one of a history. -/
def exampleHistory : List (Invocation × ℕ) :=
  [(developmentInvocation, 124), (formalInvocation, (exampleSite.invoke formalInvocation
    (exampleSite.applyHistory emptyDisk [(developmentInvocation, 124)])).length)]

/-- **What is read from its ledger then.** -/
theorem formal_ledger_read :
    ∃ setup bytes state, exampleSite.applyHistory emptyDisk exampleHistory
        (ledgerPlaceOf exampleSite.root
          (campaignIdOf exampleSite.sha256 (CampaignSetup.parameters setup).value true)) =
          some (.file bytes) ∧
      state.fingerprint = fingerprint exampleSite.sha256 setup.parameters.value ∧
      state.campaignId = campaignIdOf exampleSite.sha256 setup.parameters.value true ∧
      ∃ n, state.completed.keys =
          ((frozenSchedule exampleSite.random).take n).map ScheduledRun.key ∧
        pending (frozenSchedule exampleSite.random) state =
          (frozenSchedule exampleSite.random).drop n := by
  obtain ⟨setup, hbegin⟩ := @Site.exists_begin exampleSite formalInvocation generatedLock _
    (by decide) rfl permits_generatedLock rfl
  obtain ⟨hroot, hsha, hpublication, -⟩ := Site.schedule_of_begin hbegin
  obtain ⟨bytes, state, hfile, hread, -⟩ := Site.complete_invoke
    (Site.orderly_applyHistory _ (Site.orderly_of_fresh fun _ => rfl)) (by decide) hbegin
    (intact_formalInvocation hbegin)
  have hplace : setup.ledgerPlace = ledgerPlaceOf exampleSite.root
      (campaignIdOf exampleSite.sha256 setup.parameters.value true) := by
    change ledgerPlaceOf setup.root
      (campaignIdOf setup.sha256 setup.parameters.value setup.publicationData) = _
    rw [hroot, hsha, hpublication]
    rfl
  have hhistory : exampleSite.applyHistory emptyDisk exampleHistory setup.ledgerPlace =
      some (.file bytes) := by
    have hwhole : exampleSite.applyHistory emptyDisk exampleHistory = _ :=
      history_append_whole exampleSite.invoke [(developmentInvocation, 124)] formalInvocation
        emptyDisk
    exact (congrFun hwhole _).trans hfile
  rw [hplace] at hhistory
  rw [hsha] at hread
  exact ⟨setup, bytes, state, hhistory, Site.formal_ledger_prefix exampleSite emptyDisk
    (fun _ => rfl) exampleHistory setup.parameters bytes _ state hhistory hread⟩

end Benchmark
end FederatedMessaging
