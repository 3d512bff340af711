import FederatedMessaging.Benchmark.CampaignLedger
import FederatedMessaging.Foundations.PosixPaths

/-!
# What a resumed campaign verifies

The ledger of a campaign stores, for every recorded run, the digests of its raw streams and the
path of its manifest.  `verify_completed` looks at the manifest, as it is now, and compares the
files it lists, as they are now, with the digests it lists.  The digests of the ledger are read
by nothing.

## What it detects

So a change of the raw streams is detected exactly as far as the manifests still say what the
ledger says (`detects_iff`): if there is a way to satisfy the manifests at all, every recorded
stream has to be listed in one of them, with the digest of the ledger.  A manifest that is edited
together with a stream, or whose list is emptied, does not do that.

## Files

A disk maps the place of a file to what is there.  The place of a path is the list of its
components after `..` is taken away; there are no symbolic links in the results.
-/

namespace FederatedMessaging
namespace Benchmark

open PythonText Json

/-! ## Files -/

/-- What stands at a place. -/
inductive Node where
  | file (bytes : List UInt8)
  | directory
  deriving DecidableEq

/-- The place of a file: its components from the root of the file system. -/
abbrev Place := List Text

/-- The files. -/
abbrev Disk := Place → Option Node

/-- One component further. -/
def Place.enter (place : Place) (part : Text) : Place :=
  if part = "..".toList then place.dropLast else place ++ [part]

/-- Where a path leads. -/
def located (path : PosixPath) : Place := path.parts.foldl Place.enter []

/-! ## Verifying -/

/-- What `verify_completed` may raise. -/
inductive VerifyFailure where
  /-- a directory where a file is read -/
  | notAFile
  /-- no UTF-8, or no JSON -/
  | unreadable
  /-- a key is missing, or a value has a type that cannot be used -/
  | malformed
  deriving DecidableEq, Repr

section Verify

variable (sha256 : List UInt8 → Text) (disk : Disk) (root : PosixPath)

/-- `json.loads(manifest.read_text(encoding="utf-8"))`. -/
def readManifest : Node → Except VerifyFailure Json
  | .directory => .error .notAFile
  | .file bytes =>
    match Utf8.decode bytes with
    | none => .error .unreadable
    | some t =>
      match loads (universalNewlines t) with
      | .ok payload => .ok payload
      | .error _ => .error .unreadable

/-- `payload.get("raw_artifacts", [])`, as it is iterated over. -/
def rawArtifacts : Json → Except VerifyFailure (List Json)
  | .object members =>
    match ((members.lookup "raw_artifacts".toList).getD (.array [])).elements with
    | .ok artifacts => .ok artifacts
    | .error _ => .error .malformed
  | _ => .error .malformed

/-- `artifact[key]`. -/
def subscript (key : Text) : Json → Except VerifyFailure Json
  | .object members => (members.lookup key).elim (.error .malformed) .ok
  | _ => .error .malformed

/-- A value that is joined to a path. -/
def asText : Json → Except VerifyFailure Text
  | .string s => .ok s
  | _ => .error .malformed

/-- The body of the loop over the artifacts of a manifest. -/
def artifactProblems (key : Text) (artifact : Json) : Except VerifyFailure (List Text) := do
  let path ← subscript "path".toList artifact >>= asText
  match disk (located (root.joinpath path)) with
  | none => pure [key ++ ": raw artifact ".toList ++ path ++ " is missing".toList]
  | some .directory => .error .notAFile
  | some (.file bytes) =>
    let digest ← subscript "sha256".toList artifact
    pure (if isString (sha256 bytes) digest then []
      else [key ++ ": raw artifact ".toList ++ path ++ " changed on disk".toList])

/-- The body of the loop over the recorded runs. -/
def entryProblems (entry : Text × Json) : Except VerifyFailure (List Text) := do
  let manifest ← subscript "manifest".toList entry.2 >>= asText
  match disk (located (root.joinpath manifest)) with
  | none => pure [entry.1 ++ ": manifest ".toList ++ manifest ++ " is missing".toList]
  | some node =>
    let payload ← readManifest node
    let artifacts ← rawArtifacts payload
    let problems ← artifacts.mapM (artifactProblems sha256 disk root entry.1)
    pure problems.flatten

/-- `verify_completed`. -/
def verifyCompleted (state : CampaignState) : Except VerifyFailure (List Text) := do
  let problems ← (sortMembers state.completed.entries).mapM (entryProblems sha256 disk root)
  pure problems.flatten

end Verify

/-! ## Paths -/

/-- The path of a raw stream. -/
def streamPath (root : PosixPath) (workload runId suffix : Text) : PosixPath :=
  (((root.joinpath "raw".toList).joinpath "e3".toList).joinpath workload).joinpath (runId ++ suffix)

/-- The path of a manifest, relative to the results. -/
def manifestText (runId : Text) : Text :=
  "manifests/".toList ++ runId ++ ".manifest.json".toList

theorem located_joinpath {path : PosixPath} {t : Text} (hslash : '/' ∉ t)
    (ht : t ∉ [[], ['.'], "..".toList]) : located (path.joinpath t) = located path ++ [t] := by
  simp only [List.mem_cons, List.not_mem_nil, or_false, not_or] at ht
  rw [PosixPath.joinpath_of_notMem hslash ht.1 ht.2.1, located, List.foldl_append]
  exact if_neg ht.2.2

/-- A name with a suffix is an ordinary component. -/
theorem component_of_suffix {name suffix : Text} (hname : '/' ∉ name) (hsuffix : '/' ∉ suffix)
    (hlength : 2 < suffix.length) :
    '/' ∉ name ++ suffix ∧ name ++ suffix ∉ [[], ['.'], "..".toList] := by
  refine ⟨?_, fun hmem => ?_⟩
  · rw [List.mem_append, not_or]
    exact ⟨hname, hsuffix⟩
  · have hlong : ∀ t ∈ [[], ['.'], "..".toList], t.length ≤ 2 := by decide
    have hle := hlong _ hmem
    rw [List.length_append] at hle
    omega

/-- A name with a suffix, in a directory. -/
theorem located_suffix {path : PosixPath} {name suffix : Text} (hname : '/' ∉ name)
    (hsuffix : '/' ∉ suffix) (hlength : 2 < suffix.length) :
    located (path.joinpath (name ++ suffix)) = located path ++ [name ++ suffix] :=
  located_joinpath (component_of_suffix hname hsuffix hlength).1
    (component_of_suffix hname hsuffix hlength).2

/-- **A stream stands below `raw`.** -/
theorem located_streamPath {root : PosixPath} {workload runId suffix : Text}
    (hworkload : '/' ∉ workload) (hordinary : workload ∉ [[], ['.'], "..".toList])
    (hrunId : '/' ∉ runId) (hsuffix : '/' ∉ suffix) (hlength : 2 < suffix.length) :
    located (streamPath root workload runId suffix) =
      located root ++ ["raw".toList, "e3".toList, workload, runId ++ suffix] := by
  rw [streamPath, located_suffix hrunId hsuffix hlength, located_joinpath hworkload hordinary,
    located_joinpath (by decide) (by decide), located_joinpath (by decide) (by decide),
    List.append_assoc, List.append_assoc, List.append_assoc]
  rfl

/-- **A manifest stands below `manifests`.** -/
theorem located_manifest {root : PosixPath} {runId : Text} (hrunId : '/' ∉ runId) :
    located (root.joinpath (manifestText runId)) =
      located root ++ ["manifests".toList, runId ++ ".manifest.json".toList] := by
  have hsuffix : '/' ∉ ".manifest.json".toList ∧ 2 < ".manifest.json".toList.length := by decide
  obtain ⟨hname, hcomponent⟩ := component_of_suffix hrunId hsuffix.1 hsuffix.2
  have hdirectory : "manifests/".toList = "manifests".toList ++ ['/'] := by decide
  have hmanifest : manifestText runId =
      "manifests".toList ++ '/' :: (runId ++ ".manifest.json".toList) := by
    change "manifests/".toList ++ runId ++ ".manifest.json".toList = _
    rw [hdirectory, List.append_assoc, List.append_assoc]
    exact rfl
  have hne := hcomponent
  simp only [List.mem_cons, List.not_mem_nil, or_false, not_or] at hne
  have hfolder : '/' ∉ "manifests".toList ∧ "manifests".toList ∉ [[], ['.'], "..".toList] := by
    decide
  have hfolder' := hfolder.2
  simp only [List.mem_cons, List.not_mem_nil, or_false, not_or] at hfolder'
  rw [hmanifest, PosixPath.joinpath_append_cons hfolder.1 hfolder'.1 hfolder'.2.1
    hname hne.1 hne.2.1, located_joinpath hname hcomponent,
    located_joinpath hfolder.1 hfolder.2, List.append_assoc]
  rfl

/-! ## What is recorded -/

/-- A run that is recorded: its identity, and the digests of the streams that it has. -/
structure RecordedEvidence where
  run : ScheduledRun
  runId : Text
  status : Text
  runnerDigest : Option Text
  agentDigest : Option Text
  completedAt : Text
  /-- the names are components of a path -/
  workload_slash : '/' ∉ run.workload
  workload_ne : run.workload ∉ [[], ['.'], "..".toList]
  runId_slash : '/' ∉ runId

namespace RecordedEvidence

variable (evidence : RecordedEvidence)

/-- `artifact_digests`. -/
def artifactDigests : OrderedDict Text Text :=
  let digests := OrderedDict.empty
  let digests := evidence.runnerDigest.elim digests
    (digests.set "runner_interaction_stream".toList)
  evidence.agentDigest.elim digests (digests.set "agent_telemetry_stream".toList)

/-- The manifest, relative to the results. -/
def manifest : Text := manifestText evidence.runId

/-- What `main_async` records. -/
def entry : LedgerEntry :=
  ⟨evidence.runId, evidence.status, evidence.manifest, evidence.artifactDigests,
    evidence.completedAt⟩

/-- `runner_path`. -/
def runnerPath (root : PosixPath) : PosixPath :=
  streamPath root evidence.run.workload evidence.runId ".runner.jsonl".toList

/-- `agent_path`. -/
def agentPath (root : PosixPath) : PosixPath :=
  streamPath root evidence.run.workload evidence.runId ".agent.jsonl".toList

/-- The streams of a run that the ledger has a digest of, with that digest. -/
def streams (root : PosixPath) : List (Place × Text) :=
  (evidence.runnerDigest.map fun d => (located (evidence.runnerPath root), d)).toList ++
    (evidence.agentDigest.map fun d => (located (evidence.agentPath root), d)).toList

/-- Where the manifest is. -/
def manifestPlace (root : PosixPath) : Place := located (root.joinpath evidence.manifest)

end RecordedEvidence

/-- The runs that a ledger knows, by their keys. -/
abbrev RecordedRuns := OrderedDict Text RecordedEvidence

/-- What is stored of them. -/
def completedOf (recorded : RecordedRuns) : OrderedDict Text Json :=
  ⟨recorded.entries.map fun e => (e.1, e.2.entry.toJson), by
    rw [List.map_map]
    exact recorded.nodup_keys⟩

/-- **A campaign state with some recorded runs.** -/
def stateWith (state : CampaignState) (recorded : RecordedRuns) : CampaignState :=
  { state with completed := completedOf recorded }

/-- Recording a run adds it. -/
theorem record_stateWith (state : CampaignState) (recorded : RecordedRuns)
    (evidence : RecordedEvidence) :
    (stateWith state recorded).record evidence.run evidence.entry =
      stateWith state (recorded.set evidence.run.key evidence) := by
  refine CampaignState.ext rfl rfl rfl rfl (OrderedDict.eq_of_entries ?_)
  change ((completedOf recorded).set evidence.run.key evidence.entry.toJson).entries =
    (recorded.set evidence.run.key evidence).entries.map fun e => (e.1, e.2.entry.toJson)
  have hkeys : (completedOf recorded).keys = recorded.keys := by
    unfold OrderedDict.keys completedOf
    rw [List.map_map]
    rfl
  by_cases hmem : evidence.run.key ∈ recorded.keys
  · rw [OrderedDict.set, dif_pos (hkeys ▸ hmem), OrderedDict.set, dif_pos hmem]
    change OrderedDict.replace _ _ (recorded.entries.map _) =
      (OrderedDict.replace _ _ recorded.entries).map _
    unfold OrderedDict.replace
    rw [List.map_map, List.map_map]
    refine List.map_congr_left fun e _ => ?_
    dsimp only [Function.comp]
    split_ifs <;> rfl
  · rw [OrderedDict.entries_set_of_notMem (hkeys ▸ hmem),
      OrderedDict.entries_set_of_notMem hmem, List.map_append]
    rfl

/-! ## Places of a run -/

namespace RecordedEvidence

variable {evidence : RecordedEvidence} {root : PosixPath}

theorem exists_of_mem_streams {stream : Place × Text} (h : stream ∈ evidence.streams root) :
    ∃ rest, stream.1 = located root ++ "raw".toList :: rest := by
  have hpath : ∀ suffix : Text, '/' ∉ suffix → 2 < suffix.length → ∃ rest,
      located (streamPath root evidence.run.workload evidence.runId suffix) =
        located root ++ "raw".toList :: rest := fun suffix hslash hlength =>
    ⟨_, located_streamPath evidence.workload_slash evidence.workload_ne evidence.runId_slash hslash
      hlength⟩
  rcases List.mem_append.mp h with h | h <;>
    obtain ⟨d, -, rfl⟩ := Option.map_eq_some_iff.mp (Option.mem_toList.mp h)
  · exact hpath _ (by decide) (by decide)
  · exact hpath _ (by decide) (by decide)

/-- **No stream is a manifest.** -/
theorem manifestPlace_ne {stream : Place × Text} (h : stream ∈ evidence.streams root)
    (other : RecordedEvidence) : other.manifestPlace root ≠ stream.1 := by
  obtain ⟨rest, hrest⟩ := exists_of_mem_streams h
  have hmanifest : other.manifestPlace root =
      located root ++ ["manifests".toList, other.runId ++ ".manifest.json".toList] :=
    located_manifest other.runId_slash
  rw [hrest, hmanifest]
  intro heq
  exact absurd (List.cons.inj (List.append_cancel_left heq)).1 (by decide)

end RecordedEvidence

/-! ## What manifests list -/

/-- An artifact that can verify: where it should be, and its digest. -/
def listedArtifact (root : PosixPath) : Json → Option (Place × Text)
  | .object members =>
    match members.lookup "path".toList, members.lookup "sha256".toList with
    | some (.string path), some (.string digest) => some (located (root.joinpath path), digest)
    | _, _ => none
  | _ => none

/-- What a manifest lists, where all of it can verify. -/
def listed (root : PosixPath) (node : Node) : Option (List (Place × Text)) :=
  match readManifest node >>= rawArtifacts with
  | .ok artifacts => artifacts.mapM (listedArtifact root)
  | .error _ => none

section Listed

variable (sha256 : List UInt8 → Text) (disk : Disk) (root : PosixPath)

/-- The file is there, with the digest. -/
def Holds (artifact : Place × Text) : Prop :=
  ∃ bytes, disk artifact.1 = some (.file bytes) ∧ sha256 bytes = artifact.2

/-- The manifest of a run lists something. -/
def Lists (evidence : RecordedEvidence) (artifacts : List (Place × Text)) : Prop :=
  ∃ node, disk (evidence.manifestPlace root) = some node ∧ listed root node = some artifacts

/-- The manifest of a run is there, and all that it lists. -/
def Consistent (evidence : RecordedEvidence) : Prop :=
  ∃ artifacts, Lists disk root evidence artifacts ∧ ∀ a ∈ artifacts, Holds sha256 disk a

/-- **The recorded streams have the digests of the ledger.** -/
def Unchanged (recorded : RecordedRuns) : Prop :=
  ∀ evidence ∈ recorded.values, ∀ stream ∈ evidence.streams root, Holds sha256 disk stream

end Listed

variable {sha256 : List UInt8 → Text} {disk : Disk} {root : PosixPath}

theorem subscript_eq_ok_iff {key : Text} {x y : Json} :
    subscript key x = .ok y ↔ ∃ members, x = .object members ∧ members.lookup key = some y := by
  cases x with
  | object members =>
    change (members.lookup key).elim (.error VerifyFailure.malformed) .ok = Except.ok y ↔ _
    cases hlookup : members.lookup key with
    | none =>
      refine iff_of_false (fun h => by cases h) ?_
      rintro ⟨members', heq, hsome⟩
      rw [← Json.object.inj heq, hlookup] at hsome
      cases hsome
    | some found =>
      constructor
      · intro h
        exact ⟨members, rfl, hlookup.trans (congrArg some (Except.ok.inj h))⟩
      · rintro ⟨members', heq, hsome⟩
        rw [← Json.object.inj heq, hlookup] at hsome
        exact congrArg Except.ok (Option.some_inj.mp hsome)
  | _ =>
    refine iff_of_false (fun h => by cases h) ?_
    rintro ⟨_, heq, -⟩
    cases heq

theorem asText_eq_ok_iff {x : Json} {t : Text} : asText x = .ok t ↔ x = .string t := by
  cases x with
  | string s => exact ⟨fun h => congrArg Json.string (Except.ok.inj h),
      fun h => congrArg Except.ok (Json.string.inj h)⟩
  | _ => exact ⟨nofun, nofun⟩

theorem listedArtifact_eq_some_iff {artifact : Json} {a : Place × Text} :
    listedArtifact root artifact = some a ↔
      ∃ path digest, subscript "path".toList artifact = .ok (.string path) ∧
        subscript "sha256".toList artifact = .ok (.string digest) ∧
        a = (located (root.joinpath path), digest) := by
  simp only [subscript_eq_ok_iff]
  constructor
  · intro h
    unfold listedArtifact at h
    split at h
    next members =>
      split at h
      · next path digest hpath hdigest =>
        exact ⟨path, digest, ⟨members, rfl, hpath⟩, ⟨members, rfl, hdigest⟩,
          (Option.some_inj.mp h).symm⟩
      · cases h
    next => cases h
  · rintro ⟨path, digest, ⟨members, rfl, hpath⟩, ⟨members', heq, hdigest⟩, rfl⟩
    obtain rfl := Json.object.inj heq
    unfold listedArtifact
    dsimp only
    rw [hpath, hdigest]

theorem isString_iff {t : Text} {x : Json} : isString t x = true ↔ x = .string t := by
  cases x with
  | string s =>
    change decide (s = t) = true ↔ _
    rw [decide_eq_true_iff, Json.string.injEq]
  | _ => exact iff_of_false Bool.false_ne_true nofun

/-- **An artifact is no problem** when it can verify, and does. -/
theorem artifactProblems_eq_nil_iff {key : Text} {artifact : Json} :
    artifactProblems sha256 disk root key artifact = .ok [] ↔
      ∃ a, listedArtifact root artifact = some a ∧ Holds sha256 disk a := by
  constructor
  · intro h
    obtain ⟨path, hpath, h⟩ := Fallible.exists_of_bind h
    obtain ⟨found, hfound, htext⟩ := Fallible.exists_of_bind hpath
    rw [asText_eq_ok_iff.mp htext] at hfound
    split at h
    · cases h
    · cases h
    · next bytes hbytes =>
      obtain ⟨digest, hdigest, h⟩ := Fallible.exists_of_bind h
      have hsame : isString (sha256 bytes) digest = true := by
        by_contra hne
        rw [if_neg hne] at h
        cases h
      rw [isString_iff.mp hsame] at hdigest
      exact ⟨_, listedArtifact_eq_some_iff.mpr ⟨path, _, hfound, hdigest, rfl⟩, bytes, hbytes, rfl⟩
  · rintro ⟨a, ha, bytes, hbytes, hdigest⟩
    obtain ⟨path, digest, hpath, hsha, rfl⟩ := listedArtifact_eq_some_iff.mp ha
    have hsame : isString (sha256 bytes) (.string digest) = true :=
      isString_iff.mpr (congrArg Json.string hdigest.symm)
    unfold artifactProblems
    rw [hpath]
    change (match disk (located (root.joinpath path)) with
      | none => pure _
      | some .directory => Except.error VerifyFailure.notAFile
      | some (.file bytes) => _) = Except.ok []
    rw [hbytes]
    change (subscript "sha256".toList artifact >>= fun digest =>
      pure (if isString (sha256 bytes) digest then [] else _)) = Except.ok []
    rw [hsha]
    exact congrArg Except.ok (if_pos hsame)

theorem exists_mapM_iff {α β : Type} {g : α → Option β} {P : β → Prop} {l : List α} :
    (∃ bs, l.mapM g = some bs ∧ ∀ b ∈ bs, P b) ↔ ∀ a ∈ l, ∃ b, g a = some b ∧ P b := by
  induction l with
  | nil => exact iff_of_true ⟨[], rfl, fun _ h => absurd h List.not_mem_nil⟩ fun _ h =>
      absurd h List.not_mem_nil
  | cons a l ih =>
    rw [List.forall_mem_cons, ← ih, List.mapM_cons]
    constructor
    · rintro ⟨bs, hbs, hP⟩
      obtain ⟨b, hb, hrest⟩ := Option.bind_eq_some_iff.mp hbs
      obtain ⟨bs', hbs', heq⟩ := Option.bind_eq_some_iff.mp hrest
      obtain rfl := Option.some_inj.mp heq
      obtain ⟨hfirst, hall⟩ := List.forall_mem_cons.mp hP
      exact ⟨⟨b, hb, hfirst⟩, bs', hbs', hall⟩
    · rintro ⟨⟨b, hb, hfirst⟩, bs, hbs, hall⟩
      refine ⟨b :: bs, ?_, List.forall_mem_cons.mpr ⟨hfirst, hall⟩⟩
      rw [hb, hbs]
      rfl

/-- **A recorded run is no problem** when it is consistent. -/
theorem entryProblems_eq_nil_iff {key : Text} {evidence : RecordedEvidence} :
    entryProblems sha256 disk root (key, evidence.entry.toJson) = .ok [] ↔
      Consistent sha256 disk root evidence := by
  have hmanifest : subscript "manifest".toList evidence.entry.toJson >>= asText =
      .ok evidence.manifest := rfl
  unfold entryProblems Consistent Lists
  rw [hmanifest]
  change (match disk (evidence.manifestPlace root) with
    | none => pure _
    | some node => _) = Except.ok [] ↔ _
  cases disk (evidence.manifestPlace root) with
  | none =>
    refine iff_of_false (fun h => by cases h) ?_
    rintro ⟨artifacts, ⟨node, hnode, -⟩, -⟩
    cases hnode
  | some node =>
    have hnode : ∀ artifacts, (∃ node', some node = some node' ∧
        listed root node' = some artifacts) ↔ listed root node = some artifacts :=
      fun artifacts => ⟨fun ⟨_, heq, h⟩ => Option.some_inj.mp heq ▸ h, fun h => ⟨node, rfl, h⟩⟩
    simp only [hnode]
    change (readManifest node >>= fun payload => rawArtifacts payload >>= fun artifacts =>
      artifacts.mapM (artifactProblems sha256 disk root key) >>= fun problems =>
        pure problems.flatten) = .ok [] ↔ _
    rw [← bind_assoc]
    unfold listed
    cases readManifest node >>= rawArtifacts with
    | error _ =>
      refine iff_of_false (fun h => by cases h) ?_
      rintro ⟨artifacts, h, -⟩
      cases h
    | ok artifacts =>
      change (artifacts.mapM (artifactProblems sha256 disk root key) >>= fun problems =>
        pure problems.flatten) = .ok [] ↔ _
      rw [Fallible.mapM_flatten_eq_nil_iff]
      dsimp only
      rw [exists_mapM_iff]
      exact forall₂_congr fun artifact _ => artifactProblems_eq_nil_iff

/-- **`verify_completed` returns nothing** exactly when every recorded run is consistent. -/
theorem verifyCompleted_eq_nil_iff {state : CampaignState} {recorded : RecordedRuns} :
    verifyCompleted sha256 disk root (stateWith state recorded) = .ok [] ↔
      ∀ evidence ∈ recorded.values, Consistent sha256 disk root evidence := by
  unfold verifyCompleted
  rw [Fallible.mapM_flatten_eq_nil_iff]
  have hmem : ∀ entry, entry ∈ sortMembers (stateWith state recorded).completed.entries ↔
      ∃ e ∈ recorded.entries, (e.1, e.2.entry.toJson) = entry := fun entry =>
    (perm_sortMembers _).mem_iff.trans List.mem_map
  constructor
  · intro h evidence hevidence
    obtain ⟨e, he, rfl⟩ := List.mem_map.mp hevidence
    exact entryProblems_eq_nil_iff.mp (h _ ((hmem _).mpr ⟨e, he, rfl⟩))
  · intro h entry hentry
    obtain ⟨e, he, rfl⟩ := (hmem entry).mp hentry
    exact entryProblems_eq_nil_iff.mpr (h e.2 (List.mem_map_of_mem he))

/-! ## What is detected -/

/-- The manifests of the recorded runs are the same on two disks. -/
def SameManifests (root : PosixPath) (recorded : RecordedRuns) (disk disk' : Disk) : Prop :=
  ∀ evidence ∈ recorded.values, disk' (evidence.manifestPlace root) =
    disk (evidence.manifestPlace root)

/-- **Every change of the other files is detected**: where `verify_completed` returns nothing, the
recorded streams have the digests of the ledger. -/
def Detects (sha256 : List UInt8 → Text) (disk : Disk) (root : PosixPath) (state : CampaignState)
    (recorded : RecordedRuns) : Prop :=
  ∀ disk', SameManifests root recorded disk disk' →
    verifyCompleted sha256 disk' root (stateWith state recorded) = .ok [] →
      Unchanged sha256 disk' root recorded

/-- The manifests can be satisfied: there are files that have all the digests they list. -/
def Satisfiable (sha256 : List UInt8 → Text) (disk : Disk) (root : PosixPath)
    (recorded : RecordedRuns) : Prop :=
  ∃ disk', SameManifests root recorded disk disk' ∧
    ∀ evidence ∈ recorded.values, Consistent sha256 disk' root evidence

/-- Every recorded stream is listed in a manifest, with the digest of the ledger. -/
def Pinned (disk : Disk) (root : PosixPath) (recorded : RecordedRuns) : Prop :=
  ∀ evidence ∈ recorded.values, ∀ stream ∈ evidence.streams root,
    ∃ other ∈ recorded.values, ∃ artifacts, Lists disk root other artifacts ∧ stream ∈ artifacts

theorem SameManifests.lists {recorded : RecordedRuns} {disk' : Disk}
    (h : SameManifests root recorded disk disk') {evidence : RecordedEvidence}
    (hevidence : evidence ∈ recorded.values) {artifacts : List (Place × Text)}
    (hlists : Lists disk' root evidence artifacts) : Lists disk root evidence artifacts := by
  obtain ⟨node, hnode, hlisted⟩ := hlists
  exact ⟨node, (h evidence hevidence).symm.trans hnode, hlisted⟩

/-- A disk without one stream. -/
def without (disk : Disk) (place : Place) : Disk := fun p => if p = place then none else disk p

/-- **A stream that no manifest lists can vanish** and nothing is noticed. -/
theorem consistent_without {recorded : RecordedRuns} {evidence : RecordedEvidence}
    {stream : Place × Text}
    (hstream : stream ∈ evidence.streams root)
    (hunlisted : ∀ other ∈ recorded.values, ∀ artifacts, Lists disk root other artifacts →
      ∀ a ∈ artifacts, a.1 ≠ stream.1)
    (h : ∀ other ∈ recorded.values, Consistent sha256 disk root other) :
    ∀ other ∈ recorded.values, Consistent sha256 (without disk stream.1) root other := by
  intro other hother
  obtain ⟨artifacts, hlists, hholds⟩ := h other hother
  refine ⟨artifacts, ?_, fun a ha => ?_⟩
  · obtain ⟨node, hnode, hlisted⟩ := hlists
    exact ⟨node, (if_neg (RecordedEvidence.manifestPlace_ne hstream other)).trans hnode, hlisted⟩
  · obtain ⟨bytes, hbytes, hdigest⟩ := hholds a ha
    exact ⟨bytes, (if_neg (hunlisted other hother artifacts hlists a ha)).trans hbytes, hdigest⟩

/-- **The ledger detects what changed in the recorded streams if and only if the manifests, as
they are now, list every recorded stream with the digest of the ledger**, or cannot be satisfied by
any files. -/
theorem detects_iff (sha256 : List UInt8 → Text) (disk : Disk) (root : PosixPath)
    (state : CampaignState) (recorded : RecordedRuns) :
    Detects sha256 disk root state recorded ↔
      (Satisfiable sha256 disk root recorded → Pinned disk root recorded) := by
  constructor
  · rintro hdetects ⟨disk', hsame, hconsistent⟩ evidence hevidence stream hstream
    have hholds := hdetects disk' hsame (verifyCompleted_eq_nil_iff.mpr hconsistent) evidence
      hevidence stream hstream
    by_contra hnot
    -- no manifest lists the place at all
    have hunlisted : ∀ other ∈ recorded.values, ∀ artifacts, Lists disk' root other artifacts →
        ∀ a ∈ artifacts, a.1 ≠ stream.1 := by
      intro other hother artifacts hlists a ha hplace
      obtain ⟨artifacts', hlists', hall⟩ := hconsistent other hother
      have heq : artifacts' = artifacts := by
        obtain ⟨node, hnode, hlisted⟩ := hlists
        obtain ⟨node', hnode', hlisted'⟩ := hlists'
        obtain rfl := Option.some_inj.mp (hnode.symm.trans hnode')
        exact Option.some_inj.mp (hlisted'.symm.trans hlisted)
      obtain ⟨bytes, hbytes, hdigest⟩ := hall a (heq ▸ ha)
      obtain ⟨bytes', hbytes', hdigest'⟩ := hholds
      rw [hplace, hbytes', Option.some_inj, Node.file.injEq] at hbytes
      have hpair : a = stream := Prod.ext hplace (by rw [← hdigest, ← hdigest', hbytes])
      exact hnot ⟨other, hother, artifacts, hsame.lists hother hlists, hpair ▸ ha⟩
    have hvanished := hdetects (without disk' stream.1) ?_
      (verifyCompleted_eq_nil_iff.mpr (consistent_without hstream hunlisted hconsistent))
      evidence hevidence stream hstream
    · obtain ⟨bytes, hbytes, -⟩ := hvanished
      rw [without, if_pos rfl] at hbytes
      cases hbytes
    · intro other hother
      rw [← hsame other hother, without, if_neg (RecordedEvidence.manifestPlace_ne hstream other)]
  · intro hpinned disk' hsame hverify evidence hevidence stream hstream
    have hconsistent := verifyCompleted_eq_nil_iff.mp hverify
    obtain ⟨other, hother, artifacts, hlists, hmem⟩ :=
      hpinned ⟨disk', hsame, hconsistent⟩ evidence hevidence stream hstream
    obtain ⟨artifacts', hlists', hall⟩ := hconsistent other hother
    obtain ⟨node, hnode, hlisted⟩ := hlists
    obtain ⟨node', hnode', hlisted'⟩ := hsame.lists hother hlists'
    obtain rfl := Option.some_inj.mp (hnode.symm.trans hnode')
    exact hall stream (Option.some_inj.mp (hlisted.symm.trans hlisted') ▸ hmem)

/-! ## A stream and its manifest, edited together -/

/-- The results. -/
def resultsRoot : PosixPath := ⟨['/'], ["results".toList]⟩

/-- A recorded run whose runner stream was one byte. -/
def recordedRun : RecordedEvidence where
  run := blockRun Analysis.latencyWorkload 1 1 1 Analysis.topologyLocal
  runId := ['r']
  status := "complete".toList
  runnerDigest := some (byteText [1])
  agentDigest := none
  completedAt := "2030".toList
  workload_slash := by decide
  workload_ne := by decide
  runId_slash := by decide

/-- The ledger with that run. -/
def recordedOnce : RecordedRuns := OrderedDict.empty.set recordedRun.run.key recordedRun

/-- Another byte in the stream, and a manifest with its digest. -/
def editedDisk : Disk := fun place =>
  if place = recordedRun.manifestPlace resultsRoot then
    some (.file (Utf8.encode (dumps .indented (.object [("raw_artifacts".toList, .array [.object
      [("role".toList, .string "runner_interaction_stream".toList),
        ("path".toList, .string "raw/e3/latency/r.runner.jsonl".toList),
        ("sha256".toList, .string (byteText [2]))]])]))))
  else if place = located (recordedRun.runnerPath resultsRoot) then some (.file [2])
  else none

/-- A campaign state, before its runs. -/
def freshState : CampaignState := ⟨['c'], .object [], ['f'], "2029".toList, OrderedDict.empty⟩

/-- **The edit is not detected.** -/
theorem editedTogether_accepted :
    verifyCompleted byteText editedDisk resultsRoot (stateWith freshState recordedOnce) = .ok [] ∧
    ¬ Unchanged byteText editedDisk resultsRoot recordedOnce ∧
    ¬ Detects byteText editedDisk resultsRoot freshState recordedOnce := by
  have hverify : verifyCompleted byteText editedDisk resultsRoot
      (stateWith freshState recordedOnce) = .ok [] := by decide +kernel
  have hchanged : ¬ Unchanged byteText editedDisk resultsRoot recordedOnce := by
    intro h
    obtain ⟨bytes, hbytes, hdigest⟩ := h recordedRun (List.mem_singleton_self _)
      (located (recordedRun.runnerPath resultsRoot), byteText [1]) List.mem_cons_self
    have hfile : editedDisk (located (recordedRun.runnerPath resultsRoot)) = some (.file [2]) := by
      decide +kernel
    rw [hfile, Option.some_inj, Node.file.injEq] at hbytes
    rw [← hbytes] at hdigest
    exact absurd hdigest (by decide)
  exact ⟨hverify, hchanged, fun h => hchanged (h editedDisk (fun _ _ => rfl) hverify)⟩

end Benchmark
end FederatedMessaging
