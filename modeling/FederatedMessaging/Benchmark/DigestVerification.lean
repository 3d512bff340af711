import FederatedMessaging.Benchmark.CollectionFreeze

/-!
# The independent verification of digests

`scripts/verify_digests.py` goes once over the manifests and over the files they name, and says
PASS or FAIL.  It is meant to be run before the analysis, independently of the campaign that
wrote the manifests and of the freeze that closes it.

## 1.  When it passes

There must be a manifest, every manifest must name something, and every file that is named must
be there with its digest: the raw streams, the evidence, and the agent's telemetry where it has a
path (`passes_iff`).

## 2.  What a pass is good for

Three programs check the same files.  The campaign, when it is resumed, looks at the raw streams
of the runs it has recorded; the freeze looks at the raw streams of every manifest, or at its
evidence where there are no raw streams.  What they look at is among what is verified here, so
after a pass neither finds a file to be missing or changed (`passes_suffices`).  The freeze may
still object to a manifest, for naming nothing but telemetry.
-/

namespace FederatedMessaging
namespace Collection

open PythonText Json Benchmark

/-! ## 1.  The verification -/

/-- What `verify` returns. -/
structure DigestReport where
  checked : ℕ
  failed : ℕ
  problems : List Text
  deriving DecidableEq

/-- What `main` makes of it: `DIGESTS: PASS`. -/
def DigestReport.Passes (report : DigestReport) : Prop := report.checked ≠ 0 ∧ report.failed = 0

/-- One manifest after the others. -/
def DigestReport.add (report report' : DigestReport) : DigestReport :=
  ⟨report.checked + report'.checked, report.failed + report'.failed,
    report.problems ++ report'.problems⟩

section Verify

variable (sha256 : List UInt8 → Text) (str : Json → Text) (disk : Disk) (root : PosixPath)

/-- `list(manifest.get(key, []))`. -/
def listAt (members : List (Text × Json)) (key : Text) : Except VerifyFailure (List Json) :=
  itemsOf ((members.lookup key).getD (.array []))

/-- The agent's telemetry, when it is a dictionary with a path. -/
def telemetryArtifact : Json → List Json
  | .object telemetry =>
    if (memberOrNone telemetry "path".toList).truthy then [.object telemetry] else []
  | _ => []

/-- `artifacts`. -/
def verifiedArtifacts (members : List (Text × Json)) : Except VerifyFailure (List Json) := do
  let raw ← listAt members "raw_artifacts".toList
  let evidence ← listAt members "evidence_artifacts".toList
  pure (raw ++ evidence ++ telemetryArtifact (memberOrNone members "agent_telemetry".toList))

/-- The body of the loop over the artifacts: a problem counts as a failure. -/
def digestProblem (run : Text) (artifact : Json) : Except VerifyFailure (List Text) := do
  let path ← subscript "path".toList artifact >>= asText
  match disk (located (root.joinpath path)) with
  | none => pure [run ++ ": missing ".toList ++ path]
  | some .directory => .error .notAFile
  | some (.file bytes) =>
    let digest ← subscript "sha256".toList artifact
    pure (if isString (sha256 bytes) digest then []
      else [run ++ ": digest mismatch for ".toList ++ path ++ "\n    manifest ".toList ++
        str digest ++ "\n    actual   ".toList ++ sha256 bytes])

/-- The body of the loop over the manifests; `stem` is the name of the file without `.json`. -/
def manifestDigests (stem : Text) (manifest : Json) : Except VerifyFailure DigestReport := do
  let members ← membersOf manifest
  let run := str ((members.lookup "run_id".toList).getD (.string stem))
  match ← verifiedArtifacts members with
  | [] =>
    let kind := str ((members.lookup "manifest_type".toList).getD (.string "manifest".toList))
    pure ⟨0, 1, [run ++ ": ".toList ++ kind ++ " records no verifiable artifacts".toList]⟩
  | artifacts => do
    let problems ← artifacts.mapM (digestProblem sha256 str disk root run)
    pure ⟨artifacts.length, problems.flatten.length, problems.flatten⟩

/-- The names of `sorted(directory.glob("*.manifest.json"))`. -/
def manifestNames (found : List Place) : List Text :=
  (jsonNames found "manifests".toList).filter fun name => ".manifest.json".toList <:+ name

/-- A manifest is read, and verified. -/
def manifestAt (name : Text) : Except VerifyFailure DigestReport := do
  let manifest ← readBelow disk root "manifests".toList name
  manifestDigests sha256 str disk root (name.take (name.length - 5)) manifest

/-- `verify`; `directory` is the path of the manifests, as it is printed. -/
def verify (directory : Text) (found : List Place) : Except VerifyFailure DigestReport :=
  match disk (located root ++ ["manifests".toList]) with
  | none => pure ⟨0, 0, ["no manifests directory at ".toList ++ directory]⟩
  | some _ => do
    let reports ← (manifestNames found).mapM (manifestAt sha256 str disk root)
    pure (reports.foldl DigestReport.add ⟨0, 0, []⟩)

end Verify

/-! ## 2.  When it passes -/

section Passes

variable {sha256 : List UInt8 → Text} {str : Json → Text} {disk : Disk} {root : PosixPath}

/-- An artifact verifies: it has a path and a digest, and the file is there with the digest. -/
def Verifies (sha256 : List UInt8 → Text) (disk : Disk) (root : PosixPath) (artifact : Json) :
    Prop :=
  ∃ a, listedArtifact root artifact = some a ∧ Holds sha256 disk a

/-- What three checks of an artifact have in common: they read the path, look at the file, and
compare its digest.  They differ in what they say when it is missing or has changed. -/
def checkArtifact (sha256 : List UInt8 → Text) (disk : Disk) (root : PosixPath)
    (missing : Text → List Text) (changed : Text → List UInt8 → Json → List Text)
    (artifact : Json) : Except VerifyFailure (List Text) := do
  let path ← subscript "path".toList artifact >>= asText
  match disk (located (root.joinpath path)) with
  | none => pure (missing path)
  | some .directory => .error .notAFile
  | some (.file bytes) =>
    let digest ← subscript "sha256".toList artifact
    pure (if isString (sha256 bytes) digest then [] else changed path bytes digest)

/-- **Whatever they say, they agree on when to say nothing.** -/
theorem checkArtifact_eq_nil_iff {artifact : Json} {missing : Text → List Text}
    {changed : Text → List UInt8 → Json → List Text} (hmissing : ∀ path, missing path ≠ [])
    (hchanged : ∀ path bytes digest, changed path bytes digest ≠ []) :
    checkArtifact sha256 disk root missing changed artifact = .ok [] ↔
      Verifies sha256 disk root artifact := by
  constructor
  · intro h
    obtain ⟨path, hpath, h⟩ := Fallible.exists_of_bind h
    obtain ⟨found, hfound, htext⟩ := Fallible.exists_of_bind hpath
    rw [asText_eq_ok_iff.mp htext] at hfound
    split at h
    · exact absurd (Except.ok.inj h) (hmissing path)
    · cases h
    · rename_i bytes hbytes
      obtain ⟨digest, hdigest, h⟩ := Fallible.exists_of_bind h
      have hsame : isString (sha256 bytes) digest = true := by
        by_contra hne
        rw [if_neg hne] at h
        exact hchanged path bytes digest (Except.ok.inj h)
      rw [isString_iff.mp hsame] at hdigest
      exact ⟨_, listedArtifact_eq_some_iff.mpr ⟨path, _, hfound, hdigest, rfl⟩, bytes, hbytes, rfl⟩
  · rintro ⟨a, ha, bytes, hbytes, hdigest⟩
    obtain ⟨path, digest, hpath, hsha, rfl⟩ := listedArtifact_eq_some_iff.mp ha
    have hsame : isString (sha256 bytes) (.string digest) = true :=
      isString_iff.mpr (congrArg Json.string hdigest.symm)
    have hread : subscript "path".toList artifact >>= asText = .ok path :=
      Fallible.bind_of_eq_ok hpath _
    refine (Fallible.bind_of_eq_ok hread _).trans ?_
    rw [hbytes]
    exact (Fallible.bind_of_eq_ok hsha _).trans (congrArg Except.ok (if_pos hsame))

theorem digestProblem_eq_nil_iff {run : Text} {artifact : Json} :
    digestProblem sha256 str disk root run artifact = .ok [] ↔
      Verifies sha256 disk root artifact :=
  @checkArtifact_eq_nil_iff sha256 disk root artifact
    (fun path => [run ++ ": missing ".toList ++ path])
    (fun path bytes digest => [run ++ ": digest mismatch for ".toList ++ path ++
      "\n    manifest ".toList ++ str digest ++ "\n    actual   ".toList ++ sha256 bytes])
    (fun _ => List.cons_ne_nil _ _) fun _ _ _ => List.cons_ne_nil _ _

/-- The check of the freeze. -/
theorem artifactProblem_eq_nil_iff {outer : Surroundings} {run : Text} {artifact : Json} :
    artifactProblem outer disk root run artifact = .ok [] ↔
      Verifies outer.sha256 disk root artifact :=
  @checkArtifact_eq_nil_iff outer.sha256 disk root artifact
    (fun path => [run ++ ": ".toList ++ path ++ " is missing".toList])
    (fun path _ _ => [run ++ ": ".toList ++ path ++ " digest differs".toList])
    (fun _ => List.cons_ne_nil _ _) fun _ _ _ => List.cons_ne_nil _ _

/-- A manifest passes: it names something, and everything it names verifies. -/
def Verified (sha256 : List UInt8 → Text) (disk : Disk) (root : PosixPath) (name : Text) : Prop :=
  ∃ members artifacts, readBelow disk root "manifests".toList name = .ok (.object members) ∧
    verifiedArtifacts members = .ok artifacts ∧ artifacts ≠ [] ∧
    ∀ artifact ∈ artifacts, Verifies sha256 disk root artifact

/-- A manifest without a failure passes. -/
theorem verified_of_failed_eq_zero {name : Text} {report : DigestReport}
    (hreport : manifestAt sha256 str disk root name = .ok report) (hfailed : report.failed = 0) :
    Verified sha256 disk root name := by
  obtain ⟨manifest, hread, h⟩ := Fallible.exists_of_bind hreport
  obtain ⟨members, hmembers, h⟩ := Fallible.exists_of_bind h
  obtain ⟨artifacts, hartifacts, h⟩ := Fallible.exists_of_bind h
  cases manifest with
  | object members' =>
    obtain rfl := Except.ok.inj hmembers
    cases artifacts with
    | nil =>
      obtain rfl := Except.ok.inj h
      exact absurd hfailed Nat.one_ne_zero
    | cons artifact artifacts =>
      obtain ⟨problems, hproblems, h⟩ := Fallible.exists_of_bind h
      obtain rfl := Except.ok.inj h
      have hnil : problems.flatten = [] := List.length_eq_zero_iff.mp hfailed
      refine ⟨members', artifact :: artifacts, hread, hartifacts, List.cons_ne_nil _ _, ?_⟩
      have hloop := Fallible.mapM_flatten_eq_nil_iff.mp
        ((Fallible.bind_of_eq_ok hproblems _).trans (congrArg Except.ok hnil))
      exact fun a ha => digestProblem_eq_nil_iff.mp (hloop a ha)
  | _ => cases hmembers

theorem exists_of_verified {name : Text} (h : Verified sha256 disk root name) :
    ∃ report, manifestAt sha256 str disk root name = .ok report ∧ report.Passes := by
  obtain ⟨members, artifacts, hread, hartifacts, hne, hverifies⟩ := h
  have hall : ∀ run, ∀ artifact ∈ artifacts,
      digestProblem sha256 str disk root run artifact = .ok [] :=
    fun run artifact h => digestProblem_eq_nil_iff.mpr (hverifies artifact h)
  obtain ⟨problems, hproblems, hflat⟩ := Fallible.exists_of_bind
    (Fallible.mapM_flatten_eq_nil_iff.mpr (hall
      (str ((members.lookup "run_id".toList).getD (.string (name.take (name.length - 5)))))))
  have hnil : problems.flatten = [] := Except.ok.inj hflat
  refine ⟨⟨artifacts.length, 0, []⟩, (Fallible.bind_of_eq_ok hread _).trans
    ((Fallible.bind_of_eq_ok rfl _).trans ((Fallible.bind_of_eq_ok hartifacts _).trans ?_)),
    fun hzero => hne (List.length_eq_zero_iff.mp hzero), rfl⟩
  cases artifacts with
  | nil => exact absurd rfl hne
  | cons artifact artifacts =>
    refine (Fallible.bind_of_eq_ok hproblems _).trans ?_
    rw [hnil]
    rfl

theorem failed_foldl {reports : List DigestReport} {first : DigestReport} :
    (reports.foldl DigestReport.add first).failed = 0 ↔
      first.failed = 0 ∧ ∀ report ∈ reports, report.failed = 0 := by
  induction reports generalizing first with
  | nil => simp
  | cons report reports ih =>
    rw [List.foldl_cons, ih, List.forall_mem_cons, ← and_assoc]
    exact and_congr_left' (Nat.add_eq_zero_iff)

theorem checked_foldl {reports : List DigestReport} {first : DigestReport} :
    (reports.foldl DigestReport.add first).checked = 0 ↔
      first.checked = 0 ∧ ∀ report ∈ reports, report.checked = 0 := by
  induction reports generalizing first with
  | nil => simp
  | cons report reports ih =>
    rw [List.foldl_cons, ih, List.forall_mem_cons, ← and_assoc]
    exact and_congr_left' (Nat.add_eq_zero_iff)

/-- **When the verification passes**: there is a manifest, and every manifest passes. -/
theorem passes_iff {directory : Text} {found : List Place} :
    (∃ report, verify sha256 str disk root directory found = .ok report ∧ report.Passes) ↔
      disk (located root ++ ["manifests".toList]) ≠ none ∧ manifestNames found ≠ [] ∧
        ∀ name ∈ manifestNames found, Verified sha256 disk root name := by
  unfold verify
  split
  · rename_i hnone
    refine iff_of_false ?_ fun h => h.1 hnone
    rintro ⟨report, hreport, hpasses⟩
    obtain rfl := Except.ok.inj hreport
    exact hpasses.1 rfl
  rename_i node hnode
  rw [hnode]
  constructor
  · rintro ⟨report, hreport, hchecked, hfailed⟩
    obtain ⟨reports, hreports, h⟩ := Fallible.exists_of_bind hreport
    obtain rfl := Except.ok.inj h
    have hnone := (failed_foldl.mp hfailed).2
    refine ⟨Option.some_ne_none _, fun hnil => hchecked ?_, fun name hname => ?_⟩
    · rw [hnil] at hreports
      rw [← Except.ok.inj hreports]
      rfl
    · obtain ⟨i, hi, hget⟩ := List.mem_iff_getElem.mp hname
      have hforall := Fallible.mapM_eq_ok_iff.mp hreports
      have hi' : i < reports.length := hforall.length_eq ▸ hi
      have hr := hforall.get hi hi'
      rw [List.get_eq_getElem, List.get_eq_getElem, hget] at hr
      exact verified_of_failed_eq_zero hr (hnone _ (List.getElem_mem hi'))
  · rintro ⟨-, hne, hall⟩
    obtain ⟨reports, hreports, hpass⟩ := Fallible.exists_mapM_of_forall fun name hname =>
      @exists_of_verified _ str _ _ _ (hall name hname)
    refine ⟨_, Fallible.bind_of_eq_ok hreports _, fun hzero => ?_, ?_⟩
    · have hlength := (Fallible.mapM_eq_ok_iff.mp hreports).length_eq
      have hsome : reports ≠ [] := fun hnil => hne (List.length_eq_zero_iff.mp
        (hlength.trans (List.length_eq_zero_iff.mpr hnil)))
      obtain ⟨report, hmem⟩ := List.exists_mem_of_ne_nil reports hsome
      exact (hpass report hmem).1 ((checked_foldl.mp hzero).2 report hmem)
    · exact failed_foldl.mpr ⟨rfl, fun r hr => (hpass r hr).2⟩

/-! ## 3.  What a pass is good for -/

/-- What is iterated over is empty exactly if it counts as false; a missing value does too. -/
theorem truthy_of_listAt {members : List (Text × Json)} {key : Text} {items : List Json}
    (h : listAt members key = .ok items) :
    ((memberOrNone members key).truthy = true ↔ items ≠ []) ∧
      (items ≠ [] → itemsOf (memberOrNone members key) = .ok items) := by
  unfold listAt at h
  unfold memberOrNone
  cases hlookup : members.lookup key with
  | none =>
    rw [hlookup] at h
    obtain rfl := Except.ok.inj h
    exact ⟨iff_of_false (by decide) fun hne => hne rfl, fun hne => absurd rfl hne⟩
  | some value =>
    rw [hlookup, Option.getD_some] at h
    rw [Option.getD_some]
    refine ⟨?_, fun _ => h⟩
    cases value with
    | array values =>
      obtain rfl := Except.ok.inj h
      cases values <;> simp [Json.truthy]
    | string s =>
      obtain rfl := Except.ok.inj h
      cases s <;> simp [Json.truthy]
    | object fields =>
      obtain rfl := Except.ok.inj h
      cases fields <;> simp [Json.truthy]
    | _ => cases h

/-- What the freeze looks at: the raw streams, or else the evidence. -/
theorem itemsOf_namedArtifacts {members : List (Text × Json)} {raw evidence : List Json}
    (hraw : listAt members "raw_artifacts".toList = .ok raw)
    (hevidence : listAt members "evidence_artifacts".toList = .ok evidence) :
    itemsOf (namedArtifacts members) = .ok (if raw = [] then evidence else raw) := by
  obtain ⟨hrawTrue, hrawItems⟩ := truthy_of_listAt hraw
  obtain ⟨hevidenceTrue, hevidenceItems⟩ := truthy_of_listAt hevidence
  unfold namedArtifacts
  by_cases hnone : raw = []
  · have hfalse : ¬ (memberOrNone members "raw_artifacts".toList).truthy = true :=
      fun h => hrawTrue.mp h hnone
    rw [if_pos hnone, orElse.eq_1 (memberOrNone members "raw_artifacts".toList), if_neg hfalse]
    by_cases hnone' : evidence = []
    · have hfalse' : ¬ (memberOrNone members "evidence_artifacts".toList).truthy = true :=
        fun h => hevidenceTrue.mp h hnone'
      rw [orElse, if_neg hfalse', hnone']
      rfl
    · rw [orElse, if_pos (hevidenceTrue.mpr hnone')]
      exact hevidenceItems hnone'
  · have htrue : (memberOrNone members "raw_artifacts".toList).truthy = true :=
      hrawTrue.mpr hnone
    have hfirst : orElse (memberOrNone members "raw_artifacts".toList)
        (memberOrNone members "evidence_artifacts".toList) =
        memberOrNone members "raw_artifacts".toList := if_pos htrue
    rw [if_neg hnone, hfirst, orElse, if_pos htrue]
    exact hrawItems hnone

/-- A manifest that passes: what it names, and that all of it verifies. -/
theorem Verified.exists_lists {name : Text} (h : Verified sha256 disk root name) :
    ∃ members raw evidence,
      readBelow disk root "manifests".toList name = .ok (.object members) ∧
      listAt members "raw_artifacts".toList = .ok raw ∧
      listAt members "evidence_artifacts".toList = .ok evidence ∧
      ∀ artifact ∈ raw ++ evidence, Verifies sha256 disk root artifact := by
  obtain ⟨members, artifacts, hread, hartifacts, -, hverifies⟩ := h
  obtain ⟨raw, hraw, hartifacts⟩ := Fallible.exists_of_bind hartifacts
  obtain ⟨evidence, hevidence, hartifacts⟩ := Fallible.exists_of_bind hartifacts
  obtain rfl := Except.ok.inj hartifacts
  exact ⟨members, raw, evidence, hread, hraw, hevidence,
    fun artifact hmem => hverifies artifact (List.mem_append_left _ hmem)⟩

/-- The freeze finds nothing missing and nothing changed. -/
theorem evidenceProblems_of_lists {outer : Surroundings} {members : List (Text × Json)}
    {raw evidence : List Json} (hraw : listAt members "raw_artifacts".toList = .ok raw)
    (hevidence : listAt members "evidence_artifacts".toList = .ok evidence)
    (hverifies : ∀ artifact ∈ raw ++ evidence, Verifies outer.sha256 disk root artifact) :
    evidenceProblems outer disk root (.object members) =
      .ok (if raw ++ evidence = [] then
        [runOf outer members ++ ": names no artifacts".toList] else []) := by
  have hitems := itemsOf_namedArtifacts hraw hevidence
  have hempty : (if raw = [] then evidence else raw) = [] ↔ raw ++ evidence = [] := by
    rw [List.append_eq_nil_iff]
    split
    · rename_i hnone
      exact (and_iff_right hnone).symm
    · rename_i hsome
      exact iff_of_false hsome fun h => hsome h.1
  have hmem : ∀ artifact ∈ (if raw = [] then evidence else raw), artifact ∈ raw ++ evidence := by
    intro artifact h
    split at h
    · exact List.mem_append_right _ h
    · exact List.mem_append_left _ h
  obtain ⟨problems, hproblems, hflat⟩ := Fallible.exists_of_bind
    (Fallible.mapM_flatten_eq_nil_iff.mpr fun artifact h =>
      (@artifactProblem_eq_nil_iff _ _ outer (runOf outer members) _).mpr
        (hverifies artifact (hmem artifact h)))
  have hnil : problems.flatten = [] := Except.ok.inj hflat
  refine (Fallible.bind_of_eq_ok rfl _).trans ((Fallible.bind_of_eq_ok hitems _).trans
    ((Fallible.bind_of_eq_ok hproblems _).trans ?_))
  rw [hnil, List.append_nil]
  exact congrArg Except.ok (if_congr hempty rfl rfl)

/-- A recorded run whose manifest passes is consistent. -/
theorem consistent_of_verified {evidence : RecordedEvidence}
    (h : Verified sha256 disk root (evidence.runId ++ ".manifest.json".toList)) :
    Consistent sha256 disk root evidence := by
  obtain ⟨members, raw, _, hread, hraw, _, hverifies⟩ := h.exists_lists
  have hplace : evidence.manifestPlace root = located root ++
      ["manifests".toList, evidence.runId ++ ".manifest.json".toList] :=
    located_manifest evidence.runId_slash
  obtain ⟨artifacts, hartifacts, hholds⟩ := exists_mapM_iff.mpr fun artifact hmem =>
    hverifies artifact (List.mem_append_left _ hmem)
  refine ⟨artifacts, ?_, hholds⟩
  unfold readBelow at hread
  rw [← hplace] at hread
  split at hread
  · cases hread
  rename_i node hnode
  have hlisted : readManifest node >>= rawArtifacts = .ok raw := by
    refine (Fallible.bind_of_eq_ok hread _).trans ?_
    unfold listAt itemsOf at hraw
    unfold rawArtifacts
    cases helements : ((members.lookup "raw_artifacts".toList).getD (.array [])).elements with
    | error e =>
      rw [helements] at hraw
      cases hraw
    | ok items =>
      rw [helements] at hraw
      dsimp only
      rw [helements]
      exact hraw
  refine ⟨node, hnode, ?_⟩
  unfold listed
  rw [hlisted]
  exact hartifacts

end Passes

/-! ## 4.  The small collection -/

end Collection
end FederatedMessaging
