import FederatedMessaging.Benchmark.LedgerEvidence
import FederatedMessaging.Foundations.LabelledRuns
import FederatedMessaging.Foundations.Separated

/-!
# Freezing a collection

`scripts/freeze_collection.py` closes a campaign.  It checks that every run is final and every
file a manifest names is there with its digest, takes an inventory of everything below the
results, and writes down one digest over the whole inventory.

## 1.  What the aggregate digest pins

The digest is over the lines `<sha256>  <path>`, one a file, in the order of the paths.  Two
collections have the same aggregate exactly if they have the same files with the same contents
(`aggregate_eq_iff`).  What is enumerated first plays no role, and neither does anything but
files: only the two files that the script writes itself are left out.  A path must not contain
a line break: the digest would take one file for two (`aggregate_newline`).

## 2.  Freezing again

The two files that are left out are the only ones that change.  So a frozen collection can be
frozen again, any number of times, and every archive that is written names the same files and
the same aggregate (`refreeze`) --- unless a manifest names one of the two files, since then the
gate looks at what the last freeze wrote.

## 3.  What is left out

The printed report.  A commit in a manifest is a string or missing: Python compares other values
too, and calls `1` and `True` the same commit.  The lock comes from outside the results, and so
does what a comparison with it says.
-/

namespace FederatedMessaging
namespace Collection

open PythonText Json Benchmark LabelledRuns

/-! ## 1.  The inventory -/

/-- `path.relative_to(root).as_posix()`, from the components below the root. -/
def asPosix (parts : List Text) : Text := ['/'].intercalate parts

/-- `SELF_WRITTEN`: the components of the two artifacts. -/
def completionParts : List Text := ["environment".toList, "collection-completion.json".toList]

/-- The archive inventory. -/
def archiveParts : List Text := ["environment".toList, "raw-archive-inventory.json".toList]

/-- `SELF_WRITTEN`. -/
def selfWritten : List Text :=
  ["environment/collection-completion.json".toList, "environment/raw-archive-inventory.json".toList]

/-- An entry of the inventory. -/
structure InventoryEntry where
  path : Text
  sha256 : Text
  bytes : ℕ
  deriving DecidableEq

/-- What `root.rglob("*")` may find: everything below the root, in some order. -/
structure Enumerates (disk : Disk) (root : Place) (found : List Place) : Prop where
  nodup : found.Nodup
  mem : ∀ parts, parts ∈ found ↔ parts ≠ [] ∧ disk (root ++ parts) ≠ none

section Inventory

variable (sha256 : List UInt8 → Text) (disk : Disk) (root : Place)

/-- The body of the loop of `_inventory`. -/
def entryAt (parts : List Text) : Option InventoryEntry :=
  match disk (root ++ parts) with
  | some (.file bytes) =>
    if asPosix parts ∈ selfWritten then none
    else some ⟨asPosix parts, sha256 bytes, bytes.length⟩
  | _ => none

/-- `_inventory`. -/
def inventory (found : List Place) : List InventoryEntry :=
  ((found.insertionSort fun x y => x ≤ y).filterMap (entryAt sha256 disk root)).insertionSort
    fun x y => x.path ≤ y.path

/-- `f"{e['sha256']}  {e['path']}"`. -/
def aggregateLine (entry : InventoryEntry) : Text := entry.sha256 ++ ' ' :: ' ' :: entry.path

/-- `_aggregate`. -/
def aggregate (entries : List InventoryEntry) : Text :=
  sha256 (Utf8.encode (['\n'].intercalate (entries.map aggregateLine)))

end Inventory

/-! ## 2.  The gate -/

/-- `EXPECTED_RUNS`.  What follows holds for any such table. -/
def expectedRuns : List (Text × ℕ) :=
  [("E0".toList, 3), ("E1".toList, 3), ("E2".toList, 3), ("E3".toList, 120), ("E4".toList, 3)]

/-- `str` on a natural number. -/
def decimal (n : ℕ) : Text := Nat.toDigits 10 n

/-- The name of what `directory.glob("*.json")` finds at a place. -/
def jsonName (directory : Text) : Place → Option Text
  | [d, name] => if d = directory ∧ ".json".toList <:+ name then some name else none
  | _ => none

/-- The names of `sorted(directory.glob("*.json"))`. -/
def jsonNames (found : List Place) (directory : Text) : List Text :=
  (found.filterMap (jsonName directory)).insertionSort fun x y => x ≤ y

/-- What is outside the results: the repetition counts, SHA-256, `str` and `repr` on a value of
a document, the lock as it is loaded, and `compare`. -/
structure Surroundings where
  expected : List (Text × ℕ)
  sha256 : List UInt8 → Text
  str : Json → Text
  repr : Json → Text
  lock : Option Json
  compare : Json → List Text

section Gate

variable (outer : Surroundings) (disk : Disk) (root : PosixPath) (found : List Place)

/-- `json.loads(path.read_text(encoding="utf-8"))`, of a file of a directory below the root. -/
def readBelow (directory name : Text) : Except VerifyFailure Json :=
  match disk (located root ++ [directory, name]) with
  | none => .error .notAFile
  | some node => readManifest node

/-- `_manifests`. -/
def manifests : Except VerifyFailure (List Json) :=
  (jsonNames found "manifests".toList).mapM (readBelow disk root "manifests".toList)

/-- The members of a value that `.get` is called on. -/
def membersOf : Json → Except VerifyFailure (List (Text × Json))
  | .object members => .ok members
  | _ => .error .malformed

/-- What `for x in value` runs over. -/
def itemsOf (value : Json) : Except VerifyFailure (List Json) :=
  value.elements.mapError fun _ => .malformed

/-- `len(value)`. -/
def sizeOf : Json → Except VerifyFailure ℕ
  | .object members => .ok members.length
  | .array items => .ok items.length
  | .string s => .ok s.length
  | _ => .error .malformed

/-- `value is None`. -/
def isNull : Json → Bool
  | .word .null => true
  | _ => false

/-- `manifest["experiment"]`, as a key of `counts`. -/
def experimentOf (manifest : Json) : Except VerifyFailure Json := do
  match ← subscript "experiment".toList manifest with
  | .array _ => .error .malformed
  | .object _ => .error .malformed
  | experiment => pure experiment

/-- The problems of the repetition counts. -/
def countProblems (experiments : List Json) : List Text :=
  outer.expected.filterMap fun expected =>
    if experiments.countP (isString expected.1) = expected.2 then none
    else some (expected.1 ++ ": ".toList ++ decimal (experiments.countP (isString expected.1)) ++
      " manifests, the frozen set requires ".toList ++ decimal expected.2)

/-- `manifest.get("run_id", "?")`, as it is printed. -/
def runOf (members : List (Text × Json)) : Text :=
  outer.str ((members.lookup "run_id".toList).getD (.string ['?']))

/-- The first loop over the manifests. -/
def statusProblems (manifest : Json) : Except VerifyFailure (List Text) := do
  let members ← membersOf manifest
  let run := runOf outer members
  let status := memberOrNone members "completion_status".toList
  let validity ← membersOf
    ((members.lookup "validity_classification".toList).getD (.object []))
  pure <|
    (if (memberOrNone members "publication_data".toList).truthy then []
      else [run ++ ": publication_data is not true".toList]) ++
    (if isString "pass".toList status || isString "complete".toList status then []
      else [run ++ ": completion_status ".toList ++ outer.repr status ++ " is not final".toList]) ++
    (if isNull (memberOrNone validity "valid".toList) then
      [run ++ ": no validity classification".toList]
    else [])

/-- `manifest.get("raw_artifacts") or manifest.get("evidence_artifacts") or []`. -/
def namedArtifacts (members : List (Text × Json)) : Json :=
  orElse (orElse (memberOrNone members "raw_artifacts".toList)
    (memberOrNone members "evidence_artifacts".toList)) (.array [])

/-- The body of the loop over the artifacts of a manifest. -/
def artifactProblem (run : Text) (artifact : Json) : Except VerifyFailure (List Text) := do
  let path ← subscript "path".toList artifact >>= asText
  match disk (located (root.joinpath path)) with
  | none => pure [run ++ ": ".toList ++ path ++ " is missing".toList]
  | some .directory => .error .notAFile
  | some (.file bytes) =>
    let digest ← subscript "sha256".toList artifact
    pure (if isString (outer.sha256 bytes) digest then []
      else [run ++ ": ".toList ++ path ++ " digest differs".toList])

/-- The second loop over the manifests. -/
def evidenceProblems (manifest : Json) : Except VerifyFailure (List Text) := do
  let members ← membersOf manifest
  let artifacts ← itemsOf (namedArtifacts members)
  let problems ← artifacts.mapM (artifactProblem outer disk root (runOf outer members))
  pure <|
    (if artifacts = [] then [runOf outer members ++ ": names no artifacts".toList] else []) ++
      problems.flatten

/-- The ledgers of the campaigns: no schedules. -/
def ledgerNames : List Text :=
  (jsonNames found "campaigns".toList).filter fun name => ¬ ".schedule.json".toList <:+ name

/-- The part of the gate about the ledger. -/
def ledgerProblems : Except VerifyFailure (List Text) :=
  match ledgerNames found with
  | [name] => do
    let members ← readBelow disk root "campaigns".toList name >>= membersOf
    let completed ← sizeOf ((members.lookup "completed".toList).getD (.object []))
    let required := (outer.expected.lookup "E3".toList).getD 0
    pure (if completed = required then []
      else ["campaign ledger holds ".toList ++ decimal completed ++
        " completed runs, expected ".toList ++ decimal required])
  | names => pure ["expected exactly one campaign ledger, found ".toList ++ decimal names.length]

/-- `manifest.get("protocol_git_commit")`: a string, or missing. -/
def commitOf (manifest : Json) : Except VerifyFailure (Option Text) := do
  match memberOrNone (← membersOf manifest) "protocol_git_commit".toList with
  | .word .null => pure none
  | .string commit => pure (some commit)
  | _ => .error .malformed

/-- The part of the gate about the lock. -/
def lockProblems (ms : List Json) : Except VerifyFailure (List Text) :=
  match outer.lock with
  | none => pure ["no protocol lock is readable".toList]
  | some lock => do
    let locked ← subscript "implementation".toList lock >>= subscript "git_commit".toList
    let commits ← ms.mapM commitOf
    let differences := (outer.compare lock).map fun p => "lock: ".toList ++ p
    match commits.dedup with
    | [some recorded] =>
      if recorded = [] ∨ isString recorded locked then pure differences
      else do
        let commit ← asText locked
        pure (differences ++ ["note: manifests record ".toList ++ recorded.take 12 ++
          ", the lock names ".toList ++ commit.take 12 ++
          " -- expected, since a lock cannot name the commit that carries it".toList])
    | [none] => pure differences
    | distinct => pure (differences ++
        ["manifests span ".toList ++ decimal distinct.length ++ " implementation commits".toList])

/-- `_completion_gate`. -/
def completionGate (ms : List Json) : Except VerifyFailure (List Text) := do
  let experiments ← ms.mapM experimentOf
  let status ← ms.mapM (statusProblems outer)
  let evidence ← ms.mapM (evidenceProblems outer disk root)
  let ledger ← ledgerProblems outer disk root found
  let lock ← lockProblems outer ms
  pure (countProblems outer experiments ++ status.flatten ++ evidence.flatten ++ ledger ++ lock)

/-- A problem that is only a note. -/
def isNote (problem : Text) : Bool := "note:".toList <+: problem

end Gate

/-! ## 3.  The freeze -/

/-- `RAW_SUBDIRS`, by their components. -/
def rawSubdirs : List (List Text) :=
  [["raw".toList, "e0".toList], ["raw".toList, "e1".toList], ["raw".toList, "e2".toList],
    ["raw".toList, "e3".toList, "latency".toList],
    ["raw".toList, "e3".toList, "throughput".toList], ["raw".toList, "e4".toList],
    ["manifests".toList], ["environment".toList], ["evidence".toList]]

/-- What stands there is a file. -/
def isFile : Option Node → Bool
  | some (.file _) => true
  | _ => false

/-- `path.mkdir(parents=True, exist_ok=True)`: no part of the way may be a file. -/
def makeDirectory (disk : Disk) (place : Place) : Except VerifyFailure Disk :=
  if place.inits.any fun front => isFile (disk front) then .error .notAFile
  else .ok fun p => if p <+: place ∧ (disk p).isNone then some .directory else disk p

/-- `ensure_layout`. -/
def ensureLayout (root : Place) (disk : Disk) : Except VerifyFailure Disk :=
  rawSubdirs.foldlM (fun disk sub => makeDirectory disk (root ++ sub)) disk

/-- `path.write_text(text)`, in a directory that exists. -/
def writeText (disk : Disk) (place : Place) (t : Text) : Except VerifyFailure Disk :=
  match disk place with
  | some .directory => .error .notAFile
  | _ => .ok (Function.update disk place (some (.file (Utf8.encode t))))

section Main

variable (outer : Surroundings) (root : PosixPath)

/-- `(lock or {}).get(key, {})`, as `.get` is called on it. -/
def lockSection (key : Text) : Except VerifyFailure (List (Text × Json)) :=
  match outer.lock with
  | none => .ok []
  | some lock => do
    let members ← membersOf lock
    membersOf ((members.lookup key).getD (.object []))

/-- The artifact `collection-completion.json`. -/
def completionDocument (now : Text) (campaign implementation : List (Text × Json))
    (experiments : List Json) (notes : List Text) : Json :=
  .object [("artifact".toList, .string "formal_collection_completion".toList),
    ("generated_at".toList, .string now), ("publication_data".toList, .word .true),
    ("campaign_id".toList, memberOrNone campaign "campaign_id".toList),
    ("protocol_lock".toList, .object
      [("git_commit".toList, memberOrNone implementation "git_commit".toList),
        ("git_tag".toList, memberOrNone implementation "git_tag".toList)]),
    ("manifests".toList, .int experiments.length),
    ("runs_by_experiment".toList, .object
      (outer.expected.map fun e => (e.1, .int (experiments.countP (isString e.1))))),
    ("expected_by_experiment".toList, .object (outer.expected.map fun e => (e.1, .int e.2))),
    ("all_runs_final".toList, .word .true), ("all_named_artifacts_verified".toList, .word .true),
    ("notes".toList, .array (notes.map .string)),
    ("collection_phase".toList, .string "complete".toList),
    ("statement".toList, .string
      ("Formal collection is closed. No further experiment run may be ".toList ++
        "appended to this campaign; a later recollection is a separate, ".toList ++
        "explicitly versioned campaign (Task 07 §43).".toList))]

/-- An entry of the inventory, as it is archived. -/
def InventoryEntry.toJson (entry : InventoryEntry) : Json :=
  .object [("path".toList, .string entry.path), ("sha256".toList, .string entry.sha256),
    ("bytes".toList, .int entry.bytes)]

/-- The artifact `raw-archive-inventory.json`. -/
def archiveDocument (now rootText : Text) (campaign implementation : List (Text × Json))
    (entries : List InventoryEntry) : Json :=
  .object [("artifact".toList, .string "formal_raw_archive_inventory".toList),
    ("generated_at".toList, .string now),
    ("campaign_id".toList, memberOrNone campaign "campaign_id".toList),
    ("producing_git_commit".toList, memberOrNone implementation "git_commit".toList),
    ("producing_git_tag".toList, memberOrNone implementation "git_tag".toList),
    ("result_root".toList, .string rootText), ("file_count".toList, .int entries.length),
    ("total_bytes".toList, .int (entries.map InventoryEntry.bytes).sum),
    ("aggregate_sha256".toList, .string (aggregate outer.sha256 entries)),
    ("aggregate_definition".toList, .string
      ("SHA-256 over the newline-joined '<sha256>  <path>' lines of the ".toList ++
        "inventory below, sorted by POSIX path. Defined over content and ".toList ++
        "names rather than over a container, so it does not depend on tar ".toList ++
        "format, compression or timestamps. This file and ".toList ++
        "collection-completion.json are excluded: they are written after ".toList ++
        "the inventory is computed, so including them would record their ".toList ++
        "previous contents and make the digest unverifiable against the ".toList ++
        "collection it describes.".toList)),
    ("excluded_from_inventory".toList, .array (selfWritten.map .string)),
    ("files".toList, .array (entries.map InventoryEntry.toJson))]

/-- What is written of a document. -/
def documentText (document : Json) : Text := dumps .indented document ++ ['\n']

variable (rootText : Text) (rglob : Disk → List Place)

/-- `main`: the disk it leaves, and whether the collection is frozen. -/
def freeze (now : Text) (disk : Disk) : Except VerifyFailure (Disk × Bool) := do
  let disk ← ensureLayout (located root) disk
  let ms ← manifests disk root (rglob disk)
  let problems ← completionGate outer disk root (rglob disk) ms
  if problems.all isNote then do
    let entries := inventory outer.sha256 disk (located root) (rglob disk)
    let campaign ← lockSection outer "campaign".toList
    let implementation ← lockSection outer "implementation".toList
    let experiments ← ms.mapM experimentOf
    let disk ← writeText disk (located root ++ completionParts)
      (documentText (completionDocument outer now campaign implementation experiments problems))
    let disk ← writeText disk (located root ++ archiveParts)
      (documentText (archiveDocument outer now rootText campaign implementation entries))
    pure (disk, true)
  else pure (disk, false)

end Main

/-! ## 4.  What the aggregate pins -/

/-- What is asked of SHA-256: no two contents with one digest, and hexadecimal digits. -/
structure Hashes (sha256 : List UInt8 → Text) : Prop where
  injective : Function.Injective sha256
  digits : ∀ bytes, ∀ c ∈ sha256 bytes, c ∈ "0123456789abcdef".toList

/-- The names of the files below the root: no separator, as in every file system, and no line
break. -/
def Named (disk : Disk) (root : Place) : Prop :=
  ∀ parts bytes, disk (root ++ parts) = some (.file bytes) →
    ∀ part ∈ parts, '/' ∉ part ∧ '\n' ∉ part

/-- A file of the collection: everything but the two artifacts. -/
structure Collected (disk : Disk) (root : Place) (parts : List Text) (bytes : List UInt8) :
    Prop where
  ne : parts ≠ []
  file : disk (root ++ parts) = some (.file bytes)
  kept : asPosix parts ∉ selfWritten

/-- Two collections have the same files with the same contents. -/
def SameCollection (disk disk' : Disk) (root root' : Place) : Prop :=
  ∀ parts bytes, Collected disk root parts bytes ↔ Collected disk' root' parts bytes

section Aggregate

variable {sha256 : List UInt8 → Text} {disk disk' : Disk} {root root' : Place}
  {found found' : List Place}

theorem asPosix_injective {parts parts' : List Text} (hne : parts ≠ []) (hne' : parts' ≠ [])
    (h : ∀ part ∈ parts, '/' ∉ part) (h' : ∀ part ∈ parts', '/' ∉ part)
    (heq : asPosix parts = asPosix parts') : parts = parts' :=
  Separated.eq_of_intercalate_eq h hne h' hne' heq

theorem Collected.slash {parts : List Text} {bytes : List UInt8} (hnamed : Named disk root)
    (h : Collected disk root parts bytes) : ∀ part ∈ parts, '/' ∉ part :=
  fun part hpart => (hnamed parts bytes h.file part hpart).1

/-- A path leads to one file. -/
theorem Collected.eq_of_path {parts parts' : List Text} {bytes bytes' : List UInt8}
    (hnamed : Named disk root) (hnamed' : Named disk' root')
    (h : Collected disk root parts bytes) (h' : Collected disk' root' parts' bytes')
    (heq : asPosix parts = asPosix parts') : parts = parts' :=
  asPosix_injective h.ne h'.ne (h.slash hnamed) (h'.slash hnamed') heq

theorem entryAt_eq_some_iff {parts : List Text} {entry : InventoryEntry} (hne : parts ≠ []) :
    entryAt sha256 disk root parts = some entry ↔ ∃ bytes, Collected disk root parts bytes ∧
      entry = ⟨asPosix parts, sha256 bytes, bytes.length⟩ := by
  unfold entryAt
  constructor
  · intro h
    split at h
    · rename_i bytes hfile
      split_ifs at h with hself
      exact ⟨bytes, ⟨hne, hfile, hself⟩, (Option.some_inj.mp h).symm⟩
    · cases h
  · rintro ⟨bytes, h, rfl⟩
    rw [h.file]
    exact if_neg h.kept

/-- **The inventory lists the collection.** -/
theorem mem_inventory_iff (hfound : Enumerates disk root found) {entry : InventoryEntry} :
    entry ∈ inventory sha256 disk root found ↔ ∃ parts bytes, Collected disk root parts bytes ∧
      entry = ⟨asPosix parts, sha256 bytes, bytes.length⟩ := by
  rw [inventory, List.mem_insertionSort, List.mem_filterMap]
  constructor
  · rintro ⟨parts, hparts, hentry⟩
    rw [List.mem_insertionSort, hfound.mem] at hparts
    obtain ⟨bytes, h⟩ := (entryAt_eq_some_iff hparts.1).mp hentry
    exact ⟨parts, bytes, h⟩
  · rintro ⟨parts, bytes, h, hentry⟩
    refine ⟨parts, ?_, (entryAt_eq_some_iff h.ne).mpr ⟨bytes, h, hentry⟩⟩
    rw [List.mem_insertionSort, hfound.mem, h.file]
    exact ⟨h.ne, Option.some_ne_none _⟩

theorem pairwise_inventory (sha256 : List UInt8 → Text) (disk : Disk) (root : Place)
    (found : List Place) :
    (inventory sha256 disk root found).Pairwise fun x y => x.path ≤ y.path := by
  have : Std.Total fun x y : InventoryEntry => x.path ≤ y.path :=
    ⟨fun x y => le_total x.path y.path⟩
  have : IsTrans _ fun x y : InventoryEntry => x.path ≤ y.path := ⟨fun _ _ _ => le_trans⟩
  exact List.pairwise_insertionSort _ _

theorem nodup_inventory (hfound : Enumerates disk root found) (hnamed : Named disk root) :
    (inventory sha256 disk root found).Nodup := by
  refine (List.perm_insertionSort _ _).nodup_iff.mpr ?_
  have hsorted : (found.insertionSort fun x y => x ≤ y).Nodup :=
    (List.perm_insertionSort _ _).nodup_iff.mpr hfound.nodup
  have hplaces : (found.insertionSort fun x y => x ≤ y).Pairwise fun parts parts' =>
      parts ≠ [] ∧ parts' ≠ [] ∧ parts ≠ parts' := by
    refine List.Pairwise.imp_of_mem (fun hparts hparts' hne => ?_) hsorted
    rw [List.mem_insertionSort, hfound.mem] at hparts hparts'
    exact ⟨hparts.1, hparts'.1, hne⟩
  refine List.Pairwise.filterMap _ ?_ hplaces
  rintro parts parts' ⟨hparts, hparts', hne⟩ entry hentry entry' hentry' rfl
  obtain ⟨bytes, h, rfl⟩ := (entryAt_eq_some_iff hparts).mp hentry
  obtain ⟨bytes', h', heq⟩ := (entryAt_eq_some_iff hparts').mp hentry'
  exact hne (h.eq_of_path hnamed hnamed h' (InventoryEntry.mk.inj heq).1)

/-- **The inventory depends on the collection alone**, not on what is enumerated first. -/
theorem inventory_eq_of_same (hfound : Enumerates disk root found)
    (hfound' : Enumerates disk' root' found') (hnamed : Named disk root)
    (hnamed' : Named disk' root') (hsame : SameCollection disk disk' root root') :
    inventory sha256 disk root found = inventory sha256 disk' root' found' := by
  have hmem : ∀ entry, entry ∈ inventory sha256 disk root found ↔
      entry ∈ inventory sha256 disk' root' found' := by
    intro entry
    rw [mem_inventory_iff hfound, mem_inventory_iff hfound']
    exact exists_congr fun parts => exists_congr fun bytes => and_congr_left' (hsame parts bytes)
  have hperm := (List.perm_ext_iff_of_nodup (nodup_inventory hfound hnamed)
    (nodup_inventory hfound' hnamed')).mpr hmem
  refine hperm.eq_of_pairwise (fun entry entry' hentry hentry' hle hle' => ?_)
    (pairwise_inventory sha256 disk root found) (pairwise_inventory sha256 disk' root' found')
  obtain ⟨parts, bytes, h, rfl⟩ := (mem_inventory_iff hfound).mp hentry
  obtain ⟨parts', bytes', h', rfl⟩ := (mem_inventory_iff hfound').mp hentry'
  obtain rfl := h.eq_of_path hnamed hnamed' h' (le_antisymm hle hle')
  have hbytes := Option.some_inj.mp (((hsame parts bytes).mp h).file.symm.trans h'.file)
  rw [(Node.file.inj hbytes)]

/-! ### The lines -/

theorem newline_notMem_line (hashes : Hashes sha256) (hfound : Enumerates disk root found)
    (hnamed : Named disk root) {entry : InventoryEntry}
    (hentry : entry ∈ inventory sha256 disk root found) :
    '\n' ∉ aggregateLine entry ∧ aggregateLine entry ≠ [] := by
  obtain ⟨parts, bytes, h, rfl⟩ := (mem_inventory_iff hfound).mp hentry
  constructor
  · intro hmem
    rcases List.mem_append.mp hmem with hmem | hmem
    · exact absurd (hashes.digits bytes _ hmem) (by decide)
    · simp only [List.mem_cons, Char.reduceEq, false_or] at hmem
      rcases Separated.mem_intercalate hmem with hmem | ⟨part, hpart, hmem⟩
      · exact absurd hmem (by decide)
      · exact (hnamed parts bytes h.file part hpart).2 hmem
  · exact List.append_ne_nil_of_right_ne_nil _ (List.cons_ne_nil _ _)

/-- A line says digest and path: there is no blank in a digest. -/
theorem eq_of_aggregateLine_eq {entry entry' : InventoryEntry} (hblank : ' ' ∉ entry.sha256)
    (hblank' : ' ' ∉ entry'.sha256) (heq : aggregateLine entry = aggregateLine entry') :
    entry.sha256 = entry'.sha256 ∧ entry.path = entry'.path := by
  obtain ⟨hsha, hrest⟩ := Separated.eq_of_append_cons_eq hblank hblank' heq
  exact ⟨hsha, (List.cons.inj hrest).2⟩

/-- A file of the one collection has its line among those of the other. -/
theorem collected_of_lines (hashes : Hashes sha256) (hfound : Enumerates disk root found)
    (hfound' : Enumerates disk' root' found') (hnamed : Named disk root)
    (hnamed' : Named disk' root')
    (hlines : (inventory sha256 disk root found).map aggregateLine =
      (inventory sha256 disk' root' found').map aggregateLine) {parts : List Text}
    {bytes : List UInt8} (h : Collected disk root parts bytes) :
    Collected disk' root' parts bytes := by
  have hentry := (@mem_inventory_iff sha256 _ _ _ hfound _).mpr ⟨parts, bytes, h, rfl⟩
  have hline := List.mem_map_of_mem (f := aggregateLine) hentry
  rw [hlines] at hline
  obtain ⟨entry, hentry', heq⟩ := List.mem_map.mp hline
  obtain ⟨parts', bytes', h', rfl⟩ := (mem_inventory_iff hfound').mp hentry'
  have hblank : ∀ bytes, ' ' ∉ sha256 bytes := fun bytes hmem =>
    absurd (hashes.digits bytes _ hmem) (by decide)
  obtain ⟨hsha, hpath⟩ := eq_of_aggregateLine_eq (hblank bytes') (hblank bytes) heq
  obtain rfl := hashes.injective hsha
  obtain rfl := h'.eq_of_path hnamed' hnamed h hpath
  exact h'

/-- **The aggregate pins the collection.**  Two collections have one aggregate if and only if
they have the same files with the same contents, the two artifacts of the freeze apart. -/
theorem aggregate_eq_iff (hashes : Hashes sha256) (hfound : Enumerates disk root found)
    (hfound' : Enumerates disk' root' found') (hnamed : Named disk root)
    (hnamed' : Named disk' root') :
    aggregate sha256 (inventory sha256 disk root found) =
        aggregate sha256 (inventory sha256 disk' root' found') ↔
      SameCollection disk disk' root root' := by
  constructor
  · intro heq
    have hlines : (inventory sha256 disk root found).map aggregateLine =
        (inventory sha256 disk' root' found').map aggregateLine := by
      refine Separated.eq_of_intercalate_eq_of_ne_nil ?_ ?_
        (Utf8.encode_injective (hashes.injective heq))
      · exact List.forall_mem_map.mpr fun entry hentry =>
          newline_notMem_line hashes hfound hnamed hentry
      · exact List.forall_mem_map.mpr fun entry hentry =>
          newline_notMem_line hashes hfound' hnamed' hentry
    exact fun parts bytes => ⟨collected_of_lines hashes hfound hfound' hnamed hnamed' hlines,
      collected_of_lines hashes hfound' hfound hnamed' hnamed hlines.symm⟩
  · intro hsame
    rw [inventory_eq_of_same hfound hfound' hnamed hnamed' hsame]

/-- **One file can pass for two**, when there is a line break in its name. -/
theorem aggregate_newline (sha256 : List UInt8 → Text) (bytes bytes' : List UInt8) :
    aggregate sha256 [⟨'a' :: '\n' :: sha256 bytes' ++ ' ' :: ' ' :: ['b'], sha256 bytes,
        bytes.length⟩] =
      aggregate sha256 [⟨['a'], sha256 bytes, bytes.length⟩,
        ⟨['b'], sha256 bytes', bytes'.length⟩] := by
  unfold aggregate aggregateLine
  simp [List.intercalate_cons_cons]

end Aggregate

/-! ## 5.  Freezing again -/

/-- The two disks are the same but for the two artifacts. -/
def SameElsewhere (root : Place) (disk disk' : Disk) : Prop :=
  ∀ place, place ≠ root ++ completionParts → place ≠ root ++ archiveParts →
    disk place = disk' place

/-- The layout is there. -/
def Laid (root : Place) (disk : Disk) : Prop :=
  ∀ sub ∈ rawSubdirs, ∀ front, front <+: root ++ sub → disk front = some .directory

section Layout

variable {disk disk' : Disk} {root place : Place}

theorem makeDirectory_eq_ok (h : makeDirectory disk place = .ok disk') :
    (∀ front, front <+: place → disk' front = some .directory) ∧
      ∀ p, disk p ≠ none → disk' p = disk p := by
  unfold makeDirectory at h
  split at h
  · cases h
  rename_i hfile
  rw [← Except.ok.inj h]
  constructor
  · intro front hfront
    cases hnode : disk front with
    | none => exact if_pos ⟨hfront, by rw [hnode]; rfl⟩
    | some node =>
      cases node with
      | directory =>
        refine (if_neg fun hmissing => ?_).trans hnode
        rw [hnode] at hmissing
        exact absurd hmissing.2 (by decide)
      | file bytes =>
        refine absurd (List.any_eq_true.mpr ⟨front, (List.mem_inits _ _).mpr hfront, ?_⟩) hfile
        rw [hnode]
        rfl
  · intro p hp
    exact if_neg fun hnone => hp (Option.isNone_iff_eq_none.mp hnone.2)

/-- Where the directories are there, nothing is made. -/
theorem makeDirectory_of_laid (h : ∀ front, front <+: place → disk front = some .directory) :
    makeDirectory disk place = .ok disk := by
  have hnone : ¬ (place.inits.any fun front => isFile (disk front)) = true := by
    rw [List.any_eq_true]
    rintro ⟨front, hfront, hfile⟩
    rw [h front ((List.mem_inits _ _).mp hfront)] at hfile
    cases hfile
  rw [makeDirectory, if_neg hnone]
  refine congrArg Except.ok (funext fun p => if_neg ?_)
  rintro ⟨hp, hmissing⟩
  rw [h p hp] at hmissing
  cases hmissing

theorem laid_of_foldlM {subs done : List (List Text)}
    (hdone : ∀ sub ∈ done, ∀ front, front <+: root ++ sub → disk front = some .directory)
    (h : subs.foldlM (fun disk sub => makeDirectory disk (root ++ sub)) disk = .ok disk') :
    ∀ sub ∈ done ++ subs, ∀ front, front <+: root ++ sub → disk' front = some .directory := by
  induction subs generalizing disk done with
  | nil =>
    obtain rfl := Except.ok.inj h
    rw [List.append_nil]
    exact hdone
  | cons sub subs ih =>
    rw [List.foldlM_cons] at h
    obtain ⟨middle, hmiddle, hrest⟩ := Fallible.exists_of_bind h
    obtain ⟨hmade, hkept⟩ := makeDirectory_eq_ok hmiddle
    have hdone' : ∀ sub' ∈ done ++ [sub], ∀ front, front <+: root ++ sub' →
        middle front = some .directory := by
      intro sub' hsub' front hfront
      rcases List.mem_append.mp hsub' with hsub' | hsub'
      · have hdirectory := hdone sub' hsub' front hfront
        exact (hkept front (by rw [hdirectory]; exact Option.some_ne_none _)).trans hdirectory
      · rw [List.mem_singleton.mp hsub'] at hfront
        exact hmade front hfront
    have hall := ih hdone' hrest
    rwa [List.append_assoc] at hall

theorem laid_of_ensureLayout (h : ensureLayout root disk = .ok disk') : Laid root disk' :=
  @laid_of_foldlM _ _ _ _ [] (fun _ hsub => absurd hsub List.not_mem_nil) h

theorem ensureLayout_of_laid (h : Laid root disk) : ensureLayout root disk = .ok disk := by
  have hfold : ∀ subs, subs ⊆ rawSubdirs →
      subs.foldlM (fun disk sub => makeDirectory disk (root ++ sub)) disk = .ok disk := by
    intro subs hsubs
    induction subs with
    | nil => rfl
    | cons sub subs ih =>
      rw [List.foldlM_cons, makeDirectory_of_laid (h sub (hsubs List.mem_cons_self))]
      exact ih fun s hs => hsubs (List.mem_cons_of_mem sub hs)
  exact hfold rawSubdirs (List.Subset.refl _)

end Layout

/-! ### What the gate looks at -/

section Looks

variable {outer : Surroundings} {disk disk' : Disk} {root : PosixPath} {found found' : List Place}

theorem jsonName_eq_some_iff {directory name : Text} {parts : Place} :
    jsonName directory parts = some name ↔ parts = [directory, name] ∧ ".json".toList <:+ name := by
  unfold jsonName
  split
  · rename_i d name'
    constructor
    · intro h
      split_ifs at h with hname
      obtain rfl := Option.some_inj.mp h
      exact ⟨by rw [hname.1], hname.2⟩
    · rintro ⟨hparts, hsuffix⟩
      obtain ⟨rfl, hrest⟩ := List.cons.inj hparts
      obtain ⟨rfl, -⟩ := List.cons.inj hrest
      exact if_pos ⟨rfl, hsuffix⟩
  · rename_i hparts
    refine iff_of_false (Option.some_ne_none name).symm ?_
    rintro ⟨rfl, -⟩
    exact hparts directory name rfl

/-- Two listings of a directory that holds the same names. -/
theorem jsonNames_eq (hfound : Enumerates disk (located root) found)
    (hfound' : Enumerates disk' (located root) found') {directory : Text}
    (hsame : ∀ name, disk (located root ++ [directory, name]) =
      disk' (located root ++ [directory, name])) :
    jsonNames found directory = jsonNames found' directory := by
  have hnodup : ∀ {disk : Disk} {found : List Place}, Enumerates disk (located root) found →
      (found.filterMap (jsonName directory)).Nodup := fun hfound =>
    hfound.nodup.filterMap fun parts parts' name h h' =>
      (jsonName_eq_some_iff.mp h).1.trans (jsonName_eq_some_iff.mp h').1.symm
  have hmem : ∀ name, name ∈ found.filterMap (jsonName directory) ↔
      name ∈ found'.filterMap (jsonName directory) := by
    intro name
    rw [List.mem_filterMap, List.mem_filterMap]
    refine exists_congr fun parts => ?_
    rw [jsonName_eq_some_iff, hfound.mem, hfound'.mem]
    constructor
    · rintro ⟨⟨hne, hthere⟩, rfl, hsuffix⟩
      exact ⟨⟨hne, hsame name ▸ hthere⟩, rfl, hsuffix⟩
    · rintro ⟨⟨hne, hthere⟩, rfl, hsuffix⟩
      exact ⟨⟨hne, (hsame name).symm ▸ hthere⟩, rfl, hsuffix⟩
  have hperm := (List.perm_ext_iff_of_nodup (hnodup hfound) (hnodup hfound')).mpr hmem
  exact (((List.perm_insertionSort _ _).trans hperm).trans
    (List.perm_insertionSort _ _).symm).eq_of_pairwise'
    (List.pairwise_insertionSort (fun x y : Text => x ≤ y) _) (List.pairwise_insertionSort _ _)

/-- A file of another directory is not one of the two artifacts. -/
theorem SameElsewhere.below (h : SameElsewhere (located root) disk disk') {directory : Text}
    (hne : directory ≠ "environment".toList) (name : Text) :
    disk (located root ++ [directory, name]) = disk' (located root ++ [directory, name]) := by
  refine h _ (fun heq => hne ?_) fun heq => hne ?_
  · exact (List.cons.inj (List.append_cancel_left heq)).1
  · exact (List.cons.inj (List.append_cancel_left heq)).1

theorem readBelow_eq (h : SameElsewhere (located root) disk disk') {directory : Text}
    (hne : directory ≠ "environment".toList) (name : Text) :
    readBelow disk root directory name = readBelow disk' root directory name := by
  rw [readBelow, readBelow, h.below hne]

theorem manifests_eq (hfound : Enumerates disk (located root) found)
    (hfound' : Enumerates disk' (located root) found')
    (h : SameElsewhere (located root) disk disk') :
    manifests disk root found = manifests disk' root found' := by
  have hne : "manifests".toList ≠ "environment".toList := by decide
  rw [manifests, manifests, jsonNames_eq hfound hfound' (h.below hne)]
  exact Fallible.mapM_congr fun name _ => readBelow_eq h hne name

theorem ledgerProblems_eq (hfound : Enumerates disk (located root) found)
    (hfound' : Enumerates disk' (located root) found')
    (h : SameElsewhere (located root) disk disk') :
    ledgerProblems outer disk root found = ledgerProblems outer disk' root found' := by
  have hne : "campaigns".toList ≠ "environment".toList := by decide
  unfold ledgerProblems ledgerNames
  rw [jsonNames_eq hfound hfound' (h.below hne)]
  split
  · rename_i name _
    rw [readBelow_eq h hne]
  · rfl

/-- The manifest names a file at this path, relative to the results. -/
def Names (manifest : Json) (path : Text) : Prop :=
  ∃ members items fields, manifest = .object members ∧
    itemsOf (namedArtifacts members) = .ok items ∧ .object fields ∈ items ∧
    fields.lookup "path".toList = some (.string path)

/-- The manifest names neither of the two artifacts. -/
def Spares (root : PosixPath) (manifest : Json) : Prop :=
  ∀ path, Names manifest path →
    located (root.joinpath path) ≠ located root ++ completionParts ∧
      located (root.joinpath path) ≠ located root ++ archiveParts

theorem artifactProblem_eq (h : SameElsewhere (located root) disk disk') {run : Text}
    {artifact : Json}
    (hspares : ∀ fields path, artifact = .object fields →
      fields.lookup "path".toList = some (.string path) →
      located (root.joinpath path) ≠ located root ++ completionParts ∧
        located (root.joinpath path) ≠ located root ++ archiveParts) :
    artifactProblem outer disk root run artifact =
      artifactProblem outer disk' root run artifact := by
  cases artifact with
  | object fields =>
    unfold artifactProblem subscript
    dsimp only
    cases hpath : fields.lookup "path".toList with
    | none => rfl
    | some value =>
      cases value with
      | string path =>
        have hplace := h _ (hspares fields path rfl hpath).1 (hspares fields path rfl hpath).2
        simp only [Option.elim, bind, Except.bind, asText, hplace]
      | _ => rfl
  | _ => rfl

theorem evidenceProblems_eq (h : SameElsewhere (located root) disk disk') {manifest : Json}
    (hspares : Spares root manifest) :
    evidenceProblems outer disk root manifest = evidenceProblems outer disk' root manifest := by
  unfold evidenceProblems
  cases manifest with
  | object members =>
    cases hitems : itemsOf (namedArtifacts members) with
    | error e => simp only [membersOf, hitems, bind, Except.bind]
    | ok items =>
      have hloop := Fallible.mapM_congr (f := artifactProblem outer disk root (runOf outer members))
        (g := artifactProblem outer disk' root (runOf outer members)) (l := items)
        fun artifact hartifact => artifactProblem_eq h fun fields path hfields hpath =>
          hspares path ⟨members, items, fields, rfl, hitems, hfields ▸ hartifact, hpath⟩
      simp only [membersOf, hitems, bind, Except.bind, hloop]
  | _ => rfl

/-- **The gate does not look at the two artifacts**, unless a manifest names one. -/
theorem completionGate_eq (hfound : Enumerates disk (located root) found)
    (hfound' : Enumerates disk' (located root) found')
    (h : SameElsewhere (located root) disk disk') {ms : List Json}
    (hspares : ∀ m ∈ ms, Spares root m) :
    completionGate outer disk root found ms = completionGate outer disk' root found' ms := by
  unfold completionGate
  rw [ledgerProblems_eq hfound hfound' h,
    Fallible.mapM_congr fun m hm => evidenceProblems_eq h (hspares m hm)]

end Looks

/-! ### One freeze after another -/

section Refreeze

variable {outer : Surroundings} {root : PosixPath} {rootText : Text} {rglob : Disk → List Place}

/-- The disk after another freeze, if it freezes. -/
def again (outer : Surroundings) (root : PosixPath) (rootText : Text) (rglob : Disk → List Place)
    (disk : Disk) (now : Text) : Option Disk :=
  match freeze outer root rootText rglob now disk with
  | .ok (disk, true) => some disk
  | _ => none

/-- What a freeze leaves that found `entries`: the archive of them. -/
def archiveFile (outer : Surroundings) (rootText now : Text)
    (campaign implementation : List (Text × Json)) (entries : List InventoryEntry) : Node :=
  .file (Utf8.encode (documentText
    (archiveDocument outer now rootText campaign implementation entries)))

/-- What lets a disk pass: its manifests, the problems found, and what is read of the lock. -/
structure Passes (outer : Surroundings) (root : PosixPath) (disk : Disk) (found : List Place)
    (ms : List Json) (problems : List Text) (campaign implementation : List (Text × Json))
    (experiments : List Json) : Prop where
  manifests : manifests disk root found = .ok ms
  gate : completionGate outer disk root found ms = .ok problems
  notes : problems.all isNote = true
  campaign : lockSection outer "campaign".toList = .ok campaign
  implementation : lockSection outer "implementation".toList = .ok implementation
  experiments : ms.mapM experimentOf = .ok experiments

/-- Where the two artifacts are written. -/
structure Writable (root : Place) (disk : Disk) : Prop where
  completion : disk (root ++ completionParts) ≠ some .directory
  archive : disk (root ++ archiveParts) ≠ some .directory

theorem completion_ne_archive (root : Place) : root ++ completionParts ≠ root ++ archiveParts :=
  fun heq => absurd (List.append_cancel_left heq) (by decide)

theorem writeText_eq_ok_iff {disk disk' : Disk} {place : Place} {t : Text} :
    writeText disk place t = .ok disk' ↔ disk place ≠ some .directory ∧
      disk' = Function.update disk place (some (.file (Utf8.encode t))) := by
  unfold writeText
  split
  · rename_i hdirectory
    refine ⟨fun h => ?_, fun h => absurd hdirectory h.1⟩
    cases h
  · rename_i hother
    exact ⟨fun h => ⟨hother, (Except.ok.inj h).symm⟩, fun h => congrArg Except.ok h.2.symm⟩

/-- Writing the two artifacts. -/
theorem exists_writes {disk : Disk} {place : Place} (hwritable : Writable place disk)
    (completion archive : Text) :
    ∃ disk', (writeText disk (place ++ completionParts) completion >>= fun d =>
        writeText d (place ++ archiveParts) archive) = .ok disk' ∧
      SameElsewhere place disk disk' ∧ Writable place disk' ∧
      disk' (place ++ archiveParts) = some (.file (Utf8.encode archive)) := by
  have hne := completion_ne_archive place
  refine ⟨Function.update (Function.update disk (place ++ completionParts)
    (some (.file (Utf8.encode completion)))) (place ++ archiveParts)
    (some (.file (Utf8.encode archive))), ?_, fun p hp hp' => ?_, ⟨?_, ?_⟩, ?_⟩
  · rw [writeText_eq_ok_iff.mpr ⟨hwritable.completion, rfl⟩]
    refine writeText_eq_ok_iff.mpr ⟨?_, rfl⟩
    rw [Function.update_of_ne hne.symm]
    exact hwritable.archive
  · rw [Function.update_of_ne hp', Function.update_of_ne hp]
  · rw [Function.update_of_ne hne, Function.update_self]
    simp
  · rw [Function.update_self]
    simp
  · rw [Function.update_self]

/-- A freeze that succeeds, taken apart. -/
theorem exists_of_freeze {now : Text} {disk disk' : Disk}
    (h : freeze outer root rootText rglob now disk = .ok (disk', true)) :
    ∃ laid ms problems campaign implementation experiments,
      ensureLayout (located root) disk = .ok laid ∧
      Passes outer root laid (rglob laid) ms problems campaign implementation experiments ∧
      Writable (located root) laid ∧ SameElsewhere (located root) laid disk' ∧
      Writable (located root) disk' ∧ disk' (located root ++ archiveParts) =
        some (archiveFile outer rootText now campaign implementation
          (inventory outer.sha256 laid (located root) (rglob laid))) := by
  unfold freeze at h
  obtain ⟨laid, hlaid, h⟩ := Fallible.exists_of_bind h
  obtain ⟨ms, hms, h⟩ := Fallible.exists_of_bind h
  obtain ⟨problems, hproblems, h⟩ := Fallible.exists_of_bind h
  split at h
  · rename_i hnotes
    obtain ⟨campaign, hcampaign, h⟩ := Fallible.exists_of_bind h
    obtain ⟨implementation, himplementation, h⟩ := Fallible.exists_of_bind h
    obtain ⟨experiments, hexperiments, h⟩ := Fallible.exists_of_bind h
    obtain ⟨middle, hmiddle, h⟩ := Fallible.exists_of_bind h
    obtain ⟨last, hlast, h⟩ := Fallible.exists_of_bind h
    obtain ⟨hcompletion, rfl⟩ := writeText_eq_ok_iff.mp hmiddle
    obtain ⟨harchive, rfl⟩ := writeText_eq_ok_iff.mp hlast
    have hwritable : Writable (located root) laid := by
      refine ⟨hcompletion, ?_⟩
      rwa [Function.update_of_ne (completion_ne_archive _).symm] at harchive
    obtain ⟨written, hwritten, hsame, hwritable', hfile⟩ := exists_writes hwritable
      (documentText (completionDocument outer now campaign implementation experiments problems))
      (documentText (archiveDocument outer now rootText campaign implementation
        (inventory outer.sha256 laid (located root) (rglob laid))))
    rw [hmiddle] at hwritten
    obtain rfl := Except.ok.inj (hwritten.symm.trans hlast)
    obtain ⟨rfl, -⟩ := Prod.mk.inj (Except.ok.inj h)
    exact ⟨laid, ms, problems, campaign, implementation, experiments, hlaid,
      ⟨hms, hproblems, hnotes, hcampaign, himplementation, hexperiments⟩, hwritable, hsame,
      hwritable', hfile⟩
  · obtain ⟨-, hfalse⟩ := Prod.mk.inj (Except.ok.inj h)
    cases hfalse

/-- A freeze of a disk that passes. -/
theorem exists_freeze {disk : Disk} {ms : List Json} {problems : List Text}
    {campaign implementation : List (Text × Json)} {experiments : List Json}
    (hlaid : Laid (located root) disk)
    (hpasses : Passes outer root disk (rglob disk) ms problems campaign implementation experiments)
    (hwritable : Writable (located root) disk) (now : Text) :
    ∃ disk', freeze outer root rootText rglob now disk = .ok (disk', true) ∧
      SameElsewhere (located root) disk disk' ∧ Writable (located root) disk' ∧
      disk' (located root ++ archiveParts) =
        some (archiveFile outer rootText now campaign implementation
          (inventory outer.sha256 disk (located root) (rglob disk))) := by
  obtain ⟨disk', hwrites, hsame, hwritable', hfile⟩ := exists_writes hwritable
    (documentText (completionDocument outer now campaign implementation experiments problems))
    (documentText (archiveDocument outer now rootText campaign implementation
      (inventory outer.sha256 disk (located root) (rglob disk))))
  refine ⟨disk', ?_, hsame, hwritable', hfile⟩
  obtain ⟨middle, hmiddle, hlast⟩ := Fallible.exists_of_bind hwrites
  simp only [freeze, ensureLayout_of_laid hlaid, hpasses.manifests, hpasses.gate, hpasses.notes,
    hpasses.campaign, hpasses.implementation, hpasses.experiments, bind, Except.bind, if_true,
    hmiddle, hlast, pure, Except.pure]

/-- Only the two artifacts are not part of the collection. -/
theorem same_of_elsewhere {place : Place} {disk disk' : Disk} (h : SameElsewhere place disk disk') :
    SameCollection disk disk' place place := by
  have hself : asPosix completionParts ∈ selfWritten ∧ asPosix archiveParts ∈ selfWritten := by
    decide
  have hkept : ∀ {parts : List Text}, asPosix parts ∉ selfWritten →
      disk (place ++ parts) = disk' (place ++ parts) := by
    intro parts hparts
    refine h _ (fun heq => hparts ?_) fun heq => hparts ?_
    · rw [List.append_cancel_left heq]
      exact hself.1
    · rw [List.append_cancel_left heq]
      exact hself.2
  exact fun parts bytes => ⟨fun hc => ⟨hc.ne, hkept hc.kept ▸ hc.file, hc.kept⟩,
    fun hc => ⟨hc.ne, (hkept hc.kept).symm ▸ hc.file, hc.kept⟩⟩

theorem SameElsewhere.trans {place : Place} {disk disk' disk'' : Disk}
    (h : SameElsewhere place disk disk') (h' : SameElsewhere place disk' disk'') :
    SameElsewhere place disk disk'' :=
  fun p hp hp' => (h p hp hp').trans (h' p hp hp')

theorem SameElsewhere.symm {place : Place} {disk disk' : Disk}
    (h : SameElsewhere place disk disk') : SameElsewhere place disk' disk :=
  fun p hp hp' => (h p hp hp').symm

/-- The layout is no file of the environment. -/
theorem Laid.of_elsewhere {place : Place} {disk disk' : Disk} (hlaid : Laid place disk)
    (h : SameElsewhere place disk disk') : Laid place disk' := by
  have happart : ∀ sub ∈ rawSubdirs, ∀ parts ∈ [completionParts, archiveParts],
      ¬ parts <+: sub := by decide
  intro sub hsub front hfront
  have hne : ∀ parts ∈ [completionParts, archiveParts], front ≠ place ++ parts := by
    rintro parts hparts rfl
    exact happart sub hsub parts hparts ((List.prefix_append_right_inj place).mp hfront)
  rw [← h front (hne _ List.mem_cons_self) (hne _ (List.mem_cons_of_mem _ List.mem_cons_self))]
  exact hlaid sub hsub front hfront

/-- Files of the names that are asked for, on a disk that differs in the two artifacts only. -/
theorem Named.of_elsewhere {place : Place} {disk disk' : Disk} (hnamed : Named disk place)
    (h : SameElsewhere place disk disk') : Named disk' place := by
  intro parts bytes hfile
  by_cases hcompletion : parts = completionParts
  · subst hcompletion
    decide
  by_cases harchive : parts = archiveParts
  · subst harchive
    decide
  refine hnamed parts bytes ?_
  rw [h _ (fun heq => hcompletion (List.append_cancel_left heq))
    fun heq => harchive (List.append_cancel_left heq)]
  exact hfile

theorem SameElsewhere.refl (place : Place) (disk : Disk) : SameElsewhere place disk disk :=
  fun _ _ _ => rfl

/-- What `rglob` finds on every disk that differs from this one in the two artifacts only. -/
def Finds (rglob : Disk → List Place) (place : Place) (disk : Disk) : Prop :=
  ∀ d, SameElsewhere place disk d → Enumerates d place (rglob d)

/-- A collection that a freeze has archived, and what it was archived with. -/
structure Archived (outer : Surroundings) (root : PosixPath) (rootText : Text)
    (campaign implementation : List (Text × Json)) (entries : List InventoryEntry) (now : Text)
    (frozen disk : Disk) : Prop where
  same : SameElsewhere (located root) frozen disk
  laid : Laid (located root) disk
  writable : Writable (located root) disk
  archive : disk (located root ++ archiveParts) =
    some (archiveFile outer rootText now campaign implementation entries)

/-- What a collection passes with, it passes with again. -/
theorem Passes.of_elsewhere {disk disk' : Disk} {ms : List Json} {problems : List Text}
    {campaign implementation : List (Text × Json)} {experiments : List Json}
    (h : Passes outer root disk (rglob disk) ms problems campaign implementation experiments)
    (hfound : Enumerates disk (located root) (rglob disk))
    (hfound' : Enumerates disk' (located root) (rglob disk'))
    (hsame : SameElsewhere (located root) disk disk') (hspares : ∀ m ∈ ms, Spares root m) :
    Passes outer root disk' (rglob disk') ms problems campaign implementation experiments :=
  ⟨(manifests_eq hfound hfound' hsame).symm.trans h.manifests,
    (completionGate_eq hfound hfound' hsame hspares).symm.trans h.gate, h.notes, h.campaign,
    h.implementation, h.experiments⟩

section Frozen

variable {frozen : Disk} {ms : List Json} {problems : List Text}
  {campaign implementation : List (Text × Json)} {experiments : List Json}
  (hfound : Finds rglob (located root) frozen) (hnamed : Named frozen (located root))
  (hpasses : Passes outer root frozen (rglob frozen) ms problems campaign implementation
    experiments)
  (hspares : ∀ m ∈ ms, Spares root m)
include hfound hnamed hpasses hspares

/-- **The step lemma**: an archived collection is archived again. -/
theorem Archived.again {now : Text} {disk : Disk}
    (h : Archived outer root rootText campaign implementation
      (inventory outer.sha256 frozen (located root) (rglob frozen)) now frozen disk)
    (time : Text) :
    ∃ disk', again outer root rootText rglob disk time = some disk' ∧
      Archived outer root rootText campaign implementation
        (inventory outer.sha256 frozen (located root) (rglob frozen)) time frozen disk' := by
  have hdisk := hfound disk h.same
  have hfrozen := hfound frozen (SameElsewhere.refl _ _)
  obtain ⟨disk', hfreeze, hsame, hwritable, harchive⟩ := exists_freeze h.laid
    (hpasses.of_elsewhere hfrozen hdisk h.same hspares) h.writable time
  refine ⟨disk', by rw [Collection.again, hfreeze], h.same.trans hsame,
    h.laid.of_elsewhere hsame, hwritable, ?_⟩
  rw [harchive, inventory_eq_of_same hdisk hfrozen (hnamed.of_elsewhere h.same) hnamed
    (same_of_elsewhere h.same.symm)]

/-- **The run lemma.** -/
theorem Archived.exec_again {now : Text} {disk : Disk}
    (h : Archived outer root rootText campaign implementation
      (inventory outer.sha256 frozen (located root) (rglob frozen)) now frozen disk)
    (times : List Text) :
    ∃ last, exec (Collection.again outer root rootText rglob) disk times = some last ∧
      ∀ time ∈ (now :: times).getLast?,
        Archived outer root rootText campaign implementation
          (inventory outer.sha256 frozen (located root) (rglob frozen)) time frozen last := by
  induction times generalizing now disk with
  | nil =>
    refine ⟨disk, rfl, fun time htime => ?_⟩
    rw [← Option.some_inj.mp htime]
    exact h
  | cons time times ih =>
    obtain ⟨disk', hstep, h'⟩ := h.again hfound hnamed hpasses hspares time
    obtain ⟨last, hexec, hlast⟩ := ih h'
    refine ⟨last, (exec_cons_of_step hstep times).trans hexec, ?_⟩
    rwa [List.getLast?_cons_cons]

end Frozen

/-- What a freeze that succeeds leaves. -/
theorem archived_of_freeze {now : Text} {disk disk' : Disk}
    (hfound : Finds rglob (located root) disk') (hnamed : Named disk' (located root))
    (hfreeze : freeze outer root rootText rglob now disk = .ok (disk', true)) :
    ∃ laid ms problems campaign implementation experiments,
      manifests disk' root (rglob disk') = .ok ms ∧
      SameElsewhere (located root) laid disk' ∧
      Passes outer root laid (rglob laid) ms problems campaign implementation experiments ∧
      Archived outer root rootText campaign implementation
        (inventory outer.sha256 disk' (located root) (rglob disk')) now disk' disk' := by
  obtain ⟨laid, ms, problems, campaign, implementation, experiments, hlaid, hpasses, -, hsame,
    hwritable, harchive⟩ := exists_of_freeze hfreeze
  have hdisk := hfound disk' (SameElsewhere.refl _ _)
  have hbefore := hfound laid hsame.symm
  refine ⟨laid, ms, problems, campaign, implementation, experiments,
    (manifests_eq hbefore hdisk hsame).symm.trans hpasses.manifests, hsame, hpasses,
    SameElsewhere.refl _ _, (laid_of_ensureLayout hlaid).of_elsewhere hsame, hwritable, ?_⟩
  rw [harchive, inventory_eq_of_same hbefore hdisk (hnamed.of_elsewhere hsame.symm) hnamed
    (same_of_elsewhere hsame)]

end Refreeze

/-! ## 6.  A small collection -/

/-- A digest that keeps everything: a byte is that many zeros, and a one. -/
def zerosText (bytes : List UInt8) : Text :=
  bytes.flatMap fun b => List.replicate b.toNat '0' ++ ['1']

theorem hashes_zerosText : Hashes zerosText := by
  refine ⟨fun bytes => ?_, fun bytes c hc => ?_⟩
  · induction bytes with
    | nil =>
      intro bytes' heq
      cases bytes' with
      | nil => rfl
      | cons b' bytes' => simp [zerosText] at heq
    | cons b bytes ih =>
      intro bytes' heq
      cases bytes' with
      | nil => simp [zerosText] at heq
      | cons b' bytes' =>
        have hone : ∀ n : ℕ, '1' ∉ List.replicate n '0' := fun n h =>
          absurd (List.eq_of_mem_replicate h) (by decide)
        simp only [zerosText, List.flatMap_cons, List.append_assoc, List.singleton_append] at heq
        obtain ⟨hzeros, hrest⟩ := Separated.eq_of_append_cons_eq (hone _) (hone _) heq
        have hnat := congrArg List.length hzeros
        rw [List.length_replicate, List.length_replicate] at hnat
        rw [UInt8.toNat_inj.mp hnat, ih hrest]
  · obtain ⟨b, -, hb⟩ := List.mem_flatMap.mp hc
    rcases List.mem_append.mp hb with hb | hb
    · rw [List.eq_of_mem_replicate hb]
      decide
    · rw [List.mem_singleton.mp hb]
      decide

/-- A file with a document. -/
def documentFile (document : Json) : Node := .file (Utf8.encode (documentText document))

/-- A document that is written is read back. -/
theorem readManifest_documentFile {document : Json} (h : document.Valid) :
    readManifest (documentFile document) = .ok document := by
  have hreturn : '\r' ∉ documentText document := by
    rw [documentText, List.mem_append, not_or]
    exact ⟨notMem_dumps_indented h, by decide⟩
  have hblank : Blank ['\n'] := by
    intro c hc
    rw [List.mem_singleton.mp hc]
    rfl
  simp only [documentFile, readManifest, Utf8.decode_encode, universalNewlines_eq_self hreturn]
  rw [documentText, loads_dumps_append .indented h hblank]

/-- A campaign of one run, that is final. -/
def smallOuter : Surroundings where
  expected := [("E3".toList, 1)]
  sha256 := zerosText
  str := fun _ => ['r']
  repr := fun _ => ['r']
  lock := some (.object [("implementation".toList, .object [("git_commit".toList, .string ['g'])])])
  compare := fun _ => []

/-- The artifact of its manifest. -/
def smallArtifact : List (Text × Json) :=
  [("path".toList, .string "raw/e3/latency/r.jsonl".toList),
    ("sha256".toList, .string (zerosText [1, 2]))]

/-- Its manifest. -/
def smallManifest : Json :=
  .object [("experiment".toList, .string "E3".toList), ("publication_data".toList, .word .true),
    ("completion_status".toList, .string "complete".toList),
    ("validity_classification".toList, .object [("valid".toList, .word .true)]),
    ("protocol_git_commit".toList, .string ['g']),
    ("raw_artifacts".toList, .array [.object smallArtifact])]

/-- What is below the results: the layout, the ledger, the manifest and one stream. -/
def smallTree : List (Place × Node) :=
  [(["raw".toList], .directory), (["raw".toList, "e0".toList], .directory),
    (["raw".toList, "e1".toList], .directory), (["raw".toList, "e2".toList], .directory),
    (["raw".toList, "e3".toList], .directory),
    (["raw".toList, "e3".toList, "latency".toList], .directory),
    (["raw".toList, "e3".toList, "throughput".toList], .directory),
    (["raw".toList, "e4".toList], .directory), (["manifests".toList], .directory),
    (["environment".toList], .directory), (["evidence".toList], .directory),
    (["campaigns".toList], .directory),
    (["campaigns".toList, "c.json".toList], documentFile (.object
      [("completed".toList, .object [(['k'], .int 1)])])),
    (["manifests".toList, "r.manifest.json".toList], documentFile smallManifest),
    (["raw".toList, "e3".toList, "latency".toList, "r.jsonl".toList], .file [1, 2])]

/-- The disk with the small collection. -/
def smallDisk : Disk
  | [] => some .directory
  | top :: parts =>
    if top = "results".toList then
      if parts = [] then some .directory else smallTree.lookup parts
    else none

/-- Every place where something may stand. -/
def smallPlaces : List Place := completionParts :: archiveParts :: smallTree.map Prod.fst

/-- What is found of them. -/
def smallGlob (disk : Disk) : List Place :=
  smallPlaces.filter fun parts => (disk (located resultsRoot ++ parts)).isSome

theorem located_resultsRoot : located resultsRoot = ["results".toList] := by decide

theorem finds_smallGlob {disk : Disk} (hdisk : SameElsewhere (located resultsRoot) smallDisk disk) :
    Finds smallGlob (located resultsRoot) disk := by
  intro d hd
  have hplaces : smallPlaces.Nodup ∧ ∀ parts ∈ smallPlaces, parts ≠ [] := by decide
  refine ⟨hplaces.1.filter _, fun parts => ?_⟩
  rw [smallGlob, List.mem_filter, Option.isSome_iff_ne_none]
  refine ⟨fun h => ⟨hplaces.2 parts h.1, h.2⟩, fun h => ⟨?_, h.2⟩⟩
  by_contra hmem
  simp only [smallPlaces, List.mem_cons, not_or, List.mem_map, not_exists] at hmem
  refine h.2 ?_
  have happart : ∀ special, parts ≠ special →
      located resultsRoot ++ parts ≠ located resultsRoot ++ special :=
    fun special hne heq => hne (List.append_cancel_left heq)
  have hmissing : smallTree.lookup parts = none := by
    rw [List.lookup_eq_none_iff]
    intro entry hentry
    rw [bne_iff_ne]
    exact fun heq => hmem.2.2 entry ⟨hentry, heq.symm⟩
  rw [← hdisk.trans hd _ (happart _ hmem.1) (happart _ hmem.2.1), located_resultsRoot]
  show (if "results".toList = "results".toList then
    if parts = [] then some Node.directory else smallTree.lookup parts else none) = none
  rw [if_pos rfl, if_neg h.1, hmissing]

theorem laid_smallDisk : Laid (located resultsRoot) smallDisk := by
  have hlaid : ∀ sub ∈ rawSubdirs, ∀ front ∈ (located resultsRoot ++ sub).inits,
      smallDisk front = some .directory := by decide +kernel
  exact fun sub hsub front hfront => hlaid sub hsub front ((List.mem_inits _ _).mpr hfront)

theorem named_smallDisk : Named smallDisk (located resultsRoot) := by
  have hnames : ∀ entry ∈ smallTree, ∀ part ∈ entry.1, '/' ∉ part ∧ '\n' ∉ part := by
    decide +kernel
  intro parts bytes hfile
  rw [located_resultsRoot] at hfile
  by_cases hne : parts = []
  · subst hne
    cases hfile
  have hlookup : smallTree.lookup parts = some (.file bytes) := by
    rw [← hfile]
    show _ = if "results".toList = "results".toList then
      if parts = [] then some Node.directory else smallTree.lookup parts else none
    rw [if_pos rfl, if_neg hne]
  obtain ⟨front, back, htree, -⟩ := List.lookup_eq_some_iff.mp hlookup
  refine hnames (parts, .file bytes) ?_
  rw [htree]
  exact List.mem_append_right _ List.mem_cons_self

/-- The small collection freezes, and nothing but the two artifacts is written. -/
theorem exists_freeze_smallDisk : ∃ disk',
    freeze smallOuter resultsRoot ['r'] smallGlob ['t'] smallDisk = .ok (disk', true) ∧
      SameElsewhere (located resultsRoot) smallDisk disk' := by
  have hagain : (again smallOuter resultsRoot ['r'] smallGlob smallDisk ['t']).isSome = true := by
    decide +kernel
  obtain ⟨disk', hdisk'⟩ := Option.isSome_iff_exists.mp hagain
  unfold again at hdisk'
  split at hdisk'
  · rename_i last hfreeze
    obtain ⟨laid, -, -, -, -, -, hensure, -, -, hsame, -, -⟩ := exists_of_freeze hfreeze
    rw [ensureLayout_of_laid laid_smallDisk] at hensure
    obtain rfl := Except.ok.inj hensure
    exact ⟨last, hfreeze, hsame⟩
  · cases hdisk'

theorem valid_smallManifest : smallManifest.Valid := by
  intro node hnode
  simp only [smallManifest, smallArtifact, nodes, nodesOfMembers, nodesOfItems,
    List.mem_cons, List.not_mem_nil, or_false, List.cons_append, List.nil_append] at hnode
  rcases hnode with rfl | rfl | rfl | rfl | rfl | rfl | rfl | rfl | rfl | rfl | rfl
  all_goals simp only [OwnValid]
  all_goals decide

theorem manifests_smallDisk :
    manifests smallDisk resultsRoot (smallGlob smallDisk) = .ok [smallManifest] := by
  have hnames : jsonNames (smallGlob smallDisk) "manifests".toList =
      ["r.manifest.json".toList] := by
    decide +kernel
  have hfile : smallDisk (located resultsRoot ++ ["manifests".toList, "r.manifest.json".toList]) =
      some (documentFile smallManifest) := by decide +kernel
  rw [manifests, hnames, List.mapM_cons, List.mapM_nil, readBelow, hfile]
  show readManifest (documentFile smallManifest) >>= _ = _
  rw [readManifest_documentFile valid_smallManifest]
  rfl

/-- The manifest names the stream. -/
theorem spares_smallManifest : Spares resultsRoot smallManifest := by
  rintro path ⟨members, items, fields, hmembers, hitems, hfields, hpath⟩
  obtain rfl := Json.object.inj hmembers
  obtain rfl := Except.ok.inj hitems
  obtain rfl := Json.object.inj (List.mem_singleton.mp hfields)
  obtain rfl := Json.string.inj (Option.some_inj.mp hpath)
  decide +kernel

end Collection
end FederatedMessaging
