import FederatedMessaging.Foundations.PosixPaths

/-!
# The files of an agent

An agent keeps two files in its state directory, a transport checkpoint and a mark that it is
ready, and both are named by its user id.  `_slug` of `fam.agent.runtime` makes the name.  The
supervisor, which waits for the mark and removes it, makes the name once more
(`AgentProcess.ready_file`).

## Two slugs

The runtime replaces `:` and `/`; the supervisor replaces `:` only.  With a `/` in the user id
the supervisor looks in a directory that is not there.

## Three characters for one

What is replaced is replaced by `_`, which a user id may have itself.  Two ids that differ in
nothing but these characters have the same files, and the one agent goes on from the sync
position of the other.  `separateFiles_iff` says that there is no other case.
-/

namespace FederatedMessaging
namespace Agent

open PythonText

/-! ## Names -/

/-- `user_id.lstrip("@")`. -/
def lstripAt (userId : Text) : Text := userId.dropWhile fun c => c = '@'

/-- `t.replace(old, new)`, of single characters. -/
def replaceChar (old new : Char) (t : Text) : Text := t.map fun c => if c = old then new else c

/-- `_slug`. -/
def slug (userId : Text) : Text := replaceChar '/' '_' (replaceChar ':' '_' (lstripAt userId))

/-- `slug` in `AgentProcess.ready_file`. -/
def supervisorSlug (userId : Text) : Text := replaceChar ':' '_' (lstripAt userId)

variable (stateDir : PosixPath) (userId : Text)

/-- The path in `AgentRuntime.__init__`. -/
def checkpointFile : PosixPath := stateDir.joinpath (slug userId ++ ".checkpoint.json".toList)

/-- `ready` in `serve`. -/
def ready : PosixPath := stateDir.joinpath (slug userId ++ ".ready".toList)

/-- `AgentProcess.ready_file`. -/
def readyFile : PosixPath := stateDir.joinpath (supervisorSlug userId ++ ".ready".toList)

/-! ## Checkpoints on disk -/

/-- What a checkpoint holds. -/
structure StoredCheckpoint where
  accessToken : Text
  deviceId : Text
  syncToken : Option Text
  deriving DecidableEq, Repr

/-- The checkpoints that are on disk. -/
abbrev CheckpointFiles := PosixPath → Option StoredCheckpoint

/-- `TransportCheckpoint.load`, none for `{}`. -/
def loadFile (files : CheckpointFiles) : Option StoredCheckpoint :=
  files (checkpointFile stateDir userId)

/-- `TransportCheckpoint.save`: the replacement is complete. -/
def saveFile (files : CheckpointFiles) (checkpoint : StoredCheckpoint) : CheckpointFiles :=
  Function.update files (checkpointFile stateDir userId) (some checkpoint)

variable {stateDir : PosixPath} {userId : Text}

/-! ## Slugs -/

theorem replaceChar_of_notMem {old new : Char} {t : Text} (h : old ∉ t) :
    replaceChar old new t = t := by
  refine (List.map_congr_left fun c hc => if_neg ?_).trans (List.map_id t)
  rintro rfl
  exact h hc

theorem notMem_replaceChar {old new : Char} (h : old ≠ new) (t : Text) :
    old ∉ replaceChar old new t := by
  intro hmem
  obtain ⟨c, -, hc⟩ := List.mem_map.mp hmem
  split_ifs at hc with heq
  · exact h hc.symm
  · exact heq hc

theorem mem_replaceChar_of_ne {old new c : Char} (h : c ≠ old) {t : Text} (hc : c ∈ t) :
    c ∈ replaceChar old new t :=
  List.mem_map.mpr ⟨c, hc, if_neg h⟩

theorem mem_lstripAt {c : Char} (h : c ≠ '@') : c ∈ lstripAt userId ↔ c ∈ userId := by
  refine ⟨fun hc => List.dropWhile_subset _ hc, fun hc => ?_⟩
  rw [← List.takeWhile_append_dropWhile (p := fun c => decide (c = '@')) (l := userId)] at hc
  rcases List.mem_append.mp hc with hc | hc
  · have hat := List.mem_takeWhile_imp hc
    exact absurd (of_decide_eq_true hat) h
  · exact hc

theorem slash_mem_supervisorSlug : '/' ∈ supervisorSlug userId ↔ '/' ∈ userId := by
  have hstrip : '/' ∈ lstripAt userId ↔ '/' ∈ userId := mem_lstripAt (by decide)
  rw [← hstrip]
  constructor
  · intro h
    obtain ⟨c, hc, heq⟩ := List.mem_map.mp h
    split_ifs at heq with hcolon
    · cases heq
    · exact heq ▸ hc
  · exact mem_replaceChar_of_ne (by decide)

theorem slash_notMem_slug (userId : Text) : '/' ∉ slug userId := notMem_replaceChar (by decide) _

theorem slug_eq_replaceChar (userId : Text) :
    slug userId = replaceChar '/' '_' (supervisorSlug userId) := rfl

/-- A name with one of the suffixes is one component of a path. -/
theorem joinpath_slug {suffix : Text} (hslash : '/' ∉ suffix) (hlength : 2 ≤ suffix.length) :
    stateDir.joinpath (slug userId ++ suffix) =
      ⟨stateDir.root, stateDir.parts ++ [slug userId ++ suffix]⟩ := by
  have hlong : 2 ≤ (slug userId ++ suffix).length := by
    rw [List.length_append]
    omega
  refine PosixPath.joinpath_of_notMem ?_ ?_ ?_
  · exact fun h => (List.mem_append.mp h).elim (slash_notMem_slug userId) hslash
  · intro h
    rw [h] at hlong
    exact absurd hlong (by decide)
  · intro h
    rw [h] at hlong
    exact absurd hlong (by decide)

/-- Two names in one directory are equal when the slugs are. -/
theorem joinpath_slug_inj {other suffix : Text} (hslash : '/' ∉ suffix)
    (hlength : 2 ≤ suffix.length) :
    stateDir.joinpath (slug userId ++ suffix) = stateDir.joinpath (slug other ++ suffix) ↔
      slug userId = slug other := by
  rw [joinpath_slug hslash hlength, joinpath_slug hslash hlength]
  constructor
  · intro h
    have hparts := List.append_cancel_left (PosixPath.mk.inj h).2
    exact List.append_cancel_right (List.cons.inj hparts).1
  · intro h
    rw [h]

/-- **The supervisor looks where the agent writes, unless there is a slash.** -/
theorem readyFile_eq_ready_iff :
    readyFile stateDir userId = ready stateDir userId ↔ '/' ∉ userId := by
  rw [← slash_mem_supervisorSlug]
  constructor
  · intro h hmem
    -- the last component is what stands after the last slash, which is too short
    obtain ⟨before, after, hsplit, hafter⟩ : ∃ before after : Text,
        supervisorSlug userId = before ++ '/' :: after ∧ '/' ∉ after := by
      obtain ⟨s, t, hst, ht⟩ := List.eq_append_cons_of_mem (List.mem_reverse.mpr hmem)
      refine ⟨t.reverse, s.reverse, ?_, fun hs => ht (List.mem_reverse.mp hs)⟩
      have := congrArg List.reverse hst
      simpa using this
    have hlast : (readyFile stateDir userId).parts.getLast? = some (after ++ ".ready".toList) := by
      rw [readyFile, hsplit, List.append_assoc, List.cons_append]
      refine PosixPath.getLast?_joinpath ?_ ?_ ?_
      · exact fun hs => (List.mem_append.mp hs).elim hafter (by decide)
      · exact fun hs => absurd (List.append_eq_nil_iff.mp hs).2 (by decide)
      · intro hs
        have := congrArg List.length hs
        simp at this
    have hready :
        (ready stateDir userId).parts.getLast? = some (slug userId ++ ".ready".toList) := by
      rw [ready, joinpath_slug (by decide) (by decide)]
      exact List.getLast?_concat
    rw [h, hready, Option.some_inj] at hlast
    have hlength := congrArg List.length (List.append_cancel_right hlast)
    rw [slug_eq_replaceChar, hsplit, replaceChar, List.length_map, List.length_append,
      List.length_cons] at hlength
    omega
  · intro h
    rw [readyFile, ready, slug_eq_replaceChar, replaceChar_of_notMem h]

/-! ## Two agents -/

/-- Two characters that the slug does not tell apart. -/
def Alike (c d : Char) : Prop := c = d ∨ c ∈ [':', '/', '_'] ∧ d ∈ [':', '/', '_']

instance (c d : Char) : Decidable (Alike c d) := inferInstanceAs (Decidable (_ ∨ _))

/-- Two user ids that differ, after their leading `@`, at most in such places. -/
def Confusable (userId other : Text) : Prop :=
  List.Forall₂ Alike (lstripAt userId) (lstripAt other)

/-- What the slug makes of a character. -/
def slugChar (c : Char) : Char := if c ∈ [':', '/', '_'] then '_' else c

theorem slug_eq_map (userId : Text) : slug userId = (lstripAt userId).map slugChar := by
  rw [slug, replaceChar, replaceChar, List.map_map]
  refine List.map_congr_left fun c _ => ?_
  by_cases hcolon : c = ':'
  · subst hcolon
    rfl
  · by_cases hslash : c = '/'
    · subst hslash
      rfl
    · by_cases hlow : c = '_'
      · subst hlow
        rfl
      · simp [slugChar, hcolon, hslash, hlow]

theorem slugChar_eq_iff {c d : Char} : slugChar c = slugChar d ↔ Alike c d := by
  unfold slugChar Alike
  by_cases hc : c ∈ [':', '/', '_'] <;> by_cases hd : d ∈ [':', '/', '_']
  · exact iff_of_true (by rw [if_pos hc, if_pos hd]) (.inr ⟨hc, hd⟩)
  · rw [if_pos hc, if_neg hd]
    constructor
    · rintro rfl
      exact absurd (by decide) hd
    · rintro (rfl | ⟨-, h⟩)
      · exact absurd hc hd
      · exact absurd h hd
  · rw [if_neg hc, if_pos hd]
    constructor
    · rintro rfl
      exact absurd (by decide) hc
    · rintro (rfl | ⟨h, -⟩)
      · exact absurd hd hc
      · exact absurd h hc
  · rw [if_neg hc, if_neg hd]
    exact ⟨.inl, fun h => h.elim id fun h => absurd h.1 hc⟩

/-- **One slug for two ids.** -/
theorem slug_eq_iff {other : Text} : slug userId = slug other ↔ Confusable userId other := by
  rw [slug_eq_map, slug_eq_map, ← List.forall₂_eq_eq_eq, List.forall₂_map_left_iff,
    List.forall₂_map_right_iff]
  constructor
  · exact fun h => h.imp fun _ _ => slugChar_eq_iff.mp
  · exact fun h => h.imp fun _ _ => slugChar_eq_iff.mpr

/-- The supervisor and the agents agree on the files, and two agents have their own. -/
structure SeparateFiles (stateDir : PosixPath) (userId other : Text) : Prop where
  polled : ∀ id ∈ [userId, other], readyFile stateDir id = ready stateDir id
  checkpoint : userId ≠ other → checkpointFile stateDir userId ≠ checkpointFile stateDir other
  ready : userId ≠ other → ready stateDir userId ≠ ready stateDir other
  /-- no agent goes on from the checkpoint of the other -/
  adopted : userId ≠ other → ∀ files checkpoint,
    loadFile stateDir other (saveFile stateDir userId files checkpoint) =
      loadFile stateDir other files

/-- A saved checkpoint is not seen through another name. -/
theorem loadFile_saveFile_of_ne {other : Text} (files : CheckpointFiles)
    (checkpoint : StoredCheckpoint)
    (h : checkpointFile stateDir userId ≠ checkpointFile stateDir other) :
    loadFile stateDir other (saveFile stateDir userId files checkpoint) =
      loadFile stateDir other files :=
  Function.update_of_ne h.symm _ _

/-- **The files of two agents are theirs, and where the supervisor looks, if and only if
neither id has a slash and the two, when they differ, are not confusable.** -/
theorem separateFiles_iff (stateDir : PosixPath) (userId other : Text) :
    SeparateFiles stateDir userId other ↔
      '/' ∉ userId ∧ '/' ∉ other ∧ (userId ≠ other → ¬ Confusable userId other) := by
  constructor
  · intro h
    refine ⟨readyFile_eq_ready_iff.mp (h.polled _ List.mem_cons_self),
      readyFile_eq_ready_iff.mp (h.polled _ (List.mem_cons_of_mem _ List.mem_cons_self)),
      fun hne hconfusable => ?_⟩
    exact h.ready hne ((joinpath_slug_inj (by decide) (by decide)).mpr
      (slug_eq_iff.mpr hconfusable))
  · rintro ⟨huser, hother, hdistinct⟩
    have hfile : ∀ {suffix : Text}, '/' ∉ suffix → 2 ≤ suffix.length → userId ≠ other →
        stateDir.joinpath (slug userId ++ suffix) ≠ stateDir.joinpath (slug other ++ suffix) :=
      fun hslash hlength hne heq =>
        hdistinct hne (slug_eq_iff.mp ((joinpath_slug_inj hslash hlength).mp heq))
    have hcheckpoint := @hfile ".checkpoint.json".toList (by decide) (by decide)
    refine ⟨fun id hid => ?_, hcheckpoint, hfile (by decide) (by decide),
      fun hne files checkpoint => loadFile_saveFile_of_ne files checkpoint (hcheckpoint hne)⟩
    rcases List.mem_pair.mp hid with rfl | rfl
    · exact readyFile_eq_ready_iff.mpr huser
    · exact readyFile_eq_ready_iff.mpr hother

/-- **Two ids of one server**: the supervisor does not find the mark of the first, and the
second starts from the checkpoint of the first. -/
theorem slashId_shares_files :
    let stateDir : PosixPath := ⟨['/'], ["state".toList]⟩
    let first := "@a/b:hs-b.test".toList
    let second := "@a_b:hs-b.test".toList
    readyFile stateDir first ≠ ready stateDir first ∧ first ≠ second ∧
      checkpointFile stateDir first = checkpointFile stateDir second ∧
      ready stateDir first = ready stateDir second ∧
      ∃ checkpoint, loadFile stateDir second
        (saveFile stateDir first (fun _ => none) checkpoint) = some checkpoint := by
  intro stateDir first second
  have hfile : checkpointFile stateDir second = checkpointFile stateDir first := by decide +kernel
  refine ⟨by decide +kernel, by decide, hfile.symm, by decide +kernel, ⟨[], [], none⟩, ?_⟩
  rw [loadFile, saveFile, hfile, Function.update_self]

end Agent
end FederatedMessaging
