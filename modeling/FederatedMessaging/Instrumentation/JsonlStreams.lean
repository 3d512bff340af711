import FederatedMessaging.Foundations.JsonZones
import FederatedMessaging.Foundations.TextLines

/-!
# Evidence, one record a line

`JsonlStream` of `fam.instrumentation.streams` appends a record as one line of JSON, and four
readers go over the lines of the file: `_load_jsonl` and `_load_agent_records` of
`fam.analysis.e3`, `_load_raw` of `fam.analysis.integrity`, and `_read_jsonl` of
`fam.benchmark.runner`.

## Two notions of a line

The writer escapes control characters and leaves everything beyond ASCII as it is; it ends a
record with `\n`.  The readers use `str.splitlines`, which also cuts at U+0085, U+2028 and
U+2029, and they skip a line that is not JSON.  So a record with one of these characters in a
string is cut where it stands.

## What such a record leaves behind

Not itself.  The first piece ends inside a string.  The others start inside one, and what JSON
there is in them has no backslash, so its strings are made of characters of the piece, which
are none of these (`clean_of_piece`).  A reader that keeps everything then returns
something else than what was written, and all four are right exactly when no string of a
record has one of the three characters (`readers_exact_iff`).
-/

namespace FederatedMessaging
namespace Instrumentation

open PythonText Json

/-! ## Writing -/

/-- The kinds of streams. -/
inductive StreamKind where
  | runner
  | agent
  deriving DecidableEq, Repr

/-- The kind, as it is written. -/
def StreamKind.text : StreamKind → Text
  | .runner => ['r', 'u', 'n', 'n', 'e', 'r']
  | .agent => ['a', 'g', 'e', 'n', 't']

/-- `RAW_SCHEMA_VERSION`. -/
def rawSchemaVersion : Text := ['2']

/-- A record that can be written: a dictionary of JSON values. -/
structure StreamRecord where
  fields : OrderedDict Text Json
  valid : ∀ entry ∈ fields.entries, entry.2.Valid

/-- The record as a document. -/
def StreamRecord.document (record : StreamRecord) : Json := .object record.fields.entries

/-- The two fields that are added. -/
def header (kind : StreamKind) : OrderedDict Text Json :=
  (OrderedDict.empty.set "schema_version".toList (.string rawSchemaVersion)).set "stream".toList
    (.string kind.text)

/-- `payload.update(record)`. -/
def payload (kind : StreamKind) (record : StreamRecord) : OrderedDict Text Json :=
  (header kind).update record.fields.entries

/-- The written record. -/
def written (kind : StreamKind) (record : StreamRecord) : Json :=
  .object (payload kind record).entries

/-- What `JsonlStream.write` appends, without the line end. -/
def line (kind : StreamKind) (record : StreamRecord) : Text := dumps .oneLine (written kind record)

/-- The file after the records have been written. -/
def streamText (kind : StreamKind) (records : List StreamRecord) : Text :=
  unlines (records.map (line kind))

/-! ## Reading -/

/-- What a reader may raise. -/
inductive ReaderError where
  /-- `AttributeError`: a line holds something else than a dictionary -/
  | attribute
  /-- not an error of the source: the record has a string that is not text -/
  | notText
  deriving DecidableEq, Repr

/-- The body of the loop over the lines; `select` says whether a record is kept. -/
def readLine (select : Json → Except ReaderError Bool) (line : Text) :
    Except ReaderError (Option Json) :=
  if strip line = [] then .ok none
  else
    match loads (strip line) with
    | .ok record => do
      let selected ← select record
      pure (if selected then some record else none)
    -- `except ValueError: continue`
    | .error .loneSurrogate => .error .notText
    | .error _ => .ok none

/-- The loop. -/
def readRecords (select : Json → Except ReaderError Bool) (text : Text) :
    Except ReaderError (List Json) := do
  let found ← (splitlines (universalNewlines text)).mapM (readLine select)
  pure (found.filterMap id)

/-- `record.get("record_type", "interaction") == "interaction"`. -/
def isInteraction : Json → Except ReaderError Bool
  | .object members =>
    match members.lookup "record_type".toList with
    | none => .ok true
    | some (.string s) => .ok (s = "interaction".toList)
    | some _ => .ok false
  | _ => .error .attribute

/-- Every record. -/
def everyRecord : Json → Except ReaderError Bool := fun _ => .ok true

/-- `analysis.e3._load_jsonl`. -/
def loadJsonl (text : Text) : Except ReaderError (List Json) := readRecords isInteraction text

/-- `analysis.integrity._load_raw`. -/
def loadRaw (text : Text) : Except ReaderError (List Json) := readRecords isInteraction text

/-- `analysis.e3._load_agent_records`. -/
def loadAgentRecords (text : Text) : Except ReaderError (List Json) := readRecords everyRecord text

/-- `benchmark.runner._read_jsonl`. -/
def readJsonl (text : Text) : Except ReaderError (List Json) := readRecords everyRecord text

/-- A reader returns the written records of the kind it selects, and nothing else. -/
def Exact (reader : Text → Except ReaderError (List Json))
    (select : Json → Except ReaderError Bool) (kind : StreamKind) (records : List StreamRecord) :
    Prop :=
  reader (streamText kind records) =
    .ok ((records.map (written kind)).filter fun record => select record = .ok true)

/-! ## What is written -/

theorem StreamRecord.valid_document (record : StreamRecord) : record.document.Valid := by
  intro node hnode
  rcases mem_nodes_object.mp hnode with rfl | ⟨entry, hentry, hnode⟩
  · exact record.fields.nodup_keys
  · exact record.valid entry hentry node hnode

theorem mem_header {kind : StreamKind} {entry : Text × Json} (h : entry ∈ (header kind).entries) :
    entry = ("schema_version".toList, .string rawSchemaVersion) ∨
      entry = ("stream".toList, .string kind.text) :=
  List.mem_pair.mp h

theorem valid_written (kind : StreamKind) (record : StreamRecord) :
    (written kind record).Valid := by
  intro node hnode
  rcases mem_nodes_object.mp hnode with rfl | ⟨entry, hentry, hnode⟩
  · exact (payload kind record).nodup_keys
  · rcases OrderedDict.mem_or_mem_of_mem_update hentry with hheader | hrecord
    · rcases mem_header hheader with rfl | rfl
      all_goals
        obtain rfl := List.mem_singleton.mp hnode
        exact trivial
    · exact record.valid entry hrecord node hnode

/-- The characters at which a line is cut and that the writer leaves as they are. -/
def isSeparator (c : Char) : Bool := c.toNat == 0x85 || c.toNat == 0x2028 || c.toNat == 0x2029

/-- No string of the document has one of them. -/
def Clean (j : Json) : Prop := ∀ s ∈ j.strings, ∀ c ∈ s, isSeparator c = false

/-- The header has none of them. -/
theorem clean_written_iff (kind : StreamKind) (record : StreamRecord) :
    Clean (written kind record) ↔ Clean record.document := by
  constructor
  · intro h s hs
    refine h s (mem_strings_object.mpr ?_)
    have hmem : ∀ entry ∈ record.fields.entries, entry ∈ (payload kind record).entries :=
      fun entry hentry => OrderedDict.mem_update_of_mem record.fields.nodup_keys hentry
    rcases mem_strings_object.mp hs with hs | ⟨entry, hentry, hs⟩
    · obtain ⟨entry, hentry, rfl⟩ := List.mem_map.mp hs
      exact .inl (List.mem_map_of_mem (hmem entry hentry))
    · exact .inr ⟨entry, hmem entry hentry, hs⟩
  · intro h s hs
    obtain ⟨entry, hentry, hs⟩ : ∃ entry ∈ (payload kind record).entries,
        s = entry.1 ∨ s ∈ entry.2.strings := by
      rcases mem_strings_object.mp hs with hs | ⟨entry, hentry, hs⟩
      · obtain ⟨entry, hentry, rfl⟩ := List.mem_map.mp hs
        exact ⟨entry, hentry, .inl rfl⟩
      · exact ⟨entry, hentry, .inr hs⟩
    rcases OrderedDict.mem_or_mem_of_mem_update hentry with hheader | hrecord
    · have hascii : ∀ t : Text, t.all (fun c => !isSeparator c) = true →
          ∀ c ∈ t, isSeparator c = false := fun t ht c hc => by
        simpa using List.all_eq_true.mp ht c hc
      rcases mem_header hheader with rfl | rfl
      · rcases hs with rfl | hs
        · exact hascii "schema_version".toList (by decide)
        · obtain rfl := List.mem_singleton.mp hs
          exact hascii rawSchemaVersion (by decide)
      · rcases hs with rfl | hs
        · exact hascii "stream".toList (by decide)
        · obtain rfl := List.mem_singleton.mp hs
          exact hascii kind.text (by cases kind <;> decide)
    · refine h s (mem_strings_object.mpr ?_)
      rcases hs with rfl | hs
      · exact .inl (List.mem_map_of_mem hrecord)
      · exact .inr ⟨entry, hrecord, hs⟩

theorem isLineBoundary_eq_isSeparator {c : Char} (h : 32 ≤ c.toNat) :
    isLineBoundary c = isSeparator c := by
  unfold isLineBoundary isSeparator
  have hlow : (decide (10 ≤ c.toNat) && decide (c.toNat ≤ 13)) = false := by
    simp only [Bool.and_eq_false_iff, decide_eq_false_iff_not]
    omega
  have hhigh : (decide (28 ≤ c.toNat) && decide (c.toNat ≤ 30)) = false := by
    simp only [Bool.and_eq_false_iff, decide_eq_false_iff_not]
    omega
  rw [hlow, hhigh]
  rfl

theorem isSeparator_range {c : Char} (h : isSeparator c = true) : 127 < c.toNat := by
  simp only [isSeparator, Bool.or_eq_true, beq_iff_eq] at h
  omega

/-- No control character is left in a line. -/
theorem control_dumps {j : Json} (h : j.Valid) : ∀ c ∈ dumps .oneLine j, 32 ≤ c.toNat :=
  forall_print (fun _ hc _ => hc) (forall_gap_of_oneLine rfl) h (fun _ _ _ _ hc => hc) 0

/-- **A clean document is one line.** -/
theorem splitOnP_of_clean {j : Json} (h : j.Valid) (hclean : Clean j) :
    (dumps .oneLine j).splitOnP isLineBoundary = [dumps .oneLine j] := by
  refine List.splitOnP_eq_singleton (forall_print (fun c hlow hhigh => ?_)
    (forall_gap_of_oneLine rfl) h (fun s hs c hc hlow => ?_) 0)
  · rw [isLineBoundary_eq_isSeparator hlow]
    by_contra hne
    have := isSeparator_range (Bool.not_eq_false _ ▸ hne)
    omega
  · rw [isLineBoundary_eq_isSeparator hlow]
    exact hclean s hs c hc

/-- An object is printed between its braces. -/
theorem exists_braces (style : Style) (level : ℕ) (members : List (Text × Json)) :
    ∃ t, print style level (.object members) = '\x7b' :: (t ++ ['\x7d']) := by
  have hend : ∀ ms, ∃ t, printMembers style level ms = t ++ ['\x7d'] := by
    intro ms
    induction ms with
    | nil => exact ⟨_, rfl⟩
    | cons m ms ih =>
      obtain ⟨t, ht⟩ := ih
      refine ⟨',' :: style.afterComma (level + 1) ++ (quote style.asciiOnly m.1 ++
        ':' :: style.afterColon ++ (print style (level + 1) m.2 ++ t)), ?_⟩
      rw [printMembers, ht]
      simp only [List.cons_append, List.append_assoc]
  cases members with
  | nil => exact ⟨[], rfl⟩
  | cons m ms =>
    obtain ⟨t, ht⟩ := hend ms
    refine ⟨style.gap (level + 1) ++ (quote style.asciiOnly m.1 ++ ':' :: style.afterColon ++
      (print style (level + 1) m.2 ++ t)), ?_⟩
    rw [print, ht]
    simp only [List.cons_append, List.append_assoc]

/-- There is nothing to strip. -/
theorem strip_dumps_object (style : Style) (members : List (Text × Json)) :
    strip (dumps style (.object members)) = dumps style (.object members) := by
  obtain ⟨t, ht⟩ := exists_braces style 0 members
  rw [dumps, ht]
  refine strip_eq_self ?_ ?_
  · rintro c ⟨⟩
    decide
  · rw [← List.cons_append, List.getLast?_concat]
    rintro c ⟨⟩
    decide

/-! ## Pieces of a line -/

theorem flat_of_isSpace {t : Text} (h : ∀ c ∈ t, isSpace c = true) : Flat t := by
  intro c hc
  constructor <;> rintro rfl <;> exact absurd (h _ hc) (by decide)

/-- A line that is read, with what is stripped around it. -/
theorem exists_spells_of_loads_strip {q : Text} {x : Json} (h : loads (strip q) = .ok x) :
    ∃ before u after, q = before ++ (u ++ after) ∧ Flat before ∧ Flat after ∧
      Spells u (.value x) := by
  obtain ⟨left, right, hq, hleft, hright⟩ := exists_append_strip q
  obtain ⟨w, u, w', hstrip, hw, hw', hspells⟩ := loads_eq_ok_iff.mp h
  have hblank : ∀ {t : Text}, Blank t → Flat t :=
    fun ht c hc => Structural.flat (.inl (ht c hc))
  refine ⟨left ++ w, u, w' ++ right, ?_, ?_, ?_, hspells⟩
  · rw [hq, hstrip]
    simp only [List.append_assoc]
  · exact fun c hc => (List.mem_append.mp hc).elim (flat_of_isSpace hleft c) (hblank hw c)
  · exact fun c hc => (List.mem_append.mp hc).elim (hblank hw' c) (flat_of_isSpace hright c)

/-- Every character at which a line is cut stands inside a string. -/
theorem zone_before_boundary {j : Json} (h : j.Valid) {before after : Text} {c : Char}
    (hline : dumps .oneLine j = before ++ c :: after) (hc : isLineBoundary c = true) :
    zoneAfter .outside before ≠ .outside := by
  have hlow := control_dumps h c (hline ▸ List.mem_append_right _ List.mem_cons_self)
  rw [isLineBoundary_eq_isSeparator hlow] at hc
  have hrange := isSeparator_range hc
  intro hout
  have hquote : c ≠ '"' := by rintro rfl; exact absurd hrange (by decide)
  have hstructural := (spells_print .oneLine 0 h).balanced.structural c
    (by rw [← dumps, hline]; exact mem_outsideChars hout hquote)
  rcases hstructural with hblank | hprintable
  · simp only [isBlank, Bool.or_eq_true, decide_eq_true_eq] at hblank
    rcases hblank with ((rfl | rfl) | rfl) | rfl <;> exact absurd hrange (by decide)
  · have := hprintable.2.1
    omega

/-- **What a piece of a line holds is clean.** -/
theorem clean_of_piece {j : Json} (h : j.Valid) {q : Text}
    (hq : q ∈ (dumps .oneLine j).splitOnP isLineBoundary) {x : Json}
    (hx : loads (strip q) = .ok x)
    (hwhole : dumps .oneLine j = q → x = j) : Clean x := by
  obtain ⟨hboundary, hplace⟩ := mem_splitOnP hq
  obtain ⟨left, u, right, hpiece, hleft, hright, hspells⟩ := exists_spells_of_loads_strip hx
  rcases hplace with hall | ⟨c, after, hline, hc⟩ | ⟨before, c, after, hline, hc⟩
  · -- the line is not cut, so there is nothing in it to cut it at
    obtain rfl := hwhole hall
    intro s hs c hc
    by_contra hne
    have hsep : isSeparator c = true := Bool.not_eq_false _ ▸ hne
    have hmem : c ∈ dumps .oneLine x := mem_print rfl (isSeparator_range hsep) hs hc 0
    have hlow := control_dumps h c hmem
    have hfalse := hboundary c (hall ▸ hmem)
    rw [isLineBoundary_eq_isSeparator hlow, hsep] at hfalse
    cases hfalse
  · -- the first piece ends inside a string
    have hout : zoneAfter .outside q = .outside := by
      rw [hpiece, zoneAfter_append, zoneAfter_append, zoneAfter_flat (by decide) hleft,
        hspells.balanced.closed, zoneAfter_flat (by decide) hright]
    exact absurd hout (zone_before_boundary h hline hc)
  · -- the others start inside one
    have hinside : zoneAfter .outside (before ++ [c] ++ left) = .inside := by
      have hc' : c ≠ '"' ∧ c ≠ '\\' := by
        constructor <;> rintro rfl <;> exact absurd hc (by decide)
      have hstep : zoneAfter .outside (before ++ [c]) = .inside := by
        rw [zoneAfter_append]
        change zoneStep (zoneAfter .outside before) c = .inside
        cases hzone : zoneAfter .outside before with
        | outside => exact absurd hzone (zone_before_boundary h hline hc)
        | inside => exact (if_neg hc'.1).trans (if_neg hc'.2)
        | escaped => rfl
      rw [zoneAfter_append, hstep, zoneAfter_flat (by decide) hleft]
    have hbalanced : Balanced (before ++ [c] ++ left ++ (u ++ (right ++ after))) := by
      have hline' := (spells_print .oneLine 0 h).balanced
      rw [← dumps, hline, hpiece] at hline'
      simpa only [List.append_assoc, List.singleton_append, List.cons_append, List.nil_append]
        using hline'
    have hbackslash := notMem_backslash_of_inside hbalanced hinside hspells
    intro s hs d hd
    have hmem : d ∈ q := by
      rw [hpiece]
      exact List.mem_append_right _
        (List.mem_append_left _ (hspells.mem_of_mem_strings hbackslash hs hd))
    by_contra hne
    have hsep : isSeparator d = true := Bool.not_eq_false _ ▸ hne
    have hfalse := hboundary d hmem
    rw [isLineBoundary_eq_isSeparator (by have := isSeparator_range hsep; omega), hsep] at hfalse
    cases hfalse

/-! ## The readers -/

theorem carriageReturn_notMem_line (kind : StreamKind) (record : StreamRecord) :
    '\r' ∉ line kind record :=
  fun h => absurd (control_dumps (valid_written kind record) _ h) (by decide)

/-- The lines the readers see. -/
theorem splitlines_streamText (kind : StreamKind) (records : List StreamRecord) :
    splitlines (universalNewlines (streamText kind records)) =
      records.flatMap fun record => (line kind record).splitOnP isLineBoundary := by
  have hcr : ∀ t ∈ records.map (line kind), '\r' ∉ t := by
    intro t ht
    obtain ⟨record, -, rfl⟩ := List.mem_map.mp ht
    exact carriageReturn_notMem_line kind record
  rw [streamText, splitlines_unlines hcr, List.flatMap_map]

/-- A whole line is read as the record. -/
theorem readLine_line {select : Json → Except ReaderError Bool} {kind : StreamKind}
    {record : StreamRecord} {selected : Bool} (h : select (written kind record) = .ok selected) :
    readLine select (line kind record) =
      .ok (if selected then some (written kind record) else none) := by
  have hstrip : strip (line kind record) = line kind record := strip_dumps_object _ _
  have hloads : loads (line kind record) = .ok (written kind record) :=
    loads_dumps .oneLine (valid_written kind record)
  have hne : line kind record ≠ [] := by
    obtain ⟨t, ht⟩ := exists_braces .oneLine 0 (payload kind record).entries
    exact fun h => absurd (ht.symm.trans h) (List.cons_ne_nil _ _)
  rw [readLine, hstrip, if_neg hne, hloads]
  change (select (written kind record) >>= _) = _
  rw [h]
  rfl

theorem filterMap_selected {α β : Type} (f : α → β) (p : β → Prop) [DecidablePred p] (l : List α) :
    (l.map fun a => if p (f a) then some (f a) else none).filterMap id =
      (l.map f).filter fun b => p b := by
  induction l with
  | nil => rfl
  | cons a l ih =>
    rw [List.map_cons, List.map_cons, List.filter_cons, ← ih]
    by_cases h : p (f a)
    · rw [if_pos h, if_pos (decide_eq_true h)]
      rfl
    · rw [if_neg h, if_neg (by simpa using h)]
      rfl

/-- **On clean records a reader is exact.** -/
theorem exact_of_clean {select : Json → Except ReaderError Bool} {kind : StreamKind}
    {records : List StreamRecord} (hclean : ∀ record ∈ records, Clean record.document)
    (hselect : ∀ record, ∃ selected, select (written kind record) = .ok selected) :
    Exact (readRecords select) select kind records := by
  have hlines : splitlines (universalNewlines (streamText kind records)) =
      records.map (line kind) := by
    rw [splitlines_streamText, ← List.flatMap_singleton' (records.map (line kind)),
      List.flatMap_map]
    refine List.flatMap_congr fun record hrecord => ?_
    exact splitOnP_of_clean (valid_written kind record)
      ((clean_written_iff kind record).mpr (hclean record hrecord))
  unfold Exact readRecords
  rw [hlines, List.mapM_map]
  have hfound : records.mapM (fun record => readLine select (line kind record)) =
      .ok (records.map fun record =>
        if select (written kind record) = .ok true then some (written kind record) else none) := by
    refine Fallible.mapM_eq_ok fun record _ => ?_
    obtain ⟨selected, hselected⟩ := hselect record
    rw [readLine_line hselected, hselected]
    cases selected <;> rfl
  exact (congrArg (· >>= _) hfound).trans (congrArg Except.ok
    (filterMap_selected (written kind) (fun record => select record = .ok true) records))

theorem isInteraction_written (kind : StreamKind) (record : StreamRecord) :
    ∃ selected, isInteraction (written kind record) = .ok selected := by
  rw [written, isInteraction]
  split
  · exact ⟨_, rfl⟩
  · exact ⟨_, rfl⟩
  · exact ⟨_, rfl⟩

/-- **A reader that keeps everything is exact on clean records only.** -/
theorem clean_of_exact {kind : StreamKind} {records : List StreamRecord}
    (h : Exact (readRecords everyRecord) everyRecord kind records) :
    ∀ record ∈ records, Clean record.document := by
  intro record hrecord
  rw [← clean_written_iff kind record]
  obtain ⟨found, hfound, hresult⟩ := Fallible.exists_of_bind h
  have hmem : written kind record ∈ found.filterMap id := by
    rw [Except.ok.inj hresult]
    exact List.mem_filter.mpr ⟨List.mem_map_of_mem hrecord, rfl⟩
  obtain ⟨some_record, hsome, hid⟩ := List.mem_filterMap.mp hmem
  obtain rfl : some_record = some (written kind record) := hid
  obtain ⟨q, hq, hread⟩ := Fallible.exists_of_mem_mapM hfound hsome
  rw [splitlines_streamText] at hq
  obtain ⟨source, -, hq⟩ := List.mem_flatMap.mp hq
  have hloads : loads (strip q) = .ok (written kind record) := by
    unfold readLine at hread
    split_ifs at hread with hempty
    · cases hread
    split at hread
    · rename_i x hx
      obtain rfl : x = written kind record := Option.some.inj (Except.ok.inj hread)
      exact hx
    · cases hread
    · cases hread
  refine clean_of_piece (valid_written kind source) hq hloads fun hwhole => ?_
  rw [← hwhole, written, strip_dumps_object] at hloads
  exact Except.ok.inj (hloads.symm.trans (loads_dumps .oneLine (valid_written kind source)))

/-- **The four readers return exactly what was written, if and only if no string of a record,
key or value, has one of U+0085, U+2028 and U+2029.** -/
theorem readers_exact_iff (kind : StreamKind) (records : List StreamRecord) :
    (Exact loadJsonl isInteraction kind records ∧ Exact loadRaw isInteraction kind records ∧
        Exact loadAgentRecords everyRecord kind records ∧
        Exact readJsonl everyRecord kind records) ↔
      ∀ record ∈ records, Clean record.document := by
  constructor
  · exact fun h => clean_of_exact h.2.2.2
  · intro hclean
    have hinteractions := exact_of_clean hclean (isInteraction_written kind)
    have hall : Exact (readRecords everyRecord) everyRecord kind records :=
      exact_of_clean hclean fun record => ⟨true, rfl⟩
    exact ⟨hinteractions, hinteractions, hall, hall⟩

/-- A marker whose note has a line separator. -/
def separatorRecord : StreamRecord where
  fields := OrderedDict.empty.set "note".toList (.string [Char.ofNat 0x2028])
  valid := by
    intro entry hentry node hnode
    obtain rfl := List.mem_singleton.mp hentry
    obtain rfl := List.mem_singleton.mp hnode
    exact trivial

/-- It was written, and no reader finds it. -/
theorem separatorRecord_lost :
    (readJsonl (streamText .runner [separatorRecord])).map List.length = .ok 0 ∧
      (loadJsonl (streamText .runner [separatorRecord])).map List.length = .ok 0 ∧
      ([separatorRecord].filter fun record =>
        isInteraction (written .runner record) = .ok true).length = 1 := by
  decide +kernel

end Instrumentation
end FederatedMessaging
