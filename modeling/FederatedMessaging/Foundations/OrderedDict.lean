import Mathlib

/-!
# Insertion-ordered dictionaries

A Python `dict` keeps its keys in the order of their first insertion, and setting a
key that is already there changes its value in place.  Both matter where a program
returns `list(d.values())` or iterates over `d.values()`.

`OrderedDict κ ν` is the list of entries, with the fact that no key occurs twice as a
field, so that a value of the type is a dictionary.  The lemmas are the ones a loop
that fills a dictionary needs.  The loop that matters here is the one that keeps the
first value it meets for each key: `setDefault` is its body, and the last section
says what a whole run of it leaves behind, for values that carry their own key.
-/

namespace FederatedMessaging

/-- A dictionary, as its entries in insertion order. -/
structure OrderedDict (κ ν : Type*) where
  entries : List (κ × ν)
  nodup_keys : (entries.map Prod.fst).Nodup

namespace OrderedDict

variable {κ ν : Type*}

/-- `{}`. -/
def empty : OrderedDict κ ν := ⟨[], List.nodup_nil⟩

theorem eq_of_entries {d d' : OrderedDict κ ν} (h : d.entries = d'.entries) : d = d' := by
  cases d
  cases d'
  subst h
  rfl

/-- `list(d)`. -/
def keys (d : OrderedDict κ ν) : List κ := d.entries.map Prod.fst

/-- `list(d.values())`. -/
def values (d : OrderedDict κ ν) : List ν := d.entries.map Prod.snd

@[simp] theorem keys_empty : (empty : OrderedDict κ ν).keys = [] := rfl

@[simp] theorem values_empty : (empty : OrderedDict κ ν).values = [] := rfl

theorem nodup (d : OrderedDict κ ν) : d.keys.Nodup := d.nodup_keys

/-- Every value is filed under its own key. -/
def FiledBy (key : ν → κ) (d : OrderedDict κ ν) : Prop := d.keys = d.values.map key

section Filed

variable {key : ν → κ} {d : OrderedDict κ ν}

theorem filedBy_empty : FiledBy key (empty : OrderedDict κ ν) := rfl

theorem FiledBy.nodup_values (h : FiledBy key d) : (d.values.map key).Nodup :=
  h ▸ d.nodup

end Filed

variable [DecidableEq κ]

/-- `k in d`. -/
def contains (d : OrderedDict κ ν) (k : κ) : Bool := k ∈ d.keys

/-- `d.get(k)`. -/
def get? (d : OrderedDict κ ν) (k : κ) : Option ν := d.entries.lookup k

/-- Write `v` under `k` in place. -/
def replace (k : κ) (v : ν) (entries : List (κ × ν)) : List (κ × ν) :=
  entries.map fun e => if e.1 = k then (k, v) else e

theorem map_fst_replace (k : κ) (v : ν) (entries : List (κ × ν)) :
    (replace k v entries).map Prod.fst = entries.map Prod.fst := by
  rw [replace, List.map_map]
  refine List.map_congr_left fun e _ => ?_
  by_cases he : e.1 = k <;> simp [he]

/-- `d[k] = v`. -/
def set (d : OrderedDict κ ν) (k : κ) (v : ν) : OrderedDict κ ν :=
  if h : k ∈ d.keys then
    ⟨replace k v d.entries, by rw [map_fst_replace]; exact d.nodup_keys⟩
  else
    ⟨d.entries ++ [(k, v)], by
      rw [List.map_append, List.map_singleton, ← List.concat_eq_append]
      exact List.Nodup.concat h d.nodup_keys⟩

@[simp] theorem get?_empty (k : κ) : (empty : OrderedDict κ ν).get? k = none := rfl

theorem contains_iff {d : OrderedDict κ ν} {k : κ} : d.contains k = true ↔ k ∈ d.keys := by
  simp [contains]

/-- Looking up finds the entry. -/
theorem get?_of_mem {d : OrderedDict κ ν} {k : κ} {v : ν} (h : (k, v) ∈ d.entries) :
    d.get? k = some v := by
  obtain ⟨front, back, hsplit⟩ := List.append_of_mem h
  have hnodup := d.nodup_keys
  rw [hsplit, List.map_append, List.map_cons, List.nodup_append] at hnodup
  refine List.lookup_eq_some_iff.mpr ⟨front, back, hsplit, fun e he => ?_⟩
  have hne := hnodup.2.2 e.1 (List.mem_map_of_mem he) k List.mem_cons_self
  exact bne_iff_ne.mpr (Ne.symm hne)

theorem get?_eq_some_iff {d : OrderedDict κ ν} {k : κ} {v : ν} :
    d.get? k = some v ↔ (k, v) ∈ d.entries := by
  refine ⟨fun h => ?_, get?_of_mem⟩
  obtain ⟨front, back, hsplit, -⟩ := List.lookup_eq_some_iff.mp h
  rw [hsplit]
  exact List.mem_append_right _ List.mem_cons_self

/-- Looking up key after key goes through the values. -/
theorem filterMap_keys {β : Type*} (d : OrderedDict κ ν) (f : ν → Option β) :
    d.keys.filterMap (fun k => (d.get? k).bind f) = d.values.filterMap f := by
  unfold keys values
  rw [List.filterMap_map, List.filterMap_map]
  refine List.filterMap_congr fun entry hentry => ?_
  change (d.get? entry.1).bind f = f entry.2
  rw [get?_of_mem hentry, Option.bind_some]

/-! ## Setting an absent key -/

theorem entries_set_of_notMem {d : OrderedDict κ ν} {k : κ} (h : k ∉ d.keys) (v : ν) :
    (d.set k v).entries = d.entries ++ [(k, v)] := by
  rw [set, dif_neg h]

theorem keys_set_of_notMem {d : OrderedDict κ ν} {k : κ} (h : k ∉ d.keys) (v : ν) :
    (d.set k v).keys = d.keys ++ [k] := by
  rw [keys, entries_set_of_notMem h, List.map_append]
  rfl

theorem values_set_of_notMem {d : OrderedDict κ ν} {k : κ} (h : k ∉ d.keys) (v : ν) :
    (d.set k v).values = d.values ++ [v] := by
  rw [values, entries_set_of_notMem h, List.map_append]
  rfl

/-! ## Setting any key -/

theorem keys_set_of_mem {d : OrderedDict κ ν} {k : κ} (h : k ∈ d.keys) (v : ν) :
    (d.set k v).keys = d.keys := by
  rw [set, dif_pos h, keys, keys, map_fst_replace]

theorem mem_keys_set {d : OrderedDict κ ν} {k k' : κ} {v : ν} :
    k' ∈ (d.set k v).keys ↔ k' ∈ d.keys ∨ k' = k := by
  by_cases h : k ∈ d.keys
  · rw [keys_set_of_mem h]
    exact ⟨Or.inl, fun h' => h'.elim id fun h' => h' ▸ h⟩
  · rw [keys_set_of_notMem h, List.mem_append, List.mem_singleton]

theorem mem_values_of_mem_set {d : OrderedDict κ ν} {k : κ} {v w : ν}
    (hw : w ∈ (d.set k v).values) : w ∈ d.values ∨ w = v := by
  by_cases h : k ∈ d.keys
  · rw [set, dif_pos h] at hw
    change w ∈ (replace k v d.entries).map Prod.snd at hw
    rw [replace, List.map_map] at hw
    obtain ⟨e, he, hew⟩ := List.mem_map.mp hw
    by_cases hk : e.1 = k
    · exact Or.inr (by simpa [hk] using hew.symm)
    · exact Or.inl (List.mem_map.mpr ⟨e, he, by simpa [hk] using hew⟩)
  · rwa [values_set_of_notMem h, List.mem_append, List.mem_singleton] at hw

/-- Looking up fails for the keys that are not there only. -/
theorem get?_eq_none_iff {d : OrderedDict κ ν} {k : κ} : d.get? k = none ↔ k ∉ d.keys := by
  rw [get?, List.lookup_eq_none_iff, keys, List.mem_map]
  constructor
  · rintro h ⟨e, he, rfl⟩
    exact absurd (h e he) (by simp)
  · intro h e he
    refine bne_iff_ne.mpr ?_
    rintro rfl
    exact h ⟨e, he, rfl⟩

/-- The entries after an assignment. -/
theorem mem_entries_set {d : OrderedDict κ ν} {k k' : κ} {v v' : ν} :
    (k', v') ∈ (d.set k v).entries ↔ k' = k ∧ v' = v ∨ k' ≠ k ∧ (k', v') ∈ d.entries := by
  by_cases h : k ∈ d.keys
  · rw [set, dif_pos h]
    change (k', v') ∈ replace k v d.entries ↔ _
    rw [replace, List.mem_map]
    constructor
    · rintro ⟨e, he, hek⟩
      by_cases hk : e.1 = k
      · rw [if_pos hk] at hek
        obtain ⟨rfl, rfl⟩ := Prod.mk.inj hek
        exact Or.inl ⟨rfl, rfl⟩
      · rw [if_neg hk] at hek
        exact Or.inr ⟨fun heq => hk ((congrArg Prod.fst hek).trans heq), hek ▸ he⟩
    · rintro (⟨rfl, rfl⟩ | ⟨hk, he⟩)
      · obtain ⟨e, he, hek⟩ := List.mem_map.mp h
        exact ⟨e, he, if_pos hek⟩
      · exact ⟨(k', v'), he, if_neg hk⟩
  · rw [entries_set_of_notMem h, List.mem_append, List.mem_singleton, Prod.mk.injEq]
    constructor
    · rintro (he | hnew)
      · refine Or.inr ⟨?_, he⟩
        rintro rfl
        exact h (List.mem_map_of_mem he)
      · exact Or.inl hnew
    · rintro (hnew | ⟨-, he⟩)
      · exact Or.inr hnew
      · exact Or.inl he

/-- **Reading after an assignment.** -/
theorem get?_set (d : OrderedDict κ ν) (k k' : κ) (v : ν) :
    (d.set k v).get? k' = if k' = k then some v else d.get? k' := by
  refine Option.ext fun v' => ?_
  split_ifs with hk
  · rw [get?_eq_some_iff, mem_entries_set, Option.some_inj]
    exact ⟨fun h => h.elim (fun h => h.2.symm) fun h => absurd hk h.1, fun h => Or.inl ⟨hk, h.symm⟩⟩
  · rw [get?_eq_some_iff, get?_eq_some_iff, mem_entries_set]
    exact ⟨fun h => h.elim (fun h => absurd h.1 hk) fun h => h.2, fun h => Or.inr ⟨hk, h⟩⟩

theorem FiledBy.set {key : ν → κ} {d : OrderedDict κ ν} (h : FiledBy key d) (v : ν) :
    FiledBy key (d.set (key v) v) := by
  by_cases hk : key v ∈ d.keys
  · have hold : d.entries.map Prod.fst = (d.entries.map Prod.snd).map key := h
    rw [FiledBy, keys_set_of_mem hk, OrderedDict.set, dif_pos hk]
    change d.entries.map Prod.fst = ((replace (key v) v d.entries).map Prod.snd).map key
    rw [replace, List.map_map, List.map_map]
    rw [List.map_map] at hold
    refine List.map_congr_left fun e he => ?_
    by_cases hek : e.1 = key v
    · simp [hek]
    · simpa [hek] using (List.map_inj_left.mp hold) e he
  · rw [FiledBy, keys_set_of_notMem hk, values_set_of_notMem hk, List.map_append, ← h]
    rfl

omit [DecidableEq κ] in
/-- Every key has a value filed under it. -/
theorem FiledBy.exists_of_mem_keys {key : ν → κ} {d : OrderedDict κ ν} (h : FiledBy key d) {k : κ}
    (hk : k ∈ d.keys) : ∃ v ∈ d.values, key v = k := by
  rw [h] at hk
  exact List.mem_map.mp hk

/-! ## Keeping the first value met for each key -/

/-- `d.setdefault(k, v)`. -/
def setDefault (d : OrderedDict κ ν) (k : κ) (v : ν) : OrderedDict κ ν :=
  if d.contains k then d else d.set k v

variable {key : ν → κ} {d : OrderedDict κ ν}

theorem FiledBy.setDefault (h : FiledBy key d) (v : ν) :
    FiledBy key (d.setDefault (key v) v) := by
  unfold OrderedDict.setDefault
  split
  · exact h
  · rename_i hk
    rw [contains_iff] at hk
    rw [FiledBy, keys_set_of_notMem hk, values_set_of_notMem hk, List.map_append, ← h]
    rfl

theorem mem_values_of_mem_setDefault {v w : ν} {k : κ} (h : w ∈ (d.setDefault k v).values) :
    w ∈ d.values ∨ w = v := by
  unfold OrderedDict.setDefault at h
  split at h
  · exact Or.inl h
  · rename_i hk
    rw [contains_iff] at hk
    rw [values_set_of_notMem hk, List.mem_append, List.mem_singleton] at h
    exact h

theorem mem_keys_setDefault {k k' : κ} {v : ν} :
    k' ∈ (d.setDefault k v).keys ↔ k' ∈ d.keys ∨ k' = k := by
  unfold OrderedDict.setDefault
  split
  · rename_i hk
    rw [contains_iff] at hk
    exact ⟨Or.inl, fun h => h.elim id fun h => h ▸ hk⟩
  · rename_i hk
    rw [contains_iff] at hk
    rw [keys_set_of_notMem hk, List.mem_append, List.mem_singleton]

/-- The loop: file each value of a list under its own key, unless the key is there. -/
def fileAll (key : ν → κ) (d : OrderedDict κ ν) (values : List ν) : OrderedDict κ ν :=
  values.foldl (fun d v => d.setDefault (key v) v) d

theorem FiledBy.fileAll (h : FiledBy key d) (values : List ν) :
    FiledBy key (d.fileAll key values) := by
  induction values generalizing d with
  | nil => exact h
  | cons v values ih => exact ih (h.setDefault v)

theorem mem_values_of_mem_fileAll {values : List ν} {w : ν}
    (h : w ∈ (d.fileAll key values).values) : w ∈ d.values ∨ w ∈ values := by
  induction values generalizing d with
  | nil => exact Or.inl h
  | cons v values ih =>
    rcases ih h with hd | hw
    · rcases mem_values_of_mem_setDefault hd with hd | rfl
      · exact Or.inl hd
      · exact Or.inr List.mem_cons_self
    · exact Or.inr (List.mem_cons_of_mem v hw)

theorem mem_keys_fileAll {values : List ν} {k : κ} :
    k ∈ (d.fileAll key values).keys ↔ k ∈ d.keys ∨ k ∈ values.map key := by
  induction values generalizing d with
  | nil => simp [OrderedDict.fileAll]
  | cons v values ih =>
    rw [OrderedDict.fileAll, List.foldl_cons, ← OrderedDict.fileAll, ih, mem_keys_setDefault,
      List.map_cons, List.mem_cons, or_assoc]

/-- **What the loop files**: each value is the first of the list with its key. -/
theorem mem_values_fileAll_iff {values : List ν} {w : ν} :
    w ∈ (d.fileAll key values).values ↔
      w ∈ d.values ∨ key w ∉ d.keys ∧ values.find? (fun v => key v = key w) = some w := by
  induction values generalizing d with
  | nil => exact ⟨Or.inl, fun h => h.resolve_right fun h => nomatch h.2⟩
  | cons v values ih =>
    rw [OrderedDict.fileAll, List.foldl_cons, ← OrderedDict.fileAll, ih, mem_keys_setDefault,
      List.find?_cons]
    unfold OrderedDict.setDefault
    by_cases hv : key v ∈ d.keys
    · rw [if_pos (contains_iff.mpr hv)]
      have hskip (hw : key w ∉ d.keys) : decide (key v = key w) = false :=
        decide_eq_false fun h => hw (h ▸ hv)
      constructor
      · rintro (h | ⟨hw, h⟩)
        · exact Or.inl h
        · have hw := fun h => hw (Or.inl h)
          exact Or.inr ⟨hw, by rw [hskip hw, h]⟩
      · rintro (h | ⟨hw, h⟩)
        · exact Or.inl h
        · rw [hskip hw] at h
          exact Or.inr ⟨fun hor => hor.elim hw fun heq => hw (heq ▸ hv), h⟩
    · rw [if_neg (mt contains_iff.mp hv), values_set_of_notMem hv, List.mem_append,
        List.mem_singleton, or_assoc]
      refine or_congr_right ?_
      by_cases hvw : key v = key w
      · rw [decide_eq_true hvw, Option.some_inj]
        constructor
        · rintro (rfl | h)
          · exact ⟨hv, rfl⟩
          · exact absurd (Or.inr hvw.symm) h.1
        · exact fun h => Or.inl h.2.symm
      · rw [decide_eq_false hvw]
        constructor
        · rintro (rfl | h)
          · exact absurd rfl hvw
          · exact ⟨fun hw => h.1 (Or.inl hw), h.2⟩
        · exact fun h => Or.inr ⟨fun hw => hw.elim h.1 fun hw => hvw hw.symm, h.2⟩

/-! ## Updating -/

/-- `d.update(pairs)`. -/
def update (d : OrderedDict κ ν) (pairs : List (κ × ν)) : OrderedDict κ ν :=
  pairs.foldl (fun d pair => d.set pair.1 pair.2) d

/-- Every entry is an old one or a new one. -/
theorem mem_or_mem_of_mem_update {d : OrderedDict κ ν} {pairs : List (κ × ν)} {entry : κ × ν}
    (h : entry ∈ (d.update pairs).entries) : entry ∈ d.entries ∨ entry ∈ pairs := by
  induction pairs generalizing d with
  | nil => exact .inl h
  | cons pair pairs ih =>
    rcases ih (d := d.set pair.1 pair.2) h with hset | hpairs
    · rcases mem_entries_set.mp hset with ⟨hkey, hvalue⟩ | ⟨-, hold⟩
      · exact .inr (List.mem_cons.mpr (.inl (Prod.ext hkey hvalue)))
      · exact .inl hold
    · exact .inr (List.mem_cons_of_mem pair hpairs)

/-- An entry whose key is not updated stays. -/
theorem mem_update_of_notMem {d : OrderedDict κ ν} {pairs : List (κ × ν)} {entry : κ × ν}
    (h : entry ∈ d.entries) (hkey : entry.1 ∉ pairs.map Prod.fst) :
    entry ∈ (d.update pairs).entries := by
  induction pairs generalizing d with
  | nil => exact h
  | cons pair pairs ih =>
    rw [List.map_cons, List.mem_cons, not_or] at hkey
    exact ih (d := d.set pair.1 pair.2) (mem_entries_set.mpr (.inr ⟨hkey.1, h⟩)) hkey.2

/-- **Every new entry is there afterwards**, when no key is updated twice. -/
theorem mem_update_of_mem {d : OrderedDict κ ν} {pairs : List (κ × ν)}
    (hnodup : (pairs.map Prod.fst).Nodup) {entry : κ × ν} (h : entry ∈ pairs) :
    entry ∈ (d.update pairs).entries := by
  induction pairs generalizing d with
  | nil => exact absurd h List.not_mem_nil
  | cons pair pairs ih =>
    obtain ⟨hnew, hnodup⟩ := List.nodup_cons.mp hnodup
    rcases List.mem_cons.mp h with rfl | h
    · exact mem_update_of_notMem (d := d.set entry.1 entry.2)
        (mem_entries_set.mpr (.inl ⟨rfl, rfl⟩)) hnew
    · exact ih (d := d.set pair.1 pair.2) hnodup h

/-- New keys are appended in order. -/
theorem entries_update_of_nodup {d : OrderedDict κ ν} {pairs : List (κ × ν)}
    (h : ((d.entries ++ pairs).map Prod.fst).Nodup) :
    (d.update pairs).entries = d.entries ++ pairs := by
  induction pairs generalizing d with
  | nil => exact (List.append_nil d.entries).symm
  | cons pair pairs ih =>
    have hnew : pair.1 ∉ d.keys := by
      rw [List.map_append, List.map_cons, List.nodup_middle] at h
      exact fun hmem => (List.nodup_cons.mp h).1 (List.mem_append_left _ hmem)
    have hset : (d.set pair.1 pair.2).entries = d.entries ++ [pair] :=
      entries_set_of_notMem hnew pair.2
    have hstep := ih (d := d.set pair.1 pair.2) (by rwa [hset, List.append_assoc])
    rw [hset, List.append_assoc] at hstep
    exact hstep

end OrderedDict
end FederatedMessaging
