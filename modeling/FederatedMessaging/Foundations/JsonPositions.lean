import FederatedMessaging.Foundations.JsonReading

/-!
# Positions in a document

A position is a path of keys and indices, and what stands at a position, apart from what
stands deeper, is its head: a leaf, the length of an array or the set of the keys of an
object.  Two documents that have the same heads wherever both have a position are one document,
up to the order of keys, which dictionaries do not compare (`Same`).

## Hidden keys

`AgreeOutside hidden` asks this of the positions that do not go through a hidden key.

## Sorted keys

`sortKeys` is what `dumps` with `sort_keys` makes of a document before it writes it.  Documents
that are the same have the same sorted form, and only they have (`same_iff_sortKeys`), so two
texts with sorted keys are equal exactly when the documents are the same
(`same_iff_dumps_sortKeys`).
-/

namespace FederatedMessaging
namespace Json

open PythonText

/-! ## Positions -/

/-- One step into a document. -/
inductive Step where
  | key (k : Text)
  | index (i : ℕ)
  deriving DecidableEq, Repr

/-- What one step leads to. -/
def child : Json → Step → Option Json
  | .object members, .key k => members.lookup k
  | .array items, .index i => items[i]?
  | _, _ => none

/-- What a path leads to. -/
def valueAt (j : Json) : List Step → Option Json
  | [] => some j
  | s :: path => (j.child s).bind fun x => x.valueAt path

/-- What stands at a position itself. -/
inductive Head where
  | word (w : Word)
  | int (n : ℤ)
  | float (numeral : Numeral)
  | string (s : Text)
  | array (length : ℕ)
  | object (keys : Finset Text)
  deriving DecidableEq

/-- The head of a document. -/
def head : Json → Head
  | .word w => .word w
  | .int n => .int n
  | .float numeral => .float numeral
  | .string s => .string s
  | .array items => .array items.length
  | .object members => .object (members.map Prod.fst).toFinset

/-- The path does not go through a hidden key. -/
def Visible (hidden : Text → Prop) (path : List Step) : Prop := ∀ k, Step.key k ∈ path → ¬ hidden k

/-- The documents have the same heads at every visible position. -/
def AgreeOutside (hidden : Text → Prop) (x y : Json) : Prop :=
  ∀ path, Visible hidden path → ∀ a b, x.valueAt path = some a → y.valueAt path = some b →
    a.head = b.head

/-- The documents are one, up to the order of keys. -/
def Same (x y : Json) : Prop := AgreeOutside (fun _ => False) x y

theorem visible_nil (hidden : Text → Prop) : Visible hidden [] :=
  fun _ h => absurd h List.not_mem_nil

theorem visible_cons {hidden : Text → Prop} {s : Step} {path : List Step} :
    Visible hidden (s :: path) ↔ (∀ k, s = .key k → ¬ hidden k) ∧ Visible hidden path := by
  constructor
  · exact fun h => ⟨fun k hk => h k (hk ▸ List.mem_cons_self),
      fun k hk => h k (List.mem_cons_of_mem _ hk)⟩
  · rintro ⟨hs, hpath⟩ k hk
    rcases List.mem_cons.mp hk with hk | hk
    · exact hs k hk.symm
    · exact hpath k hk

theorem AgreeOutside.head_eq {hidden : Text → Prop} {x y : Json} (h : AgreeOutside hidden x y) :
    x.head = y.head :=
  h [] (visible_nil hidden) x y rfl rfl

theorem AgreeOutside.child {hidden : Text → Prop} {x y : Json} (h : AgreeOutside hidden x y)
    {s : Step} (hs : ∀ k, s = .key k → ¬ hidden k) {a b : Json} (ha : x.child s = some a)
    (hb : y.child s = some b) : AgreeOutside hidden a b := by
  intro path hpath a' b' ha' hb'
  refine h (s :: path) (visible_cons.mpr ⟨hs, hpath⟩) a' b' ?_ ?_
  · rw [valueAt, ha]
    exact ha'
  · rw [valueAt, hb]
    exact hb'

theorem AgreeOutside.refl (hidden : Text → Prop) (x : Json) : AgreeOutside hidden x x :=
  fun _ _ _ _ ha hb => congrArg head (Option.some_inj.mp (ha.symm.trans hb))

/-- A member with the keys of an object is found. -/
theorem lookup_eq_some_iff {members : List (Text × Json)} (h : (members.map Prod.fst).Nodup)
    {k : Text} {x : Json} : members.lookup k = some x ↔ (k, x) ∈ members := by
  rw [List.lookup_eq_some_iff]
  constructor
  · rintro ⟨front, back, rfl, -⟩
    exact List.mem_append_right _ List.mem_cons_self
  · intro hmem
    obtain ⟨front, back, rfl⟩ := List.append_of_mem hmem
    rw [List.map_append, List.map_cons, List.nodup_append] at h
    refine ⟨front, back, rfl, fun m hm => bne_iff_ne.mpr fun heq => ?_⟩
    exact h.2.2 m.1 (List.mem_map_of_mem hm) k List.mem_cons_self heq.symm

theorem lookup_map_snd (f : Text → Json → Json) (k : Text) (members : List (Text × Json)) :
    (members.map fun m => (m.1, f m.1 m.2)).lookup k = (members.lookup k).map (f k) := by
  induction members with
  | nil => rfl
  | cons m members ih =>
    rw [List.map_cons, List.lookup_cons, List.lookup_cons, ih]
    cases hk : k == m.1 with
    | true => rw [eq_of_beq hk, Option.map_some]
    | false => rfl

/-! ## Changes that keep the positions -/

/-- **What a change of the values does at a position**, when it does the same everywhere on
the way there. -/
theorem valueAt_of_child {f : Json → Json} {ok : Json → Prop} {hidden : Text → Prop}
    (hok : ∀ {j a : Json} {s : Step}, ok j → j.child s = some a → ok a)
    (hchild : ∀ {j : Json} {s : Step}, ok j → (∀ k, s = .key k → ¬ hidden k) →
      (f j).child s = (j.child s).map f)
    {j : Json} (hj : ok j) {path : List Step} (hpath : Visible hidden path) :
    (f j).valueAt path = (j.valueAt path).map f := by
  induction path generalizing j with
  | nil => rfl
  | cons s path ih =>
    obtain ⟨hs, hpath⟩ := visible_cons.mp hpath
    rw [valueAt, valueAt, hchild hj hs]
    cases ha : j.child s with
    | none => rfl
    | some a => exact ih (hok hj ha) hpath

/-! ## Sorted keys -/

/-- `sorted(d.items())`: no two keys are equal. -/
def sortMembers (members : List (Text × Json)) : List (Text × Json) :=
  members.insertionSort fun m m' => m.1 ≤ m'.1

mutual

/-- The document with its keys sorted everywhere. -/
def sortKeys : Json → Json
  | .array items => .array (sortKeysOfItems items)
  | .object members => .object (sortMembers (sortKeysOfMembers members))
  | j => j

/-- The documents of a list, each with its keys sorted. -/
def sortKeysOfItems : List Json → List Json
  | [] => []
  | x :: xs => sortKeys x :: sortKeysOfItems xs

/-- The members, each value with its keys sorted. -/
def sortKeysOfMembers : List (Text × Json) → List (Text × Json)
  | [] => []
  | (k, x) :: ms => (k, sortKeys x) :: sortKeysOfMembers ms

end

theorem sortKeysOfItems_eq (items : List Json) : sortKeysOfItems items = items.map sortKeys := by
  induction items with
  | nil => rfl
  | cons x xs ih => rw [sortKeysOfItems, ih, List.map_cons]

theorem sortKeysOfMembers_eq (members : List (Text × Json)) :
    sortKeysOfMembers members = members.map fun m => (m.1, sortKeys m.2) := by
  induction members with
  | nil => rfl
  | cons m ms ih => rw [sortKeysOfMembers, ih, List.map_cons]

theorem perm_sortMembers (members : List (Text × Json)) : (sortMembers members).Perm members :=
  List.perm_insertionSort _ _

theorem pairwise_sortMembers (members : List (Text × Json)) :
    (sortMembers members).Pairwise fun m m' => m.1 ≤ m'.1 :=
  haveI : Std.Total fun m m' : Text × Json => m.1 ≤ m'.1 := ⟨fun m m' => le_total m.1 m'.1⟩
  haveI : IsTrans (Text × Json) fun m m' => m.1 ≤ m'.1 := ⟨fun _ _ _ => le_trans⟩
  List.pairwise_insertionSort _ _

theorem map_fst_sortKeysOfMembers (members : List (Text × Json)) :
    (sortKeysOfMembers members).map Prod.fst = members.map Prod.fst := by
  rw [sortKeysOfMembers_eq, List.map_map]
  rfl

/-- **One set of members, sorted in one way.** -/
theorem sortMembers_eq_of_mem_iff {members members' : List (Text × Json)}
    (h : (members.map Prod.fst).Nodup) (h' : (members'.map Prod.fst).Nodup)
    (hmem : ∀ m, m ∈ members ↔ m ∈ members') : sortMembers members = sortMembers members' := by
  have hperm : members.Perm members' :=
    (List.perm_ext_iff_of_nodup (List.Nodup.of_map _ h) (List.Nodup.of_map _ h')).mpr hmem
  refine List.Perm.eq_of_pairwise (fun m m' hm hm' hle hle' => ?_) (pairwise_sortMembers members)
    (pairwise_sortMembers members')
    ((perm_sortMembers members).trans (hperm.trans (perm_sortMembers members').symm))
  have hm := (perm_sortMembers members).mem_iff.mp hm
  have hm' := hperm.mem_iff.mpr ((perm_sortMembers members').mem_iff.mp hm')
  exact List.inj_on_of_nodup_map h hm hm' (le_antisymm hle hle')

theorem Valid.of_child {j a : Json} {s : Step} (h : j.Valid) (ha : j.child s = some a) :
    a.Valid := by
  unfold Json.child at ha
  split at ha
  · rename_i members k
    exact h.of_mem_object ((lookup_eq_some_iff h.own).mp ha)
  · exact h.of_mem_array (List.mem_of_getElem? ha)
  · cases ha

theorem head_sortKeys (j : Json) : (sortKeys j).head = j.head := by
  cases j with
  | array items => rw [sortKeys, head, head, sortKeysOfItems_eq, List.length_map]
  | object members =>
    rw [sortKeys, head, head, ← map_fst_sortKeysOfMembers members]
    exact congrArg Head.object (List.toFinset_eq_of_perm _ _ ((perm_sortMembers _).map _))
  | _ => rfl

theorem child_sortKeys {j : Json} (h : j.Valid) (s : Step) :
    (sortKeys j).child s = (j.child s).map sortKeys := by
  cases j with
  | array items =>
    cases s with
    | key k => rfl
    | index i => rw [sortKeys, sortKeysOfItems_eq, child, child, List.getElem?_map]
  | object members =>
    cases s with
    | key k =>
      have hnodup : ((sortKeysOfMembers members).map Prod.fst).Nodup := by
        rw [map_fst_sortKeysOfMembers]
        exact h.own
      have hsorted : ((sortMembers (sortKeysOfMembers members)).map Prod.fst).Nodup :=
        ((perm_sortMembers _).map Prod.fst).nodup_iff.mpr hnodup
      rw [sortKeys, child, child, ← lookup_map_snd fun _ => sortKeys, ← sortKeysOfMembers_eq]
      refine Option.ext fun x => ?_
      rw [lookup_eq_some_iff hsorted, lookup_eq_some_iff hnodup, (perm_sortMembers _).mem_iff]
    | index i => rfl
  | _ => rfl

theorem valueAt_sortKeys {j : Json} (h : j.Valid) (path : List Step) :
    (sortKeys j).valueAt path = (j.valueAt path).map sortKeys :=
  @valueAt_of_child sortKeys Valid (fun _ => False) (fun h ha => Valid.of_child h ha)
    (fun h _ => child_sortKeys h _) j h path fun _ _ => not_false

/-- Sorting the keys of two documents that are the same leaves nothing to tell them apart. -/
theorem sortKeys_eq_of_same {x y : Json} (hx : x.Valid) (hy : y.Valid) (h : Same x y) :
    sortKeys x = sortKeys y := by
  have hhead := h.head_eq
  induction x generalizing y with
  | word | int | float | string =>
    cases y <;> cases hhead
    rfl
  | array items ih =>
    cases y with
    | array items' =>
      have hlength : items.length = items'.length := Head.array.inj hhead
      rw [sortKeys, sortKeys, sortKeysOfItems_eq, sortKeysOfItems_eq]
      refine congrArg Json.array (List.ext_getElem (by simp [hlength]) fun i hi hi' => ?_)
      rw [List.length_map] at hi hi'
      rw [List.getElem_map, List.getElem_map]
      have hsame : Same items[i] items'[i] :=
        h.child (s := .index i) nofun (List.getElem?_eq_getElem hi) (List.getElem?_eq_getElem hi')
      exact ih _ (List.getElem_mem hi) (hx.of_mem_array (List.getElem_mem hi))
        (hy.of_mem_array (List.getElem_mem hi')) hsame hsame.head_eq
    | _ => cases hhead
  | object members ih =>
    cases y with
    | object members' =>
      have hkeys : ∀ k, k ∈ members.map Prod.fst ↔ k ∈ members'.map Prod.fst := by
        intro k
        have := congrArg (k ∈ ·) (Head.object.inj hhead)
        simpa only [List.mem_toFinset] using iff_of_eq this
      -- the value under one key is the same on both sides
      have hvalue : ∀ {k a b}, (k, a) ∈ members → (k, b) ∈ members' → sortKeys a = sortKeys b := by
        intro k a b ha hb
        have hsame : Same a b := h.child (s := .key k) (fun _ _ => not_false)
          ((lookup_eq_some_iff hx.own).mpr ha) ((lookup_eq_some_iff hy.own).mpr hb)
        exact ih _ ha (hx.of_mem_object ha) (hy.of_mem_object hb) hsame hsame.head_eq
      rw [sortKeys, sortKeys]
      refine congrArg Json.object (sortMembers_eq_of_mem_iff ?_ ?_ fun m => ?_)
      · rw [map_fst_sortKeysOfMembers]
        exact hx.own
      · rw [map_fst_sortKeysOfMembers]
        exact hy.own
      · rw [sortKeysOfMembers_eq, sortKeysOfMembers_eq, List.mem_map, List.mem_map]
        constructor
        · rintro ⟨⟨k, a⟩, ha, rfl⟩
          obtain ⟨⟨k', b⟩, hb, rfl⟩ := List.mem_map.mp ((hkeys k).mp (List.mem_map_of_mem ha))
          exact ⟨_, hb, Prod.ext rfl (hvalue ha hb).symm⟩
        · rintro ⟨⟨k, b⟩, hb, rfl⟩
          obtain ⟨⟨k', a⟩, ha, rfl⟩ := List.mem_map.mp ((hkeys k).mpr (List.mem_map_of_mem hb))
          exact ⟨_, ha, Prod.ext rfl (hvalue ha hb)⟩
    | _ => cases hhead

/-- **Two documents are the same when their sorted forms are equal.** -/
theorem same_iff_sortKeys {x y : Json} (hx : x.Valid) (hy : y.Valid) :
    Same x y ↔ sortKeys x = sortKeys y := by
  refine ⟨sortKeys_eq_of_same hx hy, fun h path _ a b ha hb => ?_⟩
  have heq : (x.valueAt path).map sortKeys = (y.valueAt path).map sortKeys := by
    rw [← valueAt_sortKeys hx, ← valueAt_sortKeys hy, h]
  rw [ha, hb, Option.map_some, Option.map_some, Option.some_inj] at heq
  rw [← head_sortKeys a, ← head_sortKeys b, heq]

/-- Sorting the keys changes nothing about what can be written. -/
theorem valid_sortKeys {j : Json} (h : j.Valid) : (sortKeys j).Valid := by
  induction j with
  | word | int | float | string => exact h
  | array items ih =>
    intro node hnode
    rw [sortKeys, sortKeysOfItems_eq] at hnode
    rcases mem_nodes_array.mp hnode with rfl | ⟨x, hx, hnode⟩
    · exact trivial
    · obtain ⟨x, hmem, rfl⟩ := List.mem_map.mp hx
      exact ih x hmem (h.of_mem_array hmem) node hnode
  | object members ih =>
    intro node hnode
    rw [sortKeys] at hnode
    rcases mem_nodes_object.mp hnode with rfl | ⟨m, hm, hnode⟩
    · change ((sortMembers (sortKeysOfMembers members)).map Prod.fst).Nodup
      rw [((perm_sortMembers _).map Prod.fst).nodup_iff, map_fst_sortKeysOfMembers]
      exact h.own
    · rw [(perm_sortMembers _).mem_iff, sortKeysOfMembers_eq] at hm
      obtain ⟨m, hmem, rfl⟩ := List.mem_map.mp hm
      exact ih m hmem (h.of_mem_object hmem) node hnode

/-- **The text with sorted keys tells apart what is not the same.** -/
theorem same_iff_dumps_sortKeys (style : Style) {x y : Json} (hx : x.Valid) (hy : y.Valid) :
    Same x y ↔ dumps style (sortKeys x) = dumps style (sortKeys y) := by
  rw [same_iff_sortKeys hx hy]
  exact ⟨congrArg _, dumps_injective style (valid_sortKeys hx) (valid_sortKeys hy)⟩

end Json
end FederatedMessaging
