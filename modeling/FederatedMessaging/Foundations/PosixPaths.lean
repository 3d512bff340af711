import FederatedMessaging.Foundations.PythonText

/-!
# Paths

`PurePosixPath` of `pathlib`: a root and the components after it, without empty ones and
without `.`.  A component `..` stays.  `joinpath` is the operator `/`; a text that has a root
of its own replaces the path it is joined to.
-/

namespace FederatedMessaging

open PythonText

/-- `PurePosixPath`. -/
structure PosixPath where
  root : Text
  parts : List Text
  deriving DecidableEq, Repr

namespace PosixPath

/-- The root of a text: exactly two slashes are one of their own. -/
def rootOf (t : Text) : Text :=
  match t with
  | '/' :: '/' :: '/' :: _ => ['/']
  | '/' :: '/' :: _ => ['/', '/']
  | '/' :: _ => ['/']
  | _ => []

/-- The components of a text. -/
def partsOf (t : Text) : List Text := (t.splitOn '/').filter fun part => part ≠ [] ∧ part ≠ ['.']

/-- `path / t`. -/
def joinpath (path : PosixPath) (t : Text) : PosixPath :=
  if rootOf t = [] then ⟨path.root, path.parts ++ partsOf t⟩ else ⟨rootOf t, partsOf t⟩

theorem rootOf_of_notMem {t : Text} (h : '/' ∉ t) : rootOf t = [] := by
  unfold rootOf
  split
  · exact absurd List.mem_cons_self h
  · exact absurd List.mem_cons_self h
  · exact absurd List.mem_cons_self h
  · rfl

theorem partsOf_of_notMem {t : Text} (h : '/' ∉ t) (hne : t ≠ []) (hdot : t ≠ ['.']) :
    partsOf t = [t] := by
  rw [partsOf, List.splitOn_eq_singleton h, List.filter_cons_of_pos (by simp [hne, hdot]),
    List.filter_nil]

/-- A name is one component. -/
theorem joinpath_of_notMem {path : PosixPath} {t : Text} (h : '/' ∉ t) (hne : t ≠ [])
    (hdot : t ≠ ['.']) : path.joinpath t = ⟨path.root, path.parts ++ [t]⟩ := by
  rw [joinpath, if_pos (rootOf_of_notMem h), partsOf_of_notMem h hne hdot]

theorem partsOf_append_cons (s t : Text) : partsOf (s ++ '/' :: t) = partsOf s ++ partsOf t := by
  rw [partsOf, List.splitOn_append_cons_self, List.filter_append]
  rfl

/-- Two names with a slash between them are two components. -/
theorem joinpath_append_cons {path : PosixPath} {s t : Text} (hs : '/' ∉ s) (hsne : s ≠ [])
    (hsdot : s ≠ ['.']) (ht : '/' ∉ t) (htne : t ≠ []) (htdot : t ≠ ['.']) :
    path.joinpath (s ++ '/' :: t) = (path.joinpath s).joinpath t := by
  have hroot : rootOf (s ++ '/' :: t) = [] := by
    cases s with
    | nil => exact absurd rfl hsne
    | cons c s =>
      have hc : c ≠ '/' := fun heq => hs (heq ▸ List.mem_cons_self)
      unfold rootOf
      split <;> simp_all
  rw [joinpath_of_notMem hs hsne hsdot, joinpath_of_notMem ht htne htdot, joinpath, if_pos hroot,
    partsOf_append_cons, partsOf_of_notMem hs hsne hsdot, partsOf_of_notMem ht htne htdot,
    List.append_assoc]

/-- **What stands after the last slash is the last component.** -/
theorem getLast?_joinpath {path : PosixPath} {s t : Text} (h : '/' ∉ t) (hne : t ≠ [])
    (hdot : t ≠ ['.']) : (path.joinpath (s ++ '/' :: t)).parts.getLast? = some t := by
  have hparts : partsOf (s ++ '/' :: t) = partsOf s ++ [t] := by
    rw [partsOf_append_cons, partsOf_of_notMem h hne hdot]
  rw [joinpath, hparts]
  split
  · rw [← List.append_assoc]
    exact List.getLast?_concat
  · exact List.getLast?_concat

end PosixPath
end FederatedMessaging
