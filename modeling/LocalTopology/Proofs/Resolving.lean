import LocalTopology.Build.State
import LocalTopology.Proofs.Paths

/-!
# What a path resolves to

From an absolute work directory every path resolves to an absolute one: a slash, and the components
that the path leads through with one slash between each two of them. They are the pieces of the text
as it stands, so a path that was resolved resolves to itself (`resolve_eq_intercalate`).
-/

namespace LocalTopology

open Text

namespace Path

variable {directory : String}

theorem toList_resolve (h : isAbsolute directory = true) (path : String) :
    (resolve directory path).toList = '/' :: ['/'].intercalate (componentsFrom directory path) := by
  rw [resolve_eq_ofParts, h, Bool.or_true, ofParts, String.toList_ofList, if_pos rfl]

theorem components_resolve (directory path : String) :
    components (resolve directory path) = componentsFrom directory path := by
  rw [resolve_eq_ofParts, components_ofParts fun p hp => (mem_componentsFrom hp).2,
    List.filter_eq_self]
  intro p hp
  rw [(mem_componentsFrom hp).1, Bool.not_false]

/-- No piece of a resolved path leads nowhere, but that behind the slash of the root. -/
theorem splitOn_resolve (h : isAbsolute directory = true) (path : String) :
    (resolve directory path).toList.splitOn '/' = [] ::
      if componentsFrom directory path = [] then [[]] else componentsFrom directory path := by
  rw [toList_resolve h, splitOn_cons_self]
  split_ifs with hnil
  · rw [hnil]
    rfl
  · rw [List.splitOn_intercalate '/' (fun p hp => (mem_componentsFrom hp).2) hnil]

theorem resolve_resolve (h : isAbsolute directory = true) (path : String) :
    resolve directory (resolve directory path) = resolve directory path := by
  have habsolute : isAbsolute (resolve directory path) = true := by
    rw [isAbsolute_resolve, h, Bool.or_true]
  apply String.toList_injective
  rw [toList_resolve h, componentsFrom, if_pos habsolute, components_resolve, toList_resolve h]

end Path

/-- From an absolute work directory, a path resolves to the components that it leads through behind
the root, and to itself once it was resolved. -/
theorem Context.resolve_eq_intercalate {c : Context} (h : Path.isAbsolute c.workDirectory = true)
    (path : String) :
    let cs := if Path.isAbsolute path then Path.components path
      else Path.components c.workDirectory ++ Path.components path
    (c.resolve path).toList = '/' :: ['/'].intercalate cs ∧
      Path.isAbsolute (c.resolve path) = true ∧
      (c.resolve path).toList.splitOn '/' = [] :: (if cs = [] then [[]] else cs) ∧
      (∀ part ∈ cs, part ≠ [] ∧ part ≠ ['.']) ∧
      c.resolve (c.resolve path) = c.resolve path := by
  intro cs
  refine ⟨Path.toList_resolve h path, ?_, Path.splitOn_resolve h path, fun part hp => ?_,
    Path.resolve_resolve h path⟩
  · rw [resolve, Path.isAbsolute_resolve, h, Bool.or_true]
  · have hidle := (@Path.mem_componentsFrom c.workDirectory path part hp).1
    simpa [Path.isIdle] using hidle

/-- A relative path with steps of all kinds and slashes too many. -/
theorem Context.resolve_eq_intercalate_steps :
    let c : Context := { workDirectory := "/work/.//", home := ⟨"/home"⟩, proxyPort := 1347 }
    Path.isAbsolute c.workDirectory = true ∧ c.resolve "./src//../Api/." = "/work/src/../Api" ∧
      c.resolve "/work/src/../Api" = "/work/src/../Api" := by
  intro c
  obtain ⟨htext, -, -, -, hagain⟩ := resolve_eq_intercalate (c := c) (by decide) "./src//../Api/."
  have hresolved : c.resolve "./src//../Api/." = "/work/src/../Api" :=
    String.toList_injective (htext.trans (by decide))
  exact ⟨by decide, hresolved, by rwa [hresolved] at hagain⟩

end LocalTopology
