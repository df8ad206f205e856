import LocalTopology.Config
import LocalTopology.Proofs.Paths

/-!
# Looking for a configuration

A configuration that is not in a directory is looked for in the one around it
(`findConfig_of_not_hasConfig`). Going up makes a path shorter, so it comes to an end: at the root,
or at the empty path if it began with a relative one (`exists_climbs_end`). What is found on the way
is in the nearest directory that has anything, and nothing is found only if no directory on the way
has (`findConfig_nearest`).
-/

namespace LocalTopology

namespace Path

/-- A directory is that of a path, or one around it, so many steps up. -/
inductive Climbs : String → Nat → String → Prop
  | here {path : String} : Climbs path 0 path
  | up {path parent around : String} {n : Nat} (parent_eq : parent? path = some parent)
    (rest : Climbs parent n around) : Climbs path (n + 1) around

/-- However many paths are asked for, those around a path are as many as it is long at most. -/
theorem ancestorsUpTo_congr : ∀ {n m : Nat} {path : String}, path.length < n → path.length < m →
    ancestorsUpTo n path = ancestorsUpTo m path
  | n + 1, m + 1, path, hn, hm => by
    rcases hp : parent? path with _ | parent
    · simp only [ancestorsUpTo, hp]
    · have hlt := length_lt_of_parent? hp
      simp only [ancestorsUpTo, hp]
      rw [ancestorsUpTo_congr (by omega : parent.length < n) (by omega : parent.length < m)]

theorem ancestors_of_parent? {path parent : String} (h : parent? path = some parent) :
    ancestors path = path :: ancestors parent := by
  have hlt := length_lt_of_parent? h
  rw [ancestors, ancestorsUpTo, h]
  exact congrArg _ (ancestorsUpTo_congr hlt (Nat.lt_succ_self _))

theorem ancestors_of_parent?_eq_none {path : String} (h : parent? path = none) :
    ancestors path = [path] := by
  rw [ancestors, ancestorsUpTo, h]

/-- What holds of the paths without a parent, and of a path if it does of its parent, holds of every
path, since going up makes a path shorter. -/
@[elab_as_elim]
theorem induction_up {P : String → Prop} (top : ∀ path, parent? path = none → P path)
    (up : ∀ path parent, parent? path = some parent → P parent → P path) (path : String) :
    P path := by
  induction hl : path.length using Nat.strongRecOn generalizing path with
  | ind l ih =>
    rcases hp : parent? path with _ | parent
    · exact top path hp
    · have hlt := length_lt_of_parent? hp
      exact up path parent hp (ih _ (by omega) parent rfl)

namespace Climbs

variable {path parent around : String} {n : Nat}

theorem isAbsolute_eq (h : Climbs path n around) : isAbsolute around = isAbsolute path := by
  induction h with
  | here => rfl
  | up hp _ ih => rw [ih, isAbsolute_of_parent? hp]

theorem cases_of_none (h : Climbs path n around) (hp : parent? path = none) :
    n = 0 ∧ around = path := by
  rcases h with _ | ⟨hp', -⟩
  · exact ⟨rfl, rfl⟩
  · cases hp.symm.trans hp'

theorem cases_of_some (h : Climbs path n around) (hp : parent? path = some parent) :
    (n = 0 ∧ around = path) ∨ ∃ m, n = m + 1 ∧ Climbs parent m around := by
  rcases h with _ | ⟨hp', hrest⟩
  · exact .inl ⟨rfl, rfl⟩
  · cases hp.symm.trans hp'
    exact .inr ⟨_, rfl, hrest⟩

end Climbs

/-- The way up from a path ends. -/
theorem exists_climbs_end (path : String) : ∃ n last, Climbs path n last ∧ parent? last = none ∧
    ∀ m around, Climbs path m around → m ≤ n := by
  induction path using induction_up with
  | top path hp => exact ⟨0, path, .here, hp, fun m around h => (h.cases_of_none hp).1.le⟩
  | up path parent hp ih =>
    obtain ⟨n, last, hclimbs, hlast, hmax⟩ := ih
    refine ⟨n + 1, last, .up hp hclimbs, hlast, fun m around h => ?_⟩
    rcases h.cases_of_some hp with ⟨rfl, -⟩ | ⟨m, rfl, hrest⟩
    · exact Nat.zero_le _
    · exact Nat.succ_le_succ (hmax m around hrest)

end Path

open LocalTopology.Path

variable {t : FileTree} {current directory path : String}

/-- Something of a name is there in a directory. -/
def Has (t : FileTree) (current directory name : String) : Prop :=
  t.isThere (join current (join directory name)) = true

/-- A directory has a configuration file of either name. -/
def HasConfig (t : FileTree) (current directory : String) : Prop :=
  Has t current directory configFileName ∨ Has t current directory configFileAlias

/-- The file that a directory offers is the one of the usual name, or else that of the other. -/
def Offers (t : FileTree) (current directory path : String) : Prop :=
  (Has t current directory configFileName ∧ path = join directory configFileName) ∨
    (¬ Has t current directory configFileName ∧ Has t current directory configFileAlias ∧
      path = join directory configFileAlias)

/-- A file is offered on the way up, and no directory before has any. -/
def Nearest (t : FileTree) (current directory path : String) : Prop :=
  ∃ n around, Climbs directory n around ∧ Offers t current around path ∧
    ∀ m < n, ∀ nearer, Climbs directory m nearer → ¬ HasConfig t current nearer

theorem Offers.hasConfig (h : Offers t current directory path) : HasConfig t current directory :=
  h.imp (·.1) (·.2.1)

theorem exists_offers (h : HasConfig t current directory) :
    ∃ path, Offers t current directory path := by
  by_cases hname : Has t current directory configFileName
  · exact ⟨_, .inl ⟨hname, rfl⟩⟩
  · exact ⟨_, .inr ⟨hname, h.resolve_left hname, rfl⟩⟩

theorem configIn?_eq_some_iff :
    configIn? t current directory = some path ↔ Offers t current directory path := by
  by_cases hname : t.isThere (join current (join directory configFileName)) = true <;>
    by_cases halias : t.isThere (join current (join directory configFileAlias)) = true <;>
      simp [configIn?, Offers, Has, hname, halias, @eq_comm _ path]

theorem configIn?_eq_none_iff :
    configIn? t current directory = none ↔ ¬ HasConfig t current directory := by
  simp [configIn?, HasConfig, Has]

theorem findConfig_of_hasConfig (h : HasConfig t current directory) :
    findConfig t current directory = .ok path ↔ Offers t current directory path := by
  obtain ⟨found, hfound⟩ := exists_offers h
  have hin := configIn?_eq_some_iff.2 hfound
  have hfind : (ancestors directory).findSome? (configIn? t current) = some found := by
    simp only [ancestors, ancestorsUpTo, List.findSome?_cons, hin]
  unfold findConfig
  rw [hfind, ← configIn?_eq_some_iff, hin, Except.ok.injEq, Option.some.injEq]

/-- What is not in a directory is looked for in the one around it, if there is one. -/
theorem findConfig_of_not_hasConfig (h : ¬ HasConfig t current directory) :
    findConfig t current directory =
      match parent? directory with
      | some parent => findConfig t current parent
      | none => .error .notFound := by
  have hin := configIn?_eq_none_iff.2 h
  unfold findConfig
  rcases hp : parent? directory with _ | parent
  · rw [ancestors_of_parent?_eq_none hp, List.findSome?_cons, hin, List.findSome?_nil]
  · rw [ancestors_of_parent? hp, List.findSome?_cons, hin]

/-! ## The nearest file -/

theorem nearest_iff_of_hasConfig (h : HasConfig t current directory) :
    Nearest t current directory path ↔ Offers t current directory path := by
  constructor
  · rintro ⟨_ | n, around, hclimbs, hoffers, hnearer⟩
    · cases hclimbs
      exact hoffers
    · exact absurd h (hnearer 0 (Nat.succ_pos _) directory .here)
  · exact fun hoffers => ⟨0, directory, .here, hoffers, nofun⟩

theorem nearest_iff_of_parent? {parent : String} (h : ¬ HasConfig t current directory)
    (hp : parent? directory = some parent) :
    Nearest t current directory path ↔ Nearest t current parent path := by
  constructor
  · rintro ⟨n, around, hclimbs, hoffers, hnearer⟩
    rcases hclimbs.cases_of_some hp with ⟨rfl, rfl⟩ | ⟨n, rfl, hrest⟩
    · exact absurd hoffers.hasConfig h
    · exact ⟨n, around, hrest, hoffers, fun m hm nearer hclimbs =>
        hnearer (m + 1) (Nat.succ_lt_succ hm) nearer (.up hp hclimbs)⟩
  · rintro ⟨n, around, hclimbs, hoffers, hnearer⟩
    refine ⟨n + 1, around, .up hp hclimbs, hoffers, fun m hm nearer hclimbs => ?_⟩
    rcases hclimbs.cases_of_some hp with ⟨rfl, rfl⟩ | ⟨m, rfl, hrest⟩
    · exact h
    · exact hnearer m (Nat.lt_of_succ_lt_succ hm) nearer hrest

theorem findConfig_eq_ok_iff :
    findConfig t current directory = .ok path ↔ Nearest t current directory path := by
  induction directory using induction_up with
  | top directory hp =>
    by_cases h : HasConfig t current directory
    · rw [findConfig_of_hasConfig h, nearest_iff_of_hasConfig h]
    · rw [findConfig_of_not_hasConfig h, hp]
      refine iff_of_false nofun ?_
      rintro ⟨n, around, hclimbs, hoffers, -⟩
      obtain ⟨-, rfl⟩ := hclimbs.cases_of_none hp
      exact h hoffers.hasConfig
  | up directory parent hp ih =>
    by_cases h : HasConfig t current directory
    · rw [findConfig_of_hasConfig h, nearest_iff_of_hasConfig h]
    · rw [findConfig_of_not_hasConfig h, hp, nearest_iff_of_parent? h hp]
      exact ih

theorem findConfig_eq_error_iff {fault : ConfigFault} :
    findConfig t current directory = .error fault ↔
      fault = .notFound ∧ ∀ n around, Climbs directory n around → ¬ HasConfig t current around := by
  induction directory using induction_up with
  | top directory hp =>
    by_cases h : HasConfig t current directory
    · obtain ⟨found, hfound⟩ := exists_offers h
      rw [(findConfig_of_hasConfig h).2 hfound]
      exact iff_of_false nofun fun hnone => hnone.2 0 directory .here h
    · rw [findConfig_of_not_hasConfig h, hp, Except.error.injEq, eq_comm]
      refine (and_iff_left fun n around hclimbs => ?_).symm
      obtain ⟨-, rfl⟩ := hclimbs.cases_of_none hp
      exact h
  | up directory parent hp ih =>
    by_cases h : HasConfig t current directory
    · obtain ⟨found, hfound⟩ := exists_offers h
      rw [(findConfig_of_hasConfig h).2 hfound]
      exact iff_of_false nofun fun hnone => hnone.2 0 directory .here h
    · rw [findConfig_of_not_hasConfig h, hp]
      refine ih.trans (and_congr_right fun _ => ⟨fun hnone n around hclimbs => ?_,
        fun hnone n around hclimbs => hnone (n + 1) around (.up hp hclimbs)⟩)
      rcases hclimbs.cases_of_some hp with ⟨-, rfl⟩ | ⟨m, -, hrest⟩
      · exact h
      · exact hnone m around hrest

/-- The search finds what the nearest directory with any configuration offers and fails if there is
no such directory. It ends for every path, at the root or at the empty path. -/
theorem findConfig_nearest (t : FileTree) (current directory : String) :
    (∀ path, findConfig t current directory = .ok path ↔ Nearest t current directory path) ∧
      (∀ fault, findConfig t current directory = .error fault ↔ fault = .notFound ∧
        ∀ n around, Climbs directory n around → ¬ HasConfig t current around) ∧
      ∃ n last, Climbs directory n last ∧ parent? last = none ∧
        (∀ m around, Climbs directory m around → m ≤ n) ∧
        if isAbsolute directory then isAbsolute last = true ∧ components last = []
        else last = "" := by
  refine ⟨fun path => findConfig_eq_ok_iff, fun fault => findConfig_eq_error_iff, ?_⟩
  obtain ⟨n, last, hclimbs, hlast, hmax⟩ := exists_climbs_end directory
  refine ⟨n, last, hclimbs, hlast, hmax, ?_⟩
  have hend := of_parent?_eq_none hlast
  rw [hclimbs.isAbsolute_eq] at hend
  split_ifs at hend ⊢ with habsolute
  · exact ⟨hclimbs.isAbsolute_eq.trans habsolute, hend⟩
  · exact hend

/-- The file of the other name in a nearer directory, before one of the usual name farther up. -/
example :
    let t : FileTree := ⟨[(["w"], .directory), (["w", "a"], .directory),
      (["w", "a", "b"], .directory), (["w", "devstack.yaml"], .file .empty false),
      (["w", "a", "devstack.yml"], .file .empty false)]⟩
    (findConfig t "/w" "a/b").toOption = some "a/devstack.yml" := by
  decide +kernel

end LocalTopology
