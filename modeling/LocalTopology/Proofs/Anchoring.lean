import LocalTopology.Command.Report
import LocalTopology.Proofs.Clashing
import LocalTopology.Proofs.Searching
import LocalTopology.Proofs.Settling

/-!
# Where the paths of processes start

The entry of a process names its directory and the paths that its runner declares, all of them taken
from the work directory if they are relative, and the work directory is that of the first
configuration file. Loaded from an absolute directory it is absolute, unless that file was given by
a relative path with a directory in it (`isAbsolute_directory_of_load`). Such a file makes every
relative path of a process depend on where the process is started (`isAbsolute_paths_of_load`).
-/

namespace LocalTopology

/-! ## The work directory -/

/-- A file that is found around a directory is absolute if the directory is. -/
theorem isAbsolute_of_findConfig {t : FileTree} {workDirectory directory path : String}
    (h : findConfig t workDirectory directory = .ok path) :
    Path.isAbsolute directory = true → Path.isAbsolute path = true := by
  intro habs
  obtain ⟨n, around, hclimbs, hoffers, -⟩ := findConfig_eq_ok_iff.1 h
  rcases hoffers with ⟨-, rfl⟩ | ⟨-, -, rfl⟩
  all_goals rw [Path.isAbsolute_join, hclimbs.isAbsolute_eq, habs, Bool.or_true]

theorem Graph.exists_ofFragments_of_load {t : FileTree} {directory : String} {files : List String}
    {g : Graph} (h : Graph.load t directory files = .ok g) :
    ∃ fs, Graph.ofFragments fs = .ok g := by
  unfold Graph.load at h
  rcases hfs : files.mapM (Fragment.load t directory) with e | fs <;> rw [hfs] at h
  · cases h
  · exact ⟨fs, h⟩

namespace Command

/-- The first of the given files, if any are given, is named by an absolute path or by its name
alone. -/
def IsAnchored (files : List String) : Prop :=
  ∀ file ∈ files.head?, Path.isAbsolute file = true ∨ (Path.parent? file).getD "" = ""

theorem isAbsolute_configDirectory {current : String} (h : Path.isAbsolute current = true)
    (path : String) : Path.isAbsolute (configDirectory current path) = true ↔
      Path.isAbsolute path = true ∨ (Path.parent? path).getD "" = "" := by
  unfold configDirectory
  rcases hp : Path.parent? path with _ | parent
  · simp [h]
  · by_cases hempty : parent = ""
    · simp [hempty, h]
    · simp [hempty, Path.isAbsolute_of_parent? hp]

/-- The files that are loaded are the given ones, or the one that is found. -/
theorem load_eq_ok {t : FileTree} {current : String} {files : List String} {loaded : Loaded}
    (h : load t current files = .ok loaded) :
    (∃ fs, Graph.ofFragments fs = .ok loaded.graph) ∧
      loaded.directory = configDirectory current (loaded.files.headD "") ∧
      ((files ≠ [] ∧ loaded.files = files) ∨
        files = [] ∧ ∃ path, findConfig t current current = .ok path ∧ loaded.files = [path]) := by
  unfold load at h
  rcases files with _ | ⟨file, files⟩
  · rcases hf : findConfig t current current with e | path <;> rw [hf] at h
    · cases h
    rcases hg : Graph.load t current [path] with e | g <;>
      simp only [List.isEmpty_nil, if_true, Except.map, bind, Except.bind, hg] at h <;> cases h
    exact ⟨Graph.exists_ofFragments_of_load hg, rfl, .inr ⟨rfl, path, rfl, rfl⟩⟩
  · rcases hg : Graph.load t current (file :: files) with e | g <;>
      simp only [List.isEmpty_cons, Bool.false_eq_true, if_false, bind, Except.bind, hg] at h <;>
      cases h
    exact ⟨Graph.exists_ofFragments_of_load hg, rfl, .inl ⟨by simp, rfl⟩⟩

theorem isAbsolute_directory_of_load {t : FileTree} {current : String} {files : List String}
    {loaded : Loaded} (hc : Path.isAbsolute current = true)
    (h : load t current files = .ok loaded) :
    Path.isAbsolute loaded.directory = true ↔ IsAnchored files := by
  obtain ⟨-, hdirectory, ⟨hne, hfiles⟩ | ⟨rfl, path, hf, hfiles⟩⟩ := load_eq_ok h
  · obtain ⟨file, rest, rfl⟩ := List.exists_cons_of_ne_nil hne
    rw [hdirectory, hfiles, isAbsolute_configDirectory hc]
    simp [IsAnchored]
  · rw [hdirectory, hfiles, isAbsolute_configDirectory hc]
    exact iff_of_true (.inl (isAbsolute_of_findConfig hf hc)) (by simp [IsAnchored])

end Command

/-! ## The paths of a process -/

/-- Where a declared path leads, or the work directory if none is declared. -/
def Context.locate (c : Context) : Option String → String
  | some path => c.resolve path
  | none => c.workDirectory

theorem Context.isAbsolute_locate (c : Context) (path : Option String) :
    Path.isAbsolute (c.locate path) = true ↔
      Path.isAbsolute c.workDirectory = true ∨ ∃ own ∈ path, Path.isAbsolute own = true := by
  rcases path with _ | own
  · simp [locate]
  · simp [locate, resolve, Path.isAbsolute_resolve, or_comm]

namespace Runner

/-- The words of the command line by which a runner's process is started. -/
def words (c : Context) (p : Port) : Runner → List String
  | project r => ["dotnet", "run", "--project", c.locate r.project, "--no-launch-profile"]
  | executable r =>
    (if '/' ∈ r.command.toList then c.locate r.command else r.command) :: r.arguments
  | mock r =>
    [Tool.mockServer.binaryPath c.home, "mock", c.locate r.specification, "--port", toString p,
      "--host", "127.0.0.1"]
  | _ => []

/-- The directory that a runner declares for its process. -/
def directory : Runner → Option String
  | project r => r.workingDirectory
  | executable r => r.workingDirectory
  | _ => none

/-- The declared paths in the entry of a runner's process, in front of its directory. -/
def paths (r : Runner) : List (Option String) :=
  (match r with
    | project r => [some r.project]
    | executable r => if '/' ∈ r.command.toList then [some r.command] else []
    | mock r => [some r.specification]
    | _ => []) ++ [r.directory]

/-- A process is started on a port as its runner says. -/
structure Starts (r : Runner) (c : Context) (p : Port) (e : SupervisedProcess) : Prop where
  command : e.command = Shell.commandLine (r.words c p)
  directory : e.workingDirectory = some (c.locate r.directory)

theorem starts_entry (l : Launch) {r : Runner} {c : Context} {p : Port} (b : Backend)
    (hwords : l.program :: l.arguments = r.words c p)
    (hdirectory : l.workingDirectory = r.directory) : r.Starts c p (l.entry c b) := by
  refine ⟨by rw [← hwords]; rfl, ?_⟩
  rw [← hdirectory]
  rcases hd : l.workingDirectory with _ | path <;>
    simp only [Launch.entry, hd, SupervisedProcess.withEnvironment, Context.locate]

/-- The entry of a runner among the processes is the one by which it is started. -/
theorem starts_of_process? {r : Runner} {c : Context} {p : Port} {e : SupervisedProcess}
    (h : r.process? c p = some e) : r.Starts c p e := by
  cases r with
  | container r => cases h
  | remote r => cases h
  | project r =>
    obtain rfl := Option.some.inj h
    exact starts_entry _ _ rfl rfl
  | executable r =>
    obtain rfl := Option.some.inj h
    exact starts_entry _ _ (by simp [Launch.ofExecutable, words, Context.locate]) rfl
  | mock r =>
    obtain rfl := Option.some.inj h
    exact ⟨rfl, rfl⟩

end Runner

namespace BuildState

variable {st a : BuildState} {c : Context}

/-- Every process is started as a runner of its service says. -/
def ProcessesTold (a : BuildState) (services : Registry Service) (c : Context) : Prop :=
  ∀ n e, a.supervisor.processes.get? n = some e →
    ∃ s r p, Hosts services c.mode n s r ∧ r.Starts c p e

theorem processesTold_compileRunners (hsupervisor : st.supervisor = .empty)
    (h : st.compileRunners c = .ok a) : a.ProcessesTold st.services c := by
  intro n e he
  obtain ⟨s, r, p, hh, -, hentry⟩ := processesMade_compileRunners hsupervisor h n e he
  exact ⟨s, r, p, hh, Runner.starts_of_process? hentry⟩

end BuildState

/-- In a topology that is compiled from files, loaded from an absolute directory, every process is
started as the active runner of its service says, and each path in its entry is absolute exactly if
it is declared so or the first file is anchored. -/
theorem isAbsolute_paths_of_load {t t' : FileTree} {current : String} {files : List String}
    {loaded : Command.Loaded} {c : Context} {offers : List Port} {topology : Topology}
    (hcurrent : Path.isAbsolute current = true)
    (hload : Command.load t current files = .ok loaded)
    (hdirectory : c.workDirectory = loaded.directory)
    (hcompile : (loaded.graph.compile c offers t').1 = .ok topology) {n : String}
    {e : SupervisedProcess} (he : topology.manifests.supervisor.processes.get? n = some e) :
    ∃ s r p, loaded.graph.Serves n s ∧ activeRunner c.mode n s = .ok r ∧ r.Starts c p e ∧
      ∀ path ∈ r.paths, Path.isAbsolute (c.locate path) = true ↔
        Command.IsAnchored files ∨ ∃ own ∈ path, Path.isAbsolute own = true := by
  obtain ⟨⟨fs, hg⟩, -⟩ := Command.load_eq_ok hload
  obtain ⟨st, written, hb, rfl⟩ := Graph.exists_build_of_compile hcompile
  obtain ⟨services, compiled, t'', hd, hcompiled, -, hend⟩ := BuildState.compiled_of_build hb
  cases hend
  have hunwritten := (BuildState.unwritten_of_build hb).1
  simp only [Topology.ofState, hunwritten, Option.getD_none, Manifests.render] at he
  obtain ⟨s, r, p, hh, hstarts⟩ := BuildState.processesTold_compileRunners rfl hcompiled n e he
  refine ⟨s, r, p, ?_, (activeRunner_of_standing hh.stands).1, hstarts, fun path _ => ?_⟩
  · exact (get?_expandDependencies_iff (Graph.sound_of_ofFragments hg).declared hd).1 hh.service
  · rw [c.isAbsolute_locate, hdirectory, Command.isAbsolute_directory_of_load hcurrent hload]

/-- The file is given by its name, from the directory in which it stands. -/
theorem isAbsolute_paths_of_load_beside :
    let document := "name: shop\nservices:\n  api:\n    runners:\n    - type: dotnet\n" ++
      "      project: api\n      port: 5000\n      workingDirectory: run\n"
    let t : FileTree :=
      { entries := [(["w"], .directory), (["w", "sub"], .directory),
          (["w", "sub", "devstack.yaml"], .file document.toUTF8 false)] }
    let c (directory : String) : Context :=
      { workDirectory := directory, home := ⟨"/home"⟩, proxyPort := 1347 }
    ∃ loaded topology e directory, Command.load t "/w/sub" ["devstack.yaml"] = .ok loaded ∧
      (loaded.graph.compile (c loaded.directory) [] t).1 = .ok topology ∧
      topology.manifests.supervisor.processes.get? "api" = some e ∧
      e.workingDirectory = some directory ∧ Path.isAbsolute directory = true := by
  intro document t c
  have hrun : ((Command.load t "/w/sub" ["devstack.yaml"]).toOption.bind fun loaded =>
      (loaded.graph.compile (c loaded.directory) [] t).1.toOption.bind fun topology =>
        (topology.manifests.supervisor.processes.get? "api").map (·.workingDirectory)) =
          some (some "/w/sub/run") := by
    decide +kernel
  obtain ⟨loaded, hload, hrun⟩ := Option.bind_eq_some_iff.1 hrun
  obtain ⟨topology, hcompile, hrun⟩ := Option.bind_eq_some_iff.1 hrun
  obtain ⟨e, he, -⟩ := Option.map_eq_some_iff.1 hrun
  have hload := eq_ok_of_toOption hload
  have hcompile := eq_ok_of_toOption hcompile
  obtain ⟨s, r, p, -, -, hstarts, hpaths⟩ :=
    isAbsolute_paths_of_load (by decide) hload rfl hcompile he
  exact ⟨loaded, topology, e, _, hload, hcompile, he, hstarts.directory,
    (hpaths r.directory (List.mem_append_right _ (List.mem_singleton_self _))).2
      (.inl (by simp [Command.IsAnchored]; decide))⟩

/-- From the directory around it, the same file is given by a relative path, and what it declares
is found only from there. -/
theorem exists_process_not_isAbsolute :
    let document := "name: shop\nservices:\n  api:\n    runners:\n    - type: dotnet\n" ++
      "      project: api\n      port: 5000\n      workingDirectory: run\n"
    let t : FileTree :=
      { entries := [(["w"], .directory), (["w", "sub"], .directory),
          (["w", "sub", "devstack.yaml"], .file document.toUTF8 false)] }
    let c (directory : String) : Context :=
      { workDirectory := directory, home := ⟨"/home"⟩, proxyPort := 1347 }
    ∃ loaded topology e, Path.isAbsolute "/w" = true ∧
      Command.load t "/w" ["sub/devstack.yaml"] = .ok loaded ∧
      (loaded.graph.compile (c loaded.directory) [] t).1 = .ok topology ∧
      topology.manifests.supervisor.processes.get? "api" = some e ∧
      e.workingDirectory = some "sub/run" ∧ Path.isAbsolute "sub/run" = false := by
  intro document t c
  have hrun : ((Command.load t "/w" ["sub/devstack.yaml"]).toOption.bind fun loaded =>
      (loaded.graph.compile (c loaded.directory) [] t).1.toOption.bind fun topology =>
        (topology.manifests.supervisor.processes.get? "api").map (·.workingDirectory)) =
          some (some "sub/run") := by
    decide +kernel
  obtain ⟨loaded, hload, hrun⟩ := Option.bind_eq_some_iff.1 hrun
  obtain ⟨topology, hcompile, hrun⟩ := Option.bind_eq_some_iff.1 hrun
  obtain ⟨e, he, hdirectory⟩ := Option.map_eq_some_iff.1 hrun
  exact ⟨loaded, topology, e, by decide, eq_ok_of_toOption hload, eq_ok_of_toOption hcompile, he,
    hdirectory, by decide⟩

end LocalTopology
