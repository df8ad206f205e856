import LocalTopology.Build.State

/-!
# Compiling a service

The active runner of a service is compiled into an entry of one of the manifests and an endpoint.
Its port is the declared one, or one that the system offers, and appears wherever the service does.
-/

namespace LocalTopology

/-- The runner of a service that is active in a mode. On the workstation that is the first one that
is not remote. In a named environment a remote runner is preferred, even if it does not map the
environment. -/
def activeRunner (mode : Mode) (name : String) (s : Service) : Except Error Runner :=
  match mode with
  | .onWorkstation =>
    match s.runners.find? (!·.isRemote) with
    | some r => .ok r
    | none => .error (.unresolved (.remoteOnly name mode))
  | .remote _ =>
    match s.runners.find? (·.isRemote) <|> s.runners.head? with
    | some r => .ok r
    | none => .error (.config (.nothingToSelect name))

namespace RemoteRunner

/-- The URL of the deployed instance in a mode. -/
def address (r : RemoteRunner) (mode : Mode) (service : String) : Except Error String :=
  match mode with
  | .onWorkstation => .error (.unresolved (.remoteOnly service mode))
  | .remote environment =>
    match r.environments.get? environment with
    | some url => .ok (Text.trimEndSlashes url)
    | none => .error (.unresolved (.unmapped service environment))

end RemoteRunner

/-- The named volume that a mount declares; a mount of a path declares none. -/
def namedVolume? (mount : String) : Option String :=
  match Text.cutFirst? ':' mount.toList with
  | some (source, _) =>
    if source.isEmpty || source.head?.any (fun c => c == '.' || c == '~') || source.contains '/'
    then none
    else some (String.ofList source)
  | none => none

/-- Gives a port to a service. -/
def BuildState.obtainPort (st : BuildState) (name : String) (declared : Option Port) :
    Except Error (Port × BuildState) :=
  match st.ports.obtain name declared with
  | .ok (p, ports) => .ok (p, { st with ports })
  | .error fault => .error (.port fault)

namespace ContainerRunner

/-- The manifest entry of a container that is published on a port. -/
def entry (r : ContainerRunner) (origin : Origin) (port : Port) : ComposeService :=
  let s := ((ComposeService.ofImage r.image).publish port r.containerPort).withEnvironment
    r.environment
  { s with
    command := r.command
    volumes := r.volumes
    healthcheck := match origin with
      | .declared => none
      | .dependency d =>
        if d.blueprint.healthcheck.isEmpty then none
        else some (.ofTest d.blueprint.healthcheck) }

/-- The endpoint of a container that is published on a port. -/
def endpoint (r : ContainerRunner) (origin : Origin) (port : Port) : Endpoint :=
  match origin with
  | .declared => .ofBackend ⟨r.protocol, port⟩
  | .dependency d => .onWorkstation ⟨r.protocol, port⟩ d.blueprint.scheme

/-- Adds the container and its named volumes to the manifest. -/
def compile (r : ContainerRunner) (name : String) (origin : Origin) (st : BuildState) :
    Except Error (Endpoint × BuildState) := do
  let (port, st) ← st.obtainPort name r.hostPort
  let compose := (r.volumes.filterMap namedVolume?).foldl ComposeManifest.addVolume st.compose
  let compose := compose.addService name (r.entry origin port)
  return (r.endpoint origin port, { st with compose })

end ContainerRunner

/-- What the supervisor starts for a service. -/
structure Launch where
  program : String
  arguments : List String
  port : Option Port
  protocol : Protocol
  workingDirectory : Option String
  environment : Environment

namespace Launch

/-- A project is built and run in place. -/
def ofProject (c : Context) (r : ProjectRunner) : Launch where
  program := "dotnet"
  arguments := ["run", "--project", c.resolve r.project, "--no-launch-profile"]
  port := r.port
  protocol := r.protocol
  workingDirectory := r.workingDirectory
  environment := r.environment

/-- A command with a slash in it is a path, and any other is looked up by its name. -/
def ofExecutable (c : Context) (r : ExecutableRunner) : Launch where
  program := if r.command.toList.contains '/' then c.resolve r.command else r.command
  arguments := r.arguments
  port := r.port
  protocol := r.protocol
  workingDirectory := r.workingDirectory
  environment := r.environment

/-- The manifest entry of a process that is told its port, unless its environment tells it. -/
def entry (l : Launch) (c : Context) (b : Backend) : SupervisedProcess :=
  let environment := (l.environment.putNew "PORT" (toString b.port)).putNew "ASPNETCORE_URLS"
    b.baseUrl
  let directory := match l.workingDirectory with
    | some path => c.resolve path
    | none => c.workDirectory
  { SupervisedProcess.ofArguments l.program l.arguments with
    workingDirectory := some directory }.withEnvironment environment

/-- Adds the process to the manifest. -/
def compile (l : Launch) (c : Context) (name : String) (st : BuildState) :
    Except Error (Endpoint × BuildState) := do
  let (port, st) ← st.obtainPort name l.port
  let backend : Backend := ⟨l.protocol, port⟩
  let supervisor := st.supervisor.addProcess name (l.entry c backend)
  return (.ofBackend backend, { st with supervisor })

end Launch

namespace MockRunner

/-- The manifest entry of a mock server on a port. -/
def entry (r : MockRunner) (c : Context) (port : Port) : SupervisedProcess :=
  let arguments :=
    ["mock", c.resolve r.specification, "--port", toString port, "--host", "127.0.0.1"]
  { SupervisedProcess.ofArguments (Tool.mockServer.binaryPath c.home) arguments with
    workingDirectory := some c.workDirectory }.withEnvironment r.environment

/-- Adds the mock server to the manifest. -/
def compile (r : MockRunner) (c : Context) (name : String) (st : BuildState) :
    Except Error (Endpoint × BuildState) := do
  let (port, st) ← st.obtainPort name r.port
  let supervisor := st.supervisor.addProcess name (r.entry c port)
  return (.ofBackend ⟨.http, port⟩, { st with supervisor, requiresMockServer := true })

end MockRunner

/-- Compiles the active runner of a service. -/
def Runner.compile (c : Context) (name : String) (origin : Origin) (st : BuildState) :
    Runner → Except Error (Endpoint × BuildState)
  | .container r => r.compile name origin st
  | .project r => (Launch.ofProject c r).compile c name st
  | .executable r => (Launch.ofExecutable c r).compile c name st
  | .mock r => r.compile c name st
  | .remote r => do return (.remote (← r.address c.mode name), st)

end LocalTopology
