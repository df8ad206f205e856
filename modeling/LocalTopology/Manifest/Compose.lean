import LocalTopology.Document.Fragment

/-!
# The manifest of containers

One entry for each service that runs in a container, and the named volumes that they mount. A port
is published on the loopback interface only. Lists without items and options that are absent are not
written and read back as such.
-/

namespace LocalTopology

/-- The check that the container engine runs. -/
structure ContainerCheck where
  test : List String
  interval : String
  timeout : String
  retries : UInt32
  startPeriod : String
  deriving DecidableEq, Inhabited

/-- A command that is run every five seconds. -/
def ContainerCheck.ofTest (test : List String) : ContainerCheck :=
  { test, interval := "5s", timeout := "10s", retries := 30, startPeriod := "10s" }

/-- A service that runs in a container. -/
structure ComposeService where
  image : String
  ports : List String := []
  environment : Registry String := ∅
  volumes : List String := []
  command : List String := []
  extraHosts : List String := []
  healthcheck : Option ContainerCheck := none
  deriving DecidableEq, Inhabited

namespace ComposeService

/-- The service of an image, from which services on the workstation are reached by name. -/
def ofImage (image : String) : ComposeService :=
  { image, extraHosts := ["host.docker.internal:host-gateway"] }

/-- Publishes a port of the container on the loopback interface. -/
def publish (s : ComposeService) (hostPort containerPort : Port) : ComposeService :=
  { s with ports := s.ports ++ [s!"127.0.0.1:{hostPort}:{containerPort}"] }

/-- Sets the variables of an environment. -/
def withEnvironment (s : ComposeService) (env : Environment) : ComposeService :=
  { s with environment := s.environment.putAll env.entries }

end ComposeService

/-- The services in containers and the names of their volumes. -/
structure ComposeManifest where
  name : String
  services : Registry ComposeService := ∅
  volumes : Registry Unit := ∅
  deriving DecidableEq, Inhabited

namespace ComposeManifest

/-- The name under which every run is known to the container engine. -/
def project : String := "devstack"

/-- The manifest without entries. -/
def empty : ComposeManifest := { name := project }

/-- Adds an entry, or puts it in the place of the one of its name. -/
def addService (m : ComposeManifest) (name : String) (s : ComposeService) : ComposeManifest :=
  { m with services := m.services.put name s }

/-- Adds a named volume. -/
def addVolume (m : ComposeManifest) (name : String) : ComposeManifest :=
  { m with volumes := m.volumes.putNew name () }

/-- Whether there is no service. -/
def isEmpty (m : ComposeManifest) : Bool :=
  m.services.isEmpty

end ComposeManifest

namespace Document

open Yaml

/-- A container check as a node. -/
def containerCheckNode (c : ContainerCheck) : Node :=
  .ofEntries
    [("test", .ofTexts c.test), ("interval", .ofText c.interval), ("timeout", .ofText c.timeout),
      ("retries", .ofPlain (toString c.retries.toNat)), ("start_period", .ofText c.startPeriod)]

/-- A service in a container as a node. -/
def composeServiceNode (s : ComposeService) : Node :=
  .ofEntries <|
    [("image", .ofText s.image)] ++ textsField "ports" s.ports ++
      unlessEmpty "environment" s.environment.isEmpty (.ofPairs s.environment.entries) ++
      textsField "volumes" s.volumes ++ textsField "command" s.command ++
      textsField "extra_hosts" s.extraHosts ++
      optional "healthcheck" containerCheckNode s.healthcheck

/-- The manifest of containers as a node. -/
def composeNode (m : ComposeManifest) : Node :=
  .ofEntries <|
    [("name", .ofText m.name),
      ("services", .ofEntries (m.services.mapValues composeServiceNode).entries)] ++
      unlessEmpty "volumes" m.volumes.isEmpty
        (.ofEntries (m.volumes.mapValues fun _ => Node.mapping none []).entries)

/-- A container check. -/
def readContainerCheck : Reader ContainerCheck :=
  readRecord "struct ComposeHealthcheck"
    ["test", "interval", "timeout", "retries", "start_period"]
    ["test", "interval", "timeout", "retries", "start_period"]
    { test := [], interval := "", timeout := "", retries := 0, startPeriod := "" }
    fun c name p n =>
      match name with
      | "test" => do return { c with test := ← readList readString p n }
      | "interval" => do return { c with interval := ← readString p n }
      | "timeout" => do return { c with timeout := ← readString p n }
      | "retries" => do
        return { c with retries := .ofNat (← readNat (Nat.pow 2 32 - 1) "u32" p n) }
      | _ => do return { c with startPeriod := ← readString p n }

/-- A service in a container. -/
def readComposeService : Reader ComposeService :=
  readRecord "struct ComposeService"
    ["image", "ports", "environment", "volumes", "command", "extra_hosts", "healthcheck"]
    ["image"] { image := "" } fun s name p n =>
      match name with
      | "image" => do return { s with image := ← readString p n }
      | "ports" => do return { s with ports := ← readList readString p n }
      | "environment" => do
        return { s with environment := .ofList (← readMapping readString p n) }
      | "volumes" => do return { s with volumes := ← readList readString p n }
      | "command" => do return { s with command := ← readList readString p n }
      | "extra_hosts" => do return { s with extraHosts := ← readList readString p n }
      | _ => do return { s with healthcheck := ← readOption readContainerCheck p n }

/-- A named volume, which has no fields. -/
def readVolume : Reader Unit :=
  readRecord "struct ComposeVolume" [] [] () fun _ _ _ _ => .ok ()

/-- The manifest of containers. -/
def readCompose : Reader ComposeManifest :=
  readRecord "struct ComposeManifest" ["name", "services", "volumes"] ["name"]
    { name := "" } fun m name p n =>
      match name with
      | "name" => do return { m with name := ← readString p n }
      | "services" => do
        return { m with services := .ofList (← readMapping readComposeService p n) }
      | _ => do return { m with volumes := .ofList (← readMapping readVolume p n) }

end Document

end LocalTopology
