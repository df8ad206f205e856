import LocalTopology.Environment
import LocalTopology.Map.Sorted

/-!
# Runners

A runner is one way of executing a service: a container, a project, an executable, a deployed
instance or a mock server. Two runners of one kind that run the same thing declare the same target,
and the later of them is absorbed by the earlier: what it sets wins.
-/

namespace LocalTopology

/-- A port number. -/
abbrev Port := UInt16

/-- The protocol that a locally running backend speaks. -/
inductive Protocol
  | http
  | https
  deriving DecidableEq, Inhabited

namespace Protocol

/-- The scheme of the protocol's URLs. -/
def scheme : Protocol → String
  | http => "http"
  | https => "https"

/-- An omitted protocol reads as `http`, so only `https` overrides. -/
def absorb (old incoming : Protocol) : Protocol :=
  if incoming = http then old else incoming

end Protocol

/-- A container started from an image. -/
structure ContainerRunner where
  image : String
  containerPort : Port
  hostPort : Option Port := none
  protocol : Protocol := .http
  environment : Environment := ∅
  volumes : List String := []
  command : List String := []
  deriving DecidableEq, Inhabited

/-- A project that is built and run in place. -/
structure ProjectRunner where
  project : String
  port : Option Port := none
  protocol : Protocol := .http
  workingDirectory : Option String := none
  environment : Environment := ∅
  deriving DecidableEq, Inhabited

/-- An executable that is invoked directly. -/
structure ExecutableRunner where
  command : String
  arguments : List String := []
  port : Option Port := none
  protocol : Protocol := .http
  workingDirectory : Option String := none
  environment : Environment := ∅
  deriving DecidableEq, Inhabited

/-- A deployed instance, with one URL for each named environment. -/
structure RemoteRunner where
  environments : SortedMap String := ∅
  deriving DecidableEq, Inhabited

/-- A mock server that answers as a specification says. -/
structure MockRunner where
  specification : String
  port : Option Port := none
  environment : Environment := ∅
  deriving DecidableEq, Inhabited

/-- One way of executing a service. -/
inductive Runner
  | container (runner : ContainerRunner)
  | project (runner : ProjectRunner)
  | executable (runner : ExecutableRunner)
  | remote (runner : RemoteRunner)
  | mock (runner : MockRunner)
  deriving DecidableEq, Inhabited

namespace Runner

/-- The word that declares the kind of a runner. -/
def kind : Runner → String
  | container _ => "docker"
  | project _ => "dotnet"
  | executable _ => "executable"
  | remote _ => "remote"
  | mock _ => "openapi"

/-- The words that declare the kinds of runners. -/
def kinds : List String :=
  ["docker", "dotnet", "executable", "remote", "openapi"]

/-- Whether the runner stands for a deployed instance. -/
def isRemote : Runner → Bool
  | remote _ => true
  | _ => false

/-- The host port fixed in the declaration. -/
def declaredPort : Runner → Option Port
  | container r => r.hostPort
  | project r => r.port
  | executable r => r.port
  | mock r => r.port
  | remote _ => none

/-- Whether two runners declare the same target: they are of one kind and run the same thing. A
service has at most one remote runner. -/
def sameTarget : Runner → Runner → Bool
  | container a, container b => a.image == b.image
  | project a, project b => a.project == b.project
  | executable a, executable b => a.command == b.command
  | remote _, remote _ => true
  | mock a, mock b => a.specification == b.specification
  | _, _ => false

end Runner

/-- A list replaces another only when it has items. -/
def absorbList {α : Type} (old incoming : List α) : List α :=
  if incoming.isEmpty then old else incoming

namespace ContainerRunner

/-- Sets what another declaration of the container sets. -/
def absorb (old incoming : ContainerRunner) : ContainerRunner where
  image := old.image
  containerPort := incoming.containerPort
  hostPort := incoming.hostPort <|> old.hostPort
  protocol := old.protocol.absorb incoming.protocol
  environment := old.environment.overlay incoming.environment
  volumes := absorbList old.volumes incoming.volumes
  command := absorbList old.command incoming.command

end ContainerRunner

namespace ProjectRunner

/-- Sets what another declaration of the project sets. -/
def absorb (old incoming : ProjectRunner) : ProjectRunner where
  project := old.project
  port := incoming.port <|> old.port
  protocol := old.protocol.absorb incoming.protocol
  workingDirectory := incoming.workingDirectory <|> old.workingDirectory
  environment := old.environment.overlay incoming.environment

end ProjectRunner

namespace ExecutableRunner

/-- Sets what another declaration of the executable sets. -/
def absorb (old incoming : ExecutableRunner) : ExecutableRunner where
  command := old.command
  arguments := absorbList old.arguments incoming.arguments
  port := incoming.port <|> old.port
  protocol := old.protocol.absorb incoming.protocol
  workingDirectory := incoming.workingDirectory <|> old.workingDirectory
  environment := old.environment.overlay incoming.environment

end ExecutableRunner

namespace RemoteRunner

/-- Maps what another declaration of the deployed instance maps. -/
def absorb (old incoming : RemoteRunner) : RemoteRunner where
  environments := old.environments.putAll incoming.environments.entries

end RemoteRunner

namespace MockRunner

/-- Sets what another declaration of the mock server sets. -/
def absorb (old incoming : MockRunner) : MockRunner where
  specification := old.specification
  port := incoming.port <|> old.port
  environment := old.environment.overlay incoming.environment

end MockRunner

namespace Runner

/-- Takes up another declaration of a runner of the same kind; one of another kind changes
nothing. -/
def absorb : Runner → Runner → Runner
  | container old, container incoming => container (old.absorb incoming)
  | project old, project incoming => project (old.absorb incoming)
  | executable old, executable incoming => executable (old.absorb incoming)
  | remote old, remote incoming => remote (old.absorb incoming)
  | mock old, mock incoming => mock (old.absorb incoming)
  | old, _ => old

end Runner

end LocalTopology
