import LocalTopology.Dependency
import LocalTopology.Document.Environment

/-!
# Runners and dependencies in documents

A runner is a mapping whose `type` decides its fields, and a dependency one that has no others.
Options that are absent and lists without items are not written.
-/

namespace LocalTopology.Document

open Yaml

/-- The protocols by name. -/
def protocolNames : List String := ["http", "https"]

/-- The protocol of a name. -/
def protocolNamed : Rereader Protocol
  | .text "http" => .ok .http
  | .text "https" => .ok .https
  | .text s => fail (.unknownVariant s protocolNames)
  | .integer n =>
    if n = 0 then .ok .http
    else if n = 1 then .ok .https
    else if 0 ≤ n then fail (.refused (.value (.integer n)) "variant index 0 <= i < 2")
    else unfit (.integer n) "variant identifier"
  | v => unfit v "variant identifier"

/-- A protocol: its name, or a mapping from its name to nothing. -/
def protocol : Rereader Protocol
  | .text s => protocolNamed (.text s)
  | .mapping [(name, content)] => do
    let p ← protocolNamed name
    match content with
    | .null | .mapping [] => return p
    | v => unfit v "unit"
  | .mapping entries => fail (.refused (.value (.mapping entries)) "map with a single key")
  | v => unfit v "string or map"

/-- A container runner. -/
def containerRunner : Rereader ContainerRunner :=
  record "struct ContainerRunner"
    ["image", "containerPort", "hostPort", "protocol", "environment", "volumes", "command"]
    ["image", "containerPort"] { image := "", containerPort := 0 } fun r name v =>
      match name with
      | "image" => do return { r with image := ← text v }
      | "containerPort" => do return { r with containerPort := ← port v }
      | "hostPort" => do return { r with hostPort := ← option port v }
      | "protocol" => do return { r with protocol := ← protocol v }
      | "environment" => do return { r with environment := ← environment v }
      | "volumes" => do return { r with volumes := ← list text v }
      | _ => do return { r with command := ← list text v }

/-- A project runner. -/
def projectRunner : Rereader ProjectRunner :=
  record "struct DotnetRunner"
    ["project", "port", "protocol", "workingDirectory", "environment"]
    ["project"] { project := "" } fun r name v =>
      match name with
      | "project" => do return { r with project := ← text v }
      | "port" => do return { r with port := ← option port v }
      | "protocol" => do return { r with protocol := ← protocol v }
      | "workingDirectory" => do return { r with workingDirectory := ← option text v }
      | _ => do return { r with environment := ← environment v }

/-- An executable runner. -/
def executableRunner : Rereader ExecutableRunner :=
  record "struct ExecutableRunner"
    ["command", "arguments", "port", "protocol", "workingDirectory", "environment"]
    ["command"] { command := "" } fun r name v =>
      match name with
      | "command" => do return { r with command := ← text v }
      | "arguments" => do return { r with arguments := ← list text v }
      | "port" => do return { r with port := ← option port v }
      | "protocol" => do return { r with protocol := ← protocol v }
      | "workingDirectory" => do return { r with workingDirectory := ← option text v }
      | _ => do return { r with environment := ← environment v }

/-- A remote runner. -/
def remoteRunner : Rereader RemoteRunner :=
  record "struct RemoteRunner" ["environments"] [] {} fun r _ v => do
    return { r with environments := .ofList (← pairs text v) }

/-- A mock server runner. -/
def mockRunner : Rereader MockRunner :=
  record "struct MockServerRunner" ["specification", "port", "environment"]
    ["specification"] { specification := "" } fun r name v =>
      match name with
      | "specification" => do return { r with specification := ← text v }
      | "port" => do return { r with port := ← option port v }
      | _ => do return { r with environment := ← environment v }

/-- A runner of a kind. -/
def runnerOf (k : Kinded) : Result Runner :=
  match k.kind with
  | "docker" => .container <$> containerRunner k.content
  | "dotnet" => .project <$> projectRunner k.content
  | "executable" => .executable <$> executableRunner k.content
  | "remote" => .remote <$> remoteRunner k.content
  | _ => .mock <$> mockRunner k.content

/-- A runner. -/
def readRunner : Reader Runner := fun p n => do
  runnerOf (← readKinded "internally tagged enum Runner" Runner.kinds p n)

/-- A dependency. -/
def readDependency : Reader Dependency := fun p n => do
  let k ← readKinded "internally tagged enum Dependency" (Dependency.all.map (·.kind)) p n
  match k.content with
  | .sequence (_ :: vs) => fail (.wrongLength (vs.length + 1) "0 elements in sequence")
  | _ => return (Dependency.ofKind? k.kind).getD .mongo

/-- A field that is written unless it is absent. -/
def optional {α : Type} (name : String) (node : α → Node) (a : Option α) :
    List (String × Node) :=
  a.toList.map fun a => (name, node a)

/-- A field that is written unless it is empty. -/
def unlessEmpty (name : String) (isEmpty : Bool) (node : Node) : List (String × Node) :=
  if isEmpty then [] else [(name, node)]

/-- A list of texts that is written unless it is empty. -/
def textsField (name : String) (items : List String) : List (String × Node) :=
  unlessEmpty name items.isEmpty (.ofTexts items)

/-- An environment that is written unless it is empty. -/
def environmentField (env : Environment) : List (String × Node) :=
  unlessEmpty "environment" env.isEmpty (environmentNode env)

/-- A port as a node. -/
def portNode (p : Port) : Node := .ofPlain (toString p.toNat)

/-- A protocol as a field. -/
def protocolField (p : Protocol) : List (String × Node) :=
  [("protocol", .ofText p.scheme)]

/-- The fields of a runner, its type aside. -/
def runnerFields : Runner → List (String × Node)
  | .container r =>
    [("image", .ofText r.image), ("containerPort", portNode r.containerPort)] ++
      optional "hostPort" portNode r.hostPort ++ protocolField r.protocol ++
      environmentField r.environment ++ textsField "volumes" r.volumes ++
      textsField "command" r.command
  | .project r =>
    [("project", .ofText r.project)] ++ optional "port" portNode r.port ++
      protocolField r.protocol ++ optional "workingDirectory" .ofText r.workingDirectory ++
      environmentField r.environment
  | .executable r =>
    [("command", .ofText r.command)] ++ textsField "arguments" r.arguments ++
      optional "port" portNode r.port ++ protocolField r.protocol ++
      optional "workingDirectory" .ofText r.workingDirectory ++ environmentField r.environment
  | .remote r => [("environments", .ofPairs r.environments.entries)]
  | .mock r =>
    [("specification", .ofText r.specification)] ++ optional "port" portNode r.port ++
      environmentField r.environment

/-- A runner as a node. -/
def runnerNode (r : Runner) : Node :=
  .ofEntries (("type", .ofText r.kind) :: runnerFields r)

/-- A dependency as a node. -/
def dependencyNode (d : Dependency) : Node :=
  .ofEntries [("type", .ofText d.kind)]

end LocalTopology.Document
