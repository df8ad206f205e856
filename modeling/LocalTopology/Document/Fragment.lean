import LocalTopology.Document.Runner
import LocalTopology.Service

/-!
# Fragments and graphs in documents

A document that is read is a fragment of a graph. A graph is written as a document that reads as one
fragment, with the parts that every service of a graph has.
-/

namespace LocalTopology.Document

open Yaml

/-- Any scalar as it was written. -/
def readString : Reader String := readText "a string"

/-- The part of an ingress that a document declares. -/
def readIngress : Reader IngressFragment :=
  readRecord "struct IngressFragment" ["host", "path"] [] {} fun i name p n =>
    match name with
    | "host" => do return { i with host := ← readOption readString p n }
    | _ => do return { i with path := ← readOption readString p n }

/-- The part of a service that a document declares. -/
def readService : Reader ServiceFragment :=
  readRecord "struct ServiceFragment" ["ingress", "runners", "healthcheck"] [] {}
    fun s name p n =>
      match name with
      | "ingress" => do return { s with ingress := ← readOption readIngress p n }
      | "runners" => do return { s with runners := ← readList readRunner p n }
      | _ => do return { s with healthcheck := ← readOption readString p n }

/-- What a document declares. -/
def readFragment : Reader Fragment :=
  readRecord "struct ConfigFragment" ["name", "services", "dependencies"] [] {}
    fun f name p n =>
      match name with
      | "name" => do return { f with name := ← readOption readString p n }
      | "services" => do
        return { f with services := .ofList (← readMapping readService p n) }
      | _ => do return { f with dependencies := ← readList readDependency p n }

/-- An ingress as a node. -/
def ingressNode (i : Ingress) : Node :=
  .ofEntries [("host", .ofText i.host), ("path", .ofText i.path)]

/-- A service as a node. -/
def serviceNode (s : Service) : Node :=
  .ofEntries <|
    optional "ingress" ingressNode s.ingress ++
      [("runners", .sequence none (s.runners.map runnerNode))] ++
      optional "healthcheck" .ofText s.healthcheck

/-- The dependencies of a graph or a fragment as a field. -/
def dependenciesField (ds : List Dependency) : List (String × Node) :=
  unlessEmpty "dependencies" ds.isEmpty (.sequence none (ds.map dependencyNode))

/-- A graph as a node. -/
def graphNode (g : Graph) : Node :=
  .ofEntries <|
    [("name", .ofText g.name),
      ("services", .ofEntries (g.services.mapValues serviceNode).entries)] ++
      dependenciesField g.dependencies

/-- The part of an ingress that a document declares, as a node. -/
def ingressFragmentNode (i : IngressFragment) : Node :=
  .ofEntries (optional "host" .ofText i.host ++ optional "path" .ofText i.path)

/-- The part of a service that a document declares, as a node. -/
def serviceFragmentNode (s : ServiceFragment) : Node :=
  .ofEntries <|
    optional "ingress" ingressFragmentNode s.ingress ++
      unlessEmpty "runners" s.runners.isEmpty (.sequence none (s.runners.map runnerNode)) ++
      optional "healthcheck" .ofText s.healthcheck

/-- What a document declares, as a node. -/
def fragmentNode (f : Fragment) : Node :=
  .ofEntries <|
    optional "name" .ofText f.name ++
      [("services", .ofEntries (f.services.mapValues serviceFragmentNode).entries)] ++
      dependenciesField f.dependencies

end LocalTopology.Document
