import LocalTopology.Command.Options
import LocalTopology.Config
import LocalTopology.Session.Basic

/-!
# What commands report

A validation reports what a configuration declares. A run reports the addresses of a topology: those
that it has when it is only shown, or those under which it is ready.
-/

namespace LocalTopology.Command

/-- A line of a report. -/
inductive ReportLine
  | status (text : String)
  | success (text : String)
  | warning (text : String)
  | error (text : String)
  | blank
  deriving DecidableEq, Inhabited

/-- What a command says, the error at which it ended if it did, and the files it leaves. -/
structure Report where
  lines : List ReportLine := []
  failure : Option Error := none
  files : FileTree

/-- A graph, the directory from which its relative paths are taken, and the files that it was read
from. -/
structure Loaded where
  graph : Graph
  directory : String
  files : List String

/-- The directory of a configuration file. -/
def configDirectory (current path : String) : String :=
  match Path.parent? path with
  | some parent => if parent.isEmpty then current else parent
  | none => current

/-- Loads the given files, or the one that is found from the current directory. -/
def load (t : FileTree) (current : String) (files : List String) : Except ConfigFault Loaded := do
  let files ← if files.isEmpty then (findConfig t current current).map ([·]) else .ok files
  return {
    graph := ← Graph.load t current files
    directory := configDirectory current (files.headD "")
    files := files }

/-- A service of a graph: its name, the kinds of its runners and its ingress. -/
def serviceLine (name : String) (s : Service) : ReportLine :=
  let kinds := ", ".intercalate (s.runners.map (·.kind))
  let ingress := (s.ingress.map fun i => s!" @ {i.host}{i.path}").getD ""
  .status (s!"  - {name} ({kinds})" ++ ingress)

/-- What a graph declares. -/
def summary (g : Graph) : List ReportLine :=
  [.status s!"Topology: {g.name}", .status s!"Services: {g.services.size}"] ++
    g.services.entries.map (fun (name, s) => serviceLine name s) ++
    if g.dependencies.isEmpty then []
    else [.status ("Dependencies: " ++ ", ".intercalate (g.dependencies.map (·.kind)))]

/-- The address of a service, or why it has none. -/
def addressLine (b : AddressBook) (service : String) : ReportLine :=
  let name := String.ofList (service.toList.rightpad 20 ' ')
  match b.preferredUrl service with
  | .ok url => .status s!"  {name} {url}"
  | .error e => .warning s!"  {name} unavailable: {e.message}"

/-- The addresses of all services. -/
def addressLines (b : AddressBook) : List ReportLine :=
  b.services.map (addressLine b)

/-- A text with a heading, after a blank line. -/
def sectionLines (heading : String) (lines : List String) : List ReportLine :=
  .blank :: .status heading :: lines.map .status

/-- The text of a manifest without blanks at its end. -/
def manifestText (text : String) : String :=
  String.ofList (Text.trimEnd text.toList)

/-- Where a route leads. -/
def routeText (r : Route) : String :=
  s!"  {r.host}{r.path} -> {r.backend.baseUrl} ({r.service})"

/-- What a run would start. -/
def description (t : Topology) : List ReportLine :=
  [.status s!"Topology '{t.name}' ({t.mode.text})"] ++ [.blank, .status "Addresses:"] ++
    addressLines t.addresses ++
    (if t.routes.isEmpty then [] else sectionLines "Routes:" (t.routes.listed.map routeText)) ++
    (if t.manifests.compose.isEmpty then []
      else sectionLines "docker-compose.yml:" [manifestText t.manifests.composeText]) ++
    if t.manifests.supervisor.isEmpty then []
      else sectionLines "process-compose.yml:" [manifestText t.manifests.supervisorText]

/-- What is said once a session has started. -/
def readyLines (s : Session) : List ReportLine :=
  [.blank, .success "Topology is ready"] ++ addressLines s.addresses ++
    [.blank, .status "Press Ctrl+C to stop"]

/-- Validates a configuration by compiling it for the workstation. -/
def validate (w : Surroundings) (h : Home) (files : List String) : Report :=
  match load w.files w.directory files with
  | .error fault =>
    ⟨[.error "Configuration failed to load"], some (.config fault), w.files⟩
  | .ok loaded =>
    let named := loaded.files.map fun file => ReportLine.status s!"Validating {file}..."
    let context : Context :=
      { workDirectory := loaded.directory, home := h, proxyPort := standardProxyPort }
    match (loaded.graph.compile context w.offers w.files).1 with
    | .error e => ⟨named, some e, w.files⟩
    | .ok topology =>
      let failures := topology.addresses.failures.map fun (service, failure) =>
        ReportLine.warning s!"  ! {service}: {failure.message}"
      { lines := named ++ [.success "Configuration is valid", .blank] ++ summary loaded.graph ++
          failures
        files := w.files }

/-- What a run is to start. -/
def RunOptions.plan (o : RunOptions) (h : Home) (loaded : Loaded) : SessionPlan where
  graph := loaded.graph
  context :=
    { mode := (o.remoteEnvironment.map Mode.remote).getD .onWorkstation
      workDirectory := loaded.directory
      home := h
      proxyPort := o.proxyPort }
  policy := if o.probesAll then .probe else .assumeReady
  timeout := o.timeout

/-- Shows what a run would start. -/
def preview (w : Surroundings) (p : SessionPlan) : Report :=
  match (p.graph.compile p.context w.offers w.files).1 with
  | .error e => { failure := some e, files := w.files }
  | .ok topology => { lines := description topology, files := w.files }

/-- Starts a session and waits for its end. -/
def launch (w : Surroundings) (p : SessionPlan) : Report :=
  let announced := [ReportLine.status s!"Starting '{p.graph.name}' ({p.context.mode.text})..."]
  match p.start w with
  | ⟨.error e, t⟩ => ⟨announced, some e, t⟩
  | ⟨.ok session, t⟩ =>
    let lines := announced ++ readyLines session
    let outcome := session.wait p.context.home w t
    match outcome.result with
    | some (.ok _) => ⟨lines ++ [.status "Stopped"], none, outcome.files⟩
    | some (.error e) => ⟨lines, some e, outcome.files⟩
    | none => ⟨lines, none, outcome.files⟩

/-- Runs a topology, or shows what a run would start. -/
def run (w : Surroundings) (h : Home) (o : RunOptions) : Report :=
  match load w.files w.directory o.files with
  | .error fault => { failure := some (.config fault), files := w.files }
  | .ok loaded =>
    if o.isDryRun then preview w (o.plan h loaded) else launch w (o.plan h loaded)

/-- Does what is asked. -/
def Request.perform (w : Surroundings) (h : Home) : Request → Report
  | .run options => Command.run w h options
  | .validate files => Command.validate w h files

end LocalTopology.Command
