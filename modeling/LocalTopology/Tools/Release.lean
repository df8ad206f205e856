import LocalTopology.Error
import LocalTopology.Paths.Home

/-!
# Tools and their releases

A run drives three tools of other makers, each pinned to one version: the container engine's compose
driver, the process supervisor and the mock server. A release of a tool is built for a platform, and
comes as the binary itself or as a member of an archive.
-/

namespace LocalTopology

/-- An operating system for which releases exist. -/
inductive OperatingSystem
  | linux
  | macOs
  deriving DecidableEq, Inhabited

/-- A machine for which releases exist. -/
inductive Machine
  | x86
  | arm
  deriving DecidableEq, Inhabited

/-- What a release is built for. -/
structure Platform where
  system : OperatingSystem
  machine : Machine
  deriving DecidableEq, Inhabited

namespace Platform

/-- The operating system of a name. -/
def system? : String → Option OperatingSystem
  | "linux" => some .linux
  | "macos" => some .macOs
  | _ => none

/-- The machine of a name. -/
def machine? : String → Option Machine
  | "x86_64" => some .x86
  | "aarch64" => some .arm
  | _ => none

/-- The platform of two names. -/
def ofNames (system machine : String) : Except Error Platform :=
  match system? system, machine? machine with
  | some s, some m => .ok ⟨s, m⟩
  | _, _ => .error (.acquisition "toolchain" (.noPrebuilt system machine))

end Platform

/-- How a release is packed. -/
inductive Packing
  /-- The download is the binary. -/
  | bare
  /-- The download is a compressed archive that holds the binary as a member. -/
  | archive (member : String)
  deriving DecidableEq, Inhabited

/-- A build of one version of a tool that can be downloaded. -/
structure Release where
  tool : String
  version : String
  url : String
  packing : Packing
  deriving DecidableEq, Inhabited

/-- A tool of another maker. -/
inductive Tool
  | compose
  | supervisor
  | mockServer
  deriving DecidableEq, Inhabited

namespace Tool

/-- The name of the tool, which is that of its binary as well. -/
def name : Tool → String
  | compose => "docker-compose"
  | supervisor => "process-compose"
  | mockServer => "prism"

/-- The version to which the tool is pinned. -/
def version : Tool → String
  | compose => "2.29.7"
  | supervisor => "1.34.0"
  | mockServer => "5.12.0"

/-- Where the binary is installed. -/
def binaryPath (t : Tool) (h : Home) : String :=
  Path.join (h.toolDirectory t.name t.version) t.name

/-- The URL of the release for a platform. -/
def releaseUrl (t : Tool) (p : Platform) : String :=
  match t with
  | compose =>
    let system := match p.system with
      | .linux => "linux"
      | .macOs => "darwin"
    let machine := match p.machine with
      | .x86 => "x86_64"
      | .arm => "aarch64"
    s!"https://github.com/docker/compose/releases/download/v{t.version}/" ++
      s!"docker-compose-{system}-{machine}"
  | supervisor =>
    let system := match p.system with
      | .linux => "linux"
      | .macOs => "darwin"
    let machine := match p.machine with
      | .x86 => "amd64"
      | .arm => "arm64"
    s!"https://github.com/F1bonacc1/process-compose/releases/download/v{t.version}/" ++
      s!"process-compose_{system}_{machine}.tar.gz"
  | mockServer =>
    let system := match p.system with
      | .linux => "linux"
      | .macOs => "macos"
    s!"https://github.com/stoplightio/prism/releases/download/v{t.version}/prism-cli-{system}"

/-- The release for a platform. -/
def release (t : Tool) (p : Platform) : Release where
  tool := t.name
  version := t.version
  url := t.releaseUrl p
  packing := match t with
    | supervisor => .archive "process-compose"
    | _ => .bare

end Tool

end LocalTopology
