import LocalTopology.Paths.Path

/-!
# The home directory

Generated manifests and installed tools live under one directory per user:
`generated/docker-compose.yml`, `generated/process-compose.yml` and
`tools/<tool>/<version>/<binary>`.
-/

namespace LocalTopology

/-- The directory under which everything is kept. -/
structure Home where
  directory : String
  deriving DecidableEq, Inhabited

namespace Home

/-- The directory that is given, or a hidden one in the user's own directory. -/
def ofSetting (setting userDirectory : String) : Home :=
  if setting.isEmpty then ⟨Path.join userDirectory ".devstack"⟩ else ⟨setting⟩

/-- Where manifests are generated. -/
def generated (h : Home) : String :=
  Path.join h.directory "generated"

/-- The manifest of the containers. -/
def composeManifest (h : Home) : String :=
  Path.join h.generated "docker-compose.yml"

/-- The manifest of the processes. -/
def supervisorManifest (h : Home) : String :=
  Path.join h.generated "process-compose.yml"

/-- Where a version of a tool is installed. -/
def toolDirectory (h : Home) (tool version : String) : String :=
  Path.join (Path.join (Path.join h.directory "tools") tool) version

end Home

end LocalTopology
