import LocalTopology.Manifest.Compose
import LocalTopology.Manifest.Supervisor
import LocalTopology.Paths.Home
import LocalTopology.System.FileTree
import LocalTopology.Tools.Release
import LocalTopology.Yaml.Printer

/-!
# Writing manifests

A manifest is staged next to its destination and then put in its place in one move. Both manifests
of a run are staged before either is moved. A written manifest is proof that the file was written in
this run; a tool whose manifest has no entries gets none and is not started.
-/

namespace LocalTopology

/-- An action on the files, which leaves them as it got them to be when it fails. -/
abbrev FileAction (α : Type) := ExceptT SystemFault (StateM FileTree) α

namespace FileAction

/-- Does one thing to the files, or nothing if it fails. -/
def perform (act : FileTree → Except SystemFault FileTree) : FileAction Unit := fun t =>
  match act t with
  | .ok t => (.ok (), t)
  | .error fault => (.error fault, t)

/-- Does one thing to the files, and goes on if it fails. -/
def attempt (act : FileTree → Except SystemFault FileTree) : FileAction Unit := fun t =>
  match act t with
  | .ok t => (.ok (), t)
  | .error _ => (.ok (), t)

end FileAction

/-- Both manifests and their texts. -/
structure Manifests where
  compose : ComposeManifest
  supervisor : SupervisorManifest
  composeText : String
  supervisorText : String
  deriving DecidableEq, Inhabited

/-- Puts both manifests into words before anything is written. -/
def Manifests.render (compose : ComposeManifest) (supervisor : SupervisorManifest) :
    Manifests where
  compose := compose
  supervisor := supervisor
  composeText := (Document.composeNode compose).render
  supervisorText := (Document.supervisorNode supervisor).render

/-- Proof that the manifest of a tool was written in this run. -/
structure WrittenManifest where
  tool : String
  path : String
  deriving DecidableEq, Inhabited

/-- A manifest next to its destination. -/
structure StagedManifest where
  tool : String
  path : String
  staging : String
  deriving DecidableEq, Inhabited

/-- The manifests that were written in a run. -/
structure WrittenManifests where
  compose : Option WrittenManifest := none
  supervisor : Option WrittenManifest := none
  deriving DecidableEq, Inhabited

/-- Where a manifest is staged. -/
def stagingPath (path : String) : String :=
  Path.withExtension path "yml.tmp"

namespace StagedManifest

/-- Writes a manifest next to its destination. -/
def stage (tool path contents : String) : FileAction StagedManifest := do
  match Path.parent? path with
  | some parent => FileAction.perform (·.makeDirectories parent)
  | none => pure ()
  let staging := stagingPath path
  fun t =>
    match t.write staging contents.toUTF8 with
    | .ok t => (.ok ⟨tool, path, staging⟩, t)
    | .error fault =>
      match t.remove staging with
      | .ok t => (.error fault, t)
      | .error _ => (.error fault, t)

/-- Puts a staged manifest in its place. -/
def commit (s : StagedManifest) : FileAction WrittenManifest := do
  FileAction.perform (·.rename s.staging s.path)
  return ⟨s.tool, s.path⟩

/-- Removes a staged manifest. -/
def discard (s : StagedManifest) : FileAction Unit :=
  FileAction.attempt (·.remove s.staging)

end StagedManifest

namespace WrittenManifest

/-- Writes a manifest in the place of what was there. -/
def write (tool path contents : String) : FileAction WrittenManifest := do
  (← StagedManifest.stage tool path contents).commit

/-- The path of the manifest, unless the file has vanished. -/
def check (w : WrittenManifest) (t : FileTree) : Except Error String :=
  if t.isFile w.path then .ok w.path else .error (.manifestMissing w.tool w.path)

end WrittenManifest

/-- Writes both manifests. -/
def Manifests.write (m : Manifests) (h : Home) : FileAction WrittenManifests := do
  let compose ← StagedManifest.stage Tool.compose.name h.composeManifest m.composeText
  let supervisor ← fun t =>
    match StagedManifest.stage Tool.supervisor.name h.supervisorManifest m.supervisorText t with
    | (.ok staged, t) => (.ok staged, t)
    | (.error fault, t) => (.error fault, (compose.discard t).2)
  let compose ← compose.commit
  let supervisor ← supervisor.commit
  return {
    compose := if m.compose.isEmpty then none else some compose
    supervisor := if m.supervisor.isEmpty then none else some supervisor }

end LocalTopology
