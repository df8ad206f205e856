import LocalTopology.System.FileTree
import LocalTopology.Tools.Release

/-!
# Installing tools

A release is downloaded next to its destination and moved there once it is whole and executable.
When fetching fails, what was downloaded is removed.
-/

namespace LocalTopology

/-- An entry of an archive. -/
structure ArchiveEntry where
  path : String
  isRegular : Bool
  content : List UInt8
  deriving DecidableEq, Inhabited

/-- What a server sends: bytes in pieces, which may break off, and what they hold as an archive. -/
structure Payload where
  pieces : List (List UInt8) := []
  isWhole : Bool := true
  entries : List ArchiveEntry := []
  /-- What keeps anything behind the entries from being read. -/
  damage : Option String := none
  deriving DecidableEq, Inhabited

/-- What comes of asking for a release. -/
inductive Download
  | unreachable
  | answered (status : Nat) (phrase : String) (payload : Payload)
  deriving DecidableEq, Inhabited

/-- An action on the files that can fail to acquire a tool. -/
abbrev InstallAction (α : Type) := ExceptT AcquisitionFault (StateM FileTree) α

/-- Does one thing to the files, or nothing if it fails. -/
def InstallAction.perform (fault : SystemFault → AcquisitionFault)
    (act : FileTree → Except SystemFault FileTree) : InstallAction Unit := fun t =>
  match act t with
  | .ok t => (.ok (), t)
  | .error f => (.error (fault f), t)

/-- Where a release is kept while it is downloaded. -/
def partialPath (destination : String) : String :=
  Path.withFileName destination ((Path.fileName? destination).getD "" ++ ".download")

/-- Whether an entry is a file of a certain name. -/
def ArchiveEntry.isMember (e : ArchiveEntry) (member : String) : Bool :=
  e.isRegular && Path.fileName? e.path == some member

/-- The first entry that is a file of a certain name. -/
def Payload.member (p : Payload) (member : String) : Except AcquisitionFault (List UInt8) :=
  match p.entries.find? (·.isMember member), p.damage with
  | some e, _ => .ok e.content
  | none, some text => .error (.noArchive text)
  | none, none => .error (.noMember member)

namespace Release

/-- The payload of a download, unless the server refuses it. -/
def accept (r : Release) : Download → Except AcquisitionFault Payload
  | .unreachable => .error (.unreachable r.url)
  | .answered status phrase payload =>
    if 400 ≤ status ∧ status < 600 then .error (.refusedByServer status phrase r.url)
    else .ok payload

/-- Writes the binary of a release to a file. -/
def unpack (r : Release) (payload : Payload) (path : String) : InstallAction Unit := do
  match r.packing with
  | .bare =>
    .perform .notWritten (·.write path ByteArray.empty)
    .perform .notWritten (·.write path ⟨payload.pieces.flatten.toArray⟩)
    if !payload.isWhole then throw .cutOff
  | .archive member =>
    if !payload.isWhole then throw .cutOff
    let content ← payload.member member
    .perform .notWritten (·.write path ⟨content.toArray⟩)

/-- Fetches the binary of a release into a file. -/
def fetch (r : Release) (d : Download) (path : String) : InstallAction Unit := do
  r.unpack (← r.accept d) path
  .perform .notWritten (·.makeExecutable path)

/-- Fetches the binary of a release, leaving no file behind if that fails. -/
def fetchOrRemove (r : Release) (d : Download) (path : String) : InstallAction Unit := fun t =>
  match r.fetch d path t with
  | (.ok _, t) => (.ok (), t)
  | (.error fault, t) => (.error fault, (t.remove path).toOption.getD t)

/-- Puts the binary of a release in its place. -/
def place (r : Release) (d : Download) (destination : String) : InstallAction Unit := do
  match Path.parent? destination with
  | none => throw .noPlace
  | some directory =>
    .perform (.noDirectory directory) (·.makeDirectories directory)
    let path := partialPath destination
    r.fetchOrRemove d path
    .perform .notMoved (·.rename path destination)

/-- Installs a release. -/
def install (r : Release) (d : Download) (destination : String) (t : FileTree) :
    Except Error Unit × FileTree :=
  match r.place d destination t with
  | (.ok _, t) => (.ok (), t)
  | (.error fault, t) => (.error (.acquisition s!"{r.tool} {r.version}" fault), t)

end Release

/-- Makes sure that the binary of a tool is there. -/
def Tool.ensure (tool : Tool) (h : Home) (platform : Except Error Platform)
    (download : Release → Download) (t : FileTree) : Except Error Unit × FileTree :=
  if t.isFile (tool.binaryPath h) then (.ok (), t)
  else
    match platform with
    | .error e => (.error e, t)
    | .ok p =>
      let r := tool.release p
      r.install (download r) (tool.binaryPath h) t

end LocalTopology
