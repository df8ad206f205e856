import LocalTopology.Build.Compile
import LocalTopology.Build.State
import LocalTopology.Build.Step
import LocalTopology.Build.Topology
import LocalTopology.Command.Options
import LocalTopology.Command.Report
import LocalTopology.Config
import LocalTopology.Decimal.Binary64
import LocalTopology.Decimal.Shortest
import LocalTopology.Dependency
import LocalTopology.Document.Buffer
import LocalTopology.Document.Environment
import LocalTopology.Document.Fragment
import LocalTopology.Document.Runner
import LocalTopology.Duration
import LocalTopology.Environment
import LocalTopology.Error
import LocalTopology.Hostname
import LocalTopology.Ingress.Headers
import LocalTopology.Ingress.Proxy
import LocalTopology.Json.Read
import LocalTopology.Log
import LocalTopology.Main
import LocalTopology.Manifest.Compose
import LocalTopology.Manifest.Store
import LocalTopology.Manifest.Supervisor
import LocalTopology.Map.Ordered
import LocalTopology.Map.Sorted
import LocalTopology.Merge
import LocalTopology.Network.Dispatch
import LocalTopology.Network.Endpoint
import LocalTopology.Network.HostTable
import LocalTopology.Network.Ledger
import LocalTopology.Paths.Home
import LocalTopology.Paths.Path
import LocalTopology.Process.Program
import LocalTopology.Process.Pump
import LocalTopology.Process.Readable
import LocalTopology.Process.Replay
import LocalTopology.Process.Run
import LocalTopology.Process.Shared
import LocalTopology.Proofs.Absorbing
import LocalTopology.Proofs.Addresses
import LocalTopology.Proofs.Anchoring
import LocalTopology.Proofs.Bucketing
import LocalTopology.Proofs.Building
import LocalTopology.Proofs.Clashing
import LocalTopology.Proofs.Compiling
import LocalTopology.Proofs.Documents
import LocalTopology.Proofs.Durations
import LocalTopology.Proofs.Files
import LocalTopology.Proofs.Filtering
import LocalTopology.Proofs.Headers
import LocalTopology.Proofs.Hosts
import LocalTopology.Proofs.Ignoring
import LocalTopology.Proofs.Installing
import LocalTopology.Proofs.Loops
import LocalTopology.Proofs.Manifests
import LocalTopology.Proofs.Maps
import LocalTopology.Proofs.Merging
import LocalTopology.Proofs.Overlaying
import LocalTopology.Proofs.Paths
import LocalTopology.Proofs.Pausing
import LocalTopology.Proofs.Ports
import LocalTopology.Proofs.Probing
import LocalTopology.Proofs.Proxying
import LocalTopology.Proofs.Pumping
import LocalTopology.Proofs.Quoting
import LocalTopology.Proofs.Recompiling
import LocalTopology.Proofs.Records
import LocalTopology.Proofs.Regrouping
import LocalTopology.Proofs.Rehearsing
import LocalTopology.Proofs.Remerging
import LocalTopology.Proofs.Reordering
import LocalTopology.Proofs.Replaying
import LocalTopology.Proofs.Reserving
import LocalTopology.Proofs.Resolving
import LocalTopology.Proofs.Respelling
import LocalTopology.Proofs.Routing
import LocalTopology.Proofs.Searching
import LocalTopology.Proofs.Sharing
import LocalTopology.Proofs.Spellings
import LocalTopology.Proofs.Storing
import LocalTopology.Proofs.Text
import LocalTopology.Proofs.Traces
import LocalTopology.Proofs.Validity
import LocalTopology.Proofs.Variables
import LocalTopology.Proofs.Waiting
import LocalTopology.Readiness.Backoff
import LocalTopology.Readiness.Gate
import LocalTopology.Readiness.HealthCheck
import LocalTopology.Readiness.Poll
import LocalTopology.Runner.Basic
import LocalTopology.Runner.Mode
import LocalTopology.Service
import LocalTopology.Session.Basic
import LocalTopology.Session.Tasks
import LocalTopology.Shell.Arithmetic
import LocalTopology.Shell.Filter
import LocalTopology.Shell.Interpreter
import LocalTopology.Shell.Pattern
import LocalTopology.Shell.Program
import LocalTopology.Shell.Quoting
import LocalTopology.Shell.Script
import LocalTopology.System.Fault
import LocalTopology.System.FileTree
import LocalTopology.Text.Ascii
import LocalTopology.Text.Blank
import LocalTopology.Text.Cut
import LocalTopology.Text.Escaped
import LocalTopology.Text.Lossy
import LocalTopology.Text.Pattern
import LocalTopology.Text.Visible
import LocalTopology.Tools.Install
import LocalTopology.Tools.Release
import LocalTopology.Url.Address
import LocalTopology.Url.Basic
import LocalTopology.Url.Host
import LocalTopology.Url.Target
import LocalTopology.Yaml.Cursor
import LocalTopology.Yaml.Fault
import LocalTopology.Yaml.Node
import LocalTopology.Yaml.Plain
import LocalTopology.Yaml.Printer
import LocalTopology.Yaml.Read
import LocalTopology.Yaml.Scalar
import LocalTopology.Yaml.Token
import LocalTopology.Yaml.Tree
import LocalTopology.Yaml.Value
