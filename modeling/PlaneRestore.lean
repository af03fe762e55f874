import PlaneRestore.Archive
import PlaneRestore.Boundary
import PlaneRestore.Cli.Argument
import PlaneRestore.Cli.Command
import PlaneRestore.Cli.Run
import PlaneRestore.ClientError
import PlaneRestore.Cluster.Address
import PlaneRestore.Cluster.Certificate
import PlaneRestore.Cluster.Client
import PlaneRestore.Cluster.Config
import PlaneRestore.Cluster.Connect
import PlaneRestore.Cluster.Discovery
import PlaneRestore.Cluster.Engine
import PlaneRestore.Cluster.Web
import PlaneRestore.Condition
import PlaneRestore.Decimal.Binary64
import PlaneRestore.Dialogue
import PlaneRestore.Export
import PlaneRestore.Gzip.Checksum
import PlaneRestore.Gzip.Huffman
import PlaneRestore.Gzip.Inflate
import PlaneRestore.Gzip.Stream
import PlaneRestore.Gzip.Writer
import PlaneRestore.Http
import PlaneRestore.Http.Wire
import PlaneRestore.Import.Apply
import PlaneRestore.Import.Group
import PlaneRestore.Import.Modify
import PlaneRestore.Import.Options
import PlaneRestore.Import.Preflight
import PlaneRestore.Import.Report
import PlaneRestore.Import.Run
import PlaneRestore.Import.Wait
import PlaneRestore.Import.Work
import PlaneRestore.ImportError
import PlaneRestore.Json.Basic
import PlaneRestore.Json.Printer
import PlaneRestore.Json.Reader
import PlaneRestore.Json.Skim
import PlaneRestore.Kind
import PlaneRestore.Main
import PlaneRestore.Mismatch
import PlaneRestore.Proofs.Cli.Import
import PlaneRestore.Proofs.Cluster.Address
import PlaneRestore.Proofs.Cluster.ApiVersion
import PlaneRestore.Proofs.Cluster.Cache
import PlaneRestore.Proofs.Cluster.Discover
import PlaneRestore.Proofs.Cluster.Engine
import PlaneRestore.Proofs.Cluster.Lookup
import PlaneRestore.Proofs.Cluster.Paging
import PlaneRestore.Proofs.Cluster.Preference
import PlaneRestore.Proofs.Cluster.Relay
import PlaneRestore.Proofs.Cluster.Requests
import PlaneRestore.Proofs.Cluster.VersionOrder
import PlaneRestore.Proofs.Gzip.Stored
import PlaneRestore.Proofs.Import.Account
import PlaneRestore.Proofs.Import.Archive
import PlaneRestore.Proofs.Import.Cancel
import PlaneRestore.Proofs.Import.Careful
import PlaneRestore.Proofs.Import.Complete
import PlaneRestore.Proofs.Import.Course
import PlaneRestore.Proofs.Import.Failure
import PlaneRestore.Proofs.Import.Finish
import PlaneRestore.Proofs.Import.Gate
import PlaneRestore.Proofs.Import.Group
import PlaneRestore.Proofs.Import.History
import PlaneRestore.Proofs.Import.Modification
import PlaneRestore.Proofs.Import.News
import PlaneRestore.Proofs.Import.OneGroup
import PlaneRestore.Proofs.Import.Order
import PlaneRestore.Proofs.Import.Outcome
import PlaneRestore.Proofs.Import.PausableKinds
import PlaneRestore.Proofs.Import.Pause
import PlaneRestore.Proofs.Import.Phases
import PlaneRestore.Proofs.Import.Preflight
import PlaneRestore.Proofs.Import.Result
import PlaneRestore.Proofs.Import.Resume
import PlaneRestore.Proofs.Import.Schedule
import PlaneRestore.Proofs.Import.Stages
import PlaneRestore.Proofs.Import.Success
import PlaneRestore.Proofs.Import.Terms
import PlaneRestore.Proofs.Import.Wait
import PlaneRestore.Proofs.Import.Watch
import PlaneRestore.Proofs.Import.Words
import PlaneRestore.Proofs.Import.Writes
import PlaneRestore.Proofs.ImportError
import PlaneRestore.Proofs.Json
import PlaneRestore.Proofs.Json.Ordered
import PlaneRestore.Proofs.Kind
import PlaneRestore.Proofs.Outcome
import PlaneRestore.Proofs.Plane.Order
import PlaneRestore.Proofs.Plane.Play
import PlaneRestore.Proofs.Plane.Serve
import PlaneRestore.Proofs.Resource
import PlaneRestore.Proofs.Resource.Annotation
import PlaneRestore.Proofs.Resource.Condition
import PlaneRestore.Proofs.Resource.Identity
import PlaneRestore.Proofs.Shape
import PlaneRestore.Proofs.Simulation.Cancel
import PlaneRestore.Proofs.Simulation.Clock
import PlaneRestore.Proofs.Simulation.Ends
import PlaneRestore.Proofs.Simulation.Run
import PlaneRestore.Proofs.State.Addition
import PlaneRestore.Proofs.State.Edits
import PlaneRestore.Proofs.State.Extraction
import PlaneRestore.Proofs.State.Failure
import PlaneRestore.Proofs.State.Group
import PlaneRestore.Proofs.State.Listing
import PlaneRestore.Proofs.State.Manifests
import PlaneRestore.Proofs.State.NormalForm
import PlaneRestore.Proofs.State.Path
import PlaneRestore.Proofs.State.Scan
import PlaneRestore.Proofs.State.Summary
import PlaneRestore.Proofs.State.Tree
import PlaneRestore.Proofs.State.Whole
import PlaneRestore.Proofs.State.Writes
import PlaneRestore.Proofs.Table
import PlaneRestore.Proofs.Tar.Section
import PlaneRestore.Proofs.Text.Split
import PlaneRestore.Proofs.Trace.Carry
import PlaneRestore.Proofs.Trace.Effect
import PlaneRestore.Proofs.Trace.Heed
import PlaneRestore.Proofs.Trace.Log
import PlaneRestore.Proofs.Trace.Play
import PlaneRestore.Proofs.Trace.Spare
import PlaneRestore.Proofs.Trace.Speech
import PlaneRestore.Proofs.Trace.Stages
import PlaneRestore.Proofs.Trace.Terms
import PlaneRestore.Proofs.Trace.Work
import PlaneRestore.Proofs.Yaml.Reading
import PlaneRestore.Resource
import PlaneRestore.Shape
import PlaneRestore.Simulation.MemoryPlane
import PlaneRestore.Simulation.Scripted
import PlaneRestore.Simulation.World
import PlaneRestore.State.Group
import PlaneRestore.State.Path
import PlaneRestore.State.Tree
import PlaneRestore.Table
import PlaneRestore.Tar.Extension
import PlaneRestore.Tar.Header
import PlaneRestore.Tar.Member
import PlaneRestore.Tar.Writer
import PlaneRestore.Text.Base64
import PlaneRestore.Text.Blank
import PlaneRestore.Text.Printable
import PlaneRestore.Text.Quoted
import PlaneRestore.Text.Split
import PlaneRestore.Text.Utf8
import PlaneRestore.Timestamp
import PlaneRestore.Url
import PlaneRestore.Url.Host
import PlaneRestore.Url.Percent
import PlaneRestore.Yaml.Cursor
import PlaneRestore.Yaml.Error
import PlaneRestore.Yaml.Node
import PlaneRestore.Yaml.Reading
import PlaneRestore.Yaml.Scalar
import PlaneRestore.Yaml.Token
import PlaneRestore.Yaml.Token.Property
import PlaneRestore.Yaml.Token.Scalar
import PlaneRestore.Yaml.Token.Stream
