import SourceOverlay.Name.Extension
import SourceOverlay.Name.Segments
import SourceOverlay.Text.Blank
import SourceOverlay.Text.Utf8
import SourceOverlay.Json.Number
import SourceOverlay.Json.Basic
import SourceOverlay.Json.Tree
import SourceOverlay.Json.Record
import SourceOverlay.Json.Writer
import SourceOverlay.Disk.Location
import SourceOverlay.Disk.Basic
import SourceOverlay.Text.Property
import SourceOverlay.Text.Mark
import SourceOverlay.Text.Direction
import SourceOverlay.Text.Joining
import SourceOverlay.Text.Composition
import SourceOverlay.Domain.Folding
import SourceOverlay.Domain.Punycode
import SourceOverlay.Domain.Label
import SourceOverlay.Domain.Name
import SourceOverlay.Uri.Escape
import SourceOverlay.Uri.Address
import SourceOverlay.Uri.Host
import SourceOverlay.Uri.Path
import SourceOverlay.Uri
import SourceOverlay.Text.Hex
import SourceOverlay.Error
import SourceOverlay.LineMap
import SourceOverlay.Transpiler
import SourceOverlay.Registry
import SourceOverlay.Text.Raw
import SourceOverlay.Process.Stream
import SourceOverlay.Process.Number
import SourceOverlay.Process.Field
import SourceOverlay.Process.Quote
import SourceOverlay.Process.Arguments
import SourceOverlay.Process.Echo
import SourceOverlay.Process.Printf
import SourceOverlay.Process.Cat
import SourceOverlay.Process.Head
import SourceOverlay.Process.Count
import SourceOverlay.Process.Translate
import SourceOverlay.Process.Filter
import SourceOverlay.Process.Shell.Script
import SourceOverlay.Process.Shell.Lexer
import SourceOverlay.Process.Shell.Parser
import SourceOverlay.Process.Shell.Pattern
import SourceOverlay.Process.Shell.Arithmetic
import SourceOverlay.Process.Shell.State
import SourceOverlay.Process.Shell.Fields
import SourceOverlay.Process.Shell.Expansion
import SourceOverlay.Process.Shell.Condition
import SourceOverlay.Process.Shell.Builtin
import SourceOverlay.Process.Shell.Evaluation
import SourceOverlay.Process.Run
import SourceOverlay.Command
import SourceOverlay.Plugin
import SourceOverlay.Options
import SourceOverlay.Settings
import SourceOverlay.Document
import SourceOverlay.Store
import SourceOverlay.Snapshot
import SourceOverlay.Provenance
import SourceOverlay.Report.Moment
import SourceOverlay.Report.Failure
import SourceOverlay.Files
import SourceOverlay.Overlay
import SourceOverlay.Import.Module
import SourceOverlay.Import.Native
import SourceOverlay.Import.Resolve
import SourceOverlay.Project
import SourceOverlay.Proofs.Names
import SourceOverlay.Proofs.Documents
import SourceOverlay.Proofs.Moves
import SourceOverlay.Proofs.Sessions
import SourceOverlay.Proofs.Caching
import SourceOverlay.Proofs.Jobs
import SourceOverlay.Proofs.Commits
import SourceOverlay.Proofs.Freshness
import SourceOverlay.Proofs.Versions
import SourceOverlay.Proofs.Bookkeeping
import SourceOverlay.Proofs.Editors
import SourceOverlay.Proofs.Economy
import SourceOverlay.Proofs.Imports
import SourceOverlay.Proofs.Positions
import SourceOverlay.Proofs.Desks
import SourceOverlay.Proofs.Memos
import SourceOverlay.Proofs.Manifests
import SourceOverlay.Proofs.Precedence
import SourceOverlay.Proofs.Accounts
import SourceOverlay.Proofs.Refreshes
import SourceOverlay.Proofs.Degradation
import SourceOverlay.Proofs.Layers
import SourceOverlay.Proofs.Directories
import SourceOverlay.Proofs.Builds
import SourceOverlay.Proofs.Declarations
import SourceOverlay.Proofs.Runs
import SourceOverlay.Proofs.Coverage
import SourceOverlay.Proofs.Slices
import SourceOverlay.Proofs.Encodings
import SourceOverlay.Proofs.Spellings
import SourceOverlay.Proofs.Packages
import SourceOverlay.Proofs.Entries
import SourceOverlay.Proofs.Bytes
import SourceOverlay.Proofs.Uris
import SourceOverlay.Proofs.Drafts
