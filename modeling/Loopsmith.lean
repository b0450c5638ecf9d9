import Loopsmith.Abi.Header
import Loopsmith.Abi.Memory
import Loopsmith.Abi.Value
import Loopsmith.Body
import Loopsmith.Cache
import Loopsmith.Cli.Arguments
import Loopsmith.Cli.Failure
import Loopsmith.Cli.Run
import Loopsmith.Compiler.Command
import Loopsmith.Compiler.Toolchain
import Loopsmith.Counts
import Loopsmith.Decimal.Binary64
import Loopsmith.Decimal.Read
import Loopsmith.Decimal.Shortest
import Loopsmith.Diagnostic
import Loopsmith.Engine.Basic
import Loopsmith.Engine.Foreign
import Loopsmith.Engine.Specialize
import Loopsmith.Error
import Loopsmith.Event
import Loopsmith.Files.Path
import Loopsmith.Files.Tree
import Loopsmith.Host
import Loopsmith.Host.Scripted
import Loopsmith.Logging.Filter
import Loopsmith.Logging.Level
import Loopsmith.Logging.Logger
import Loopsmith.Logging.Pattern.Atom
import Loopsmith.Logging.Pattern.Basic
import Loopsmith.Logging.Pattern.Bracket
import Loopsmith.Loop.Basic
import Loopsmith.Loop.Call
import Loopsmith.Loop.Key
import Loopsmith.Machine
import Loopsmith.Main
import Loopsmith.Name
import Loopsmith.Parameters.Basic
import Loopsmith.Parameters.Text
import Loopsmith.Pipeline.Basic
import Loopsmith.Profile
import Loopsmith.Settings.Basic
import Loopsmith.Settings.Document
import Loopsmith.Settings.Environment
import Loopsmith.Span
import Loopsmith.Store.Basic
import Loopsmith.Store.Digest
import Loopsmith.Store.Metadata
import Loopsmith.Store.Timestamp
import Loopsmith.Template.Basic
import Loopsmith.Template.Item
import Loopsmith.Template.Tag
import Loopsmith.Text.Blank
import Loopsmith.Text.CodePoint
import Loopsmith.Text.Letter
import Loopsmith.Text.Search
import Loopsmith.Text.Split
import Loopsmith.Text.Utf8
import Loopsmith.Toml.Flat
import Loopsmith.Toml.Scalar
import Loopsmith.Version
import Loopsmith.Yaml.Block
import Loopsmith.Yaml.Cursor
import Loopsmith.Yaml.Event
import Loopsmith.Yaml.Folding
import Loopsmith.Yaml.Plain
import Loopsmith.Yaml.Quoted
import Loopsmith.Yaml.Record
import Loopsmith.Yaml.Scalar
import Loopsmith.Yaml.Tag
import Loopsmith.Yaml.Token
import Loopsmith.Proofs.Cache
import Loopsmith.Proofs.Cache.FirstSuccess
import Loopsmith.Proofs.Engine.Course
import Loopsmith.Proofs.Engine.Reach
import Loopsmith.Proofs.Engine.Moments
import Loopsmith.Proofs.Engine.ExactlyOnce
import Loopsmith.Proofs.Parameters.RoundTrip
import Loopsmith.Proofs.Parameters.Edits
import Loopsmith.Proofs.Engine.Provenance
import Loopsmith.Proofs.Engine.Guard
import Loopsmith.Proofs.Engine.Accounts
import Loopsmith.Proofs.Engine.BuildOnce
import Loopsmith.Proofs.Engine.Baseline
import Loopsmith.Proofs.Template.Grammar
import Loopsmith.Proofs.Template.Scanning
import Loopsmith.Proofs.Template.Layout
import Loopsmith.Proofs.Pipeline.Stages
import Loopsmith.Proofs.Pipeline.StoreTrouble
import Loopsmith.Proofs.Template.Composition
import Loopsmith.Proofs.Template.OnePass
import Loopsmith.Proofs.Template.Completion
import Loopsmith.Proofs.Template.Comments
import Loopsmith.Proofs.Template.Walker.Safety
import Loopsmith.Proofs.Files.Operations
import Loopsmith.Proofs.Files.Directories
import Loopsmith.Proofs.Files.Names
import Loopsmith.Proofs.Store.Keys
import Loopsmith.Proofs.Store.Effects
import Loopsmith.Proofs.Pipeline.StoreCalls
import Loopsmith.Proofs.Store.Soundness
import Loopsmith.Proofs.Store.Steps
import Loopsmith.Proofs.Store.Interleaving
import Loopsmith.Proofs.Pipeline.Workplaces
import Loopsmith.Proofs.Pipeline.Remains
import Loopsmith.Proofs.Pipeline.Outcomes
import Loopsmith.Proofs.Host.Scripted
import Loopsmith.Proofs.Pipeline.Workspaces
import Loopsmith.Proofs.Engine.Ledger
import Loopsmith.Proofs.Engine.Independence
import Loopsmith.Proofs.Template.Dependence
import Loopsmith.Proofs.Parameters.Insertion
import Loopsmith.Proofs.Parameters.Merge
import Loopsmith.Proofs.Store.Retrieval
import Loopsmith.Proofs.Body.LifeCycle
import Loopsmith.Proofs.Cli.Reports
import Loopsmith.Proofs.Cli.Summary
import Loopsmith.Proofs.Decimal.Doubles
import Loopsmith.Proofs.Decimal.Literals
import Loopsmith.Proofs.Toml.Documents
import Loopsmith.Proofs.Settings.Documents
import Loopsmith.Proofs.Settings.Thresholds
import Loopsmith.Proofs.Settings.Verbosity
import Loopsmith.Proofs.Settings.Agreement
import Loopsmith.Proofs.Template.Escapes
