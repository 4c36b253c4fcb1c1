import WorkflowInstall.CommandLine.Arguments
import WorkflowInstall.CommandLine.Interpreter
import WorkflowInstall.CommandLine.Terminal
import WorkflowInstall.CommandLine.Usage
import WorkflowInstall.Decimal.Binary
import WorkflowInstall.Decimal.Numeral
import WorkflowInstall.Decimal.Shortest
import WorkflowInstall.Directive
import WorkflowInstall.Disk
import WorkflowInstall.Dotenv
import WorkflowInstall.Environment
import WorkflowInstall.Event
import WorkflowInstall.Fault
import WorkflowInstall.Frontmatter
import WorkflowInstall.Github.Answer
import WorkflowInstall.Github.Backoff
import WorkflowInstall.Github.Client
import WorkflowInstall.Github.Token
import WorkflowInstall.Import
import WorkflowInstall.Include
import WorkflowInstall.Install
import WorkflowInstall.Journal
import WorkflowInstall.Json
import WorkflowInstall.Limits
import WorkflowInstall.Main
import WorkflowInstall.Path.Lexical
import WorkflowInstall.Path.Local
import WorkflowInstall.Path.Repository
import WorkflowInstall.Proofs.CommandLine.AllOrNone
import WorkflowInstall.Proofs.Disk.Again
import WorkflowInstall.Proofs.Disk.Change
import WorkflowInstall.Proofs.Disk.Directories
import WorkflowInstall.Proofs.Disk.Entries
import WorkflowInstall.Proofs.Disk.Tree
import WorkflowInstall.Proofs.Import.Agreement
import WorkflowInstall.Proofs.Import.Closure
import WorkflowInstall.Proofs.Import.Downloads
import WorkflowInstall.Proofs.Import.Placing
import WorkflowInstall.Proofs.Import.Repetition
import WorkflowInstall.Proofs.Import.Settled
import WorkflowInstall.Proofs.Import.Steps
import WorkflowInstall.Proofs.Import.Writing
import WorkflowInstall.Proofs.Include.Agreement
import WorkflowInstall.Proofs.Include.Closure
import WorkflowInstall.Proofs.Include.Placing
import WorkflowInstall.Proofs.Include.Query
import WorkflowInstall.Proofs.Include.Repetition
import WorkflowInstall.Proofs.Include.Required
import WorkflowInstall.Proofs.Include.Steps
import WorkflowInstall.Proofs.Include.Whole
import WorkflowInstall.Proofs.Install.Containment
import WorkflowInstall.Proofs.Install.Keeping
import WorkflowInstall.Proofs.Install.Placing
import WorkflowInstall.Proofs.Install.Recording
import WorkflowInstall.Proofs.Install.Repetition
import WorkflowInstall.Proofs.Install.Step
import WorkflowInstall.Proofs.Install.Steps
import WorkflowInstall.Proofs.Install.Termination
import WorkflowInstall.Proofs.Path.Absolute
import WorkflowInstall.Proofs.Path.Canonical
import WorkflowInstall.Proofs.Path.Containment
import WorkflowInstall.Proofs.Path.Placing
import WorkflowInstall.Proofs.Path.Segments
import WorkflowInstall.Proofs.Run.Agreement
import WorkflowInstall.Proofs.Run.Exploration
import WorkflowInstall.Proofs.Run.Files
import WorkflowInstall.Proofs.Run.Fixed
import WorkflowInstall.Proofs.Run.Noting
import WorkflowInstall.Proofs.Run.Quiet
import WorkflowInstall.Proofs.Run.Repetition
import WorkflowInstall.Proofs.Run.Rules
import WorkflowInstall.Proofs.Run.Tour
import WorkflowInstall.Proofs.Staging.RollBack
import WorkflowInstall.Proofs.Workflow.Pinning
import WorkflowInstall.Proofs.Workflow.Repetition
import WorkflowInstall.Remote
import WorkflowInstall.Run
import WorkflowInstall.Settings
import WorkflowInstall.Source
import WorkflowInstall.Spec
import WorkflowInstall.Staging
import WorkflowInstall.Text.Base64
import WorkflowInstall.Text.Basic
import WorkflowInstall.Text.Blank
import WorkflowInstall.Text.Digit
import WorkflowInstall.Text.LetterCase
import WorkflowInstall.Text.Lines
import WorkflowInstall.Text.Lower
import WorkflowInstall.Text.Percent
import WorkflowInstall.Text.Pieces
import WorkflowInstall.Text.Printable
import WorkflowInstall.Text.Quoted
import WorkflowInstall.Text.Surrogate
import WorkflowInstall.Text.Utf8
import WorkflowInstall.Verbosity
import WorkflowInstall.Workflow
import WorkflowInstall.Yaml.Calendar
import WorkflowInstall.Yaml.Display
import WorkflowInstall.Yaml.Fault
import WorkflowInstall.Yaml.Node
import WorkflowInstall.Yaml.Supply
import WorkflowInstall.Yaml.Tag
import WorkflowInstall.Yaml.Token
import WorkflowInstall.Yaml.Value
import WorkflowInstall.Proofs.Staging.Journal
import WorkflowInstall.Proofs.Staging.Tracking
import WorkflowInstall.Proofs.Install.Journaling
import WorkflowInstall.Proofs.Include.Confinement
import WorkflowInstall.Proofs.Run.Questions
import WorkflowInstall.Proofs.Workflow.Fetching
import WorkflowInstall.Proofs.Install.Revision
import WorkflowInstall.Proofs.Path.Section
import WorkflowInstall.Proofs.Disk.Spelling
import WorkflowInstall.Proofs.Run.Alike
import WorkflowInstall.Proofs.Run.Stopping
import WorkflowInstall.Proofs.Import.Fragments
import WorkflowInstall.Proofs.Import.Stopping
import WorkflowInstall.Proofs.Import.Treating
import WorkflowInstall.Proofs.Include.Kinds
import WorkflowInstall.Proofs.Include.Stopping
import WorkflowInstall.Proofs.Github.Exchange
import WorkflowInstall.Proofs.Run.Relating
import WorkflowInstall.Proofs.Run.Blind
import WorkflowInstall.Proofs.Workflow.Routing
import WorkflowInstall.Proofs.Disk.Making
import WorkflowInstall.Proofs.Include.Making
import WorkflowInstall.Proofs.Disk.Respelling
import WorkflowInstall.Proofs.Run.Beside
import WorkflowInstall.Proofs.Include.Respelling
import WorkflowInstall.Proofs.Decimal.Bits
import WorkflowInstall.Proofs.Decimal.Nearest
import WorkflowInstall.Proofs.Settings.Usable
import WorkflowInstall.Proofs.Spec.Reading
import WorkflowInstall.Proofs.Spec.Grammar
import WorkflowInstall.Proofs.Spec.Rendering
import WorkflowInstall.Proofs.Workflow.FirstSuccess
import WorkflowInstall.Proofs.Path.Joining
import WorkflowInstall.Proofs.Path.Stripping
import WorkflowInstall.Proofs.Import.Shape
import WorkflowInstall.Proofs.Text.Lines
import WorkflowInstall.Proofs.Directive.Grammar
import WorkflowInstall.Proofs.Frontmatter.Splitting
import WorkflowInstall.Proofs.Include.Sections
import WorkflowInstall.Proofs.Path.Relative
import WorkflowInstall.Proofs.Staging.Arguments
import WorkflowInstall.Proofs.Yaml.Discipline
import WorkflowInstall.Proofs.Yaml.Scanning
import WorkflowInstall.Proofs.Yaml.Reading
import WorkflowInstall.Proofs.Yaml.Scalars
import WorkflowInstall.Proofs.Yaml.Building
import WorkflowInstall.Proofs.Frontmatter.Refusals
import WorkflowInstall.Proofs.Text.Encoding
import WorkflowInstall.Proofs.Text.Escaping
import WorkflowInstall.Proofs.Decimal.Sum
import WorkflowInstall.Proofs.Github.Waiting
