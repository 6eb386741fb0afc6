import Routebook.Checked
import Routebook.Cli.Command
import Routebook.Cli.Options
import Routebook.Cli.Run
import Routebook.Code.ClassNames
import Routebook.Code.Expression
import Routebook.Code.Lines
import Routebook.Code.Numeral
import Routebook.Code.Pattern
import Routebook.Code.Quoted
import Routebook.Code.Statement
import Routebook.Code.Token
import Routebook.Controller.Basic
import Routebook.Controller.Collect
import Routebook.Controller.Decode
import Routebook.Controller.Define
import Routebook.Controller.HintText
import Routebook.Controller.Order
import Routebook.Controller.Reflect
import Routebook.Controller.Syntax
import Routebook.Double.Basic
import Routebook.Double.Layout
import Routebook.Double.Reader
import Routebook.Double.Shortest
import Routebook.Entries
import Routebook.Failure
import Routebook.Fault
import Routebook.Files.Path
import Routebook.Files.Tree
import Routebook.Handbook.Content
import Routebook.Handbook.Markdown
import Routebook.Handbook.Page
import Routebook.Handbook.ParamTable
import Routebook.Json.Printer
import Routebook.Json.Reader
import Routebook.Json.Token
import Routebook.Main
import Routebook.Merge
import Routebook.Model.Basic
import Routebook.Model.Decode
import Routebook.Model.Encode
import Routebook.Model.Report
import Routebook.Modules.Discover
import Routebook.Modules.Fingerprint
import Routebook.Modules.Import
import Routebook.Modules.Naming
import Routebook.Modules.Table
import Routebook.Proofs.Cache.Isolation
import Routebook.Proofs.Cache.RoundTrip
import Routebook.Proofs.Cache.Soundness
import Routebook.Proofs.Checked
import Routebook.Proofs.Controller.Collect
import Routebook.Proofs.Controller.Reflect
import Routebook.Proofs.Controller.Tags
import Routebook.Proofs.Double.Decimal
import Routebook.Proofs.Each
import Routebook.Proofs.Entries
import Routebook.Proofs.Files.Tree
import Routebook.Proofs.Json.Fractional
import Routebook.Proofs.Json.Lexeme
import Routebook.Proofs.Json.Limits
import Routebook.Proofs.Json.Printer
import Routebook.Proofs.Json.RoundTrip
import Routebook.Proofs.Json.Stored
import Routebook.Proofs.Merge.Completion
import Routebook.Proofs.Merge.Placement
import Routebook.Proofs.Merge.Shells
import Routebook.Proofs.Merge.Stability
import Routebook.Proofs.Model.RoundTrip
import Routebook.Proofs.Model.Sound
import Routebook.Proofs.Modules.Discovery
import Routebook.Proofs.Modules.Loading
import Routebook.Proofs.Outcome
import Routebook.Proofs.Session.Heap
import Routebook.Proofs.Steps
import Routebook.Proofs.Tag.RoundTrip
import Routebook.Proofs.Text.Utf8
import Routebook.Proofs.Value
import Routebook.Route.Pattern
import Routebook.Route.Table
import Routebook.Route.Target
import Routebook.Session.Basic
import Routebook.Session.Heap
import Routebook.Settings
import Routebook.Settings.File
import Routebook.Tag.Bag
import Routebook.Tag.Basic
import Routebook.Tag.Build
import Routebook.Tag.Decode
import Routebook.Tag.Encode
import Routebook.Tag.Field
import Routebook.Tag.Kind
import Routebook.Tag.Stack
import Routebook.Text.Identifier
import Routebook.Text.LineEnd
import Routebook.Text.Literal
import Routebook.Text.Printable
import Routebook.Text.Upper
import Routebook.Text.Utf8
import Routebook.Value
import Routebook.Xml.Binding
import Routebook.Xml.Canonical
import Routebook.Xml.Doctype
import Routebook.Xml.Event
import Routebook.Xml.Markup
import Routebook.Xml.Name
import Routebook.Xml.Reference
import Routebook.Yaml.Block
import Routebook.Yaml.Cursor
import Routebook.Yaml.Document
import Routebook.Yaml.Layout
import Routebook.Yaml.Moment
import Routebook.Yaml.Node
import Routebook.Yaml.Plain
import Routebook.Yaml.Quoted
import Routebook.Yaml.Sense
import Routebook.Yaml.Token
import Routebook.Proofs.Cache.Storable
import Routebook.Proofs.Files.Stock
import Routebook.Proofs.Handbook.References
import Routebook.Proofs.Session.Admission
import Routebook.Proofs.Session.Interchange
import Routebook.Proofs.Session.Reachable
import Routebook.Proofs.Merge.Precedence
import Routebook.Proofs.Merge.Backfill
import Routebook.Proofs.Merge.Growth
import Routebook.Proofs.Session.Independence
import Routebook.Proofs.Session.Repetition
import Routebook.Proofs.Tag.Declared
import Routebook.Proofs.Tag.Redecoding
import Routebook.Proofs.Model.Slot
import Routebook.Proofs.Tag.Agreement
import Routebook.Proofs.Handbook.Chapters
import Routebook.Proofs.Handbook.Showing
import Routebook.Proofs.Route.Coverage
import Routebook.Proofs.Tag.Breakage
import Routebook.Proofs.Model.Breakage
import Routebook.Proofs.Cache.Misses
import Routebook.Proofs.Controller.Resolution
import Routebook.Proofs.Session.Collecting
import Routebook.Proofs.Controller.Visibility
import Routebook.Proofs.Session.Recall
import Routebook.Proofs.Controller.Lookup
import Routebook.Proofs.Controller.Declarations
import Routebook.Proofs.Tag.Stacking
import Routebook.Proofs.Tag.Rules
import Routebook.Proofs.Tag.Words
import Routebook.Proofs.Handbook.Content
import Routebook.Proofs.Handbook.Table
import Routebook.Proofs.Route.Target
import Routebook.Proofs.Route.Spelling
import Routebook.Proofs.Route.Pattern
import Routebook.Proofs.Handbook.Examples
import Routebook.Proofs.Modules.Importing
import Routebook.Proofs.Modules.Unresolved
import Routebook.Proofs.Settings.Overrides
import Routebook.Yaml.Binary
import Routebook.Proofs.Modules.Bindings
import Routebook.Proofs.Files.WellFormed
import Routebook.Proofs.Modules.Scanning
import Routebook.Proofs.Modules.Packages
import Routebook.Proofs.Modules.Naming
