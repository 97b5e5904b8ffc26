import ConfigPack.Archive.CodePage
import ConfigPack.Archive.Crc32
import ConfigPack.Archive.Entries
import ConfigPack.Archive.Inflate
import ConfigPack.Archive.Member
import ConfigPack.Assembly.Basic
import ConfigPack.Assembly.Error
import ConfigPack.Assembly.Listing
import ConfigPack.Assembly.Run
import ConfigPack.Bytes
import ConfigPack.Command.Assemble
import ConfigPack.Command.Error
import ConfigPack.Command.Packs
import ConfigPack.Command.Run
import ConfigPack.Command.Setting
import ConfigPack.Command.Summary
import ConfigPack.CommandLine.Basic
import ConfigPack.CommandLine.Completion
import ConfigPack.CommandLine.Grammar
import ConfigPack.ConfigError
import ConfigPack.Console.Clock
import ConfigPack.Console.Filter
import ConfigPack.Console.Line
import ConfigPack.Console.LogFile
import ConfigPack.Console.Severity
import ConfigPack.Dict
import ConfigPack.Digest.Checksum
import ConfigPack.Digest.Sha256
import ConfigPack.Document
import ConfigPack.Environment.Basic
import ConfigPack.Environment.Resolve
import ConfigPack.Expr
import ConfigPack.Failure
import ConfigPack.FileTree.Basic
import ConfigPack.FileTree.Canonical
import ConfigPack.FileTree.Error
import ConfigPack.FileTree.Name
import ConfigPack.FileTree.Operations
import ConfigPack.FileTree.Replace
import ConfigPack.FileTree.Walk
import ConfigPack.Fuel.Basic
import ConfigPack.Fuel.Supply
import ConfigPack.Glob.Basic
import ConfigPack.Glob.Parser
import ConfigPack.Glob.Shape
import ConfigPack.Hook.Abort
import ConfigPack.Hook.Listener
import ConfigPack.Hook.Preset
import ConfigPack.Install
import ConfigPack.Journal
import ConfigPack.Json.Basic
import ConfigPack.Json.Printer
import ConfigPack.Json.Reader
import ConfigPack.Json5.Fault
import ConfigPack.Json5.Reader
import ConfigPack.Json5.Token
import ConfigPack.Main
import ConfigPack.Manifest.Basic
import ConfigPack.Manifest.Fault
import ConfigPack.Manifest.Grammar
import ConfigPack.Manifest.Load
import ConfigPack.Manifest.Warning
import ConfigPack.Merge
import ConfigPack.Number.Binary64
import ConfigPack.Number.Literal
import ConfigPack.Number.Shortest
import ConfigPack.Output.Basic
import ConfigPack.Output.Error
import ConfigPack.Output.Write
import ConfigPack.Pack.Bundle
import ConfigPack.Pack.Error
import ConfigPack.Pack.Selection
import ConfigPack.Pack.Source
import ConfigPack.Pack.Unpack
import ConfigPack.Parameters
import ConfigPack.Path
import ConfigPack.Program
import ConfigPack.Proofs.Alike
import ConfigPack.Proofs.Archive.Entry
import ConfigPack.Proofs.Archive.Returned
import ConfigPack.Proofs.Archive.Roundtrip
import ConfigPack.Proofs.Assembly.Account
import ConfigPack.Proofs.Assembly.Census
import ConfigPack.Proofs.Assembly.Exclude
import ConfigPack.Proofs.Assembly.Fold
import ConfigPack.Proofs.Assembly.Last
import ConfigPack.Proofs.Assembly.Listing
import ConfigPack.Proofs.Assembly.Phases
import ConfigPack.Proofs.Assembly.Trial
import ConfigPack.Proofs.Assembly.Twin
import ConfigPack.Proofs.Assembly.Writing
import ConfigPack.Proofs.Bytes
import ConfigPack.Proofs.Dict
import ConfigPack.Proofs.Digest.Checksum
import ConfigPack.Proofs.Digest.Encoding
import ConfigPack.Proofs.Environment.References
import ConfigPack.Proofs.Environment.Reordered
import ConfigPack.Proofs.Environment.Sections
import ConfigPack.Proofs.Environment.Seeds
import ConfigPack.Proofs.Expr.Choice
import ConfigPack.Proofs.Expr.Template
import ConfigPack.Proofs.FileTree.Again
import ConfigPack.Proofs.FileTree.Canonical
import ConfigPack.Proofs.FileTree.Change
import ConfigPack.Proofs.FileTree.Enter
import ConfigPack.Proofs.FileTree.Ground
import ConfigPack.Proofs.FileTree.Leads
import ConfigPack.Proofs.FileTree.Name
import ConfigPack.Proofs.FileTree.Operations
import ConfigPack.Proofs.FileTree.Pave
import ConfigPack.Proofs.FileTree.Plain
import ConfigPack.Proofs.FileTree.Reordered
import ConfigPack.Proofs.FileTree.Replace
import ConfigPack.Proofs.FileTree.Rooted
import ConfigPack.Proofs.FileTree.Sound
import ConfigPack.Proofs.FileTree.Spelled
import ConfigPack.Proofs.FileTree.Sprout
import ConfigPack.Proofs.FileTree.Twin
import ConfigPack.Proofs.FileTree.Walk
import ConfigPack.Proofs.Fuel
import ConfigPack.Proofs.Install
import ConfigPack.Proofs.Json.Fields
import ConfigPack.Proofs.Json.Laws
import ConfigPack.Proofs.Json.Path
import ConfigPack.Proofs.Json.Reading
import ConfigPack.Proofs.Json.Reordered
import ConfigPack.Proofs.Json.Roundtrip
import ConfigPack.Proofs.Json.Within
import ConfigPack.Proofs.Listeners
import ConfigPack.Proofs.Manifest.Blame
import ConfigPack.Proofs.Manifest.Encoding
import ConfigPack.Proofs.Manifest.Form
import ConfigPack.Proofs.Manifest.Numbers
import ConfigPack.Proofs.Manifest.Texts
import ConfigPack.Proofs.Mentions
import ConfigPack.Proofs.Output.Accumulate
import ConfigPack.Proofs.Output.Combine
import ConfigPack.Proofs.Output.Leaves
import ConfigPack.Proofs.Output.Settled
import ConfigPack.Proofs.Output.Touched
import ConfigPack.Proofs.Pack.Bundle
import ConfigPack.Proofs.Pack.Complete
import ConfigPack.Proofs.Pack.Detect
import ConfigPack.Proofs.Pack.Enumeration
import ConfigPack.Proofs.Pack.Failure
import ConfigPack.Proofs.Pack.Frame
import ConfigPack.Proofs.Pack.Inside
import ConfigPack.Proofs.Pack.Layout
import ConfigPack.Proofs.Pack.Mirror
import ConfigPack.Proofs.Pack.Portable
import ConfigPack.Proofs.Pack.Refine
import ConfigPack.Proofs.Pack.Staging
import ConfigPack.Proofs.Parameters.Equations
import ConfigPack.Proofs.Parameters.Extended
import ConfigPack.Proofs.Parameters.Order
import ConfigPack.Proofs.Parameters.Presets
import ConfigPack.Proofs.Path
import ConfigPack.Proofs.Path.Parent
import ConfigPack.Proofs.Plan
import ConfigPack.Proofs.Rebuilt
import ConfigPack.Proofs.Requests
import ConfigPack.Proofs.Result
import ConfigPack.Proofs.Substitution.Clear
import ConfigPack.Proofs.Substitution.Cycle
import ConfigPack.Proofs.Substitution.Expand
import ConfigPack.Proofs.Substitution.Marker
import ConfigPack.Proofs.Substitution.Outcome
import ConfigPack.Proofs.Substitution.Pass
import ConfigPack.Proofs.Substitution.Uses
import ConfigPack.Proofs.Text.Replace
import ConfigPack.Proofs.Utf8
import ConfigPack.Proofs.Work
import ConfigPack.Proofs.Yaml.Merge
import ConfigPack.Question
import ConfigPack.Substitution
import ConfigPack.Text.CodePoint
import ConfigPack.Text.Combining
import ConfigPack.Text.Letters
import ConfigPack.Text.Marks
import ConfigPack.Text.NameParts
import ConfigPack.Text.Quoted
import ConfigPack.Text.Replace
import ConfigPack.Text.Unprintable
import ConfigPack.Text.Utf8
import ConfigPack.Toml.Fault
import ConfigPack.Toml.Number
import ConfigPack.Toml.Reader
import ConfigPack.Toml.Table
import ConfigPack.Toml.Text
import ConfigPack.Toml.Time
import ConfigPack.Value
import ConfigPack.World
import ConfigPack.Yaml.Basic
import ConfigPack.Yaml.Fault
import ConfigPack.Yaml.Node
import ConfigPack.Yaml.Printer
import ConfigPack.Yaml.Reader
import ConfigPack.Yaml.Scalar
import ConfigPack.Yaml.Token
