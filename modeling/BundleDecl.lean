import BundleDecl.Text
import BundleDecl.Text.Cursor
import BundleDecl.Text.Digit
import BundleDecl.Text.Lines
import BundleDecl.Text.Quoted
import BundleDecl.Text.UpperCase
import BundleDecl.Text.Utf8
import BundleDecl.Text.Utf8.Flaw
import BundleDecl.SortedSet
import BundleDecl.Entries
import BundleDecl.Binary64
import BundleDecl.Json
import BundleDecl.Json.Printer
import BundleDecl.Json.Parser
import BundleDecl.Failure
import BundleDecl.Version
import BundleDecl.Host
import BundleDecl.Version.Sort.Search
import BundleDecl.Version.Sort.Merge
import BundleDecl.Version.Sort
import BundleDecl.Identifier
import BundleDecl.Range
import BundleDecl.Range.Parser
import BundleDecl.Range.Comparisons
import BundleDecl.Dependency
import BundleDecl.Dependency.Builder
import BundleDecl.DependencyList
import BundleDecl.Declarations
import BundleDecl.Declarations.Reader
import BundleDecl.Declarations.Interruption
import BundleDecl.MetadataValue
import BundleDecl.Delivery
import BundleDecl.Absent
import BundleDecl.Schema
import BundleDecl.Interchange
import BundleDecl.Interchange.Interruption
import BundleDecl.FileTree
import BundleDecl.Log
import BundleDecl.Yaml.Fault
import BundleDecl.Yaml.Place
import BundleDecl.Yaml.Number
import BundleDecl.Yaml.Moment
import BundleDecl.Yaml.Scalar.Plain
import BundleDecl.Yaml.Scalar.Quoted
import BundleDecl.Yaml.Scalar.Block
import BundleDecl.Yaml.Token
import BundleDecl.Yaml.Node
import BundleDecl.Yaml.Scalar
import BundleDecl.Yaml.Value
import BundleDecl.CommandLine
import BundleDecl.Arguments
import BundleDecl.Settings
import BundleDecl.Command
import BundleDecl.Main
import BundleDecl.Proofs.Text
import BundleDecl.Proofs.Host
import BundleDecl.Proofs.Version
import BundleDecl.Proofs.Identifier
import BundleDecl.Proofs.Range.Derivation
import BundleDecl.Proofs.Range.Normal
import BundleDecl.Proofs.Declarations.Grammar
import BundleDecl.Proofs.Declarations.Step
import BundleDecl.Proofs.Lines
import BundleDecl.Proofs.Range.RoundTrip
import BundleDecl.Proofs.MetadataValue
import BundleDecl.Proofs.Declarations.Completeness
import BundleDecl.Proofs.Declarations.Soundness
import BundleDecl.Proofs.Declarations.Acceptance
import BundleDecl.Proofs.Declarations.Entry
import BundleDecl.Proofs.Dependency.Builder
import BundleDecl.Proofs.DependencyList
import BundleDecl.Proofs.Declarations.Canonical
import BundleDecl.Proofs.Declarations.RoundTrip
import BundleDecl.Proofs.Declarations.Fault
import BundleDecl.Proofs.Declarations.Refusal
import BundleDecl.Proofs.Declarations.Location
import BundleDecl.Proofs.Declarations.Limits
import BundleDecl.Proofs.Declarations.Lookahead
import BundleDecl.Proofs.Declarations.Concatenation
import BundleDecl.Proofs.Text.Utf8
import BundleDecl.Proofs.Delivery
import BundleDecl.Proofs.Range.Includes
import BundleDecl.Proofs.Version.Order
import BundleDecl.Proofs.Version.Sort.Search
import BundleDecl.Proofs.Version.Sort.Merge
import BundleDecl.Proofs.Version.Sort
import BundleDecl.Proofs.Range.Grammar
import BundleDecl.Proofs.Range.Acceptance
import BundleDecl.Proofs.Range.Comparisons
import BundleDecl.Proofs.Range.Limits
import BundleDecl.Proofs.Json.Strings
import BundleDecl.Proofs.Json.RoundTrip
import BundleDecl.Proofs.Schema
import BundleDecl.Proofs.Interchange
import BundleDecl.Proofs.Declarations.Obtained
import BundleDecl.Proofs.Version.Successor
import BundleDecl.Proofs.Range.Interval
import BundleDecl.Proofs.FileTree
import BundleDecl.Proofs.Command.Recorded
import BundleDecl.Proofs.Command.Step
import BundleDecl.Proofs.Command.Check
import BundleDecl.Proofs.Command.Setup
import BundleDecl.Proofs.Command.Output
import BundleDecl.Proofs.Command.Ending
import BundleDecl.Proofs.Range.Gap
import BundleDecl.Proofs.Range.Combined
import BundleDecl.Proofs.Range.Spelling
import BundleDecl.Proofs.Identifier.Acceptance
import BundleDecl.Proofs.Identifier.Parts
import BundleDecl.Proofs.Declarations.Filter
import BundleDecl.Proofs.Declarations.Optional
import BundleDecl.Proofs.Schema.Violation
import BundleDecl.Proofs.Interchange.Acceptance
import BundleDecl.Proofs.Interchange.Limits
import BundleDecl.Proofs.Declarations.Compact
import BundleDecl.Proofs.Dependency.Run
import BundleDecl.Proofs.Interchange.Identifier
import BundleDecl.Proofs.Range.Abbreviation
import BundleDecl.Proofs.Declarations.This
import BundleDecl.Proofs.Declarations.Same
import BundleDecl.Proofs.Identifier.Order
import BundleDecl.Proofs.Identifier.Version
import BundleDecl.Proofs.Version.Refusal
import BundleDecl.Proofs.Text.Cursor
import BundleDecl.Proofs.Text.UpperCase
import BundleDecl.Proofs.Text.Utf8.Readable
import BundleDecl.Proofs.MetadataValue.Lines
import BundleDecl.Proofs.Settings
import BundleDecl.Proofs.Delivery.Undecodable
import BundleDecl.Proofs.Range.Progress
