import Strata.Analysis
import Strata.Association
import Strata.CommandLine.Arguments
import Strata.CommandLine.Plan
import Strata.CommandLine.Switch
import Strata.CommandLine.Usage
import Strata.Decimal.Numeral
import Strata.Decimal.Shortest
import Strata.FileSystem.Basic
import Strata.Finding
import Strata.Glob
import Strata.Json.Basic
import Strata.Json.Printer
import Strata.Json.Reader
import Strata.Kotlin.Extent
import Strata.Kotlin.Outline
import Strata.Kotlin.Parser
import Strata.Kotlin.Token
import Strata.Layer
import Strata.Log
import Strata.Main
import Strata.Path
import Strata.Policy
import Strata.Report
import Strata.Rule
import Strata.RuleSet
import Strata.RuleTable
import Strata.Run
import Strata.Settings.Basic
import Strata.Settings.File
import Strata.Settings.Lookup
import Strata.Settings.Schema
import Strata.SourceFile
import Strata.Sources
import Strata.Syntax.Node
import Strata.Syntax.Parser
import Strata.TestSource
import Strata.Text.Blank
import Strata.Text.Cell
import Strata.Text.Digit
import Strata.Text.Escape
import Strata.Text.Lowercase
import Strata.Text.Newline
import Strata.Text.Printable
import Strata.Text.Quoted
import Strata.Text.Range
import Strata.Text.Resemblance
import Strata.Text.Search
import Strata.Text.Shape
import Strata.Text.Utf8
import Strata.Text.Wrap
import Strata.Value.Basic
import Strata.Value.Calendar
import Strata.Value.HashOrder
import Strata.Value.Text
import Strata.Yaml.Cursor
import Strata.Yaml.Document
import Strata.Yaml.Error
import Strata.Yaml.Node
import Strata.Yaml.Scalar
import Strata.Yaml.Tag
import Strata.Yaml.Token
import Strata.Yaml.Tokens
import Strata.Proofs.Utf8
import Strata.Proofs.Glob
import Strata.Proofs.Search
import Strata.Proofs.Traversal
import Strata.Proofs.Violations
import Strata.Proofs.Wildcard
import Strata.Proofs.StableSort
import Strata.Proofs.PathOrder
import Strata.Proofs.Sources
import Strata.Proofs.Schedule
import Strata.Proofs.Rings
import Strata.Proofs.CommandLine
import Strata.Proofs.SettingsFaults
import Strata.Proofs.Locality
import Strata.Proofs.Legible
import Strata.Proofs.RuleIndependence
import Strata.Proofs.Collection
import Strata.Proofs.Numerals
import Strata.Proofs.JsonGrammar
import Strata.Proofs.DottedNames
import Strata.Proofs.JsonReport
import Strata.Proofs.Porcelain
import Strata.Proofs.Loosening
import Strata.Proofs.Tables
import Strata.Proofs.Excludes
import Strata.Proofs.Trimming
import Strata.Proofs.Values
import Strata.Proofs.Schema
import Strata.Proofs.Wrap
import Strata.Proofs.TextReport
import Strata.Proofs.Escapes
import Strata.Proofs.LintCommand
import Strata.Proofs.Segments
import Strata.Proofs.SourceOrder
import Strata.Proofs.EntryOrder
import Strata.Proofs.CanonicalDocument
import Strata.Proofs.AllowedPackages
import Strata.Proofs.FanOut
import Strata.Proofs.Layout
import Strata.Proofs.TestExemption
import Strata.Proofs.PathSpellings
import Strata.Proofs.LineEnds
