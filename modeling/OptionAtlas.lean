import OptionAtlas.Arguments
import OptionAtlas.Builder
import OptionAtlas.Catalog
import OptionAtlas.Catalog.Indexed
import OptionAtlas.CommandLine
import OptionAtlas.Defect
import OptionAtlas.File.Disk
import OptionAtlas.File.Memory
import OptionAtlas.File.Path
import OptionAtlas.Flag
import OptionAtlas.Json.Number
import OptionAtlas.Json.Printer
import OptionAtlas.Json.Reader
import OptionAtlas.Listing
import OptionAtlas.Log
import OptionAtlas.Main
import OptionAtlas.Number.Decimal
import OptionAtlas.Number.Double
import OptionAtlas.Program
import OptionAtlas.Proofs.Catalog.Clash
import OptionAtlas.Proofs.Catalog.Document
import OptionAtlas.Proofs.Catalog.Index
import OptionAtlas.Proofs.Catalog.Listing
import OptionAtlas.Proofs.Catalog.Lookup
import OptionAtlas.Proofs.Catalog.Selection
import OptionAtlas.Proofs.Catalog.Union
import OptionAtlas.Proofs.Checks
import OptionAtlas.Proofs.File.Keeping
import OptionAtlas.Proofs.File.Path
import OptionAtlas.Proofs.Flag.Grammar
import OptionAtlas.Proofs.Flag.Naming
import OptionAtlas.Proofs.Flag.Usage
import OptionAtlas.Proofs.Json.Form
import OptionAtlas.Proofs.Json.Reading
import OptionAtlas.Proofs.Json.Text
import OptionAtlas.Proofs.Registry.Assembly
import OptionAtlas.Proofs.Registry.Composition
import OptionAtlas.Proofs.Registry.Defects
import OptionAtlas.Proofs.Registry.Growth
import OptionAtlas.Proofs.Registry.Resolution
import OptionAtlas.Proofs.Source
import OptionAtlas.Proofs.Store
import OptionAtlas.Proofs.Table.Acceptance
import OptionAtlas.Proofs.Table.Building
import OptionAtlas.Proofs.Table.Order
import OptionAtlas.Proofs.Table.Ownership
import OptionAtlas.Proofs.Table.Reading
import OptionAtlas.Proofs.Table.RoundTrip
import OptionAtlas.Proofs.Table.Schema
import OptionAtlas.Proofs.Text.Bytes
import OptionAtlas.Proofs.Text.Columns
import OptionAtlas.Proofs.Text.Words
import OptionAtlas.Proofs.Token.Arguments
import OptionAtlas.Proofs.Token.Classification
import OptionAtlas.Proofs.Token.Drafting
import OptionAtlas.Proofs.Token.Report
import OptionAtlas.Proofs.Token.Verdict
import OptionAtlas.Proofs.Yaml.Layout
import OptionAtlas.Proofs.Yaml.Lexing
import OptionAtlas.Proofs.Yaml.Parsing
import OptionAtlas.Proofs.Yaml.Reading
import OptionAtlas.Proofs.Yaml.Scalar.Block
import OptionAtlas.Proofs.Yaml.Scalar.Plain
import OptionAtlas.Proofs.Yaml.Scalar.Quoted
import OptionAtlas.Proofs.Yaml.Style
import OptionAtlas.Proofs.Yaml.Tokens
import OptionAtlas.Registry
import OptionAtlas.Source
import OptionAtlas.Standard
import OptionAtlas.Store
import OptionAtlas.Table.Basic
import OptionAtlas.Table.Schema
import OptionAtlas.Text.Blank
import OptionAtlas.Text.Column
import OptionAtlas.Text.Extender
import OptionAtlas.Text.Printable
import OptionAtlas.Text.Quoted
import OptionAtlas.Text.Ranges
import OptionAtlas.Text.Symbol
import OptionAtlas.Token
import OptionAtlas.Tree
import OptionAtlas.Yaml.Character
import OptionAtlas.Yaml.Cursor
import OptionAtlas.Yaml.Document
import OptionAtlas.Yaml.Folding
import OptionAtlas.Yaml.Intake
import OptionAtlas.Yaml.Lexer
import OptionAtlas.Yaml.Meaning
import OptionAtlas.Yaml.Node
import OptionAtlas.Yaml.Printer
import OptionAtlas.Yaml.Property
import OptionAtlas.Yaml.Reader
import OptionAtlas.Yaml.Scalar.Block
import OptionAtlas.Yaml.Scalar.Plain
import OptionAtlas.Yaml.Scalar.Quoted
import OptionAtlas.Yaml.Style
import OptionAtlas.Yaml.Token
