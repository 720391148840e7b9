import RegisterTables.Ascending
import RegisterTables.Catalogue.Aarch64
import RegisterTables.Catalogue.Format
import RegisterTables.Catalogue.FromJson
import RegisterTables.Catalogue.FromToml
import RegisterTables.Catalogue.Outline
import RegisterTables.Catalogue.Parse
import RegisterTables.CommandLine.Arguments
import RegisterTables.CommandLine.Response
import RegisterTables.CommandLine.Run
import RegisterTables.Double.Basic
import RegisterTables.Double.Shortest
import RegisterTables.EnvironmentIndex
import RegisterTables.Error
import RegisterTables.Event
import RegisterTables.FileTree
import RegisterTables.Json.Number
import RegisterTables.Json.Syntax
import RegisterTables.Json.Text
import RegisterTables.Json.Token
import RegisterTables.Json.Value
import RegisterTables.Main
import RegisterTables.Observation
import RegisterTables.Path
import RegisterTables.RegisterGroup
import RegisterTables.Report.Basic
import RegisterTables.Report.Build
import RegisterTables.Report.Markdown
import RegisterTables.Report.Sink
import RegisterTables.Text.Blank
import RegisterTables.Text.Hidden
import RegisterTables.Text.Numeral
import RegisterTables.Text.Quoted
import RegisterTables.Toml.Fault
import RegisterTables.Toml.Number
import RegisterTables.Toml.Quote
import RegisterTables.Toml.Syntax
import RegisterTables.Toml.Table
import RegisterTables.Toml.Token
import RegisterTables.Proofs.Failure
import RegisterTables.Proofs.Building
import RegisterTables.Proofs.ByteOrder
import RegisterTables.Proofs.Pivot
import RegisterTables.Proofs.Toml.Lexing
import RegisterTables.Proofs.Catalogue.Reading
import RegisterTables.Proofs.Catalogue.TomlText
import RegisterTables.Proofs.Catalogue.TomlLines
import RegisterTables.Proofs.Catalogue.TomlRoundTrip
import RegisterTables.Proofs.Catalogue.JsonRoundTrip
import RegisterTables.Proofs.Markdown.Decoder
import RegisterTables.Proofs.Cells
import RegisterTables.Proofs.Lossless
import RegisterTables.Proofs.Selection
import RegisterTables.Proofs.Appending
import RegisterTables.Proofs.SourceOrder
import RegisterTables.Proofs.Differences
import RegisterTables.Proofs.Answers
import RegisterTables.Proofs.Warnings
import RegisterTables.Proofs.Reordering
import RegisterTables.Proofs.CommandLine.Listings
import RegisterTables.Proofs.FileTree
import RegisterTables.Proofs.CommandLine.Effects
import RegisterTables.Proofs.CommandLine.Options
import RegisterTables.Proofs.Catalogue.Flaws
import RegisterTables.Proofs.Json.Nesting
import RegisterTables.Proofs.Toml.Inline
import RegisterTables.Proofs.Toml.Literals
import RegisterTables.Proofs.Toml.Entries
import RegisterTables.Proofs.Toml.Readings
import RegisterTables.Proofs.Toml.Places
import RegisterTables.Proofs.Catalogue.Drafts
import RegisterTables.Proofs.Catalogue.Agreement
import RegisterTables.Proofs.Catalogue.JsonShape
import RegisterTables.Proofs.Catalogue.Parsed
import RegisterTables.Proofs.Catalogue.FirstFlaw
import RegisterTables.Proofs.Catalogue.Numbers
import RegisterTables.Proofs.Partition
import RegisterTables.Proofs.Catalogue.FileFormat
import RegisterTables.Proofs.EnvironmentIndex
import RegisterTables.Proofs.Sink
