import ManifestBundle.Binary64.Basic
import ManifestBundle.Binary64.Nearest
import ManifestBundle.Binary64.Notation
import ManifestBundle.Binary64.Numeral
import ManifestBundle.Binary64.Shortest
import ManifestBundle.Bundle
import ManifestBundle.Command.Basic
import ManifestBundle.Command.Run
import ManifestBundle.Command.Usage
import ManifestBundle.Config.Basic
import ManifestBundle.Config.File
import ManifestBundle.Document.Basic
import ManifestBundle.Document.Lookup
import ManifestBundle.Document.Manifest
import ManifestBundle.Document.Stream
import ManifestBundle.DocumentError
import ManifestBundle.Files.Path
import ManifestBundle.Files.Tree
import ManifestBundle.Files.Walk
import ManifestBundle.Gzip.Bits
import ManifestBundle.Gzip.Checksum
import ManifestBundle.Gzip.Huffman
import ManifestBundle.Gzip.Inflate
import ManifestBundle.Gzip.Member
import ManifestBundle.Json
import ManifestBundle.KeyPath.Basic
import ManifestBundle.KeyPath.Parser
import ManifestBundle.KeyPath.Printer
import ManifestBundle.KeyValues
import ManifestBundle.Main
import ManifestBundle.Rendering
import ManifestBundle.Schema
import ManifestBundle.Selector
import ManifestBundle.Source
import ManifestBundle.Text.Blank
import ManifestBundle.Text.Digit
import ManifestBundle.Text.Quoted
import ManifestBundle.Text.Split
import ManifestBundle.Text.Unseen
import ManifestBundle.Toml.DateTime
import ManifestBundle.Toml.Document
import ManifestBundle.Toml.Number
import ManifestBundle.Toml.Printer
import ManifestBundle.Toml.Quoted
import ManifestBundle.Toml.Table
import ManifestBundle.Toml.Value
import ManifestBundle.Validation
import ManifestBundle.Value
import ManifestBundle.Yaml.Admission
import ManifestBundle.Yaml.Cursor
import ManifestBundle.Yaml.Data
import ManifestBundle.Yaml.Event
import ManifestBundle.Yaml.Node
import ManifestBundle.Yaml.Number
import ManifestBundle.Yaml.Printer
import ManifestBundle.Yaml.Scalar
import ManifestBundle.Yaml.ScalarText
import ManifestBundle.Yaml.Token
import ManifestBundle.Yaml.Token.BlockScalar
import ManifestBundle.Yaml.Token.Lexer
import ManifestBundle.Yaml.Token.Plain
import ManifestBundle.Yaml.Token.Property
import ManifestBundle.Yaml.Token.Quoted
import ManifestBundle.Yaml.Tree
import ManifestBundle.Proofs.KeyPath.RoundTrip
import ManifestBundle.Proofs.Bundle.Selection
import ManifestBundle.Proofs.Validation.FailFast
import ManifestBundle.Proofs.Command.Cardinality
import ManifestBundle.Proofs.Yaml.Cursor
import ManifestBundle.Proofs.Yaml.Plain
import ManifestBundle.Proofs.Yaml.Quoted
import ManifestBundle.Proofs.Yaml.BlockScalar
import ManifestBundle.Proofs.Binary64.Nearest
import ManifestBundle.Proofs.Binary64.Shortest
import ManifestBundle.Proofs.Binary64.Notation
import ManifestBundle.Proofs.Yaml.Number
import ManifestBundle.Proofs.Yaml.Token.Reading
import ManifestBundle.Proofs.Yaml.Token.Scalar
import ManifestBundle.Proofs.Yaml.Token.Entry
import ManifestBundle.Proofs.Yaml.Printer
import ManifestBundle.Proofs.Yaml.Token.Block
import ManifestBundle.Proofs.Yaml.Admission
import ManifestBundle.Proofs.Yaml.Token.Stream
import ManifestBundle.Proofs.Yaml.Event
import ManifestBundle.Proofs.Yaml.Tree
import ManifestBundle.Proofs.Yaml.Node
import ManifestBundle.Proofs.Value
import ManifestBundle.Proofs.Yaml.Data
import ManifestBundle.Proofs.Document.Stream
import ManifestBundle.Proofs.Equality
import ManifestBundle.Proofs.Except
import ManifestBundle.Proofs.KeyPath.Grammar
import ManifestBundle.Proofs.KeyPath.Unambiguous
import ManifestBundle.Proofs.Document.Assessment
import ManifestBundle.Proofs.Yaml.Conversion
import ManifestBundle.Proofs.Lists
import ManifestBundle.Proofs.Bundle.Derivation
import ManifestBundle.Proofs.Bundle.Duplicates
import ManifestBundle.Proofs.Text.Split
import ManifestBundle.Proofs.Schema.History
import ManifestBundle.Proofs.Source.Loading
import ManifestBundle.Proofs.Command.FailedOutput
import ManifestBundle.Proofs.Json.Unambiguous
import ManifestBundle.Proofs.Gzip.Bits
import ManifestBundle.Proofs.Gzip.Canonical
import ManifestBundle.Proofs.Gzip.Format
import ManifestBundle.Proofs.Gzip.Inflate
import ManifestBundle.Proofs.Gzip.Member
import ManifestBundle.Proofs.Source.Encoding
import ManifestBundle.Proofs.Source.Compressed
import ManifestBundle.Proofs.Files.Write
import ManifestBundle.Proofs.Toml.Quoted
import ManifestBundle.Proofs.Toml.Document
import ManifestBundle.Proofs.Toml.Table
import ManifestBundle.Proofs.Config.RoundTrip
import ManifestBundle.Proofs.KeyPath.SyntaxMessage
import ManifestBundle.Proofs.KeyPath.FirstFault
import ManifestBundle.Proofs.Text.Trim
import ManifestBundle.Proofs.KeyValues.Lookup
import ManifestBundle.Proofs.KeyValues.Spelling
import ManifestBundle.Proofs.Command.JoinedLists
import ManifestBundle.Proofs.Document.Manifest
import ManifestBundle.Proofs.Document.ApiVersion
import ManifestBundle.Proofs.Document.Lookup
import ManifestBundle.Proofs.Validation.Document
import ManifestBundle.Proofs.Validation.Tightening
import ManifestBundle.Proofs.Validation.Extension
import ManifestBundle.Proofs.Validation.Reordering
import ManifestBundle.Proofs.Selector.Criteria
import ManifestBundle.Proofs.Selector.Union
import ManifestBundle.Proofs.Selector.Exact
import ManifestBundle.Proofs.Command.Listing
import ManifestBundle.Proofs.Files.Path
import ManifestBundle.Proofs.Source.StandardInput
import ManifestBundle.Proofs.Command.Spelling
import ManifestBundle.Proofs.Files.Place
import ManifestBundle.Proofs.Files.Walk
import ManifestBundle.Proofs.Source.Directory
import ManifestBundle.Proofs.Yaml.Tags
