import ScopeScript.CommandLine.Arguments
import ScopeScript.CommandLine.Session
import ScopeScript.Datum.Basic
import ScopeScript.Datum.Convert
import ScopeScript.Datum.Display
import ScopeScript.Fault
import ScopeScript.Files.Locator
import ScopeScript.Files.Path
import ScopeScript.Files.Store
import ScopeScript.Format.Basic
import ScopeScript.Format.Codec
import ScopeScript.Format.Json.Printer
import ScopeScript.Format.Json.Reader
import ScopeScript.Format.Toml.Entry
import ScopeScript.Format.Toml.Printer
import ScopeScript.Format.Toml.Reader
import ScopeScript.Format.Toml.Scalar
import ScopeScript.Format.Toml.Screen
import ScopeScript.Format.Xml.Printer
import ScopeScript.Format.Yaml.Cursor
import ScopeScript.Format.Yaml.Lexeme
import ScopeScript.Format.Yaml.Node
import ScopeScript.Format.Yaml.Page
import ScopeScript.Format.Yaml.Printer
import ScopeScript.Format.Yaml.Reader
import ScopeScript.Format.Yaml.Scalar
import ScopeScript.Format.Yaml.Style
import ScopeScript.Format.Yaml.Token
import ScopeScript.Keyword
import ScopeScript.Location
import ScopeScript.Machine.Basic
import ScopeScript.Machine.Console
import ScopeScript.Machine.Execute
import ScopeScript.Machine.Run
import ScopeScript.Main
import ScopeScript.Number.Double
import ScopeScript.Number.Shortest
import ScopeScript.Number.Written
import ScopeScript.Options
import ScopeScript.Proofs.CommandLine.Sources
import ScopeScript.Proofs.Datum.Conversion
import ScopeScript.Proofs.Datum.RoundTrip
import ScopeScript.Proofs.Files.Absolute
import ScopeScript.Proofs.Files.Locator
import ScopeScript.Proofs.Files.Path
import ScopeScript.Proofs.Files.Resolving
import ScopeScript.Proofs.Machine.Blame
import ScopeScript.Proofs.Machine.Calls
import ScopeScript.Proofs.Machine.Context
import ScopeScript.Proofs.Machine.Depth
import ScopeScript.Proofs.Machine.Frames
import ScopeScript.Proofs.Machine.History
import ScopeScript.Proofs.Machine.Invocation
import ScopeScript.Proofs.Machine.Phases
import ScopeScript.Proofs.Machine.Preorder
import ScopeScript.Proofs.Machine.Provenance
import ScopeScript.Proofs.Machine.Refinement
import ScopeScript.Proofs.Machine.Semantics
import ScopeScript.Proofs.Machine.Termination
import ScopeScript.Proofs.Machine.TopLevel
import ScopeScript.Proofs.Machine.Trace
import ScopeScript.Proofs.Machine.UnnamedCalls
import ScopeScript.Proofs.Number.ReadBack
import ScopeScript.Proofs.Number.Rounding
import ScopeScript.Proofs.Number.Shortest
import ScopeScript.Proofs.Scanner.Blanks
import ScopeScript.Proofs.Scanner.Brackets
import ScopeScript.Proofs.Scanner.CallNames
import ScopeScript.Proofs.Scanner.Closing
import ScopeScript.Proofs.Scanner.Conservation
import ScopeScript.Proofs.Scanner.CreationOrder
import ScopeScript.Proofs.Scanner.Failure
import ScopeScript.Proofs.Scanner.FunctionShape
import ScopeScript.Proofs.Scanner.Growth
import ScopeScript.Proofs.Scanner.HeaderCall
import ScopeScript.Proofs.Scanner.Hoist
import ScopeScript.Proofs.Scanner.Inversion
import ScopeScript.Proofs.Scanner.Likeness
import ScopeScript.Proofs.Scanner.Moves
import ScopeScript.Proofs.Scanner.Naming
import ScopeScript.Proofs.Scanner.Parameters
import ScopeScript.Proofs.Scanner.Places
import ScopeScript.Proofs.Scanner.Quotation
import ScopeScript.Proofs.Scanner.Quotes
import ScopeScript.Proofs.Scanner.ReadBack
import ScopeScript.Proofs.Scanner.Scopes
import ScopeScript.Proofs.Scanner.Standing
import ScopeScript.Proofs.Scanner.Statement
import ScopeScript.Proofs.Scanner.Tokens
import ScopeScript.Proofs.Scanner.Trace
import ScopeScript.Proofs.Scanner.Values
import ScopeScript.Proofs.Scanner.WellFormed
import ScopeScript.Proofs.Settings
import ScopeScript.Proofs.Text.Lines
import ScopeScript.Proofs.Tree.Export
import ScopeScript.Proofs.Tree.Hoist
import ScopeScript.Proofs.Tree.Linked
import ScopeScript.Proofs.Tree.Links
import ScopeScript.Proofs.Tree.Listing
import ScopeScript.Proofs.Tree.Outline
import ScopeScript.Proofs.Tree.Picture
import ScopeScript.Proofs.Tree.Texts
import ScopeScript.Proofs.Tree.Walk
import ScopeScript.Proofs.Tree.WellFormed
import ScopeScript.Proofs.Value.Built
import ScopeScript.Proofs.Value.Entries
import ScopeScript.Proofs.Value.Equality
import ScopeScript.Proofs.Value.Literal
import ScopeScript.Proofs.Value.Parts
import ScopeScript.Report
import ScopeScript.Scanner.Basic
import ScopeScript.Scanner.Step
import ScopeScript.Script
import ScopeScript.Settings
import ScopeScript.Symbol
import ScopeScript.Text.Affix
import ScopeScript.Text.Alphanumeric
import ScopeScript.Text.Base64
import ScopeScript.Text.Blank
import ScopeScript.Text.Case
import ScopeScript.Text.Decimal
import ScopeScript.Text.Hex
import ScopeScript.Text.Lines
import ScopeScript.Text.Printable
import ScopeScript.Text.Quoted
import ScopeScript.Text.Utf8
import ScopeScript.Tree.Basic
import ScopeScript.Tree.Dump
import ScopeScript.Tree.Export
import ScopeScript.Tree.Forest
import ScopeScript.Tree.Node
import ScopeScript.Value.Basic
import ScopeScript.Value.Display
