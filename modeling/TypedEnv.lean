import TypedEnv.Arguments
import TypedEnv.Assignment
import TypedEnv.Binary64
import TypedEnv.Binary64.Printer
import TypedEnv.Builder
import TypedEnv.Decimal
import TypedEnv.Dict
import TypedEnv.Document
import TypedEnv.Error
import TypedEnv.Evaluation
import TypedEnv.Json.Fault
import TypedEnv.Json.Number
import TypedEnv.Json.Parser
import TypedEnv.Json.Printer
import TypedEnv.Location
import TypedEnv.Parsed
import TypedEnv.Parsed.Fit
import TypedEnv.Populate
import TypedEnv.Reader
import TypedEnv.Registry
import TypedEnv.Schema
import TypedEnv.Schema.Decode
import TypedEnv.Schema.Json
import TypedEnv.Schema.KeyLine
import TypedEnv.Schema.Toml
import TypedEnv.Settings
import TypedEnv.Settings.Template
import TypedEnv.Text.Blank
import TypedEnv.Text.Case
import TypedEnv.Text.Cut
import TypedEnv.Text.Step
import TypedEnv.Text.Visible
import TypedEnv.Text.Word
import TypedEnv.Toml.Lexeme
import TypedEnv.Toml.Numeral
import TypedEnv.Toml.Parser
import TypedEnv.Toml.Table
import TypedEnv.Toml.Value
import TypedEnv.Volume
import TypedEnv.Proofs.Dict
import TypedEnv.Proofs.Meaning
import TypedEnv.Proofs.History
import TypedEnv.Proofs.Judgement
import TypedEnv.Proofs.EnvFile
import TypedEnv.Proofs.Populate
import TypedEnv.Proofs.Binary64
import TypedEnv.Proofs.Contract
import TypedEnv.Proofs.Reuse
import TypedEnv.Proofs.Typing
import TypedEnv.Proofs.Document
import TypedEnv.Proofs.SchemaDocument
import TypedEnv.Proofs.Json
import TypedEnv.Proofs.Strictness
import TypedEnv.Proofs.Formats
import TypedEnv.Proofs.Load
import TypedEnv.Proofs.Numeral
import TypedEnv.Proofs.ReadBack
import TypedEnv.Proofs.Configuration
import TypedEnv.Proofs.Pattern
import TypedEnv.Proofs.LineGrammar
import TypedEnv.Proofs.Interference
import TypedEnv.Proofs.Bounds
import TypedEnv.Proofs.Choice
import TypedEnv.Proofs.Courses
import TypedEnv.Proofs.Tightening
import TypedEnv.Proofs.Splitting
import TypedEnv.Proofs.WholeNumbers
import TypedEnv.Proofs.Address
import TypedEnv.Proofs.Display
import TypedEnv.Proofs.Layers
import TypedEnv.Proofs.JsonContinuation
import TypedEnv.Proofs.JsonLines
import TypedEnv.Proofs.KeyLines
import TypedEnv.Proofs.JsonReading
import TypedEnv.Proofs.JsonRoundTrip
import TypedEnv.Proofs.TomlNumerals
import TypedEnv.Proofs.TomlStrings
import TypedEnv.Proofs.TomlContinuation
import TypedEnv.Proofs.TomlLayout
import TypedEnv.Proofs.TomlReading
import TypedEnv.Proofs.TomlPlaces
import TypedEnv.Proofs.TomlLines
