import CallForm.Command.Arguments
import CallForm.Command.Run
import CallForm.Compiler
import CallForm.Config.Decode
import CallForm.Config.KeyPath
import CallForm.Config.Stack
import CallForm.Config.Value
import CallForm.Conversion.Calls
import CallForm.Conversion.Walk
import CallForm.Decimal.Shortest
import CallForm.Drawing
import CallForm.Event
import CallForm.Files
import CallForm.Inspection
import CallForm.Inspection.Spec
import CallForm.Json
import CallForm.Json.Numeral
import CallForm.Json.Reader
import CallForm.Json.Writer
import CallForm.Main
import CallForm.Proofs.Command.Outcome
import CallForm.Proofs.Compiler
import CallForm.Proofs.Compiler.Events
import CallForm.Proofs.Compiler.Juxtaposition
import CallForm.Proofs.Compiler.Lowering
import CallForm.Proofs.Compiler.Tokens
import CallForm.Proofs.Compiler.Unambiguous
import CallForm.Proofs.Config.Keys
import CallForm.Proofs.Config.Layers
import CallForm.Proofs.Config.Readable
import CallForm.Proofs.Config.Winners
import CallForm.Proofs.Conversion.Callbacks
import CallForm.Proofs.Conversion.Calls
import CallForm.Proofs.Conversion.Inverse
import CallForm.Proofs.Conversion.Logs
import CallForm.Proofs.Drawing.Outline
import CallForm.Proofs.Drawing.Unambiguous
import CallForm.Proofs.InTurn
import CallForm.Proofs.Inspection
import CallForm.Proofs.Inspection.Faithful
import CallForm.Proofs.Inspection.Spec
import CallForm.Proofs.Json.Layout
import CallForm.Proofs.Json.Order
import CallForm.Proofs.Json.Reading
import CallForm.Proofs.Json.Strings
import CallForm.Proofs.Json.Within
import CallForm.Proofs.Source.Acceptance
import CallForm.Proofs.Source.Canonical
import CallForm.Proofs.Source.ClosedCalls
import CallForm.Proofs.Source.DepthLimit
import CallForm.Proofs.Source.Descent
import CallForm.Proofs.Source.Faults
import CallForm.Proofs.Source.OpenCalls
import CallForm.Proofs.Source.Shape
import CallForm.Proofs.Tagged.Forms
import CallForm.Proofs.Tagged.Nested
import CallForm.Proofs.Tagged.Represents
import CallForm.Proofs.Tagged.RoundTrip
import CallForm.Proofs.Tagged.Written
import CallForm.Proofs.Target.Check
import CallForm.Proofs.Target.Code
import CallForm.Proofs.Target.Described
import CallForm.Proofs.Target.Lines
import CallForm.Proofs.Target.Shape
import CallForm.Proofs.Target.Strings
import CallForm.Proofs.Token.Agreement
import CallForm.Proofs.Token.Concatenation
import CallForm.Proofs.Token.Policies
import CallForm.Proofs.Token.Runs
import CallForm.Proofs.Token.Seams
import CallForm.Proofs.Token.Spans
import CallForm.Proofs.Yaml.Block
import CallForm.Proofs.Yaml.Words
import CallForm.Settings
import CallForm.Source.Descent
import CallForm.Source.Node
import CallForm.Source.Reading
import CallForm.Tagged.Read
import CallForm.Tagged.Text
import CallForm.Tagged.Write
import CallForm.Target.Check
import CallForm.Target.Code
import CallForm.Target.Node
import CallForm.Text.Blank
import CallForm.Text.Cased
import CallForm.Text.Hidden
import CallForm.Text.Lower
import CallForm.Text.Quoted
import CallForm.Token
import CallForm.Token.Cursor
import CallForm.Token.Lexeme
import CallForm.Toml.Document
import CallForm.Toml.Number
import CallForm.Toml.Text
import CallForm.Toml.Value
import CallForm.Yaml.Block
import CallForm.Yaml.Scalar
