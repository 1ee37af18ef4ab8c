import Placeholder.BindError
import Placeholder.Binding
import Placeholder.Bound.Expand
import Placeholder.Bound.Index
import Placeholder.Bound.Query
import Placeholder.Bound.Resolve
import Placeholder.Command.Arguments
import Placeholder.Command.Basic
import Placeholder.Command.Bindings
import Placeholder.Command.Directory
import Placeholder.Command.Failure
import Placeholder.Command.Invocation
import Placeholder.Command.Outcome
import Placeholder.Decimal.Layout
import Placeholder.Decimal.Shortest
import Placeholder.Environment
import Placeholder.Event
import Placeholder.Json.Basic
import Placeholder.Json.Encoding
import Placeholder.Json.Numeral
import Placeholder.Json.Reader
import Placeholder.Json.Text
import Placeholder.Json.Writer
import Placeholder.Listing
import Placeholder.Main
import Placeholder.Proofs.Accounts
import Placeholder.Proofs.Agreement
import Placeholder.Proofs.Boundaries
import Placeholder.Proofs.ByteOrder
import Placeholder.Proofs.Comments
import Placeholder.Proofs.Doubling
import Placeholder.Proofs.Expansion
import Placeholder.Proofs.Faults
import Placeholder.Proofs.Flatness
import Placeholder.Proofs.Grammar
import Placeholder.Proofs.Indices
import Placeholder.Proofs.JsonScalars
import Placeholder.Proofs.JsonValues
import Placeholder.Proofs.Layers
import Placeholder.Proofs.Lines
import Placeholder.Proofs.LiteralLines
import Placeholder.Proofs.OneBased
import Placeholder.Proofs.Openings
import Placeholder.Proofs.Options
import Placeholder.Proofs.Outcomes
import Placeholder.Proofs.Passes
import Placeholder.Proofs.Precedence
import Placeholder.Proofs.Ranks
import Placeholder.Proofs.Reach
import Placeholder.Proofs.Readback
import Placeholder.Proofs.Relexing
import Placeholder.Proofs.Replacement
import Placeholder.Proofs.Rereading
import Placeholder.Proofs.Resolution
import Placeholder.Proofs.Results
import Placeholder.Proofs.Rewriting
import Placeholder.Proofs.Shape
import Placeholder.Proofs.Spelling
import Placeholder.Proofs.Splitting
import Placeholder.Proofs.Stability
import Placeholder.Proofs.Streaming
import Placeholder.Proofs.Tiling
import Placeholder.Proofs.TokenLines
import Placeholder.Span
import Placeholder.Text.Bytes
import Placeholder.Text.Digits
import Placeholder.Text.Quoted
import Placeholder.Token.Basic
import Placeholder.Token.Form
import Placeholder.Token.Lexeme
import Placeholder.Token.Piece
import Placeholder.Token.Stream
import Placeholder.Traced
import Placeholder.Unicode.DecimalDigit
import Placeholder.Unicode.Hidden
import Placeholder.Unicode.Letter
import Placeholder.Unicode.Ranges
import Placeholder.Value
