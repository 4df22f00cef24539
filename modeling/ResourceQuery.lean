import ResourceQuery.Command.Run
import ResourceQuery.Event
import ResourceQuery.Json.Reader
import ResourceQuery.Listing
import ResourceQuery.Main
import ResourceQuery.Scan
import ResourceQuery.Token.Json
import ResourceQuery.Proofs.Command.Agreement
import ResourceQuery.Proofs.Command.LineBreaks
import ResourceQuery.Proofs.DecisionList
import ResourceQuery.Proofs.Grammar.ComparisonValue
import ResourceQuery.Proofs.Grammar.Enclosure
import ResourceQuery.Proofs.Grammar.Moves
import ResourceQuery.Proofs.Grammar.Nesting
import ResourceQuery.Proofs.Grammar.Sentence
import ResourceQuery.Proofs.Grammar.Viability
import ResourceQuery.Proofs.Json.Numeral
import ResourceQuery.Proofs.Json.RoundTrip
import ResourceQuery.Proofs.Json.Scalar
import ResourceQuery.Proofs.Lexeme.Ascii
import ResourceQuery.Proofs.Lexeme.Classification
import ResourceQuery.Proofs.Lexeme.Delimiter
import ResourceQuery.Proofs.Lexeme.Fault
import ResourceQuery.Proofs.Lexeme.Form
import ResourceQuery.Proofs.Lexeme.Lookahead
import ResourceQuery.Proofs.Lexeme.Name
import ResourceQuery.Proofs.Lexeme.Number
import ResourceQuery.Proofs.Lexeme.Promise
import ResourceQuery.Proofs.Lexeme.Reading
import ResourceQuery.Proofs.Lexeme.Respelling
import ResourceQuery.Proofs.Lexeme.Seam
import ResourceQuery.Proofs.Lexeme.Spelling
import ResourceQuery.Proofs.Lexeme.Trailing
import ResourceQuery.Proofs.Literal.Date
import ResourceQuery.Proofs.Literal.Delimiter
import ResourceQuery.Proofs.Literal.Encoding
import ResourceQuery.Proofs.Literal.Extent
import ResourceQuery.Proofs.Literal.Numeral
import ResourceQuery.Proofs.Literal.Runs
import ResourceQuery.Proofs.Literal.Span
import ResourceQuery.Proofs.Scan.Bounds
import ResourceQuery.Proofs.Scan.Casting
import ResourceQuery.Proofs.Scan.Composition
import ResourceQuery.Proofs.Scan.Enclosure
import ResourceQuery.Proofs.Scan.Escaping
import ResourceQuery.Proofs.Scan.Insertion
import ResourceQuery.Proofs.Scan.Passage
import ResourceQuery.Proofs.Scan.Promise
import ResourceQuery.Proofs.Scan.Rejection
import ResourceQuery.Proofs.Scan.Respelling
import ResourceQuery.Proofs.Scan.Seam
import ResourceQuery.Proofs.Scan.Sign
import ResourceQuery.Proofs.Scan.Tiling
import ResourceQuery.Proofs.Scan.TimePart
import ResourceQuery.Proofs.Scan.Truncation
import ResourceQuery.Proofs.Text.Quoted
import ResourceQuery.Proofs.Token.Interchange
import ResourceQuery.Proofs.TokenStream.Columns
import ResourceQuery.Proofs.TokenStream.Cursor
import ResourceQuery.Proofs.TokenStream.Interchange
import ResourceQuery.Proofs.TokenStream.Listing
