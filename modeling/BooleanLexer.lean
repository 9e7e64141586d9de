import BooleanLexer.Main
import BooleanLexer.Session
import BooleanLexer.Proofs.Cursor.Runs
import BooleanLexer.Proofs.Item.Shift
import BooleanLexer.Proofs.Session.Bookmark
import BooleanLexer.Proofs.Session.Refinement
import BooleanLexer.Proofs.Item.Concatenation
import BooleanLexer.Proofs.Item.Errors
import BooleanLexer.Proofs.Utf8.Characters
import BooleanLexer.Proofs.Scan.Acceptance
import BooleanLexer.Proofs.Cursor.Loops
import BooleanLexer.Proofs.Cursor.Restart
import BooleanLexer.Proofs.Scan.Agreement
import BooleanLexer.Proofs.Text.Lines
import BooleanLexer.Proofs.Text.Numerals
import BooleanLexer.Proofs.Text.Quoted
import BooleanLexer.Proofs.Report.Entries
import BooleanLexer.Proofs.Json.Reader
import BooleanLexer.Proofs.Report.Columns
import BooleanLexer.Proofs.Json.Strings
import BooleanLexer.Proofs.Json.Layout
import BooleanLexer.Proofs.Json.Records
import BooleanLexer.Proofs.Report.Records
import BooleanLexer.Proofs.Item.Words
import BooleanLexer.Proofs.Files.Writing
import BooleanLexer.Proofs.Scan.Effects
import BooleanLexer.Proofs.Scan.Spacing
import BooleanLexer.Proofs.Literal.Letters
import BooleanLexer.Proofs.Token.Canonical
import BooleanLexer.Proofs.Item.Edits
import BooleanLexer.Proofs.Token.Concatenation
import BooleanLexer.Proofs.Utf8.Pieces
import BooleanLexer.Proofs.Utf8.RoundTrip
import BooleanLexer.Proofs.Utf8.Repairs
import BooleanLexer.Proofs.Scan.Location
import BooleanLexer.Proofs.Scan.Transcript
import BooleanLexer.Proofs.CommandLine.Requests
import BooleanLexer.Proofs.CommandLine.Routes
import BooleanLexer.Proofs.Text.Runs
import BooleanLexer.Proofs.Item.Pairing
import BooleanLexer.Proofs.Item.Spellings
import BooleanLexer.Proofs.Utf8.Faults
import BooleanLexer.Proofs.Scan.Warning
import BooleanLexer.Proofs.Scan.Concatenation
import BooleanLexer.Proofs.Literal.Codec
import BooleanLexer.Proofs.Token.Negation
import BooleanLexer.Proofs.Token.Display
import BooleanLexer.Proofs.Cursor.Calls
import BooleanLexer.Proofs.Literal.Order
import BooleanLexer.Proofs.Checked.Words
import BooleanLexer.Proofs.Checked.Reading
import BooleanLexer.Proofs.Checked.Report
