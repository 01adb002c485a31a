import LetIf.Command
import LetIf.Descent
import LetIf.Diagnostic
import LetIf.Duration
import LetIf.Expr
import LetIf.Folder
import LetIf.Grammar.Reading
import LetIf.Grammar.Rules
import LetIf.Lexeme
import LetIf.Lexer
import LetIf.Log
import LetIf.Main
import LetIf.Numeral
import LetIf.Options
import LetIf.Outline
import LetIf.Parse
import LetIf.Position
import LetIf.Program
import LetIf.Proofs.Arguments
import LetIf.Proofs.Command
import LetIf.Proofs.Consumption
import LetIf.Proofs.Conversion
import LetIf.Proofs.Descent
import LetIf.Proofs.Diagnostics
import LetIf.Proofs.FirstRefusal
import LetIf.Proofs.Grammar.Derivation
import LetIf.Proofs.Grammar.Programs
import LetIf.Proofs.Grammar.Recognition
import LetIf.Proofs.Grammar.Traversal
import LetIf.Proofs.Grammar.Verdict
import LetIf.Proofs.Grammar.Vocabulary
import LetIf.Proofs.Indifference
import LetIf.Proofs.Joining
import LetIf.Proofs.Layout
import LetIf.Proofs.Lexeme
import LetIf.Proofs.Lexer
import LetIf.Proofs.LineEndings
import LetIf.Proofs.Listing
import LetIf.Proofs.Literals
import LetIf.Proofs.Log
import LetIf.Proofs.Loop
import LetIf.Proofs.Numeral
import LetIf.Proofs.Options
import LetIf.Proofs.Parse
import LetIf.Proofs.Places
import LetIf.Proofs.Queue
import LetIf.Proofs.Records
import LetIf.Proofs.Refusal
import LetIf.Proofs.Requests
import LetIf.Proofs.RoundTrip
import LetIf.Proofs.RowByRow
import LetIf.Proofs.RowGroups
import LetIf.Proofs.Scan
import LetIf.Proofs.Segmentation
import LetIf.Proofs.Spans
import LetIf.Proofs.Stream
import LetIf.Proofs.Text.Cursor
import LetIf.Proofs.Text.OneRow
import LetIf.Proofs.Text.Quoted
import LetIf.Proofs.Text.Rows
import LetIf.Proofs.Tree
import LetIf.Scan
import LetIf.Stream
import LetIf.Text.Blank
import LetIf.Text.Combining
import LetIf.Text.Cursor
import LetIf.Text.Quoted
import LetIf.Text.Ranges
import LetIf.Text.Rows
import LetIf.Text.Unprintable
import LetIf.Text.Utf8
import LetIf.Token
