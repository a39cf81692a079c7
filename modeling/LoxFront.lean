import LoxFront.CommandLine.Directory
import LoxFront.Cursor
import LoxFront.Expr.Assembly
import LoxFront.Lexer
import LoxFront.Main
import LoxFront.Proofs.CommandLine.Outcome
import LoxFront.Proofs.CommandLine.Requests
import LoxFront.Proofs.CommandLine.Session
import LoxFront.Proofs.CommandLine.Verbosity
import LoxFront.Proofs.CommandLine.Writes
import LoxFront.Proofs.Cursor.Safety
import LoxFront.Proofs.Expr.Comparison
import LoxFront.Proofs.Expr.Preorder
import LoxFront.Proofs.Expr.Skeleton
import LoxFront.Proofs.Lexer.Fused
import LoxFront.Proofs.Lexer.Lines
import LoxFront.Proofs.Lexer.Lookahead
import LoxFront.Proofs.Report.Desk
import LoxFront.Proofs.Scan.CarriageReturns
import LoxFront.Proofs.Scan.Comments
import LoxFront.Proofs.Scan.Isolation
import LoxFront.Proofs.Scan.Layout
import LoxFront.Proofs.Scan.LineEnds
import LoxFront.Proofs.Scan.Listing
import LoxFront.Proofs.Scan.Log
import LoxFront.Proofs.Scan.OpenStrings
import LoxFront.Proofs.Scan.Reading
import LoxFront.Proofs.Scan.Tokens
import LoxFront.Proofs.CommandLine.Trimming
import LoxFront.Proofs.Binary64.Ranks
import LoxFront.Proofs.Binary64.Rounding
import LoxFront.Proofs.Binary64.Value
import LoxFront.Proofs.Decimal.Value
import LoxFront.Proofs.Scan.Equality
import LoxFront.Proofs.Scan.Numbers
import LoxFront.Proofs.Binary64.Shortest
import LoxFront.Proofs.Decimal.Notation
import LoxFront.Proofs.Scan.Printing
