import Worksheet.Config.Reading
import Worksheet.Search.Evaluator
import Worksheet.Proofs.Decimal.Word
import Worksheet.Proofs.Decimal.Nearest
import Worksheet.Proofs.Decimal.Numeral
import Worksheet.Proofs.Decimal.Notation
import Worksheet.Proofs.Json.Quoted
import Worksheet.Proofs.Search.Memo
import Worksheet.Proofs.Search.Problem
import Worksheet.Proofs.Search.Evaluation
import Worksheet.Proofs.Search.LockStep
import Worksheet.Proofs.Source.Assignment
import Worksheet.Proofs.Text.Trim
import Worksheet.Proofs.Source.Slot
import Worksheet.Proofs.Source.Refill
import Worksheet.Proofs.Source.Line
import Worksheet.Proofs.Text.Row
import Worksheet.Proofs.Source.Variables
import Worksheet.Proofs.Source.Columns
import Worksheet.Proofs.Source.Substitution
import Worksheet.Proofs.Source.Overwriting
import Worksheet.Proofs.Search.PathIndependence
import Worksheet.Proofs.Source.Grammar
import Worksheet.Proofs.Result.Scalar
import Worksheet.Proofs.Markup.Plain
import Worksheet.Proofs.Result.Opening
import Worksheet.Proofs.Result.PlainText
import Worksheet.Proofs.Markup.Lexing
import Worksheet.Proofs.Text.NormalForm
import Worksheet.Proofs.Markup.Lines
import Worksheet.Proofs.Result.Blocks
import Worksheet.Proofs.Result.Tails
import Worksheet.Proofs.Source.Expansion
import Worksheet.Proofs.Source.LeftSides
import Worksheet.Proofs.Source.LongestAlias
import Worksheet.Proofs.Source.Assigned
import Worksheet.Proofs.Search.Reported
import Worksheet.Proofs.Search.Scoring
import Worksheet.Proofs.Run
import Worksheet.Proofs.Search.Fifo
import Worksheet.Proofs.Search.Capacity
import Worksheet.Proofs.Source.Reread
import Worksheet.Proofs.Source.Batch
import Worksheet.Proofs.Stages
import Worksheet.Proofs.Text.Letters
import Worksheet.Proofs.Text.Projection
import Worksheet.Proofs.Markup.Splitting
import Worksheet.Proofs.Markup.Nesting
import Worksheet.Proofs.Markup.Naming
import Worksheet.Proofs.Markup.Fraction
import Worksheet.Proofs.Markup.Reading
import Worksheet.Proofs.Markup.Recasing
import Worksheet.Proofs.Markup.LetterCase
import Worksheet.Proofs.Result.LetterCase
import Worksheet.Proofs.Source.Functions
import Worksheet.Proofs.Markup.Printing
import Worksheet.Proofs.Result.StyledUnit
import Worksheet.Proofs.Source.Comments
import Worksheet.Proofs.Source.CodeAlone
import Worksheet.Proofs.Text.Parts
import Worksheet.Proofs.Source.UnitToken
import Worksheet.Proofs.Decimal.Value
import Worksheet.Proofs.Result.LeadingNumeral
import Worksheet.Proofs.Source.Spans
import Worksheet.Proofs.Result.Views
