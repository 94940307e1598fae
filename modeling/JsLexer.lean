import JsLexer.Main
import JsLexer.Proofs.Cut
import JsLexer.Proofs.Extension
import JsLexer.Proofs.Lossless
import JsLexer.Proofs.Restart
import JsLexer.Proofs.Separator
import JsLexer.Proofs.Interchange
import JsLexer.Proofs.Priority
import JsLexer.Proofs.Failure
import JsLexer.Proofs.LiteralWord
import JsLexer.Proofs.Completion
import JsLexer.Proofs.Replacement
import JsLexer.Proofs.LineEnding
import JsLexer.Proofs.Demand
import JsLexer.Proofs.Progress
import JsLexer.Proofs.PlainCursor
import JsLexer.Proofs.Session.FirstLine
import JsLexer.Proofs.Session.Grouping
import JsLexer.Proofs.Session.Transcript
import JsLexer.Proofs.Json.Skipping
import JsLexer.Proofs.Json.InStep
import JsLexer.Proofs.Json.Meaning
import JsLexer.Proofs.Json.Items
import JsLexer.Proofs.Json.RecordMeaning
import JsLexer.Proofs.Json.RecordRefusal
import JsLexer.Proofs.Json.Truncation
import JsLexer.Proofs.TokenSpelling
import JsLexer.Proofs.Truncation
import JsLexer.Proofs.TokenPosition
import JsLexer.Proofs.StringOutcome
import JsLexer.Proofs.Session.Settings
import JsLexer.Proofs.FrontEnd
import JsLexer.Proofs.LongestPrefix
import JsLexer.Proofs.Outcome
import JsLexer.Proofs.NumeralOutcome
import JsLexer.Proofs.NameOutcome
import JsLexer.Proofs.PunctuatorOutcome
import JsLexer.Proofs.CommentOutcome
import JsLexer.Proofs.Quotes.Symmetry
import JsLexer.Proofs.Display.Highlight
import JsLexer.Proofs.Display.Row
import JsLexer.Proofs.Report
