import TokenScan.Diagnostic.Excerpt
import TokenScan.Diagnostic.Message
import TokenScan.Token.Basic

/-!
The wording of diagnostics. A report is shown as a message that states the problem, followed by
an excerpt of the source with the span concerned and, for some problems, a help text.
-/

namespace TokenScan

open Text Styled Printed

namespace Problem

/-- What the message says about the problem, given the offset where it was met. -/
def text (start : Nat) : Problem → String
  | unterminatedString => "found an unterminated string literal"
  | unterminatedBlockComment => "found an unclosed `/*` comment"
  | numericOverflow => "numeric literal is too large"
  | unexpectedCharacter c =>
      "unexpected character `" ++ String.ofList (escape c) ++ "` at offset " ++ toString start

/-- What the excerpt adds about the consequences of the problem. -/
def help? : Problem → Option String
  | unterminatedString => some "the text from here to the end of the source is ignored"
  | numericOverflow => some ("the value is clamped to " ++ toString Lexeme.largestNumber)
  | unterminatedBlockComment | unexpectedCharacter _ => none

end Problem

def Report.printed (report : Report) : Printed :=
  let diagnostic := report.diagnostic
  let span := diagnostic.span
  let message := diagnostic.severity.message (diagnostic.problem.text span.start)
  (write (concat [message, "\n"])).andThen
    (Excerpt.ofSpan report.source span diagnostic.problem.help?).printed

end TokenScan
