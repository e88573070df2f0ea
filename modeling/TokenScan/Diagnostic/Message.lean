import TokenScan.Diagnostic.Basic
import TokenScan.Styled

/-!
Messages. A message is one line that begins with its severity.
-/

namespace TokenScan

open Styled

namespace Severity

def heading : Severity → Styled
  | warning => painted .yellow "[warning]:"
  | error => painted .red "[error]:"

def message (severity : Severity) (content : String) : Styled :=
  concat [painted .bold severity.heading, " ", painted .bold content]

end Severity

end TokenScan
