import TokenScan.Scan.Basic

/-!
Sessions. In a session several sources are scanned one after another, and their reports are kept
in one store. A scan may instead drop its reports.
-/

namespace TokenScan.Session

structure Request where
  source : Source
  configuration : Configuration
  /-- Whether the reports of this scan are dropped. -/
  dropped : Bool := false

/-- The outcome of a scan in a session, and the number of reports kept when it was over. -/
structure Entry where
  result : Except LexError (List Token)
  stored : Nat

namespace Request

def run (request : Request) (kept : Array Report) :
    Except LexError (List Token) × Array Report :=
  let handler := if request.dropped then Handler.discard else Handler.store
  tokenize request.configuration handler request.source kept

def runAll (kept : Array Report) : List Request → List Entry × Array Report
  | [] => ([], kept)
  | request :: rest =>
      let (result, next) := request.run kept
      let (entries, last) := runAll next rest
      ({ result, stored := next.size } :: entries, last)

end Request

end TokenScan.Session
