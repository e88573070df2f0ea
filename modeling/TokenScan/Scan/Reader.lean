import TokenScan.Scan.Basic

/-!
Readers. A reader is a cursor with a stack of earlier positions to which it can return, so that
reading ahead can be undone. It is driven by actions, each of which has an answer.
-/

namespace TokenScan

inductive Reader.Action where
  | next
  | peek
  | isAtEnd
  | startsWith (pattern : List Char)
  | eatWhile (condition : Char → Bool)
  | take (count : Nat)
  | spanFrom (start : Nat)
  | lex (configuration : Configuration)
  /-- Remembers the position. -/
  | save
  /-- Returns to the position remembered last, and forgets it. -/
  | restore

inductive Reader.Answer where
  | done
  | truth (holds : Bool)
  | character (found : Option Char)
  | item (found : Option (Nat × Char))
  | items (found : List (Nat × Char))
  | span (found : Option Span)
  | lexed (result : Except LexError (Option Token)) (diagnostics : List Diagnostic)

/-- A cursor and the positions to which it can return, the latest one first. -/
structure Reader where
  cursor : Cursor
  saved : List Cursor := []

namespace Reader

def ofSource (source : Source) : Reader :=
  { cursor := source.cursor }

def perform (reader : Reader) : Action → Answer × Reader
  | .next =>
      match reader.cursor.next? with
      | none => (.item none, reader)
      | some (item, cursor) => (.item (some item), { reader with cursor })
  | .peek => (.character reader.cursor.peek?, reader)
  | .isAtEnd => (.truth reader.cursor.isAtEnd, reader)
  | .startsWith pattern => (.truth (reader.cursor.startsWith pattern), reader)
  | .eatWhile condition => (.done, { reader with cursor := reader.cursor.eatWhile condition })
  | .take count =>
      let (items, cursor) := reader.cursor.take count
      (.items items, { reader with cursor })
  | .spanFrom start => (.span (reader.cursor.spanFrom? start), reader)
  | .lex configuration =>
      let lexed := reader.cursor.lex configuration Handler.store #[]
      (.lexed lexed.result (lexed.held.toList.map Report.diagnostic),
        { reader with cursor := lexed.cursor })
  | .save => (.done, { reader with saved := reader.cursor :: reader.saved })
  | .restore =>
      match reader.saved with
      | [] => (.truth false, reader)
      | cursor :: saved => (.truth true, { cursor, saved })

/-- Carries out actions in order. The result has the answer to each, and the offset of the
cursor after it. -/
def performAll (reader : Reader) : List Action → List (Answer × Nat)
  | [] => []
  | action :: rest =>
      let (answer, next) := reader.perform action
      (answer, next.cursor.offset) :: next.performAll rest

end Reader

end TokenScan
