import TokenScan.Scan.Handler
import TokenScan.Source.Cursor
import TokenScan.Token.Grammar

/-!
Scanning. `Cursor.lex` reads one piece at a cursor, and `tokenize` repeats it until the source
ends or a character stops the scan. Each reading consumes at least one character, so the
repetition ends.
-/

namespace TokenScan

inductive LexError where
  /-- The character met cannot be accepted, so the scan must stop. -/
  | fatal
  /-- There was nothing left to read. -/
  | endOfSource
deriving Repr, DecidableEq

def LexError.message : LexError → String
  | fatal => "encountered a fatal lexical error that causes the process to stop."
  | endOfSource => "the cursor argument is at the end of the source code."

structure Lexed (Held : Type) where
  result : Except LexError (Option Token)
  cursor : Cursor
  held : Held

/-- Reads one piece at the cursor. What was read stays consumed when the scan must stop, and at
the end of the source nothing changes. -/
def Cursor.lex {Held : Type} (configuration : Configuration) (handler : Handler Held)
    (cursor : Cursor) (held : Held) : Lexed Held :=
  match Piece.next? configuration cursor.rest with
  | none => { result := .error .endOfSource, cursor, held }
  | some (piece, rest) =>
      { result :=
          if piece.isFatal then .error .fatal else .ok (piece.token? cursor.offset)
        cursor := cursor.past piece.text rest
        held := handler.receiveAll held
          ((piece.diagnostic? cursor.offset).toList.map (Report.mk cursor.source)) }

/-- Reading that did not fail left fewer characters to read. -/
theorem Cursor.rest_lex_lt {Held : Type} {configuration : Configuration} {handler : Handler Held}
    {cursor : Cursor} {held : Held} {token? : Option Token}
    (h : (cursor.lex configuration handler held).result = .ok token?) :
    (cursor.lex configuration handler held).cursor.rest.length < cursor.rest.length := by
  unfold lex at *
  split at h
  · cases h
  · next piece rest found =>
    exact Piece.length_lt_of_next? found

def tokenizeFrom {Held : Type} (configuration : Configuration) (handler : Handler Held)
    (cursor : Cursor) (held : Held) (found : Array Token) :
    Except LexError (List Token) × Held :=
  let lexed := cursor.lex configuration handler held
  match _ : lexed.result with
  | .error .endOfSource => (.ok found.toList, lexed.held)
  | .error .fatal => (.error .fatal, lexed.held)
  | .ok token? =>
      tokenizeFrom configuration handler lexed.cursor lexed.held (found ++ token?.toList)
termination_by cursor.rest.length
decreasing_by exact Cursor.rest_lex_lt ‹_›

/-- Scans a source from its beginning. The answer is its tokens in order, or the reason why the
scan stopped, and what the handler holds afterwards. -/
def tokenize {Held : Type} (configuration : Configuration) (handler : Handler Held)
    (source : Source) (held : Held) : Except LexError (List Token) × Held :=
  tokenizeFrom configuration handler source.cursor held #[]

/-- The tokens of a text under the default configuration, without regard to its diagnostics. The
full grammar accepts every text, so there is always an answer. -/
def tokenizeText (text : String) : List Token :=
  match (tokenize {} Handler.discard (Source.ofText "<string>" text) ()).1 with
  | .ok tokens => tokens
  | .error _ => []

end TokenScan
