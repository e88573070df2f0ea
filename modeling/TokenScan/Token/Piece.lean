import TokenScan.Diagnostic.Basic
import TokenScan.Text.Decimal
import TokenScan.Token.Basic

/-!
Pieces. The grammars cut a text into pieces: blanks, comments, and what becomes tokens. A piece
knows the exact text it was read from, whether or not it was properly closed, so that the pieces
of a text in order give the text back. What a piece means, its token and its diagnostic, is a
function of the piece alone.
-/

namespace TokenScan

open Text

inductive Piece where
  /-- A blank, which separates and means nothing. -/
  | blank (c : Char)
  /-- Two slashes and the text up to the end of the line. `ended` tells whether a line feed
  stands there, which is part of the comment, or the text ends. -/
  | lineComment (body : List Char) (ended : Bool)
  /-- The text from a slash and a star up to a star and a slash. A comment that is not closed
  runs to the end of the text. -/
  | blockComment (body : List Char) (closed : Bool)
  /-- The text from one double quote up to the next. A string that is not closed runs to the end
  of the text. -/
  | string (content : List Char) (closed : Bool)
  | keyword (word : Keyword)
  | operator (c : Char)
  /-- A letter and the letters and digits after it. -/
  | identifier (name : List Char)
  /-- A run of digits. -/
  | number (digits : List Char)
  /-- A character that no other rule of the full grammar accounts for. -/
  | symbol (c : Char)
  /-- A character that the arithmetic grammar has no rule for. -/
  | unexpected (c : Char)
deriving Repr, DecidableEq

namespace Piece

def text : Piece → List Char
  | blank c => [c]
  | lineComment body ended => ['/', '/'] ++ body ++ (if ended then ['\n'] else [])
  | blockComment body closed => ['/', '*'] ++ body ++ (if closed then ['*', '/'] else [])
  | string content closed => ['"'] ++ content ++ (if closed then ['"'] else [])
  | keyword word => word.letters
  | operator c => [c]
  | identifier name => name
  | number digits => digits
  | symbol c => [c]
  | unexpected c => [c]

/-- The number that a run of digits denotes, unless it exceeds the largest. -/
def readNumeral? (digits : List Char) : Option Nat :=
  Decimal.readUpTo? Lexeme.largestNumber digits

/-- The lexeme that the piece contributes, if it contributes one. A number past the largest is
taken to be the largest. -/
def lexeme? : Piece → Option Lexeme
  | blank _ | lineComment _ _ | blockComment _ _ | unexpected _ => none
  | string content closed => if closed then some (.string content) else none
  | keyword word => some (.keyword word)
  | operator c => some (.operator c)
  | identifier name => some (.identifier name)
  | number digits => some (.number ((readNumeral? digits).getD Lexeme.largestNumber))
  | symbol c => some (.symbol c)

def token? (start : Nat) (piece : Piece) : Option Token :=
  piece.lexeme?.map fun lexeme => ⟨⟨start, start + byteLength piece.text⟩, lexeme⟩

/-- What is wrong with the piece, if anything, and the part of it from its beginning that is
concerned. An opener that is never closed is itself what is concerned. -/
def problem? : Piece → Option (Problem × List Char)
  | string _ false => some (.unterminatedString, ['"'])
  | blockComment _ false => some (.unterminatedBlockComment, ['/', '*'])
  | number digits =>
      if (readNumeral? digits).isNone then some (.numericOverflow, digits) else none
  | unexpected c => some (.unexpectedCharacter c, [c])
  | _ => none

def diagnostic? (start : Nat) (piece : Piece) : Option Diagnostic :=
  piece.problem?.map fun (problem, concerned) =>
    ⟨⟨start, start + byteLength concerned⟩, problem⟩

/-- Whether nothing can be read after the piece. -/
def isFatal : Piece → Bool
  | unexpected _ => true
  | _ => false

end Piece

end TokenScan
