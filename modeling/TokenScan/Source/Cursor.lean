import TokenScan.Source.Span

/-!
Cursors. A cursor is a place in a source from which characters are read, forward only. It holds
the byte offset of the next character and the characters still to come.
-/

namespace TokenScan

open Text

structure Cursor where
  source : Source
  offset : Nat
  rest : List Char

def Source.cursor (source : Source) : Cursor :=
  { source, offset := 0, rest := source.chars }

namespace Cursor

def peek? (cursor : Cursor) : Option Char :=
  cursor.rest.head?

def isAtEnd (cursor : Cursor) : Bool :=
  cursor.rest.isEmpty

def startsWith (cursor : Cursor) (pattern : List Char) : Bool :=
  pattern.isPrefixOf cursor.rest

/-- The cursor after some characters it was about to read, given those that remain. -/
def past (cursor : Cursor) (read rest : List Char) : Cursor :=
  { cursor with offset := cursor.offset + byteLength read, rest }

def next? (cursor : Cursor) : Option ((Nat × Char) × Cursor) :=
  match cursor.rest with
  | [] => none
  | c :: rest => some ((cursor.offset, c), cursor.past [c] rest)

def eatWhile (cursor : Cursor) (condition : Char → Bool) : Cursor :=
  cursor.past (cursor.rest.takeWhile condition) (cursor.rest.dropWhile condition)

/-- At most the given number of characters with their offsets, and the cursor after them. -/
def take (cursor : Cursor) : Nat → List (Nat × Char) × Cursor
  | 0 => ([], cursor)
  | count + 1 =>
      match cursor.next? with
      | none => ([], cursor)
      | some (item, after) =>
          let (items, last) := after.take count
          (item :: items, last)

/-- The span from an offset up to the cursor, if they make one. -/
def spanFrom? (cursor : Cursor) (start : Nat) : Option Span :=
  cursor.source.span? start cursor.offset

end Cursor

end TokenScan
