import TokenScan.Text.Lines
import TokenScan.Text.Quoted
import TokenScan.Text.Utf8

/-!
Sources. A source is the text to scan together with the path shown for it and the table of its
lines. The table is determined by the text and is kept only so that it is computed once.
-/

namespace TokenScan

open Text

structure Source where
  path : String
  chars : List Char
  lines : List Line := Text.lines chars
  lines_eq : lines = Text.lines chars := by rfl

namespace Source

def ofChars (path : String) (chars : List Char) : Source :=
  { path, chars }

def ofText (path : String) (text : String) : Source :=
  ofChars path text.toList

def ofBytes (path : String) (bytes : List UInt8) : Except Utf8.Error Source :=
  (Utf8.decode bytes).map (ofChars path)

/-- A source is determined by its path and its characters. -/
@[ext]
theorem ext {first second : Source} (path : first.path = second.path)
    (chars : first.chars = second.chars) : first = second := by
  obtain ⟨_, _, _, rfl⟩ := first
  obtain ⟨_, _, _, rfl⟩ := second
  obtain rfl : _ = _ := path
  obtain rfl : _ = _ := chars
  rfl

def content (source : Source) : String :=
  String.ofList source.chars

/-- The number of bytes in the UTF-8 form of the text. -/
def size (source : Source) : Nat :=
  byteLength source.chars

/-- The number of lines. It is never zero, since the text after the last terminator counts. -/
def lineCount (source : Source) : Nat :=
  source.lines.length

/-- A line, counted from one, with its terminator. -/
def line? (source : Source) : Nat → Option (List Char)
  | 0 => none
  | number + 1 => source.lines[number]?.map Line.chars

def summary (source : Source) : String :=
  let ranges := source.lines.map fun line => s!"{line.start}..{line.stop}"
  "SourceFile \x7b full_path: " ++ quoted source.path.toList ++ ", lines: [" ++
    ", ".intercalate ranges ++ "], .. \x7d"

end Source

end TokenScan
