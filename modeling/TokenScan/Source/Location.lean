import TokenScan.Source.Basic

/-!
Locations. A location names a place in a source by line and column, both counted from one, and
the column counts characters. A byte offset has a location when it lies between two characters
or at an end of the source. The offset just after a terminator already belongs to the next
line, while the place between the two characters of a terminator still belongs to the line they
end.
-/

namespace TokenScan

open Text

structure Location where
  line : Nat := 0
  column : Nat := 0
deriving Repr, DecidableEq, Inhabited

namespace Location

def text (location : Location) : String :=
  s!"{location.line}:{location.column}"

/-- Line first, then column. -/
def order (first second : Location) : Ordering :=
  (compare first.line second.line).then (compare first.column second.column)

instance : Ord Location := ⟨order⟩

def isBefore (first second : Location) : Bool :=
  (first.order second).isLT

end Location

/-- The last of the lines that starts at or before the offset, with its number, given the number
of the first one. -/
def Text.Line.holding? (offset : Nat) (number : Nat) : List Line → Option (Nat × Line)
  | [] => none
  | [line] => some (number, line)
  | line :: next :: rest =>
      if next.start ≤ offset then holding? offset (number + 1) (next :: rest)
      else some (number, line)

namespace Source

/-- The location of a byte offset. There is none for an offset inside a character or past the
end. -/
def location? (source : Source) (offset : Nat) : Option Location :=
  (Line.holding? offset 1 source.lines).bind fun (number, line) =>
    (splitAt? line.chars (offset - line.start)).map fun (before, _) =>
      ⟨number, before.length + 1⟩

/-- The location of a byte offset known to have one. -/
def location (source : Source) (offset : Nat) : Location :=
  (source.location? offset).getD default

end Source

end TokenScan
