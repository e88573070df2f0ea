import TokenScan.Source.Location

/-!
Spans. A span is a range of byte offsets into a source. The source itself is not part of it, so
spans of different sources may be equal. A pair of offsets makes a span of a source only if they
are in order and each lies between two characters.
-/

namespace TokenScan

open Text

/-- A range of byte offsets, from `start` up to but not including `stop`. -/
structure Span where
  start : Nat
  stop : Nat
deriving Repr, DecidableEq, Inhabited

namespace Span

/-- By the start, then by the end. -/
def order (first second : Span) : Ordering :=
  (compare first.start second.start).then (compare first.stop second.stop)

instance : Ord Span := ⟨order⟩

end Span

namespace Source

def span? (source : Source) (start stop : Nat) : Option Span :=
  (slice? source.chars start stop).map fun _ => ⟨start, stop⟩

def charsIn (source : Source) (span : Span) : List Char :=
  (slice? source.chars span.start span.stop).getD []

def textIn (source : Source) (span : Span) : String :=
  String.ofList (source.charsIn span)

def spanSummary (source : Source) (span : Span) : String :=
  "Span \x7b start: " ++ toString span.start ++ ", end: " ++ toString span.stop ++
    ", content: " ++ quoted (source.charsIn span) ++ " \x7d"

end Source

end TokenScan
