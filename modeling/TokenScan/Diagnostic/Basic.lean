import TokenScan.Source.Span

/-!
Diagnostics. A diagnostic is a problem met by a scan and the span it concerns. Only a character
that the grammar has no rule for is an error; the other problems are warnings, and the scan goes
on after them.
-/

namespace TokenScan

inductive Severity where
  | warning
  | error
deriving Repr, DecidableEq

inductive Problem where
  /-- A quote that is never closed. What follows it is dropped. -/
  | unterminatedString
  /-- A block comment that is never closed. -/
  | unterminatedBlockComment
  /-- A numeral whose value exceeds the largest number. -/
  | numericOverflow
  /-- A character that the grammar has no rule for. -/
  | unexpectedCharacter (c : Char)
deriving Repr, DecidableEq

namespace Problem

def severity : Problem → Severity
  | unexpectedCharacter _ => .error
  | unterminatedString | unterminatedBlockComment | numericOverflow => .warning

def position : Problem → Nat
  | unterminatedString => 0
  | unterminatedBlockComment => 1
  | numericOverflow => 2
  | unexpectedCharacter _ => 3

/-- The order of two problems of one kind. -/
def payloadOrder : Problem → Problem → Ordering
  | unexpectedCharacter first, unexpectedCharacter second => compare first.toNat second.toNat
  | _, _ => .eq

end Problem

structure Diagnostic where
  span : Span
  problem : Problem
deriving Repr, DecidableEq

namespace Diagnostic

def severity (diagnostic : Diagnostic) : Severity :=
  diagnostic.problem.severity

/-- By the kind of problem, then by the span, then by the character concerned. -/
def order (first second : Diagnostic) : Ordering :=
  (compare first.problem.position second.problem.position).then
    ((first.span.order second.span).then (first.problem.payloadOrder second.problem))

instance : Ord Diagnostic := ⟨order⟩

/-- The diagnostics in their order. Equal ones keep the order they came in. -/
def sorted (diagnostics : List Diagnostic) : List Diagnostic :=
  diagnostics.mergeSort fun first second => (first.order second).isLE

end Diagnostic

structure Report where
  source : Source
  diagnostic : Diagnostic

end TokenScan
