import TokenScan.Styled

/-!
Printing that can break off. What is printed goes out part by part, and the program panics when it
is about to print space of a width that is chosen as it runs and is too large. What was printed
before the panic stays, and nothing is printed after it.
-/

namespace TokenScan

open Styled

structure Printed where
  parts : List Styled := []
  panicked : Bool := false

namespace Printed

def styled (printed : Printed) : Styled :=
  concat printed.parts

def render (colors : Bool) (printed : Printed) : String :=
  printed.styled.render colors

def write (part : Styled) : Printed :=
  { parts := [part] }

/-- The largest width of space. Widths are kept in sixteen bits. -/
def widestSpace : Nat := 65535

/-- Space of a width that is chosen as the program runs. -/
def pad (width : Nat) : Printed :=
  if width ≤ widestSpace then write (spaces width) else { panicked := true }

/-- Prints something, and something else after it unless the first panicked. -/
def andThen (first second : Printed) : Printed :=
  if first.panicked then first
  else { parts := first.parts ++ second.parts, panicked := second.panicked }

def sequence (all : List Printed) : Printed :=
  all.foldr andThen {}

end Printed

end TokenScan
