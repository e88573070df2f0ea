/-!
Operators. The full grammar lists operators of up to three characters, but a token holds a single
one, so only the operators of one character are ever met and a longer one is read as several
tokens.
-/

namespace TokenScan.Operator

def all : List String :=
  ["+", "-", "*", "/", "%", "++", "--", "=", "==", "!=", "===", "!==", ">", "<", ">=", "<=",
    "&&", "||", "?", ":", "&", "|", "^", "<<", ">>"]

/-- The only character of a text that has exactly one. -/
def single? : List Char → Option Char
  | [c] => some c
  | _ => none

/-- The characters that are operators by themselves. -/
def characters : List Char :=
  all.filterMap fun operator => single? operator.toList

def isOperator (c : Char) : Bool :=
  characters.contains c

def arithmetic : List Char :=
  ['+', '-', '*', '/']

def isArithmetic (c : Char) : Bool :=
  arithmetic.contains c

theorem isOperator_of_isArithmetic {c : Char} (h : isArithmetic c = true) :
    isOperator c = true := by
  simp only [isArithmetic, arithmetic, List.contains_iff_mem, List.mem_cons, List.not_mem_nil,
    or_false] at h
  obtain rfl | rfl | rfl | rfl := h <;> decide

end TokenScan.Operator
