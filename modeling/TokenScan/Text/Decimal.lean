/-!
Decimal numerals. `value` is the number a run of digits denotes, without a bound. `readUpTo?`
reads the same run while keeping every intermediate result within a limit, and has no answer
once the limit is passed; the two agree on the numbers that fit.
-/

namespace TokenScan.Text.Decimal

def extend (number : Nat) (c : Char) : Nat :=
  10 * number + (c.toNat - '0'.toNat)

/-- The number denoted by a run of decimal digits, however long. -/
def value (digits : List Char) : Nat :=
  digits.foldl extend 0

def extendUpTo? (limit number : Nat) (c : Char) : Option Nat :=
  if extend number c ≤ limit then some (extend number c) else none

/-- The number denoted by a run of digits, provided it does not exceed the limit. -/
def readUpTo? (limit : Nat) (digits : List Char) : Option Nat :=
  digits.foldlM (extendUpTo? limit) 0

theorem value_eq_ofDigitChars (digits : List Char) :
    value digits = Nat.ofDigitChars 10 digits 0 := rfl

theorem le_extend (number : Nat) (c : Char) : number ≤ extend number c := by
  unfold extend
  omega

theorem le_foldl_extend (number : Nat) (digits : List Char) :
    number ≤ digits.foldl extend number := by
  induction digits generalizing number with
  | nil => exact Nat.le_refl number
  | cons c rest ih => exact Nat.le_trans (le_extend number c) (ih (extend number c))

theorem foldlM_extendUpTo? {limit number : Nat} (digits : List Char) (fits : number ≤ limit) :
    digits.foldlM (extendUpTo? limit) number =
      if digits.foldl extend number ≤ limit then some (digits.foldl extend number)
      else none := by
  induction digits generalizing number with
  | nil => simp [fits]
  | cons c rest ih =>
    rw [List.foldlM_cons, List.foldl_cons, extendUpTo?]
    by_cases h : extend number c ≤ limit
    · rw [if_pos h]
      exact ih h
    · have := le_foldl_extend (extend number c) rest
      rw [if_neg h, if_neg (by omega)]
      rfl

/-- Bounded reading gives the unbounded value exactly when that value fits. -/
theorem readUpTo?_eq (limit : Nat) (digits : List Char) :
    readUpTo? limit digits = if value digits ≤ limit then some (value digits) else none :=
  foldlM_extendUpTo? digits (Nat.zero_le limit)

end TokenScan.Text.Decimal
