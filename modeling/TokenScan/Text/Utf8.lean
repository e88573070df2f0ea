/-!
The UTF-8 form of text. `encode` writes characters as bytes. `decode` is the strict reading: the
first byte of a sequence fixes the range of each byte after it, which rules out overlong forms,
surrogates and numbers past the last code point. Bytes that are no such sequence are refused
at the first place where the text goes wrong, with the length of the part that could still
have begun a character.
-/

namespace TokenScan.Text.Utf8

def encode (text : List Char) : List UInt8 :=
  text.flatMap String.utf8EncodeChar

/-- Why bytes are not UTF-8. Both causes carry the length of the longest part at the front
that is. -/
inductive Error where
  /-- The bytes there begin no character. `length` counts those that still could. -/
  | malformed (index length : Nat)
  /-- The bytes end inside a character. -/
  | incomplete (index : Nat)
deriving Repr, DecidableEq

def Error.message : Error → String
  | .malformed index length =>
      s!"invalid utf-8 sequence of {length} bytes from index {index}"
  | .incomplete index => s!"incomplete utf-8 byte sequence from index {index}"

/-- The range of a byte that continues a sequence without further conditions. -/
def continuation : Nat × Nat :=
  (0x80, 0xBF)

/-- What a first byte announces: the bits it contributes, and the range of each byte after it.
There is nothing to announce for a byte that begins no sequence. -/
def announce? (first : Nat) : Option (Nat × List (Nat × Nat)) :=
  if first ≤ 0x7F then some (first, [])
  else if first < 0xC2 then none
  else if first ≤ 0xDF then some (first - 0xC0, [continuation])
  else if first = 0xE0 then some (first - 0xE0, [(0xA0, 0xBF), continuation])
  else if first = 0xED then some (first - 0xE0, [(0x80, 0x9F), continuation])
  else if first ≤ 0xEF then some (first - 0xE0, [continuation, continuation])
  else if first = 0xF0 then some (first - 0xF0, [(0x90, 0xBF), continuation, continuation])
  else if first ≤ 0xF3 then some (first - 0xF0, [continuation, continuation, continuation])
  else if first = 0xF4 then some (first - 0xF0, [(0x80, 0x8F), continuation, continuation])
  else none

inductive Front where
  | character (c : Char) (rest : List UInt8)
  | malformed (length : Nat)
  | incomplete
deriving Repr, DecidableEq

/-- Reads the bytes that continue a sequence, given the number and the count of the bytes read
so far and the ranges of those to come. -/
def continueSequence (number length : Nat) : List (Nat × Nat) → List UInt8 → Front
  | [], rest => .character (Char.ofNat number) rest
  | _ :: _, [] => .incomplete
  | (low, high) :: ranges, byte :: rest =>
      if low ≤ byte.toNat ∧ byte.toNat ≤ high then
        continueSequence (number * 64 + (byte.toNat - 0x80)) (length + 1) ranges rest
      else
        .malformed length

def readFront (first : UInt8) (rest : List UInt8) : Front :=
  match announce? first.toNat with
  | none => .malformed 1
  | some (bits, ranges) => continueSequence bits 1 ranges rest

theorem continueSequence_rest_le {number length : Nat} {ranges : List (Nat × Nat)}
    {bytes : List UInt8} {c : Char} {rest : List UInt8}
    (h : continueSequence number length ranges bytes = .character c rest) :
    rest.length ≤ bytes.length := by
  fun_induction continueSequence number length ranges bytes with
  | case1 number length bytes =>
    cases h
    exact Nat.le_refl _
  | case2 => cases h
  | case3 number length low high ranges byte bytes inRange ih =>
    exact Nat.le_succ_of_le (ih h)
  | case4 => cases h

/-- A character that was read used up at least the first byte. -/
theorem readFront_rest_lt {first : UInt8} {bytes : List UInt8} {c : Char} {rest : List UInt8}
    (h : readFront first bytes = .character c rest) :
    rest.length < (first :: bytes).length := by
  unfold readFront at h
  split at h
  · cases h
  · exact Nat.lt_succ_of_le (continueSequence_rest_le h)

/-- Decodes on from the characters already read, held in reverse, and the number of bytes they
took. -/
def decodeFrom (read : List Char) (index : Nat) (bytes : List UInt8) :
    Except Error (List Char) :=
  match bytes with
  | [] => .ok read.reverse
  | first :: bytes =>
      match _ : readFront first bytes with
      | .character c rest => decodeFrom (c :: read) (index + c.utf8Size) rest
      | .malformed length => .error (.malformed index length)
      | .incomplete => .error (.incomplete index)
termination_by bytes.length
decreasing_by exact readFront_rest_lt ‹_›

def decode (bytes : List UInt8) : Except Error (List Char) :=
  decodeFrom [] 0 bytes

end TokenScan.Text.Utf8
