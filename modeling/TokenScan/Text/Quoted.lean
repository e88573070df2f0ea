import TokenScan.Text.Combining
import TokenScan.Text.Printable

/-!
Text shown so that every character of it can be told. A character that has no visible form of
its own is written as an escape: the usual letters for the common controls, a backslash before
quotes and the backslash itself, and the code point in hexadecimal for all others.
-/

namespace TokenScan.Text

def codePointEscape (c : Char) : List Char :=
  ['\\', 'u', '\x7b'] ++ Nat.toDigits 16 c.toNat ++ ['\x7d']

def escape (c : Char) : List Char :=
  if c = '\x00' then ['\\', '0']
  else if c = '\t' then ['\\', 't']
  else if c = '\n' then ['\\', 'n']
  else if c = '\r' then ['\\', 'r']
  else if c = '\x27' ∨ c = '"' ∨ c = '\\' then ['\\', c]
  else if isCombining c || !isPrintable c then codePointEscape c
  else [c]

/-- Text between double quotes. A single quote needs no escape there. -/
def quoted (text : List Char) : String :=
  String.ofList (['"'] ++ text.flatMap (fun c => if c = '\x27' then [c] else escape c) ++ ['"'])

end TokenScan.Text
