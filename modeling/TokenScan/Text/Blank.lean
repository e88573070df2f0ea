import TokenScan.Text.CodePoints

/-!
Blank characters. Two classes are in use: the five blanks of ASCII text, and the wider class
of the arithmetic grammar, which is the Unicode white space without the next-line control and
with the byte order mark.
-/

namespace TokenScan.Text

/-- Space, tab, line feed, form feed and carriage return. -/
def isAsciiBlank (c : Char) : Bool :=
  c = ' ' || c = '\t' || c = '\n' || c = '\x0c' || c = '\r'

def whiteSpace : CodePoints :=
  [(0x09, 0x0D), (0x20, 0x20), (0x85, 0x85), (0xA0, 0xA0), (0x1680, 0x1680), (0x2000, 0x200A),
    (0x2028, 0x2029), (0x202F, 0x202F), (0x205F, 0x205F), (0x3000, 0x3000)]

/-- The blanks of the arithmetic grammar: Unicode white space, but not the next-line control,
and the byte order mark as well. -/
def isArithmeticBlank (c : Char) : Bool :=
  (whiteSpace.contains c && c != '\u0085') || c = '\uFEFF'

theorem isArithmeticBlank_of_isAsciiBlank {c : Char} (h : isAsciiBlank c = true) :
    isArithmeticBlank c = true := by
  simp only [isAsciiBlank, Bool.or_eq_true, decide_eq_true_eq] at h
  obtain (((rfl | rfl) | rfl) | rfl) | rfl := h <;> decide

end TokenScan.Text
