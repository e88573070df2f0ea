import TokenScan.Token.Grammar

/-!
Character classes of the two grammars. A text is cut without looking far ahead because the classes
by which the rules choose do not overlap: a letter or a digit is no blank, no quote and no
operator, and an operator is no blank and no quote.
-/

namespace TokenScan

open Text

theorem mem_blanks_of_isAsciiBlank {c : Char} (h : isAsciiBlank c = true) :
    c ∈ [' ', '\t', '\n', '\x0c', '\r'] := by
  simpa [isAsciiBlank, or_assoc] using h

theorem isAlphanum_of_isAlpha {c : Char} (h : c.isAlpha = true) : c.isAlphanum = true := by
  simp [Char.isAlphanum, h]

theorem isAlphanum_of_isDigit {c : Char} (h : c.isDigit = true) : c.isAlphanum = true := by
  simp [Char.isAlphanum, h]

theorem isAlpha_eq_false_of_isDigit {c : Char} (h : c.isDigit = true) : c.isAlpha = false := by
  simp only [Char.isDigit, Bool.and_eq_true, decide_eq_true_eq, ge_iff_le,
    UInt32.le_iff_toNat_le] at h
  have hnine : ('9' : Char).val.toNat = 57 := rfl
  have hupper : ¬ ('A' : Char).val ≤ c.val := by
    have hletter : ('A' : Char).val.toNat = 65 := rfl
    rw [UInt32.le_iff_toNat_le]
    omega
  have hlower : ¬ ('a' : Char).val ≤ c.val := by
    have hletter : ('a' : Char).val.toNat = 97 := rfl
    rw [UInt32.le_iff_toNat_le]
    omega
  rw [Bool.eq_false_iff]
  intro halpha
  rcases Bool.or_eq_true_iff.mp halpha with hbetween | hbetween
  · exact hupper (of_decide_eq_true hbetween).1
  · exact hlower (of_decide_eq_true (Bool.and_eq_true_iff.mp hbetween).1)

/-- No character of a table has a property that none of its entries has. -/
theorem eq_false_of_mem {table : List Char} {condition : Char → Bool} {c : Char}
    (htable : (table.all fun d => !condition d) = true) (hc : c ∈ table) :
    condition c = false := by
  have hnot := List.all_eq_true.mp htable c hc
  simpa using hnot

theorem isAsciiBlank_eq_false_of_isAlphanum {c : Char} (h : c.isAlphanum = true) :
    isAsciiBlank c = false := by
  rw [Bool.eq_false_iff]
  intro hblank
  have hnot : c.isAlphanum = false :=
    eq_false_of_mem (by decide) (mem_blanks_of_isAsciiBlank hblank)
  rw [h] at hnot
  cases hnot

theorem isOperator_eq_false_of_isAlphanum {c : Char} (h : c.isAlphanum = true) :
    Operator.isOperator c = false := by
  rw [Bool.eq_false_iff]
  intro hoperator
  have hnot : c.isAlphanum = false :=
    eq_false_of_mem (by decide) (List.contains_iff_mem.mp hoperator)
  rw [h] at hnot
  cases hnot

theorem isAsciiBlank_eq_false_of_isOperator {c : Char} (h : Operator.isOperator c = true) :
    isAsciiBlank c = false :=
  eq_false_of_mem (by decide) (List.contains_iff_mem.mp h)

theorem ne_quote_of_isOperator {c : Char} (h : Operator.isOperator c = true) : c ≠ '"' := by
  rintro rfl
  exact absurd h (by decide)

theorem ne_quote_of_isAlphanum {c : Char} (h : c.isAlphanum = true) : c ≠ '"' := by
  rintro rfl
  exact absurd h (by decide)

theorem ne_slash_of_isAlphanum {c : Char} (h : c.isAlphanum = true) : c ≠ '/' := by
  rintro rfl
  exact absurd h (by decide)

theorem mem_of_isArithmetic {c : Char} (h : Operator.isArithmetic c = true) :
    c ∈ Operator.arithmetic :=
  List.contains_iff_mem.mp h

theorem isArithmeticBlank_eq_false_of_isArithmetic {c : Char}
    (h : Operator.isArithmetic c = true) : isArithmeticBlank c = false :=
  eq_false_of_mem (by decide) (mem_of_isArithmetic h)

theorem isDigit_eq_false_of_isArithmetic {c : Char} (h : Operator.isArithmetic c = true) :
    c.isDigit = false :=
  eq_false_of_mem (by decide) (mem_of_isArithmetic h)

theorem isAsciiBlank_eq_false_of_isArithmeticBlank {c : Char} (h : isArithmeticBlank c = false) :
    isAsciiBlank c = false := by
  rw [Bool.eq_false_iff]
  intro hblank
  rw [isArithmeticBlank_of_isAsciiBlank hblank] at h
  cases h

/-- The digits lie between two ranges of white space. -/
theorem isArithmeticBlank_eq_false_of_isDigit {c : Char} (h : c.isDigit = true) :
    isArithmeticBlank c = false := by
  simp only [Char.isDigit, Bool.and_eq_true, decide_eq_true_eq, ge_iff_le,
    UInt32.le_iff_toNat_le] at h
  have hzero : ('0' : Char).val.toNat = 48 := rfl
  have hnine : ('9' : Char).val.toNat = 57 := rfl
  have hbyteOrderMark : c ≠ '\uFEFF' := by
    rintro rfl
    exact absurd h (by decide)
  have hrange : ∀ range ∈ whiteSpace, range.2 < 48 ∨ 57 < range.1 := by decide
  have hwhite : whiteSpace.contains c = false := by
    rw [Bool.eq_false_iff]
    intro hcontains
    obtain ⟨range, hmember, hbounds⟩ := List.any_eq_true.mp hcontains
    have houtside := hrange range hmember
    simp only [Bool.and_eq_true, decide_eq_true_eq, Char.toNat] at hbounds
    omega
  simp [isArithmeticBlank, hwhite, hbyteOrderMark]

/-- No keyword is a single character, so the policy that looks for one finds none. -/
theorem characterKeyword?_eq_none (matching : KeywordMatching) (c : Char) :
    Piece.characterKeyword? matching c = none := by
  have hlength : ∀ keyword : Keyword, keyword.letters.length ≠ 1 := by
    intro keyword
    cases keyword <;> decide
  cases matching with
  | wholeWord => rfl
  | singleCharacter =>
    cases hfound : Keyword.ofLetters? [c] with
    | none => exact hfound
    | some keyword =>
      have hletters := congrArg List.length (Keyword.letters_of_ofLetters? hfound)
      exact absurd hletters.symm (hlength keyword)

end TokenScan
