/-!
Keywords of the full grammar. A keyword is known by its spelling, and no two share one.
-/

namespace TokenScan

inductive Keyword where
  | ifWord
  | elseWord
  | forWord
  | whileWord
  | doWord
  | functionWord
  | returnWord
  | classWord
  | varWord
  | letWord
  | constWord
  | newWord
  | thisWord
  | trueWord
  | falseWord
  | nullWord
  | breakWord
  | continueWord
  | switchWord
  | caseWord
  | defaultWord
deriving Repr, DecidableEq

namespace Keyword

def all : List Keyword :=
  [ifWord, elseWord, forWord, whileWord, doWord, functionWord, returnWord, classWord, varWord,
    letWord, constWord, newWord, thisWord, trueWord, falseWord, nullWord, breakWord, continueWord,
    switchWord, caseWord, defaultWord]

def spelling : Keyword → String
  | ifWord => "if"
  | elseWord => "else"
  | forWord => "for"
  | whileWord => "while"
  | doWord => "do"
  | functionWord => "function"
  | returnWord => "return"
  | classWord => "class"
  | varWord => "var"
  | letWord => "let"
  | constWord => "const"
  | newWord => "new"
  | thisWord => "this"
  | trueWord => "true"
  | falseWord => "false"
  | nullWord => "null"
  | breakWord => "break"
  | continueWord => "continue"
  | switchWord => "switch"
  | caseWord => "case"
  | defaultWord => "default"

def letters (keyword : Keyword) : List Char :=
  keyword.spelling.toList

def ofLetters? (letters : List Char) : Option Keyword :=
  all.find? fun keyword => keyword.letters = letters

/-- The keyword's name as a heading, with a capital letter. -/
def title (keyword : Keyword) : String :=
  keyword.spelling.capitalize

def position (keyword : Keyword) : Nat :=
  all.idxOf keyword

/-- The explanation given for a spelling that belongs to no keyword. -/
def unknownSpelling : String :=
  "invalid string representation of keyword."

theorem letters_ne_nil (keyword : Keyword) : keyword.letters ≠ [] := by
  cases keyword <;> decide

/-- Reading a spelling gives back the keyword it belongs to. -/
@[simp]
theorem ofLetters?_letters (keyword : Keyword) : ofLetters? keyword.letters = some keyword := by
  cases keyword <;> decide

/-- Only the spelling of a keyword is read as that keyword. -/
theorem letters_of_ofLetters? {letters : List Char} {keyword : Keyword}
    (h : ofLetters? letters = some keyword) : letters = keyword.letters := by
  have found := List.find?_some h
  exact (of_decide_eq_true found).symm

end Keyword

end TokenScan
