import TokenScan.Configuration
import TokenScan.Text.Blank
import TokenScan.Token.Operator
import TokenScan.Token.Piece

/-!
The two grammars. `Piece.next?` cuts the first piece off a text by the rules of the configured
grammar. Every rule consumes exactly the text of its piece, so what remains is determined by the
piece, and it is shorter than before.
-/

namespace TokenScan

open Text

namespace Piece

/-- The text of a block comment and the text after it, where `read` holds the beginning of the
comment in reverse. There is none if no star and slash follow. -/
def closeComment? (read : List Char) : List Char → Option (List Char × List Char)
  | [] => none
  | c :: rest =>
      if c = '*' ∧ rest.head? = some '/' then some (read.reverse, rest.tail)
      else closeComment? (c :: read) rest

/-- The line comment after its two slashes, and the text after it. -/
def readLineComment (text : List Char) : Piece × List Char :=
  match text.dropWhile (· != '\n') with
  | [] => (lineComment text false, [])
  | _ :: rest => (lineComment (text.takeWhile (· != '\n')) true, rest)

/-- The block comment after its slash and star, and the text after it. -/
def readBlockComment (text : List Char) : Piece × List Char :=
  match closeComment? [] text with
  | none => (blockComment text false, [])
  | some (body, rest) => (blockComment body true, rest)

/-- The string after its opening quote, and the text after it. -/
def readString (text : List Char) : Piece × List Char :=
  match text.dropWhile (· != '"') with
  | [] => (string text false, [])
  | _ :: rest => (string (text.takeWhile (· != '"')) true, rest)

/-- A whole word as the policy classifies it. -/
def ofWord (matching : KeywordMatching) (name : List Char) : Piece :=
  match matching with
  | .singleCharacter => identifier name
  | .wholeWord =>
      match Keyword.ofLetters? name with
      | none => identifier name
      | some word => keyword word

def readWord (matching : KeywordMatching) (c : Char) (text : List Char) : Piece × List Char :=
  (ofWord matching (c :: text.takeWhile Char.isAlphanum), text.dropWhile Char.isAlphanum)

def readNumber (c : Char) (text : List Char) : Piece × List Char :=
  (number (c :: text.takeWhile Char.isDigit), text.dropWhile Char.isDigit)

/-- The keyword that a character is by itself, where the policy looks for one. -/
def characterKeyword? (matching : KeywordMatching) (c : Char) : Option Keyword :=
  match matching with
  | .singleCharacter => Keyword.ofLetters? [c]
  | .wholeWord => none

/-- The piece of the full grammar that begins with a character, and the text after it. The first
rule that applies decides, and the last one applies always. -/
def readFull (matching : KeywordMatching) (c : Char) (rest : List Char) : Piece × List Char :=
  if isAsciiBlank c then (blank c, rest)
  else if c = '/' ∧ rest.head? = some '/' then readLineComment rest.tail
  else if c = '/' ∧ rest.head? = some '*' then readBlockComment rest.tail
  else if c = '"' then readString rest
  else
    match characterKeyword? matching c with
    | some word => (keyword word, rest)
    | none =>
        if Operator.isOperator c then (operator c, rest)
        else if c.isAlpha then readWord matching c rest
        else if c.isDigit then readNumber c rest
        else (symbol c, rest)

def readArithmetic (c : Char) (rest : List Char) : Piece × List Char :=
  if isArithmeticBlank c then (blank c, rest)
  else if c.isDigit then readNumber c rest
  else if Operator.isArithmetic c then (operator c, rest)
  else (unexpected c, rest)

/-- The first piece of a text, and the text after it. There is none only in an empty text. -/
def next? (configuration : Configuration) : List Char → Option (Piece × List Char)
  | [] => none
  | c :: rest =>
      match configuration.grammar with
      | .full => some (readFull configuration.keywords c rest)
      | .arithmetic => some (readArithmetic c rest)

theorem takeWhile_cons_of_dropWhile {condition : Char → Bool} {c : Char} {text rest : List Char}
    (h : text.dropWhile condition = c :: rest) :
    condition c = false ∧ text.takeWhile condition ++ c :: rest = text := by
  constructor
  · have := List.head?_dropWhile_not condition text
    simpa [h] using this
  · rw [← h]
    exact List.takeWhile_append_dropWhile

theorem closeComment?_eq_some {read text body rest : List Char}
    (h : closeComment? read text = some (body, rest)) :
    read.reverse ++ text = body ++ '*' :: '/' :: rest := by
  fun_induction closeComment? read text with
  | case1 => cases h
  | case2 read c tail closes =>
    obtain ⟨rfl, next⟩ := closes
    obtain ⟨tail, rfl⟩ := List.head?_eq_some_iff.mp next
    cases h
    simp
  | case3 read c tail _ ih => simpa using ih h

theorem text_readLineComment (text : List Char) :
    (readLineComment text).1.text ++ (readLineComment text).2 = '/' :: '/' :: text := by
  unfold readLineComment
  split
  · simp [Piece.text]
  · next c rest h =>
    obtain ⟨stops, parts⟩ := takeWhile_cons_of_dropWhile h
    obtain rfl : c = '\n' := by simpa using stops
    simpa [Piece.text] using parts

theorem text_readBlockComment (text : List Char) :
    (readBlockComment text).1.text ++ (readBlockComment text).2 = '/' :: '*' :: text := by
  unfold readBlockComment
  split
  · simp [Piece.text]
  · next body rest h =>
    have parts := closeComment?_eq_some h
    simp only [List.reverse_nil, List.nil_append] at parts
    simp [Piece.text, parts]

theorem text_readString (text : List Char) :
    (readString text).1.text ++ (readString text).2 = '"' :: text := by
  unfold readString
  split
  · simp [Piece.text]
  · next c rest h =>
    obtain ⟨stops, parts⟩ := takeWhile_cons_of_dropWhile h
    obtain rfl : c = '"' := by simpa using stops
    simpa [Piece.text] using parts

theorem text_ofWord (matching : KeywordMatching) (name : List Char) :
    (ofWord matching name).text = name := by
  unfold ofWord
  split
  · rfl
  · split
    · rfl
    · next h => exact (Keyword.letters_of_ofLetters? h).symm

theorem text_readWord (matching : KeywordMatching) (c : Char) (text : List Char) :
    (readWord matching c text).1.text ++ (readWord matching c text).2 = c :: text := by
  simp [readWord, text_ofWord]

theorem text_readNumber (c : Char) (text : List Char) :
    (readNumber c text).1.text ++ (readNumber c text).2 = c :: text := by
  simp [readNumber, Piece.text]

theorem text_readFull (matching : KeywordMatching) (c : Char) (rest : List Char) :
    (readFull matching c rest).1.text ++ (readFull matching c rest).2 = c :: rest := by
  unfold readFull
  split
  · rfl
  · split
    · next h =>
      obtain ⟨rfl, next⟩ := h
      obtain ⟨rest, rfl⟩ := List.head?_eq_some_iff.mp next
      exact text_readLineComment rest
    · split
      · next h =>
        obtain ⟨rfl, next⟩ := h
        obtain ⟨rest, rfl⟩ := List.head?_eq_some_iff.mp next
        exact text_readBlockComment rest
      · split
        · next h =>
          subst h
          exact text_readString rest
        · split
          · next word h =>
            unfold characterKeyword? at h
            split at h
            · simp [Piece.text, ← Keyword.letters_of_ofLetters? h]
            · cases h
          · split
            · rfl
            · split
              · exact text_readWord matching c rest
              · split
                · exact text_readNumber c rest
                · rfl

theorem text_readArithmetic (c : Char) (rest : List Char) :
    (readArithmetic c rest).1.text ++ (readArithmetic c rest).2 = c :: rest := by
  unfold readArithmetic
  split
  · rfl
  · split
    · exact text_readNumber c rest
    · split <;> rfl

theorem text_readFull_ne_nil (matching : KeywordMatching) (c : Char) (rest : List Char) :
    (readFull matching c rest).1.text ≠ [] := by
  unfold readFull
  split
  · simp [Piece.text]
  · split
    · unfold readLineComment
      split <;> simp [Piece.text]
    · split
      · unfold readBlockComment
        split <;> simp [Piece.text]
      · split
        · unfold readString
          split <;> simp [Piece.text]
        · split
          · next word _ => exact word.letters_ne_nil
          · split
            · simp [Piece.text]
            · split
              · simp [readWord, text_ofWord]
              · split <;> simp [readNumber, Piece.text]

theorem text_readArithmetic_ne_nil (c : Char) (rest : List Char) :
    (readArithmetic c rest).1.text ≠ [] := by
  unfold readArithmetic
  split
  · simp [Piece.text]
  · split
    · simp [readNumber, Piece.text]
    · split <;> simp [Piece.text]

/-- What `next?` reads at the front of a text that is not empty. -/
theorem next?_cons (configuration : Configuration) (c : Char) (rest : List Char) :
    next? configuration (c :: rest) =
      match configuration.grammar with
      | .full => some (readFull configuration.keywords c rest)
      | .arithmetic => some (readArithmetic c rest) := rfl

/-- The text of the first piece and the text after it are the whole text. -/
theorem text_append_of_next? {configuration : Configuration} {text rest : List Char}
    {piece : Piece} (h : next? configuration text = some (piece, rest)) :
    piece.text ++ rest = text := by
  cases text with
  | nil => cases h
  | cons c tail =>
    rw [next?_cons] at h
    split at h
    · have parts := text_readFull configuration.keywords c tail
      rwa [Option.some.inj h] at parts
    · have parts := text_readArithmetic c tail
      rwa [Option.some.inj h] at parts

/-- Every piece has text of its own. -/
theorem text_ne_nil_of_next? {configuration : Configuration} {text rest : List Char}
    {piece : Piece} (h : next? configuration text = some (piece, rest)) : piece.text ≠ [] := by
  cases text with
  | nil => cases h
  | cons c tail =>
    rw [next?_cons] at h
    split at h
    · have parts := text_readFull_ne_nil configuration.keywords c tail
      rwa [Option.some.inj h] at parts
    · have parts := text_readArithmetic_ne_nil c tail
      rwa [Option.some.inj h] at parts

/-- Cutting off a piece leaves less to read. -/
theorem length_lt_of_next? {configuration : Configuration} {text rest : List Char}
    {piece : Piece} (h : next? configuration text = some (piece, rest)) :
    rest.length < text.length := by
  have parts := congrArg List.length (text_append_of_next? h)
  have := List.length_pos_iff.mpr (text_ne_nil_of_next? h)
  rw [List.length_append] at parts
  omega

end Piece

end TokenScan
