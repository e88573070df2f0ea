import Mathlib.Data.List.Chain
import TokenScan.Proofs.Scan.Steps

/-!
Written sources. An item is a lexeme as it is spelled in a source, or a blank or a comment between
lexemes. `Item.Clashes` names the few pairs that may not stand side by side, because the text of
both would be read otherwise. Where no two neighbours clash, scanning what was written gives back
the lexemes, each with the range it was written to, and nothing to complain of.
-/

namespace TokenScan

open Text Piece

/-- A lexeme as it is spelled, or what may stand between lexemes. -/
inductive Item where
  | blank (c : Char)
  | lineComment (body : List Char)
  | blockComment (body : List Char)
  | identifier (name : List Char)
  | keyword (word : Keyword)
  | numeral (digits : List Char)
  | string (content : List Char)
  | operator (c : Char)
  | symbol (c : Char)

namespace Item

def text : Item → List Char
  | blank c | operator c | symbol c => [c]
  | lineComment body => ['/', '/'] ++ body ++ ['\n']
  | blockComment body => ['/', '*'] ++ body ++ ['*', '/']
  | identifier name => name
  | keyword word => word.letters
  | numeral digits => digits
  | string content => ['"'] ++ content ++ ['"']

def lexeme? : Item → Option Lexeme
  | blank _ | lineComment _ | blockComment _ => none
  | identifier name => some (.identifier name)
  | keyword word => some (.keyword word)
  | numeral digits => some (.number (Decimal.value digits))
  | string content => some (.string content)
  | operator c => some (.operator c)
  | symbol c => some (.symbol c)

def IsProper : Item → Prop
  | blank c => isAsciiBlank c = true
  | lineComment body => '\n' ∉ body
  | blockComment body => ¬ ['*', '/'] <:+: body
  | identifier name => IsWord name ∧ ∀ word : Keyword, name ≠ word.letters
  | keyword _ => True
  | numeral digits => IsNumeral digits ∧ Decimal.value digits ≤ Lexeme.largestNumber
  | string content => '"' ∉ content
  | operator c => Operator.isOperator c = true
  | symbol c => IsSymbol c

/-- Whether the first item may not stand directly before the second: two words, a word and a
numeral, two numerals, and a slash before what would make it open a comment. -/
def Clashes : Item → Item → Prop
  | identifier _, identifier _ | identifier _, keyword _ | identifier _, numeral _ => True
  | keyword _, identifier _ | keyword _, keyword _ | keyword _, numeral _ => True
  | numeral _, numeral _ => True
  | operator c, operator d => c = '/' ∧ (d = '/' ∨ d = '*')
  | operator c, lineComment _ | operator c, blockComment _ => c = '/'
  | _, _ => False

def write (items : List Item) : List Char :=
  items.flatMap text

/-- The lexemes of some items, each as a token with the range it is written to when the first item
is written from an offset on. -/
def tokens (start : Nat) : List Item → List Token
  | [] => []
  | item :: rest =>
      (item.lexeme?.map fun lexeme => ⟨⟨start, start + byteLength item.text⟩, lexeme⟩).toList ++
        tokens (start + byteLength item.text) rest

def piece : Item → Piece
  | blank c => .blank c
  | lineComment body => .lineComment body true
  | blockComment body => .blockComment body true
  | identifier name => .identifier name
  | keyword word => .keyword word
  | numeral digits => .number digits
  | string content => .string content true
  | operator c => .operator c
  | symbol c => .symbol c

def Begins : Item → Char → Prop
  | blank _, c => isAsciiBlank c = true
  | lineComment _, c | blockComment _, c => c = '/'
  | identifier _, c | keyword _, c => c.isAlpha = true
  | numeral _, c => c.isDigit = true
  | string _, c => c = '"'
  | operator d, c => c = d ∧ Operator.isOperator c = true
  | symbol _, c => IsSymbol c

theorem begins_of_isProper {item : Item} (h : item.IsProper) (more : List Char) :
    ∃ c tail, item.text ++ more = c :: tail ∧ item.Begins c := by
  cases item with
  | blank c => exact ⟨c, more, rfl, h⟩
  | lineComment body => exact ⟨'/', _, rfl, rfl⟩
  | blockComment body => exact ⟨'/', _, rfl, rfl⟩
  | identifier name =>
    obtain ⟨⟨c, tail, rfl, hletter, _⟩, _⟩ := h
    exact ⟨c, tail ++ more, rfl, hletter⟩
  | keyword word =>
    obtain ⟨c, tail, hletters, hletter, _⟩ := isWord_letters word
    exact ⟨c, tail ++ more, by rw [text, hletters]; rfl, hletter⟩
  | numeral digits =>
    obtain ⟨c, tail, rfl⟩ := List.exists_cons_of_ne_nil h.1.1
    exact ⟨c, tail ++ more, rfl, h.1.2 c List.mem_cons_self⟩
  | string content => exact ⟨'"', _, rfl, rfl⟩
  | operator c => exact ⟨c, more, rfl, rfl, h⟩
  | symbol c => exact ⟨c, more, rfl, h⟩

/-- Only words and numerals begin with a letter or digit. -/
theorem isAlphanum_eq_false_of_begins {item : Item} {c : Char} (h : item.Begins c)
    (hidentifier : ∀ name, item ≠ identifier name) (hkeyword : ∀ word, item ≠ keyword word)
    (hnumeral : ∀ digits, item ≠ numeral digits) : c.isAlphanum = false := by
  rw [Bool.eq_false_iff]
  intro halphanum
  cases item with
  | identifier name => exact hidentifier name rfl
  | keyword word => exact hkeyword word rfl
  | numeral digits => exact hnumeral digits rfl
  | blank d =>
    have hblank := isAsciiBlank_eq_false_of_isAlphanum halphanum
    exact absurd h (by simp [Begins, hblank])
  | lineComment body => exact ne_slash_of_isAlphanum halphanum h
  | blockComment body => exact ne_slash_of_isAlphanum halphanum h
  | string content => exact ne_quote_of_isAlphanum halphanum h
  | operator d =>
    have hoperator := isOperator_eq_false_of_isAlphanum halphanum
    exact absurd h.2 (by simp [hoperator])
  | symbol d => exact absurd h.2.1 (by simp [halphanum])

/-- Only numerals begin with a digit. -/
theorem isDigit_eq_false_of_begins {item : Item} {c : Char} (h : item.Begins c)
    (hnumeral : ∀ digits, item ≠ numeral digits) : c.isDigit = false := by
  rw [Bool.eq_false_iff]
  intro hdigit
  have hletter := isAlpha_eq_false_of_isDigit hdigit
  have hidentifier : ∀ name, item ≠ identifier name := by
    rintro name rfl
    exact absurd h (by simp [Begins, hletter])
  have hkeyword : ∀ word, item ≠ keyword word := by
    rintro word rfl
    exact absurd h (by simp [Begins, hletter])
  have hnot := isAlphanum_eq_false_of_begins h hidentifier hkeyword hnumeral
  rw [isAlphanum_of_isDigit hdigit] at hnot
  cases hnot

/-- Only comments and operators begin with an operator. -/
theorem isOperator_of_begins {item : Item} {c : Char} (h : item.Begins c)
    (hoperator : Operator.isOperator c = true) :
    (∃ body, item = lineComment body) ∨ (∃ body, item = blockComment body) ∨
      item = operator c := by
  have hnot : c.isAlphanum = true → False := by
    intro halphanum
    rw [isOperator_eq_false_of_isAlphanum halphanum] at hoperator
    cases hoperator
  cases item with
  | lineComment body => exact .inl ⟨body, rfl⟩
  | blockComment body => exact .inr (.inl ⟨body, rfl⟩)
  | operator d => exact .inr (.inr (by rw [h.1]))
  | blank d =>
    have hblank := isAsciiBlank_eq_false_of_isOperator hoperator
    exact absurd h (by simp [Begins, hblank])
  | string content => exact absurd h (ne_quote_of_isOperator hoperator)
  | identifier name => exact (hnot (isAlphanum_of_isAlpha h)).elim
  | keyword word => exact (hnot (isAlphanum_of_isAlpha h)).elim
  | numeral digits => exact (hnot (isAlphanum_of_isDigit h)).elim
  | symbol d => exact absurd h.2.2.2 (by simp [hoperator])

/-- An item ends where it was written to when no item that it clashes with begins there. -/
theorem endsBefore_of_begins {item next : Item} {c : Char} {tail : List Char}
    (hbegins : next.Begins c) (hapart : ¬ item.Clashes next) :
    item.piece.EndsBefore .full (c :: tail) := by
  cases item with
  | blank d => trivial
  | lineComment body => trivial
  | blockComment body => trivial
  | string content => trivial
  | symbol d => trivial
  | identifier name =>
    rintro d ⟨⟩
    apply isAlphanum_eq_false_of_begins hbegins
    all_goals rintro _ rfl
    all_goals exact hapart trivial
  | keyword word =>
    rintro d ⟨⟩
    apply isAlphanum_eq_false_of_begins hbegins
    all_goals rintro _ rfl
    all_goals exact hapart trivial
  | numeral digits =>
    rintro d ⟨⟩
    apply isDigit_eq_false_of_begins hbegins
    rintro _ rfl
    exact hapart trivial
  | operator slash =>
    rintro - rfl d ⟨⟩
    refine ⟨?_, ?_⟩
    · rintro rfl
      rcases isOperator_of_begins hbegins (by decide) with ⟨body, rfl⟩ | ⟨body, rfl⟩ | rfl
      · exact hapart rfl
      · exact hapart rfl
      · exact hapart ⟨rfl, .inl rfl⟩
    · rintro rfl
      rcases isOperator_of_begins hbegins (by decide) with ⟨body, rfl⟩ | ⟨body, rfl⟩ | rfl
      · exact absurd (show '*' = '/' from hbegins) (by decide)
      · exact absurd (show '*' = '/' from hbegins) (by decide)
      · exact hapart ⟨rfl, .inr rfl⟩

theorem fits_piece {item : Item} (h : item.IsProper) :
    item.piece.isFatal = false ∧
      item.piece.Fits { grammar := .full, keywords := .wholeWord } := by
  cases item with
  | identifier name => exact ⟨rfl, h.1, fun _ => h.2⟩
  | keyword word => exact ⟨rfl, rfl⟩
  | numeral digits => exact ⟨rfl, h.1⟩
  | _ => exact ⟨rfl, h⟩

theorem text_piece (item : Item) : item.piece.text = item.text := by
  cases item <;> rfl

theorem textOf_piece (items : List Item) : textOf (items.map piece) = write items := by
  induction items with
  | nil => rfl
  | cons item items ih =>
    rw [List.map_cons, textOf_cons, ih, text_piece]
    rfl

/-- Items none of which clashes with the next are cut off where they were written. -/
theorem areCut_piece {items : List Item} (hproper : ∀ item ∈ items, item.IsProper)
    (hapart : items.IsChain fun first second => ¬ first.Clashes second) :
    AreCut { grammar := .full, keywords := .wholeWord } (items.map piece) [] := by
  induction items with
  | nil => trivial
  | cons item items ih =>
    obtain ⟨hitem, hrest⟩ := List.forall_mem_cons.mp hproper
    obtain ⟨hfatal, hfits⟩ := fits_piece hitem
    refine ⟨hfatal, hfits, ?_, ih hrest hapart.tail⟩
    rw [List.append_nil, textOf_piece]
    cases items with
    | nil => exact (item.piece.endsBefore_nil .full)
    | cons next items =>
      obtain ⟨c, tail, hwrite, hbegins⟩ :=
        begins_of_isProper (hrest next List.mem_cons_self) (write items)
      rw [write, List.flatMap_cons, ← write, hwrite]
      exact endsBefore_of_begins hbegins (List.isChain_cons_cons.mp hapart).1

theorem readNumeral?_eq_some {digits : List Char}
    (h : Decimal.value digits ≤ Lexeme.largestNumber) :
    readNumeral? digits = some (Decimal.value digits) := by
  rw [readNumeral?, Decimal.readUpTo?_eq, if_pos h]

theorem lexeme?_piece {item : Item} (h : item.IsProper) :
    item.piece.lexeme? = item.lexeme? := by
  cases item with
  | numeral digits =>
    simp only [piece, Piece.lexeme?, lexeme?, readNumeral?_eq_some h.2, Option.getD_some]
  | _ => rfl

theorem problem?_piece {item : Item} (h : item.IsProper) : item.piece.problem? = none := by
  cases item with
  | numeral digits =>
    simp only [piece, Piece.problem?, readNumeral?_eq_some h.2, Option.isNone_some,
      Bool.false_eq_true, if_false]
  | _ => rfl

theorem tokens_piece {items : List Item} (hproper : ∀ item ∈ items, item.IsProper)
    (start : Nat) : Piece.tokens start (items.map piece) = tokens start items := by
  induction items generalizing start with
  | nil => rfl
  | cons item items ih =>
    obtain ⟨hitem, hrest⟩ := List.forall_mem_cons.mp hproper
    rw [List.map_cons, Piece.tokens, tokens, ih hrest, text_piece, Piece.token?,
      lexeme?_piece hitem, text_piece]

theorem diagnostics_piece {items : List Item} (hproper : ∀ item ∈ items, item.IsProper)
    (start : Nat) : Piece.diagnostics start (items.map piece) = [] := by
  induction items generalizing start with
  | nil => rfl
  | cons item items ih =>
    obtain ⟨hitem, hrest⟩ := List.forall_mem_cons.mp hproper
    rw [List.map_cons, Piece.diagnostics, ih hrest, Piece.diagnostic?, problem?_piece hitem]
    rfl

/-- Scanning a written source gives back the lexemes that were written, in order and with the
ranges they were written to, and hands nothing to the handler. -/
theorem tokenize_write {items : List Item} (hproper : ∀ item ∈ items, item.IsProper)
    (hapart : items.IsChain fun first second => ¬ first.Clashes second) (path : String)
    {Held : Type} (handler : Handler Held) (held : Held) :
    tokenize { grammar := .full, keywords := .wholeWord } handler
        (Source.ofChars path (write items)) held =
      (.ok (tokens 0 items), held) := by
  have hcut := areCut_piece hproper hapart
  have hpieces : pieces { grammar := .full, keywords := .wholeWord } (write items) =
      items.map piece := by
    rw [← textOf_piece, pieces_textOf hcut]
  have hfatal := hcut.anyFatal_eq_false
  rw [tokenize_eq_pieces]
  simp only [Source.ofChars, hpieces, resultOf, hfatal, Bool.false_eq_true, if_false,
    tokens_piece hproper, diagnostics_piece hproper, List.nil_append, List.map_nil]
  rfl

theorem tokenize_write_mixed :
    tokenize { grammar := .full, keywords := .wholeWord } Handler.store
        (Source.ofChars "mixed.lex" "if/*/**/x\"//\"007a/é*/ //\"\n".toList) #[] =
      (.ok [⟨⟨0, 2⟩, .keyword .ifWord⟩, ⟨⟨8, 9⟩, .identifier ['x']⟩, ⟨⟨9, 13⟩, .string ['/', '/']⟩,
        ⟨⟨13, 16⟩, .number 7⟩, ⟨⟨16, 17⟩, .identifier ['a']⟩, ⟨⟨17, 18⟩, .operator '/'⟩,
        ⟨⟨18, 20⟩, .symbol 'é'⟩, ⟨⟨20, 21⟩, .operator '*'⟩, ⟨⟨21, 22⟩, .operator '/'⟩], #[]) := by
  have hword : ∀ c : Char, c.isAlpha = true → (identifier [c]).IsProper := by
    intro c hletter
    refine ⟨⟨c, [], rfl, hletter, by simp⟩, ?_⟩
    intro word hname
    cases word <;> cases hname
  have hproper : ∀ item ∈ [keyword .ifWord, blockComment ['/', '*'], identifier ['x'],
      string ['/', '/'], numeral ['0', '0', '7'], identifier ['a'], operator '/', symbol 'é',
      operator '*', operator '/', blank ' ', lineComment ['"']], item.IsProper := by
    have hstars : ¬ ['*', '/'] <:+: ['/', '*'] := by decide
    have hslashes : '"' ∉ ['/', '/'] := by decide
    have hdigits : IsNumeral ['0', '0', '7'] := ⟨by decide, List.all_eq_true.mp (by decide)⟩
    have hsymbol : IsSymbol 'é' := ⟨by decide, by decide, by decide, by decide⟩
    have hquote : '\n' ∉ ['"'] := by decide
    simp only [List.forall_mem_cons]
    exact ⟨trivial, hstars, hword 'x' rfl, hslashes, ⟨hdigits, by decide⟩, hword 'a' rfl, rfl,
      hsymbol, rfl, rfl, rfl, hquote, nofun⟩
  exact tokenize_write hproper (by simp [Clashes]) "mixed.lex" Handler.store #[]

end Item

end TokenScan
