import Mathlib.Data.List.TakeWhile
import TokenScan.Proofs.Token.Classes

/-!
What a grammar reads first. `Piece.Fits` says which pieces a grammar has a rule for, and
`Piece.EndsBefore` what the text after a piece must be for the piece to end where it does. The main
statement, `next?_eq_some_iff`, is that these two decide the reading: a piece is read from the
front of a text exactly when the text is that piece and a rest before which it ends.
`EndsBefore` looks at no more than the first character of the rest and at whether there is one, so
cutting the rest shorter never disturbs a piece, and a piece with text after it does not notice
more text behind that.
-/

namespace TokenScan

open Text

namespace Piece

/-- A letter and then letters and digits. -/
def IsWord (name : List Char) : Prop :=
  ∃ c tail, name = c :: tail ∧ c.isAlpha = true ∧ ∀ d ∈ tail, d.isAlphanum = true

def IsNumeral (digits : List Char) : Prop :=
  digits ≠ [] ∧ ∀ d ∈ digits, d.isDigit = true

/-- A character that the full grammar has no other rule for. -/
def IsSymbol (c : Char) : Prop :=
  isAsciiBlank c = false ∧ c.isAlphanum = false ∧ c ≠ '"' ∧ Operator.isOperator c = false

def FitsFull (matching : KeywordMatching) : Piece → Prop
  | blank c => isAsciiBlank c = true
  | lineComment body _ => '\n' ∉ body
  | blockComment body _ => ¬ ['*', '/'] <:+: body
  | string content _ => '"' ∉ content
  | keyword _ => matching = .wholeWord
  | operator c => Operator.isOperator c = true
  | identifier name => IsWord name ∧ (matching = .wholeWord → ∀ word, name ≠ Keyword.letters word)
  | number digits => IsNumeral digits
  | symbol c => IsSymbol c
  | unexpected _ => False

/-- The pieces that the arithmetic grammar has a rule for, and the one that stops it. -/
def FitsArithmetic : Piece → Prop
  | blank c => isArithmeticBlank c = true
  | operator c => Operator.isArithmetic c = true
  | number digits => IsNumeral digits
  | unexpected c =>
      isArithmeticBlank c = false ∧ c.isDigit = false ∧ Operator.isArithmetic c = false
  | _ => False

def Fits (configuration : Configuration) (piece : Piece) : Prop :=
  match configuration.grammar with
  | .full => piece.FitsFull configuration.keywords
  | .arithmetic => piece.FitsArithmetic

/-- Whether the text after a piece lets it end there: a run goes on as far as it can, a slash does
not open a comment, and what is not closed goes on to the end. -/
def EndsBefore (grammar : Grammar) (rest : List Char) : Piece → Prop
  | lineComment _ false | blockComment _ false | string _ false => rest = []
  | keyword _ | identifier _ => ∀ c, rest.head? = some c → c.isAlphanum = false
  | number _ => ∀ c, rest.head? = some c → c.isDigit = false
  | operator c => grammar = .full → c = '/' → ∀ d, rest.head? = some d → d ≠ '/' ∧ d ≠ '*'
  | _ => True

theorem IsWord.isAlphanum {name : List Char} (h : IsWord name) :
    ∀ c ∈ name, c.isAlphanum = true := by
  obtain ⟨c, tail, rfl, hletter, htail⟩ := h
  intro d hd
  rcases List.mem_cons.mp hd with hhead | hlater
  · rw [hhead]
    exact isAlphanum_of_isAlpha hletter
  · exact htail d hlater

theorem FitsFull.isFatal_eq_false {matching : KeywordMatching} {piece : Piece}
    (h : piece.FitsFull matching) : piece.isFatal = false := by
  cases piece with
  | unexpected c => exact h.elim
  | _ => rfl

theorem Fits.text_ne_nil {configuration : Configuration} {piece : Piece}
    (hfits : piece.Fits configuration) : piece.text ≠ [] := by
  obtain ⟨grammar, matching⟩ := configuration
  cases piece with
  | lineComment body ended => simp [text]
  | blockComment body closed => simp [text]
  | string content closed => simp [text]
  | keyword word => exact word.letters_ne_nil
  | identifier name =>
    cases grammar with
    | full =>
      obtain ⟨⟨c, tail, hname, -⟩, -⟩ := hfits
      simp [text, hname]
    | arithmetic => exact hfits.elim
  | number digits =>
    have hnumeral : IsNumeral digits := by cases grammar <;> exact hfits
    exact hnumeral.1
  | _ => exact List.cons_ne_nil _ []

theorem EndsBefore.shorten {grammar : Grammar} {piece : Piece} {rest shorter : List Char}
    (h : piece.EndsBefore grammar rest) (hshorter : shorter <+: rest) :
    piece.EndsBefore grammar shorter := by
  have hhead : ∀ c, shorter.head? = some c → rest.head? = some c := by
    intro c hc
    obtain ⟨after, rfl⟩ := hshorter
    rw [List.head?_append, hc, Option.some_or]
  have hempty : rest = [] → shorter = [] := by
    rintro rfl
    exact List.prefix_nil.mp hshorter
  cases piece with
  | lineComment body ended => cases ended <;> simp_all [EndsBefore]
  | blockComment body closed => cases closed <;> simp_all [EndsBefore]
  | string content closed => cases closed <;> simp_all [EndsBefore]
  | keyword word => exact fun c hc => h c (hhead c hc)
  | identifier name => exact fun c hc => h c (hhead c hc)
  | number digits => exact fun c hc => h c (hhead c hc)
  | operator c => exact fun hfull hslash d hd => h hfull hslash d (hhead d hd)
  | blank c => trivial
  | symbol c => trivial
  | unexpected c => trivial

/-- Every piece can be the last. -/
theorem endsBefore_nil (grammar : Grammar) (piece : Piece) : piece.EndsBefore grammar [] := by
  cases piece with
  | lineComment body ended => cases ended <;> trivial
  | blockComment body closed => cases closed <;> trivial
  | string content closed => cases closed <;> trivial
  | keyword word => exact nofun
  | identifier name => exact nofun
  | number digits => exact nofun
  | operator c => exact fun _ _ _ => nofun
  | blank c => trivial
  | symbol c => trivial
  | unexpected c => trivial

theorem EndsBefore.append {grammar : Grammar} {piece : Piece} {rest : List Char}
    (h : piece.EndsBefore grammar rest) (hrest : rest ≠ []) (more : List Char) :
    piece.EndsBefore grammar (rest ++ more) := by
  obtain ⟨c, tail, rfl⟩ := List.exists_cons_of_ne_nil hrest
  cases piece with
  | lineComment body ended => cases ended <;> simp_all [EndsBefore]
  | blockComment body closed => cases closed <;> simp_all [EndsBefore]
  | string content closed => cases closed <;> simp_all [EndsBefore]
  | keyword word => exact h
  | identifier name => exact h
  | number digits => exact h
  | operator c => exact h
  | blank c => trivial
  | symbol c => trivial
  | unexpected c => trivial

/-! ### The readers -/

theorem takeWhile_append_of_stop {condition : Char → Bool} {run rest : List Char}
    (hrun : ∀ c ∈ run, condition c = true)
    (hstop : ∀ c, rest.head? = some c → condition c = false) :
    (run ++ rest).takeWhile condition = run ∧ (run ++ rest).dropWhile condition = rest := by
  rw [List.takeWhile_append_of_pos hrun, List.dropWhile_append_of_pos hrun]
  cases rest with
  | nil => simp
  | cons c tail => simp [hstop c rfl]

theorem head?_dropWhile {condition : Char → Bool} {text : List Char} {c : Char}
    (h : (text.dropWhile condition).head? = some c) : condition c = false := by
  have hstop := List.head?_dropWhile_not condition text
  rw [h] at hstop
  simpa using hstop

/-- The comment read is the text up to the first star and slash. -/
theorem closeComment?_eq_some_iff {read text body rest : List Char} :
    closeComment? read text = some (body, rest) ↔
      ∃ tail, body = read.reverse ++ tail ∧ text = tail ++ '*' :: '/' :: rest ∧
        ¬ ['*', '/'] <:+: tail := by
  induction text generalizing read with
  | nil => simp [closeComment?]
  | cons c text ih =>
    rw [closeComment?]
    by_cases hcloses : c = '*' ∧ text.head? = some '/'
    · rw [if_pos hcloses]
      obtain ⟨rfl, hnext⟩ := hcloses
      obtain ⟨after, rfl⟩ := List.head?_eq_some_iff.mp hnext
      constructor
      · intro h
        cases h
        exact ⟨[], by simp, rfl, by simp⟩
      · rintro ⟨tail, rfl, htext, htail⟩
        cases tail with
        | nil =>
          obtain rfl : after = rest := by simpa using htext
          simp
        | cons d tail =>
          obtain ⟨rfl, hafter⟩ := List.cons.inj htext
          cases tail with
          | nil => exact absurd (List.cons.inj hafter).1 (by decide)
          | cons e tail =>
            obtain ⟨rfl, _⟩ := List.cons.inj hafter
            exact absurd ⟨[], tail, rfl⟩ htail
    · rw [if_neg hcloses, ih]
      constructor
      · rintro ⟨tail, rfl, rfl, htail⟩
        refine ⟨c :: tail, by simp, rfl, ?_⟩
        rw [List.infix_cons_iff, not_or]
        refine ⟨?_, htail⟩
        rintro ⟨after, hafter⟩
        obtain ⟨rfl, rfl⟩ : '*' = c ∧ '/' :: after = tail := by simpa using hafter
        exact hcloses ⟨rfl, rfl⟩
      · rintro ⟨tail, rfl, htext, htail⟩
        cases tail with
        | nil =>
          obtain ⟨rfl, rfl⟩ := List.cons.inj htext
          exact absurd ⟨rfl, rfl⟩ hcloses
        | cons d tail =>
          obtain ⟨rfl, rfl⟩ := List.cons.inj htext
          rw [List.infix_cons_iff, not_or] at htail
          exact ⟨tail, by simp, rfl, htail.2⟩

theorem closeComment?_eq_none_iff {read text : List Char} :
    closeComment? read text = none ↔ ¬ ['*', '/'] <:+: text := by
  induction text generalizing read with
  | nil => simp [closeComment?]
  | cons c text ih =>
    rw [closeComment?, List.infix_cons_iff, not_or]
    by_cases hcloses : c = '*' ∧ text.head? = some '/'
    · obtain ⟨rfl, hnext⟩ := hcloses
      obtain ⟨after, rfl⟩ := List.head?_eq_some_iff.mp hnext
      simp
    · rw [if_neg hcloses, ih]
      constructor
      · intro htail
        refine ⟨?_, htail⟩
        rintro ⟨after, hafter⟩
        obtain ⟨rfl, rfl⟩ : '*' = c ∧ '/' :: after = text := by simpa using hafter
        exact hcloses ⟨rfl, rfl⟩
      · exact And.right

theorem dropWhile_ne_eq_nil_iff {stop : Char} {text : List Char} :
    text.dropWhile (· != stop) = [] ↔ stop ∉ text := by
  rw [List.dropWhile_eq_nil_iff]
  constructor
  · intro hall hmember
    simpa using hall stop hmember
  · intro hnot c hc
    have hne : c ≠ stop := fun heq => hnot (heq ▸ hc)
    simpa using hne

theorem not_mem_takeWhile_ne {stop : Char} {text : List Char} :
    stop ∉ text.takeWhile (· != stop) := by
  intro hmember
  simpa using List.mem_takeWhile_imp hmember

theorem readLineComment_fits (matching : KeywordMatching) (text : List Char) :
    (readLineComment text).1.FitsFull matching ∧
      (readLineComment text).1.EndsBefore .full (readLineComment text).2 := by
  unfold readLineComment
  split
  · next hdrop => exact ⟨dropWhile_ne_eq_nil_iff.mp hdrop, rfl⟩
  · exact ⟨not_mem_takeWhile_ne, trivial⟩

theorem readBlockComment_fits (matching : KeywordMatching) (text : List Char) :
    (readBlockComment text).1.FitsFull matching ∧
      (readBlockComment text).1.EndsBefore .full (readBlockComment text).2 := by
  unfold readBlockComment
  split
  · next hclose => exact ⟨closeComment?_eq_none_iff.mp hclose, rfl⟩
  · next body rest hclose =>
    obtain ⟨tail, hbody, -, htail⟩ := closeComment?_eq_some_iff.mp hclose
    obtain rfl : body = tail := by simpa using hbody
    exact ⟨htail, trivial⟩

theorem readString_fits (matching : KeywordMatching) (text : List Char) :
    (readString text).1.FitsFull matching ∧
      (readString text).1.EndsBefore .full (readString text).2 := by
  unfold readString
  split
  · next hdrop => exact ⟨dropWhile_ne_eq_nil_iff.mp hdrop, rfl⟩
  · exact ⟨not_mem_takeWhile_ne, trivial⟩

/-- What the policy makes of a word is a piece that it has a rule for. -/
theorem ofWord_fits (matching : KeywordMatching) {name rest : List Char} (hword : IsWord name)
    (hstop : ∀ d, rest.head? = some d → d.isAlphanum = false) :
    (ofWord matching name).FitsFull matching ∧ (ofWord matching name).EndsBefore .full rest := by
  cases matching with
  | singleCharacter => exact ⟨⟨hword, nofun⟩, hstop⟩
  | wholeWord =>
    unfold ofWord
    cases hfound : Keyword.ofLetters? name with
    | none =>
      dsimp only
      refine ⟨⟨hword, fun _ word hletters => ?_⟩, hstop⟩
      rw [hletters, Keyword.ofLetters?_letters] at hfound
      cases hfound
    | some word => exact ⟨rfl, hstop⟩

theorem readWord_fits (matching : KeywordMatching) {c : Char} (hletter : c.isAlpha = true)
    (text : List Char) :
    (readWord matching c text).1.FitsFull matching ∧
      (readWord matching c text).1.EndsBefore .full (readWord matching c text).2 := by
  apply ofWord_fits
  · exact ⟨c, _, rfl, hletter, fun d hd => List.mem_takeWhile_imp hd⟩
  · exact fun d hd => head?_dropWhile hd

theorem readNumber_fits {c : Char} (hdigit : c.isDigit = true) (text : List Char) :
    (∃ digits, (readNumber c text).1 = number digits ∧ IsNumeral digits) ∧
      ∀ d, (readNumber c text).2.head? = some d → d.isDigit = false := by
  refine ⟨⟨_, rfl, List.cons_ne_nil _ _, ?_⟩, fun d hd => head?_dropWhile hd⟩
  intro d hd
  rcases List.mem_cons.mp hd with rfl | hd
  · exact hdigit
  · exact List.mem_takeWhile_imp hd

/-- The full grammar reads only pieces that it has a rule for, and ends them where they end. -/
theorem readFull_fits (matching : KeywordMatching) (c : Char) (rest : List Char) :
    (readFull matching c rest).1.FitsFull matching ∧
      (readFull matching c rest).1.EndsBefore .full (readFull matching c rest).2 := by
  unfold readFull
  rw [characterKeyword?_eq_none]
  split
  · next hblank => exact ⟨hblank, trivial⟩
  · next hblank =>
    split
    · exact readLineComment_fits matching rest.tail
    · next hline =>
      split
      · exact readBlockComment_fits matching rest.tail
      · next hblock =>
        split
        · exact readString_fits matching rest
        · next hquote =>
          dsimp only
          split
          · next hoperator =>
            refine ⟨hoperator, ?_⟩
            rintro - rfl d hd
            refine ⟨?_, ?_⟩
            · rintro rfl
              exact hline ⟨rfl, hd⟩
            · rintro rfl
              exact hblock ⟨rfl, hd⟩
          · next hoperator =>
            split
            · next hletter => exact readWord_fits matching hletter rest
            · next hletter =>
              split
              · next hdigit =>
                obtain ⟨⟨digits, hpiece, hnumeral⟩, hstop⟩ := readNumber_fits hdigit rest
                rw [hpiece]
                exact ⟨hnumeral, hstop⟩
              · next hdigit =>
                refine ⟨⟨?_, ?_, hquote, ?_⟩, trivial⟩
                · simpa using hblank
                · simp [Char.isAlphanum, hletter, hdigit]
                · simpa using hoperator

theorem readArithmetic_fits (c : Char) (rest : List Char) :
    (readArithmetic c rest).1.FitsArithmetic ∧
      (readArithmetic c rest).1.EndsBefore .arithmetic (readArithmetic c rest).2 := by
  unfold readArithmetic
  split
  · next hblank => exact ⟨hblank, trivial⟩
  · next hblank =>
    split
    · next hdigit =>
      obtain ⟨⟨digits, hpiece, hnumeral⟩, hstop⟩ := readNumber_fits hdigit rest
      rw [hpiece]
      exact ⟨hnumeral, hstop⟩
    · next hdigit =>
      split
      · next hoperator => exact ⟨hoperator, nofun⟩
      · next hoperator =>
        simp only [Bool.not_eq_true] at hblank hdigit hoperator
        exact ⟨⟨hblank, hdigit, hoperator⟩, trivial⟩

/-! ### From pieces to text -/

/-- Reading up to a character stops at the first place where it stands. -/
theorem takeWhile_ne_append {stop : Char} {run : List Char} (hrun : stop ∉ run)
    (rest : List Char) :
    (run ++ stop :: rest).takeWhile (· != stop) = run ∧
      (run ++ stop :: rest).dropWhile (· != stop) = stop :: rest := by
  apply takeWhile_append_of_stop
  · intro c hc
    have hne : c ≠ stop := fun heq => hrun (heq ▸ hc)
    simpa using hne
  · simp

theorem readLineComment_append {body : List Char} (hbody : '\n' ∉ body) (rest : List Char) :
    readLineComment (body ++ '\n' :: rest) = (lineComment body true, rest) := by
  obtain ⟨htake, hdrop⟩ := takeWhile_ne_append hbody rest
  simp only [readLineComment, hdrop, htake]

theorem readLineComment_of_not_mem {body : List Char} (hbody : '\n' ∉ body) :
    readLineComment body = (lineComment body false, []) := by
  simp only [readLineComment, dropWhile_ne_eq_nil_iff.mpr hbody]

theorem readString_append {content : List Char} (hcontent : '"' ∉ content) (rest : List Char) :
    readString (content ++ '"' :: rest) = (string content true, rest) := by
  obtain ⟨htake, hdrop⟩ := takeWhile_ne_append hcontent rest
  simp only [readString, hdrop, htake]

theorem readString_of_not_mem {content : List Char} (hcontent : '"' ∉ content) :
    readString content = (string content false, []) := by
  simp only [readString, dropWhile_ne_eq_nil_iff.mpr hcontent]

theorem readBlockComment_append {body : List Char} (hbody : ¬ ['*', '/'] <:+: body)
    (rest : List Char) :
    readBlockComment (body ++ '*' :: '/' :: rest) = (blockComment body true, rest) := by
  have hclose : closeComment? [] (body ++ '*' :: '/' :: rest) = some (body, rest) :=
    closeComment?_eq_some_iff.mpr ⟨body, rfl, rfl, hbody⟩
  simp only [readBlockComment, hclose]

theorem readBlockComment_of_not_infix {body : List Char} (hbody : ¬ ['*', '/'] <:+: body) :
    readBlockComment body = (blockComment body false, []) := by
  have hclose : closeComment? [] body = none := closeComment?_eq_none_iff.mpr hbody
  simp only [readBlockComment, hclose]

/-- A word with no letter or digit after it is read to its end, as what the policy makes of it. -/
theorem readFull_word (matching : KeywordMatching) {c : Char} {tail rest : List Char}
    (hletter : c.isAlpha = true) (htail : ∀ d ∈ tail, d.isAlphanum = true)
    (hstop : ∀ d, rest.head? = some d → d.isAlphanum = false) :
    readFull matching c (tail ++ rest) = (ofWord matching (c :: tail), rest) := by
  have halphanum := isAlphanum_of_isAlpha hletter
  obtain ⟨htake, hdrop⟩ := takeWhile_append_of_stop htail hstop
  simp [readFull, characterKeyword?_eq_none, isAsciiBlank_eq_false_of_isAlphanum halphanum,
    ne_slash_of_isAlphanum halphanum, ne_quote_of_isAlphanum halphanum,
    isOperator_eq_false_of_isAlphanum halphanum, hletter, readWord, htake, hdrop]

theorem ofWord_letters (word : Keyword) : ofWord .wholeWord word.letters = keyword word := by
  simp [ofWord]

theorem ofWord_of_ne {matching : KeywordMatching} {name : List Char}
    (h : matching = .wholeWord → ∀ word, name ≠ Keyword.letters word) :
    ofWord matching name = identifier name := by
  cases matching with
  | singleCharacter => rfl
  | wholeWord =>
    cases hfound : Keyword.ofLetters? name with
    | none => simp [ofWord, hfound]
    | some word => exact absurd (Keyword.letters_of_ofLetters? hfound) (h rfl word)

theorem isWord_letters (word : Keyword) : IsWord word.letters := by
  cases word <;> exact ⟨_, _, rfl, by decide, List.all_eq_true.mp (by decide)⟩

theorem readNumber_append {c : Char} {tail rest : List Char}
    (htail : ∀ d ∈ tail, d.isDigit = true)
    (hstop : ∀ d, rest.head? = some d → d.isDigit = false) :
    readNumber c (tail ++ rest) = (number (c :: tail), rest) := by
  obtain ⟨htake, hdrop⟩ := takeWhile_append_of_stop htail hstop
  simp only [readNumber, htake, hdrop]

theorem readFull_number (matching : KeywordMatching) {c : Char} {tail rest : List Char}
    (hdigits : IsNumeral (c :: tail)) (hstop : ∀ d, rest.head? = some d → d.isDigit = false) :
    readFull matching c (tail ++ rest) = (number (c :: tail), rest) := by
  have hdigit : c.isDigit = true := hdigits.2 c List.mem_cons_self
  have htail : ∀ d ∈ tail, d.isDigit = true := fun d hd => hdigits.2 d (List.mem_cons_of_mem c hd)
  have halphanum := isAlphanum_of_isDigit hdigit
  simp [readFull, characterKeyword?_eq_none, isAsciiBlank_eq_false_of_isAlphanum halphanum,
    ne_slash_of_isAlphanum halphanum, ne_quote_of_isAlphanum halphanum,
    isOperator_eq_false_of_isAlphanum halphanum, isAlpha_eq_false_of_isDigit hdigit, hdigit,
    readNumber_append htail hstop]

theorem readFull_operator (matching : KeywordMatching) {c : Char} {rest : List Char}
    (hoperator : Operator.isOperator c = true)
    (hstop : c = '/' → ∀ d, rest.head? = some d → d ≠ '/' ∧ d ≠ '*') :
    readFull matching c rest = (operator c, rest) := by
  have hline : ¬ (c = '/' ∧ rest.head? = some '/') := fun h => (hstop h.1 '/' h.2).1 rfl
  have hblock : ¬ (c = '/' ∧ rest.head? = some '*') := fun h => (hstop h.1 '*' h.2).2 rfl
  simp only [readFull, characterKeyword?_eq_none, isAsciiBlank_eq_false_of_isOperator hoperator,
    Bool.false_eq_true, if_false, hline, hblock, ne_quote_of_isOperator hoperator, hoperator,
    if_true]

theorem readFull_symbol (matching : KeywordMatching) {c : Char} (hsymbol : IsSymbol c)
    (rest : List Char) : readFull matching c rest = (symbol c, rest) := by
  obtain ⟨hblank, halphanum, hquote, hoperator⟩ := hsymbol
  have hslash : c ≠ '/' := by
    rintro rfl
    exact absurd hoperator (by decide)
  obtain ⟨hletter, hdigit⟩ : c.isAlpha = false ∧ c.isDigit = false := by
    simpa [Char.isAlphanum] using halphanum
  simp [readFull, characterKeyword?_eq_none, hblank, hslash, hquote, hoperator, hletter, hdigit]

/-- A piece of the full grammar is read back from its own text. -/
theorem next?_of_fitsFull {matching : KeywordMatching} {piece : Piece} {rest : List Char}
    (hfits : piece.FitsFull matching) (hends : piece.EndsBefore .full rest) :
    next? { grammar := .full, keywords := matching } (piece.text ++ rest) = some (piece, rest) := by
  cases piece with
  | blank c =>
    have hblank : isAsciiBlank c = true := hfits
    simp [next?, text, readFull, hblank]
  | lineComment body ended =>
    cases ended with
    | true =>
      have hread := readLineComment_append hfits rest
      simpa [next?, text, readFull, isAsciiBlank] using hread
    | false =>
      obtain rfl : rest = [] := hends
      have hread := readLineComment_of_not_mem hfits
      simpa [next?, text, readFull, isAsciiBlank] using hread
  | blockComment body closed =>
    cases closed with
    | true =>
      have hread := readBlockComment_append hfits rest
      simpa [next?, text, readFull, isAsciiBlank] using hread
    | false =>
      obtain rfl : rest = [] := hends
      have hread := readBlockComment_of_not_infix hfits
      simpa [next?, text, readFull, isAsciiBlank] using hread
  | string content closed =>
    cases closed with
    | true =>
      have hread := readString_append hfits rest
      simpa [next?, text, readFull, isAsciiBlank] using hread
    | false =>
      obtain rfl : rest = [] := hends
      have hread := readString_of_not_mem hfits
      simpa [next?, text, readFull, isAsciiBlank] using hread
  | keyword word =>
    obtain rfl : matching = .wholeWord := hfits
    obtain ⟨c, tail, hletters, hletter, htail⟩ := isWord_letters word
    have hread := readFull_word .wholeWord hletter htail hends
    rw [← hletters, ofWord_letters] at hread
    simpa [next?, text, hletters] using hread
  | identifier name =>
    obtain ⟨⟨c, tail, rfl, hletter, htail⟩, hnot⟩ := hfits
    have hread := readFull_word matching hletter htail hends
    rw [ofWord_of_ne hnot] at hread
    simpa [next?, text] using hread
  | number digits =>
    obtain ⟨c, tail, rfl⟩ := List.exists_cons_of_ne_nil hfits.1
    simpa [next?, text] using readFull_number matching hfits hends
  | operator c => simpa [next?, text] using readFull_operator matching hfits (hends rfl)
  | symbol c => simpa [next?, text] using readFull_symbol matching hfits rest
  | unexpected c => exact hfits.elim

theorem next?_of_fitsArithmetic {matching : KeywordMatching} {piece : Piece} {rest : List Char}
    (hfits : piece.FitsArithmetic) (hends : piece.EndsBefore .arithmetic rest) :
    next? { grammar := .arithmetic, keywords := matching } (piece.text ++ rest) =
      some (piece, rest) := by
  cases piece with
  | blank c =>
    have hblank : isArithmeticBlank c = true := hfits
    simp [next?, text, readArithmetic, hblank]
  | operator c =>
    have hoperator : Operator.isArithmetic c = true := hfits
    simp [next?, text, readArithmetic, isArithmeticBlank_eq_false_of_isArithmetic hoperator,
      isDigit_eq_false_of_isArithmetic hoperator, hoperator]
  | number digits =>
    obtain ⟨c, tail, rfl⟩ := List.exists_cons_of_ne_nil hfits.1
    have hdigit : c.isDigit = true := hfits.2 c List.mem_cons_self
    have htail : ∀ d ∈ tail, d.isDigit = true := fun d hd => hfits.2 d (List.mem_cons_of_mem c hd)
    have hread := readNumber_append (c := c) htail hends
    simp [next?, text, readArithmetic, isArithmeticBlank_eq_false_of_isDigit hdigit, hdigit, hread]
  | unexpected c =>
    obtain ⟨hblank, hdigit, hoperator⟩ := hfits
    simp [next?, text, readArithmetic, hblank, hdigit, hoperator]
  | _ => exact hfits.elim

theorem next?_eq_some_iff {configuration : Configuration} {text rest : List Char}
    {piece : Piece} :
    next? configuration text = some (piece, rest) ↔
      text = piece.text ++ rest ∧ piece.Fits configuration ∧
        piece.EndsBefore configuration.grammar rest := by
  obtain ⟨grammar, matching⟩ := configuration
  constructor
  · intro h
    refine ⟨(text_append_of_next? h).symm, ?_⟩
    cases text with
    | nil => cases h
    | cons c tail =>
      cases grammar with
      | full =>
        have hfits := readFull_fits matching c tail
        rwa [Option.some.inj h] at hfits
      | arithmetic =>
        have hfits := readArithmetic_fits c tail
        rwa [Option.some.inj h] at hfits
  · rintro ⟨rfl, hfits, hends⟩
    cases grammar with
    | full => exact next?_of_fitsFull hfits hends
    | arithmetic => exact next?_of_fitsArithmetic hfits hends

/-! ### Pieces without blanks -/

/-- Whether no character of the piece can be a blank. -/
def isSolid : Piece → Bool
  | blank _ | lineComment _ _ | blockComment _ _ | string _ _ => false
  | keyword _ | operator _ | identifier _ | number _ | symbol _ | unexpected _ => true

theorem IsNumeral.isAlphanum {digits : List Char} (h : IsNumeral digits) :
    ∀ c ∈ digits, c.isAlphanum = true :=
  fun c hc => isAlphanum_of_isDigit (h.2 c hc)

theorem isAsciiBlank_eq_false_of_isSolid {configuration : Configuration} {piece : Piece}
    (hfits : piece.Fits configuration) (hsolid : piece.isSolid = true) :
    ∀ c ∈ piece.text, isAsciiBlank c = false := by
  have halphanum {name : List Char} (h : ∀ c ∈ name, c.isAlphanum = true) :
      ∀ c ∈ name, isAsciiBlank c = false :=
    fun c hc => isAsciiBlank_eq_false_of_isAlphanum (h c hc)
  obtain ⟨grammar, matching⟩ := configuration
  cases piece with
  | blank c => cases hsolid
  | lineComment body ended => cases hsolid
  | blockComment body closed => cases hsolid
  | string content closed => cases hsolid
  | keyword word => exact halphanum (isWord_letters word).isAlphanum
  | identifier name =>
    cases grammar with
    | full => exact halphanum hfits.1.isAlphanum
    | arithmetic => exact hfits.elim
  | number digits =>
    have hnumeral : IsNumeral digits := by cases grammar <;> exact hfits
    exact halphanum hnumeral.isAlphanum
  | operator c =>
    simp only [text, List.forall_mem_singleton]
    cases grammar with
    | full => exact isAsciiBlank_eq_false_of_isOperator hfits
    | arithmetic =>
      exact isAsciiBlank_eq_false_of_isArithmeticBlank
        (isArithmeticBlank_eq_false_of_isArithmetic hfits)
  | symbol c =>
    simp only [text, List.forall_mem_singleton]
    cases grammar with
    | full => exact hfits.1
    | arithmetic => exact hfits.elim
  | unexpected c =>
    simp only [text, List.forall_mem_singleton]
    cases grammar with
    | full => exact hfits.elim
    | arithmetic => exact isAsciiBlank_eq_false_of_isArithmeticBlank hfits.1

theorem not_mem_text_of_isSolid {configuration : Configuration} {piece : Piece} {c : Char}
    (hfits : piece.Fits configuration) (hsolid : piece.isSolid = true)
    (hc : isAsciiBlank c = true) : c ∉ piece.text := by
  intro hmem
  rw [isAsciiBlank_eq_false_of_isSolid hfits hsolid c hmem] at hc
  cases hc

end Piece

end TokenScan
