import Mathlib.Data.List.Nodup
import TokenScan.Proofs.Scan.Arithmetic
import TokenScan.Proofs.Scan.Bounds

/-!
Numbers. In every scan that is not stopped, whatever the grammar, a number carries what its digits
denote, or the largest number if they denote more. There is one warning for each number of the
second kind and none for any other, in the order of the tokens. The decimal form of what a number
carries is scanned to that number alone.
-/

namespace TokenScan

open Text Piece

/-- What the text of a token denotes in decimal, however large. -/
def Source.denoted (source : Source) (token : Token) : Nat :=
  Nat.ofDigitChars 10 (source.charsIn token.span) 0

def Source.isTooLarge (source : Source) (token : Token) : Bool :=
  token.kind = .number && Lexeme.largestNumber < source.denoted token

theorem Source.isTooLarge_iff {source : Source} {token : Token} :
    source.isTooLarge token = true ↔
      token.kind = .number ∧ Lexeme.largestNumber < source.denoted token := by
  rw [isTooLarge, Bool.and_eq_true, decide_eq_true_eq, decide_eq_true_eq]

def Token.overflow (token : Token) : Diagnostic :=
  ⟨token.span, .numericOverflow⟩

namespace Piece

theorem eq_number_of_lexeme? {piece : Piece} {lexeme : Lexeme} (h : piece.lexeme? = some lexeme)
    (hkind : lexeme.kind = .number) : ∃ digits, piece = number digits := by
  cases piece with
  | number digits => exact ⟨digits, rfl⟩
  | string content closed =>
    cases closed with
    | true => cases h; cases hkind
    | false => cases h
  | blank c | lineComment body ended | blockComment body closed | unexpected c => cases h
  | keyword word | operator c | identifier name | symbol c => cases h; cases hkind

theorem problem?_ne_numericOverflow {piece : Piece} (hnumber : ∀ digits, piece ≠ number digits)
    {problem : Problem} {concerned : List Char} (h : piece.problem? = some (problem, concerned)) :
    problem ≠ .numericOverflow := by
  rcases problem?_cases h with ⟨content, -, rfl, -⟩ | ⟨body, -, rfl, -⟩ | ⟨hpiece, -⟩ |
    ⟨c, -, rfl, -⟩
  · nofun
  · nofun
  · exact absurd hpiece (hnumber concerned)
  · nofun

theorem diagnostic?_number_of_le {digits : List Char}
    (h : Decimal.value digits ≤ Lexeme.largestNumber) (start : Nat) :
    (number digits).diagnostic? start = none := by
  rw [Option.eq_none_iff_forall_not_mem]
  intro diagnostic hwarning
  exact Nat.not_lt.mpr h (Arithmetic.diagnostic?_number_eq_some_iff.mp hwarning).1

section Place

variable {source : Source} {before after : List Char}

/-- The text of a number in a source denotes what its digits do. -/
theorem denoted_number {digits : List Char} (h : source.chars = before ++ (digits ++ after))
    (lexeme : Lexeme) :
    source.denoted ⟨⟨byteLength before, byteLength before + byteLength digits⟩, lexeme⟩ =
      Decimal.value digits := by
  rw [Source.denoted, Source.charsIn_of_append h, Decimal.value_eq_ofDigitChars]

theorem isTooLarge_number {digits : List Char} (h : source.chars = before ++ (digits ++ after))
    (amount : Nat) :
    source.isTooLarge ⟨⟨byteLength before, byteLength before + byteLength digits⟩,
      .number amount⟩ = true ↔ Lexeme.largestNumber < Decimal.value digits := by
  rw [Source.isTooLarge_iff, denoted_number h]
  exact and_iff_right rfl

theorem diagnostic?_number_eq_overflow {digits : List Char}
    (h : source.chars = before ++ (digits ++ after)) :
    ((number digits).diagnostic? (byteLength before)).toList =
      (((number digits).token? (byteLength before)).toList.filter source.isTooLarge).map
        Token.overflow := by
  have htoken := isTooLarge_number h
  rw [Arithmetic.token?_number, Option.toList_some, List.filter_singleton]
  by_cases hlarge : Lexeme.largestNumber < Decimal.value digits
  · have hwarning : (number digits).diagnostic? (byteLength before) =
        some ⟨⟨byteLength before, byteLength before + byteLength digits⟩, .numericOverflow⟩ :=
      Arithmetic.diagnostic?_number_eq_some_iff.mpr ⟨hlarge, rfl⟩
    rw [hwarning, (htoken _).mpr hlarge]
    rfl
  · rw [diagnostic?_number_of_le (Nat.not_lt.mp hlarge),
      Bool.eq_false_iff.mpr (mt (htoken _).mp hlarge)]
    rfl

/-- A piece is complained of as too large a number exactly if its token is one. -/
theorem filter_numericOverflow_diagnostic? {piece : Piece}
    (h : source.chars = before ++ (piece.text ++ after)) :
    (piece.diagnostic? (byteLength before)).toList.filter
        (fun diagnostic => diagnostic.problem = .numericOverflow) =
      ((piece.token? (byteLength before)).toList.filter source.isTooLarge).map Token.overflow := by
  by_cases hnumber : ∃ digits, piece = number digits
  · obtain ⟨digits, rfl⟩ := hnumber
    have hdigits : source.chars = before ++ (digits ++ after) := h
    rw [← diagnostic?_number_eq_overflow hdigits, List.filter_eq_self]
    intro diagnostic hdiagnostic
    have hwarning := Arithmetic.diagnostic?_number_eq_some_iff.mp (Option.mem_toList.mp hdiagnostic)
    simp [hwarning.2]
  · have hnone : (piece.diagnostic? (byteLength before)).toList.filter
        (fun diagnostic => diagnostic.problem = .numericOverflow) = [] := by
      rw [List.filter_eq_nil_iff]
      intro diagnostic hdiagnostic
      obtain ⟨problem, concerned, hproblem, rfl⟩ :=
        span_of_diagnostic?_eq_some (Option.mem_toList.mp hdiagnostic)
      have hne := problem?_ne_numericOverflow (not_exists.mp hnumber) hproblem
      simpa using hne
    have hother : (piece.token? (byteLength before)).toList.filter source.isTooLarge = [] := by
      rw [List.filter_eq_nil_iff]
      intro token htoken hlarge
      obtain ⟨lexeme, hlexeme, rfl⟩ := Option.map_eq_some_iff.mp (Option.mem_toList.mp htoken)
      exact hnumber (eq_number_of_lexeme? hlexeme (Source.isTooLarge_iff.mp hlarge).1)
    rw [hnone, hother, List.map_nil]

/-- The numbers that are complained of in a run are those of its tokens that are too large. -/
theorem filter_numericOverflow_diagnostics {run : List Piece}
    (h : source.chars = before ++ (textOf run ++ after)) :
    (diagnostics (byteLength before) run).filter
        (fun diagnostic => diagnostic.problem = .numericOverflow) =
      ((tokens (byteLength before) run).filter source.isTooLarge).map Token.overflow := by
  induction run generalizing before with
  | nil => rfl
  | cons piece run ih =>
    have hhere : source.chars = before ++ (piece.text ++ (textOf run ++ after)) := by
      rw [h, textOf_cons, List.append_assoc]
    have hbehind : source.chars = before ++ piece.text ++ (textOf run ++ after) := by
      rw [hhere, List.append_assoc]
    have hlater := ih hbehind
    rw [byteLength_append] at hlater
    rw [diagnostics, tokens, List.filter_append, List.filter_append, List.map_append, hlater,
      filter_numericOverflow_diagnostic? hhere]

end Place

/-- What is printed for a number is a numeral that denotes it. -/
theorem isNumeral_toString (amount : Nat) :
    IsNumeral (toString amount).toList ∧ Decimal.value (toString amount).toList = amount := by
  rw [Nat.toString_eq_repr, Nat.toList_repr, Decimal.value_eq_ofDigitChars]
  refine ⟨⟨Nat.toDigits_ne_nil, ?_⟩, Nat.ofDigitChars_ten_toDigits⟩
  intro c hc
  exact Nat.isDigit_of_mem_toDigits (by decide) (by decide) hc

theorem Fits.isNumeral {configuration : Configuration} {digits : List Char}
    (h : (number digits).Fits configuration) : IsNumeral digits := by
  obtain ⟨grammar, matching⟩ := configuration
  cases grammar <;> exact h

theorem areCut_number (configuration : Configuration) {digits : List Char} (h : IsNumeral digits) :
    AreCut configuration [number digits] [] := by
  obtain ⟨grammar, matching⟩ := configuration
  refine ⟨rfl, ?_, endsBefore_nil grammar _, trivial⟩
  cases grammar <;> exact h

end Piece

namespace Source

variable {configuration : Configuration} {source : Source} {tokens : List Token}
  {diagnostics : List Diagnostic}

/-- A number that fits is read back from its decimal form. -/
theorem scan_toString {amount : Nat} (h : amount ≤ Lexeme.largestNumber)
    (configuration : Configuration) (path : String) :
    (ofText path (toString amount)).scan configuration =
      (.ok [⟨⟨0, byteLength (toString amount).toList⟩, .number amount⟩], []) := by
  obtain ⟨hnumeral, hvalue⟩ := isNumeral_toString amount
  refine scan_eq_ok_iff.mpr ⟨[number (toString amount).toList],
    areCut_number configuration hnumeral, (List.append_nil _).symm, ?_, ?_⟩
  · have hamount : min amount Lexeme.largestNumber = amount := Nat.min_eq_left h
    rw [Piece.tokens, Arithmetic.token?_number, hvalue, hamount, Nat.zero_add]
    rfl
  · rw [Piece.diagnostics, diagnostic?_number_of_le (by rw [hvalue]; exact h)]
    rfl

theorem lexeme_eq_of_kind_eq_number (h : source.scan configuration = (.ok tokens, diagnostics))
    {token : Token} (htoken : token ∈ tokens) (hkind : token.kind = .number) :
    IsNumeral (source.charsIn token.span) ∧
      token.lexeme = .number (min (source.denoted token) Lexeme.largestNumber) := by
  obtain ⟨run, hcut, hchars, rfl, -⟩ := scan_eq_ok_iff.mp h
  obtain ⟨first, piece, last, hsplit, hpiece⟩ := exists_piece_of_mem_tokens htoken
  obtain ⟨lexeme, hlexeme, hmade⟩ := Option.map_eq_some_iff.mp hpiece
  rw [← hmade] at hkind
  obtain ⟨digits, rfl⟩ := eq_number_of_lexeme? hlexeme hkind
  have hplace : source.chars = textOf first ++ (digits ++ textOf last) := by
    rw [hchars, hsplit, textOf_append, textOf_cons]
    rfl
  have hfits := (hcut.fits (number digits) (by simp [hsplit])).2
  rw [Arithmetic.token?_number, Nat.zero_add, Option.some_inj] at hpiece
  rw [← hpiece, denoted_number hplace]
  refine ⟨?_, rfl⟩
  rw [charsIn_of_append hplace]
  exact hfits.isNumeral

theorem nodup_diagnostics (h : source.scan configuration = (.ok tokens, diagnostics)) :
    diagnostics.Nodup := by
  obtain ⟨run, hcut, -, -, rfl⟩ := scan_eq_ok_iff.mp h
  refine (pairwise_start_diagnostics 0 hcut.text_ne_nil).imp ?_
  rintro first second hlt rfl
  exact Nat.lt_irrefl _ hlt

/-- A number carries what its digits denote as far as 64 bits hold it, and the largest number they
hold otherwise. There is just one warning of a number of the second kind, which concerns all of it,
and these warnings come in the order of the tokens. What a number carries is read back from its
decimal form alone, without a warning. -/
theorem scan_numbers (h : source.scan configuration = (.ok tokens, diagnostics)) :
    (∀ token ∈ tokens, token.kind = .number →
      IsNumeral (source.charsIn token.span) ∧
      token.lexeme = .number (min (source.denoted token) Lexeme.largestNumber) ∧
      diagnostics.count token.overflow =
        if Lexeme.largestNumber < source.denoted token then 1 else 0) ∧
    diagnostics.filter (fun diagnostic => diagnostic.problem = .numericOverflow) =
      (tokens.filter source.isTooLarge).map Token.overflow ∧
    ∀ token ∈ tokens, ∀ amount, token.lexeme = .number amount →
      ∀ alone path, (ofText path (toString amount)).scan alone =
        (.ok [⟨⟨0, byteLength (toString amount).toList⟩, .number amount⟩], []) := by
  have hwarnings : diagnostics.filter (fun diagnostic => diagnostic.problem = .numericOverflow) =
      (tokens.filter source.isTooLarge).map Token.overflow := by
    obtain ⟨run, -, hchars, rfl, rfl⟩ := scan_eq_ok_iff.mp h
    exact @filter_numericOverflow_diagnostics source [] [] run (by simp [hchars])
  have hmem (token : Token) : token.overflow ∈ diagnostics ↔
      ∃ other ∈ tokens, source.isTooLarge other = true ∧ other.overflow = token.overflow := by
    have hfilter : token.overflow ∈ diagnostics ↔ token.overflow ∈
        diagnostics.filter fun diagnostic => diagnostic.problem = .numericOverflow := by
      simp [Token.overflow]
    simp [hfilter, hwarnings, and_assoc]
  refine ⟨?_, hwarnings, ?_⟩
  · intro token htoken hkind
    obtain ⟨hnumeral, hlexeme⟩ := lexeme_eq_of_kind_eq_number h htoken hkind
    refine ⟨hnumeral, hlexeme, ?_⟩
    split
    · next hlarge =>
      apply List.count_eq_one_of_mem (nodup_diagnostics h)
      exact (hmem token).mpr ⟨token, htoken, isTooLarge_iff.mpr ⟨hkind, hlarge⟩, rfl⟩
    · next hfits =>
      rw [List.count_eq_zero]
      intro hwarning
      obtain ⟨other, -, hlarge, hsame⟩ := (hmem token).mp hwarning
      -- The other number has the same span, and so it denotes the same.
      have hspan : other.span = token.span := congrArg Diagnostic.span hsame
      rw [isTooLarge_iff, denoted, hspan] at hlarge
      exact hfits hlarge.2
  · intro token htoken amount hamount alone path
    have hkind : token.kind = .number := by rw [Token.kind, hamount]; rfl
    have hlexeme := (lexeme_eq_of_kind_eq_number h htoken hkind).2
    rw [hamount, Lexeme.number.injEq] at hlexeme
    exact scan_toString (by rw [hlexeme]; exact Nat.min_le_right _ _) alone path

theorem scan_numbers_at_limit :
    (ofText "a.lex" "0018446744073709551615+18446744073709551616").scan
        { grammar := .arithmetic, keywords := .wholeWord } =
      (.ok [⟨⟨0, 22⟩, .number 18446744073709551615⟩, ⟨⟨22, 23⟩, .operator '+'⟩,
        ⟨⟨23, 43⟩, .number 18446744073709551615⟩], [⟨⟨23, 43⟩, .numericOverflow⟩]) ∧
    (ofText "b.lex" (toString 18446744073709551615)).scan {} =
      (.ok [⟨⟨0, 20⟩, .number 18446744073709551615⟩], []) := by
  have hscan : (ofText "a.lex" "0018446744073709551615+18446744073709551616").scan
      { grammar := .arithmetic, keywords := .wholeWord } =
        (.ok [⟨⟨0, 22⟩, .number 18446744073709551615⟩, ⟨⟨22, 23⟩, .operator '+'⟩,
          ⟨⟨23, 43⟩, .number 18446744073709551615⟩], [⟨⟨23, 43⟩, .numericOverflow⟩]) :=
    scan_eq_ok_iff.mpr ⟨[.number "0018446744073709551615".toList, .operator '+',
      .number "18446744073709551616".toList], by decide, by decide, by decide, by decide⟩
  obtain ⟨-, -, hagain⟩ := scan_numbers hscan
  exact ⟨hscan, hagain _ List.mem_cons_self _ rfl {} "b.lex"⟩

end Source

end TokenScan
