import TokenScan.Proofs.Scan.Places
import TokenScan.Proofs.Scan.Steps

/-!
The arithmetic grammar. Its tokens are said here without the scanner: a run of digits that cannot
be made longer is a number, and an operator is a token by itself. A text with nothing else in it
than these and blanks is scanned to exactly its tokens. In any other text the first character that
the grammar has no rule for stops the scan, which then answers with no token, has complained of the
numbers before that character that are too large, and complains of that character last.
-/

namespace TokenScan

open Text Piece

namespace Arithmetic

/-- The characters that the arithmetic grammar has a rule for. -/
def Accepts (c : Char) : Prop :=
  isArithmeticBlank c = true ∨ c.isDigit = true ∨ Operator.isArithmetic c = true

structure IsDigitRun (before digits after : List Char) : Prop where
  isNumeral : IsNumeral digits
  begins : ∀ c, before.getLast? = some c → c.isDigit = false
  ends : ∀ c, after.head? = some c → c.isDigit = false

inductive IsToken (text : List Char) : Token → Prop where
  /-- A number too large for a lexeme is taken to be the largest that it holds. -/
  | number {before digits after : List Char} :
      text = before ++ digits ++ after → IsDigitRun before digits after →
      IsToken text ⟨⟨byteLength before, byteLength (before ++ digits)⟩,
        .number (min (Decimal.value digits) Lexeme.largestNumber)⟩
  | operator {before after : List Char} {c : Char} :
      text = before ++ [c] ++ after → Operator.isArithmetic c = true →
      IsToken text ⟨⟨byteLength before, byteLength (before ++ [c])⟩, .operator c⟩

inductive IsOverflow (text : List Char) : Diagnostic → Prop where
  | overflow {before digits after : List Char} :
      text = before ++ digits ++ after → IsDigitRun before digits after →
      Lexeme.largestNumber < Decimal.value digits →
      IsOverflow text ⟨⟨byteLength before, byteLength (before ++ digits)⟩, .numericOverflow⟩

/-- The error at a character without a rule that has some text before it. -/
def stop (before : List Char) (c : Char) : Diagnostic :=
  ⟨⟨byteLength before, byteLength (before ++ [c])⟩, .unexpectedCharacter c⟩

variable {matching : KeywordMatching}

/-! ### Characters and pieces -/

theorem accepts_of_mem_text {piece : Piece} (hfits : piece.FitsArithmetic)
    (hfatal : piece.isFatal = false) : ∀ c ∈ piece.text, Accepts c := by
  intro c hc
  cases piece with
  | blank d =>
    rw [List.mem_singleton.mp hc]
    exact .inl hfits
  | number digits => exact .inr (.inl (hfits.2 c hc))
  | operator d =>
    rw [List.mem_singleton.mp hc]
    exact .inr (.inr hfits)
  | unexpected d => cases hfatal
  | _ => exact hfits.elim

theorem exists_eq_number {piece : Piece} (hfits : piece.FitsArithmetic)
    (hfatal : piece.isFatal = false) {c : Char} (hc : c ∈ piece.text) (hdigit : c.isDigit = true) :
    ∃ digits, piece = number digits := by
  cases piece with
  | blank d =>
    rw [List.mem_singleton.mp hc] at hdigit
    have hblank : isArithmeticBlank d = true := hfits
    rw [isArithmeticBlank_eq_false_of_isDigit hdigit] at hblank
    cases hblank
  | number digits => exact ⟨digits, rfl⟩
  | operator d =>
    rw [List.mem_singleton.mp hc, isDigit_eq_false_of_isArithmetic hfits] at hdigit
    cases hdigit
  | unexpected d => cases hfatal
  | _ => exact hfits.elim

theorem eq_operator {piece : Piece} (hfits : piece.FitsArithmetic)
    (hfatal : piece.isFatal = false) {c : Char} (hc : c ∈ piece.text)
    (hoperator : Operator.isArithmetic c = true) : piece = operator c := by
  cases piece with
  | blank d =>
    have hblank : isArithmeticBlank d = true := hfits
    rw [← List.mem_singleton.mp hc, isArithmeticBlank_eq_false_of_isArithmetic hoperator] at hblank
    cases hblank
  | number digits =>
    have hdigit := hfits.2 c hc
    rw [isDigit_eq_false_of_isArithmetic hoperator] at hdigit
    cases hdigit
  | operator d => rw [List.mem_singleton.mp hc]
  | unexpected d => cases hfatal
  | _ => exact hfits.elim

theorem anyFatal_pieces_eq_false_iff {text : List Char} :
    anyFatal (pieces { grammar := .arithmetic, keywords := matching } text) = false ↔
      ∀ c ∈ text, Accepts c := by
  constructor
  · intro hfatal c hc
    obtain ⟨htext, hcut⟩ := areCut_pieces hfatal
    rw [← htext] at hc
    obtain ⟨piece, hpiece, hmem⟩ := List.mem_flatMap.mp hc
    obtain ⟨hnot, hfits⟩ := hcut.fits piece hpiece
    exact accepts_of_mem_text hfits hnot c hmem
  · intro haccepts
    rw [anyFatal, List.any_eq_false]
    intro piece hpiece hfatal
    have hfits : piece.FitsArithmetic := fits_of_mem_pieces hpiece
    cases piece with
    | unexpected c =>
      obtain ⟨hblank, hdigit, hoperator⟩ := hfits
      have hmem : c ∈ textOf (pieces { grammar := .arithmetic, keywords := matching } text) :=
        List.mem_flatMap.mpr ⟨unexpected c, hpiece, List.mem_singleton_self c⟩
      have hc := haccepts c ((textOf_pieces_isPrefix _ text).mem hmem)
      simp [Accepts, hblank, hdigit, hoperator] at hc
    | _ => cases hfatal

/-! ### Tokens and warnings -/

theorem isDigitRun_of_areCut {first last : List Piece} {digits : List Char}
    (hcut : AreCut { grammar := .arithmetic, keywords := matching } (first ++ number digits :: last)
      []) : IsDigitRun (textOf first) digits (textOf last) := by
  obtain ⟨hfirst, -, hfits, hends, -⟩ := areCut_append.mp hcut
  have hdigits : IsNumeral digits := hfits
  refine ⟨hdigits, ?_, ?_⟩
  · intro c hc
    rw [Bool.eq_false_iff]
    intro hdigit
    rcases List.eq_nil_or_concat first with hnil | ⟨init, previous, hconcat⟩
    · rw [hnil] at hc
      cases hc
    · -- A piece that ends in a digit is a number, and that would not end before another digit.
      rw [List.concat_eq_append] at hconcat
      rw [hconcat] at hc hfirst
      obtain ⟨-, hnot, hprevious, hstops, -⟩ := areCut_append.mp hfirst
      have hne := hfirst.text_ne_nil previous (by simp)
      have hlast := mem_text_of_getLast?_textOf hne hc
      obtain ⟨others, hnumber⟩ := exists_eq_number hprevious hnot hlast hdigit
      obtain ⟨d, tail, htail⟩ := List.exists_cons_of_ne_nil hdigits.1
      rw [hnumber, htail] at hstops
      have hd := hstops d rfl
      rw [hdigits.2 d (by simp [htail])] at hd
      cases hd
  · intro c hc
    apply hends c
    rwa [List.append_nil]

theorem exists_number_of_isDigitRun {run : List Piece} {before digits after : List Char}
    (hcut : AreCut { grammar := .arithmetic, keywords := matching } run [])
    (htext : textOf run = before ++ digits ++ after) (hrun : IsDigitRun before digits after) :
    ∃ first last, run = first ++ number digits :: last ∧ textOf first = before := by
  obtain ⟨⟨hne, hdigits⟩, hbegins, hends⟩ := hrun
  obtain ⟨c, tail, hcons⟩ := List.exists_cons_of_ne_nil hne
  rw [hcons] at htext hdigits
  have hplace : textOf run = before ++ c :: (tail ++ after) := by simp [htext]
  obtain ⟨first, piece, last, left, right, hsplit, hpiece, hbefore, hafter⟩ :=
    exists_piece_of_textOf_eq hplace
  rw [hsplit] at hcut
  obtain ⟨-, hfatal, hfits, hstops, -⟩ := areCut_append.mp hcut
  have hdigit : c.isDigit = true := hdigits c List.mem_cons_self
  have hmem : c ∈ piece.text := by simp [hpiece]
  obtain ⟨found, hnumber⟩ := exists_eq_number hfits hfatal hmem hdigit
  rw [hnumber] at hpiece hfits hstops
  have hfound : found = left ++ c :: right := hpiece
  have hnumeral : IsNumeral found := hfits
  have hleft : left = [] := by
    rcases List.eq_nil_or_concat left with hnil | ⟨init, d, hconcat⟩
    · exact hnil
    · rw [List.concat_eq_append] at hconcat
      have hd := hbegins d (by rw [hbefore, hconcat, ← List.append_assoc, List.getLast?_concat])
      rw [hnumeral.2 d (by simp [hfound, hconcat])] at hd
      cases hd
  have hright : tail = right := by
    have htail : ∀ d ∈ tail, d.isDigit = true := fun d hd =>
      hdigits d (List.mem_cons_of_mem c hd)
    have hrest : ∀ d ∈ right, d.isDigit = true := fun d hd =>
      hnumeral.2 d (by simp [hfound, hd])
    have hlast : ∀ d, (textOf last).head? = some d → d.isDigit = false := by
      intro d hd
      apply hstops d
      rwa [List.append_nil]
    have hhere := (takeWhile_append_of_stop htail hends).1
    rw [hafter, (takeWhile_append_of_stop hrest hlast).1] at hhere
    exact hhere.symm
  refine ⟨first, last, ?_, ?_⟩
  · rw [hsplit, hnumber, hfound, hleft, hcons, hright, List.nil_append]
  · rw [hbefore, hleft, List.append_nil]

theorem exists_operator_of_textOf_eq {run : List Piece} {before after : List Char} {c : Char}
    (hcut : AreCut { grammar := .arithmetic, keywords := matching } run [])
    (htext : textOf run = before ++ c :: after) (hoperator : Operator.isArithmetic c = true) :
    ∃ first last, run = first ++ operator c :: last ∧ textOf first = before := by
  obtain ⟨first, piece, last, left, right, hsplit, hpiece, hbefore, -⟩ :=
    exists_piece_of_textOf_eq htext
  obtain ⟨hfatal, hfits⟩ := hcut.fits piece (by simp [hsplit])
  have hmem : c ∈ piece.text := by simp [hpiece]
  have hfound := eq_operator hfits hfatal hmem hoperator
  rw [hfound] at hpiece hsplit
  have hleft : left = [] := by
    cases left with
    | nil => rfl
    | cons d left => simp [text] at hpiece
  refine ⟨first, last, hsplit, ?_⟩
  rw [hbefore, hleft, List.append_nil]

theorem token?_number (start : Nat) (digits : List Char) :
    (number digits).token? start = some ⟨⟨start, start + byteLength digits⟩,
      .number (min (Decimal.value digits) Lexeme.largestNumber)⟩ := by
  have hamount : (readNumeral? digits).getD Lexeme.largestNumber =
      min (Decimal.value digits) Lexeme.largestNumber := by
    rw [readNumeral?, Decimal.readUpTo?_eq]
    split
    · next hle => exact (Nat.min_eq_left hle).symm
    · next hlt => exact (Nat.min_eq_right (Nat.le_of_not_le hlt)).symm
  simp [token?, lexeme?, text, hamount]

theorem diagnostic?_number_eq_some_iff {start : Nat} {digits : List Char}
    {diagnostic : Diagnostic} :
    (number digits).diagnostic? start = some diagnostic ↔
      Lexeme.largestNumber < Decimal.value digits ∧
        diagnostic = ⟨⟨start, start + byteLength digits⟩, .numericOverflow⟩ := by
  rw [diagnostic?, problem?, readNumeral?, Decimal.readUpTo?_eq]
  by_cases hle : Decimal.value digits ≤ Lexeme.largestNumber
  · simp [hle, Nat.not_lt.mpr hle]
  · simp [hle, Nat.lt_of_not_le hle, eq_comm]

/-- The tokens of an accepted text are those that stand in it. -/
theorem mem_tokens_iff_isToken {run : List Piece} {token : Token}
    (hcut : AreCut { grammar := .arithmetic, keywords := matching } run []) :
    token ∈ tokens 0 run ↔ IsToken (textOf run) token := by
  constructor
  · intro htoken
    obtain ⟨first, piece, last, hsplit, hpiece⟩ := mem_tokens_iff.mp htoken
    rw [hsplit] at hcut ⊢
    obtain ⟨-, hfatal, hfits, -⟩ := areCut_append.mp hcut
    rw [textOf_append, textOf_cons, ← List.append_assoc]
    rw [Nat.zero_add] at hpiece
    cases piece with
    | blank c => cases hpiece
    | number digits =>
      rw [token?_number, Option.some.injEq, ← byteLength_append] at hpiece
      rw [← hpiece]
      exact .number rfl (isDigitRun_of_areCut hcut)
    | operator c =>
      have htoken : token = ⟨⟨byteLength (textOf first), byteLength (textOf first ++ [c])⟩,
          .operator c⟩ := by
        rw [byteLength_append]
        exact (Option.some.inj hpiece).symm
      rw [htoken]
      exact .operator rfl hfits
    | unexpected c => cases hfatal
    | _ => exact hfits.elim
  · intro htoken
    cases htoken with
    | number htext hrun =>
      obtain ⟨first, last, hsplit, hfirst⟩ := exists_number_of_isDigitRun hcut htext hrun
      refine mem_tokens_iff.mpr ⟨first, _, last, hsplit, ?_⟩
      rw [hfirst, Nat.zero_add, token?_number, byteLength_append]
    | operator htext hoperator =>
      rw [List.append_assoc] at htext
      obtain ⟨first, last, hsplit, hfirst⟩ := exists_operator_of_textOf_eq hcut htext hoperator
      refine mem_tokens_iff.mpr ⟨first, _, last, hsplit, ?_⟩
      rw [hfirst, Nat.zero_add, byteLength_append]
      rfl

/-- What an accepted text is complained of are the numbers in it that are too large. -/
theorem mem_diagnostics_iff_isOverflow {run : List Piece} {diagnostic : Diagnostic}
    (hcut : AreCut { grammar := .arithmetic, keywords := matching } run []) :
    diagnostic ∈ diagnostics 0 run ↔ IsOverflow (textOf run) diagnostic := by
  constructor
  · intro hdiagnostic
    obtain ⟨first, piece, last, hsplit, hpiece⟩ := mem_diagnostics_iff.mp hdiagnostic
    rw [hsplit] at hcut ⊢
    obtain ⟨-, hfatal, hfits, -⟩ := areCut_append.mp hcut
    rw [textOf_append, textOf_cons, ← List.append_assoc]
    rw [Nat.zero_add] at hpiece
    cases piece with
    | number digits =>
      obtain ⟨hlarge, hwhole⟩ := diagnostic?_number_eq_some_iff.mp hpiece
      rw [hwhole, ← byteLength_append]
      exact .overflow rfl (isDigitRun_of_areCut hcut) hlarge
    | blank c => cases hpiece
    | operator c => cases hpiece
    | unexpected c => cases hfatal
    | _ => exact hfits.elim
  · intro hdiagnostic
    cases hdiagnostic with
    | overflow htext hrun hlarge =>
      obtain ⟨first, last, hsplit, hfirst⟩ := exists_number_of_isDigitRun hcut htext hrun
      refine mem_diagnostics_iff.mpr ⟨first, _, last, hsplit, ?_⟩
      rw [diagnostic?_number_eq_some_iff, hfirst, Nat.zero_add, byteLength_append]
      exact ⟨hlarge, rfl⟩

theorem IsToken.lexeme_eq {text : List Char} {token : Token} (h : IsToken text token) :
    (∃ amount, token.lexeme = .number amount) ∨
      ∃ c, token.lexeme = .operator c ∧ Operator.isArithmetic c = true := by
  cases h with
  | number => exact .inl ⟨_, rfl⟩
  | operator _ hoperator => exact .inr ⟨_, rfl, hoperator⟩

theorem IsOverflow.severity_eq {text : List Char} {diagnostic : Diagnostic}
    (h : IsOverflow text diagnostic) : diagnostic.severity = .warning := by
  cases h
  rfl

/-! ### The character that stops a scan -/

theorem exists_first_of_not_forall {text : List Char} (h : ¬ ∀ c ∈ text, Accepts c) :
    ∃ before c after, text = before ++ c :: after ∧ (∀ d ∈ before, Accepts d) ∧ ¬ Accepts c := by
  induction text with
  | nil => exact absurd nofun h
  | cons c text ih =>
    by_cases hc : Accepts c
    · have hrest : ¬ ∀ d ∈ text, Accepts d := by
        intro hall
        exact h (List.forall_mem_cons.mpr ⟨hc, hall⟩)
      obtain ⟨before, d, after, htext, hbefore, hd⟩ := ih hrest
      refine ⟨c :: before, d, after, ?_, ?_, hd⟩
      · rw [htext, List.cons_append]
      · exact List.forall_mem_cons.mpr ⟨hc, hbefore⟩
    · exact ⟨[], c, text, rfl, nofun, hc⟩

/-- A run that ends with its text ends as well before a character that is no digit. -/
theorem areCut_of_isDigit_eq_false {run : List Piece} {c : Char}
    (hcut : AreCut { grammar := .arithmetic, keywords := matching } run [])
    (hc : c.isDigit = false) (after : List Char) :
    AreCut { grammar := .arithmetic, keywords := matching } run (c :: after) := by
  induction run with
  | nil => trivial
  | cons piece run ih =>
    obtain ⟨hfatal, hfits, hends, hrun⟩ := hcut
    refine ⟨hfatal, hfits, ?_, ih hrun⟩
    cases piece with
    | blank d => trivial
    | operator d => exact nofun
    | number digits =>
      intro d hd
      cases hrest : textOf run with
      | nil =>
        rw [hrest] at hd
        cases hd
        exact hc
      | cons e rest =>
        rw [hrest] at hd hends
        exact hends d hd
    | unexpected d => cases hfatal
    | _ => exact hfits.elim

theorem pieces_of_not_accepts {before : List Char} {c : Char}
    (hbefore : ∀ d ∈ before, Accepts d) (hc : ¬ Accepts c) (after : List Char) :
    pieces { grammar := .arithmetic, keywords := matching } (before ++ c :: after) =
      pieces { grammar := .arithmetic, keywords := matching } before ++ [unexpected c] := by
  have hfatal := (@anyFatal_pieces_eq_false_iff matching before).mpr hbefore
  obtain ⟨htext, hcut⟩ := areCut_pieces hfatal
  obtain ⟨hblank, hdigit, hoperator⟩ : isArithmeticBlank c = false ∧ c.isDigit = false ∧
      Operator.isArithmetic c = false := by
    simpa [Accepts] using hc
  have hstop : next? { grammar := .arithmetic, keywords := matching } (c :: after) =
      some (unexpected c, after) :=
    next?_eq_some_iff.mpr ⟨rfl, ⟨hblank, hdigit, hoperator⟩, trivial⟩
  have hpieces := pieces_textOf_append (areCut_of_isDigit_eq_false hcut hdigit after)
  rwa [htext, pieces_of_next?_eq_some hstop] at hpieces

theorem pieces_eq_of_keywords (first second : KeywordMatching) (text : List Char) :
    pieces { grammar := .arithmetic, keywords := first } text =
      pieces { grammar := .arithmetic, keywords := second } text := by
  have hsame : next? { grammar := .arithmetic, keywords := first } text =
      next? { grammar := .arithmetic, keywords := second } text := by
    cases text <;> rfl
  cases hnext : next? { grammar := .arithmetic, keywords := first } text with
  | none =>
    have hother := hsame.symm.trans hnext
    rw [pieces_of_next?_eq_none hnext, pieces_of_next?_eq_none hother]
  | some cut =>
    obtain ⟨piece, rest⟩ := cut
    have hother := hsame.symm.trans hnext
    have hshorter := length_lt_of_next? hnext
    rw [pieces_of_next?_eq_some hnext, pieces_of_next?_eq_some hother,
      pieces_eq_of_keywords first second rest]
termination_by text.length

end Arithmetic

namespace Source

open Arithmetic

variable {matching : KeywordMatching} {source : Source}

theorem exists_scan_eq_ok_iff :
    (∃ tokens, (source.scan { grammar := .arithmetic, keywords := matching }).1 = .ok tokens) ↔
      ∀ c ∈ source.chars, Accepts c := by
  rw [← @anyFatal_pieces_eq_false_iff matching, scan_eq, resultOf]
  split
  · next hfatal => simp [hfatal]
  · next hfatal => simp [hfatal]

theorem tokens_of_scan_eq_ok {tokens : List Token}
    (h : (source.scan { grammar := .arithmetic, keywords := matching }).1 = .ok tokens) :
    Span.InOrder (tokens.map Token.span) ∧
      ∀ token, token ∈ tokens ↔ IsToken source.chars token := by
  have haccepts := exists_scan_eq_ok_iff.mp ⟨tokens, h⟩
  have hfatal := (@anyFatal_pieces_eq_false_iff matching source.chars).mpr haccepts
  obtain ⟨htext, hcut⟩ := areCut_pieces hfatal
  rw [scan_eq] at h
  rw [tokens_of_resultOf_eq_ok h]
  refine ⟨inOrder_tokens 0 hcut.text_ne_nil, ?_⟩
  intro token
  rw [mem_tokens_iff_isToken hcut, htext]

/-- The scan that the first character without a rule stops. -/
theorem scan_of_not_accepts {before after : List Char} {c : Char}
    (hchars : source.chars = before ++ c :: after) (hbefore : ∀ d ∈ before, Accepts d)
    (hc : ¬ Accepts c) :
    ∃ warnings, source.scan { grammar := .arithmetic, keywords := matching } =
        (.error .fatal, warnings ++ [stop before c]) ∧
      Span.InOrder (warnings.map Diagnostic.span) ∧
      ∀ diagnostic, diagnostic ∈ warnings ↔ IsOverflow before diagnostic := by
  have hfatal := (@anyFatal_pieces_eq_false_iff matching before).mpr hbefore
  obtain ⟨htext, hcut⟩ := areCut_pieces hfatal
  refine ⟨Piece.diagnostics 0 (pieces { grammar := .arithmetic, keywords := matching } before),
    ?_, inOrder_diagnostics 0 hcut.text_ne_nil, ?_⟩
  · rw [scan_eq, hchars, pieces_of_not_accepts hbefore hc after, diagnostics_append, htext]
    simp [resultOf, anyFatal, isFatal, diagnostics, diagnostic?, problem?, stop]
  · intro diagnostic
    rw [mem_diagnostics_iff_isOverflow hcut, htext]

/-- The arithmetic grammar accepts exactly the texts of blanks, digits and operators. Such a text
is scanned to the tokens that stand in it, in order. Any other one is scanned to no token at all:
the scan ends with an error at the first character without a rule, its only one, and before that it
warns of the numbers in front of that character that are too large. The keyword policy has no
say. -/
theorem scan_arithmetic (matching : KeywordMatching) (source : Source) :
    ((∃ tokens, (source.scan { grammar := .arithmetic, keywords := matching }).1 = .ok tokens) ↔
      ∀ c ∈ source.chars, Accepts c) ∧
    (∀ tokens, (source.scan { grammar := .arithmetic, keywords := matching }).1 = .ok tokens →
      Span.InOrder (tokens.map Token.span) ∧
        ∀ token, token ∈ tokens ↔ IsToken source.chars token) ∧
    ((¬ ∀ c ∈ source.chars, Accepts c) →
      ∃ before c after warnings, source.chars = before ++ c :: after ∧
        (∀ d ∈ before, Accepts d) ∧ ¬ Accepts c ∧
        source.scan { grammar := .arithmetic, keywords := matching } =
          (.error .fatal, warnings ++ [stop before c]) ∧
        (∀ diagnostic ∈ warnings ++ [stop before c],
          diagnostic.severity = .error ↔ diagnostic = stop before c) ∧
        Span.InOrder (warnings.map Diagnostic.span) ∧
        ∀ diagnostic, diagnostic ∈ warnings ↔ IsOverflow before diagnostic) ∧
    ∀ other, source.scan { grammar := .arithmetic, keywords := other } =
      source.scan { grammar := .arithmetic, keywords := matching } := by
  refine ⟨exists_scan_eq_ok_iff, fun tokens h => tokens_of_scan_eq_ok h, ?_, ?_⟩
  · intro hrejects
    obtain ⟨before, c, after, hchars, hbefore, hc⟩ := exists_first_of_not_forall hrejects
    obtain ⟨warnings, hscan, horder, hmem⟩ := scan_of_not_accepts hchars hbefore hc
    refine ⟨before, c, after, warnings, hchars, hbefore, hc, hscan, ?_, horder, hmem⟩
    intro diagnostic hdiagnostic
    constructor
    · intro herror
      rcases List.mem_append.mp hdiagnostic with hwarning | hlast
      · rw [((hmem diagnostic).mp hwarning).severity_eq] at herror
        cases herror
      · exact List.mem_singleton.mp hlast
    · intro hstop
      rw [hstop]
      rfl
  · intro other
    rw [scan_eq, scan_eq, pieces_eq_of_keywords other matching]

end Source

end TokenScan
