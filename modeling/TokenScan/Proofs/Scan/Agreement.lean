import Mathlib.Data.List.Basic
import TokenScan.Proofs.Scan.Arithmetic

/-!
Where the two grammars agree. A text that the arithmetic grammar accepts is read by the full grammar
as well, but there a slash can open a comment, and the wider blanks are symbols. Neither goes
unnoticed: the arithmetic grammar has a token for every slash and none for a blank, so if the
tokens are the same there was no comment and no wider blank, wherever in the text either stands.
-/

namespace TokenScan

open Text Piece

namespace Arithmetic

/-- The text opens no comment, and all its blanks are blanks of ASCII. -/
structure IsShared (text : List Char) : Prop where
  noLineComment : ¬ ['/', '/'] <:+: text
  noBlockComment : ¬ ['/', '*'] <:+: text
  isAsciiBlank : ∀ c ∈ text, isArithmeticBlank c = true → isAsciiBlank c = true

variable {arithmetic full : KeywordMatching} {run whole : List Piece}

theorem IsShared.tail {before after : List Char} (h : IsShared (before ++ after)) :
    IsShared after := by
  have hsuffix : after <:+: before ++ after := (List.suffix_append before after).isInfix
  refine ⟨?_, ?_, ?_⟩
  · intro hline
    exact h.noLineComment (hline.trans hsuffix)
  · intro hblock
    exact h.noBlockComment (hblock.trans hsuffix)
  · intro c hc
    exact h.isAsciiBlank c (List.mem_append_right before hc)

/-- The pieces of the arithmetic grammar are those of the full grammar where neither comments nor
wider blanks are met. -/
theorem areCut_full (hcut : AreCut { grammar := .arithmetic, keywords := arithmetic } run [])
    (hshared : IsShared (textOf run)) :
    AreCut { grammar := .full, keywords := full } run [] := by
  induction run with
  | nil => trivial
  | cons piece run ih =>
    obtain ⟨hfatal, hfits, hends, hrun⟩ := hcut
    have hlater := ih hrun hshared.tail
    rw [textOf_cons] at hshared
    cases piece with
    | blank c =>
      have hascii := hshared.isAsciiBlank c (by simp [text]) hfits
      exact ⟨hfatal, hascii, trivial, hlater⟩
    | number digits => exact ⟨hfatal, hfits, hends, hlater⟩
    | operator c =>
      refine ⟨hfatal, Operator.isOperator_of_isArithmetic hfits, ?_, hlater⟩
      intro _ hslash d hd
      rw [List.append_nil] at hd
      obtain ⟨tail, htail⟩ := List.head?_eq_some_iff.mp hd
      rw [htail, hslash] at hshared
      have hpair : ['/', d] <:+: (operator '/').text ++ d :: tail := ⟨[], tail, rfl⟩
      refine ⟨?_, ?_⟩
      · intro hd
        rw [hd] at hpair hshared
        exact hshared.noLineComment hpair
      · intro hd
        rw [hd] at hpair hshared
        exact hshared.noBlockComment hpair
    | unexpected c => cases hfatal
    | _ => exact hfits.elim

theorem eq_operator_of_token? {start : Nat} {piece : Piece} {span : Span} {c : Char}
    (h : piece.token? start = some ⟨span, .operator c⟩) :
    piece = operator c ∧ span.start = start := by
  obtain ⟨lexeme, hlexeme, htoken⟩ := Option.map_eq_some_iff.mp h
  obtain ⟨hspan, hoperator⟩ := Token.mk.inj htoken
  refine ⟨?_, ?_⟩
  · rw [hoperator] at hlexeme
    cases piece with
    | operator d =>
      cases hlexeme
      rfl
    | string content closed => cases closed <;> cases hlexeme
    | _ => cases hlexeme
  · rw [← hspan]

section Same

variable (hcut : AreCut { grammar := .arithmetic, keywords := arithmetic } run [])
  (htokens : tokens 0 whole = tokens 0 run)
include hcut htokens

/-- A piece that becomes a token in the full grammar is a number or an arithmetic operator. -/
theorem lexeme?_of_tokens_eq {piece : Piece} (hpiece : piece ∈ whole) {lexeme : Lexeme}
    (hlexeme : piece.lexeme? = some lexeme) :
    (∃ amount, lexeme = .number amount) ∨
      ∃ c, lexeme = .operator c ∧ Operator.isArithmetic c = true := by
  obtain ⟨first, last, hsplit⟩ := List.append_of_mem hpiece
  have hmem := mem_tokens_of_lexeme? hlexeme 0 first last
  rw [← hsplit, htokens, mem_tokens_iff_isToken hcut] at hmem
  exact hmem.lexeme_eq

variable (hwhole : AreCut { grammar := .full, keywords := full } whole [])
  (htext : textOf whole = textOf run)
include hwhole htext

/-- A slash that is a token in both grammars opens no comment. -/
theorem ne_of_textOf_eq_slash {before after : List Char} {d : Char}
    (hplace : textOf run = before ++ '/' :: d :: after) : d ≠ '/' ∧ d ≠ '*' := by
  have hoperator : Operator.isArithmetic '/' = true := by decide
  obtain ⟨first, last, hsplit, hfirst⟩ := exists_operator_of_textOf_eq hcut hplace hoperator
  have hlexeme : (operator '/').lexeme? = some (.operator '/') := rfl
  have hmem := mem_tokens_of_lexeme? hlexeme 0 first last
  rw [← hsplit, ← htokens] at hmem
  obtain ⟨front, piece, behind, hwholeSplit, hpiece⟩ := mem_tokens_iff.mp hmem
  obtain ⟨hslash, hstart⟩ := eq_operator_of_token? hpiece
  rw [hwholeSplit, hslash] at hwhole htext
  have hplaces : textOf front ++ '/' :: textOf behind = before ++ '/' :: d :: after := by
    rw [← hplace, ← htext]
    simp [text]
  have hlength : byteLength (textOf front) = byteLength before := by
    rw [hfirst] at hstart
    exact (Nat.add_left_cancel hstart).symm
  have hrest := (eq_of_byteLength_eq hplaces hlength).2
  obtain ⟨-, -, -, hends, -⟩ := areCut_append.mp hwhole
  apply hends rfl rfl d
  rw [List.append_nil, (List.cons.inj hrest).2]
  rfl

theorem isShared_of_tokens_eq : IsShared (textOf run) := by
  have hline : ¬ ['/', '/'] <:+: textOf run := by
    intro hinfix
    obtain ⟨before, after, hplace⟩ := hinfix
    have hplace : textOf run = before ++ '/' :: '/' :: after := by simp [← hplace]
    exact (ne_of_textOf_eq_slash hcut htokens hwhole htext hplace).1 rfl
  have hblock : ¬ ['/', '*'] <:+: textOf run := by
    intro hinfix
    obtain ⟨before, after, hplace⟩ := hinfix
    have hplace : textOf run = before ++ '/' :: '*' :: after := by simp [← hplace]
    exact (ne_of_textOf_eq_slash hcut htokens hwhole htext hplace).2 rfl
  refine ⟨hline, hblock, ?_⟩
  intro c hc hblank
  rw [← htext] at hc hline hblock
  obtain ⟨piece, hpiece, hmem⟩ := List.mem_flatMap.mp hc
  have hinside : piece.text <:+: textOf whole := by
    obtain ⟨first, last, hsplit⟩ := List.append_of_mem hpiece
    exact ⟨textOf first, textOf last, by simp [hsplit]⟩
  have hfits : piece.FitsFull full := (hwhole.fits piece hpiece).2
  cases piece with
  | blank d =>
    rw [List.mem_singleton.mp hmem]
    exact hfits
  | lineComment body ended =>
    have hopens : ['/', '/'] <:+: (lineComment body ended).text := ⟨[], _, rfl⟩
    exact absurd (hopens.trans hinside) hline
  | blockComment body closed =>
    have hopens : ['/', '*'] <:+: (blockComment body closed).text := ⟨[], _, rfl⟩
    exact absurd (hopens.trans hinside) hblock
  | string content closed =>
    have hquote : '"' ∈ textOf whole := hinside.mem List.mem_cons_self
    have haccepts : ∀ d ∈ textOf run, Accepts d := by
      intro d hd
      obtain ⟨other, hother, hd⟩ := List.mem_flatMap.mp hd
      obtain ⟨hfatal, hfitsOther⟩ := hcut.fits other hother
      exact accepts_of_mem_text hfitsOther hfatal d hd
    rw [htext] at hquote
    have hnot := haccepts '"' hquote
    exact absurd hnot (by unfold Accepts; decide)
  | number digits =>
    rw [isArithmeticBlank_eq_false_of_isDigit (hfits.2 c hmem)] at hblank
    cases hblank
  | operator d =>
    rcases lexeme?_of_tokens_eq hcut htokens hpiece rfl with hnumber | hoperator
    · obtain ⟨amount, hamount⟩ := hnumber
      cases hamount
    · obtain ⟨e, he, harithmetic⟩ := hoperator
      cases he
      rw [List.mem_singleton.mp hmem, isArithmeticBlank_eq_false_of_isArithmetic harithmetic]
        at hblank
      cases hblank
  | unexpected d => exact hfits.elim
  | _ =>
    have hlexeme := lexeme?_of_tokens_eq hcut htokens hpiece rfl
    simp at hlexeme

end Same

end Arithmetic

namespace Source

open Arithmetic

variable {arithmetic full : KeywordMatching} {source : Source} {tokens : List Token}
  {diagnostics : List Diagnostic}

theorem scan_full_of_isShared
    (h : source.scan { grammar := .arithmetic, keywords := arithmetic } =
      (.ok tokens, diagnostics)) (hshared : IsShared source.chars) :
    source.scan { grammar := .full, keywords := full } = (.ok tokens, diagnostics) := by
  obtain ⟨run, hcut, hchars, htokens, hdiagnostics⟩ := scan_eq_ok_iff.mp h
  rw [hchars] at hshared
  exact scan_eq_ok_iff.mpr ⟨run, areCut_full hcut hshared, hchars, htokens, hdiagnostics⟩

theorem isShared_of_scan_full
    (h : source.scan { grammar := .arithmetic, keywords := arithmetic } =
      (.ok tokens, diagnostics))
    (hfull : (source.scan { grammar := .full, keywords := full }).1 = .ok tokens) :
    IsShared source.chars := by
  obtain ⟨run, hcut, hchars, htokens, -⟩ := scan_eq_ok_iff.mp h
  obtain ⟨whole, hwhole, hwholeChars, hwholeTokens, -⟩ :=
    scan_eq_ok_iff.mp (Prod.ext hfull rfl : source.scan { grammar := .full, keywords := full } =
      (.ok tokens, (source.scan { grammar := .full, keywords := full }).2))
  have htext : textOf whole = textOf run := hwholeChars.symm.trans hchars
  have hsame : Piece.tokens 0 whole = Piece.tokens 0 run := hwholeTokens.symm.trans htokens
  rw [hchars]
  exact isShared_of_tokens_eq hcut hsame hwhole htext

/-- Where the arithmetic grammar accepts a source, the full grammar finds the same tokens in it just
if the source opens no comment and has no blank besides those of ASCII, and it then reports the same
as well. The keyword policies of the two scans may differ. -/
theorem scan_full_eq_arithmetic_iff
    (h : source.scan { grammar := .arithmetic, keywords := arithmetic } =
      (.ok tokens, diagnostics)) (full : KeywordMatching) :
    ((source.scan { grammar := .full, keywords := full }).1 = .ok tokens ↔
      IsShared source.chars) ∧
    ((source.scan { grammar := .full, keywords := full }).1 = .ok tokens →
      (source.scan { grammar := .full, keywords := full }).2 = diagnostics) := by
  refine ⟨⟨isShared_of_scan_full h, ?_⟩, ?_⟩
  · intro hshared
    rw [scan_full_of_isShared h hshared]
  · intro hfull
    rw [scan_full_of_isShared h (isShared_of_scan_full h hfull)]

theorem scan_full_eq_arithmetic_blanks :
    ((ofChars "sum.lex" "7/ *12\x0b".toList).scan { grammar := .full, keywords := .wholeWord }).1 ≠
        .ok [⟨⟨0, 1⟩, .number 7⟩, ⟨⟨1, 2⟩, .operator '/'⟩, ⟨⟨3, 4⟩, .operator '*'⟩,
          ⟨⟨4, 6⟩, .number 12⟩] ∧
      ((ofChars "sum.lex" "7/ *12\x0c".toList).scan
          { grammar := .full, keywords := .wholeWord }).1 =
        .ok [⟨⟨0, 1⟩, .number 7⟩, ⟨⟨1, 2⟩, .operator '/'⟩, ⟨⟨3, 4⟩, .operator '*'⟩,
          ⟨⟨4, 6⟩, .number 12⟩] := by
  have hwide : (ofChars "sum.lex" "7/ *12\x0b".toList).scan { grammar := .arithmetic } =
      (.ok [⟨⟨0, 1⟩, .number 7⟩, ⟨⟨1, 2⟩, .operator '/'⟩, ⟨⟨3, 4⟩, .operator '*'⟩,
        ⟨⟨4, 6⟩, .number 12⟩], []) :=
    scan_eq_ok_iff.mpr ⟨[.number ['7'], .operator '/', .blank ' ', .operator '*',
      .number ['1', '2'], .blank '\x0b'], by decide, by decide, by decide, by decide⟩
  have hascii : (ofChars "sum.lex" "7/ *12\x0c".toList).scan { grammar := .arithmetic } =
      (.ok [⟨⟨0, 1⟩, .number 7⟩, ⟨⟨1, 2⟩, .operator '/'⟩, ⟨⟨3, 4⟩, .operator '*'⟩,
        ⟨⟨4, 6⟩, .number 12⟩], []) :=
    scan_eq_ok_iff.mpr ⟨[.number ['7'], .operator '/', .blank ' ', .operator '*',
      .number ['1', '2'], .blank '\x0c'], by decide, by decide, by decide, by decide⟩
  have hshared : IsShared (ofChars "sum.lex" "7/ *12\x0c".toList).chars := by
    have hchars : (ofChars "sum.lex" "7/ *12\x0c".toList).chars =
        ['7', '/', ' ', '*', '1', '2', '\x0c'] := by decide
    rw [hchars]
    refine ⟨by decide, by decide, ?_⟩
    rw [← List.forall_iff_forall_mem]
    decide
  obtain ⟨hiff, -⟩ := scan_full_eq_arithmetic_iff hascii .wholeWord
  obtain ⟨hiffWide, -⟩ := scan_full_eq_arithmetic_iff hwide .wholeWord
  refine ⟨?_, hiff.mpr hshared⟩
  intro hfull
  have hsharedWide := hiffWide.mp hfull
  exact absurd (hsharedWide.isAsciiBlank '\x0b' (by decide) (by decide)) (by decide)

end Source

end TokenScan
