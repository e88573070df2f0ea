import TokenScan.Proofs.Scan.Factorization
import TokenScan.Proofs.Scan.Places

/-!
What a scan complains of. A string or a comment that is never closed takes in the rest of the text,
so it is the last piece of a scan, and all that a scan which is not stopped complains of before it
are numbers that are too large. Whether an opener is one is said here without the scanner: the text
in front of it is skipped by reading one piece of the lexical grammar after another, and nothing
closes it in the text behind.
-/

namespace TokenScan

open Text Piece

/-- The text is made of pieces that have a form where they stand, given the text behind them. With
some text behind, each of the pieces is complete. -/
inductive IsSkipped : List Char → List Char → Prop where
  | nil {rest : List Char} : IsSkipped [] rest
  | cons {word before rest : List Char} :
      Form word (before ++ rest) → IsSkipped before rest → IsSkipped (word ++ before) rest

/-- The warnings of openers in a text that are met when all in front of them is skipped, and that
nothing closes. -/
inductive IsUnclosed (text : List Char) : Diagnostic → Prop where
  | string {before content : List Char} :
      text = before ++ '"' :: content → IsSkipped before ('"' :: content) → '"' ∉ content →
      IsUnclosed text ⟨⟨byteLength before, byteLength before + 1⟩, .unterminatedString⟩
  | blockComment {before body : List Char} :
      text = before ++ '/' :: '*' :: body → IsSkipped before ('/' :: '*' :: body) →
      ¬ ['*', '/'] <:+: body →
      IsUnclosed text ⟨⟨byteLength before, byteLength before + 2⟩, .unterminatedBlockComment⟩

/-- What is skipped is a run of pieces that a scan cuts off. -/
theorem isSkipped_iff (matching : KeywordMatching) {before rest : List Char} :
    IsSkipped before rest ↔
      ∃ run, AreCut { grammar := .full, keywords := matching } run rest ∧ textOf run = before := by
  constructor
  · intro h
    induction h with
    | nil => exact ⟨[], trivial, rfl⟩
    | @cons word before rest hform _ ih =>
      obtain ⟨run, hcut, htext⟩ := ih
      obtain ⟨piece, hpiece, hfits, hends⟩ := (form_iff matching).mp hform
      rw [← htext] at hends
      exact ⟨piece :: run, ⟨hfits.isFatal_eq_false, hfits, hends, hcut⟩, by
        rw [textOf_cons, hpiece, htext]⟩
  · rintro ⟨run, hcut, rfl⟩
    induction run with
    | nil => exact .nil
    | cons piece run ih =>
      obtain ⟨-, hfits, hends, hlater⟩ := hcut
      exact .cons ((form_iff matching).mpr ⟨piece, rfl, hfits, hends⟩) (ih hlater)

namespace Piece

def isUnclosed : Piece → Bool
  | string _ false | blockComment _ false => true
  | _ => false

variable {configuration : Configuration} {run init : List Piece} {piece last : Piece}

theorem isUnclosed_cases (h : piece.isUnclosed = true) :
    (∃ content, piece = string content false) ∨ ∃ body, piece = blockComment body false := by
  cases piece with
  | string content closed =>
    cases closed with
    | true => cases h
    | false => exact .inl ⟨content, rfl⟩
  | blockComment body closed =>
    cases closed with
    | true => cases h
    | false => exact .inr ⟨body, rfl⟩
  | _ => cases h

theorem eq_nil_of_isUnclosed {grammar : Grammar} {rest : List Char} (h : piece.isUnclosed = true)
    (hends : piece.EndsBefore grammar rest) : rest = [] := by
  rcases isUnclosed_cases h with ⟨content, rfl⟩ | ⟨body, rfl⟩ <;> exact hends

theorem token?_of_isUnclosed (h : piece.isUnclosed = true) (start : Nat) :
    piece.token? start = none := by
  rcases isUnclosed_cases h with ⟨content, rfl⟩ | ⟨body, rfl⟩ <;> rfl

theorem exists_diagnostic?_of_isUnclosed (h : piece.isUnclosed = true) (start : Nat) :
    ∃ diagnostic, piece.diagnostic? start = some diagnostic := by
  rcases isUnclosed_cases h with ⟨content, rfl⟩ | ⟨body, rfl⟩ <;> exact ⟨_, rfl⟩

theorem problem_of_isUnclosed (h : piece.isUnclosed = true) {start : Nat}
    {diagnostic : Diagnostic} (hdiagnostic : piece.diagnostic? start = some diagnostic) :
    diagnostic.problem = .unterminatedString ∨
      diagnostic.problem = .unterminatedBlockComment := by
  rcases isUnclosed_cases h with ⟨content, rfl⟩ | ⟨body, rfl⟩
  · cases hdiagnostic
    exact .inl rfl
  · cases hdiagnostic
    exact .inr rfl

/-- A piece is complained of as unclosed just if it is, and otherwise as a number. -/
theorem problem_eq_numericOverflow_iff {start : Nat} {diagnostic : Diagnostic}
    (hfatal : piece.isFatal = false) (h : piece.diagnostic? start = some diagnostic) :
    diagnostic.problem = .numericOverflow ↔ piece.isUnclosed = false := by
  obtain ⟨problem, concerned, hproblem, rfl⟩ := span_of_diagnostic?_eq_some h
  rcases problem?_cases hproblem with ⟨content, rfl, rfl, -⟩ | ⟨body, rfl, rfl, -⟩ |
    ⟨rfl, rfl⟩ | ⟨c, rfl, -, -⟩
  · simp [isUnclosed]
  · simp [isUnclosed]
  · simp [isUnclosed]
  · cases hfatal

/-- Only the last piece of a text can be unclosed. -/
theorem AreCut.isUnclosed_eq_false (h : AreCut configuration (init ++ [last]) []) :
    ∀ piece ∈ init, piece.isUnclosed = false := by
  intro piece hpiece
  rw [Bool.eq_false_iff]
  intro hunclosed
  obtain ⟨before, after, rfl⟩ := List.append_of_mem hpiece
  have hne : last.text ≠ [] := h.text_ne_nil last (by simp)
  rw [List.append_assoc, List.cons_append] at h
  obtain ⟨-, -, -, hends, -⟩ := areCut_append.mp h
  have hbehind := eq_nil_of_isUnclosed hunclosed hends
  simp [hne] at hbehind

theorem problem_eq_numericOverflow_of_mem {start : Nat}
    (hpieces : ∀ piece ∈ run, piece.isFatal = false ∧ piece.isUnclosed = false) :
    ∀ diagnostic ∈ diagnostics start run, diagnostic.problem = .numericOverflow := by
  intro diagnostic hdiagnostic
  obtain ⟨before, piece, after, hsplit, hpiece⟩ := exists_piece_of_mem_diagnostics hdiagnostic
  obtain ⟨hfatal, hclosed⟩ := hpieces piece (by simp [hsplit])
  exact (problem_eq_numericOverflow_iff hfatal hpiece).mpr hclosed

/-- A run to the end of its text is complained of for its numbers, and for its last piece if that
is unclosed. -/
theorem AreCut.diagnostics_cases (h : AreCut configuration run []) :
    (∀ diagnostic ∈ diagnostics 0 run, diagnostic.problem = .numericOverflow) ∨
    ∃ init last diagnostic, run = init ++ [last] ∧ last.isUnclosed = true ∧
      diagnostics 0 run = diagnostics 0 init ++ [diagnostic] ∧
      last.diagnostic? (byteLength (textOf init)) = some diagnostic ∧
      ∀ diagnostic ∈ diagnostics 0 init, diagnostic.problem = .numericOverflow := by
  rcases List.eq_nil_or_concat run with hnil | ⟨init, last, hconcat⟩
  · left
    rw [hnil]
    exact nofun
  · rw [List.concat_eq_append] at hconcat
    subst hconcat
    have hclosed := h.isUnclosed_eq_false
    cases hlast : last.isUnclosed with
    | false =>
      left
      apply problem_eq_numericOverflow_of_mem
      intro piece hpiece
      refine ⟨(h.fits piece hpiece).1, ?_⟩
      rcases List.mem_append.mp hpiece with hinit | hend
      · exact hclosed piece hinit
      · rw [List.mem_singleton.mp hend]
        exact hlast
    | true =>
      right
      obtain ⟨diagnostic, hdiagnostic⟩ :=
        exists_diagnostic?_of_isUnclosed hlast (byteLength (textOf init))
      refine ⟨init, last, diagnostic, rfl, hlast, ?_, hdiagnostic, ?_⟩
      · rw [diagnostics_append, Nat.zero_add, diagnostics, hdiagnostic]
        rfl
      · apply problem_eq_numericOverflow_of_mem
        intro piece hpiece
        exact ⟨(h.fits piece (List.mem_append_left _ hpiece)).1, hclosed piece hpiece⟩

/-- A run to the end of its text is complained of for numbers, and at last for an opener if there
is one. -/
theorem AreCut.exists_warnings (h : AreCut configuration run []) :
    ∃ overflows, ∃ unclosed : Option Diagnostic,
      diagnostics 0 run = overflows ++ unclosed.toList ∧
      (∀ diagnostic ∈ overflows, diagnostic.problem = .numericOverflow) ∧
      ∀ diagnostic, unclosed = some diagnostic → diagnostic.problem = .unterminatedString ∨
        diagnostic.problem = .unterminatedBlockComment := by
  rcases h.diagnostics_cases with hnumbers | ⟨init, last, diagnostic, -, hlast, hall,
    hdiagnostic, hnumbers⟩
  · exact ⟨_, none, (List.append_nil _).symm, hnumbers, nofun⟩
  · refine ⟨_, some diagnostic, hall, hnumbers, ?_⟩
    rintro _ ⟨⟩
    exact problem_of_isUnclosed hlast hdiagnostic

end Piece

/-- An opener that nothing closes begins the last piece of its text. -/
theorem isUnclosed_iff (matching : KeywordMatching) {text : List Char} {diagnostic : Diagnostic} :
    IsUnclosed text diagnostic ↔
      ∃ init last, AreCut { grammar := .full, keywords := matching } (init ++ [last]) [] ∧
        textOf (init ++ [last]) = text ∧ last.isUnclosed = true ∧
        last.diagnostic? (byteLength (textOf init)) = some diagnostic := by
  constructor
  · intro h
    cases h with
    | @string before content htext hskipped hcontent =>
      obtain ⟨init, hinit, rfl⟩ := (isSkipped_iff matching).mp hskipped
      refine ⟨init, .string content false, ?_, by simp [htext, Piece.text], rfl, rfl⟩
      exact areCut_append.mpr ⟨by simpa [Piece.text] using hinit, rfl, hcontent, rfl, trivial⟩
    | @blockComment before body htext hskipped hbody =>
      obtain ⟨init, hinit, rfl⟩ := (isSkipped_iff matching).mp hskipped
      refine ⟨init, .blockComment body false, ?_, by simp [htext, Piece.text], rfl, rfl⟩
      exact areCut_append.mpr ⟨by simpa [Piece.text] using hinit, rfl, hbody, rfl, trivial⟩
  · rintro ⟨init, last, hcut, rfl, hlast, hdiagnostic⟩
    obtain ⟨hinit, -, hfits, -, -⟩ := areCut_append.mp hcut
    rw [textOf_cons, textOf_nil, List.append_nil, List.append_nil] at hinit
    have hskipped : IsSkipped (textOf init) last.text :=
      (isSkipped_iff matching).mpr ⟨init, hinit, rfl⟩
    rw [textOf_append, textOf_cons, textOf_nil, List.append_nil]
    rcases isUnclosed_cases hlast with ⟨content, rfl⟩ | ⟨body, rfl⟩
    · have htext : (Piece.string content false).text = '"' :: content := by simp [Piece.text]
      cases hdiagnostic
      rw [htext] at hskipped ⊢
      exact .string rfl hskipped hfits
    · have htext : (Piece.blockComment body false).text = '/' :: '*' :: body := by
        simp [Piece.text]
      cases hdiagnostic
      rw [htext] at hskipped ⊢
      exact .blockComment rfl hskipped hfits

namespace Source

/-- The warnings of a run that a scan cuts off, those of its numbers apart. -/
theorem exists_unclosed {matching : KeywordMatching} {run : List Piece}
    (hcut : AreCut { grammar := .full, keywords := matching } run []) :
    ∃ overflows, ∃ unclosed : Option Diagnostic,
      Piece.diagnostics 0 run = overflows ++ unclosed.toList ∧
      (∀ diagnostic ∈ overflows, diagnostic.problem = .numericOverflow) ∧
      (∀ diagnostic, unclosed = some diagnostic ↔ IsUnclosed (textOf run) diagnostic) ∧
      ∀ diagnostic, unclosed = some diagnostic →
        ∀ token ∈ Piece.tokens 0 run, token.span.stop ≤ diagnostic.span.start := by
  have hunique {init : List Piece} {last : Piece}
      (hother : AreCut { grammar := .full, keywords := matching } (init ++ [last]) [])
      (htext : textOf (init ++ [last]) = textOf run) : run = init ++ [last] := by
    rw [← pieces_textOf hcut, ← htext, pieces_textOf hother]
  rcases hcut.diagnostics_cases with hnumbers | ⟨init, last, diagnostic, rfl, hlast, hall,
    hdiagnostic, hnumbers⟩
  · refine ⟨_, none, (List.append_nil _).symm, hnumbers, ?_, nofun⟩
    intro diagnostic
    refine ⟨nofun, ?_⟩
    intro hunclosed
    obtain ⟨init, last, hother, htext, hlast, hdiagnostic⟩ := (isUnclosed_iff matching).mp hunclosed
    obtain rfl := hunique hother htext
    have hmem : diagnostic ∈ Piece.diagnostics 0 (init ++ [last]) :=
      mem_diagnostics_iff.mpr ⟨init, last, [], rfl, by rwa [Nat.zero_add]⟩
    have hfatal := (hcut.fits last (by simp)).1
    have hclosed := (problem_eq_numericOverflow_iff hfatal hdiagnostic).mp (hnumbers _ hmem)
    rw [hlast] at hclosed
    cases hclosed
  · refine ⟨_, some diagnostic, hall, hnumbers, ?_, ?_⟩
    · intro other
      rw [isUnclosed_iff matching]
      constructor
      · rintro ⟨⟩
        exact ⟨init, last, hcut, rfl, hlast, hdiagnostic⟩
      · rintro ⟨otherInit, otherLast, hother, htext, -, hotherDiagnostic⟩
        obtain ⟨rfl, hsame⟩ := List.append_inj' (hunique hother htext) rfl
        obtain rfl := List.singleton_inj.mp hsame
        rw [← hdiagnostic, hotherDiagnostic]
    · rintro _ ⟨⟩ token htoken
      have hne : ∀ piece ∈ init, piece.text ≠ [] := fun piece hpiece =>
        hcut.text_ne_nil piece (List.mem_append_left _ hpiece)
      obtain ⟨problem, concerned, -, rfl⟩ := span_of_diagnostic?_eq_some hdiagnostic
      have htokens : Piece.tokens 0 (init ++ [last]) = Piece.tokens 0 init := by
        rw [tokens_append, Piece.tokens, token?_of_isUnclosed hlast]
        exact List.append_nil _
      rw [htokens, tokens_eq_collect] at htoken
      have hplace := (span_of_mem_collect standsIn_of_mem_token? hne htoken).2.2
      rwa [Nat.zero_add] at hplace

/-- Under the full grammar a scan is never stopped, and it complains of numbers, in the order of the
text, and at most once of an opener, last and behind all tokens. It complains of just the opener
that the scan comes to by skipping complete pieces and that nothing behind closes. -/
theorem scan_full_warnings (matching : KeywordMatching) (source : Source) :
    ∃ tokens overflows, ∃ unclosed : Option Diagnostic,
      source.scan { grammar := .full, keywords := matching } =
        (.ok tokens, overflows ++ unclosed.toList) ∧
      (∀ diagnostic ∈ overflows, diagnostic.problem = .numericOverflow) ∧
      (∀ diagnostic, unclosed = some diagnostic ↔ IsUnclosed source.chars diagnostic) ∧
      (∀ diagnostic, unclosed = some diagnostic →
        ∀ token ∈ tokens, token.span.stop ≤ diagnostic.span.start) ∧
      (∀ diagnostic ∈ overflows ++ unclosed.toList,
        diagnostic.span.start < diagnostic.span.stop ∧ diagnostic.severity = .warning) ∧
      Span.InOrder ((overflows ++ unclosed.toList).map Diagnostic.span) ∧
      ((overflows ++ unclosed.toList).map Diagnostic.span).Pairwise
        fun first second => first.order second = .lt := by
  obtain ⟨htext, hcut⟩ := areCut_pieces (anyFatal_pieces_full matching source.chars)
  obtain ⟨overflows, unclosed, hall, hnumbers, hunclosed, hbehind⟩ := exists_unclosed hcut
  have hscan := scan_eq_ok_iff.mpr ⟨_, hcut, htext.symm, rfl, hall.symm⟩
  have hspans := start_lt_stop_of_mem_diagnostics 0 hcut.text_ne_nil
  have hstarts := pairwise_start_diagnostics 0 hcut.text_ne_nil
  have horder := inOrder_diagnostics 0 hcut.text_ne_nil
  rw [hall] at hspans hstarts horder
  rw [htext] at hunclosed
  refine ⟨_, overflows, unclosed, hscan, hnumbers, hunclosed, hbehind, ?_, horder, ?_⟩
  · intro diagnostic hdiagnostic
    refine ⟨hspans diagnostic hdiagnostic, ?_⟩
    rcases List.mem_append.mp hdiagnostic with hnumber | hopener
    · rw [Diagnostic.severity, hnumbers diagnostic hnumber]
      rfl
    · cases (hunclosed diagnostic).mp (Option.mem_toList.mp hopener) <;> rfl
  · rw [List.pairwise_map]
    exact hstarts.imp Span.order_eq_lt

end Source

end TokenScan
