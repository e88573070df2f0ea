import TokenScan.Proofs.Scan.Steps
import TokenScan.Proofs.Source.Walk

/-!
Sources one behind the other. Text put behind a source can change how its last piece is read, and
no piece before that. It does not even change the last one when the source ends with a line feed
that no open string or comment has swallowed, and then the scan of the whole is the scan of the
source followed by the scan of the text behind it, moved to where that text stands.
-/

namespace TokenScan

open Text Piece

/-- Where an offset of the second source is located, and that it is located as many lines further
down, in the same column, where the second source stands behind the first. -/
def Source.MovesDown (first second joined : Source) (offset : Nat) : Prop :=
  ∃ location, second.location? offset = some location ∧
    joined.location? (offset + first.size) = some (location.down (first.lineCount - 1))

namespace Piece

variable {configuration : Configuration}

/-- More text behind a run can disturb only its last piece. -/
theorem AreCut.of_concat {run : List Piece} {last : Piece}
    (h : AreCut configuration (run ++ [last]) []) (more : List Char) :
    AreCut configuration run (last.text ++ more) := by
  have hne : last.text ≠ [] := h.text_ne_nil last (by simp)
  have hrun : AreCut configuration run last.text := by
    simpa using (areCut_append.mp h).1
  exact hrun.append hne more

/-- A piece with a line feed in it ends where it does whatever comes next, unless it is an open
string or comment. -/
theorem endsBefore_of_mem_newline {piece : Piece} (hfits : piece.Fits configuration)
    (hnewline : '\n' ∈ piece.text)
    (hended : ∀ problem concerned, piece.problem? = some (problem, concerned) →
      problem ≠ .unterminatedString ∧ problem ≠ .unterminatedBlockComment)
    (rest : List Char) : piece.EndsBefore configuration.grammar rest := by
  have hsolid (h : piece.isSolid = true) : piece.EndsBefore configuration.grammar rest :=
    absurd hnewline (not_mem_text_of_isSolid hfits h (by decide))
  cases piece with
  | blank c => trivial
  | lineComment body ended =>
    cases ended with
    | true => trivial
    | false =>
      have hbody : '\n' ∉ body := by
        obtain ⟨grammar, matching⟩ := configuration
        cases grammar with
        | full => exact hfits
        | arithmetic => exact hfits.elim
      have hmem : '\n' ∈ body := by simpa [text] using hnewline
      exact absurd hmem hbody
  | blockComment body closed =>
    cases closed with
    | true => trivial
    | false => exact absurd rfl (hended _ _ rfl).2
  | string content closed =>
    cases closed with
    | true => trivial
    | false => exact absurd rfl (hended _ _ rfl).1
  | keyword word | operator c | identifier name | number digits | symbol c | unexpected c =>
    exact hsolid rfl

/-- More text behind a run that ends with a line feed disturbs none of its pieces, unless the last
one is an open string or comment. -/
theorem AreCut.append_of_newline {run : List Piece} (h : AreCut configuration run [])
    (hlast : (textOf run).getLast? = some '\n')
    (hended : ∀ diagnostic ∈ diagnostics 0 run, diagnostic.problem ≠ .unterminatedString ∧
      diagnostic.problem ≠ .unterminatedBlockComment)
    (more : List Char) : AreCut configuration run more := by
  rcases List.eq_nil_or_concat run with hnil | ⟨init, last, hrun⟩
  · rw [hnil] at hlast
    cases hlast
  · rw [List.concat_eq_append] at hrun
    rw [hrun] at h hlast hended ⊢
    have hne : last.text ≠ [] := h.text_ne_nil last (by simp)
    have hinit := h.of_concat more
    obtain ⟨-, hfatal, hfits, -, -⟩ := areCut_append.mp h
    have hnewline := mem_text_of_getLast?_textOf hne hlast
    have hproblem : ∀ problem concerned, last.problem? = some (problem, concerned) →
        problem ≠ .unterminatedString ∧ problem ≠ .unterminatedBlockComment := by
      intro problem concerned hproblem
      apply hended ⟨⟨byteLength (textOf init), byteLength (textOf init) + byteLength concerned⟩,
        problem⟩
      rw [diagnostics_append]
      simp [diagnostics, diagnostic?, hproblem]
    have hends := endsBefore_of_mem_newline hfits hnewline hproblem
    exact areCut_append.mpr ⟨by simpa using hinit, hfatal, hfits, hends _, trivial⟩

end Piece

namespace Source

variable {configuration : Configuration} {first second joined : Source}

theorem movesDown_of_isPrefix {before : List Char}
    (hjoined : joined.chars = first.chars ++ second.chars)
    (hlast : first.chars.getLast? = some '\n') (hbefore : before <+: second.chars) :
    first.MovesDown second joined (byteLength before) := by
  obtain ⟨after, hchars⟩ := hbefore
  have hsplit : splitAt? second.chars (byteLength before) = some (before, after) :=
    splitAt?_eq_some_iff.mpr ⟨hchars.symm, rfl⟩
  have hlocation : second.location? (byteLength before) =
      some (Location.across ⟨1, 1⟩ before after) := by
    rw [location?_eq, hsplit]
    rfl
  refine ⟨_, hlocation, ?_⟩
  rw [location?_add_size hjoined hlast, hlocation]
  rfl

/-- Where the tokens and diagnostics of the second source begin, it has text in front of them. -/
theorem textOf_isPrefix_of_pieces_eq {before after : List Piece}
    (h : pieces configuration second.chars = before ++ after) :
    textOf before <+: second.chars := by
  have hwhole := textOf_pieces_isPrefix configuration second.chars
  rw [h, textOf_append] at hwhole
  exact (List.prefix_append (textOf before) (textOf after)).trans hwhole

/-- More text behind a source leaves all steps of its scan but the last as they are. -/
theorem dropLast_steps_isPrefix {run : List Piece}
    (hjoined : joined.chars = first.chars ++ second.chars) (hcut : AreCut configuration run [])
    (hchars : first.chars = textOf run) :
    (first.steps configuration).dropLast <+: joined.steps configuration := by
  rcases List.eq_nil_or_concat run with hnil | ⟨init, last, hrun⟩
  · have hsteps : first.steps configuration = [] := by
      rw [steps_eq, hchars, hnil, textOf_nil, pieces_nil]
      rfl
    rw [hsteps]
    exact List.nil_prefix
  · rw [List.concat_eq_append] at hrun
    rw [hrun] at hcut hchars
    have hfirst : first.steps configuration =
        Piece.steps 0 init ++ [last.step (0 + byteLength (textOf init))] := by
      rw [steps_eq, hchars, pieces_textOf hcut, steps_append]
      rfl
    have hwhole : joined.chars = textOf init ++ (last.text ++ second.chars) := by
      rw [hjoined, hchars]
      simp
    rw [hfirst, List.dropLast_concat, steps_eq, hwhole,
      pieces_textOf_append (hcut.of_concat second.chars), steps_append]
    exact List.prefix_append _ _

/-- A source whose pieces more text does not disturb is scanned in front of that text as it is
scanned alone, and the text behind it as that is scanned alone. -/
theorem scan_of_areCut {run : List Piece}
    (hjoined : joined.chars = first.chars ++ second.chars)
    (hcut : AreCut configuration run second.chars) (hchars : first.chars = textOf run) :
    joined.scan configuration =
      ((second.scan configuration).1.map fun later =>
          Piece.tokens 0 run ++ later.map (Token.shift first.size),
        Piece.diagnostics 0 run ++
          (second.scan configuration).2.map (Diagnostic.shift first.size)) := by
  have hpieces : pieces configuration joined.chars = run ++ pieces configuration second.chars := by
    rw [hjoined, hchars, pieces_textOf_append hcut]
  have hsize : byteLength (textOf run) = first.size := by
    rw [size, hchars]
  rw [scan_eq, scan_eq, hpieces, resultOf_append hcut.anyFatal_eq_false, diagnostics_append,
    diagnostics_add, hsize]

theorem movesDown_of_mem_tokens (hjoined : joined.chars = first.chars ++ second.chars)
    (hlast : first.chars.getLast? = some '\n') {later : List Token}
    (hlater : (second.scan configuration).1 = .ok later) {token : Token} (htoken : token ∈ later) :
    first.MovesDown second joined token.span.start := by
  rw [scan_eq] at hlater
  rw [tokens_of_resultOf_eq_ok hlater] at htoken
  obtain ⟨before, piece, after, hsplit, hpiece⟩ := exists_piece_of_mem_tokens htoken
  have hmoves := movesDown_of_isPrefix hjoined hlast (textOf_isPrefix_of_pieces_eq hsplit)
  rw [span_of_token?_eq_some hpiece, Nat.zero_add]
  exact hmoves

theorem movesDown_of_mem_diagnostics (hjoined : joined.chars = first.chars ++ second.chars)
    (hlast : first.chars.getLast? = some '\n') {diagnostic : Diagnostic}
    (hdiagnostic : diagnostic ∈ (second.scan configuration).2) :
    first.MovesDown second joined diagnostic.span.start := by
  rw [scan_eq] at hdiagnostic
  obtain ⟨before, piece, after, hsplit, hpiece⟩ := exists_piece_of_mem_diagnostics hdiagnostic
  obtain ⟨problem, concerned, -, hspan⟩ := span_of_diagnostic?_eq_some hpiece
  have hmoves := movesDown_of_isPrefix hjoined hlast (textOf_isPrefix_of_pieces_eq hsplit)
  rw [hspan, Nat.zero_add]
  exact hmoves

/-- All steps of a source's scan but the last are steps of the scan of that source with more text
behind it. When the source ends with a line feed and leaves no string or comment open, the scan of
the whole is stopped exactly when that of the text behind is, and finds the tokens and diagnostics
of the two one after the other, those of the second moved behind the first and as many lines
down. -/
theorem scan_append {tokens : List Token} {diagnostics : List Diagnostic}
    (hjoined : joined.chars = first.chars ++ second.chars)
    (h : first.scan configuration = (.ok tokens, diagnostics)) :
    (first.steps configuration).dropLast <+: joined.steps configuration ∧
    (first.chars.getLast? = some '\n' →
      (∀ diagnostic ∈ diagnostics, diagnostic.problem ≠ .unterminatedString ∧
        diagnostic.problem ≠ .unterminatedBlockComment) →
      joined.scan configuration =
        ((second.scan configuration).1.map fun later =>
            tokens ++ later.map (Token.shift first.size),
          diagnostics ++ (second.scan configuration).2.map (Diagnostic.shift first.size)) ∧
      (∀ offset ≤ first.size, joined.location? offset = first.location? offset) ∧
      (∀ later, (second.scan configuration).1 = .ok later →
        ∀ token ∈ later, first.MovesDown second joined token.span.start) ∧
      ∀ diagnostic ∈ (second.scan configuration).2,
        first.MovesDown second joined diagnostic.span.start) := by
  obtain ⟨run, hcut, hchars, rfl, rfl⟩ := scan_eq_ok_iff.mp h
  refine ⟨dropLast_steps_isPrefix hjoined hcut hchars, ?_⟩
  intro hlast hended
  have hrun : AreCut configuration run second.chars :=
    hcut.append_of_newline (hchars ▸ hlast) hended second.chars
  refine ⟨scan_of_areCut hjoined hrun hchars, ?_, ?_, ?_⟩
  · intro offset hle
    exact location?_of_le_size hjoined hlast hle
  · intro later hlater token htoken
    exact movesDown_of_mem_tokens hjoined hlast hlater htoken
  · intro diagnostic hdiagnostic
    exact movesDown_of_mem_diagnostics hjoined hlast hdiagnostic

theorem scan_append_open_string :
    (ofChars "whole.lex" "a/\r\n/b\n\"".toList).scan { grammar := .full, keywords := .wholeWord } =
        (.ok [⟨⟨0, 1⟩, .identifier ['a']⟩, ⟨⟨1, 2⟩, .operator '/'⟩, ⟨⟨4, 5⟩, .operator '/'⟩,
          ⟨⟨5, 6⟩, .identifier ['b']⟩], [⟨⟨7, 8⟩, .unterminatedString⟩]) ∧
      (ofChars "first.lex" "a/\r\n".toList).MovesDown (ofChars "second.lex" "/b\n\"".toList)
        (ofChars "whole.lex" "a/\r\n/b\n\"".toList) 3 := by
  have hfirst : (ofChars "first.lex" "a/\r\n".toList).scan
      { grammar := .full, keywords := .wholeWord } =
        (.ok [⟨⟨0, 1⟩, .identifier ['a']⟩, ⟨⟨1, 2⟩, .operator '/'⟩], []) :=
    scan_eq_ok_iff.mpr ⟨[.identifier ['a'], .operator '/', .blank '\r', .blank '\n'],
      by decide, by decide, rfl, rfl⟩
  have hsecond : (ofChars "second.lex" "/b\n\"".toList).scan
      { grammar := .full, keywords := .wholeWord } =
        (.ok [⟨⟨0, 1⟩, .operator '/'⟩, ⟨⟨1, 2⟩, .identifier ['b']⟩],
          [⟨⟨3, 4⟩, .unterminatedString⟩]) :=
    scan_eq_ok_iff.mpr ⟨[.operator '/', .identifier ['b'], .blank '\n', .string [] false],
      by decide, by decide, rfl, rfl⟩
  have happend := (@scan_append _ _ (ofChars "second.lex" "/b\n\"".toList)
    (ofChars "whole.lex" "a/\r\n/b\n\"".toList) _ _ (by decide) hfirst).2 (by decide) nofun
  rw [hsecond] at happend
  obtain ⟨hscan, -, -, hmoves⟩ := happend
  exact ⟨hscan, hmoves _ List.mem_cons_self⟩

end Source

end TokenScan
