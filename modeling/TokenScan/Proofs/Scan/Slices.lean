import TokenScan.Proofs.Scan.Places
import TokenScan.Proofs.Scan.Steps
import TokenScan.Proofs.Text.Parts

/-!
Slices of a source. The calls of `Cursor.lex` that a scan makes divide its source, and the text
between two such divisions is scanned by itself just as it was scanned in its place. The reason is
that no piece looks further than one character past its end, and what it looks for there is never
that the text ends before it does.
-/

namespace TokenScan

open Text Piece

/-- The ends of a source, and the offsets between two calls of `Cursor.lex` in its scan. -/
def Source.IsStepBoundary (configuration : Configuration) (source : Source) (offset : Nat) :
    Prop :=
  offset = 0 ∨ offset = source.size ∨
    ∃ step ∈ source.steps configuration, step.span.stop = offset

def Span.isWithin (start stop : Nat) (span : Span) : Bool :=
  start ≤ span.start && span.stop ≤ stop

/-- The offset where the last of some tokens ends, or where a source begins. -/
def Token.lastStop (start : Nat) (tokens : List Token) : Nat :=
  (tokens.getLast?.map fun token => token.span.stop).getD start

/-- The text between two offsets is scanned by itself, under any path, to the tokens and
diagnostics, which are given where they stand in the whole source. -/
def Source.Rescans (configuration : Configuration) (source : Source) (start stop : Nat)
    (tokens : List Token) (diagnostics : List Diagnostic) : Prop :=
  ∃ text alone reported, slice? source.chars start stop = some text ∧
    (∀ path, (Source.ofChars path text).scan configuration = (.ok alone, reported)) ∧
    alone.map (Token.shift start) = tokens ∧
    reported.map (Diagnostic.shift start) = diagnostics

namespace Piece

variable {configuration : Configuration}

theorem isWithin_eq_true_iff {start stop : Nat} {span : Span} :
    span.isWithin start stop = true ↔ start ≤ span.start ∧ span.stop ≤ stop := by
  simp [Span.isWithin]

/-- A span with some text in it does not lie between two offsets when it lies before or behind
them. -/
theorem isWithin_eq_false {start stop : Nat} {span : Span} (hspan : span.start < span.stop)
    (hapart : span.stop ≤ start ∨ stop ≤ span.start) : span.isWithin start stop = false := by
  rw [Bool.eq_false_iff]
  intro hwithin
  have hends := isWithin_eq_true_iff.mp hwithin
  omega

section Collect

variable {α : Type} {read : Nat → Piece → List α} {span : α → Span}

/-- Of what is read off three runs, what lies between the ends of the middle one is read off
that. -/
theorem filter_collect
    (hspan : ∀ start piece, piece.text ≠ [] → ∀ x ∈ read start piece,
      StandsIn (span x) start piece)
    {first middle last : List Piece}
    (hne : ∀ piece ∈ first ++ middle ++ last, piece.text ≠ []) :
    (collect read 0 (first ++ middle ++ last)).filter (fun x => (span x).isWithin
        (byteLength (textOf first)) (byteLength (textOf (first ++ middle)))) =
      collect read (byteLength (textOf first)) middle := by
  simp only [List.mem_append, or_imp, forall_and] at hne
  obtain ⟨⟨hfirst, hmiddle⟩, hlast⟩ := hne
  rw [collect_append, collect_append, Nat.zero_add, Nat.zero_add]
  apply filter_between
  · intro x hx
    have hplace := span_of_mem_collect hspan hfirst hx
    exact isWithin_eq_false hplace.2.1 (.inl (by omega))
  · intro x hx
    have hplace := span_of_mem_collect hspan hmiddle hx
    rw [textOf_append, byteLength_append]
    exact isWithin_eq_true_iff.mpr ⟨hplace.1, hplace.2.2⟩
  · intro x hx
    have hplace := span_of_mem_collect hspan hlast hx
    exact isWithin_eq_false hplace.2.1 (.inr hplace.1)

end Collect

theorem filter_tokens {first middle last : List Piece}
    (hne : ∀ piece ∈ first ++ middle ++ last, piece.text ≠ []) :
    (tokens 0 (first ++ middle ++ last)).filter (fun token => token.span.isWithin
        (byteLength (textOf first)) (byteLength (textOf (first ++ middle)))) =
      tokens (byteLength (textOf first)) middle := by
  rw [tokens_eq_collect, tokens_eq_collect]
  exact filter_collect standsIn_of_mem_token? hne

theorem filter_diagnostics {first middle last : List Piece}
    (hne : ∀ piece ∈ first ++ middle ++ last, piece.text ≠ []) :
    (diagnostics 0 (first ++ middle ++ last)).filter (fun diagnostic => diagnostic.span.isWithin
        (byteLength (textOf first)) (byteLength (textOf (first ++ middle)))) =
      diagnostics (byteLength (textOf first)) middle := by
  rw [diagnostics_eq_collect, diagnostics_eq_collect]
  exact filter_collect standsIn_of_mem_diagnostic? hne

/-- A step moves over one of the pieces. -/
theorem exists_piece_of_mem_steps {start : Nat} {run : List Piece} {step : Step}
    (h : step ∈ steps start run) :
    ∃ before piece after, run = before ++ piece :: after ∧
      step = piece.step (start + byteLength (textOf before)) := by
  rw [steps_eq_collect] at h
  obtain ⟨before, piece, after, hrun, hstep⟩ := exists_piece_of_mem_collect h
  exact ⟨before, piece, after, hrun, List.mem_singleton.mp hstep⟩

/-- Where one token stands among others, its piece stands among theirs. -/
theorem exists_piece_of_tokens_eq {start : Nat} {run : List Piece} {before after : List Token}
    {token : Token} (h : tokens start run = before ++ token :: after) :
    ∃ first piece last, run = first ++ piece :: last ∧ tokens start first = before ∧
      piece.token? (start + byteLength (textOf first)) = some token ∧
      tokens (start + byteLength (textOf (first ++ [piece]))) last = after := by
  induction run generalizing start before with
  | nil => simp [tokens] at h
  | cons piece run ih =>
    rw [tokens] at h
    have hplace : (before = [] ∧ piece.token? start = some token ∧
          tokens (start + byteLength piece.text) run = after) ∨
        ∃ tail, before = (piece.token? start).toList ++ tail ∧
          tokens (start + byteLength piece.text) run = tail ++ token :: after := by
      cases htoken : piece.token? start with
      | none => exact .inr ⟨before, rfl, by simpa [htoken] using h⟩
      | some found =>
        rw [htoken, Option.toList_some, List.singleton_append] at h
        cases before with
        | nil =>
          obtain ⟨rfl, hafter⟩ := List.cons.inj h
          exact .inl ⟨rfl, rfl, hafter⟩
        | cons head before =>
          obtain ⟨rfl, hrest⟩ := List.cons.inj h
          exact .inr ⟨before, rfl, hrest⟩
    rcases hplace with ⟨rfl, htoken, hafter⟩ | ⟨tail, rfl, hrest⟩
    · exact ⟨[], piece, run, rfl, rfl, htoken, by simpa using hafter⟩
    · obtain ⟨first, other, last, rfl, rfl, hother, hafter⟩ := ih hrest
      refine ⟨piece :: first, other, last, rfl, rfl, ?_, ?_⟩
      · rwa [textOf_cons, byteLength_append, ← Nat.add_assoc]
      · rwa [List.cons_append, textOf_cons, byteLength_append, ← Nat.add_assoc]

/-- A run splits where its last token ends. -/
theorem exists_split_lastStop (start : Nat) (run : List Piece) :
    ∃ first last, run = first ++ last ∧
      Token.lastStop start (tokens start run) = start + byteLength (textOf first) ∧
      tokens (start + byteLength (textOf first)) last = [] := by
  rcases List.eq_nil_or_concat (tokens start run) with hnil | ⟨before, token, hlast⟩
  · refine ⟨[], run, rfl, ?_, hnil⟩
    rw [hnil]
    rfl
  · rw [List.concat_eq_append] at hlast
    obtain ⟨first, piece, last, rfl, -, htoken, hafter⟩ := exists_piece_of_tokens_eq hlast
    refine ⟨first ++ [piece], last, by simp, ?_, hafter⟩
    rw [hlast, Token.lastStop, List.getLast?_concat, Option.map_some, Option.getD_some,
      span_of_token?_eq_some htoken]
    simp [Nat.add_assoc]

/-- Pieces that contribute no token are complained of only where the text ends. -/
theorem diagnostics_eq_nil_of_tokens_eq_nil {start : Nat} {run : List Piece} {rest : List Char}
    (hcut : AreCut configuration run rest) (hrest : rest ≠ []) (h : tokens start run = []) :
    diagnostics start run = [] := by
  induction run generalizing start with
  | nil => rfl
  | cons piece run ih =>
    obtain ⟨hfatal, hfits, hends, hafter⟩ := hcut
    obtain ⟨hhere, hlater⟩ := List.append_eq_nil_iff.mp h
    have hbehind : textOf run ++ rest ≠ [] := by
      intro hnil
      exact hrest (List.append_eq_nil_iff.mp hnil).2
    have hlexeme : piece.lexeme? = none := by
      simpa [token?] using hhere
    have hproblem : piece.problem? = none := by
      cases piece with
      | string content closed =>
        cases closed with
        | true => rfl
        | false => exact absurd hends hbehind
      | blockComment body closed =>
        cases closed with
        | true => rfl
        | false => exact absurd hends hbehind
      | number digits => cases hlexeme
      | unexpected c => cases hfatal
      | _ => rfl
    rw [diagnostics, diagnostic?, hproblem, ih hafter hlater]
    rfl

end Piece

namespace Source

variable {configuration : Configuration} {source : Source}

/-- What lies between two places of a run is scanned by itself to its own tokens and
diagnostics. -/
theorem rescans_of_split {before middle after : List Piece}
    (hcut : AreCut configuration (before ++ middle ++ after) [])
    (hchars : source.chars = textOf (before ++ middle ++ after)) :
    source.Rescans configuration (byteLength (textOf before))
      (byteLength (textOf (before ++ middle)))
      (tokens (byteLength (textOf before)) middle)
      (diagnostics (byteLength (textOf before)) middle) := by
  have hslice : slice? source.chars (byteLength (textOf before))
      (byteLength (textOf (before ++ middle))) = some (textOf middle) := by
    rw [slice?_eq_some_iff]
    refine ⟨textOf before, textOf after, ?_, rfl, ?_⟩
    · rw [hchars, textOf_append, textOf_append]
    · rw [textOf_append]
  have hmiddle : AreCut configuration middle [] := by
    have hinside := (areCut_append.mp (areCut_append.mp hcut).1).2
    exact hinside.shorten List.nil_prefix
  have hscan : ∀ path, (ofChars path (textOf middle)).scan configuration =
      (.ok (tokens 0 middle), diagnostics 0 middle) := by
    intro path
    exact scan_eq_ok_iff.mpr ⟨middle, hmiddle, rfl, rfl, rfl⟩
  refine ⟨textOf middle, _, _, hslice, hscan, ?_, ?_⟩
  · rw [← tokens_add, Nat.zero_add]
  · rw [← diagnostics_add, Nat.zero_add]

theorem exists_split_of_isStepBoundary {run : List Piece} {offset : Nat}
    (hcut : AreCut configuration run []) (hchars : source.chars = textOf run)
    (h : source.IsStepBoundary configuration offset) :
    ∃ before after, run = before ++ after ∧ byteLength (textOf before) = offset := by
  rcases h with rfl | rfl | ⟨step, hstep, rfl⟩
  · exact ⟨[], run, rfl, rfl⟩
  · refine ⟨run, [], (List.append_nil run).symm, ?_⟩
    rw [← hchars]
    rfl
  · rw [Source.steps_eq, hchars, pieces_textOf hcut] at hstep
    obtain ⟨before, piece, after, rfl, rfl⟩ := exists_piece_of_mem_steps hstep
    refine ⟨before ++ [piece], after, by simp, ?_⟩
    simp [step]

/-- Of two places in a run the one with the smaller offset is not behind the other. -/
theorem exists_append_of_byteLength_le {run before first after last : List Piece}
    (hne : ∀ piece ∈ run, piece.text ≠ []) (hfirst : run = before ++ last)
    (hlast : run = first ++ after)
    (hle : byteLength (textOf before) ≤ byteLength (textOf first)) :
    ∃ middle, first = before ++ middle := by
  have heq : before ++ last = first ++ after := hfirst.symm.trans hlast
  rcases List.append_eq_append_iff.mp heq with ⟨middle, hmiddle, -⟩ | ⟨extra, hextra, -⟩
  · exact ⟨middle, hmiddle⟩
  · cases extra with
    | nil => exact ⟨[], by simp [hextra]⟩
    | cons piece extra =>
      have hmem : piece ∈ run := by simp [hfirst, hextra]
      have hpos := byteLength_text_pos (hne piece hmem)
      rw [hextra, textOf_append, byteLength_append, textOf_cons, byteLength_append] at hle
      omega

theorem rescans_between {run : List Piece} (hcut : AreCut configuration run [])
    (hchars : source.chars = textOf run) {start stop : Nat}
    (hstart : source.IsStepBoundary configuration start)
    (hstop : source.IsStepBoundary configuration stop) (hle : start ≤ stop) :
    source.Rescans configuration start stop
      ((tokens 0 run).filter fun token => token.span.isWithin start stop)
      ((diagnostics 0 run).filter fun diagnostic => diagnostic.span.isWithin start stop) := by
  have hne := hcut.text_ne_nil
  obtain ⟨before, last, hfirst, rfl⟩ := exists_split_of_isStepBoundary hcut hchars hstart
  obtain ⟨first, after, hlast, rfl⟩ := exists_split_of_isStepBoundary hcut hchars hstop
  obtain ⟨middle, rfl⟩ := exists_append_of_byteLength_le hne hfirst hlast hle
  subst hlast
  rw [filter_tokens hne, filter_diagnostics hne]
  exact rescans_of_split hcut hchars

theorem rescans_token {run : List Piece} (hcut : AreCut configuration run [])
    (hchars : source.chars = textOf run) {token : Token} (htoken : token ∈ tokens 0 run) :
    source.Rescans configuration token.span.start token.span.stop [token]
      ((diagnostics 0 run).filter fun diagnostic =>
        diagnostic.span.isWithin token.span.start token.span.stop) := by
  obtain ⟨first, piece, last, rfl, hpiece⟩ := exists_piece_of_mem_tokens htoken
  rw [List.append_cons] at hcut hchars ⊢
  have hspan := span_of_token?_eq_some hpiece
  have hstop : byteLength (textOf (first ++ [piece])) = token.span.stop := by
    simp [hspan]
  have hrescans := rescans_of_split hcut hchars
  rw [← filter_diagnostics hcut.text_ne_nil] at hrescans
  rw [Nat.zero_add] at hpiece hspan
  simpa [hstop, hspan, Piece.tokens, hpiece] using hrescans

theorem rescans_gap {run : List Piece} (hcut : AreCut configuration run [])
    (hchars : source.chars = textOf run) {before after : List Token} {token : Token}
    (htokens : tokens 0 run = before ++ token :: after) :
    source.Rescans configuration (Token.lastStop 0 before) token.span.start [] [] := by
  have hne := hcut.text_ne_nil
  obtain ⟨first, piece, last, rfl, rfl, hpiece, -⟩ := exists_piece_of_tokens_eq htokens
  obtain ⟨inner, gap, rfl, hlast, hnone⟩ := exists_split_lastStop 0 first
  have hbehind : textOf (piece :: last) ++ [] ≠ [] := by
    have hpiece := hne piece (by simp)
    simp [hpiece]
  have hgap : AreCut configuration gap (textOf (piece :: last) ++ []) :=
    (areCut_append.mp (areCut_append.mp hcut).1).2
  -- A token follows the gap, so no string or comment in it is left open.
  have hquiet := diagnostics_eq_nil_of_tokens_eq_nil hgap hbehind hnone
  have hrescans := rescans_of_split hcut hchars
  have hstart : token.span.start = byteLength (textOf (inner ++ gap)) := by
    simp [span_of_token?_eq_some hpiece]
  rw [Nat.zero_add] at hlast hnone hquiet
  rwa [hlast, hstart, ← hnone, ← hquiet]

theorem rescans_tail {run : List Piece} (hcut : AreCut configuration run [])
    (hchars : source.chars = textOf run) :
    source.Rescans configuration (Token.lastStop 0 (tokens 0 run)) source.size []
      ((diagnostics 0 run).filter fun diagnostic =>
        diagnostic.span.isWithin (Token.lastStop 0 (tokens 0 run)) source.size) := by
  obtain ⟨inner, tail, rfl, hlast, hnone⟩ := exists_split_lastStop 0 run
  rw [Nat.zero_add] at hlast hnone
  have hstop : source.size = byteLength (textOf (inner ++ tail)) := by
    rw [Source.size, hchars]
  rw [hlast, hstop, ← hnone]
  rw [← List.append_nil (inner ++ tail)] at hcut hchars
  have hrescans := rescans_of_split hcut hchars
  have htail := filter_diagnostics hcut.text_ne_nil
  rw [List.append_nil] at htail
  rwa [htail]

/-- Between any two calls of its scan, a source that is scanned without being stopped is scanned
by itself to the tokens and diagnostics found there. So the text of a token is scanned to that
token, the text before a token and behind the one before it is scanned to nothing at all, and the
text behind the last token to no token. -/
theorem scan_slice {tokens : List Token} {diagnostics : List Diagnostic}
    (h : source.scan configuration = (.ok tokens, diagnostics)) :
    (∀ start stop, source.IsStepBoundary configuration start →
      source.IsStepBoundary configuration stop → start ≤ stop →
      source.Rescans configuration start stop
        (tokens.filter fun token => token.span.isWithin start stop)
        (diagnostics.filter fun diagnostic => diagnostic.span.isWithin start stop)) ∧
    (∀ token ∈ tokens,
      source.Rescans configuration token.span.start token.span.stop [token]
        (diagnostics.filter fun diagnostic =>
          diagnostic.span.isWithin token.span.start token.span.stop)) ∧
    (∀ before token after, tokens = before ++ token :: after →
      source.Rescans configuration (Token.lastStop 0 before) token.span.start [] []) ∧
    source.Rescans configuration (Token.lastStop 0 tokens) source.size []
      (diagnostics.filter fun diagnostic =>
        diagnostic.span.isWithin (Token.lastStop 0 tokens) source.size) := by
  obtain ⟨run, hcut, hchars, rfl, rfl⟩ := scan_eq_ok_iff.mp h
  refine ⟨?_, ?_, ?_, ?_⟩
  · intro start stop hstart hstop hle
    exact rescans_between hcut hchars hstart hstop hle
  · intro token htoken
    exact rescans_token hcut hchars htoken
  · intro before token after htokens
    exact rescans_gap hcut hchars htokens
  · exact rescans_tail hcut hchars

theorem scan_slice_behind_word :
    (ofChars "note.lex" "x/ é/*".toList).Rescans { grammar := .full, keywords := .wholeWord } 1 7
        [⟨⟨1, 2⟩, .operator '/'⟩, ⟨⟨3, 5⟩, .symbol 'é'⟩]
        [⟨⟨5, 7⟩, .unterminatedBlockComment⟩] ∧
      (ofChars "note.lex" "x/ é/*".toList).Rescans { grammar := .full, keywords := .wholeWord } 2 3
        [] [] := by
  have hcut : AreCut { grammar := .full, keywords := .wholeWord }
      [.identifier ['x'], .operator '/', .blank ' ', .symbol 'é', .blockComment [] false] [] := by
    decide
  have hchars : (ofChars "note.lex" "x/ é/*".toList).chars =
      textOf [.identifier ['x'], .operator '/', .blank ' ', .symbol 'é',
        .blockComment [] false] := by
    decide
  have hscan := scan_eq_ok_iff.mpr ⟨_, hcut, hchars, rfl, rfl⟩
  obtain ⟨hslices, -, hgaps, -⟩ := scan_slice hscan
  refine ⟨?_, hgaps [⟨⟨0, 1⟩, .identifier ['x']⟩, ⟨⟨1, 2⟩, .operator '/'⟩] _ [] rfl⟩
  apply hslices 1 7
  · refine .inr (.inr ⟨step 0 (.identifier ['x']), ?_, rfl⟩)
    rw [steps_eq, hchars, pieces_textOf hcut]
    exact List.mem_cons_self
  · exact .inr (.inl rfl)
  · decide

end Source

end TokenScan
