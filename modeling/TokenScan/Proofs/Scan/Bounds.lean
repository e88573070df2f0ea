import TokenScan.Proofs.Diagnostic.Panics
import TokenScan.Proofs.Scan.Places
import TokenScan.Proofs.Scan.Steps
import TokenScan.Proofs.Source.Cursors

/-!
Nothing is read out of bounds. A call of `Cursor.lex` moves the cursor by reading, and each span
that it makes goes from where the cursor stood to a place that it came by. So every token and
diagnostic has a span of its source, whose ends have locations, and a string can be freed from its
quotes. What `Cursor.lex` does at one cursor is carried over to a scan through the steps it makes.
-/

namespace TokenScan

open Text

/-- A token has a span of the source. If it is a string, what is inside its first and last byte is
its content. -/
structure Token.IsInBounds (source : Source) (token : Token) : Prop where
  span : source.span? token.span.start token.span.stop = some token.span
  content : ∀ content, token.lexeme = .string content →
    2 ≤ byteLength (source.charsIn token.span) ∧
      slice? (source.charsIn token.span) 1 (byteLength (source.charsIn token.span) - 1) =
        some content

/-- A call at a cursor moves it by reading and makes spans only from where it stood to a place that
it comes by. -/
structure Lexed.IsInBounds (cursor : Cursor) (lexed : Lexed (Array Report)) : Prop where
  reads : cursor.Reads lexed.cursor
  token : ∀ token, lexed.result = .ok (some token) →
    lexed.cursor.spanFrom? cursor.offset = some token.span ∧ token.IsInBounds cursor.source
  diagnostic : ∀ report ∈ lexed.held, ∃ passed, cursor.Reads passed ∧ passed.Reads lexed.cursor ∧
    passed.spanFrom? cursor.offset = some report.diagnostic.span

structure Step.IsCall (configuration : Configuration) (cursor : Cursor) (step : Step) : Prop where
  span : step.span =
    ⟨cursor.offset, (cursor.lex configuration Handler.store #[]).cursor.offset⟩
  result : step.result = (cursor.lex configuration Handler.store #[]).result
  diagnostics : step.diagnostics =
    (cursor.lex configuration Handler.store #[]).held.toList.map Report.diagnostic

/-! ### Pieces -/

section Pieces

variable {source : Source} {piece : Piece} {before after : List Char}

theorem Piece.eq_string_of_lexeme? {content : List Char}
    (h : piece.lexeme? = some (.string content)) : piece = .string content true := by
  cases piece with
  | string other closed =>
    cases closed with
    | true => simpa [lexeme?] using h
    | false => cases h
  | _ => cases h

theorem Source.slice?_of_append {between : List Char}
    (h : source.chars = before ++ (between ++ after)) :
    slice? source.chars (byteLength before) (byteLength before + byteLength between) =
      some between :=
  slice?_eq_some_iff.mpr ⟨before, after, by rw [h, List.append_assoc], rfl,
    byteLength_append before between⟩

theorem Source.charsIn_of_append {between : List Char}
    (h : source.chars = before ++ (between ++ after)) :
    source.charsIn ⟨byteLength before, byteLength before + byteLength between⟩ = between := by
  rw [charsIn, slice?_of_append h, Option.getD_some]

/-- What is inside the first and last byte of a text in quotes is what is quoted. -/
theorem slice?_of_quoted (content : List Char) :
    2 ≤ byteLength (['"'] ++ content ++ ['"']) ∧
      slice? (['"'] ++ content ++ ['"']) 1 (byteLength (['"'] ++ content ++ ['"']) - 1) =
        some content := by
  have hlength : byteLength (['"'] ++ content ++ ['"']) = byteLength content + 2 := by
    simp only [byteLength_append, byteLength_cons, byteLength_nil]
    have hquote : ('"' : Char).utf8Size = 1 := rfl
    omega
  rw [hlength]
  refine ⟨Nat.le_add_left 2 _, slice?_eq_some_iff.mpr ⟨['"'], ['"'], rfl, rfl, ?_⟩⟩
  rw [byteLength_append, Nat.add_comm]
  rfl

/-- Where a piece stands in a source, the token that it contributes is in bounds. -/
theorem Piece.isInBounds_of_token? (h : source.chars = before ++ (piece.text ++ after))
    {token : Token} (htoken : piece.token? (byteLength before) = some token) :
    token.IsInBounds source := by
  have hslice := Source.slice?_of_append h
  have hspan := span_of_token?_eq_some htoken
  refine ⟨?_, ?_⟩
  · rw [hspan, Source.span?, hslice]
    rfl
  · intro content hcontent
    obtain ⟨lexeme, hlexeme, rfl⟩ := Option.map_eq_some_iff.mp htoken
    obtain rfl : lexeme = .string content := hcontent
    obtain rfl := Piece.eq_string_of_lexeme? hlexeme
    have hchars : source.charsIn ⟨byteLength before,
        byteLength before + byteLength (Piece.string content true).text⟩ =
          ['"'] ++ content ++ ['"'] :=
      Source.charsIn_of_append h
    rw [hchars]
    exact slice?_of_quoted content

/-- What a piece is complained of concerns some text at its beginning. -/
theorem Piece.exists_append_of_diagnostic? {start : Nat} {diagnostic : Diagnostic}
    (hne : piece.text ≠ []) (h : piece.diagnostic? start = some diagnostic) :
    ∃ concerned rest, piece.text = concerned ++ rest ∧
      diagnostic.span = ⟨start, start + byteLength concerned⟩ := by
  obtain ⟨problem, concerned, hproblem, rfl⟩ := span_of_diagnostic?_eq_some h
  obtain ⟨-, rest, htext⟩ := problem?_eq_some hproblem hne
  exact ⟨concerned, rest, htext.symm, rfl⟩

end Pieces

/-! ### Calls -/

section Calls

variable {configuration : Configuration} {cursor : Cursor}

theorem Cursor.reads_lex {Held : Type} (configuration : Configuration) (handler : Handler Held)
    (cursor : Cursor) (held : Held) :
    cursor.Reads (cursor.lex configuration handler held).cursor := by
  cases hnext : Piece.next? configuration cursor.rest with
  | none =>
    rw [cursor.lex_of_next?_eq_none handler held hnext]
    exact .refl cursor
  | some cut =>
    obtain ⟨piece, rest⟩ := cut
    rw [cursor.lex_of_next?_eq_some handler held hnext]
    exact reads_past (Piece.text_append_of_next? hnext).symm

/-- A call stays in bounds at every cursor that holds what is left of its source. -/
theorem Cursor.HasRead.isInBounds_lex {before : List Char} (h : cursor.HasRead before)
    (configuration : Configuration) :
    (cursor.lex configuration Handler.store #[]).IsInBounds cursor := by
  have hreads := cursor.reads_lex configuration Handler.store #[]
  cases hnext : Piece.next? configuration cursor.rest with
  | none =>
    rw [cursor.lex_of_next?_eq_none Handler.store #[] hnext] at hreads ⊢
    exact ⟨hreads, nofun, nofun⟩
  | some cut =>
    obtain ⟨piece, rest⟩ := cut
    have hrest := Piece.text_append_of_next? hnext
    have hchars : cursor.source.chars = before ++ (piece.text ++ rest) := by
      rw [hrest]
      exact h.chars
    rw [cursor.lex_of_next?_eq_some Handler.store #[] hnext] at hreads ⊢
    refine ⟨hreads, ?_, ?_⟩
    · intro token htoken
      dsimp only at htoken
      split at htoken
      · cases htoken
      · have hfound : piece.token? cursor.offset = some token := Except.ok.inj htoken
        refine ⟨?_, ?_⟩
        · rw [Piece.span_of_token?_eq_some hfound]
          exact h.spanFrom? hreads
        · rw [h.offset] at hfound
          exact Piece.isInBounds_of_token? hchars hfound
    · intro report hreport
      dsimp only at hreport
      rw [store_receiveAll] at hreport
      obtain ⟨diagnostic, hdiagnostic, rfl⟩ : ∃ diagnostic,
          piece.diagnostic? cursor.offset = some diagnostic ∧
            Report.mk cursor.source diagnostic = report := by
        simpa using hreport
      obtain ⟨concerned, behind, htext, hspan⟩ :=
        Piece.exists_append_of_diagnostic? (Piece.text_ne_nil_of_next? hnext) hdiagnostic
      have hconcerned : cursor.Reads (cursor.past concerned (behind ++ rest)) :=
        Cursor.reads_past (by rw [← hrest, htext, List.append_assoc])
      -- The cursor comes by the end of the span on its way to the end of the piece.
      have hbehind := @Cursor.reads_past (cursor.past concerned (behind ++ rest)) behind rest rfl
      rw [Cursor.past_past, ← htext] at hbehind
      refine ⟨_, hconcerned, hbehind, ?_⟩
      rw [hspan]
      exact h.spanFrom? hconcerned

/-- The steps from a cursor are calls at cursors that it comes to by reading. -/
theorem Cursor.exists_isCall_of_mem_steps (cursor : Cursor) {step : Step}
    (h : step ∈ cursor.steps configuration) :
    ∃ later, cursor.Reads later ∧ step.IsCall configuration later := by
  rw [Cursor.steps] at h
  split at h
  · cases h
  · obtain rfl := List.mem_singleton.mp h
    exact ⟨cursor, .refl cursor, rfl, rfl, rfl⟩
  · next hresult =>
    obtain rfl | hlater := List.mem_cons.mp h
    · exact ⟨cursor, .refl cursor, rfl, rfl, rfl⟩
    · have hshorter := Cursor.rest_lex_lt hresult
      obtain ⟨later, hreads, hcall⟩ := exists_isCall_of_mem_steps _ hlater
      exact ⟨later, (cursor.reads_lex configuration Handler.store #[]).trans hreads, hcall⟩
termination_by cursor.rest.length

end Calls

/-! ### Scans -/

namespace Piece

theorem areCut_tabs (count : Nat) (rest : List Char) :
    AreCut {} (List.replicate count (blank '\t')) rest := by
  induction count with
  | zero => trivial
  | succ count ih =>
    rw [List.replicate_succ]
    exact areCut_cons.mpr ⟨⟨rfl, rfl⟩, ih⟩

theorem textOf_tabs (count : Nat) :
    textOf (List.replicate count (blank '\t')) = List.replicate count '\t' := by
  induction count with
  | zero => rfl
  | succ count ih =>
    rw [List.replicate_succ, textOf_cons, ih]
    rfl

theorem tokens_tabs (start count : Nat) :
    tokens start (List.replicate count (blank '\t')) = [] := by
  induction count generalizing start with
  | zero => rfl
  | succ count ih => exact ih _

theorem diagnostics_tabs (start count : Nat) :
    diagnostics start (List.replicate count (blank '\t')) = [] := by
  induction count generalizing start with
  | zero => rfl
  | succ count ih => exact ih _

end Piece

namespace Source

variable {configuration : Configuration} {source : Source}

theorem exists_append_of_pieces (configuration : Configuration) {before after : List Piece}
    {piece : Piece} (h : pieces configuration source.chars = before ++ piece :: after) :
    ∃ rest, source.chars = Piece.textOf before ++ (piece.text ++ rest) := by
  obtain ⟨rest, hrest⟩ := textOf_pieces_isPrefix configuration source.chars
  refine ⟨Piece.textOf after ++ rest, ?_⟩
  rw [← hrest, h, Piece.textOf_append, Piece.textOf_cons, List.append_assoc, List.append_assoc]

theorem isInBounds_of_mem_tokens {tokens : List Token}
    (h : (source.scan configuration).1 = .ok tokens) {token : Token} (htoken : token ∈ tokens) :
    token.IsInBounds source := by
  rw [scan_eq] at h
  rw [tokens_of_resultOf_eq_ok h] at htoken
  obtain ⟨before, piece, after, hrun, hpiece⟩ := Piece.exists_piece_of_mem_tokens htoken
  obtain ⟨rest, hchars⟩ := exists_append_of_pieces configuration hrun
  rw [Nat.zero_add] at hpiece
  exact Piece.isInBounds_of_token? hchars hpiece

theorem span?_of_mem_diagnostics {diagnostic : Diagnostic}
    (h : diagnostic ∈ (source.scan configuration).2) :
    source.span? diagnostic.span.start diagnostic.span.stop = some diagnostic.span := by
  rw [scan_eq] at h
  obtain ⟨before, piece, after, hrun, hpiece⟩ := Piece.exists_piece_of_mem_diagnostics h
  obtain ⟨rest, hchars⟩ := exists_append_of_pieces configuration hrun
  rw [Nat.zero_add] at hpiece
  have hmem : piece ∈ pieces configuration source.chars := by
    rw [hrun]
    exact List.mem_append_right before List.mem_cons_self
  obtain ⟨concerned, behind, htext, hspan⟩ :=
    Piece.exists_append_of_diagnostic? (Piece.Fits.text_ne_nil (fits_of_mem_pieces hmem)) hpiece
  rw [htext, List.append_assoc] at hchars
  rw [hspan, span?, slice?_of_append hchars]
  rfl

/-- The full grammar accepts every text. -/
theorem tokenize_text (text : String) :
    (tokenize {} Handler.discard (ofText "<string>" text) ()).1 = .ok (tokenizeText text) := by
  have hfatal := anyFatal_pieces_full .singleCharacter (ofText "<string>" text).chars
  have hresult : (tokenize {} Handler.discard (ofText "<string>" text) ()).1 =
      .ok (Piece.tokens 0 (pieces {} (ofText "<string>" text).chars)) := by
    rw [tokenize_eq_pieces, resultOf]
    dsimp only
    rw [if_neg (Bool.eq_false_iff.mp hfatal), List.nil_append]
  rw [tokenizeText, hresult]

theorem one_le_of_location? {offset : Nat} {location : Location}
    (h : source.location? offset = some location) : 1 ≤ location.line ∧ 1 ≤ location.column := by
  have hboundary : source.IsBoundary offset := isSome_location?_iff.mp (by rw [h]; rfl)
  obtain ⟨line, between, -, -, hlocation⟩ := location?_eq_indexAt hboundary
  rw [h, Option.some_inj] at hlocation
  rw [hlocation]
  exact ⟨Nat.succ_pos _, Nat.succ_pos _⟩

/-- What an excerpt needs to know of a span is there. -/
theorem exists_rows_of_span? {span : Span}
    (h : source.span? span.start span.stop = some span) :
    ∃ start stop, source.location? span.start = some start ∧
      source.location? span.stop = some stop ∧
      1 ≤ start.line ∧ 1 ≤ start.column ∧ 1 ≤ stop.line ∧ 1 ≤ stop.column ∧
      slice? source.chars span.start span.stop = some (source.charsIn span) ∧
      ∀ help, (Excerpt.ofSpan source span help).rows =
        Excerpt.rowsOf source span start stop help := by
  obtain ⟨start, stop, hstart, hstop⟩ := exists_location?_of_span? h
  obtain ⟨between, hslice, -⟩ := Option.map_eq_some_iff.mp h
  obtain ⟨hstartLine, hstartColumn⟩ := one_le_of_location? hstart
  obtain ⟨hstopLine, hstopColumn⟩ := one_le_of_location? hstop
  refine ⟨start, stop, hstart, hstop, hstartLine, hstartColumn, hstopLine, hstopColumn, ?_,
    Excerpt.rows_ofSpan hstart hstop⟩
  rw [charsIn, hslice]
  rfl

theorem scan_quote {count : Nat} (hchars : source.chars = Excerpt.quoteBehindTabs count) :
    source.scan {} = (.ok [], [⟨⟨count, count + 1⟩, .unterminatedString⟩]) := by
  have hlength : byteLength (Piece.textOf (List.replicate count (.blank '\t'))) = count := by
    rw [Piece.textOf_tabs, Excerpt.byteLength_tabs]
  refine scan_eq_ok_iff.mpr
    ⟨List.replicate count (.blank '\t') ++ [.string [] false], ?_, ?_, ?_, ?_⟩
  · exact Piece.areCut_append.mpr ⟨Piece.areCut_tabs count _, by decide⟩
  · rw [Piece.textOf_append, Piece.textOf_tabs, hchars]
    rfl
  · rw [Piece.tokens_append, Piece.tokens_tabs]
    rfl
  · rw [Piece.diagnostics_append, Piece.diagnostics_tabs, hlength, Nat.zero_add]
    rfl

/-- Nothing is read out of bounds. Wherever reading brings a cursor, the rest of the source is cut
at its offset, and from there to any place it comes to later there is a span. All that a call does
at the cursor is of that kind, and a scan is made of such calls. The tokens and diagnostics have
spans of the source, and a string has a quote of one byte at either end. The full grammar accepts
every text. There is a line for each offset between two characters, the number of lines is never
zero, and the text from the start of the line to the offset can be cut out. Both ends of every span
have locations, whose lines and columns are at least one, so an excerpt can be made of it. To print
the excerpt panics just if the span stays on one line and what is in front of it there is wider than
a width may be. -/
theorem accesses_in_bounds (configuration : Configuration) (source : Source) :
    (∀ cursor, source.cursor.Reads cursor →
      slice? source.chars cursor.offset source.size = some cursor.rest ∧
      (∀ condition, cursor.Reads (cursor.eatWhile condition)) ∧
      (∀ later, cursor.Reads later →
        later.spanFrom? cursor.offset = some ⟨cursor.offset, later.offset⟩) ∧
      (cursor.lex configuration Handler.store #[]).IsInBounds cursor) ∧
    (∀ step ∈ source.steps configuration,
      ∃ cursor, source.cursor.Reads cursor ∧ step.IsCall configuration cursor) ∧
    (∀ tokens, (source.scan configuration).1 = .ok tokens →
      ∀ token ∈ tokens, token.IsInBounds source) ∧
    (∀ diagnostic ∈ (source.scan configuration).2,
      source.span? diagnostic.span.start diagnostic.span.stop = some diagnostic.span) ∧
    (∀ text, (tokenize {} Handler.discard (ofText "<string>" text) ()).1 =
      .ok (tokenizeText text)) ∧
    0 < source.lineCount ∧
    source.lines.IsChain (fun line next => next.start = line.stop) ∧
    (∀ line ∈ source.lines, slice? source.chars line.start line.stop = some line.chars) ∧
    (∀ offset, source.IsBoundary offset →
      ∃ line between, source.lines[Line.indexAt offset source.lines]? = some line ∧
        slice? source.chars line.start offset = some between ∧
        source.location? offset =
          some ⟨Line.indexAt offset source.lines + 1, between.length + 1⟩) ∧
    source.span? source.size source.size = some ⟨source.size, source.size⟩ ∧
    ∀ span : Span, source.span? span.start span.stop = some span →
      ∃ start stop, source.location? span.start = some start ∧
        source.location? span.stop = some stop ∧
        1 ≤ start.line ∧ 1 ≤ start.column ∧ 1 ≤ stop.line ∧ 1 ≤ stop.column ∧
        slice? source.chars span.start span.stop = some (source.charsIn span) ∧
        ∀ help, (Excerpt.ofSpan source span help).rows =
            Excerpt.rowsOf source span start stop help ∧
          ((Excerpt.ofSpan source span help).printed.panicked = true ↔
            start.line = Excerpt.lastLine start stop ∧
              Printed.widestSpace < Excerpt.caretIndent source start) := by
  refine ⟨?_, fun _ => Cursor.exists_isCall_of_mem_steps source.cursor,
    fun _ hscan _ => isInBounds_of_mem_tokens hscan, fun _ => span?_of_mem_diagnostics,
    tokenize_text, source.lineCount_pos, source.isChain_lines, fun _ => slice?_of_mem_lines,
    fun _ => location?_eq_indexAt, ?_, ?_⟩
  · intro cursor hreads
    obtain ⟨hsource, before, hread⟩ := source.hasRead_cursor.reads hreads
    have hrest := hread.slice?
    rw [hsource] at hrest
    exact ⟨hrest, cursor.reads_eatWhile, fun _ => hread.spanFrom?,
      hread.isInBounds_lex configuration⟩
  · have hend : slice? source.chars source.size source.size = some [] :=
      slice?_eq_some_iff.mpr ⟨source.chars, [], by simp, rfl, by rw [List.append_nil, size]⟩
    rw [span?, hend]
    rfl
  · intro span hspan
    obtain ⟨start, stop, hstart, hstop, hstartLine, hstartColumn, hstopLine, hstopColumn, hslice,
      hrows⟩ := exists_rows_of_span? hspan
    exact ⟨start, stop, hstart, hstop, hstartLine, hstartColumn, hstopLine, hstopColumn, hslice,
      fun help => ⟨hrows help, Excerpt.panicked_ofSpan hstart hstop help⟩⟩

/-- The excerpt that shows the only diagnostic of a scan cannot be printed. -/
theorem panicked_behind_many_tabs :
    ((ofChars "<test>" (Excerpt.quoteBehindTabs 16384)).scan {}).2 =
      [⟨⟨16384, 16385⟩, .unterminatedString⟩] ∧
    (ofChars "<test>" (Excerpt.quoteBehindTabs 16384)).span? 16384 16385 =
      some ⟨16384, 16385⟩ ∧
    ∀ help, (Excerpt.ofSpan (ofChars "<test>" (Excerpt.quoteBehindTabs 16384)) ⟨16384, 16385⟩
      help).printed.panicked = true :=
  ⟨congrArg Prod.snd (scan_quote rfl), Excerpt.span?_quote rfl,
    fun help => (Excerpt.panicked_quote rfl help).mpr (by decide)⟩

end Source

end TokenScan
