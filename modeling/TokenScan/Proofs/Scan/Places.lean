import TokenScan.Proofs.Scan.Cuts

/-!
Places in a run of pieces. Every character of a run's text lies in one of its pieces, and
what is read off a piece stands at the beginning of that piece and does not reach past its end. So
the tokens and the diagnostics of a run stand one behind the other.
-/

namespace TokenScan

open Text

/-- The spans are in the order of a source, and none of them reaches into the next. -/
def Span.InOrder (spans : List Span) : Prop :=
  spans.Pairwise fun first second => first.stop ≤ second.start

theorem Span.InOrder.pairwise_start {spans : List Span} (h : InOrder spans)
    (hne : ∀ span ∈ spans, span.start < span.stop) :
    spans.Pairwise fun first second => first.start < second.start := by
  refine h.imp_of_mem ?_
  intro first second hfirst _ horder
  exact Nat.lt_of_lt_of_le (hne first hfirst) horder

theorem Span.order_eq_lt {first second : Span} (h : first.start < second.start) :
    first.order second = .lt := by
  rw [order, Nat.compare_eq_lt.mpr h]
  rfl

namespace Text

/-- Of two beginnings of one text that end at the same offset the first is the second. -/
theorem eq_of_byteLength_eq {first second after behind : List Char}
    (h : first ++ after = second ++ behind) (hlength : byteLength first = byteLength second) :
    first = second ∧ after = behind := by
  have hfirst : splitAt? (first ++ after) (byteLength first) = some (first, after) :=
    splitAt?_eq_some_iff.mpr ⟨rfl, rfl⟩
  have hsecond : splitAt? (first ++ after) (byteLength first) = some (second, behind) :=
    splitAt?_eq_some_iff.mpr ⟨h, hlength.symm⟩
  rw [hfirst] at hsecond
  exact Prod.mk.inj (Option.some.inj hsecond)

end Text

namespace Piece

theorem byteLength_text_pos {piece : Piece} (h : piece.text ≠ []) :
    0 < byteLength piece.text := by
  have hzero := mt byteLength_eq_zero_iff.mp h
  omega

/-- The pieces that there is something wrong with. -/
theorem problem?_cases {piece : Piece} {problem : Problem} {concerned : List Char}
    (h : piece.problem? = some (problem, concerned)) :
    (∃ content, piece = string content false ∧ problem = .unterminatedString ∧
      concerned = ['"']) ∨
    (∃ body, piece = blockComment body false ∧ problem = .unterminatedBlockComment ∧
      concerned = ['/', '*']) ∨
    (piece = number concerned ∧ problem = .numericOverflow) ∨
    ∃ c, piece = unexpected c ∧ problem = .unexpectedCharacter c ∧ concerned = [c] := by
  cases piece with
  | string content closed =>
    cases closed with
    | true => cases h
    | false =>
      cases h
      exact .inl ⟨content, rfl, rfl, rfl⟩
  | blockComment body closed =>
    cases closed with
    | true => cases h
    | false =>
      cases h
      exact .inr (.inl ⟨body, rfl, rfl, rfl⟩)
  | number digits =>
    rw [problem?] at h
    split at h
    · cases h
      exact .inr (.inr (.inl ⟨rfl, rfl⟩))
    · cases h
  | unexpected c =>
    cases h
    exact .inr (.inr (.inr ⟨c, rfl, rfl, rfl⟩))
  | _ => cases h

/-- What is wrong with a piece concerns some text at its beginning. -/
theorem problem?_eq_some {piece : Piece} {problem : Problem} {concerned : List Char}
    (h : piece.problem? = some (problem, concerned)) (hne : piece.text ≠ []) :
    concerned ≠ [] ∧ concerned <+: piece.text := by
  rcases problem?_cases h with ⟨content, rfl, -, rfl⟩ | ⟨body, rfl, -, rfl⟩ | ⟨rfl, -⟩ |
    ⟨c, rfl, -, rfl⟩
  · exact ⟨by simp, content, by simp [text]⟩
  · exact ⟨by simp, body, by simp [text]⟩
  · exact ⟨hne, List.prefix_refl _⟩
  · exact ⟨by simp, List.prefix_refl _⟩

/-- A span with some text in it that begins with a piece and ends within it. -/
def StandsIn (span : Span) (start : Nat) (piece : Piece) : Prop :=
  start = span.start ∧ span.start < span.stop ∧ span.stop ≤ start + byteLength piece.text

theorem standsIn_of_mem_token? (start : Nat) (piece : Piece) (hne : piece.text ≠ []) :
    ∀ token ∈ (piece.token? start).toList, StandsIn token.span start piece := by
  intro token htoken
  have hpos := byteLength_text_pos hne
  rw [span_of_token?_eq_some (Option.mem_toList.mp htoken)]
  exact ⟨rfl, Nat.lt_add_of_pos_right hpos, Nat.le_refl _⟩

theorem standsIn_of_mem_diagnostic? (start : Nat) (piece : Piece) (hne : piece.text ≠ []) :
    ∀ diagnostic ∈ (piece.diagnostic? start).toList, StandsIn diagnostic.span start piece := by
  intro diagnostic hdiagnostic
  obtain ⟨problem, concerned, hproblem, hspan⟩ :=
    span_of_diagnostic?_eq_some (Option.mem_toList.mp hdiagnostic)
  obtain ⟨hsome, rest, htext⟩ := problem?_eq_some hproblem hne
  have hpos := mt byteLength_eq_zero_iff.mp hsome
  rw [hspan, StandsIn, ← htext, byteLength_append]
  dsimp only
  omega

section Collect

variable {α : Type} {span : α → Span}

/-- What is read off the pieces it stands in lies within them. -/
theorem span_of_mem_collect {read : Nat → Piece → List α}
    (hspan : ∀ start piece, piece.text ≠ [] → ∀ x ∈ read start piece,
      StandsIn (span x) start piece)
    {start : Nat} {run : List Piece} (hne : ∀ piece ∈ run, piece.text ≠ []) {x : α}
    (h : x ∈ collect read start run) :
    start ≤ (span x).start ∧ (span x).start < (span x).stop ∧
      (span x).stop ≤ start + byteLength (textOf run) := by
  obtain ⟨before, piece, after, hrun, hx⟩ := exists_piece_of_mem_collect h
  have hpiece : piece ∈ run := by simp [hrun]
  have hplace := hspan _ piece (hne piece hpiece) x hx
  rw [StandsIn] at hplace
  rw [hrun, textOf_append, textOf_cons, byteLength_append, byteLength_append]
  omega

/-- Where at most one thing is read off each piece, the spans are in order. -/
theorem inOrder_collect {read : Nat → Piece → Option α}
    (hspan : ∀ start piece, piece.text ≠ [] → ∀ x ∈ (read start piece).toList,
      StandsIn (span x) start piece)
    (start : Nat) {run : List Piece} (hne : ∀ piece ∈ run, piece.text ≠ []) :
    Span.InOrder
      ((collect (fun start piece => (read start piece).toList) start run).map span) := by
  induction run generalizing start with
  | nil => exact List.Pairwise.nil
  | cons piece run ih =>
    obtain ⟨hpiece, hrun⟩ := List.forall_mem_cons.mp hne
    have hlater := ih (start + byteLength piece.text) hrun
    rw [collect]
    cases hread : read start piece with
    | none => exact hlater
    | some x =>
      apply List.Pairwise.cons
      · intro later hmem
        obtain ⟨y, hy, hspanY⟩ := List.mem_map.mp hmem
        have hhere := hspan start piece hpiece x (by simp [hread])
        have hthere := span_of_mem_collect hspan hrun hy
        rw [StandsIn] at hhere
        rw [← hspanY]
        omega
      · exact hlater

end Collect

/-- The tokens of a run are in the order of its text. -/
theorem inOrder_tokens (start : Nat) {run : List Piece} (hne : ∀ piece ∈ run, piece.text ≠ []) :
    Span.InOrder ((tokens start run).map Token.span) := by
  rw [tokens_eq_collect]
  exact inOrder_collect standsIn_of_mem_token? start hne

theorem inOrder_diagnostics (start : Nat) {run : List Piece}
    (hne : ∀ piece ∈ run, piece.text ≠ []) :
    Span.InOrder ((diagnostics start run).map Diagnostic.span) := by
  rw [diagnostics_eq_collect]
  exact inOrder_collect standsIn_of_mem_diagnostic? start hne

theorem start_lt_stop_of_mem_tokens (start : Nat) {run : List Piece}
    (hne : ∀ piece ∈ run, piece.text ≠ []) :
    ∀ token ∈ tokens start run, token.span.start < token.span.stop := by
  intro token htoken
  rw [tokens_eq_collect] at htoken
  exact (span_of_mem_collect standsIn_of_mem_token? hne htoken).2.1

theorem start_lt_stop_of_mem_diagnostics (start : Nat) {run : List Piece}
    (hne : ∀ piece ∈ run, piece.text ≠ []) :
    ∀ diagnostic ∈ diagnostics start run, diagnostic.span.start < diagnostic.span.stop := by
  intro diagnostic hdiagnostic
  rw [diagnostics_eq_collect] at hdiagnostic
  exact (span_of_mem_collect standsIn_of_mem_diagnostic? hne hdiagnostic).2.1

/-- Each token of a run begins behind the one before. -/
theorem pairwise_start_tokens (start : Nat) {run : List Piece}
    (hne : ∀ piece ∈ run, piece.text ≠ []) :
    (tokens start run).Pairwise fun first second => first.span.start < second.span.start := by
  have hspans := (inOrder_tokens start hne).pairwise_start
    (List.forall_mem_map.mpr (start_lt_stop_of_mem_tokens start hne))
  rwa [List.pairwise_map] at hspans

theorem pairwise_start_diagnostics (start : Nat) {run : List Piece}
    (hne : ∀ piece ∈ run, piece.text ≠ []) :
    (diagnostics start run).Pairwise fun first second =>
      first.span.start < second.span.start := by
  have hspans := (inOrder_diagnostics start hne).pairwise_start
    (List.forall_mem_map.mpr (start_lt_stop_of_mem_diagnostics start hne))
  rwa [List.pairwise_map] at hspans

theorem mem_tokens_iff {start : Nat} {run : List Piece} {token : Token} :
    token ∈ tokens start run ↔
      ∃ before piece after, run = before ++ piece :: after ∧
        piece.token? (start + byteLength (textOf before)) = some token := by
  constructor
  · exact exists_piece_of_mem_tokens
  · intro h
    obtain ⟨before, piece, after, hrun, htoken⟩ := h
    rw [hrun, tokens_append, tokens, htoken]
    simp

/-- What a piece means is a token where the piece stands. -/
theorem mem_tokens_of_lexeme? {piece : Piece} {lexeme : Lexeme} (h : piece.lexeme? = some lexeme)
    (start : Nat) (first last : List Piece) :
    ⟨⟨start + byteLength (textOf first), start + byteLength (textOf first) +
      byteLength piece.text⟩, lexeme⟩ ∈ tokens start (first ++ piece :: last) := by
  refine mem_tokens_iff.mpr ⟨first, piece, last, rfl, ?_⟩
  rw [token?, h]
  rfl

theorem mem_diagnostics_iff {start : Nat} {run : List Piece} {diagnostic : Diagnostic} :
    diagnostic ∈ diagnostics start run ↔
      ∃ before piece after, run = before ++ piece :: after ∧
        piece.diagnostic? (start + byteLength (textOf before)) = some diagnostic := by
  constructor
  · exact exists_piece_of_mem_diagnostics
  · intro h
    obtain ⟨before, piece, after, hrun, hdiagnostic⟩ := h
    rw [hrun, diagnostics_append, diagnostics, hdiagnostic]
    simp

/-- A character of a run's text lies in one of the pieces. -/
theorem exists_piece_of_textOf_eq {run : List Piece} {before after : List Char} {c : Char}
    (h : textOf run = before ++ c :: after) :
    ∃ first piece last left right, run = first ++ piece :: last ∧
      piece.text = left ++ c :: right ∧ before = textOf first ++ left ∧
      after = right ++ textOf last := by
  induction run generalizing before with
  | nil => simp at h
  | cons piece run ih =>
    have hlater : ∀ behind, before = piece.text ++ behind → textOf run = behind ++ c :: after →
        ∃ first other last left right, piece :: run = first ++ other :: last ∧
          other.text = left ++ c :: right ∧ before = textOf first ++ left ∧
          after = right ++ textOf last := by
      intro behind hbefore hrest
      obtain ⟨first, other, last, left, right, hrun, htext, hbehind, hafter⟩ := ih hrest
      refine ⟨piece :: first, other, last, left, right, ?_, htext, ?_, hafter⟩
      · rw [hrun, List.cons_append]
      · rw [hbefore, hbehind, textOf_cons, List.append_assoc]
    rw [textOf_cons] at h
    rcases List.append_eq_append_iff.mp h with ⟨behind, hbefore, hrest⟩ | ⟨extra, htext, hrest⟩
    · exact hlater behind hbefore hrest
    · cases extra with
      | nil => exact hlater [] (by simpa using htext.symm) hrest.symm
      | cons d extra =>
        obtain ⟨hhead, hafter⟩ := List.cons.inj hrest
        rw [← hhead] at htext
        exact ⟨[], piece, run, before, extra, rfl, htext, rfl, hafter⟩

end Piece

end TokenScan
