import TokenScan.Proofs.Token.Reading
import TokenScan.Scan.Pieces

/-!
Runs of pieces. `Piece.AreCut` says of a list of pieces, and of the text behind them, that a scan
of the whole cuts off exactly these pieces and then goes on with the text behind. The pieces of
every scan that is not stopped are such a list, and whether a list is one changes neither when the
text behind is cut shorter nor, unless it was empty, when more text is put behind it. What scans of
related texts have in common follows from this.
-/

namespace TokenScan

open Text

namespace Piece

def textOf (pieces : List Piece) : List Char :=
  pieces.flatMap text

@[simp]
theorem textOf_nil : textOf [] = [] := rfl

@[simp]
theorem textOf_cons (piece : Piece) (pieces : List Piece) :
    textOf (piece :: pieces) = piece.text ++ textOf pieces := rfl

@[simp]
theorem textOf_append (first second : List Piece) :
    textOf (first ++ second) = textOf first ++ textOf second :=
  List.flatMap_append

/-- The last character of a run stands in its last piece. -/
theorem mem_text_of_getLast?_textOf {run : List Piece} {last : Piece} {c : Char}
    (hne : last.text ≠ []) (h : (textOf (run ++ [last])).getLast? = some c) : c ∈ last.text := by
  have hsome := List.getLast?_eq_some_getLast hne
  rw [textOf_append, textOf_cons, textOf_nil, List.append_nil, List.getLast?_append, hsome,
    Option.some_or, ← hsome] at h
  exact List.mem_of_getLast? h

/-- The pieces are cut off the front of their own text when `rest` stands behind it. -/
def AreCut (configuration : Configuration) : List Piece → List Char → Prop
  | [], _ => True
  | piece :: after, rest =>
      piece.isFatal = false ∧ piece.Fits configuration ∧
        piece.EndsBefore configuration.grammar (textOf after ++ rest) ∧
        AreCut configuration after rest

variable {configuration : Configuration}

theorem areCut_cons {piece : Piece} {after : List Piece} {rest : List Char} :
    AreCut configuration (piece :: after) rest ↔
      (piece.isFatal = false ∧ next? configuration (piece.text ++ (textOf after ++ rest)) =
        some (piece, textOf after ++ rest)) ∧ AreCut configuration after rest := by
  rw [next?_eq_some_iff]
  simp [AreCut, and_assoc]

instance decidableAreCut : (run : List Piece) → (rest : List Char) →
    Decidable (AreCut configuration run rest)
  | [], _ => .isTrue trivial
  | _ :: after, rest =>
      have := decidableAreCut after rest
      decidable_of_iff _ areCut_cons.symm

theorem areCut_append {first second : List Piece} {rest : List Char} :
    AreCut configuration (first ++ second) rest ↔
      AreCut configuration first (textOf second ++ rest) ∧ AreCut configuration second rest := by
  induction first with
  | nil => simp [AreCut]
  | cons piece first ih =>
    simp only [List.cons_append, AreCut, ih, textOf_append, List.append_assoc, and_assoc]

theorem AreCut.shorten {pieces : List Piece} {rest shorter : List Char}
    (h : AreCut configuration pieces rest) (hshorter : shorter <+: rest) :
    AreCut configuration pieces shorter := by
  induction pieces with
  | nil => trivial
  | cons piece after ih =>
    obtain ⟨hfatal, hfits, hends, hafter⟩ := h
    have hbehind : textOf after ++ shorter <+: textOf after ++ rest :=
      (List.prefix_append_right_inj (textOf after)).mpr hshorter
    exact ⟨hfatal, hfits, hends.shorten hbehind, ih hafter⟩

theorem AreCut.append {pieces : List Piece} {rest : List Char}
    (h : AreCut configuration pieces rest) (hrest : rest ≠ []) (more : List Char) :
    AreCut configuration pieces (rest ++ more) := by
  induction pieces with
  | nil => trivial
  | cons piece after ih =>
    obtain ⟨hfatal, hfits, hends, hafter⟩ := h
    have hbehind : textOf after ++ rest ≠ [] := by
      intro hnil
      exact hrest (List.append_eq_nil_iff.mp hnil).2
    refine ⟨hfatal, hfits, ?_, ih hafter⟩
    rw [← List.append_assoc]
    exact hends.append hbehind more

theorem AreCut.text_ne_nil {run : List Piece} {rest : List Char}
    (h : AreCut configuration run rest) : ∀ piece ∈ run, piece.text ≠ [] := by
  intro piece hpiece
  obtain ⟨before, after, rfl⟩ := List.append_of_mem hpiece
  have hnext := (areCut_cons.mp (areCut_append.mp h).2).1.2
  exact text_ne_nil_of_next? hnext

theorem AreCut.fits {run : List Piece} {rest : List Char} (h : AreCut configuration run rest) :
    ∀ piece ∈ run, piece.isFatal = false ∧ piece.Fits configuration := by
  intro piece hpiece
  obtain ⟨before, after, hrun⟩ := List.append_of_mem hpiece
  rw [hrun] at h
  obtain ⟨-, hfatal, hfits, -⟩ := areCut_append.mp h
  exact ⟨hfatal, hfits⟩

theorem AreCut.anyFatal_eq_false {run : List Piece} {rest : List Char}
    (h : AreCut configuration run rest) : anyFatal run = false := by
  induction run with
  | nil => rfl
  | cons piece run ih => simpa [anyFatal, h.1] using ih h.2.2.2

end Piece

open Piece

variable {configuration : Configuration}

@[simp]
theorem pieces_nil (configuration : Configuration) : pieces configuration [] = [] :=
  pieces_of_next?_eq_none rfl

/-- A scan cuts off a run of pieces one after another and goes on behind them. -/
theorem pieces_textOf_append {run : List Piece} {rest : List Char}
    (h : AreCut configuration run rest) :
    pieces configuration (textOf run ++ rest) = run ++ pieces configuration rest := by
  induction run with
  | nil => rfl
  | cons piece after ih =>
    obtain ⟨⟨hfatal, hnext⟩, hafter⟩ := areCut_cons.mp h
    rw [textOf_cons, List.append_assoc, pieces_of_next?_eq_some hnext, hfatal]
    simp [ih hafter]

theorem pieces_textOf {run : List Piece} (h : AreCut configuration run []) :
    pieces configuration (textOf run) = run := by
  have hpieces := pieces_textOf_append h
  rwa [List.append_nil, pieces_nil, List.append_nil] at hpieces

/-- A scan that is not stopped cuts its whole text. -/
theorem areCut_pieces {text : List Char} (h : anyFatal (pieces configuration text) = false) :
    textOf (pieces configuration text) = text ∧
      AreCut configuration (pieces configuration text) [] := by
  cases hnext : next? configuration text with
  | none =>
    rw [pieces_of_next?_eq_none hnext]
    refine ⟨?_, trivial⟩
    cases text with
    | nil => rfl
    | cons c tail =>
      rw [next?_cons] at hnext
      split at hnext <;> cases hnext
  | some cut =>
    obtain ⟨piece, rest⟩ := cut
    have hshorter := length_lt_of_next? hnext
    obtain ⟨htext, hfits, hends⟩ := next?_eq_some_iff.mp hnext
    rw [pieces_of_next?_eq_some hnext] at h ⊢
    cases hfatal : piece.isFatal with
    | true => simp [anyFatal, hfatal] at h
    | false =>
      have hrest : anyFatal (pieces configuration rest) = false := by
        simpa [anyFatal, hfatal] using h
      obtain ⟨hwhole, hcut⟩ := areCut_pieces hrest
      rw [if_neg Bool.false_ne_true]
      refine ⟨?_, hfatal, hfits, ?_, hcut⟩
      · rw [textOf_cons, hwhole, htext]
      · rwa [hwhole, List.append_nil]
termination_by text.length

/-- What a scan cuts off, whether or not it is stopped, is the beginning of its text. -/
theorem textOf_pieces_isPrefix (configuration : Configuration) (text : List Char) :
    textOf (pieces configuration text) <+: text := by
  cases hnext : next? configuration text with
  | none =>
    rw [pieces_of_next?_eq_none hnext]
    exact List.nil_prefix
  | some cut =>
    obtain ⟨piece, rest⟩ := cut
    have hshorter := length_lt_of_next? hnext
    have htext : text = piece.text ++ rest := (next?_eq_some_iff.mp hnext).1
    have hrest := textOf_pieces_isPrefix configuration rest
    rw [pieces_of_next?_eq_some hnext, textOf_cons]
    split
    · rw [textOf_nil, List.append_nil]
      exact ⟨rest, htext.symm⟩
    · rw [htext]
      exact (List.prefix_append_right_inj piece.text).mpr hrest
termination_by text.length

/-- Whether or not a scan is stopped, its grammar has a rule for each of the pieces. -/
theorem fits_of_mem_pieces {text : List Char} {piece : Piece}
    (h : piece ∈ pieces configuration text) : piece.Fits configuration := by
  cases hnext : next? configuration text with
  | none =>
    rw [pieces_of_next?_eq_none hnext] at h
    cases h
  | some cut =>
    obtain ⟨first, rest⟩ := cut
    have hshorter := length_lt_of_next? hnext
    have hfirst := (next?_eq_some_iff.mp hnext).2.1
    rw [pieces_of_next?_eq_some hnext] at h
    rcases List.mem_cons.mp h with hhead | hlater
    · rw [hhead]
      exact hfirst
    · split at hlater
      · cases hlater
      · exact fits_of_mem_pieces hlater
termination_by text.length

/-- The full grammar has a rule for every character, so nothing stops its scans. -/
theorem anyFatal_pieces_full (matching : KeywordMatching) (text : List Char) :
    anyFatal (pieces { grammar := .full, keywords := matching } text) = false := by
  cases hnext : next? { grammar := .full, keywords := matching } text with
  | none => simp [pieces_of_next?_eq_none hnext, anyFatal]
  | some cut =>
    obtain ⟨piece, rest⟩ := cut
    have hshorter := length_lt_of_next? hnext
    have hfits : piece.FitsFull matching := (next?_eq_some_iff.mp hnext).2.1
    have hfatal := hfits.isFatal_eq_false
    have hrest := anyFatal_pieces_full matching rest
    rw [pieces_of_next?_eq_some hnext, hfatal]
    simpa [anyFatal, hfatal] using hrest
termination_by text.length

/-! ### Where tokens and diagnostics stand -/

def Span.shift (distance : Nat) (span : Span) : Span :=
  ⟨span.start + distance, span.stop + distance⟩

/-- The token as it stands when its source begins further on. -/
def Token.shift (distance : Nat) (token : Token) : Token :=
  { token with span := token.span.shift distance }

def Diagnostic.shift (distance : Nat) (diagnostic : Diagnostic) : Diagnostic :=
  { diagnostic with span := diagnostic.span.shift distance }

namespace Piece

section Collect

variable {α : Type} {read : Nat → Piece → List α}

/-- What is read off some pieces one after another, the first of which begins at an offset. -/
def collect (read : Nat → Piece → List α) (start : Nat) : List Piece → List α
  | [] => []
  | piece :: rest => read start piece ++ collect read (start + byteLength piece.text) rest

theorem collect_append (start : Nat) (first second : List Piece) :
    collect read start (first ++ second) =
      collect read start first ++ collect read (start + byteLength (textOf first)) second := by
  induction first generalizing start with
  | nil => rfl
  | cons piece first ih => simp [collect, ih, Nat.add_assoc]

/-- What is read off pieces keeps its place among them wherever the first of them begins. -/
theorem collect_add {distance : Nat} {move : α → α}
    (hread : ∀ start piece, read (start + distance) piece = (read start piece).map move)
    (start : Nat) (pieces : List Piece) :
    collect read (start + distance) pieces = (collect read start pieces).map move := by
  induction pieces generalizing start with
  | nil => rfl
  | cons piece pieces ih =>
    have hnext : start + distance + byteLength piece.text =
        start + byteLength piece.text + distance := by omega
    rw [collect, collect, hnext, ih, hread, List.map_append]

theorem exists_piece_of_mem_collect {start : Nat} {run : List Piece} {x : α}
    (h : x ∈ collect read start run) :
    ∃ before piece after, run = before ++ piece :: after ∧
      x ∈ read (start + byteLength (textOf before)) piece := by
  induction run generalizing start with
  | nil => cases h
  | cons piece run ih =>
    rcases List.mem_append.mp h with hhere | hlater
    · exact ⟨[], piece, run, rfl, hhere⟩
    · obtain ⟨before, other, after, hrun, hother⟩ := ih hlater
      refine ⟨piece :: before, other, after, by rw [hrun, List.cons_append], ?_⟩
      rwa [textOf_cons, byteLength_append, ← Nat.add_assoc]

end Collect

theorem tokens_eq_collect (start : Nat) (pieces : List Piece) :
    tokens start pieces =
      collect (fun start piece => (piece.token? start).toList) start pieces := by
  induction pieces generalizing start with
  | nil => rfl
  | cons piece pieces ih => rw [tokens, collect, ih]

theorem diagnostics_eq_collect (start : Nat) (pieces : List Piece) :
    diagnostics start pieces =
      collect (fun start piece => (piece.diagnostic? start).toList) start pieces := by
  induction pieces generalizing start with
  | nil => rfl
  | cons piece pieces ih => rw [diagnostics, collect, ih]

theorem tokens_append (start : Nat) (first second : List Piece) :
    tokens start (first ++ second) =
      tokens start first ++ tokens (start + byteLength (textOf first)) second := by
  simp only [tokens_eq_collect, collect_append]

theorem diagnostics_append (start : Nat) (first second : List Piece) :
    diagnostics start (first ++ second) =
      diagnostics start first ++ diagnostics (start + byteLength (textOf first)) second := by
  simp only [diagnostics_eq_collect, collect_append]

theorem token?_add (start distance : Nat) (piece : Piece) :
    piece.token? (start + distance) = (piece.token? start).map (Token.shift distance) := by
  unfold token?
  cases piece.lexeme? with
  | none => rfl
  | some lexeme => simp [Token.shift, Span.shift, Nat.add_right_comm]

theorem diagnostic?_add (start distance : Nat) (piece : Piece) :
    piece.diagnostic? (start + distance) =
      (piece.diagnostic? start).map (Diagnostic.shift distance) := by
  unfold diagnostic?
  cases piece.problem? with
  | none => rfl
  | some problem => simp [Diagnostic.shift, Span.shift, Nat.add_right_comm]

theorem tokens_add (start distance : Nat) (pieces : List Piece) :
    tokens (start + distance) pieces = (tokens start pieces).map (Token.shift distance) := by
  rw [tokens_eq_collect, tokens_eq_collect]
  apply collect_add
  intro start piece
  rw [token?_add, Option.toList_map]

theorem diagnostics_add (start distance : Nat) (pieces : List Piece) :
    diagnostics (start + distance) pieces =
      (diagnostics start pieces).map (Diagnostic.shift distance) := by
  rw [diagnostics_eq_collect, diagnostics_eq_collect]
  apply collect_add
  intro start piece
  rw [diagnostic?_add, Option.toList_map]

/-- A token is that of one of the pieces, where that piece begins. -/
theorem exists_piece_of_mem_tokens {start : Nat} {run : List Piece} {token : Token}
    (h : token ∈ tokens start run) :
    ∃ before piece after, run = before ++ piece :: after ∧
      piece.token? (start + byteLength (textOf before)) = some token := by
  rw [tokens_eq_collect] at h
  obtain ⟨before, piece, after, hrun, htoken⟩ := exists_piece_of_mem_collect h
  exact ⟨before, piece, after, hrun, Option.mem_toList.mp htoken⟩

theorem exists_piece_of_mem_diagnostics {start : Nat} {run : List Piece}
    {diagnostic : Diagnostic} (h : diagnostic ∈ diagnostics start run) :
    ∃ before piece after, run = before ++ piece :: after ∧
      piece.diagnostic? (start + byteLength (textOf before)) = some diagnostic := by
  rw [diagnostics_eq_collect] at h
  obtain ⟨before, piece, after, hrun, hdiagnostic⟩ := exists_piece_of_mem_collect h
  exact ⟨before, piece, after, hrun, Option.mem_toList.mp hdiagnostic⟩

theorem span_of_token?_eq_some {start : Nat} {piece : Piece} {token : Token}
    (h : piece.token? start = some token) :
    token.span = ⟨start, start + byteLength piece.text⟩ := by
  obtain ⟨lexeme, -, htoken⟩ := Option.map_eq_some_iff.mp h
  rw [← htoken]

theorem span_of_diagnostic?_eq_some {start : Nat} {piece : Piece} {diagnostic : Diagnostic}
    (h : piece.diagnostic? start = some diagnostic) :
    ∃ problem concerned, piece.problem? = some (problem, concerned) ∧
      diagnostic = ⟨⟨start, start + byteLength concerned⟩, problem⟩ := by
  obtain ⟨⟨problem, concerned⟩, hproblem, hdiagnostic⟩ := Option.map_eq_some_iff.mp h
  exact ⟨problem, concerned, hproblem, hdiagnostic.symm⟩

end Piece

theorem tokens_of_resultOf_eq_ok {start : Nat} {pieces : List Piece} {tokens : List Token}
    (h : resultOf start [] pieces = .ok tokens) : tokens = Piece.tokens start pieces := by
  unfold resultOf at h
  split at h
  · cases h
  · exact (Except.ok.inj h).symm

/-- Pieces that do not stop a scan put their tokens in front of those of the pieces after them. -/
theorem resultOf_append {first second : List Piece} (h : anyFatal first = false) :
    resultOf 0 [] (first ++ second) =
      (resultOf 0 [] second).map fun later =>
        Piece.tokens 0 first ++ later.map (Token.shift (byteLength (textOf first))) := by
  have hfatal : anyFatal (first ++ second) = anyFatal second := by
    rw [anyFatal, List.any_append, ← anyFatal, ← anyFatal, h, Bool.false_or]
  rw [resultOf, resultOf, hfatal]
  split
  · rfl
  · rw [tokens_append, tokens_add]
    rfl

end TokenScan
