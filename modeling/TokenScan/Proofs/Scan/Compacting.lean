import TokenScan.Proofs.Scan.Bounds

/-!
Compact sources. A source is made compact by keeping its tokens and putting one space where anything
stood between two of them. Tokens that touch still do, and what follows each of them begins with the
same character as before or with that space, which ends every token. So no two tokens become one and
none becomes two, whatever stood between them.
-/

namespace TokenScan

open Text Piece

/-- The texts of some tokens, with a space in front of each that does not begin where the one before
it stopped. -/
def Source.compactFrom (source : Source) (stop : Nat) : List Token → List Char
  | [] => []
  | token :: later =>
      (if token.span.start = stop then [] else [' ']) ++ source.charsIn token.span ++
        source.compactFrom token.span.stop later

/-- The texts of some tokens of a source, with a space between two that are apart in it. -/
def Source.compact (source : Source) : List Token → List Char
  | [] => []
  | token :: later => source.charsIn token.span ++ source.compactFrom token.span.stop later

namespace Piece

variable {configuration : Configuration}

def isToken (piece : Piece) : Bool :=
  piece.lexeme?.isSome

/-- The space that stands for what was left out. -/
def gap (apart : Bool) : List Piece :=
  if apart then [blank ' '] else []

/-- The pieces that contribute tokens, and a space for any others between two of them. `apart` tells
whether there are others in front. -/
def keptAfter : Bool → List Piece → List Piece
  | _, [] => []
  | apart, piece :: later =>
      if piece.isToken then gap apart ++ piece :: keptAfter false later else keptAfter true later

def kept (run : List Piece) : List Piece :=
  keptAfter false (run.dropWhile fun piece => !piece.isToken)

theorem keptAfter_of_isToken {piece : Piece} (h : piece.isToken = true) (apart : Bool)
    (later : List Piece) :
    keptAfter apart (piece :: later) = gap apart ++ piece :: keptAfter false later := by
  rw [keptAfter, if_pos h]

theorem keptAfter_of_not_isToken {piece : Piece} (h : piece.isToken = false) (apart : Bool)
    (later : List Piece) : keptAfter apart (piece :: later) = keptAfter true later := by
  rw [keptAfter, if_neg (Bool.eq_false_iff.mp h)]

/-! ### Tokens do not merge -/

theorem endsBefore_space {piece : Piece} (h : piece.isToken = true) (grammar : Grammar)
    (rest : List Char) : piece.EndsBefore grammar (' ' :: rest) := by
  cases piece with
  | string content closed =>
    cases closed with
    | true => trivial
    | false => cases h
  | lineComment body ended => cases h
  | blockComment body closed => cases h
  | keyword word | identifier name | number digits =>
    rintro c ⟨⟩
    decide
  | operator c =>
    rintro - - d ⟨⟩
    decide
  | blank c | symbol c | unexpected c => trivial

/-- What is left behind a gap begins with a space. -/
theorem textOf_keptAfter_true (run : List Piece) :
    textOf (keptAfter true run) = [] ∨ ∃ rest, textOf (keptAfter true run) = ' ' :: rest := by
  induction run with
  | nil => exact .inl rfl
  | cons piece later ih =>
    cases hpiece : piece.isToken with
    | true =>
      rw [keptAfter_of_isToken hpiece]
      exact .inr ⟨_, rfl⟩
    | false =>
      rw [keptAfter_of_not_isToken hpiece]
      exact ih

/-- A token ends where it did: the next piece is still there if it was a token, and otherwise there
is a space or nothing. -/
theorem endsBefore_keptAfter {piece : Piece} {later : List Piece} (htoken : piece.isToken = true)
    (hcut : AreCut configuration later [])
    (h : piece.EndsBefore configuration.grammar (textOf later)) :
    piece.EndsBefore configuration.grammar (textOf (keptAfter false later)) := by
  cases later with
  | nil => exact h
  | cons next later =>
    cases hnext : next.isToken with
    | true =>
      have hne : next.text ≠ [] := hcut.text_ne_nil next List.mem_cons_self
      rw [keptAfter_of_isToken hnext]
      exact (h.shorten (List.prefix_append next.text (textOf later))).append hne _
    | false =>
      rw [keptAfter_of_not_isToken hnext]
      rcases textOf_keptAfter_true later with hnil | ⟨rest, hspace⟩
      · rw [hnil]
        exact endsBefore_nil configuration.grammar piece
      · rw [hspace]
        exact endsBefore_space htoken configuration.grammar rest

theorem fits_space (configuration : Configuration) : (blank ' ').Fits configuration := by
  obtain ⟨grammar, matching⟩ := configuration
  cases grammar with
  | full => rfl
  | arithmetic => exact (by decide : isArithmeticBlank ' ' = true)

theorem areCut_keptAfter {run : List Piece} (h : AreCut configuration run []) (apart : Bool) :
    AreCut configuration (keptAfter apart run) [] := by
  induction run generalizing apart with
  | nil => trivial
  | cons piece later ih =>
    obtain ⟨hfatal, hfits, hends, hlater⟩ := h
    cases hpiece : piece.isToken with
    | true =>
      rw [List.append_nil] at hends
      have hrest : AreCut configuration (piece :: keptAfter false later) [] := by
        refine ⟨hfatal, hfits, ?_, ih hlater false⟩
        rw [List.append_nil]
        exact endsBefore_keptAfter hpiece hlater hends
      rw [keptAfter_of_isToken hpiece]
      cases apart with
      | true => exact ⟨rfl, fits_space configuration, trivial, hrest⟩
      | false => exact hrest
    | false =>
      rw [keptAfter_of_not_isToken hpiece]
      exact ih hlater true

theorem AreCut.dropWhile {run : List Piece} {rest : List Char} (h : AreCut configuration run rest)
    (condition : Piece → Bool) : AreCut configuration (run.dropWhile condition) rest := by
  rw [← List.takeWhile_append_dropWhile (p := condition) (l := run)] at h
  exact (areCut_append.mp h).2

theorem areCut_kept {run : List Piece} (h : AreCut configuration run []) :
    AreCut configuration (kept run) [] :=
  areCut_keptAfter (h.dropWhile _) false

/-! ### What is kept -/

section Read

variable {α : Type} {read readKept : Piece → Option α}

theorem filterMap_keptAfter (hspace : readKept (blank ' ') = none)
    (htoken : ∀ piece : Piece, piece.isToken = true → readKept piece = read piece)
    (hother : ∀ piece : Piece, piece.isToken = false → read piece = none) (apart : Bool)
    (run : List Piece) : (keptAfter apart run).filterMap readKept = run.filterMap read := by
  induction run generalizing apart with
  | nil => rfl
  | cons piece later ih =>
    cases hpiece : piece.isToken with
    | true =>
      have hgap : (gap apart).filterMap readKept = [] := by
        cases apart with
        | true => simp [gap, hspace]
        | false => rfl
      rw [keptAfter_of_isToken hpiece, List.filterMap_append, hgap, List.nil_append,
        List.filterMap_cons, List.filterMap_cons, ih, htoken piece hpiece]
    | false =>
      rw [keptAfter_of_not_isToken hpiece, ih, List.filterMap_cons_none (hother piece hpiece)]

/-- What is read off the pieces that are kept is what can be read off tokens. -/
theorem filterMap_kept (hspace : readKept (blank ' ') = none)
    (htoken : ∀ piece : Piece, piece.isToken = true → readKept piece = read piece)
    (hother : ∀ piece : Piece, piece.isToken = false → read piece = none) (run : List Piece) :
    (kept run).filterMap readKept = run.filterMap read := by
  have hdropped : (run.takeWhile fun piece => !piece.isToken).filterMap read = [] := by
    rw [List.filterMap_eq_nil_iff]
    intro piece hpiece
    exact hother piece (by simpa using List.mem_takeWhile_imp hpiece)
  rw [kept, filterMap_keptAfter hspace htoken hother]
  calc (run.dropWhile fun piece => !piece.isToken).filterMap read
    _ = ((run.takeWhile fun piece => !piece.isToken) ++
          run.dropWhile fun piece => !piece.isToken).filterMap read := by
      rw [List.filterMap_append, hdropped, List.nil_append]
    _ = run.filterMap read := by rw [List.takeWhile_append_dropWhile]

end Read

theorem map_lexeme_tokens (start : Nat) (run : List Piece) :
    (tokens start run).map Token.lexeme = run.filterMap lexeme? := by
  induction run generalizing start with
  | nil => rfl
  | cons piece later ih =>
    rw [tokens, List.map_append, ih, token?]
    cases hlexeme : piece.lexeme? with
    | none => rw [List.filterMap_cons_none hlexeme]; rfl
    | some lexeme => rw [List.filterMap_cons_some hlexeme]; rfl

theorem map_lexeme_tokens_kept (run : List Piece) :
    (tokens 0 (kept run)).map Token.lexeme = (tokens 0 run).map Token.lexeme := by
  rw [map_lexeme_tokens, map_lexeme_tokens]
  apply filterMap_kept rfl fun _ _ => rfl
  intro piece hpiece
  simpa [isToken] using hpiece

/-- The text that is complained of in a source of which the pieces are a part. -/
theorem map_problem_diagnostics {source : Source} {before after : List Char} {run : List Piece}
    (hne : ∀ piece ∈ run, piece.text ≠ [])
    (h : source.chars = before ++ (textOf run ++ after)) :
    (diagnostics (byteLength before) run).map (fun diagnostic =>
      (diagnostic.problem, source.charsIn diagnostic.span)) = run.filterMap problem? := by
  induction run generalizing before with
  | nil => rfl
  | cons piece later ih =>
    obtain ⟨hpiece, hlater⟩ := List.forall_mem_cons.mp hne
    have hbehind : source.chars = before ++ piece.text ++ (textOf later ++ after) := by
      simp [h]
    have hrest := ih hlater hbehind
    rw [byteLength_append] at hrest
    rw [diagnostics, List.map_append, hrest, diagnostic?]
    cases hproblem : piece.problem? with
    | none => rw [List.filterMap_cons_none hproblem]; rfl
    | some entry =>
      obtain ⟨problem, concerned⟩ := entry
      obtain ⟨-, rest, htext⟩ := problem?_eq_some hproblem hpiece
      have hchars : source.chars = before ++ (concerned ++ (rest ++ textOf later ++ after)) := by
        simp [h, ← htext]
      rw [List.filterMap_cons_some hproblem]
      simp [Source.charsIn_of_append hchars]

/-- A piece that contributes a token is only ever complained of as a number. -/
theorem problem?_of_isToken {piece : Piece} {problem : Problem} {concerned : List Char}
    (h : piece.problem? = some (problem, concerned)) :
    piece.isToken = true ↔ problem = .numericOverflow := by
  rcases problem?_cases h with ⟨content, rfl, rfl, -⟩ | ⟨body, rfl, rfl, -⟩ | ⟨rfl, rfl⟩ |
    ⟨c, rfl, rfl, -⟩ <;> simp [isToken, lexeme?]

/-- Of what the pieces are complained of, only the numbers are kept. -/
theorem filterMap_problem?_kept (run : List Piece) :
    (kept run).filterMap problem? =
      (run.filterMap problem?).filter fun entry => entry.1 = .numericOverflow := by
  rw [List.filter_filterMap]
  apply filterMap_kept rfl
  · intro piece hpiece
    cases hproblem : piece.problem? with
    | none => rfl
    | some entry =>
      have hoverflow := (problem?_of_isToken hproblem).mp hpiece
      rw [Option.filter_some, if_pos (decide_eq_true hoverflow)]
  · intro piece hpiece
    cases hproblem : piece.problem? with
    | none => rfl
    | some entry =>
      have hother := mt (problem?_of_isToken hproblem).mpr (Bool.eq_false_iff.mp hpiece)
      simp [hother]

theorem keptAfter_keptAfter (apart : Bool) (run : List Piece) :
    keptAfter false (keptAfter apart run) = keptAfter apart run := by
  induction run generalizing apart with
  | nil => rfl
  | cons piece later ih =>
    cases hpiece : piece.isToken with
    | true =>
      rw [keptAfter_of_isToken hpiece]
      cases apart with
      | true =>
        have hgap : keptAfter false (gap true ++ piece :: keptAfter false later) =
            keptAfter true (piece :: keptAfter false later) := rfl
        rw [hgap, keptAfter_of_isToken hpiece, ih]
      | false =>
        have hgap : gap false ++ piece :: keptAfter false later = piece :: keptAfter false later :=
          rfl
        rw [hgap, keptAfter_of_isToken hpiece, ih]
        rfl
    | false =>
      rw [keptAfter_of_not_isToken hpiece]
      exact ih true

/-- Of what is kept there is nothing left to drop. -/
theorem kept_kept (run : List Piece) : kept (kept run) = kept run := by
  have hdrop : (kept run).dropWhile (fun piece => !piece.isToken) = kept run := by
    rw [kept]
    cases hrest : run.dropWhile fun piece => !piece.isToken with
    | nil => rfl
    | cons piece later =>
      have hpiece : piece.isToken = true := by
        have hhead := List.head?_dropWhile_not (fun piece : Piece => !piece.isToken) run
        rw [hrest] at hhead
        simpa using hhead
      rw [keptAfter_of_isToken hpiece]
      exact List.dropWhile_cons_of_neg (by simp [hpiece])
  rw [kept, hdrop, kept, keptAfter_keptAfter]

/-! ### The compact text -/

section Text

variable {source : Source} {before after : List Char} {run : List Piece}

theorem compactFrom_tokens (hne : ∀ piece ∈ run, piece.text ≠ [])
    (h : source.chars = before ++ (textOf run ++ after)) {stop : Nat}
    (hstop : stop ≤ byteLength before) :
    source.compactFrom stop (tokens (byteLength before) run) =
      textOf (keptAfter (byteLength before != stop) run) := by
  induction run generalizing before stop with
  | nil => rfl
  | cons piece later ih =>
    obtain ⟨hpiece, hlater⟩ := List.forall_mem_cons.mp hne
    have hpos := byteLength_text_pos hpiece
    have hbehind : source.chars = before ++ piece.text ++ (textOf later ++ after) := by
      simp [h]
    have hrest := fun {stop : Nat} => @ih (before ++ piece.text) hlater hbehind stop
    rw [byteLength_append] at hrest
    cases hlexeme : piece.lexeme? with
    | none =>
      have htoken : piece.isToken = false := by simp [isToken, hlexeme]
      have hapart : (byteLength before + byteLength piece.text != stop) = true := by
        rw [bne_iff_ne]
        omega
      rw [keptAfter_of_not_isToken htoken, tokens, token?, hlexeme, ← hapart]
      exact hrest (by omega)
    | some lexeme =>
      have htoken : piece.isToken = true := by simp [isToken, hlexeme]
      have hhere : source.chars = before ++ (piece.text ++ (textOf later ++ after)) := by
        simp [h]
      have hgap : textOf (gap (byteLength before != stop)) =
          if byteLength before = stop then [] else [' '] := by
        by_cases heq : byteLength before = stop <;> simp [gap, heq, text]
      rw [tokens, token?, hlexeme, keptAfter_of_isToken htoken, textOf_append, textOf_cons, hgap,
        ← List.append_assoc]
      simp only [Option.map_some, Option.toList_some, List.singleton_append, Source.compactFrom]
      rw [Source.charsIn_of_append hhere, hrest (Nat.le_refl _), bne_self_eq_false]

/-- The compact source has the text of the pieces that are kept. -/
theorem compact_tokens (hne : ∀ piece ∈ run, piece.text ≠ [])
    (h : source.chars = before ++ (textOf run ++ after)) :
    source.compact (tokens (byteLength before) run) = textOf (kept run) := by
  induction run generalizing before with
  | nil => rfl
  | cons piece later ih =>
    obtain ⟨hpiece, hlater⟩ := List.forall_mem_cons.mp hne
    have hbehind : source.chars = before ++ piece.text ++ (textOf later ++ after) := by
      simp [h]
    cases hlexeme : piece.lexeme? with
    | none =>
      have hkept : kept (piece :: later) = kept later := by
        rw [kept, List.dropWhile_cons_of_pos (by simp [isToken, hlexeme])]
        rfl
      rw [hkept, tokens, token?, hlexeme, ← byteLength_append]
      exact ih hlater hbehind
    | some lexeme =>
      have htoken : piece.isToken = true := by simp [isToken, hlexeme]
      have hhere : source.chars = before ++ (piece.text ++ (textOf later ++ after)) := by
        simp [h]
      have hkept : kept (piece :: later) = piece :: keptAfter false later := by
        rw [kept, List.dropWhile_cons_of_neg (by simp [htoken]), keptAfter_of_isToken htoken]
        rfl
      have hrest := compactFrom_tokens hlater hbehind (Nat.le_refl _)
      rw [byteLength_append, bne_self_eq_false] at hrest
      rw [hkept, tokens, token?, hlexeme, textOf_cons, ← hrest]
      simp only [Option.map_some, Option.toList_some, List.singleton_append, Source.compact]
      rw [Source.charsIn_of_append hhere]

end Text

end Piece

namespace Source

variable {configuration : Configuration} {source compacted : Source}

/-- What is complained of in a run, of which the numbers are those of the pieces that are kept. -/
theorem map_problem_kept {run : List Piece} (hne : ∀ piece ∈ run, piece.text ≠ [])
    (hkept : ∀ piece ∈ kept run, piece.text ≠ []) (hchars : source.chars = textOf run)
    (hcompact : compacted.chars = textOf (kept run)) :
    ((Piece.diagnostics 0 (kept run)).map fun diagnostic =>
        (diagnostic.problem, compacted.charsIn diagnostic.span)) =
      ((Piece.diagnostics 0 run).filter fun diagnostic =>
        diagnostic.problem = .numericOverflow).map fun diagnostic =>
          (diagnostic.problem, source.charsIn diagnostic.span) := by
  have hrun := @map_problem_diagnostics source [] [] run hne (by simp [hchars])
  have hrunKept := @map_problem_diagnostics compacted [] [] (kept run) hkept (by simp [hcompact])
  rw [byteLength_nil] at hrun hrunKept
  rw [hrunKept, filterMap_problem?_kept, ← hrun, List.filter_map]
  rfl

/-- Only the tokens of a source matter, and whether any two of them touch. The compact source has
the same tokens and the same numbers that are too large, and it is as compact as it can be. -/
theorem scan_compact {tokens : List Token} {diagnostics : List Diagnostic}
    (h : source.scan configuration = (.ok tokens, diagnostics))
    (hcompact : compacted.chars = source.compact tokens) :
    ∃ again reported, compacted.scan configuration = (.ok again, reported) ∧
      again.map Token.lexeme = tokens.map Token.lexeme ∧
      (reported.map fun diagnostic =>
          (diagnostic.problem, compacted.charsIn diagnostic.span)) =
        (diagnostics.filter fun diagnostic => diagnostic.problem = .numericOverflow).map
          (fun diagnostic => (diagnostic.problem, source.charsIn diagnostic.span)) ∧
      (∀ diagnostic ∈ reported, diagnostic.problem = .numericOverflow) ∧
      compacted.compact again = compacted.chars := by
  obtain ⟨run, hcut, hchars, rfl, rfl⟩ := scan_eq_ok_iff.mp h
  have hkept := areCut_kept hcut
  have htext : compacted.chars = textOf (kept run) := by
    rw [hcompact]
    exact @compact_tokens source [] [] run hcut.text_ne_nil (by simp [hchars])
  have hproblems := map_problem_kept hcut.text_ne_nil hkept.text_ne_nil hchars htext
  refine ⟨_, _, scan_eq_ok_iff.mpr ⟨kept run, hkept, htext, rfl, rfl⟩, map_lexeme_tokens_kept run,
    hproblems, ?_, ?_⟩
  · intro diagnostic hdiagnostic
    have hmem := List.mem_map_of_mem (f := fun diagnostic : Diagnostic =>
      (diagnostic.problem, compacted.charsIn diagnostic.span)) hdiagnostic
    rw [hproblems] at hmem
    obtain ⟨other, hother, hpair⟩ := List.mem_map.mp hmem
    rw [← (Prod.mk.inj hpair).1]
    exact of_decide_eq_true (List.mem_filter.mp hother).2
  · have hagain := @compact_tokens compacted [] [] (kept run) hkept.text_ne_nil (by simp [htext])
    rw [kept_kept, ← htext] at hagain
    exact hagain

theorem scan_compact_mixed :
    (ofText "a.lex" "a/*x*/b\"c\"20000000000000000000 \"d").scan {} =
        (.ok [⟨⟨0, 1⟩, .identifier ['a']⟩, ⟨⟨6, 7⟩, .identifier ['b']⟩, ⟨⟨7, 10⟩, .string ['c']⟩,
            ⟨⟨10, 30⟩, .number Lexeme.largestNumber⟩],
          [⟨⟨10, 30⟩, .numericOverflow⟩, ⟨⟨31, 32⟩, .unterminatedString⟩]) ∧
      ∃ again reported,
        (ofText "b.lex" "a b\"c\"20000000000000000000").scan {} = (.ok again, reported) ∧
        again.map Token.lexeme = [.identifier ['a'], .identifier ['b'], .string ['c'],
          .number Lexeme.largestNumber] ∧
        (reported.map fun diagnostic => (diagnostic.problem,
          (ofText "b.lex" "a b\"c\"20000000000000000000").charsIn diagnostic.span)) =
            [(.numericOverflow, "20000000000000000000".toList)] := by
  have hscan : (ofText "a.lex" "a/*x*/b\"c\"20000000000000000000 \"d").scan {} =
      (.ok [⟨⟨0, 1⟩, .identifier ['a']⟩, ⟨⟨6, 7⟩, .identifier ['b']⟩, ⟨⟨7, 10⟩, .string ['c']⟩,
          ⟨⟨10, 30⟩, .number Lexeme.largestNumber⟩],
        [⟨⟨10, 30⟩, .numericOverflow⟩, ⟨⟨31, 32⟩, .unterminatedString⟩]) :=
    scan_eq_ok_iff.mpr ⟨[.identifier ['a'], .blockComment ['x'] true, .identifier ['b'],
      .string ['c'] true, .number "20000000000000000000".toList, .blank ' ', .string ['d'] false],
      by decide, by decide, by decide, by decide⟩
  obtain ⟨again, reported, hagain, hlexemes, hproblems, -, -⟩ :=
    @scan_compact _ _ (ofText "b.lex" "a b\"c\"20000000000000000000") _ _ hscan (by decide)
  refine ⟨hscan, again, reported, hagain, hlexemes, hproblems.trans (by decide)⟩

end Source

end TokenScan
