import TokenScan.Proofs.Scan.Steps

/-!
The lexical grammar of the full grammar, said without the scanner. `Form` lists the forms of a
piece of text, some of which depend on the text behind it, and a text is factored when it is cut
into pieces that each have such a form. Every text has exactly one factorization, and it is the
one that the steps of a scan make, whatever the keyword policy.
-/

namespace TokenScan

open Text Piece

/-- The forms of a piece of text, given the text behind it in its source. -/
inductive Form : List Char → List Char → Prop where
  | blank {c : Char} {rest : List Char} : isAsciiBlank c = true → Form [c] rest
  | lineComment {body rest : List Char} :
      '\n' ∉ body → Form (['/', '/'] ++ body ++ ['\n']) rest
  | lastLineComment {body : List Char} : '\n' ∉ body → Form (['/', '/'] ++ body) []
  /-- No star and slash stand before those that close the comment. -/
  | blockComment {body rest : List Char} :
      (∀ before after, body ++ ['*', '/'] ++ rest = before ++ ['*', '/'] ++ after →
        body.length ≤ before.length) →
      Form (['/', '*'] ++ body ++ ['*', '/']) rest
  | lastBlockComment {body : List Char} :
      ¬ ['*', '/'] <:+: body → Form (['/', '*'] ++ body) []
  | string {content rest : List Char} :
      '"' ∉ content → Form (['"'] ++ content ++ ['"']) rest
  | lastString {content : List Char} : '"' ∉ content → Form (['"'] ++ content) []
  | word {c : Char} {tail rest : List Char} :
      c.isAlpha = true → (∀ d ∈ tail, d.isAlphanum = true) →
      (∀ d, rest.head? = some d → d.isAlphanum = false) → Form (c :: tail) rest
  | numeral {digits rest : List Char} :
      digits ≠ [] → (∀ d ∈ digits, d.isDigit = true) →
      (∀ d, rest.head? = some d → d.isDigit = false) → Form digits rest
  | operator {c : Char} {rest : List Char} :
      Operator.isOperator c = true →
      ¬ (c = '/' ∧ (rest.head? = some '/' ∨ rest.head? = some '*')) → Form [c] rest
  | symbol {c : Char} {rest : List Char} :
      isAsciiBlank c = false → c.isAlphanum = false → c ≠ '"' →
      Operator.isOperator c = false → Form [c] rest

structure IsFactorization (text : List Char) (words : List (List Char)) : Prop where
  flatten_eq : words.flatten = text
  ne_nil : ∀ word ∈ words, word ≠ []
  form : ∀ before word after, words = before ++ word :: after → Form word after.flatten

/-- A body avoids a star and slash just if those written after it are the first. -/
theorem not_infix_iff_first {body rest : List Char} :
    ¬ ['*', '/'] <:+: body ↔
      ∀ before after, body ++ ['*', '/'] ++ rest = before ++ ['*', '/'] ++ after →
        body.length ≤ before.length := by
  constructor
  · intro hnot before after heq
    rw [List.append_assoc, List.append_assoc] at heq
    rcases List.append_eq_append_iff.mp heq with ⟨more, rfl, _⟩ | ⟨tail, rfl, htail⟩
    · simp
    · cases tail with
      | nil => simp
      | cons c tail =>
        obtain ⟨rfl, hnext⟩ := List.cons.inj htail
        cases tail with
        | nil => exact absurd (List.cons.inj hnext).1 (by decide)
        | cons d tail =>
          obtain ⟨rfl, _⟩ := List.cons.inj hnext
          exact absurd ⟨before, tail, by simp⟩ hnot
  · rintro hfirst ⟨before, after, rfl⟩
    have hlength := hfirst before (after ++ ['*', '/'] ++ rest) (by simp)
    simp only [List.length_append, List.length_cons, List.length_nil] at hlength
    omega

/-- A piece of text has a form exactly when a piece of the full grammar is read from it. -/
theorem form_iff (matching : KeywordMatching) {word rest : List Char} :
    Form word rest ↔
      ∃ piece : Piece, piece.text = word ∧ piece.FitsFull matching ∧
        piece.EndsBefore .full rest := by
  constructor
  · intro h
    cases h with
    | @blank c _ hblank => exact ⟨blank c, rfl, hblank, trivial⟩
    | @lineComment body _ hbody => exact ⟨lineComment body true, rfl, hbody, trivial⟩
    | @lastLineComment body hbody => exact ⟨lineComment body false, by simp [text], hbody, rfl⟩
    | @blockComment body _ hfirst =>
      exact ⟨blockComment body true, rfl, not_infix_iff_first.mpr hfirst, trivial⟩
    | @lastBlockComment body hbody =>
      exact ⟨blockComment body false, by simp [text], hbody, rfl⟩
    | @string content _ hcontent => exact ⟨string content true, rfl, hcontent, trivial⟩
    | @lastString content hcontent =>
      exact ⟨string content false, by simp [text], hcontent, rfl⟩
    | @word c tail _ hletter htail hstop =>
      exact ⟨ofWord matching (c :: tail), text_ofWord matching _,
        ofWord_fits matching ⟨c, tail, rfl, hletter, htail⟩ hstop⟩
    | numeral hne hdigits hstop => exact ⟨number word, rfl, ⟨hne, hdigits⟩, hstop⟩
    | @operator c _ hoperator hnot =>
      refine ⟨operator c, rfl, hoperator, ?_⟩
      rintro - rfl d hd
      refine ⟨?_, ?_⟩
      · rintro rfl
        exact hnot ⟨rfl, .inl hd⟩
      · rintro rfl
        exact hnot ⟨rfl, .inr hd⟩
    | @symbol c _ hblank halphanum hquote hoperator =>
      exact ⟨symbol c, rfl, ⟨hblank, halphanum, hquote, hoperator⟩, trivial⟩
  · rintro ⟨piece, rfl, hfits, hends⟩
    cases piece with
    | blank c => exact .blank hfits
    | lineComment body ended =>
      cases ended with
      | true => exact .lineComment hfits
      | false =>
        obtain rfl : rest = [] := hends
        simpa [text] using Form.lastLineComment hfits
    | blockComment body closed =>
      cases closed with
      | true => exact .blockComment (not_infix_iff_first.mp hfits)
      | false =>
        obtain rfl : rest = [] := hends
        simpa [text] using Form.lastBlockComment hfits
    | string content closed =>
      cases closed with
      | true => exact .string hfits
      | false =>
        obtain rfl : rest = [] := hends
        simpa [text] using Form.lastString hfits
    | keyword word =>
      obtain ⟨c, tail, hletters, hletter, htail⟩ := isWord_letters word
      rw [text, hletters]
      exact .word hletter htail hends
    | identifier name =>
      obtain ⟨⟨c, tail, rfl, hletter, htail⟩, _⟩ := hfits
      exact .word hletter htail hends
    | number digits => exact .numeral hfits.1 hfits.2 hends
    | operator c =>
      refine .operator hfits ?_
      rintro ⟨hslash, hline | hblock⟩
      · exact (hends rfl hslash _ hline).1 rfl
      · exact (hends rfl hslash _ hblock).2 rfl
    | symbol c =>
      obtain ⟨hblank, halphanum, hquote, hoperator⟩ := hfits
      exact .symbol hblank halphanum hquote hoperator
    | unexpected c => exact hfits.elim

theorem IsFactorization.tail {text word : List Char} {words : List (List Char)}
    (h : IsFactorization text (word :: words)) : IsFactorization words.flatten words where
  flatten_eq := rfl
  ne_nil other hother := h.ne_nil other (List.mem_cons_of_mem word hother)
  form before other after heq := h.form (word :: before) other after (by rw [heq]; rfl)

/-- A factorization is the texts of a run of pieces, and every such run makes one. -/
theorem isFactorization_iff_areCut (matching : KeywordMatching) {text : List Char}
    {words : List (List Char)} :
    IsFactorization text words ↔
      ∃ run, AreCut { grammar := .full, keywords := matching } run [] ∧ textOf run = text ∧
        words = run.map Piece.text := by
  constructor
  · intro h
    induction words generalizing text with
    | nil => exact ⟨[], trivial, h.flatten_eq, rfl⟩
    | cons word words ih =>
      obtain ⟨run, hcut, htext, rfl⟩ := ih h.tail
      have hform : Form word (textOf run) := by
        rw [htext]
        exact h.form [] word _ rfl
      obtain ⟨piece, rfl, hfits, hends⟩ := (form_iff matching).mp hform
      refine ⟨piece :: run, ⟨hfits.isFatal_eq_false, hfits, ?_, hcut⟩, ?_, rfl⟩
      · rwa [List.append_nil]
      · rw [textOf_cons, htext, ← h.flatten_eq, List.flatten_cons]
  · rintro ⟨run, hcut, rfl, rfl⟩
    refine ⟨List.flatMap_def.symm, ?_, ?_⟩
    · intro word hword
      obtain ⟨piece, hpiece, rfl⟩ := List.mem_map.mp hword
      exact hcut.text_ne_nil piece hpiece
    · intro before word after heq
      obtain ⟨first, second, rfl, -, hsecond⟩ := List.map_eq_append_iff.mp heq
      obtain ⟨piece, behind, rfl, rfl, rfl⟩ := List.map_eq_cons_iff.mp hsecond
      obtain ⟨-, -, hfits, hends, -⟩ := areCut_append.mp hcut
      refine (form_iff matching).mpr ⟨piece, rfl, hfits, ?_⟩
      rwa [List.append_nil, textOf, List.flatMap_def] at hends

/-- The steps that read a run of pieces move over their texts. -/
theorem map_charsIn_steps {source : Source} (before after : List Char) {run : List Piece}
    (h : source.chars = before ++ textOf run ++ after) :
    (Piece.steps (byteLength before) run).map (fun step => source.charsIn step.span) =
      run.map Piece.text := by
  induction run generalizing before with
  | nil => rfl
  | cons piece run ih =>
    have hslice : slice? source.chars (byteLength before)
        (byteLength before + byteLength piece.text) = some piece.text := by
      rw [slice?_eq_some_iff]
      exact ⟨before, textOf run ++ after, by simp [h], rfl, byteLength_append before piece.text⟩
    have hrest : source.chars = before ++ piece.text ++ textOf run ++ after := by simp [h]
    have hsteps := ih (before ++ piece.text) hrest
    rw [byteLength_append] at hsteps
    rw [Piece.steps, List.map_cons, hsteps, List.map_cons]
    simp only [Piece.step, Source.charsIn, hslice, Option.getD_some]

/-- Every source has exactly one factorization: the texts that a scan's calls of `Cursor.lex` read
one after another. The calls are those that the scan answers and reports from, and what the
policy makes of a word does not move them. -/
theorem isFactorization_iff_eq_lexed (matching : KeywordMatching) (source : Source) :
    (∀ (Held : Type) (handler : Handler Held) (held : Held),
      tokenize { grammar := .full, keywords := matching } handler source held =
        (Step.answer [] (source.steps { grammar := .full, keywords := matching }),
          handler.receiveAll held (Step.reports source
            (source.steps { grammar := .full, keywords := matching })))) ∧
    ∀ words, IsFactorization source.chars words ↔
      words = (source.steps { grammar := .full, keywords := matching }).map
        fun step => source.charsIn step.span := by
  refine ⟨fun Held handler held => tokenize_eq_steps _ handler source held, ?_⟩
  intro words
  obtain ⟨htext, hcut⟩ := areCut_pieces (anyFatal_pieces_full matching source.chars)
  have hlexed : (source.steps { grammar := .full, keywords := matching }).map
      (fun step => source.charsIn step.span) =
        (pieces { grammar := .full, keywords := matching } source.chars).map Piece.text := by
    rw [Source.steps_eq]
    exact map_charsIn_steps [] [] (by simp [htext])
  rw [hlexed, isFactorization_iff_areCut matching]
  constructor
  · rintro ⟨run, hrun, hwhole, rfl⟩
    rw [← hwhole, pieces_textOf hrun]
  · rintro rfl
    exact ⟨_, hcut, htext, rfl⟩

end TokenScan
