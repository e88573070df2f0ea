import TokenScan.Proofs.Scan.Bounds

/-!
Reading with the operations of a cursor. `Cursor.lex` cuts a piece off the text to come. The same
can be done with nothing but what a cursor can be asked: for the next character, for a look at the
one behind it, to eat while a condition holds, and for the span from where the piece began, whose
text is then looked up in the source. `Cursor.lexByOperations?` does so, and it has no answer where
a span or a part of the source that it asks for does not exist. That never happens, and
`lexByOperations?_eq` says that the two come to the same.
-/

namespace TokenScan

open Text

namespace Cursor

variable {Held : Type}

/-! ### Operations -/

/-- The cursor behind the next character, if there is one. -/
def skip (cursor : Cursor) : Cursor :=
  match cursor.next? with
  | none => cursor
  | some (_, after) => after

theorem rest_next?_lt {cursor after : Cursor} {item : Nat × Char}
    (h : cursor.next? = some (item, after)) : after.rest.length < cursor.rest.length := by
  unfold next? at h
  split at h
  · cases h
  · next c rest hrest =>
    cases h
    rw [hrest]
    exact Nat.lt_succ_self _

/-- Goes on character by character to where a star and a slash come next, or else to the end of the
source. Tells whether they do. -/
def findClose (cursor : Cursor) : Cursor × Bool :=
  if cursor.startsWith ['*', '/'] then (cursor, true)
  else
    match _ : cursor.next? with
    | none => (cursor, false)
    | some (_, after) => after.findClose
termination_by cursor.rest.length
decreasing_by exact rest_next?_lt ‹_›

def withoutToken (cursor : Cursor) (held : Held) : Lexed Held :=
  { result := .ok none, cursor, held }

def withToken? (cursor : Cursor) (start : Nat) (lexeme : Lexeme) (held : Held) :
    Option (Lexed Held) := do
  let span ← cursor.spanFrom? start
  return { result := .ok (some ⟨span, lexeme⟩), cursor, held }

def report (handler : Handler Held) (cursor : Cursor) (span : Span) (problem : Problem)
    (held : Held) : Held :=
  handler.receive held ⟨cursor.source, ⟨span, problem⟩⟩

def lexLineComment (cursor : Cursor) (held : Held) : Lexed Held :=
  (cursor.skip.eatWhile (· != '\n')).skip.withoutToken held

def lexBlockComment? (handler : Handler Held) (cursor : Cursor) (start : Nat) (held : Held) :
    Option (Lexed Held) := do
  let opened := cursor.skip
  let opener ← opened.spanFrom? start
  match opened.findClose with
  | (closing, true) => return closing.skip.skip.withoutToken held
  | (last, false) =>
      return last.withoutToken (last.report handler opener .unterminatedBlockComment held)

/-- Reads on behind the quote of a string. What the string holds is the text of its span without
the byte at either end. -/
def lexString? (handler : Handler Held) (cursor : Cursor) (start : Nat) (held : Held) :
    Option (Lexed Held) := do
  let opener ← cursor.spanFrom? start
  let last := cursor.eatWhile (· != '"')
  match last.next? with
  | none => return last.withoutToken (last.report handler opener .unterminatedString held)
  | some (_, after) =>
      let span ← after.spanFrom? start
      let text ← slice? after.source.chars span.start span.stop
      let content ← slice? text 1 (byteLength text - 1)
      after.withToken? start (.string content) held

/-- Reads on behind the first letter of a word. The policy is applied to the text of its span. -/
def lexWord? (matching : KeywordMatching) (cursor : Cursor) (start : Nat) (held : Held) :
    Option (Lexed Held) := do
  let last := cursor.eatWhile Char.isAlphanum
  let span ← last.spanFrom? start
  let name ← slice? last.source.chars span.start span.stop
  match matching with
  | .singleCharacter => last.withToken? start (.identifier name) held
  | .wholeWord =>
      match Keyword.ofLetters? name with
      | none => last.withToken? start (.identifier name) held
      | some word => last.withToken? start (.keyword word) held

/-- Reads on behind the first digit of a number. Its value is read off the text of its span. -/
def lexNumber? (handler : Handler Held) (cursor : Cursor) (start : Nat) (held : Held) :
    Option (Lexed Held) := do
  let last := cursor.eatWhile Char.isDigit
  let span ← last.spanFrom? start
  let digits ← slice? last.source.chars span.start span.stop
  match Piece.readNumeral? digits with
  | none =>
      last.withToken? start (.number Lexeme.largestNumber)
        (last.report handler span .numericOverflow held)
  | some amount => last.withToken? start (.number amount) held

def lexFull? (matching : KeywordMatching) (handler : Handler Held) (cursor : Cursor) (start : Nat)
    (c : Char) (held : Held) : Option (Lexed Held) :=
  if isAsciiBlank c then some (cursor.withoutToken held)
  else if c = '/' ∧ cursor.peek? = some '/' then some (cursor.lexLineComment held)
  else if c = '/' ∧ cursor.peek? = some '*' then cursor.lexBlockComment? handler start held
  else if c = '"' then cursor.lexString? handler start held
  else
    match Piece.characterKeyword? matching c with
    | some word => cursor.withToken? start (.keyword word) held
    | none =>
        if Operator.isOperator c then cursor.withToken? start (.operator c) held
        else if c.isAlpha then cursor.lexWord? matching start held
        else if c.isDigit then cursor.lexNumber? handler start held
        else cursor.withToken? start (.symbol c) held

def lexArithmetic? (handler : Handler Held) (cursor : Cursor) (start : Nat) (c : Char)
    (held : Held) : Option (Lexed Held) :=
  if isArithmeticBlank c then some (cursor.withoutToken held)
  else if c.isDigit then cursor.lexNumber? handler start held
  else if Operator.isArithmetic c then cursor.withToken? start (.operator c) held
  else do
    let span ← cursor.spanFrom? start
    return {
      result := .error .fatal
      cursor
      held := cursor.report handler span (.unexpectedCharacter c) held }

/-- Reads one piece. There is no answer where the source has no such span as is asked for. -/
def lexByOperations? (configuration : Configuration) (handler : Handler Held) (cursor : Cursor)
    (held : Held) : Option (Lexed Held) :=
  match cursor.next? with
  | none => some { result := .error .endOfSource, cursor, held }
  | some ((start, c), after) =>
      match configuration.grammar with
      | .full => after.lexFull? configuration.keywords handler start c held
      | .arithmetic => after.lexArithmetic? handler start c held

/-! ### What the operations come to -/

/-- What reading comes to when this piece is cut off the text to come. -/
def cutOff (handler : Handler Held) (cursor : Cursor) (held : Held) (cut : Piece × List Char) :
    Lexed Held :=
  { result := if cut.1.isFatal then .error .fatal else .ok (cut.1.token? cursor.offset)
    cursor := cursor.past cut.1.text cut.2
    held := handler.receiveAll held
      ((cut.1.diagnostic? cursor.offset).toList.map (Report.mk cursor.source)) }

variable {cursor : Cursor} {before text read rest : List Char} {c : Char}

@[simp]
theorem source_past (cursor : Cursor) (read rest : List Char) :
    (cursor.past read rest).source = cursor.source := rfl

theorem skip_of_rest_eq_nil (h : cursor.rest = []) : cursor.skip = cursor := by
  rw [skip, next?, h]

theorem skip_of_rest_eq_cons (h : cursor.rest = c :: rest) :
    cursor.skip = cursor.past [c] rest := by
  rw [skip, next?, h]

theorem startsWith_close_iff (h : cursor.rest = c :: rest) :
    cursor.startsWith ['*', '/'] = true ↔ c = '*' ∧ rest.head? = some '/' := by
  rw [startsWith, h, List.isPrefixOf_iff_prefix, List.cons_prefix_cons, eq_comm]
  refine and_congr_right fun _ => ?_
  cases rest with
  | nil => simp
  | cons d rest => simpa using eq_comm

theorem findClose_of_rest_eq_nil (h : cursor.rest = []) : cursor.findClose = (cursor, false) := by
  have hnext : cursor.next? = none := by rw [next?, h]
  have hstarts : ¬ cursor.startsWith ['*', '/'] = true := by
    rw [startsWith, h]
    exact Bool.false_ne_true
  rw [findClose, if_neg hstarts]
  split
  · rfl
  · next hsome => cases hnext.symm.trans hsome

theorem findClose_of_startsWith (h : cursor.startsWith ['*', '/'] = true) :
    cursor.findClose = (cursor, true) := by
  rw [findClose, if_pos h]

theorem findClose_of_rest_eq_cons (h : cursor.rest = c :: rest)
    (hstarts : ¬ cursor.startsWith ['*', '/'] = true) :
    cursor.findClose = (cursor.past [c] rest).findClose := by
  have hnext : cursor.next? = some ((cursor.offset, c), cursor.past [c] rest) := by rw [next?, h]
  rw [findClose, if_neg hstarts]
  split
  · next hnone => cases hnext.symm.trans hnone
  · next hsome =>
    cases hnext.symm.trans hsome
    rfl

/-- Going on to the close of a comment is going over its body. -/
theorem findClose_past (cursor : Cursor) (read text : List Char) :
    (cursor.past read.reverse text).findClose =
      match Piece.closeComment? read text with
      | none => (cursor.past (read.reverse ++ text) [], false)
      | some (body, rest) => (cursor.past body ('*' :: '/' :: rest), true) := by
  fun_induction Piece.closeComment? read text with
  | case1 read => rw [findClose_of_rest_eq_nil rfl, List.append_nil]
  | case2 read c rest hcloses =>
    have hstarts : (cursor.past read.reverse (c :: rest)).startsWith ['*', '/'] = true :=
      (startsWith_close_iff rfl).mpr hcloses
    obtain ⟨rfl, hslash⟩ := hcloses
    obtain ⟨tail, rfl⟩ := List.head?_eq_some_iff.mp hslash
    rw [findClose_of_startsWith hstarts]
    rfl
  | case3 read c rest hcloses ih =>
    have hstarts : ¬ (cursor.past read.reverse (c :: rest)).startsWith ['*', '/'] = true :=
      mt (startsWith_close_iff rfl).mp hcloses
    rw [findClose_of_rest_eq_cons rfl hstarts, past_past, ← List.reverse_cons, ih,
      List.reverse_cons, List.append_assoc, List.singleton_append]

theorem eatWhile_past (cursor : Cursor) (read text : List Char) (condition : Char → Bool) :
    (cursor.past read text).eatWhile condition =
      cursor.past (read ++ text.takeWhile condition) (text.dropWhile condition) :=
  past_past cursor read _ text _

/-- The run of which the cursor has read the first character. -/
theorem rest_eq_run (hrest : cursor.rest = c :: text) (condition : Char → Bool) :
    cursor.rest = c :: text.takeWhile condition ++ text.dropWhile condition := by
  rw [List.cons_append, List.takeWhile_append_dropWhile, hrest]

/-- What a cursor has read since an offset is the text of a span from there. -/
theorem HasRead.spanFrom?_past (h : cursor.HasRead before) (hrest : cursor.rest = read ++ rest) :
    (cursor.past read rest).spanFrom? cursor.offset =
      some ⟨cursor.offset, cursor.offset + byteLength read⟩ :=
  h.spanFrom? (reads_past hrest)

theorem HasRead.slice?_past (h : cursor.HasRead before) (hrest : cursor.rest = read ++ rest) :
    Text.slice? cursor.source.chars cursor.offset (cursor.offset + byteLength read) =
      some read := by
  have hchars := h.chars
  rw [hrest] at hchars
  rw [h.offset]
  exact Source.slice?_of_append hchars

/-! A piece comes to a token or to none, and is reported or is not. -/

section CutOff

variable {lexeme : Lexeme} {problem : Problem} {concerned : List Char} (piece : Piece)
  (handler : Handler Held) (held : Held)

theorem cutOff_eq_withoutToken (hfatal : piece.isFatal = false) (hlexeme : piece.lexeme? = none)
    (hproblem : piece.problem? = none) :
    cursor.cutOff handler held (piece, rest) = (cursor.past piece.text rest).withoutToken held := by
  simp [cutOff, withoutToken, hfatal, Piece.token?, hlexeme, Piece.diagnostic?, hproblem,
    Handler.receiveAll]

theorem cutOff_eq_withoutToken_report (hfatal : piece.isFatal = false)
    (hlexeme : piece.lexeme? = none) (hproblem : piece.problem? = some (problem, concerned)) :
    cursor.cutOff handler held (piece, rest) =
      (cursor.past piece.text rest).withoutToken
        (cursor.report handler ⟨cursor.offset, cursor.offset + byteLength concerned⟩ problem
          held) := by
  simp [cutOff, withoutToken, report, hfatal, Piece.token?, hlexeme, Piece.diagnostic?, hproblem,
    Handler.receiveAll]

theorem HasRead.withToken?_eq (h : cursor.HasRead before)
    (hrest : cursor.rest = piece.text ++ rest) (hfatal : piece.isFatal = false)
    (hlexeme : piece.lexeme? = some lexeme) (hproblem : piece.problem? = none) :
    (cursor.past piece.text rest).withToken? cursor.offset lexeme held =
      some (cursor.cutOff handler held (piece, rest)) := by
  rw [withToken?, h.spanFrom?_past hrest]
  simp [cutOff, hfatal, Piece.token?, hlexeme, Piece.diagnostic?, hproblem, Handler.receiveAll]

theorem HasRead.withToken?_report_eq (h : cursor.HasRead before)
    (hrest : cursor.rest = piece.text ++ rest) (hfatal : piece.isFatal = false)
    (hlexeme : piece.lexeme? = some lexeme)
    (hproblem : piece.problem? = some (problem, concerned)) :
    (cursor.past piece.text rest).withToken? cursor.offset lexeme
        (cursor.report handler ⟨cursor.offset, cursor.offset + byteLength concerned⟩ problem
          held) =
      some (cursor.cutOff handler held (piece, rest)) := by
  rw [withToken?, h.spanFrom?_past hrest]
  simp [cutOff, report, hfatal, Piece.token?, hlexeme, Piece.diagnostic?, hproblem,
    Handler.receiveAll]

end CutOff

theorem lexLineComment_eq (handler : Handler Held) (held : Held) (cursor : Cursor)
    (text : List Char) :
    (cursor.past ['/'] ('/' :: text)).lexLineComment held =
      cursor.cutOff handler held (Piece.readLineComment text) := by
  have hopened : (cursor.past ['/'] ('/' :: text)).skip = cursor.past ['/', '/'] text := by
    rw [skip_of_rest_eq_cons rfl, past_past]
    rfl
  rw [lexLineComment, hopened, eatWhile_past, Piece.readLineComment]
  split
  · next hdrop =>
    have htake := List.takeWhile_eq_self_iff.mpr (List.dropWhile_eq_nil_iff.mp hdrop)
    rw [hdrop, htake, skip_of_rest_eq_nil rfl, cutOff_eq_withoutToken _ handler held rfl rfl rfl]
    simp [Piece.text]
  · next c rest hdrop =>
    obtain ⟨hstop, -⟩ := Piece.takeWhile_cons_of_dropWhile hdrop
    obtain rfl : c = '\n' := by simpa using hstop
    rw [hdrop, skip_of_rest_eq_cons rfl, past_past,
      cutOff_eq_withoutToken _ handler held rfl rfl rfl]
    simp [Piece.text]

/-- The comment is closed where the text has its first star and slash. Without these its opener is
reported. -/
theorem HasRead.lexBlockComment?_eq (h : cursor.HasRead before)
    (hrest : cursor.rest = '/' :: '*' :: text) (handler : Handler Held) (held : Held) :
    (cursor.past ['/'] ('*' :: text)).lexBlockComment? handler cursor.offset held =
      some (cursor.cutOff handler held (Piece.readBlockComment text)) := by
  have hopened : (cursor.past ['/'] ('*' :: text)).skip = cursor.past ['/', '*'] text := by
    rw [skip_of_rest_eq_cons rfl, past_past]
    rfl
  have hopener : (cursor.past ['/', '*'] text).spanFrom? cursor.offset =
      some ⟨cursor.offset, cursor.offset + byteLength ['/', '*']⟩ := h.spanFrom?_past hrest
  have hclose := findClose_past (cursor.past ['/', '*'] text) [] text
  simp only [past_past, List.reverse_nil, List.append_nil, List.nil_append] at hclose
  rw [lexBlockComment?, hopened, Piece.readBlockComment, hopener, hclose]
  cases Piece.closeComment? [] text with
  | none =>
    have htext : (Piece.blockComment text false).text = ['/', '*'] ++ text := List.append_nil _
    rw [cutOff_eq_withoutToken_report _ handler held rfl rfl rfl, htext]
    rfl
  | some cut =>
    obtain ⟨body, rest⟩ := cut
    have hclosed : (cursor.past (['/', '*'] ++ body) ('*' :: '/' :: rest)).skip.skip =
        cursor.past (Piece.blockComment body true).text rest := by
      rw [skip_of_rest_eq_cons rfl, skip_of_rest_eq_cons rfl, past_past, past_past]
      rfl
    rw [cutOff_eq_withoutToken _ handler held rfl rfl rfl, ← hclosed]
    rfl

/-- The string ends with the next quote, and what it holds is the text between the two. Without a
next quote the first one is reported. -/
theorem HasRead.lexString?_eq (h : cursor.HasRead before) (hrest : cursor.rest = '"' :: text)
    (handler : Handler Held) (held : Held) :
    (cursor.past ['"'] text).lexString? handler cursor.offset held =
      some (cursor.cutOff handler held (Piece.readString text)) := by
  have hopener : (cursor.past ['"'] text).spanFrom? cursor.offset =
      some ⟨cursor.offset, cursor.offset + byteLength ['"']⟩ := h.spanFrom?_past hrest
  rw [lexString?, hopener, eatWhile_past, Piece.readString]
  split
  · next hdrop =>
    have htake := List.takeWhile_eq_self_iff.mpr (List.dropWhile_eq_nil_iff.mp hdrop)
    have htext : (Piece.string text false).text = ['"'] ++ text := List.append_nil _
    rw [hdrop, htake, cutOff_eq_withoutToken_report _ handler held rfl rfl rfl, htext]
    rfl
  · next c rest hdrop =>
    obtain ⟨hstop, hparts⟩ := Piece.takeWhile_cons_of_dropWhile hdrop
    obtain rfl : c = '"' := by simpa using hstop
    rw [hdrop]
    generalize text.takeWhile (· != '"') = content at hparts ⊢
    have hwhole : cursor.rest = (Piece.string content true).text ++ rest := by
      rw [hrest, ← hparts]
      simp [Piece.text]
    have hbehind : (cursor.past (['"'] ++ content) ('"' :: rest)).past ['"'] rest =
        cursor.past (Piece.string content true).text rest := past_past cursor _ ['"'] _ rest
    have hnext : (cursor.past (['"'] ++ content) ('"' :: rest)).next? =
        some ((cursor.offset + byteLength (['"'] ++ content), '"'),
          cursor.past (Piece.string content true).text rest) := by
      rw [← hbehind]
      rfl
    have hspan := h.spanFrom?_past hwhole
    have hslice := h.slice?_past hwhole
    -- Both ends of the text are quotes, of one byte each, so the slice is not inside a character.
    have hinside : Text.slice? (Piece.string content true).text 1
        (byteLength (Piece.string content true).text - 1) = some content :=
      (slice?_of_quoted content).2
    simp only [hnext, Option.bind_eq_bind, Option.bind_some, hspan, source_past, hslice, hinside]
    exact h.withToken?_eq (.string content true) handler held hwhole rfl rfl rfl

/-- The word is read to its end, and the policy finds its letters in the source. -/
theorem HasRead.lexWord?_eq (h : cursor.HasRead before) (hrest : cursor.rest = c :: text)
    (matching : KeywordMatching) (handler : Handler Held) (held : Held) :
    (cursor.past [c] text).lexWord? matching cursor.offset held =
      some (cursor.cutOff handler held (Piece.readWord matching c text)) := by
  have hwhole := rest_eq_run hrest Char.isAlphanum
  rw [lexWord?, eatWhile_past, List.singleton_append, Piece.readWord]
  generalize c :: text.takeWhile Char.isAlphanum = name at hwhole ⊢
  have hspan := h.spanFrom?_past hwhole
  have hslice := h.slice?_past hwhole
  simp only [hspan, Option.bind_eq_bind, Option.bind_some, source_past, hslice]
  cases matching with
  | singleCharacter => exact h.withToken?_eq (.identifier name) handler held hwhole rfl rfl rfl
  | wholeWord =>
    cases hword : Keyword.ofLetters? name with
    | none =>
      rw [Piece.ofWord, hword]
      exact h.withToken?_eq (.identifier name) handler held hwhole rfl rfl rfl
    | some word =>
      rw [Piece.ofWord, hword]
      -- The piece keeps the keyword only, whose letters are those that were read.
      rw [Keyword.letters_of_ofLetters? hword] at hwhole ⊢
      exact h.withToken?_eq (.keyword word) handler held hwhole rfl rfl rfl

/-- The number is read to its end, and its value is that of its digits in the source. A number that
is too large is reported. -/
theorem HasRead.lexNumber?_eq (h : cursor.HasRead before) (hrest : cursor.rest = c :: text)
    (handler : Handler Held) (held : Held) :
    (cursor.past [c] text).lexNumber? handler cursor.offset held =
      some (cursor.cutOff handler held (Piece.readNumber c text)) := by
  have hwhole := rest_eq_run hrest Char.isDigit
  rw [lexNumber?, eatWhile_past, List.singleton_append, Piece.readNumber]
  generalize c :: text.takeWhile Char.isDigit = digits at hwhole ⊢
  have hspan := h.spanFrom?_past hwhole
  have hslice := h.slice?_past hwhole
  simp only [hspan, Option.bind_eq_bind, Option.bind_some, source_past, hslice]
  cases hvalue : Piece.readNumeral? digits with
  | none =>
    have hlexeme : (Piece.number digits).lexeme? = some (.number Lexeme.largestNumber) := by
      rw [Piece.lexeme?, hvalue]
      rfl
    have hproblem : (Piece.number digits).problem? = some (.numericOverflow, digits) := by
      rw [Piece.problem?, hvalue]
      rfl
    exact h.withToken?_report_eq (.number digits) handler held hwhole rfl hlexeme hproblem
  | some amount =>
    have hlexeme : (Piece.number digits).lexeme? = some (.number amount) := by
      rw [Piece.lexeme?, hvalue]
      rfl
    have hproblem : (Piece.number digits).problem? = none := by
      rw [Piece.problem?, hvalue]
      rfl
    exact h.withToken?_eq (.number digits) handler held hwhole rfl hlexeme hproblem

theorem HasRead.lexFull?_eq (h : cursor.HasRead before) (hrest : cursor.rest = c :: text)
    (matching : KeywordMatching) (handler : Handler Held) (held : Held) :
    (cursor.past [c] text).lexFull? matching handler cursor.offset c held =
      some (cursor.cutOff handler held (Piece.readFull matching c text)) := by
  have hpeek : (cursor.past [c] text).peek? = text.head? := rfl
  unfold lexFull? Piece.readFull
  rw [hpeek]
  split
  · rw [cutOff_eq_withoutToken _ handler held rfl rfl rfl]
    rfl
  · split
    · next hopens =>
      obtain ⟨rfl, hslash⟩ := hopens
      obtain ⟨tail, rfl⟩ := List.head?_eq_some_iff.mp hslash
      exact congrArg some (lexLineComment_eq handler held cursor tail)
    · split
      · next hopens =>
        obtain ⟨rfl, hstar⟩ := hopens
        obtain ⟨tail, rfl⟩ := List.head?_eq_some_iff.mp hstar
        exact h.lexBlockComment?_eq hrest handler held
      · split
        · next hquote =>
          subst hquote
          exact h.lexString?_eq hrest handler held
        · -- No keyword has a single letter, so none is found in one character.
          rw [characterKeyword?_eq_none]
          dsimp only
          split
          · exact h.withToken?_eq (.operator c) handler held hrest rfl rfl rfl
          · split
            · exact h.lexWord?_eq hrest matching handler held
            · split
              · exact h.lexNumber?_eq hrest handler held
              · exact h.withToken?_eq (.symbol c) handler held hrest rfl rfl rfl

theorem HasRead.lexArithmetic?_eq (h : cursor.HasRead before) (hrest : cursor.rest = c :: text)
    (handler : Handler Held) (held : Held) :
    (cursor.past [c] text).lexArithmetic? handler cursor.offset c held =
      some (cursor.cutOff handler held (Piece.readArithmetic c text)) := by
  unfold lexArithmetic? Piece.readArithmetic
  split
  · rw [cutOff_eq_withoutToken _ handler held rfl rfl rfl]
    rfl
  · split
    · exact h.lexNumber?_eq hrest handler held
    · split
      · exact h.withToken?_eq (.operator c) handler held hrest rfl rfl rfl
      · have hspan : (cursor.past [c] text).spanFrom? cursor.offset =
            some ⟨cursor.offset, cursor.offset + byteLength [c]⟩ := h.spanFrom?_past hrest
        rw [hspan]
        rfl

/-- Wherever a cursor has come to by reading, no operation fails it there, and a piece is read with
them as it is cut off the text. -/
theorem HasRead.lexByOperations?_eq (h : cursor.HasRead before) (configuration : Configuration)
    (handler : Handler Held) (held : Held) :
    cursor.lexByOperations? configuration handler held =
      some (cursor.lex configuration handler held) := by
  cases hrest : cursor.rest with
  | nil =>
    have hnext : cursor.next? = none := by rw [Cursor.next?, hrest]
    have hpiece : Piece.next? configuration cursor.rest = none := by
      rw [hrest]
      rfl
    rw [lexByOperations?, hnext, cursor.lex_of_next?_eq_none handler held hpiece]
  | cons c text =>
    have hnext : cursor.next? = some ((cursor.offset, c), cursor.past [c] text) := by
      rw [Cursor.next?, hrest]
    rw [lexByOperations?, hnext]
    dsimp only
    cases hgrammar : configuration.grammar with
    | full =>
      have hpiece : Piece.next? configuration cursor.rest =
          some (Piece.readFull configuration.keywords c text) := by
        rw [hrest, Piece.next?_cons, hgrammar]
      rw [h.lexFull?_eq hrest, cursor.lex_of_next?_eq_some handler held hpiece]
      rfl
    | arithmetic =>
      have hpiece : Piece.next? configuration cursor.rest = some (Piece.readArithmetic c text) := by
        rw [hrest, Piece.next?_cons, hgrammar]
      rw [h.lexArithmetic?_eq hrest, cursor.lex_of_next?_eq_some handler held hpiece]
      rfl

end Cursor

end TokenScan
