import TokenScan.Proofs.Scan.Cuts

/-!
The steps of a scan. A step is one call of `Cursor.lex` that met something to read: the range it
moved the cursor over, what it answered and what it reported. `Cursor.steps` makes these calls one
after another as a scan does. `tokenize_eq_steps` is that a scan with any handler answers and
reports what its steps do, and `steps_eq` that the steps are those of the pieces of the text.
-/

namespace TokenScan

open Text

/-- A call of `Cursor.lex` that consumed something. -/
structure Step where
  /-- From where the cursor stood to where the call left it. -/
  span : Span
  result : Except LexError (Option Token)
  diagnostics : List Diagnostic

/-- The calls that a scan makes from a cursor, up to the end of the source or the one that stops
it. -/
def Cursor.steps (configuration : Configuration) (cursor : Cursor) : List Step :=
  let lexed := cursor.lex configuration Handler.store #[]
  let step : Step :=
    { span := ⟨cursor.offset, lexed.cursor.offset⟩
      result := lexed.result
      diagnostics := lexed.held.toList.map Report.diagnostic }
  match _ : lexed.result with
  | .error .endOfSource => []
  | .error .fatal => [step]
  | .ok _ => step :: lexed.cursor.steps configuration
termination_by cursor.rest.length
decreasing_by exact Cursor.rest_lex_lt ‹_›

def Source.steps (configuration : Configuration) (source : Source) : List Step :=
  source.cursor.steps configuration

namespace Step

def answer (found : List Token) : List Step → Except LexError (List Token)
  | [] => .ok found
  | step :: rest =>
      match step.result with
      | .error error => .error error
      | .ok token? => answer (found ++ token?.toList) rest

def reports (source : Source) (steps : List Step) : List Report :=
  (steps.flatMap diagnostics).map (Report.mk source)

end Step

/-- The answer of a scan whose reports are kept, and the diagnostics that are kept. -/
def Source.scan (configuration : Configuration) (source : Source) :
    Except LexError (List Token) × List Diagnostic :=
  let (answer, kept) := tokenize configuration Handler.store source #[]
  (answer, kept.toList.map Report.diagnostic)

namespace Piece

def step (start : Nat) (piece : Piece) : Step where
  span := ⟨start, start + byteLength piece.text⟩
  result := if piece.isFatal then .error .fatal else .ok (piece.token? start)
  diagnostics := (piece.diagnostic? start).toList

def steps (start : Nat) : List Piece → List Step
  | [] => []
  | piece :: rest => piece.step start :: steps (start + byteLength piece.text) rest

theorem steps_eq_collect (start : Nat) (pieces : List Piece) :
    steps start pieces = collect (fun start piece => [piece.step start]) start pieces := by
  induction pieces generalizing start with
  | nil => rfl
  | cons piece pieces ih => rw [steps, collect, ih, List.singleton_append]

theorem steps_append (start : Nat) (first second : List Piece) :
    steps start (first ++ second) =
      steps start first ++ steps (start + byteLength (textOf first)) second := by
  simp only [steps_eq_collect, collect_append]

theorem flatMap_diagnostics_steps (start : Nat) (pieces : List Piece) :
    (steps start pieces).flatMap Step.diagnostics = diagnostics start pieces := by
  induction pieces generalizing start with
  | nil => rfl
  | cons piece pieces ih => simp [steps, diagnostics, step, ih]

end Piece

theorem store_receiveAll (held : Array Report) (reports : List Report) :
    Handler.store.receiveAll held reports = held ++ reports.toArray := by
  induction reports generalizing held with
  | nil => simp [Handler.receiveAll]
  | cons report reports ih =>
    have hfirst : Handler.store.receiveAll held (report :: reports) =
        Handler.store.receiveAll (held.push report) reports := rfl
    rw [hfirst, ih]
    simp

/-- What an empty store is left with is what was reported. -/
theorem map_diagnostic_store (source : Source) (diagnostics : List Diagnostic) :
    (Handler.store.receiveAll #[] (diagnostics.map (Report.mk source))).toList.map
      Report.diagnostic = diagnostics := by
  rw [store_receiveAll]
  simp [Function.comp_def]

theorem Cursor.steps_of_next?_eq_none {configuration : Configuration} {cursor : Cursor}
    (h : Piece.next? configuration cursor.rest = none) : cursor.steps configuration = [] := by
  have hlexed := cursor.lex_of_next?_eq_none Handler.store #[] h
  rw [Cursor.steps]
  split <;> simp_all

theorem Cursor.steps_of_next?_eq_some {configuration : Configuration} {cursor : Cursor}
    {piece : Piece} {rest : List Char}
    (h : Piece.next? configuration cursor.rest = some (piece, rest)) :
    cursor.steps configuration =
      piece.step cursor.offset ::
        if piece.isFatal then [] else (cursor.past piece.text rest).steps configuration := by
  have hlexed := cursor.lex_of_next?_eq_some Handler.store #[] h
  have hkept := map_diagnostic_store cursor.source (piece.diagnostic? cursor.offset).toList
  cases hfatal : piece.isFatal with
  | true =>
    rw [hfatal, if_pos rfl] at hlexed
    rw [Cursor.steps]
    split <;> simp_all [Piece.step, Cursor.past]
  | false =>
    rw [hfatal, if_neg Bool.false_ne_true] at hlexed
    rw [Cursor.steps]
    split <;> simp_all [Piece.step, Cursor.past]

/-- The steps from a cursor read the pieces to come. -/
theorem Cursor.steps_eq (configuration : Configuration) (cursor : Cursor) :
    cursor.steps configuration =
      Piece.steps cursor.offset (pieces configuration cursor.rest) := by
  cases h : Piece.next? configuration cursor.rest with
  | none =>
    rw [Cursor.steps_of_next?_eq_none h, pieces_of_next?_eq_none h]
    rfl
  | some cut =>
    obtain ⟨piece, rest⟩ := cut
    have hshorter := Piece.length_lt_of_next? h
    rw [Cursor.steps_of_next?_eq_some h, pieces_of_next?_eq_some h, Piece.steps]
    cases hfatal : piece.isFatal with
    | true => rfl
    | false =>
      rw [if_neg Bool.false_ne_true, if_neg Bool.false_ne_true,
        Cursor.steps_eq configuration (cursor.past piece.text rest)]
      rfl
termination_by cursor.rest.length

theorem Source.steps_eq (configuration : Configuration) (source : Source) :
    source.steps configuration = Piece.steps 0 (pieces configuration source.chars) :=
  Cursor.steps_eq configuration source.cursor

theorem Step.answer_steps (start : Nat) (found : List Token) (pieces : List Piece) :
    Step.answer found (Piece.steps start pieces) = resultOf start found pieces := by
  induction pieces generalizing start found with
  | nil => simp [Step.answer, Piece.steps, resultOf, Piece.anyFatal, Piece.tokens]
  | cons piece pieces ih =>
    cases hfatal : piece.isFatal with
    | true => simp [Step.answer, Piece.steps, Piece.step, hfatal, resultOf, Piece.anyFatal]
    | false =>
      rw [resultOf_cons_of_not_isFatal start found pieces hfatal, ← ih]
      simp [Step.answer, Piece.steps, Piece.step, hfatal]

/-- A scan answers what its steps answer and reports what they report, whatever the handler. -/
theorem tokenize_eq_steps {Held : Type} (configuration : Configuration) (handler : Handler Held)
    (source : Source) (held : Held) :
    tokenize configuration handler source held =
      (Step.answer [] (source.steps configuration),
        handler.receiveAll held (Step.reports source (source.steps configuration))) := by
  rw [tokenize, tokenizeFrom_eq, Source.steps_eq, Step.answer_steps, Step.reports,
    Piece.flatMap_diagnostics_steps]
  rfl

theorem tokenize_eq_pieces {Held : Type} (configuration : Configuration) (handler : Handler Held)
    (source : Source) (held : Held) :
    tokenize configuration handler source held =
      (resultOf 0 [] (pieces configuration source.chars),
        handler.receiveAll held
          ((Piece.diagnostics 0 (pieces configuration source.chars)).map (Report.mk source))) :=
  tokenizeFrom_eq configuration handler source.cursor held #[]

theorem Source.scan_eq (configuration : Configuration) (source : Source) :
    source.scan configuration =
      (resultOf 0 [] (pieces configuration source.chars),
        Piece.diagnostics 0 (pieces configuration source.chars)) := by
  rw [Source.scan, tokenize_eq_pieces]
  dsimp only
  rw [map_diagnostic_store]

/-- Whatever becomes of its reports, a scan answers the same and reports the same. -/
theorem tokenize_eq_scan {Held : Type} (configuration : Configuration) (handler : Handler Held)
    (source : Source) (held : Held) :
    tokenize configuration handler source held =
      ((source.scan configuration).1,
        handler.receiveAll held ((source.scan configuration).2.map (Report.mk source))) := by
  rw [tokenize_eq_pieces, Source.scan_eq]

/-- A scan that is not stopped answers and reports what a run of pieces with the same text does. -/
theorem Source.scan_eq_ok_iff {configuration : Configuration} {source : Source}
    {tokens : List Token} {diagnostics : List Diagnostic} :
    source.scan configuration = (.ok tokens, diagnostics) ↔
      ∃ run, Piece.AreCut configuration run [] ∧ source.chars = Piece.textOf run ∧
        tokens = Piece.tokens 0 run ∧ diagnostics = Piece.diagnostics 0 run := by
  rw [scan_eq, Prod.mk.injEq]
  constructor
  · rintro ⟨hresult, rfl⟩
    unfold resultOf at hresult
    split at hresult
    · cases hresult
    · next hfatal =>
      obtain ⟨hchars, hcut⟩ := areCut_pieces (Bool.not_eq_true _ ▸ hfatal)
      exact ⟨_, hcut, hchars.symm, (Except.ok.inj hresult).symm, rfl⟩
  · rintro ⟨run, hcut, hchars, rfl, rfl⟩
    have hpieces : pieces configuration source.chars = run := by
      rw [hchars, pieces_textOf hcut]
    have hfatal := hcut.anyFatal_eq_false
    simp [hpieces, resultOf, hfatal]

end TokenScan
