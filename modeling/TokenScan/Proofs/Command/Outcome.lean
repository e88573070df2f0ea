import TokenScan.Command.Run
import TokenScan.Proofs.Scan.Bounds
import TokenScan.Proofs.Source.Loading

/-!
What a run leaves behind. A run that cannot load its source says so in one message and prints
nothing else. Any other run prints its diagnostics as they are reported, and then the tokens unless
the scan was stopped. Only what stops a scan is reported as an error, so counting the errors tells
no more about a run than the scan itself does: the options that only concern the tokens, the
diagnostics or their colours have no say in each other's part of the outcome. A diagnostic whose
excerpt cannot be printed ends the run where it is.
-/

namespace TokenScan

open Text

namespace Piece

/-- What a piece is complained of is an error just if the piece stops the scan. -/
theorem exists_error_iff_isFatal (start : Nat) (piece : Piece) :
    (∃ diagnostic ∈ piece.diagnostic? start, diagnostic.severity = .error) ↔
      piece.isFatal = true := by
  cases piece with
  | unexpected c => simp [diagnostic?, problem?, isFatal, Diagnostic.severity, Problem.severity]
  | string content closed =>
    cases closed <;> simp [diagnostic?, problem?, isFatal, Diagnostic.severity, Problem.severity]
  | blockComment body closed =>
    cases closed <;> simp [diagnostic?, problem?, isFatal, Diagnostic.severity, Problem.severity]
  | number digits =>
    by_cases hlarge : (readNumeral? digits).isNone = true <;>
      simp [diagnostic?, problem?, isFatal, Diagnostic.severity, Problem.severity, hlarge]
  | _ => simp [diagnostic?, problem?, isFatal]

theorem exists_error_iff_anyFatal (start : Nat) (run : List Piece) :
    (∃ diagnostic ∈ diagnostics start run, diagnostic.severity = .error) ↔
      anyFatal run = true := by
  induction run generalizing start with
  | nil => simp [diagnostics, anyFatal]
  | cons piece run ih =>
    have hpiece := exists_error_iff_isFatal start piece
    have hrun := ih (start + byteLength piece.text)
    rw [anyFatal, List.any_cons, Bool.or_eq_true, ← anyFatal, ← hpiece, ← hrun, diagnostics]
    simp only [List.mem_append, Option.mem_toList, or_and_right, exists_or, Option.mem_def]

end Piece

/-- Only what stops a scan is reported as an error. -/
theorem Source.exists_error_iff (configuration : Configuration) (source : Source) :
    (∃ diagnostic ∈ (source.scan configuration).2, diagnostic.severity = .error) ↔
      (source.scan configuration).1 = .error .fatal := by
  rw [Source.scan_eq, Piece.exists_error_iff_anyFatal, resultOf]
  split
  · next hfatal => simp [hfatal]
  · next hfatal => simp [hfatal]

namespace Source

variable {configuration : Configuration} {source : Source} {tokens : List Token}

/-- A scan that is not stopped only warns. -/
theorem severity_eq_warning (h : (source.scan configuration).1 = .ok tokens)
    {diagnostic : Diagnostic} (hdiagnostic : diagnostic ∈ (source.scan configuration).2) :
    diagnostic.severity = .warning := by
  cases hseverity : diagnostic.severity with
  | warning => rfl
  | error =>
    have hfatal := (exists_error_iff configuration source).mp ⟨diagnostic, hdiagnostic, hseverity⟩
    rw [h] at hfatal
    cases hfatal

end Source

/-- A report with the line feed that parts it from the next. -/
def Report.block (report : Report) : Printed :=
  report.printed.andThen (.write (.text "\n"))

namespace Report

variable {report : Report}

theorem panicked_printed : report.printed.panicked =
    (Excerpt.ofSpan report.source report.diagnostic.span
      report.diagnostic.problem.help?).printed.panicked := by
  simp [printed]

@[simp]
theorem panicked_block : report.block.panicked = report.printed.panicked := by
  simp [block]

theorem render_block (colors : Bool) (h : report.printed.panicked = false) :
    report.block.render colors = report.printed.render colors ++ "\n" := by
  rw [block, Printed.render_andThen _ _ h, Printed.render_write, Styled.render_text]

theorem block_of_panicked (h : report.printed.panicked = true) : report.block = report.printed :=
  Printed.andThen_of_panicked _ h

end Report

namespace Command

open Printed

/-! ### The printer -/

namespace Printer

variable {printer : Printer} {report : Report} {reports : List Report}

theorem printed_print (printer : Printer) (report : Report) :
    (printer.print report).printed = printer.printed.andThen report.block := by
  unfold print
  dsimp only
  split
  · rfl
  · cases report.diagnostic.severity <;> rfl

theorem receiveAll_cons (printer : Printer) (report : Report) (reports : List Report) :
    handler.receiveAll printer (report :: reports) =
      handler.receiveAll (printer.print report) reports := rfl

/-- The reports are printed in order. -/
theorem printed_receiveAll (printer : Printer) (reports : List Report) :
    (handler.receiveAll printer reports).printed =
      printer.printed.andThen (sequence (reports.map Report.block)) := by
  induction reports generalizing printer with
  | nil => exact (andThen_empty printer.printed).symm
  | cons report reports ih =>
    rw [receiveAll_cons, ih, printed_print, andThen_assoc, List.map_cons, sequence_cons]

theorem counts_print (h : (printer.print report).printed.panicked = false) :
    (printer.print report).errors = printer.errors +
        [report].countP (fun report => report.diagnostic.severity = .error) ∧
      (printer.print report).warnings = printer.warnings +
        [report].countP (fun report => report.diagnostic.severity = .warning) := by
  rw [printed_print] at h
  unfold print
  dsimp only
  rw [← Report.block, if_neg (Bool.eq_false_iff.mp h)]
  cases hseverity : report.diagnostic.severity <;> simp [hseverity]

/-- Where no report panics, every report is counted. -/
theorem counts_receiveAll (h : (handler.receiveAll printer reports).printed.panicked = false) :
    (handler.receiveAll printer reports).errors = printer.errors +
        reports.countP (fun report => report.diagnostic.severity = .error) ∧
      (handler.receiveAll printer reports).warnings = printer.warnings +
        reports.countP (fun report => report.diagnostic.severity = .warning) := by
  induction reports generalizing printer with
  | nil => exact ⟨rfl, rfl⟩
  | cons report reports ih =>
    rw [receiveAll_cons] at h ⊢
    have hfirst : (printer.print report).printed.panicked = false := by
      rw [printed_receiveAll, panicked_andThen, Bool.or_eq_false_iff] at h
      exact h.1
    have hcons (counted : Report → Bool) : (report :: reports).countP counted =
        [report].countP counted + reports.countP counted := by
      rw [← List.countP_append, List.singleton_append]
    obtain ⟨herrors, hwarnings⟩ := counts_print hfirst
    obtain ⟨hlaterErrors, hlaterWarnings⟩ := ih h
    rw [hlaterErrors, hlaterWarnings, herrors, hwarnings, hcons, hcons, Nat.add_assoc,
      Nat.add_assoc]
    exact ⟨rfl, rfl⟩

end Printer

/-! ### What is read -/

/-- What a run reads for the source that the options name, or the error that keeps it from that. -/
inductive Options.Reads (options : Options) (system : System) :
    Except SystemError (List UInt8) → Prop where
  | input : options.file = none → options.Reads system system.standardInput
  | unopened {path : String} {error : SystemError} : options.file = some path →
      system.openFile path = .error error → options.Reads system (.error error)
  | file {path : String} {file : File} {result : Except SystemError (List UInt8)} :
      options.file = some path → system.openFile path = .ok file → file.Gives result →
      options.Reads system result

def Outcome.ofLoadFailure (colors : Bool) (name explanation : String) : Outcome :=
  { success := false
    stdout := ""
    stderr := (Severity.error.message (name ++ ": " ++ explanation)).render colors ++ "\n" }

def transcript (source : Source) (diagnostics : List Diagnostic) : Printed :=
  sequence (diagnostics.map fun diagnostic => (Report.mk source diagnostic).block)

namespace Options

variable {options : Options} {system : System} {colors : Bool} {source : Source}
  {result : Except SystemError (List UInt8)}

theorem exists_reads (options : Options) (system : System) :
    ∃ result, options.Reads system result := by
  cases hfile : options.file with
  | none => exact ⟨_, .input hfile⟩
  | some path =>
    cases hopen : system.openFile path with
    | error error => exact ⟨_, .unopened hfile hopen⟩
    | ok file =>
      obtain ⟨result, hgives⟩ := file.exists_gives
      exact ⟨result, .file hfile hopen hgives⟩

theorem Reads.load_eq_read (h : options.Reads system result) :
    options.load system = Source.read (options.file.getD "<stdin>") result := by
  cases h with
  | input hfile =>
    rw [load, hfile]
    rfl
  | unopened hfile hopen =>
    rw [load, hfile]
    dsimp only
    rw [hopen]
    rfl
  | file hfile hopen hgives =>
    rw [load, hfile]
    dsimp only
    rw [hopen]
    exact hgives.load_eq_read _

/-! ### The outcome -/

theorem execute_of_load_eq_error {error : LoadError} (h : options.load system = .error error) :
    options.execute colors system =
      .ofLoadFailure colors (options.file.getD "<stdin>") error.message := by
  rw [execute, h]
  rfl

theorem panicked_transcript {diagnostics : List Diagnostic} :
    (transcript source diagnostics).panicked = false ↔
      ∀ diagnostic ∈ diagnostics, (Report.mk source diagnostic).printed.panicked = false := by
  simp [transcript]

theorem render_transcript {diagnostics : List Diagnostic}
    (h : ∀ diagnostic ∈ diagnostics, (Report.mk source diagnostic).printed.panicked = false) :
    (transcript source diagnostics).render colors =
      String.join (diagnostics.map fun diagnostic =>
        (Report.mk source diagnostic).printed.render colors ++ "\n") := by
  rw [transcript, render_sequence, List.map_map]
  · congr 1
    exact List.map_congr_left fun diagnostic hdiagnostic =>
      Report.render_block colors (h diagnostic hdiagnostic)
  · rw [List.forall_mem_map]
    exact fun diagnostic hdiagnostic => Report.panicked_block.trans (h diagnostic hdiagnostic)

/-- The diagnostics in front of the first one that panics are printed, and that one as far as it
goes. -/
theorem render_transcript_of_panicked {before : List Diagnostic} {diagnostic : Diagnostic}
    (after : List Diagnostic)
    (hbefore : ∀ earlier ∈ before, (Report.mk source earlier).printed.panicked = false)
    (h : (Report.mk source diagnostic).printed.panicked = true) :
    (transcript source (before ++ diagnostic :: after)).render colors =
      String.join (before.map fun earlier =>
        (Report.mk source earlier).printed.render colors ++ "\n") ++
        (Report.mk source diagnostic).printed.render colors := by
  have hblocks : ∀ block ∈ before.map fun earlier => (Report.mk source earlier).block,
      block.panicked = false := by
    rw [List.forall_mem_map]
    exact fun earlier hearlier => Report.panicked_block.trans (hbefore earlier hearlier)
  rw [transcript, List.map_append, List.map_cons,
    render_sequence_of_panicked colors _ hblocks (Report.panicked_block.trans h),
    Report.block_of_panicked h, ← render_transcript hbefore, transcript,
    render_sequence colors hblocks]

theorem printed_receiveAll_scan (source : Source) (diagnostics : List Diagnostic) :
    (Printer.handler.receiveAll {} (diagnostics.map (Report.mk source))).printed =
      transcript source diagnostics := by
  rw [Printer.printed_receiveAll, empty_andThen, List.map_map]
  rfl

/-- A run that cannot print one of its diagnostics panics. -/
theorem execute_of_panicked (h : options.load system = .ok source)
    (hpanicked : (transcript source (source.scan options.configuration).2).panicked = true) :
    options.execute colors system =
      { success := false
        stdout := ""
        stderr := (transcript source (source.scan options.configuration).2).render colors
        panicked := true } := by
  rw [execute, h]
  dsimp only
  rw [tokenize_eq_scan, printed_receiveAll_scan, if_pos hpanicked]

/-- A run whose scan is stopped prints its diagnostics and fails. -/
theorem execute_of_scan_eq_error (h : options.load system = .ok source)
    (hprints : (transcript source (source.scan options.configuration).2).panicked = false)
    {error : LexError} (hscan : (source.scan options.configuration).1 = .error error) :
    options.execute colors system =
      { success := false
        stdout := ""
        stderr := (transcript source (source.scan options.configuration).2).render colors } := by
  rw [execute, h]
  dsimp only
  rw [tokenize_eq_scan, printed_receiveAll_scan, if_neg (Bool.eq_false_iff.mp hprints), hscan]

/-- A run whose scan is not stopped prints the tokens as well, and fails only if it was told to do
so on warnings and there are some. -/
theorem execute_of_scan_eq_ok (h : options.load system = .ok source)
    (hprints : (transcript source (source.scan options.configuration).2).panicked = false)
    {tokens : List Token} (hscan : (source.scan options.configuration).1 = .ok tokens) :
    options.execute colors system =
      { success :=
          !(options.denyWarnings && decide (0 < (source.scan options.configuration).2.length))
        stdout := Token.listing source options.locations tokens
        stderr := (transcript source (source.scan options.configuration).2).render colors } := by
  have hwarning : ∀ diagnostic ∈ (source.scan options.configuration).2,
      diagnostic.severity = .warning := fun _ => Source.severity_eq_warning hscan
  have herrors : (source.scan options.configuration).2.countP
      (fun diagnostic => decide (diagnostic.severity = .error)) = 0 := by
    rw [List.countP_eq_zero]
    intro diagnostic hdiagnostic
    simp [hwarning diagnostic hdiagnostic]
  have hwarnings : (source.scan options.configuration).2.countP
      (fun diagnostic => decide (diagnostic.severity = .warning)) =
        (source.scan options.configuration).2.length := by
    rw [List.countP_eq_length]
    intro diagnostic hdiagnostic
    simp [hwarning diagnostic hdiagnostic]
  have hprinted := printed_receiveAll_scan source (source.scan options.configuration).2
  obtain ⟨hprinterErrors, hprinterWarnings⟩ :=
    Printer.counts_receiveAll ((congrArg Printed.panicked hprinted).trans hprints)
  rw [execute, h]
  dsimp only
  rw [tokenize_eq_scan, hprinted, if_neg (Bool.eq_false_iff.mp hprints), hscan, hprinterErrors,
    hprinterWarnings]
  simp [Function.comp_def, List.countP_map, herrors, hwarnings]

/-- What is printed of the diagnostics, and whether that ends in a panic, has nothing to do with what
becomes of the scan. -/
theorem execute_of_load_eq_ok (h : options.load system = .ok source) (colors : Bool) :
    (options.execute colors system).panicked =
        (transcript source (source.scan options.configuration).2).panicked ∧
      (options.execute colors system).stderr =
        (transcript source (source.scan options.configuration).2).render colors := by
  cases hprints : (transcript source (source.scan options.configuration).2).panicked with
  | true =>
    rw [execute_of_panicked h hprints]
    exact ⟨rfl, rfl⟩
  | false =>
    cases hscan : (source.scan options.configuration).1 with
    | error error =>
      rw [execute_of_scan_eq_error h hprints hscan]
      exact ⟨rfl, rfl⟩
    | ok tokens =>
      rw [execute_of_scan_eq_ok h hprints hscan]
      exact ⟨rfl, rfl⟩

theorem render_message (content : String) :
    (Severity.error.message content).render false = "[error]: " ++ content := by
  have hparts : (Severity.error.message content).render false =
      "[error]:" ++ (" " ++ content) := by
    simp [Severity.message, Severity.heading, Styled.concat, Styled.render_painted]
  rw [hparts, ← String.append_assoc]
  rfl

/-- The options that concern the tokens alone, the warnings alone and the colours alone are not
noticed in the other parts of an outcome. -/
theorem execute_congr (locations deny otherColors : Bool) :
    (({ options with locations, denyWarnings := deny }.execute otherColors system).panicked =
      (options.execute colors system).panicked) ∧
    (locations = options.locations →
      ({ options with locations, denyWarnings := deny }.execute otherColors system).stdout =
        (options.execute colors system).stdout) ∧
    (deny = options.denyWarnings →
      ({ options with locations, denyWarnings := deny }.execute otherColors system).success =
        (options.execute colors system).success) ∧
    (otherColors = colors →
      ({ options with locations, denyWarnings := deny }.execute otherColors system).stderr =
        (options.execute colors system).stderr) := by
  have hsame : ({ options with locations, denyWarnings := deny } : Options).load system =
      options.load system := rfl
  cases hload : options.load system with
  | error error =>
    rw [execute_of_load_eq_error hload, execute_of_load_eq_error (hsame.trans hload)]
    exact ⟨rfl, fun _ => rfl, fun _ => rfl, fun hcolors => by rw [hcolors]⟩
  | ok source =>
    cases hprints : (transcript source (source.scan options.configuration).2).panicked with
    | true =>
      rw [execute_of_panicked hload hprints, execute_of_panicked (hsame.trans hload) hprints]
      exact ⟨rfl, fun _ => rfl, fun _ => rfl, fun hcolors => by rw [hcolors]⟩
    | false =>
      cases hscan : (source.scan options.configuration).1 with
      | error error =>
        rw [execute_of_scan_eq_error hload hprints hscan,
          execute_of_scan_eq_error (hsame.trans hload) hprints hscan]
        exact ⟨rfl, fun _ => rfl, fun _ => rfl, fun hcolors => by rw [hcolors]⟩
      | ok tokens =>
        rw [execute_of_scan_eq_ok hload hprints hscan,
          execute_of_scan_eq_ok (hsame.trans hload) hprints hscan]
        exact ⟨rfl, fun hlocations => by rw [hlocations], fun hdeny => by rw [hdeny],
          fun hcolors => by rw [hcolors]⟩

theorem execute_colors (options : Options) (system : System) (colors otherColors : Bool) :
    (options.execute colors system).panicked = (options.execute otherColors system).panicked ∧
    (options.execute colors system).stdout = (options.execute otherColors system).stdout ∧
    (options.execute colors system).success = (options.execute otherColors system).success := by
  obtain ⟨hpanicked, hstdout, hsuccess, -⟩ :=
    @execute_congr options system otherColors options.locations options.denyWarnings colors
  exact ⟨hpanicked, hstdout rfl, hsuccess rfl⟩

/-- What a run does, given what is read for its source. If that is an error of the system or bytes
that are no text, the run fails with one message about it. If it is a text, the run prints the
diagnostics of the source in the order in which they are reported. If the scan is stopped, which is
the case just if an error is reported, it fails and prints no token. If not, the tokens are printed,
and the run fails only if it was told to do so on warnings and there is one. All this ends with a
panic at the first diagnostic whose excerpt has carets too far to the right, and then no token is
printed. So the tokens printed do not depend on whether warnings are denied and on the colours,
success does not depend on whether locations are printed and on the colours, and the diagnostics
printed do not depend on whether locations are printed and warnings are denied. -/
theorem execute_outcome (options : Options) (colors : Bool) {system : System}
    {result : Except SystemError (List UInt8)} (h : options.Reads system result) :
    (∀ error, result = .error error →
      options.execute colors system =
        .ofLoadFailure colors (options.file.getD "<stdin>") error.message) ∧
    (∀ bytes error, result = .ok bytes → Utf8.decode bytes = .error error →
      options.execute colors system =
        .ofLoadFailure colors (options.file.getD "<stdin>") error.message) ∧
    (∀ name explanation, (Outcome.ofLoadFailure false name explanation).stderr =
      "[error]: " ++ (name ++ ": " ++ explanation) ++ "\n") ∧
    (∀ (text : String) (source : Source), result = .ok (Utf8.encode text.toList) →
      source = Source.ofText (options.file.getD "<stdin>") text →
      ((∃ diagnostic ∈ (source.scan options.configuration).2, diagnostic.severity = .error) ↔
        (source.scan options.configuration).1 = .error .fatal) ∧
      (∀ diagnostic ∈ (source.scan options.configuration).2,
        ∃ start stop, source.location? diagnostic.span.start = some start ∧
          source.location? diagnostic.span.stop = some stop ∧
          ((Report.mk source diagnostic).printed.panicked = true ↔
            start.line = Excerpt.lastLine start stop ∧
              widestSpace < Excerpt.caretIndent source start)) ∧
      ((∀ diagnostic ∈ (source.scan options.configuration).2,
          (Report.mk source diagnostic).printed.panicked = false) →
        (options.execute colors system).panicked = false ∧
        (options.execute colors system).stderr =
          String.join ((source.scan options.configuration).2.map fun diagnostic =>
            (Report.mk source diagnostic).printed.render colors ++ "\n") ∧
        (∀ error, (source.scan options.configuration).1 = .error error →
          (options.execute colors system).success = false ∧
          (options.execute colors system).stdout = "") ∧
        ∀ tokens, (source.scan options.configuration).1 = .ok tokens →
          (options.execute colors system).stdout =
            Token.listing source options.locations tokens ∧
          ((options.execute colors system).success = false ↔
            options.denyWarnings = true ∧ (source.scan options.configuration).2 ≠ [])) ∧
      ∀ before diagnostic after,
        (source.scan options.configuration).2 = before ++ diagnostic :: after →
        (∀ earlier ∈ before, (Report.mk source earlier).printed.panicked = false) →
        (Report.mk source diagnostic).printed.panicked = true →
        options.execute colors system =
          { success := false
            stdout := ""
            stderr := String.join (before.map fun earlier =>
              (Report.mk source earlier).printed.render colors ++ "\n") ++
                (Report.mk source diagnostic).printed.render colors
            panicked := true }) ∧
    ∀ locations deny otherColors : Bool,
      ({ options with denyWarnings := deny }.execute otherColors system).stdout =
        (options.execute colors system).stdout ∧
      ({ options with locations }.execute otherColors system).success =
        (options.execute colors system).success ∧
      ({ options with locations, denyWarnings := deny }.execute colors system).stderr =
        (options.execute colors system).stderr := by
  have hload := h.load_eq_read
  refine ⟨?_, ?_, ?_, ?_, ?_⟩
  · rintro error rfl
    rw [Source.read_error] at hload
    rw [execute_of_load_eq_error hload, LoadError.message]
  · rintro bytes error rfl hdecode
    rw [Source.read_of_decode_eq_error hdecode] at hload
    rw [execute_of_load_eq_error hload, LoadError.message]
  · intro name explanation
    rw [Outcome.ofLoadFailure, render_message]
  · rintro text source rfl hsource
    rw [Source.read_encode, ← hsource] at hload
    refine ⟨Source.exists_error_iff options.configuration source, ?_, ?_, ?_⟩
    · intro diagnostic hdiagnostic
      obtain ⟨start, stop, hstart, hstop⟩ :=
        Source.exists_location?_of_span? (Source.span?_of_mem_diagnostics hdiagnostic)
      refine ⟨start, stop, hstart, hstop, ?_⟩
      rw [Report.panicked_printed]
      exact Excerpt.panicked_ofSpan hstart hstop _
    · intro hprints
      have htranscript := panicked_transcript.mpr hprints
      obtain ⟨hpanicked, hstderr⟩ := execute_of_load_eq_ok hload colors
      refine ⟨hpanicked.trans htranscript, hstderr.trans (render_transcript hprints), ?_, ?_⟩
      · intro error hscan
        rw [execute_of_scan_eq_error hload htranscript hscan]
        exact ⟨rfl, rfl⟩
      · intro tokens hscan
        rw [execute_of_scan_eq_ok hload htranscript hscan]
        simp [List.length_pos_iff]
    · intro before diagnostic after hsplit hbefore hpanicked
      have htranscript :
          (transcript source (source.scan options.configuration).2).panicked = true := by
        rw [← Bool.not_eq_false, panicked_transcript]
        intro hall
        rw [hall diagnostic (hsplit ▸ List.mem_append_right before List.mem_cons_self)] at hpanicked
        cases hpanicked
      rw [execute_of_panicked hload htranscript, hsplit,
        render_transcript_of_panicked after hbefore hpanicked]
  · intro locations deny otherColors
    exact ⟨(execute_congr options.locations deny otherColors).2.1 rfl,
      (execute_congr locations options.denyWarnings otherColors).2.2.1 rfl,
      (execute_congr locations deny colors).2.2.2 rfl⟩

/-- A number is printed, and the quote behind it makes a run fail that denies warnings. -/
theorem execute_outcome_quote :
    ({ denyWarnings := true, locations := true } : Options).Reads
      ⟨fun _ => .error ⟨"closed"⟩, .ok (Utf8.encode "7\"".toList)⟩
      (.ok (Utf8.encode "7\"".toList)) ∧
    (({ denyWarnings := true, locations := true } : Options).execute true
      ⟨fun _ => .error ⟨"closed"⟩, .ok (Utf8.encode "7\"".toList)⟩).stdout = "1:1 NUMBER(7)\n" ∧
    (({ denyWarnings := true, locations := true } : Options).execute true
      ⟨fun _ => .error ⟨"closed"⟩, .ok (Utf8.encode "7\"".toList)⟩).success = false := by
  have hreads : ({ denyWarnings := true, locations := true } : Options).Reads
      ⟨fun _ => .error ⟨"closed"⟩, .ok (Utf8.encode "7\"".toList)⟩
      (.ok (Utf8.encode "7\"".toList)) := .input rfl
  have hscan : (Source.ofText "<stdin>" "7\"").scan {} =
      (.ok [⟨⟨0, 1⟩, .number 7⟩], [⟨⟨1, 2⟩, .unterminatedString⟩]) :=
    Source.scan_eq_ok_iff.mpr ⟨[.number ['7'], .string [] false], by decide, by decide, rfl, rfl⟩
  have hprints : ∀ diagnostic ∈ ((Source.ofText "<stdin>" "7\"").scan {}).2,
      (Report.mk (.ofText "<stdin>" "7\"") diagnostic).printed.panicked = false := by
    rw [hscan, List.forall_mem_singleton]
    decide
  obtain ⟨-, -, -, htext, -⟩ := execute_outcome _ true hreads
  obtain ⟨-, -, hrun, -⟩ := htext "7\"" (.ofText "<stdin>" "7\"") rfl rfl
  obtain ⟨-, -, -, htokens⟩ := hrun hprints
  obtain ⟨hstdout, hsuccess⟩ := htokens _ (congrArg Prod.fst hscan)
  have hwarned : ((Source.ofText "<stdin>" "7\"").scan {}).2 ≠ [] := by
    rw [hscan]
    exact List.cons_ne_nil _ _
  exact ⟨hreads, hstdout.trans (by decide), hsuccess.mpr ⟨rfl, hwarned⟩⟩

/-- A run fails on a source whose scan is not stopped, though it does not deny warnings. -/
theorem execute_fails_behind_many_tabs :
    (Source.ofChars "<stdin>" (Excerpt.quoteBehindTabs 16384)).scan {} =
      (.ok [], [⟨⟨16384, 16385⟩, .unterminatedString⟩]) ∧
    (({} : Options).execute false ⟨fun _ => .error ⟨"closed"⟩,
      .ok (Utf8.encode (Excerpt.quoteBehindTabs 16384))⟩).success = false ∧
    (({} : Options).execute false ⟨fun _ => .error ⟨"closed"⟩,
      .ok (Utf8.encode (Excerpt.quoteBehindTabs 16384))⟩).panicked = true := by
  have hscan : (Source.ofChars "<stdin>" (Excerpt.quoteBehindTabs 16384)).scan {} =
      (.ok [], [⟨⟨16384, 16385⟩, .unterminatedString⟩]) := Source.scan_quote rfl
  have hload : ({} : Options).load ⟨fun _ => .error ⟨"closed"⟩,
      .ok (Utf8.encode (Excerpt.quoteBehindTabs 16384))⟩ =
        .ok (Source.ofChars "<stdin>" (Excerpt.quoteBehindTabs 16384)) := by
    have hread := Source.read_encode "<stdin>" (String.ofList (Excerpt.quoteBehindTabs 16384))
    rw [Source.ofText, String.toList_ofList] at hread
    exact hread
  have hpanicked : (transcript (.ofChars "<stdin>" (Excerpt.quoteBehindTabs 16384))
      ((Source.ofChars "<stdin>" (Excerpt.quoteBehindTabs 16384)).scan {}).2).panicked = true := by
    rw [hscan, ← Bool.not_eq_false, panicked_transcript, List.forall_mem_singleton,
      Report.panicked_printed, Bool.not_eq_false]
    exact (Excerpt.panicked_quote rfl _).mpr (by decide)
  rw [execute_of_panicked hload hpanicked]
  exact ⟨hscan, rfl, rfl⟩

end Options

end Command

end TokenScan
