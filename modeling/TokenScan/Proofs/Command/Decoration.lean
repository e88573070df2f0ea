import TokenScan.Proofs.Command.Outcome

/-!
Colours of a run. Whatever a run prints beside its tokens is put together before it is decided
whether colours are on, so the decision only adds control sequences. `printed_decorates` says so of
everything that can be printed about a source: its diagnostics, messages, excerpts, painted text and
all that a run leaves on standard error.
-/

namespace TokenScan

open Text Styled

namespace Command

theorem escape_not_mem_utf8Message (error : Utf8.Error) : '\x1b' ∉ error.message.toList := by
  cases error with
  | malformed index length =>
    have hmessage : (Utf8.Error.malformed index length).message =
        "invalid utf-8 sequence of " ++ toString length ++ " bytes from index " ++
          toString index := rfl
    have hlength := escape_not_mem_toString length
    have hindex := escape_not_mem_toString index
    simp only [hmessage, String.toList_append, List.mem_append, not_or]
    refine ⟨⟨⟨?_, hlength⟩, ?_⟩, hindex⟩ <;> simp
  | incomplete index =>
    have hmessage : (Utf8.Error.incomplete index).message =
        "incomplete utf-8 byte sequence from index " ++ toString index := rfl
    have hindex := escape_not_mem_toString index
    simp only [hmessage, String.toList_append, List.mem_append, not_or]
    refine ⟨?_, hindex⟩
    simp

namespace Options

variable {options : Options} {system : System}

/-- What a run prints beside the tokens, before it is decided whether in colours. -/
def printed (options : Options) (system : System) : Printed :=
  match options.load system with
  | .error error =>
      .write (Severity.error.message (options.file.getD "<stdin>" ++ ": " ++ error.message) ++
        text "\n")
  | .ok source => transcript source (source.scan options.configuration).2

theorem printed_of_load_eq_error {error : LoadError} (h : options.load system = .error error) :
    options.printed system =
      .write (Severity.error.message (options.file.getD "<stdin>" ++ ": " ++ error.message) ++
        text "\n") := by
  rw [printed, h]

theorem printed_of_load_eq_ok {source : Source} (h : options.load system = .ok source) :
    options.printed system = transcript source (source.scan options.configuration).2 := by
  rw [printed, h]

theorem stderr_execute (options : Options) (colors : Bool) (system : System) :
    (options.execute colors system).stderr = (options.printed system).render colors := by
  cases hload : options.load system with
  | error error =>
    rw [execute_of_load_eq_error hload, printed_of_load_eq_error hload, Printed.render_write,
      render_hAppend, render_text, Outcome.ofLoadFailure]
  | ok source =>
    rw [printed_of_load_eq_ok hload]
    exact (execute_of_load_eq_ok hload colors).2

theorem escape_not_mem_loadMessage {error : LoadError}
    (hsystem : ∀ cause, error = .system cause → '\x1b' ∉ cause.message.toList) :
    '\x1b' ∉ error.message.toList := by
  cases error with
  | system cause => exact hsystem cause rfl
  | encoding fault => exact escape_not_mem_utf8Message fault

theorem isPlain_printed_of_error {error : LoadError} (h : options.load system = .error error)
    (hsystem : ∀ cause, error = .system cause → '\x1b' ∉ cause.message.toList)
    (hname : '\x1b' ∉ (options.file.getD "<stdin>").toList) :
    (options.printed system).styled.IsPlain := by
  have hmessage := escape_not_mem_loadMessage hsystem
  rw [printed_of_load_eq_error h, Printed.isPlain_write]
  refine isPlain_hAppend.mpr ⟨Severity.isPlain_message _ ?_, isPlain_text.mpr ?_⟩
  · simp only [String.toList_append, List.mem_append, not_or]
    refine ⟨⟨hname, ?_⟩, hmessage⟩
    simp
  · simp

theorem isPlain_printed_of_ok {source : Source} (h : options.load system = .ok source)
    (hpath : '\x1b' ∉ source.path.toList) (hchars : '\x1b' ∉ source.chars) :
    (options.printed system).styled.IsPlain := by
  rw [printed_of_load_eq_ok h]
  refine Printed.isPlain_sequence (List.forall_mem_map.mpr ?_)
  intro diagnostic _
  refine Printed.isPlain_andThen (Report.isPlain_printed _ hpath hchars) ?_
  rw [Printed.isPlain_write, isPlain_text]
  simp

theorem isPlain_printed {result : Except SystemError (List UInt8)}
    (h : options.Reads system result) (hname : '\x1b' ∉ (options.file.getD "<stdin>").toList)
    (herror : ∀ error, result = .error error → '\x1b' ∉ error.message.toList)
    (htext : ∀ text : String, result = .ok (Utf8.encode text.toList) → '\x1b' ∉ text.toList) :
    (options.printed system).styled.IsPlain := by
  have hload := h.load_eq_read
  cases result with
  | error error =>
    rw [Source.read_error] at hload
    refine isPlain_printed_of_error hload (fun cause hcause => ?_) hname
    cases hcause
    exact herror error rfl
  | ok bytes =>
    cases hdecode : Utf8.decode bytes with
    | error error =>
      rw [Source.read_of_decode_eq_error hdecode] at hload
      exact isPlain_printed_of_error hload nofun hname
    | ok chars =>
      obtain rfl := Utf8.decode_eq_ok_iff.mp hdecode
      rw [← String.toList_ofList (l := chars), Source.read_encode] at hload
      exact isPlain_printed_of_ok hload hname (htext _ (by rw [String.toList_ofList]))

end Options

/-- For a source without an escape in its path and its text, colours decorate all that can be
printed about it: the diagnostics of its scans and its excerpts. They decorate every message,
excerpt and painted text whose own words hold no escape either. So they decorate what a run leaves
on standard error, whether it is a message about its source or the diagnostics, if there is no
escape in the name of the source, in the text that is read, and in the error of a system that keeps
it from being read. What is printed before a panic is decorated as well. -/
theorem printed_decorates (source : Source) (hpath : '\x1b' ∉ source.path.toList)
    (hchars : '\x1b' ∉ source.chars) :
    (∀ configuration, ∀ diagnostic ∈ (source.scan configuration).2,
      Decorates ((Report.mk source diagnostic).printed.render true)
        ((Report.mk source diagnostic).printed.render false)) ∧
    (∀ (severity : Severity) (content : String), '\x1b' ∉ content.toList →
      Decorates ((severity.message content).render true)
        ((severity.message content).render false)) ∧
    (∀ (span : Span) (help : Option String), source.span? span.start span.stop = some span →
      (∀ content ∈ help, '\x1b' ∉ content.toList) →
      Decorates ((Excerpt.ofSpan source span help).printed.render true)
        ((Excerpt.ofSpan source span help).printed.render false)) ∧
    (∀ (paints : List Paint) (content : String), '\x1b' ∉ content.toList →
      Decorates ((paint paints (text content)).render true)
        ((paint paints (text content)).render false)) ∧
    ∀ (options : Options) (system : System) (result : Except SystemError (List UInt8)),
      options.Reads system result → '\x1b' ∉ (options.file.getD "<stdin>").toList →
      (∀ error, result = .error error → '\x1b' ∉ error.message.toList) →
      (∀ text : String, result = .ok (Utf8.encode text.toList) → '\x1b' ∉ text.toList) →
      Decorates (options.execute true system).stderr (options.execute false system).stderr := by
  refine ⟨?_, ?_, ?_, ?_, ?_⟩
  · intro configuration diagnostic _
    exact decorates (Report.isPlain_printed ⟨source, diagnostic⟩ hpath hchars)
  · intro severity content hcontent
    exact decorates (severity.isPlain_message hcontent)
  · intro span help _ hhelp
    exact decorates (Excerpt.isPlain_ofSpan span hpath hchars hhelp)
  · intro paints content hcontent
    exact decorates (isPlain_paint.mpr (isPlain_text.mpr hcontent))
  · intro options system result hreads hname herror htext
    rw [Options.stderr_execute, Options.stderr_execute]
    exact decorates (Options.isPlain_printed hreads hname herror htext)

/-- A span of two lines with a help text. -/
theorem printed_decorates_two_lines :
    '\x1b' ∉ (Source.ofText "a" "1\n\t\"x").path.toList ∧
    '\x1b' ∉ (Source.ofText "a" "1\n\t\"x").chars ∧
    (Source.ofText "a" "1\n\t\"x").span? 0 4 = some ⟨0, 4⟩ ∧
    Decorates
      ((Excerpt.ofSpan (.ofText "a" "1\n\t\"x") ⟨0, 4⟩ (some "help")).printed.render true)
      ((Excerpt.ofSpan (.ofText "a" "1\n\t\"x") ⟨0, 4⟩ (some "help")).printed.render false) := by
  have hpath : '\x1b' ∉ (Source.ofText "a" "1\n\t\"x").path.toList := by decide
  have hchars : '\x1b' ∉ (Source.ofText "a" "1\n\t\"x").chars := by decide
  have hspan : (Source.ofText "a" "1\n\t\"x").span? 0 4 = some ⟨0, 4⟩ := by decide
  have hhelp : ∀ content ∈ some "help", '\x1b' ∉ content.toList := by simp
  exact ⟨hpath, hchars, hspan, (printed_decorates _ hpath hchars).2.2.1 ⟨0, 4⟩ _ hspan hhelp⟩

/-- A message that says an escape of its own says it without colours as well. -/
theorem not_decorates_message_escape :
    ¬ Decorates ((Severity.warning.message "\x1b[4m").render true)
      ((Severity.warning.message "\x1b[4m").render false) := by
  intro h
  apply h.escape_not_mem
  have hplain : (Severity.warning.message "\x1b[4m").render false =
      "[warning]:" ++ (" " ++ "\x1b[4m") := by
    simp [Severity.message, Severity.heading, concat, render_painted]
  rw [hplain, String.toList_append, String.toList_append]
  simp

end Command

end TokenScan
