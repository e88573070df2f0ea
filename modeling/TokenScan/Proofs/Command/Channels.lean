import TokenScan.Proofs.Command.Outcome

/-!
Where a source comes from. The same bytes give the same source whether they are read from a stream,
mapped from a file, or are the form of a text held in memory or written to a temporary file. So it
makes no difference to the tokens that a run prints, and to whether it succeeds, if its source is a
file or standard input.
-/

namespace TokenScan

open Text

namespace Source

/-! The path of a source has no say in what is found in it. -/

section Paths

variable {first second : Source}

theorem lines_congr (h : first.chars = second.chars) : first.lines = second.lines := by
  rw [first.lines_eq, second.lines_eq, h]

theorem scan_congr (h : first.chars = second.chars) (configuration : Configuration) :
    first.scan configuration = second.scan configuration := by
  rw [scan_eq, scan_eq, h]

theorem listing_congr (h : first.chars = second.chars) (locations : Bool) (tokens : List Token) :
    Token.listing first locations tokens = Token.listing second locations tokens := by
  have hlocation (offset : Nat) : first.location offset = second.location offset := by
    rw [location, location, location?, location?, lines_congr h]
  rw [Token.listing, Token.listing]
  congr 2
  funext token
  rw [Token.listingLine, Token.listingLine, hlocation]

theorem ofSpan_congr (h : first.chars = second.chars) (span : Span) (help : Option String) :
    Excerpt.ofSpan first span help =
      { Excerpt.ofSpan second span help with path := first.path } := by
  have hfirst : first = { second with path := first.path } := Source.ext rfl h
  generalize first.path = path at hfirst ⊢
  subst hfirst
  rfl

theorem panicked_congr (h : first.chars = second.chars) (span : Span) (help : Option String) :
    (Excerpt.ofSpan first span help).printed.panicked =
      (Excerpt.ofSpan second span help).printed.panicked := by
  have hrow (row : Excerpt.Row) (path other : String) (width : Nat) :
      (row.printed path width).panicked = (row.printed other width).panicked := by
    cases row <;> rfl
  rw [ofSpan_congr h, Bool.eq_iff_iff, Excerpt.panicked_printed, Excerpt.panicked_printed]
  simp only [hrow _ first.path second.path]
  rfl

theorem panicked_transcript_congr (h : first.chars = second.chars)
    (diagnostics : List Diagnostic) :
    (Command.transcript first diagnostics).panicked =
      (Command.transcript second diagnostics).panicked := by
  have hreport (diagnostic : Diagnostic) : (Report.mk first diagnostic).printed.panicked =
      (Report.mk second diagnostic).printed.panicked := by
    rw [Report.panicked_printed, Report.panicked_printed]
    exact panicked_congr h _ _
  rw [Bool.eq_iff_iff, ← not_iff_not, Bool.not_eq_true, Bool.not_eq_true,
    Command.Options.panicked_transcript, Command.Options.panicked_transcript]
  simp only [hreport]

end Paths

end Source

theorem File.Holds.load_eq_ok_iff {file : File} {bytes : List UInt8} (h : file.Holds bytes)
    {path : String} {source : Source} : Source.load path file = .ok source ↔
      ∃ text : String, Utf8.encode text.toList = bytes ∧ source = Source.ofText path text := by
  rw [h.load_eq_read, Source.read_eq_ok_iff]

namespace Command

/-- A file is scanned as standard input with the same bytes is. -/
theorem Options.execute_file_eq_input (options : Options) (path : String)
    (fileColors inputColors : Bool) {fileSystem inputSystem : System} {file : File}
    {bytes : List UInt8} (hfile : file.Holds bytes) (hopen : fileSystem.openFile path = .ok file)
    (hinput : inputSystem.standardInput = .ok bytes) :
    ({ options with file := some path }.execute fileColors fileSystem).success =
      ({ options with file := none }.execute inputColors inputSystem).success ∧
    ({ options with file := some path }.execute fileColors fileSystem).stdout =
      ({ options with file := none }.execute inputColors inputSystem).stdout ∧
    ({ options with file := some path }.execute fileColors fileSystem).panicked =
      ({ options with file := none }.execute inputColors inputSystem).panicked := by
  have hloadFile : ({ options with file := some path } : Options).load fileSystem =
      Source.read path (.ok bytes) :=
    (Reads.file rfl hopen hfile.gives).load_eq_read
  have hloadInput : ({ options with file := none } : Options).load inputSystem =
      Source.read "<stdin>" (.ok bytes) := by
    rw [← hinput]
    exact (Reads.input rfl).load_eq_read
  cases hdecode : Utf8.decode bytes with
  | error error =>
    rw [Source.read_of_decode_eq_error hdecode] at hloadFile hloadInput
    rw [execute_of_load_eq_error hloadFile, execute_of_load_eq_error hloadInput]
    exact ⟨rfl, rfl, rfl⟩
  | ok chars =>
    rw [Source.read, Source.ofBytes, hdecode] at hloadFile hloadInput
    have hchars : (Source.ofChars path chars).chars =
        (Source.ofChars "<stdin>" chars).chars := rfl
    have hscan := Source.scan_congr hchars options.configuration
    have hpanicked := Source.panicked_transcript_congr hchars
      ((Source.ofChars path chars).scan options.configuration).2
    cases hprints : (transcript (Source.ofChars path chars)
        ((Source.ofChars path chars).scan options.configuration).2).panicked with
    | true =>
      rw [execute_of_panicked hloadFile hprints,
        execute_of_panicked hloadInput (hscan ▸ hpanicked ▸ hprints)]
      exact ⟨rfl, rfl, rfl⟩
    | false =>
      have hinputPrints : (transcript (Source.ofChars "<stdin>" chars)
          ((Source.ofChars "<stdin>" chars).scan options.configuration).2).panicked = false :=
        hscan ▸ hpanicked ▸ hprints
      cases hresult : ((Source.ofChars path chars).scan options.configuration).1 with
      | error error =>
        rw [execute_of_scan_eq_error hloadFile hprints hresult,
          execute_of_scan_eq_error hloadInput hinputPrints (hscan ▸ hresult)]
        exact ⟨rfl, rfl, rfl⟩
      | ok tokens =>
        rw [execute_of_scan_eq_ok hloadFile hprints hresult,
          execute_of_scan_eq_ok hloadInput hinputPrints (hscan ▸ hresult)]
        refine ⟨?_, Source.listing_congr hchars options.locations tokens, rfl⟩
        dsimp only
        rw [hscan]

/-- Every way to a source takes the same bytes to the same source, given a file that holds them.
They have one just if they are the form of a text, which is then its content, and it has the lines
that the text has in memory and in a temporary file. If they are not, reading and mapping fail with
the same error. It tells where the longest text at the front of the bytes ends, and how many bytes
from there on a character could still begin with. If these are the last bytes, the error says so,
and if there are none, it counts the first byte that is wrong. So a run prints the same tokens, and
succeeds alike, whether the bytes are in a file or come from standard input. -/
theorem channels_agree {file : File} {bytes : List UInt8} (hfile : file.Holds bytes) :
    (∀ path source,
      (Source.read path (.ok bytes) = .ok source ↔
        ∃ text : String, Utf8.encode text.toList = bytes ∧ source = Source.ofText path text) ∧
      (Source.load path file = .ok source ↔
        ∃ text : String, Utf8.encode text.toList = bytes ∧ source = Source.ofText path text)) ∧
    (∀ path (text : String), Utf8.encode text.toList = bytes →
      (∀ create : List UInt8 → Except SystemError (String × File),
        create bytes = .ok (path, file) →
        Source.temporary create text = .ok (Source.ofText path text)) ∧
      (Source.ofText path text).content = text ∧
      Utf8.encode (Source.ofText path text).chars = bytes ∧
      ∀ other, (Source.ofText path text).lines = (Source.ofText other text).lines) ∧
    ((¬ ∃ text : String, Utf8.encode text.toList = bytes) →
      ∃ error, (∀ path, Source.read path (.ok bytes) = .error (.encoding error)) ∧
        (∀ path, Source.load path file = .error (.encoding error)) ∧
        ∃ index length, Utf8.IsFault bytes index length ∧
          error = if index + length = bytes.length then .incomplete index
            else .malformed index (max length 1)) ∧
    ∀ (fromFile fromInput : Invocation) (options : Options) (path : String)
      (fileColors inputColors : Bool),
      Options.parse fromFile.arguments = .ok { options with file := some path } →
      Options.parse fromInput.arguments = .ok { options with file := none } →
      fromFile.system.openFile path = .ok file →
      fromInput.system.standardInput = .ok bytes →
      ∃ fileOutcome inputOutcome,
        (fromFile.run fileColors).1 = .ok fileOutcome ∧
        (fromInput.run inputColors).1 = .ok inputOutcome ∧
        fileOutcome.success = inputOutcome.success ∧
        fileOutcome.stdout = inputOutcome.stdout ∧
        fileOutcome.panicked = inputOutcome.panicked := by
  refine ⟨?_, ?_, ?_, ?_⟩
  · exact fun path source => ⟨Source.read_eq_ok_iff, hfile.load_eq_ok_iff⟩
  · rintro path text rfl
    refine ⟨?_, String.ofList_toList, rfl, fun other => Source.lines_congr rfl⟩
    intro create hcreate
    rw [Source.temporary, hcreate]
    exact hfile.load_eq_ok_iff.mpr ⟨text, rfl, rfl⟩
  · intro hnone
    simp only [hfile.load_eq_read]
    cases hdecode : Utf8.decode bytes with
    | error error =>
      exact ⟨error, Source.read_of_decode_eq_error hdecode, Source.read_of_decode_eq_error hdecode,
        Utf8.exists_isFault_of_decode_eq_error hdecode⟩
    | ok chars =>
      refine absurd ⟨String.ofList chars, ?_⟩ hnone
      rw [String.toList_ofList, Utf8.decode_eq_ok_iff.mp hdecode]
  · intro fromFile fromInput options path fileColors inputColors hparse hparseInput hopen hinput
    rw [Invocation.run, Invocation.run, hparse, hparseInput]
    exact ⟨_, _, rfl, rfl, Options.execute_file_eq_input options path _ _ hfile hopen hinput⟩

/-- A file without any bytes, which cannot be mapped. -/
theorem channels_agree_empty :
    (File.ofBytes []).Holds [] ∧
    (File.ofBytes []).mapped ≠ .ok [] ∧
    Source.load "a.lex" (File.ofBytes []) = .ok (Source.ofText "a.lex" "") := by
  have hfile := File.holds_ofBytes []
  refine ⟨hfile, nofun, ?_⟩
  exact ((channels_agree hfile).1 "a.lex" _).2.mpr ⟨"", rfl, rfl⟩

/-- A byte with which no character begins is counted, though it is no part of a character. -/
theorem read_impossible_byte :
    Source.read "<stdin>" (.ok [0xFF]) = .error (.encoding (.malformed 0 1)) ∧
      Utf8.IsFault [0xFF] 0 0 ∧ ∀ index, ¬ Utf8.IsFault [0xFF] index 1 := by
  have hbeginning : ¬ Utf8.IsBeginning [0xFF] := by
    rw [Utf8.isBeginning_cons_iff]
    rintro ⟨bits, done, later, hannounced, -⟩
    cases hannounced
  have hread : Utf8.readFront 0xFF [] = .malformed 1 := rfl
  refine ⟨Source.read_of_decode_eq_error ?_ _, ?_, ?_⟩
  · rw [Utf8.decode, Utf8.decodeFrom_of_malformed hread]
  · refine Utf8.isFault_zero (fun c rest h => ?_)
      (Utf8.isLongestFront_isBeginning Utf8.isBeginning_nil hbeginning)
    rw [hread] at h
    cases h
  · intro index hfault
    obtain rfl : index = 0 := Nat.lt_one_iff.mp hfault.index_lt
    exact hbeginning hfault.beginning.good_take

end Command

end TokenScan
