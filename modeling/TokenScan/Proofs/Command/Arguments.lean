import Mathlib.Data.List.Induction
import TokenScan.Proofs.Command.Spelling

/-!
What is read of a command line. It is told by the parts of the line alone, not by their order: a
part about something new adds to what has been read, whether its value is judged at once or only
when the next word has come. So every line that spells some options is read as just these.
-/

namespace TokenScan

namespace Command

namespace Reading

def raised (reading : Reading) : Flag → Bool
  | .locations => reading.locations
  | .noColor => reading.noColor
  | .denyWarnings => reading.denyWarnings

def valueOf? (reading : Reading) : Setting → Option String
  | .grammar => reading.grammar.map Grammar.name
  | .keywords => reading.keywords.map KeywordMatching.name

def record (reading : Reading) : Part → Reading
  | .flag .locations => { reading with locations := true }
  | .flag .noColor => { reading with noColor := true }
  | .flag .denyWarnings => { reading with denyWarnings := true }
  | .setting .grammar value _ => { reading with grammar := Grammar.ofName? value }
  | .setting .keywords value _ => { reading with keywords := KeywordMatching.ofName? value }
  | .file name => { reading with file := some name }

/-- What has been read is what the parts say, in whatever order they come, and nothing is left
pending. -/
structure Records (reading : Reading) (parts : List Part) : Prop where
  pending : reading.pending = none
  raised : ∀ flag : Flag, reading.raised flag = true ↔ .flag flag ∈ parts
  value : ∀ (setting : Setting) (value : String), reading.valueOf? setting = some value ↔
    ∃ attached, .setting setting value attached ∈ parts
  file : ∀ name : String, reading.file = some name ↔ .file name ∈ parts

variable {reading settled : Reading} {part : Part} {parts : List Part}

@[simp]
theorem pending_record : (reading.record part).pending = reading.pending := by
  cases part with
  | flag flag => cases flag <;> rfl
  | setting setting value attached => cases setting <;> rfl
  | file name => rfl

@[simp]
theorem ended_record : (reading.record part).ended = reading.ended := by
  cases part with
  | flag flag => cases flag <;> rfl
  | setting setting value attached => cases setting <;> rfl
  | file name => rfl

theorem raised_record (flag : Flag) :
    (reading.record part).raised flag = true ↔ reading.raised flag = true ∨ part = .flag flag := by
  cases part with
  | flag other => cases other <;> cases flag <;> simp [record, raised]
  | setting setting value attached => cases setting <;> cases flag <;> simp [record, raised]
  | file name => cases flag <;> simp [record, raised]

theorem valueOf?_record (hproper : part.IsProper) (setting : Setting) (value : String) :
    (reading.record part).valueOf? setting = some value ↔
      (part.slot ≠ .setting setting ∧ reading.valueOf? setting = some value) ∨
        ∃ attached, part = .setting setting value attached := by
  cases part with
  | flag flag => cases flag <;> cases setting <;> simp [record, valueOf?, Part.slot]
  | setting other given attached =>
    cases other with
    | grammar =>
      obtain ⟨choice, rfl⟩ := hproper
      cases setting <;> simp [record, valueOf?, Part.slot, Grammar.ofName?_name]
    | keywords =>
      obtain ⟨choice, rfl⟩ := hproper
      cases setting <;> simp [record, valueOf?, Part.slot, KeywordMatching.ofName?_name]
  | file name => cases setting <;> simp [record, valueOf?, Part.slot]

theorem file_record (name : String) :
    (reading.record part).file = some name ↔
      (part.slot ≠ .file ∧ reading.file = some name) ∨ part = .file name := by
  cases part with
  | flag flag => cases flag <;> simp [record, Part.slot]
  | setting setting value attached => cases setting <;> simp [record, Part.slot]
  | file other => simp [record, Part.slot]

/-- A part about something new adds to what has been read and takes nothing away. -/
theorem Records.record (h : reading.Records parts) (hproper : part.IsProper)
    (hfresh : part.slot ∉ parts.map Part.slot) :
    (reading.record part).Records (parts ++ [part]) := by
  have hslot : ∀ {other : Part}, other ∈ parts → part.slot ≠ other.slot := by
    intro other hmem heq
    exact hfresh (heq ▸ List.mem_map_of_mem hmem)
  refine ⟨pending_record.trans h.pending, fun flag => ?_, fun setting value => ?_, fun name => ?_⟩
  · rw [raised_record, h.raised, List.mem_append, List.mem_singleton, eq_comm (a := part)]
  · simp only [valueOf?_record hproper, h.value, List.mem_append, List.mem_singleton]
    constructor
    · rintro (⟨-, attached, hmem⟩ | ⟨attached, rfl⟩)
      · exact ⟨attached, .inl hmem⟩
      · exact ⟨attached, .inr rfl⟩
    · rintro ⟨attached, hmem | rfl⟩
      · exact .inl ⟨hslot hmem, attached, hmem⟩
      · exact .inr ⟨attached, rfl⟩
  · simp only [file_record, h.file, List.mem_append, List.mem_singleton]
    constructor
    · rintro (⟨-, hmem⟩ | rfl)
      · exact .inl hmem
      · exact .inr rfl
    · rintro (hmem | rfl)
      · exact .inl ⟨hslot hmem, hmem⟩
      · exact .inr rfl

/-! ### Values that are judged late -/

theorem assign_eq_record {setting : Setting} {value : String}
    (hfresh : reading.valueOf? setting = none) (hchoice : setting.IsChoice value)
    (attached : Bool) :
    reading.assign setting value = .ok (reading.record (.setting setting value attached)) := by
  cases setting with
  | grammar =>
    obtain ⟨choice, rfl⟩ := hchoice
    have hnone : reading.grammar = none := Option.map_eq_none_iff.mp hfresh
    simp [assign, record, Grammar.ofName?_name, hnone]
  | keywords =>
    obtain ⟨choice, rfl⟩ := hchoice
    have hnone : reading.keywords = none := Option.map_eq_none_iff.mp hfresh
    simp [assign, record, KeywordMatching.ofName?_name, hnone]

theorem raise_eq_record {flag : Flag} (hfresh : reading.raised flag = false) :
    reading.raise flag = .ok (reading.record (.flag flag)) := by
  cases flag <;> simp_all [raise, raised, record]

/-- The pending value of a reading is good, and this is what is read once it is judged. -/
structure Settles (reading settled : Reading) : Prop where
  settle : reading.settle = .ok settled
  ended : settled.ended = reading.ended
  hasFile : reading.hasFile = settled.file.isSome
  /-- No setting is still without the word that is its value. -/
  complete : ∀ setting, reading.pending ≠ some (.setting setting none)

/-- Nothing is left to be judged where nothing is pending. -/
theorem Settles.refl (h : reading.pending = none) : reading.Settles reading where
  settle := by rw [Reading.settle, h]
  ended := rfl
  hasFile := by simp [Reading.hasFile, h]
  complete setting := by simp [h]

theorem settles_file {name : String} (h : reading.pending = none) (hname : name ≠ "") :
    { reading with pending := some (.file name) }.Settles (reading.record (.file name)) where
  settle := by simp [Reading.settle, record, hname, h]
  ended := rfl
  hasFile := by simp [hasFile, record]
  complete setting := by simp

theorem settles_setting {setting : Setting} {value : String} (h : reading.pending = none)
    (hfresh : reading.valueOf? setting = none) (hchoice : setting.IsChoice value)
    (attached : Bool) :
    { reading with pending := some (.setting setting (some value)) }.Settles
      (reading.record (.setting setting value attached)) where
  settle := by
    have hsame : { reading with pending := none } = reading := by rw [← h]
    simp only [Reading.settle, hsame]
    exact assign_eq_record hfresh hchoice attached
  ended := by simp
  hasFile := by cases setting <;> simp [hasFile, record]
  complete other := by simp

theorem Settles.takeFile_eq (h : reading.Settles settled) (hfile : settled.file = none)
    (name : String) :
    reading.takeFile name = .ok { settled with pending := some (.file name) } := by
  have hnew : reading.hasFile = false := by rw [h.hasFile, hfile, Option.isSome_none]
  rw [takeFile, hnew, h.settle]
  rfl

theorem Settles.takeOperand_eq (h : reading.Settles settled) (text : String) :
    reading.takeOperand text = reading.takeFile text := by
  unfold takeOperand
  split
  · next setting hpending => exact absurd hpending (h.complete setting)
  · rfl

theorem take_eq_takeWord (h : reading.ended = false) (text : String) :
    reading.take text = reading.takeWord (Word.ofText text) := by
  simp [take, h]

/-- Nothing has been read about what no part is about. -/
theorem Records.raised_eq_false (h : reading.Records parts) {flag : Flag}
    (hfresh : .flag flag ∉ parts.map Part.slot) : reading.raised flag = false := by
  rw [← Bool.not_eq_true, h.raised]
  exact fun hmem => hfresh (List.mem_map_of_mem hmem)

theorem Records.valueOf?_eq_none (h : reading.Records parts) {setting : Setting}
    (hfresh : .setting setting ∉ parts.map Part.slot) : reading.valueOf? setting = none := by
  refine Option.eq_none_iff_forall_ne_some.mpr fun value hvalue => ?_
  obtain ⟨attached, hmem⟩ := (h.value setting value).mp hvalue
  exact hfresh (List.mem_map_of_mem hmem)

theorem Records.file_eq_none (h : reading.Records parts)
    (hfresh : .file ∉ parts.map Part.slot) : reading.file = none := by
  refine Option.eq_none_iff_forall_ne_some.mpr fun name hname => ?_
  exact hfresh (List.mem_map_of_mem ((h.file name).mp hname))

/-- The words of a part about something new are taken, and then it is read as well. -/
theorem take_words (hended : reading.ended = false) (hsettles : reading.Settles settled)
    (hrecords : settled.Records parts) (hproper : part.IsProper)
    (hplain : ∀ name, part = .file name → Part.IsPlain name)
    (hfresh : part.slot ∉ parts.map Part.slot) :
    ∃ next, part.words.foldlM take reading = .ok next ∧ next.ended = false ∧
      next.Settles (settled.record part) := by
  have hsettled : settled.ended = false := hsettles.ended.trans hended
  cases part with
  | flag flag =>
    refine ⟨settled.record (.flag flag), ?_, ended_record.trans hsettled,
      Settles.refl (pending_record.trans hrecords.pending)⟩
    rw [Part.words, List.foldlM_cons, take_eq_takeWord hended, Word.ofText_flag, takeWord,
      hsettles.settle, ← raise_eq_record (hrecords.raised_eq_false hfresh)]
    exact bind_pure _
  | setting setting value attached =>
    have hnone := hrecords.valueOf?_eq_none hfresh
    cases attached with
    | true =>
      refine ⟨settled.record (.setting setting value true), ?_, ended_record.trans hsettled,
        Settles.refl (pending_record.trans hrecords.pending)⟩
      rw [Part.words, if_pos rfl, List.foldlM_cons, take_eq_takeWord hended, Word.ofText_attached,
        takeWord, hsettles.settle, ← assign_eq_record hnone hproper]
      exact bind_pure _
    | false =>
      refine ⟨{ settled with pending := some (.setting setting (some value)) }, ?_, hsettled,
        settles_setting hrecords.pending hnone hproper false⟩
      have hwaits : reading.take ("--" ++ setting.name) =
          .ok { settled with pending := some (.setting setting none) } := by
        rw [take_eq_takeWord hended, Word.ofText_setting, takeWord, hsettles.settle]
        rfl
      let waiting : Reading := { settled with pending := some (.setting setting none) }
      have hwaiting : waiting.ended = false := hsettled
      have hvalue : waiting.take value =
          .ok { settled with pending := some (.setting setting (some value)) } := by
        rw [take_eq_takeWord hwaiting, Word.ofText_choice hproper]
        rfl
      rw [Part.words, if_neg (by decide), List.foldlM_cons, hwaits]
      exact (bind_pure _).trans hvalue
  | file name =>
    refine ⟨{ settled with pending := some (.file name) }, ?_, hsettled,
      settles_file hrecords.pending hproper⟩
    rw [Part.words, List.foldlM_cons, take_eq_takeWord hended,
      Word.ofText_of_isPlain (hplain name rfl), takeWord, hsettles.takeOperand_eq,
      hsettles.takeFile_eq (hrecords.file_eq_none hfresh)]
    rfl

/-! ### Whole lines -/

/-- The words of parts about different things are taken in any order, and then just the parts are
read. The induction takes the last part off, so that what is new is said of those ahead of it. -/
theorem take_flatMap_words (honce : (parts.map Part.slot).Nodup)
    (hproper : ∀ part ∈ parts, part.IsProper)
    (hplain : ∀ name, .file name ∈ parts → Part.IsPlain name) :
    ∃ reading settled : Reading, (parts.flatMap Part.words).foldlM take {} = .ok reading ∧
      reading.ended = false ∧ reading.Settles settled ∧ settled.Records parts := by
  induction parts using List.reverseRecOn with
  | nil =>
    refine ⟨{}, {}, rfl, rfl, Settles.refl rfl, rfl, fun flag => ?_, fun setting value => ?_,
      fun name => ?_⟩
    · cases flag <;> simp [raised]
    · cases setting <;> simp [valueOf?]
    · simp
  | append_singleton parts part ih =>
    obtain ⟨honce, hfresh⟩ := Part.nodup_append_singleton.mp honce
    obtain ⟨reading, settled, htake, hended, hsettles, hrecords⟩ := ih honce
      (fun other hmem => hproper other (List.mem_append_left _ hmem))
      (fun name hmem => hplain name (List.mem_append_left _ hmem))
    have hlast : part.IsProper := hproper part (by simp)
    obtain ⟨next, hnext, hopen, hsettled⟩ := take_words hended hsettles hrecords hlast
      (fun name heq => hplain name (by simp [heq])) hfresh
    refine ⟨next, settled.record part, ?_, hopen, hsettled, hrecords.record hlast hfresh⟩
    rw [List.flatMap_append, List.foldlM_append, htake, List.flatMap_singleton]
    exact hnext

/-- The value read of a setting, or its default, is the value that the options have. -/
theorem Records.valueOf?_getD {options : Options} (h : reading.Records parts)
    (hspell : Part.Spell options parts) (setting : Setting) :
    (reading.valueOf? setting).getD setting.defaultValue = options.valueOf setting := by
  cases hvalue : reading.valueOf? setting with
  | none =>
    by_contra hgiven
    obtain ⟨attached, hmem⟩ := hspell.given setting (Ne.symm hgiven)
    have hsome := (h.value setting (options.valueOf setting)).mpr ⟨attached, hmem⟩
    simp [hvalue] at hsome
  | some value =>
    obtain ⟨attached, hmem⟩ := (h.value setting value).mp hvalue
    exact hspell.value setting value attached hmem

/-- What parts say that spell options is read as just these options. -/
theorem Settles.finish_eq {options : Options} (hsettles : reading.Settles settled)
    (hrecords : settled.Records parts) (hspell : Part.Spell options parts) :
    reading.finish = .ok options := by
  have hflag : ∀ flag, settled.raised flag = options.raises flag := fun flag =>
    Bool.eq_iff_iff.mpr ((hrecords.raised flag).trans (hspell.flag flag))
  have hfile : settled.file = options.file := Option.ext fun name =>
    (hrecords.file name).trans (hspell.file name)
  have hgrammar : settled.grammar.getD .full = options.configuration.grammar := by
    apply Grammar.name_injective
    exact (Option.getD_map ..).symm.trans (hrecords.valueOf?_getD hspell .grammar)
  have hkeywords : settled.keywords.getD .singleCharacter = options.configuration.keywords := by
    apply KeywordMatching.name_injective
    exact (Option.getD_map ..).symm.trans (hrecords.valueOf?_getD hspell .keywords)
  have hlocations : settled.locations = options.locations := hflag .locations
  have hnoColor : settled.noColor = options.noColor := hflag .noColor
  have hdenyWarnings : settled.denyWarnings = options.denyWarnings := hflag .denyWarnings
  rw [finish, hsettles.settle]
  simp only [Except.map, hfile, hgrammar, hkeywords, hlocations, hnoColor, hdenyWarnings]

theorem assign_ended (reading : Reading) (setting : Setting) (value : String) (ended : Bool) :
    { reading with ended }.assign setting value =
      (reading.assign setting value).map fun settled => { settled with ended } := by
  cases setting with
  | grammar =>
    simp only [assign]
    split
    · rfl
    · split <;> rfl
  | keywords =>
    simp only [assign]
    split
    · rfl
    · split <;> rfl

theorem settle_ended (ended : Bool) :
    { reading with ended }.settle =
      reading.settle.map fun settled => { settled with ended } := by
  cases hpending : reading.pending with
  | none => simp [settle, hpending, Except.map]
  | some pending =>
    cases pending with
    | file name =>
      simp only [settle, hpending]
      split <;> rfl
    | setting setting given =>
      cases given with
      | none => simp [settle, hpending, Except.map]
      | some value =>
        simp only [settle, hpending]
        exact assign_ended { reading with pending := none } setting value ended

/-- That no more options follow changes nothing about a value that is pending. -/
theorem Settles.ended_true (h : reading.Settles settled) :
    { reading with ended := true }.Settles { settled with ended := true } where
  settle := by
    rw [settle_ended, h.settle]
    rfl
  ended := rfl
  hasFile := h.hasFile
  complete := h.complete

theorem Records.ended_true (h : reading.Records parts) :
    { reading with ended := true }.Records parts :=
  ⟨h.pending, h.raised, h.value, h.file⟩

/-- The word behind two dashes has no other meaning left than that of a file name. -/
theorem take_behind {name : String} (hended : reading.ended = false)
    (hsettles : reading.Settles settled) (hrecords : settled.Records parts)
    (hname : name ≠ "") (hfresh : .file ∉ parts.map Part.slot) :
    ∃ next, ["--", name].foldlM take reading = .ok next ∧
      next.Settles ({ settled with ended := true }.record (.file name)) := by
  let closed : Reading := { reading with ended := true }
  let judged : Reading := { settled with ended := true }
  have hclosed : closed.Settles judged := hsettles.ended_true
  have hpending : judged.pending = none := hrecords.pending
  refine ⟨{ judged with pending := some (.file name) }, ?_, settles_file hpending hname⟩
  have hdashes : reading.take "--" = .ok closed := by
    rw [take_eq_takeWord hended]
    rfl
  have hfile : closed.take name = .ok { judged with pending := some (.file name) } :=
    hclosed.takeFile_eq (hrecords.file_eq_none hfresh) name
  rw [List.foldlM_cons, hdashes]
  exact (bind_pure _).trans hfile

end Reading

namespace Options

variable {options : Options}

theorem parse_among {parts : List Part} (hfile : options.file ≠ some "")
    (hspell : Part.Spell options parts)
    (hplain : ∀ name, options.file = some name → Part.IsPlain name) :
    parse (parts.flatMap Part.words) = .ok options := by
  obtain ⟨reading, settled, htake, -, hsettles, hrecords⟩ :=
    Reading.take_flatMap_words hspell.once (fun _ hmem => hspell.isProper hfile hmem)
      (fun name hmem => hplain name ((hspell.file name).mp hmem))
  rw [parse, htake]
  exact hsettles.finish_eq hrecords hspell

theorem parse_behind {parts : List Part} {name : String} (hfile : options.file ≠ some "")
    (hspell : Part.Spell options (parts ++ [.file name])) :
    parse (parts.flatMap Part.words ++ ["--", name]) = .ok options := by
  have hproper : ∀ part ∈ parts ++ [Part.file name], part.IsProper :=
    fun _ hmem => hspell.isProper hfile hmem
  have hlast : (Part.file name).IsProper := hproper _ (by simp)
  obtain ⟨honce, hfresh⟩ := Part.nodup_append_singleton.mp hspell.once
  obtain ⟨reading, settled, htake, hended, hsettles, hrecords⟩ :=
    Reading.take_flatMap_words honce (fun part hmem => hproper part (List.mem_append_left _ hmem))
      (fun other hmem => absurd (List.mem_map_of_mem hmem) hfresh)
  obtain ⟨next, hnext, hjudged⟩ := Reading.take_behind hended hsettles hrecords hlast hfresh
  rw [parse, List.foldlM_append, htake]
  have hbehind : (["--", name].foldlM Reading.take reading).bind Reading.finish = .ok options := by
    rw [hnext]
    exact hjudged.finish_eq (hrecords.ended_true.record hlast hfresh) hspell
  exact hbehind

/-- Whatever line spells options, in whatever order and with whatever spelling of the values, is
read as just these options, and there is a line for any options. The file name, if there is one, is
not empty. -/
theorem parse_eq_of_isSpelledBy (options : Options) (hfile : options.file ≠ some "") :
    (∃ words, options.IsSpelledBy words) ∧
      ∀ words, options.IsSpelledBy words → parse words = .ok options := by
  refine ⟨exists_isSpelledBy options, fun words hwords => ?_⟩
  cases hwords with
  | among hspell hplain => exact parse_among hfile hspell hplain
  | behind hspell => exact parse_behind hfile hspell

/-- A file that is named like a flag, behind both settings and the flag itself. -/
theorem parse_eq_of_isSpelledBy_flag :
    parse ["--keywords=whole-word", "--locations", "--grammar", "arithmetic", "--", "--locations"] =
      .ok
        { file := some "--locations"
          configuration := { grammar := .arithmetic, keywords := .wholeWord }
          locations := true } := by
  let options : Options :=
    { file := some "--locations"
      configuration := { grammar := .arithmetic, keywords := .wholeWord }
      locations := true }
  let parts : List Part :=
    [.setting .keywords "whole-word" true, .flag .locations, .setting .grammar "arithmetic" false]
  have hspell : Part.Spell options (parts ++ [.file "--locations"]) := by
    refine ⟨by decide, fun flag => ?_, fun setting value attached hmem => ?_, fun setting _ => ?_,
      fun name => ?_⟩
    · cases flag <;> simp [parts, options, raises]
    · simp only [parts, List.cons_append, List.nil_append, List.mem_cons, List.not_mem_nil] at hmem
      rcases hmem with h | h | h | h | h <;> cases h <;> rfl
    · cases setting
      · exact ⟨false, by simp [parts, options, valueOf, Grammar.name]⟩
      · exact ⟨true, by simp [parts, options, valueOf, KeywordMatching.name]⟩
    · simp [parts, options, eq_comm]
  exact (parse_eq_of_isSpelledBy options (by decide)).2 _ (.behind hspell)

end Options

end Command

end TokenScan
