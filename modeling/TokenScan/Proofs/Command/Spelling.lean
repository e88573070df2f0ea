import TokenScan.Command.Options

/-!
How command lines spell options. A line has a part for each option it gives, and one for the file
name. The parts come in any order, and a value is attached to its setting or stands behind it. Any
options can be spelled, and each word of a spelling has the form that it is meant to have.
-/

namespace TokenScan

theorem Grammar.ofName?_name (grammar : Grammar) :
    Grammar.ofName? grammar.name = some grammar := by
  cases grammar <;> decide

theorem Grammar.name_injective : Function.Injective Grammar.name := by
  intro first second h
  rw [← Option.some_inj, ← ofName?_name first, h, ofName?_name]

theorem KeywordMatching.ofName?_name (matching : KeywordMatching) :
    KeywordMatching.ofName? matching.name = some matching := by
  cases matching <;> decide

theorem KeywordMatching.name_injective : Function.Injective KeywordMatching.name := by
  intro first second h
  rw [← Option.some_inj, ← ofName?_name first, h, ofName?_name]

namespace Command

inductive Part where
  | flag (flag : Flag)
  /-- A setting with its value, which is attached to it or is a word of its own. -/
  | setting (setting : Setting) (value : String) (attached : Bool)
  | file (name : String)

inductive Slot where
  | flag (flag : Flag)
  | setting (setting : Setting)
  | file
deriving DecidableEq

/-- Whether the text names one of the choices that the setting has. -/
def Setting.IsChoice (setting : Setting) (value : String) : Prop :=
  match setting with
  | grammar => ∃ choice : Grammar, choice.name = value
  | keywords => ∃ choice : KeywordMatching, choice.name = value

def Options.raises (options : Options) : Flag → Bool
  | .locations => options.locations
  | .noColor => options.noColor
  | .denyWarnings => options.denyWarnings

def Options.valueOf (options : Options) : Setting → String
  | .grammar => options.configuration.grammar.name
  | .keywords => options.configuration.keywords.name

def Setting.defaultValue (setting : Setting) : String :=
  ({} : Options).valueOf setting

namespace Part

def slot : Part → Slot
  | flag chosen => .flag chosen
  | setting chosen _ _ => .setting chosen
  | file _ => .file

def words : Part → List String
  | flag chosen => ["--" ++ chosen.name]
  | setting chosen value attached =>
      if attached then ["--" ++ chosen.name ++ "=" ++ value] else ["--" ++ chosen.name, value]
  | file name => [name]

/-- Whether a file name is not taken for an option: it does not begin with a dash, or is one. -/
def IsPlain (name : String) : Prop :=
  name.toList.head? ≠ some '-' ∨ name = "-"

/-- The parts say what the options are. No two are about the same thing, the flags are those that
are set, a setting has its value and is there unless that is the default, and the file name is
there if there is one. -/
structure Spell (options : Options) (parts : List Part) : Prop where
  once : (parts.map slot).Nodup
  flag : ∀ flag : Flag, .flag flag ∈ parts ↔ options.raises flag = true
  value : ∀ (setting : Setting) (value : String) (attached : Bool),
    .setting setting value attached ∈ parts → value = options.valueOf setting
  given : ∀ setting : Setting, options.valueOf setting ≠ setting.defaultValue →
    ∃ attached, .setting setting (options.valueOf setting) attached ∈ parts
  file : ∀ name : String, .file name ∈ parts ↔ options.file = some name

end Part

/-- The words of a command line for the options. The file name is among the other parts, or behind
two dashes after all of them, which it has to be if it would be taken for an option. -/
inductive Options.IsSpelledBy (options : Options) : List String → Prop
  | among {parts : List Part} :
      Part.Spell options parts → (∀ name, options.file = some name → Part.IsPlain name) →
      IsSpelledBy options (parts.flatMap Part.words)
  | behind {parts : List Part} {name : String} :
      Part.Spell options (parts ++ [.file name]) →
      IsSpelledBy options (parts.flatMap Part.words ++ ["--", name])

/-- Whether a part can be taken where options are possible: its value is a choice, and its file name
is there. -/
def Part.IsProper : Part → Prop
  | flag _ => True
  | setting chosen value _ => chosen.IsChoice value
  | file name => name ≠ ""

theorem Part.nodup_append_singleton {parts : List Part} {part : Part} :
    ((parts ++ [part]).map slot).Nodup ↔
      (parts.map slot).Nodup ∧ part.slot ∉ parts.map slot := by
  simp [List.nodup_append]

/-- The parts that spell options can be taken, unless the file name is empty. -/
theorem Part.Spell.isProper {options : Options} {parts : List Part} (h : Part.Spell options parts)
    (hfile : options.file ≠ some "") {part : Part} (hmem : part ∈ parts) : part.IsProper := by
  cases part with
  | flag flag => trivial
  | setting setting value attached =>
    rw [h.value setting value attached hmem]
    cases setting
    · exact ⟨_, rfl⟩
    · exact ⟨_, rfl⟩
  | file name =>
    rintro rfl
    exact hfile ((h.file "").mp hmem)

/-! ### A spelling -/

def Slot.all : List Slot :=
  [.flag .locations, .flag .noColor, .flag .denyWarnings, .setting .grammar, .setting .keywords,
    .file]

theorem Slot.mem_all (slot : Slot) : slot ∈ Slot.all := by
  cases slot with
  | flag flag => cases flag <;> decide
  | setting setting => cases setting <;> decide
  | file => decide

namespace Options

variable {options : Options}

/-- The part about the given thing if there is one, with the value attached to its setting. -/
def part? (options : Options) : Slot → Option Part
  | .flag flag => if options.raises flag then some (.flag flag) else none
  | .setting setting => some (.setting setting (options.valueOf setting) true)
  | .file => options.file.map .file

theorem slot_eq_of_part? {slot : Slot} {part : Part} (h : options.part? slot = some part) :
    part.slot = slot := by
  cases slot with
  | flag flag =>
    obtain ⟨-, hpart⟩ := Option.ite_none_right_eq_some.mp h
    cases hpart
    rfl
  | setting setting =>
    cases h
    rfl
  | file =>
    obtain ⟨name, -, rfl⟩ := Option.map_eq_some_iff.mp h
    rfl

theorem mem_filterMap_part? {part : Part} :
    part ∈ Slot.all.filterMap options.part? ↔ options.part? part.slot = some part := by
  rw [List.mem_filterMap]
  constructor
  · rintro ⟨slot, -, h⟩
    rwa [slot_eq_of_part? h]
  · exact fun h => ⟨part.slot, Slot.mem_all _, h⟩

/-- One part for each thing in turn spells the options. -/
theorem spell_filterMap_part? (options : Options) :
    Part.Spell options (Slot.all.filterMap options.part?) where
  once := by
    have hall : Slot.all.Nodup := by decide
    rw [List.Nodup, List.pairwise_map, List.pairwise_filterMap]
    refine hall.imp fun hne first hfirst second hsecond => ?_
    rwa [slot_eq_of_part? hfirst, slot_eq_of_part? hsecond]
  flag flag := mem_filterMap_part?.trans (by simp [Part.slot, part?])
  value setting value attached hmem := by
    have h := mem_filterMap_part?.mp hmem
    simp only [Part.slot, part?] at h
    cases h
    rfl
  given setting _ := ⟨true, mem_filterMap_part?.mpr rfl⟩
  file name := mem_filterMap_part?.trans (by simp [Part.slot, part?])

/-- Any options are spelled by some words. A file name is behind two dashes here, whether it has to
be or not. -/
theorem exists_isSpelledBy (options : Options) : ∃ words, options.IsSpelledBy words := by
  have hspell := spell_filterMap_part? options
  cases hfile : options.file with
  | none =>
    exact ⟨_, .among hspell (by simp [hfile])⟩
  | some name =>
    have hall : Slot.all = Slot.all.dropLast ++ [.file] := rfl
    have hlast : [Slot.file].filterMap options.part? = [.file name] := by simp [part?, hfile]
    rw [hall, List.filterMap_append, hlast] at hspell
    exact ⟨_, .behind hspell⟩

end Options

/-! ### Words -/

namespace Word

theorem ofText_flag (flag : Flag) : ofText ("--" ++ flag.name) = .flag flag := by
  cases flag <;> decide

theorem ofText_setting (setting : Setting) :
    ofText ("--" ++ setting.name) = .setting setting none := by
  cases setting <;> decide

/-- The first equals sign parts a name without one from the value. -/
theorem splitAttached_append {name : List Char} (h : '=' ∉ name) (value : List Char) :
    splitAttached (name ++ '=' :: value) = (String.ofList name, some (String.ofList value)) := by
  have hname : ∀ c ∈ name, (c != '=') = true := by
    intro c hc
    exact bne_iff_ne.mpr fun heq => h (heq ▸ hc)
  rw [splitAttached, List.takeWhile_append_of_pos hname, List.dropWhile_append_of_pos hname]
  simp

theorem ofText_attached (setting : Setting) (value : String) :
    ofText ("--" ++ setting.name ++ "=" ++ value) = .setting setting (some value) := by
  have hname : '=' ∉ setting.name.toList := by cases setting <;> decide
  have hsetting : Setting.ofName? setting.name = some setting := by cases setting <;> decide
  have htext : ("--" ++ setting.name ++ "=" ++ value).toList =
      '-' :: '-' :: (setting.name.toList ++ '=' :: value.toList) := by
    simp [String.toList_append]
  obtain ⟨c, rest, hrest⟩ : ∃ c rest, setting.name.toList ++ '=' :: value.toList = c :: rest :=
    List.exists_cons_of_ne_nil (by simp)
  have hsplit := splitAttached_append hname value.toList
  rw [String.ofList_toList, String.ofList_toList, hrest] at hsplit
  have hform : ofText ("--" ++ setting.name ++ "=" ++ value) =
      ofOption (splitAttached (c :: rest)).1 (splitAttached (c :: rest)).2 := by
    unfold ofText
    rw [htext, hrest]
    rfl
  rw [hform, hsplit, ofOption, hsetting]

theorem ofText_choice {setting : Setting} {value : String} (h : setting.IsChoice value) :
    ofText value = .operand value := by
  cases setting with
  | grammar =>
    obtain ⟨choice, rfl⟩ := h
    cases choice <;> decide
  | keywords =>
    obtain ⟨choice, rfl⟩ := h
    cases choice <;> decide

theorem ofText_of_isPlain {name : String} (h : Part.IsPlain name) :
    ofText name = .operand name := by
  rcases h with hhead | rfl
  · unfold ofText
    split
    · next hname => simp [hname] at hhead
    · next hname => simp [hname] at hhead
    · next hname => simp [hname] at hhead
    · rfl
  · decide

end Word

end Command

end TokenScan
