import TokenScan.Configuration

/-!
The command line. Words are read from left to right and the first fault rejects them. A value that
is a word of its own, the file name included, is judged only when the next word has shown that it
is complete, so a word that cannot be understood at all is reported before a bad value just ahead
of it.
-/

namespace TokenScan.Command

structure Options where
  /-- The file to scan. Standard input is scanned when none is given. -/
  file : Option String := none
  configuration : Configuration := {}
  /-- Whether each token is shown with its location. -/
  locations : Bool := false
  /-- Whether messages are printed without colours. -/
  noColor : Bool := false
  /-- Whether a warning makes the run fail. -/
  denyWarnings : Bool := false
deriving Repr, DecidableEq

inductive Rejection where
  /-- The help text is asked for. -/
  | helpRequested
  /-- A word is no option, or there is a second file name. -/
  | unknownArgument
  /-- A value is missing, or the file name is empty. -/
  | missingValue
  /-- A value names none of the choices. -/
  | unknownName
  /-- A flag is given a value. -/
  | unexpectedValue
  /-- A flag or a setting is given twice. -/
  | repeated
deriving Repr, DecidableEq

inductive Flag where
  | locations
  | noColor
  | denyWarnings
deriving Repr, DecidableEq

/-- The name of the flag after its two dashes. -/
def Flag.name : Flag → String
  | locations => "locations"
  | noColor => "no-color"
  | denyWarnings => "deny-warnings"

def Flag.ofName? (name : String) : Option Flag :=
  [locations, noColor, denyWarnings].find? fun flag => flag.name = name

inductive Setting where
  | grammar
  | keywords
deriving Repr, DecidableEq

def Setting.name : Setting → String
  | grammar => "grammar"
  | keywords => "keywords"

def Setting.ofName? (name : String) : Option Setting :=
  [grammar, keywords].find? fun setting => setting.name = name

inductive Word where
  /-- Two dashes alone. Every word after them is an operand. -/
  | endOfOptions
  | help
  | flag (flag : Flag)
  /-- A setting, with its value if an equals sign attaches one. -/
  | setting (setting : Setting) (attached : Option String)
  /-- A flag with a value attached. -/
  | overfull
  /-- A word that begins with a dash and is no option. -/
  | unknown
  | operand (text : String)
deriving Repr, DecidableEq

namespace Word

/-- A word after its two dashes, as a name and the value after the first equals sign. -/
def splitAttached (word : List Char) : String × Option String :=
  let name := String.ofList (word.takeWhile (· != '='))
  match word.dropWhile (· != '=') with
  | [] => (name, none)
  | _ :: value => (name, some (String.ofList value))

def ofOption (name : String) (attached : Option String) : Word :=
  match Setting.ofName? name with
  | some chosen => setting chosen attached
  | none =>
      if name = "help" then if attached.isSome then overfull else help
      else
        match Flag.ofName? name with
        | some chosen => if attached.isSome then overfull else flag chosen
        | none => unknown

/-- The form of a word where options are still possible. A single dash is an operand, and a letter
after it is understood only if it asks for help. -/
def ofText (text : String) : Word :=
  match text.toList with
  | ['-', '-'] => endOfOptions
  | '-' :: '-' :: rest =>
      let (name, attached) := splitAttached rest
      ofOption name attached
  | '-' :: c :: _ => if c = 'h' then help else unknown
  | _ => operand text

end Word

inductive Pending where
  /-- A setting, with the word given for its value if there was one. -/
  | setting (setting : Setting) (given : Option String)
  | file (name : String)
deriving Repr, DecidableEq

structure Reading where
  file : Option String := none
  grammar : Option Grammar := none
  keywords : Option KeywordMatching := none
  locations : Bool := false
  noColor : Bool := false
  denyWarnings : Bool := false
  pending : Option Pending := none
  /-- Whether only operands can follow. -/
  ended : Bool := false
deriving Repr, DecidableEq

namespace Reading

/-- Gives a setting its value, once. -/
def assign (reading : Reading) (setting : Setting) (value : String) : Except Rejection Reading :=
  match setting with
  | .grammar =>
      if reading.grammar.isSome then .error .repeated
      else
        match Grammar.ofName? value with
        | none => .error .unknownName
        | some grammar => .ok { reading with grammar := some grammar }
  | .keywords =>
      if reading.keywords.isSome then .error .repeated
      else
        match KeywordMatching.ofName? value with
        | none => .error .unknownName
        | some matching => .ok { reading with keywords := some matching }

def raise (reading : Reading) (flag : Flag) : Except Rejection Reading :=
  match flag with
  | .locations =>
      if reading.locations then .error .repeated else .ok { reading with locations := true }
  | .noColor =>
      if reading.noColor then .error .repeated else .ok { reading with noColor := true }
  | .denyWarnings =>
      if reading.denyWarnings then .error .repeated
      else .ok { reading with denyWarnings := true }

/-- Judges the value that was left pending. -/
def settle (reading : Reading) : Except Rejection Reading :=
  let settled := { reading with pending := none }
  match reading.pending with
  | none => .ok reading
  | some (.setting _ none) => .error .missingValue
  | some (.setting setting (some value)) => settled.assign setting value
  | some (.file name) =>
      if name = "" then .error .missingValue else .ok { settled with file := some name }

def hasFile (reading : Reading) : Bool :=
  reading.file.isSome ||
    match reading.pending with
    | some (.file _) => true
    | _ => false

def takeFile (reading : Reading) (name : String) : Except Rejection Reading :=
  if reading.hasFile then .error .unknownArgument
  else
    reading.settle.map fun settled => { settled with pending := some (.file name) }

/-- Takes a word that is no option, which is the value of a setting if one waits for it. -/
def takeOperand (reading : Reading) (text : String) : Except Rejection Reading :=
  match reading.pending with
  | some (.setting setting none) =>
      .ok { reading with pending := some (.setting setting (some text)) }
  | _ => reading.takeFile text

def takeWord (reading : Reading) : Word → Except Rejection Reading
  | .endOfOptions => .ok { reading with ended := true }
  | .help => reading.settle.bind fun _ => .error .helpRequested
  | .flag flag => reading.settle.bind fun settled => settled.raise flag
  | .setting setting none =>
      reading.settle.map fun settled => { settled with pending := some (.setting setting none) }
  | .setting setting (some value) =>
      reading.settle.bind fun settled => settled.assign setting value
  | .overfull => .error .unexpectedValue
  | .unknown => .error .unknownArgument
  | .operand text => reading.takeOperand text

def take (reading : Reading) (text : String) : Except Rejection Reading :=
  if reading.ended then reading.takeFile text else reading.takeWord (Word.ofText text)

def finish (reading : Reading) : Except Rejection Options :=
  reading.settle.map fun settled =>
    { file := settled.file
      configuration :=
        { grammar := settled.grammar.getD .full
          keywords := settled.keywords.getD .singleCharacter }
      locations := settled.locations
      noColor := settled.noColor
      denyWarnings := settled.denyWarnings }

end Reading

/-- Reads the words of a command line, without the name of the program. -/
def Options.parse (words : List String) : Except Rejection Options :=
  (words.foldlM Reading.take {}).bind Reading.finish

end TokenScan.Command
