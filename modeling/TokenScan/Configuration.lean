/-!
Scan configurations. A configuration names the grammar that says what the tokens are, and the
policy by which the full grammar recognises keywords. Both are written by name on the command
line, and each name stands for exactly one choice.
-/

namespace TokenScan

inductive Grammar where
  /-- Numbers, strings, words, operators and comments. Any other character is a symbol, so a
  scan cannot fail. -/
  | full
  /-- Numbers and the four arithmetic operators. Any other character that is not a blank stops
  the scan. -/
  | arithmetic
deriving Repr, DecidableEq

namespace Grammar

def all : List Grammar :=
  [full, arithmetic]

def name : Grammar → String
  | full => "full"
  | arithmetic => "arithmetic"

def ofName? (name : String) : Option Grammar :=
  all.find? fun grammar => grammar.name = name

def position (grammar : Grammar) : Nat :=
  all.idxOf grammar

end Grammar

inductive KeywordMatching where
  /-- A character must be a keyword by itself. No keyword is that short, so every word is an
  identifier. -/
  | singleCharacter
  /-- A word is read to its end and is a keyword if it is spelled like one. -/
  | wholeWord
deriving Repr, DecidableEq

namespace KeywordMatching

def all : List KeywordMatching :=
  [singleCharacter, wholeWord]

def name : KeywordMatching → String
  | singleCharacter => "single-character"
  | wholeWord => "whole-word"

def ofName? (name : String) : Option KeywordMatching :=
  all.find? fun matching => matching.name = name

def position (matching : KeywordMatching) : Nat :=
  all.idxOf matching

end KeywordMatching

structure Configuration where
  grammar : Grammar := .full
  keywords : KeywordMatching := .singleCharacter
deriving Repr, DecidableEq, Inhabited

namespace Configuration

/-- The explanation given for a name that stands for no choice. -/
def unknownName : String :=
  "Matching variant not found"

/-- The configuration with the given names, where a missing name stands for the default. -/
def ofNames? (grammar keywords : Option String) : Option Configuration :=
  (match grammar with
    | none => some Grammar.full
    | some name => Grammar.ofName? name).bind fun grammar =>
  (match keywords with
    | none => some KeywordMatching.singleCharacter
    | some name => KeywordMatching.ofName? name).map fun keywords =>
  { grammar, keywords }

/-- By the grammar, then by the keyword policy. -/
def order (first second : Configuration) : Ordering :=
  (compare first.grammar.position second.grammar.position).then
    (compare first.keywords.position second.keywords.position)

end Configuration

end TokenScan
