import TokenScan.Source.Span
import TokenScan.Token.Keyword

/-!
Tokens. A token is a lexeme together with the span it was read from. Tokens are ordered by their
kind, then by their span; what the lexeme carries decides only between tokens of one kind at one
place.
-/

namespace TokenScan

inductive Kind where
  | number
  | string
  | keyword
  | operator
  | identifier
  | symbol
deriving Repr, DecidableEq

namespace Kind

def all : List Kind :=
  [number, string, keyword, operator, identifier, symbol]

def name : Kind → String
  | number => "NUMBER"
  | string => "STRING"
  | keyword => "KEYWORD"
  | operator => "OPERATOR"
  | identifier => "IDENTIFIER"
  | symbol => "SYMBOL"

def position (kind : Kind) : Nat :=
  all.idxOf kind

end Kind

inductive Lexeme where
  /-- A run of digits, by the number it denotes. -/
  | number (amount : Nat)
  /-- A text between double quotes, which are not part of it. -/
  | string (content : List Char)
  | keyword (word : Keyword)
  | operator (c : Char)
  /-- A word that is not a keyword. -/
  | identifier (name : List Char)
  /-- A character that nothing else accounts for. -/
  | symbol (c : Char)
deriving Repr, DecidableEq

namespace Lexeme

/-- The largest number that a lexeme carries, which is the largest of 64 bits. -/
def largestNumber : Nat :=
  0xFFFFFFFFFFFFFFFF

def kind : Lexeme → Kind
  | .number _ => .number
  | .string _ => .string
  | .keyword _ => .keyword
  | .operator _ => .operator
  | .identifier _ => .identifier
  | .symbol _ => .symbol

def value : Lexeme → String
  | .number amount => toString amount
  | .string content => String.ofList content
  | .keyword word => word.spelling
  | .operator c => String.singleton c
  | .identifier name => String.ofList name
  | .symbol c => String.singleton c

/-- The kind and the value, as `KIND(value)`. -/
def text (lexeme : Lexeme) : String :=
  lexeme.kind.name ++ "(" ++ lexeme.value ++ ")"

/-- The order of two lexemes of one kind. Strings and identifiers are all that their spans
enclose, so nothing is left to compare in them. -/
def payloadOrder : Lexeme → Lexeme → Ordering
  | .number first, .number second => compare first second
  | .keyword first, .keyword second => compare first.position second.position
  | .operator first, .operator second => compare first.toNat second.toNat
  | .symbol first, .symbol second => compare first.toNat second.toNat
  | _, _ => .eq

end Lexeme

structure Token where
  span : Span
  lexeme : Lexeme
deriving Repr, DecidableEq

namespace Token

def kind (token : Token) : Kind :=
  token.lexeme.kind

def text (token : Token) : String :=
  token.lexeme.text

/-- By the kind, then by the span, then by what the lexeme carries. -/
def order (first second : Token) : Ordering :=
  (compare first.kind.position second.kind.position).then
    ((first.span.order second.span).then (first.lexeme.payloadOrder second.lexeme))

instance : Ord Token := ⟨order⟩

/-- The tokens in their order. Equal ones keep the order they came in. -/
def sorted (tokens : List Token) : List Token :=
  tokens.mergeSort fun first second => (first.order second).isLE

/-- The order of two token lists at the first place where they differ. A list comes before any
longer one that begins with it. -/
def listOrder (first second : List Token) : Ordering :=
  List.compareLex order first second

end Token

end TokenScan
