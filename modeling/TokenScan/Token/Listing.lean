import TokenScan.Token.Basic

/-!
Listings. A listing shows tokens one a line, optionally with the location where each begins.
-/

namespace TokenScan

def Token.listingLine (source : Source) (locations : Bool) (token : Token) : String :=
  if locations then (source.location token.span.start).text ++ " " ++ token.text ++ "\n"
  else token.text ++ "\n"

/-- The tokens of a source one a line. -/
def Token.listing (source : Source) (locations : Bool) (tokens : List Token) : String :=
  String.join (tokens.map (Token.listingLine source locations))

end TokenScan
