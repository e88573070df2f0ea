import TokenScan.Proofs.Scan.Bounds
import TokenScan.Proofs.Text.Rows
import TokenScan.Token.Listing

/-!
Listings. A token is shown as `KIND(value)` with nothing in it escaped, and still the token can be
read back from its row: the names of the kinds have no bracket in them, and the last bracket is the
one that closes the value. The rows themselves can be told apart as long as no string with a line
feed in it is shown. No other value holds one, because whatever a grammar reads without quotes
around it has no blank in it.
-/

namespace TokenScan

open Text Piece

/-! ### What a row says -/

theorem Kind.find?_name (kind : Kind) :
    Kind.all.find? (fun other => other.name = kind.name) = some kind := by
  cases kind <;> decide

theorem Kind.name_injective : Function.Injective Kind.name := by
  intro first second h
  have hfound := first.find?_name
  rw [h, second.find?_name] at hfound
  exact (Option.some.inj hfound).symm

theorem Kind.bracket_not_mem_name (kind : Kind) : '(' ∉ kind.name.toList := by
  cases kind <;> decide

theorem Kind.newline_not_mem_name (kind : Kind) : '\n' ∉ kind.name.toList := by
  cases kind <;> decide

namespace Lexeme

theorem toList_text (lexeme : Lexeme) :
    lexeme.text.toList = lexeme.kind.name.toList ++ '(' :: (lexeme.value.toList ++ [')']) := by
  simp [text]

theorem eq_of_value {first second : Lexeme} (hkind : first.kind = second.kind)
    (hvalue : first.value.toList = second.value.toList) : first = second := by
  cases first with
  | number amount =>
    cases second with
    | number other => rw [toList_toString_inj hvalue]
    | _ => cases hkind
  | string content =>
    cases second with
    | string other => simpa [value] using hvalue
    | _ => cases hkind
  | keyword word =>
    cases second with
    | keyword other =>
      have hwords := congrArg Keyword.ofLetters? hvalue
      have hsame : Keyword.ofLetters? word.letters = Keyword.ofLetters? other.letters := hwords
      rw [Keyword.ofLetters?_letters, Keyword.ofLetters?_letters, Option.some_inj] at hsame
      rw [hsame]
    | _ => cases hkind
  | operator c =>
    cases second with
    | operator d => simpa [value] using hvalue
    | _ => cases hkind
  | identifier name =>
    cases second with
    | identifier other => simpa [value] using hvalue
    | _ => cases hkind
  | symbol c =>
    cases second with
    | symbol d => simpa [value] using hvalue
    | _ => cases hkind

/-- The kind is what stands before the first bracket, and the value is what stands between that
bracket and the last character. -/
theorem toList_text_injective : Function.Injective fun lexeme : Lexeme => lexeme.text.toList := by
  intro first second h
  dsimp only at h
  rw [toList_text, toList_text] at h
  obtain ⟨hname, hbehind⟩ :=
    append_cons_inj first.kind.bracket_not_mem_name second.kind.bracket_not_mem_name h
  have hkind := Kind.name_injective (String.toList_inj.mp hname)
  exact eq_of_value hkind (List.append_cancel_right hbehind)

def inQuotes : Lexeme → List Char
  | .string content => content
  | _ => []

def IsUnbroken (lexeme : Lexeme) : Prop :=
  '\n' ∉ lexeme.inQuotes

end Lexeme

/-! ### Line feeds in rows -/

namespace Piece

variable {configuration : Configuration}

/-- A line feed in a value comes from the inside of a string. -/
theorem count_newline_value {piece : Piece} {lexeme : Lexeme} (hfits : piece.Fits configuration)
    (h : piece.lexeme? = some lexeme) :
    lexeme.value.toList.count '\n' = lexeme.inQuotes.count '\n' := by
  have hsolid (hpiece : piece.isSolid = true) : '\n' ∉ piece.text :=
    not_mem_text_of_isSolid hfits hpiece (by decide)
  cases piece with
  | string content closed =>
    cases closed with
    | true =>
      obtain rfl : Lexeme.string content = lexeme := Option.some.inj h
      simp [Lexeme.value, Lexeme.inQuotes]
    | false => cases h
  | number digits =>
    obtain rfl := Option.some.inj h
    exact List.count_eq_zero.mpr (not_mem_toString digitChar_ne_newline _)
  | keyword word =>
    obtain rfl : Lexeme.keyword word = lexeme := Option.some.inj h
    exact List.count_eq_zero.mpr (hsolid rfl)
  | operator c =>
    obtain rfl : Lexeme.operator c = lexeme := Option.some.inj h
    simpa [Lexeme.value, Lexeme.inQuotes, text, List.count_eq_zero] using hsolid rfl
  | identifier name =>
    obtain rfl : Lexeme.identifier name = lexeme := Option.some.inj h
    simpa [Lexeme.value, Lexeme.inQuotes, text, List.count_eq_zero] using hsolid rfl
  | symbol c =>
    obtain rfl : Lexeme.symbol c = lexeme := Option.some.inj h
    simpa [Lexeme.value, Lexeme.inQuotes, text, List.count_eq_zero] using hsolid rfl
  | _ => cases h

end Piece

namespace Token

/-- The row of a listing that shows the token, without the line feed that ends it. -/
def row (source : Source) (locations : Bool) (token : Token) : List Char :=
  (if locations then (source.location token.span.start).text.toList ++ [' '] else []) ++
    token.text.toList

theorem toList_listing (source : Source) (locations : Bool) (tokens : List Token) :
    (listing source locations tokens).toList =
      (tokens.map (row source locations)).flatMap fun row => row ++ ['\n'] := by
  have hline (token : Token) :
      (listingLine source locations token).toList = token.row source locations ++ ['\n'] := by
    cases locations <;> simp [listingLine, row]
  rw [listing, String.toList_join, List.flatMap_map, List.flatMap_map]
  exact List.flatMap_congr fun token _ => hline token

variable {configuration : Configuration} {source : Source} {tokens : List Token}

/-- A token of a scan is what a piece means that the grammar has a rule for. -/
theorem exists_fits_of_mem (h : (source.scan configuration).1 = .ok tokens) {token : Token}
    (htoken : token ∈ tokens) :
    ∃ piece : Piece, piece.Fits configuration ∧ piece.lexeme? = some token.lexeme := by
  rw [Source.scan_eq] at h
  rw [tokens_of_resultOf_eq_ok h] at htoken
  obtain ⟨before, piece, after, hrun, hpiece⟩ := exists_piece_of_mem_tokens htoken
  have hmem : piece ∈ pieces configuration source.chars := by simp [hrun]
  obtain ⟨lexeme, hlexeme, rfl⟩ := Option.map_eq_some_iff.mp hpiece
  exact ⟨piece, fits_of_mem_pieces hmem, hlexeme⟩

theorem count_newline_row (h : (source.scan configuration).1 = .ok tokens) {token : Token}
    (htoken : token ∈ tokens) (locations : Bool) :
    (token.row source locations).count '\n' = token.lexeme.inQuotes.count '\n' := by
  obtain ⟨piece, hfits, hlexeme⟩ := exists_fits_of_mem h htoken
  have hplace : (if locations then (source.location token.span.start).text.toList ++ [' ']
      else []).count '\n' = 0 := by
    have hlocation := (source.location token.span.start).newline_not_mem_text
    rw [List.count_eq_zero]
    cases locations <;> simp [hlocation]
  have hname := List.count_eq_zero.mpr token.lexeme.kind.newline_not_mem_name
  have hvalue := count_newline_value hfits hlexeme
  rw [row, List.count_append, hplace, text, Lexeme.toList_text, List.count_append, hname]
  simp [hvalue]

theorem newline_not_mem_row_iff (h : (source.scan configuration).1 = .ok tokens) {token : Token}
    (htoken : token ∈ tokens) (locations : Bool) :
    '\n' ∉ token.row source locations ↔ token.lexeme.IsUnbroken := by
  rw [← List.count_eq_zero, count_newline_row h htoken, List.count_eq_zero]
  rfl

theorem isRows_listing (h : (source.scan configuration).1 = .ok tokens)
    (hunbroken : ∀ token ∈ tokens, token.lexeme.IsUnbroken) (locations : Bool) :
    IsRows (tokens.map (row source locations)) (listing source locations tokens).toList := by
  refine ⟨toList_listing source locations tokens, ?_⟩
  intro text htext
  obtain ⟨token, htoken, rfl⟩ := List.mem_map.mp htext
  exact (newline_not_mem_row_iff h htoken locations).mpr (hunbroken token htoken)

/-- A listing has one row for each token, in order, exactly when no string in it holds a line feed.
Each line feed in a string makes it one row longer. -/
theorem isRows_listing_iff (h : (source.scan configuration).1 = .ok tokens) (locations : Bool) :
    (IsRows (tokens.map (row source locations)) (listing source locations tokens).toList ↔
      ∀ token ∈ tokens, token.lexeme.IsUnbroken) ∧
    (listing source locations tokens).toList.count '\n' =
      tokens.length + (tokens.flatMap fun token => token.lexeme.inQuotes).count '\n' := by
  constructor
  · constructor
    · intro hrows token htoken
      have hrow := hrows.newline_not_mem _ (List.mem_map_of_mem htoken)
      exact (newline_not_mem_row_iff h htoken locations).mp hrow
    · intro hunbroken
      exact isRows_listing h hunbroken locations
  · have hcounts : (tokens.map (row source locations)).flatten.count '\n' =
        (tokens.map fun token => token.lexeme.inQuotes).flatten.count '\n' := by
      rw [List.count_flatten, List.count_flatten, List.map_map, List.map_map]
      exact congrArg List.sum
        (List.map_congr_left fun token htoken => count_newline_row h htoken locations)
    rw [toList_listing, count_newline_flatMap, hcounts, List.length_map, List.flatMap_def]

theorem isRows_listing_iff_three_lines :
    ((Source.ofChars "a.lex" "x \"a\n\nb\"\n+".toList).scan {}).1 =
        .ok [⟨⟨0, 1⟩, .identifier ['x']⟩, ⟨⟨2, 8⟩, .string ['a', '\n', '\n', 'b']⟩,
          ⟨⟨9, 10⟩, .operator '+'⟩] ∧
      ¬ IsRows [['1', ':', '1', ' '] ++ "IDENTIFIER(x)".toList,
          ['1', ':', '3', ' '] ++ "STRING(a\n\nb)".toList,
          ['4', ':', '1', ' '] ++ "OPERATOR(+)".toList]
        (listing (Source.ofChars "a.lex" "x \"a\n\nb\"\n+".toList) true
          [⟨⟨0, 1⟩, .identifier ['x']⟩, ⟨⟨2, 8⟩, .string ['a', '\n', '\n', 'b']⟩,
            ⟨⟨9, 10⟩, .operator '+'⟩]).toList ∧
      (listing (Source.ofChars "a.lex" "x \"a\n\nb\"\n+".toList) true
        [⟨⟨0, 1⟩, .identifier ['x']⟩, ⟨⟨2, 8⟩, .string ['a', '\n', '\n', 'b']⟩,
          ⟨⟨9, 10⟩, .operator '+'⟩]).toList.count '\n' = 3 + 2 := by
  have hscan : ((Source.ofChars "a.lex" "x \"a\n\nb\"\n+".toList).scan {}).1 =
      .ok [⟨⟨0, 1⟩, .identifier ['x']⟩, ⟨⟨2, 8⟩, .string ['a', '\n', '\n', 'b']⟩,
        ⟨⟨9, 10⟩, .operator '+'⟩] :=
    congrArg Prod.fst (Source.scan_eq_ok_iff.mpr ⟨[.identifier ['x'], .blank ' ',
      .string ['a', '\n', '\n', 'b'] true, .blank '\n', .operator '+'],
      by decide, by decide, rfl, rfl⟩)
  obtain ⟨hrows, hcount⟩ := isRows_listing_iff hscan true
  refine ⟨hscan, ?_, hcount⟩
  intro h
  have hstring := hrows.mp h ⟨⟨2, 8⟩, .string ['a', '\n', '\n', 'b']⟩ (by decide)
  exact hstring (by decide)

/-- One token, and two rows. -/
theorem not_isRows_listing_newline :
    ((Source.ofChars "a.lex" "\"a\nb\"".toList).scan {}).1 =
        .ok [⟨⟨0, 5⟩, .string ['a', '\n', 'b']⟩] ∧
      listing (Source.ofChars "a.lex" "\"a\nb\"".toList) false
        [⟨⟨0, 5⟩, .string ['a', '\n', 'b']⟩] = "STRING(a\nb)\n" ∧
      ∀ row, ¬ IsRows [row] (listing (Source.ofChars "a.lex" "\"a\nb\"".toList) false
        [⟨⟨0, 5⟩, .string ['a', '\n', 'b']⟩]).toList := by
  have hscan : ((Source.ofChars "a.lex" "\"a\nb\"".toList).scan {}).1 =
      .ok [⟨⟨0, 5⟩, .string ['a', '\n', 'b']⟩] :=
    congrArg Prod.fst (Source.scan_eq_ok_iff.mpr ⟨[.string ['a', '\n', 'b'] true],
      by decide, by decide, rfl, rfl⟩)
  have hlisting : listing (Source.ofChars "a.lex" "\"a\nb\"".toList) false
      [⟨⟨0, 5⟩, .string ['a', '\n', 'b']⟩] = "STRING(a\nb)\n" := by
    rfl
  refine ⟨hscan, hlisting, ?_⟩
  rintro row ⟨htext, hrow⟩
  have hcount := congrArg (List.count '\n') (hlisting ▸ htext)
  rw [count_newline_flatMap] at hcount
  simp [List.count_eq_zero.mpr (hrow row List.mem_cons_self)] at hcount

/-! ### What a listing says -/

/-- Where a token of a scan begins has a location. -/
theorem location?_start_of_mem (h : (source.scan configuration).1 = .ok tokens) {token : Token}
    (htoken : token ∈ tokens) :
    source.location? token.span.start = some (source.location token.span.start) := by
  have hspan := (Source.isInBounds_of_mem_tokens h htoken).span
  obtain ⟨start, -, hstart, -⟩ := Source.exists_location?_of_span? hspan
  rw [Source.location, hstart]
  rfl

/-- Each token of a scan begins behind the one before. -/
theorem pairwise_start (h : (source.scan configuration).1 = .ok tokens) :
    tokens.Pairwise fun first second => first.span.start < second.span.start := by
  rw [Source.scan_eq] at h
  rw [tokens_of_resultOf_eq_ok h]
  exact pairwise_start_tokens 0 fun piece hpiece => (fits_of_mem_pieces hpiece).text_ne_nil

theorem pairwise_location (h : (source.scan configuration).1 = .ok tokens) :
    (tokens.map fun token => source.location token.span.start).Pairwise
      fun first second => first.order second = .lt := by
  rw [List.pairwise_map]
  refine (pairwise_start h).imp_of_mem ?_
  intro first second hfirst hsecond hlt
  exact Source.order_of_lt (location?_start_of_mem h hfirst) (location?_start_of_mem h hsecond) hlt

/-- The location is what stands before the first space. -/
theorem locatedRow_injective :
    Function.Injective fun entry : Location × Lexeme =>
      entry.1.text.toList ++ ' ' :: entry.2.text.toList := by
  rintro ⟨firstPlace, first⟩ ⟨secondPlace, second⟩ h
  have hspace (place : Location) : ' ' ∉ place.text.toList :=
    place.not_mem_text (fun _ => Nat.digitChar_ne ' ' (by decide)) (by decide)
  obtain ⟨hplace, hlexeme⟩ := append_cons_inj (hspace firstPlace) (hspace secondPlace) h
  exact Prod.ext (Location.toList_text_injective hplace) (Lexeme.toList_text_injective hlexeme)

variable {otherConfiguration : Configuration} {other : Source} {others : List Token}

theorem map_row_eq_of_listing_eq (h : (source.scan configuration).1 = .ok tokens)
    (hother : (other.scan otherConfiguration).1 = .ok others)
    (hunbroken : ∀ token ∈ tokens ++ others, token.lexeme.IsUnbroken) {locations : Bool}
    (hlisting : listing source locations tokens = listing other locations others) :
    tokens.map (row source locations) = others.map (row other locations) := by
  rw [List.forall_mem_append] at hunbroken
  have hrows := isRows_listing h hunbroken.1 locations
  rw [hlisting] at hrows
  exact hrows.unique (isRows_listing hother hunbroken.2 locations)

/-- Listings tell the tokens of scans apart if no string in them holds a line feed. Those without
locations tell what the tokens are, and those with locations where each begins as well. In any
listing with locations these go up from row to row, line first and then column. -/
theorem listing_determines_tokens (h : (source.scan configuration).1 = .ok tokens)
    (hother : (other.scan otherConfiguration).1 = .ok others) :
    ((∀ token ∈ tokens ++ others, token.lexeme.IsUnbroken) →
      (listing source false tokens = listing other false others →
        tokens.map Token.lexeme = others.map Token.lexeme) ∧
      (listing source true tokens = listing other true others →
        tokens.map Token.lexeme = others.map Token.lexeme ∧
        tokens.map (fun token => source.location? token.span.start) =
          others.map fun token => other.location? token.span.start)) ∧
    ∃ places : List Location,
      tokens.map (fun token => source.location? token.span.start) = places.map some ∧
      places.Pairwise (fun first second => first.order second = .lt) ∧
      listing source true tokens = String.join (places.zipWith (fun place token =>
        place.text ++ " " ++ token.text ++ "\n") tokens) := by
  refine ⟨?_, tokens.map fun token => source.location token.span.start, ?_, pairwise_location h,
    ?_⟩
  · intro hunbroken
    refine ⟨?_, ?_⟩
    · intro hlisting
      have hrows := map_row_eq_of_listing_eq h hother hunbroken hlisting
      have hplain (source : Source) (tokens : List Token) : tokens.map (row source false) =
          (tokens.map Token.lexeme).map fun lexeme => lexeme.text.toList := by
        rw [List.map_map]
        rfl
      rw [hplain, hplain] at hrows
      exact Lexeme.toList_text_injective.list_map hrows
    · intro hlisting
      have hrows := map_row_eq_of_listing_eq h hother hunbroken hlisting
      have hlocated (source : Source) (tokens : List Token) : tokens.map (row source true) =
          (tokens.map fun token => (source.location token.span.start, token.lexeme)).map
            fun entry => entry.1.text.toList ++ ' ' :: entry.2.text.toList := by
        rw [List.map_map]
        refine List.map_congr_left fun token _ => ?_
        simp [row, text]
      rw [hlocated, hlocated] at hrows
      have hentries := locatedRow_injective.list_map hrows
      have hlexemes := congrArg (List.map Prod.snd) hentries
      have hplaces := congrArg (List.map fun entry => some entry.1) hentries
      rw [List.map_map, List.map_map] at hlexemes hplaces
      refine ⟨hlexemes, ?_⟩
      rw [List.map_congr_left fun token htoken => location?_start_of_mem h htoken,
        List.map_congr_left fun token htoken => location?_start_of_mem hother htoken]
      exact hplaces
  · rw [List.map_map]
    exact List.map_congr_left fun token htoken => location?_start_of_mem h htoken
  · rw [List.zipWith_map_left, List.zipWith_self]
    rfl

theorem listing_determines_tokens_comment :
    ((Source.ofChars "a.lex" "/*é*/x \") 1:2\"".toList).scan {}).1 =
        .ok [⟨⟨6, 7⟩, .identifier ['x']⟩, ⟨⟨8, 15⟩, .string [')', ' ', '1', ':', '2']⟩] ∧
      ((Source.ofChars "b.lex" "/*e*/x \") 1:2\"//".toList).scan
        { grammar := .full, keywords := .wholeWord }).1 =
          .ok [⟨⟨5, 6⟩, .identifier ['x']⟩, ⟨⟨7, 14⟩, .string [')', ' ', '1', ':', '2']⟩] ∧
      (Source.ofChars "a.lex" "/*é*/x \") 1:2\"".toList).location? 8 =
        (Source.ofChars "b.lex" "/*e*/x \") 1:2\"//".toList).location? 7 := by
  have hscan : ((Source.ofChars "a.lex" "/*é*/x \") 1:2\"".toList).scan {}).1 =
      .ok [⟨⟨6, 7⟩, .identifier ['x']⟩, ⟨⟨8, 15⟩, .string [')', ' ', '1', ':', '2']⟩] :=
    congrArg Prod.fst (Source.scan_eq_ok_iff.mpr ⟨[.blockComment ['é'] true, .identifier ['x'],
      .blank ' ', .string [')', ' ', '1', ':', '2'] true], by decide, by decide, rfl, rfl⟩)
  have hother : ((Source.ofChars "b.lex" "/*e*/x \") 1:2\"//".toList).scan
      { grammar := .full, keywords := .wholeWord }).1 =
        .ok [⟨⟨5, 6⟩, .identifier ['x']⟩, ⟨⟨7, 14⟩, .string [')', ' ', '1', ':', '2']⟩] :=
    congrArg Prod.fst (Source.scan_eq_ok_iff.mpr ⟨[.blockComment ['e'] true, .identifier ['x'],
      .blank ' ', .string [')', ' ', '1', ':', '2'] true, .lineComment [] false],
      by decide, by decide, rfl, rfl⟩)
  obtain ⟨hdetermined, -⟩ := listing_determines_tokens hscan hother
  have hunbroken : ∀ token ∈ [⟨⟨6, 7⟩, .identifier ['x']⟩,
      ⟨⟨8, 15⟩, .string [')', ' ', '1', ':', '2']⟩, ⟨⟨5, 6⟩, .identifier ['x']⟩,
      (⟨⟨7, 14⟩, .string [')', ' ', '1', ':', '2']⟩ : Token)], token.lexeme.IsUnbroken := by
    simp [Lexeme.IsUnbroken, Lexeme.inQuotes]
  obtain ⟨-, hplaces⟩ := (hdetermined hunbroken).2 (by decide +kernel)
  exact ⟨hscan, hother, (List.cons.inj (List.cons.inj hplaces).2).1⟩

end Token

end TokenScan
