import TokenScan.Proofs.Diagnostic.Layout

/-!
Carets and what stands above them. The row of carets counts the characters of the span, and the row
above shows a tab as four cells. So the carets begin under the first highlighted cell, and they end
under the last one only if there is no tab in the span.
-/

namespace TokenScan

open Text

namespace Excerpt

open Printed Source Styled

/-- What a row that shows a line shows in each cell of the terminal, and whether it is highlighted
there. -/
def shownCells (cells : List Cell) : List (Char × Bool) :=
  cells.flatMap fun cell => (cellText cell.character).map fun c => (c, cell.highlighted)

/-- The cells of the terminal that are highlighted, counted from the first one of the line. -/
def highlightedPositions (cells : List Cell) : List Nat :=
  ((shownCells cells).zipIdx.filter fun entry => entry.1.2).map Prod.snd

def marked (chars : List Char) (highlighted : Bool) : List Cell :=
  chars.map fun c => ⟨c, highlighted⟩

variable {source : Source} {span : Span} {start stop : Location} {line : List Char}

/-! ### Widths -/

theorem length_le_flatMap_cellText (chars : List Char) :
    chars.length ≤ (chars.flatMap cellText).length := by
  induction chars with
  | nil => exact Nat.le_refl 0
  | cons c chars ih =>
    have hpos : 1 ≤ (cellText c).length := by
      rw [length_cellText, cellWidth]
      split <;> omega
    rw [List.flatMap_cons, List.length_append, List.length_cons]
    omega

/-- Only tabs take more than one cell. -/
theorem length_eq_flatMap_cellText_iff (chars : List Char) :
    chars.length = (chars.flatMap cellText).length ↔ '\t' ∉ chars := by
  induction chars with
  | nil => simp
  | cons c chars ih =>
    have hle := length_le_flatMap_cellText chars
    rw [List.flatMap_cons, List.length_append, List.length_cons, length_cellText, cellWidth,
      List.mem_cons, not_or, ← ih]
    by_cases htab : c = '\t'
    · rw [if_pos htab]
      constructor
      · omega
      · exact fun hnot => absurd htab.symm hnot.1
    · rw [if_neg htab]
      constructor
      · exact fun hlength => ⟨fun heq => htab heq.symm, by omega⟩
      · omega

theorem shownCells_append (first second : List Cell) :
    shownCells (first ++ second) = shownCells first ++ shownCells second :=
  List.flatMap_append

theorem shownCells_marked (chars : List Char) (highlighted : Bool) :
    shownCells (marked chars highlighted) =
      (chars.flatMap cellText).map fun c => (c, highlighted) := by
  rw [shownCells, marked, List.flatMap_map, List.map_flatMap]

/-- If only a middle part of a line is highlighted, its cells are the highlighted ones. -/
theorem highlightedPositions_marked (first middle last : List Char) :
    highlightedPositions (marked first false ++ marked middle true ++ marked last false) =
      List.range' (first.flatMap cellText).length (middle.flatMap cellText).length := by
  have hmark (chars : List Char) (highlighted : Bool) (position : Nat) :
      ∀ entry ∈ (chars.map fun c => (c, highlighted)).zipIdx position,
        entry.1.2 = highlighted := by
    rintro ⟨entry, index⟩ hentry
    obtain ⟨c, -, rfl⟩ := List.mem_map.mp (List.fst_mem_of_mem_zipIdx hentry)
    rfl
  rw [highlightedPositions, shownCells_append, shownCells_append, shownCells_marked,
    shownCells_marked, shownCells_marked, List.zipIdx_append, List.zipIdx_append,
    filter_between (hmark _ false _) (hmark _ true _) (hmark _ false _),
    List.zipIdx_map_snd, Nat.zero_add, List.length_map, List.length_map]

theorem filter_marked (first middle last : List Char) :
    (marked first false ++ marked middle true ++ marked last false).filter Cell.highlighted =
      marked middle true := by
  have hmark (chars : List Char) (highlighted : Bool) :
      ∀ cell ∈ marked chars highlighted, cell.highlighted = highlighted := by
    rw [marked, List.forall_mem_map]
    exact fun _ _ => rfl
  exact filter_between (hmark first false) (hmark middle true) (hmark last false)

/-! ### The span on its line -/

theorem map_isWithin_placed {number column : Nat} {part : List Char} {highlighted : Bool}
    (h : ∀ here, column ≤ here → here < column + part.length →
      Location.isWithin ⟨number, here⟩ start stop = highlighted) :
    ((placed number column part).map fun entry => (⟨entry.2, entry.1.isWithin start stop⟩ : Cell)) =
      marked part highlighted := by
  have hentry : ∀ entry ∈ placed number column part,
      (⟨entry.2, entry.1.isWithin start stop⟩ : Cell) = ⟨entry.2, highlighted⟩ := by
    rintro ⟨⟨line, here⟩, c⟩ hmem
    obtain ⟨hline, hfirst, hlast, -⟩ := mem_placed hmem
    obtain rfl : line = number := hline
    rw [h here hfirst hlast]
  have hpart := congrArg (List.map fun c => (⟨c, highlighted⟩ : Cell))
    (map_snd_placed number column part)
  rw [List.map_map] at hpart
  rw [List.map_congr_left hentry]
  exact hpart

/-- Where the columns of a span are those behind one and up to another, they cut a line into
three. -/
theorem cells_eq_marked {number first last : Nat} {chars : List Char} (hle : first ≤ last)
    (hwithin : ∀ column, column ≤ chars.length →
      (Location.isWithin ⟨number, column⟩ start stop = true ↔ first < column ∧ column ≤ last)) :
    cells start stop number chars =
      marked (chars.take first) false ++ marked ((chars.take last).drop first) true ++
        marked (chars.drop last) false := by
  have hchars : chars.take first ++ (chars.take last).drop first ++ chars.drop last = chars := by
    have hfirst : (chars.take last).take first = chars.take first := by
      rw [List.take_take, Nat.min_eq_left hle]
    rw [← hfirst, List.take_append_drop, List.take_append_drop]
  have hbefore : ∀ here, 1 ≤ here → here < 1 + (chars.take first).length →
      Location.isWithin ⟨number, here⟩ start stop = false := by
    intro here _ hless
    rw [List.length_take] at hless
    rw [← Bool.not_eq_true, hwithin here (by omega)]
    omega
  have hmiddle : ∀ here, 1 + (chars.take first).length ≤ here →
      here < 1 + (chars.take first).length + ((chars.take last).drop first).length →
        Location.isWithin ⟨number, here⟩ start stop = true := by
    intro here hfirst hlast
    rw [List.length_take] at hfirst hlast
    rw [List.length_drop, List.length_take] at hlast
    rw [hwithin here (by omega)]
    omega
  have hbehind : ∀ here,
      1 + (chars.take first ++ (chars.take last).drop first).length ≤ here →
      here < 1 + (chars.take first ++ (chars.take last).drop first).length +
        (chars.drop last).length → Location.isWithin ⟨number, here⟩ start stop = false := by
    intro here hfirst hlast
    rw [List.length_append, List.length_drop, List.length_take, List.length_take] at hfirst hlast
    rw [List.length_drop] at hlast
    rw [← Bool.not_eq_true, hwithin here (by omega)]
    omega
  calc cells start stop number chars
    _ = (placed number 1 (chars.take first ++ (chars.take last).drop first ++ chars.drop last)).map
          fun entry => ⟨entry.2, entry.1.isWithin start stop⟩ := by rw [hchars, cells_eq]
    _ = _ := by
      rw [placed_append, placed_append, List.map_append, List.map_append,
        map_isWithin_placed hbefore, map_isWithin_placed hmiddle, map_isWithin_placed hbehind]

/-- The column up to which a span that stays on a line goes. It goes to the end of the line if it
ends on the next one. -/
def lastColumn (start stop : Location) (line : List Char) : Nat :=
  if stop.line = start.line then stop.column - 1 else line.length

theorem isWithin_iff_of_single (hstart : source.location? span.start = some start)
    (hstop : source.location? span.stop = some stop)
    (hsingle : start.line = lastLine start stop) (column : Nat) (hlast : column ≤ line.length) :
    Location.isWithin ⟨start.line, column⟩ start stop = true ↔
      start.column - 1 < column ∧ column ≤ lastColumn start stop line := by
  have hstartColumn := (one_le_of_location? hstart).2
  have hstopColumn := (one_le_of_location? hstop).2
  rw [Location.isWithin_iff, lastColumn]
  rw [lastLine] at hsingle
  dsimp only
  split at hsingle <;> split <;> omega

/-- Where a span stays on one line, its characters are those of the line from one column up to
another. -/
theorem charsIn_eq_of_single (hspan : source.span? span.start span.stop = some span)
    (hstart : source.location? span.start = some start)
    (hstop : source.location? span.stop = some stop)
    (hsingle : start.line = lastLine start stop) (hline : source.line? start.line = some line)
    (hle : start.column - 1 ≤ lastColumn start stop line) :
    source.charsIn span =
      (line.take (lastColumn start stop line)).drop (start.column - 1) := by
  have hcells := congrArg (List.map Cell.character)
    (filter_marked (line.take (start.column - 1))
      ((line.take (lastColumn start stop line)).drop (start.column - 1))
      (line.drop (lastColumn start stop line)))
  rw [← cells_eq_marked hle (isWithin_iff_of_single hstart hstop hsingle), cells_eq,
    List.filter_map, List.map_map, marked, List.map_map] at hcells
  have hlines := flatMap_charsWithin hspan hstart hstop (Nat.le_refl start.line)
    (show lastLine start stop < start.line + 1 by omega)
  rw [List.range'_one, List.flatMap_singleton, charsWithin, hline] at hlines
  rw [← hlines]
  exact hcells.trans (List.map_id _)

/-- Where a span stays on one line, its characters that end no line are what is highlighted of the
line. -/
theorem exists_parts_of_line (hspan : source.span? span.start span.stop = some span)
    (hstart : source.location? span.start = some start)
    (hstop : source.location? span.stop = some stop)
    (hsingle : start.line = lastLine start stop)
    (hcovers : ∃ c ∈ source.charsIn span, isLineEnd c = false) :
    ∃ (line first middle last : List Char), source.line? start.line = some line ∧
      cells start stop start.line (trimLineEnd line) =
        marked first false ++ marked middle true ++ marked last false ∧
      line.take (start.column - 1) = first ∧ trimLineEnd (source.charsIn span) = middle ∧
      middle ≠ [] ∧ ('\t' ∈ source.charsIn span ↔ '\t' ∈ middle) := by
  obtain ⟨entry, -, hline, -, hcolumn, -⟩ := exists_line_of_location? hstart
  generalize entry.chars = line at hline hcolumn
  have hle : start.column - 1 ≤ lastColumn start stop line := by
    have hbounds := location_le_of_span? hspan hstart hstop
    rw [lastColumn]
    split <;> omega
  have hchars := charsIn_eq_of_single hspan hstart hstop hsingle hline hle
  have hplain := (isBody_of_line? hline).plain
  obtain ⟨ending, hsplit, hending⟩ := (isBody_of_line? hline).exists_ending
  generalize htrim : trimLineEnd line = body at hsplit hplain
  have hcells := cells_eq_marked hle fun column (hlast : column ≤ body.length) => by
    have hlength : column ≤ line.length := by
      rw [hsplit, List.length_append]
      omega
    exact isWithin_iff_of_single hstart hstop hsingle column hlength
  generalize lastColumn start stop line = last at hle hchars hcells
  generalize start.column - 1 = first at hcolumn hle hchars hcells ⊢
  -- What the span has of the terminator of the line comes behind what is highlighted.
  obtain ⟨rest, hrest, hends⟩ : ∃ rest, source.charsIn span = (body.take last).drop first ++ rest ∧
      ∀ c ∈ rest, isLineEnd c = true := by
    rw [hsplit, List.take_append, List.drop_append] at hchars
    exact ⟨_, hchars, fun c hc => hending c (List.mem_of_mem_take (List.mem_of_mem_drop hc))⟩
  have hmiddle : ∀ c ∈ (body.take last).drop first, isLineEnd c = false :=
    fun c hc => hplain c (List.mem_of_mem_take (List.mem_of_mem_drop hc))
  have hne : (body.take last).drop first ≠ [] := by
    obtain ⟨c, hc, hcovered⟩ := hcovers
    rw [hrest, List.mem_append] at hc
    rcases hc with hinside | hend
    · exact List.ne_nil_of_mem hinside
    · rw [hends c hend] at hcovered
      cases hcovered
  have hfirst : first ≤ body.length := by
    have hlength := List.length_pos_iff.mpr hne
    rw [List.length_drop, List.length_take] at hlength
    omega
  refine ⟨line, body.take first, (body.take last).drop first, body.drop last, hline, ?_, ?_, ?_,
    hne, ?_⟩
  · rw [htrim, hcells]
  · rw [hsplit, List.take_append_of_le_length hfirst]
  · rw [hrest, trimLineEnd_append_of_isLineEnd hends, trimLineEnd_eq_self hmiddle]
  · have htab : '\t' ∉ rest := fun hmem => absurd (hends '\t' hmem) (by decide)
    rw [hrest, List.mem_append, or_iff_left htab]

/-! ### Where the carets stand -/

/-- The row of a span that stays on one line is the last one above the carets. -/
theorem exists_rowsAbove_of_single {row : Row} (hpos : 1 ≤ start.line)
    (hsingle : start.line = lastLine start stop)
    (hrow : lineRow? source start stop start.line = some row) :
    ∃ above, rowsAbove source start stop = above ++ [row] := by
  have hcount : lastLine start stop + 2 - start.line = 1 + 1 := by omega
  have hnumber : start.line - 1 + 1 = start.line := by omega
  refine ⟨[.heading start, .gutter] ++ (List.range' (start.line - 1) 1).filterMap
    (lineRow? source start stop), ?_⟩
  rw [rowsAbove, hcount, List.range'_1_concat, hnumber, List.filterMap_append,
    List.filterMap_cons_some hrow, List.filterMap_nil, List.append_assoc]

/-- The numbers of the lines are padded so that all rows begin in the same cell. -/
theorem exists_gutter_render_line (path : String) {width number : Nat} (cells : List Cell)
    (h : digitCount number ≤ width) :
    ∃ gutter : List Char, gutter.length = width + 3 ∧
      (((Row.line number cells).printed path width).render false).toList =
        gutter ++ (shownCells cells).map Prod.fst := by
  have hcells : (shownCells cells).map Prod.fst = (cells.map Cell.character).flatMap cellText := by
    rw [shownCells, List.flatMap_map, List.map_flatMap]
    apply List.flatMap_congr
    intro cell _
    rw [List.map_map]
    exact List.map_id _
  refine ⟨gutterText width (Nat.toDigits 10 number) ++ [' '], ?_, ?_⟩
  · rw [digitCount] at h
    simp [gutterText]
    omega
  · rw [toList_render_line, lineText, hcells, List.append_assoc, List.singleton_append]

/-- The row of carets is printed up to the bar, and behind it if the indent is not too wide. -/
theorem toList_render_carets (path : String) (width indent count : Nat) (help : Option String) :
    (((Row.carets indent count help).printed path width).render false).toList =
      List.replicate width ' ' ++ [' ', '┃', ' '] ++
        if indent ≤ widestSpace then
          List.replicate indent ' ' ++ List.replicate count '^' ++
            (help.map fun content => " help: ".toList ++ content.toList).getD []
        else [] := by
  split
  · next hfits =>
    rw [toList_render_caretRow path width count help hfits, caretText, gutterText]
    simp
  · next hwide =>
    have hparts : ((Row.carets indent count help).printed path width).parts =
        [concat [emptyGutter width, " "]] := by
      rw [Row.printed, pad_of_lt (Nat.lt_of_not_le hwide)]
      rfl
    rw [toList_render, hparts, List.flatMap_singleton, toList_render_caretFront, gutterText]
    simp

/-- How carets stand under what is highlighted. Where a span stays on one line and has characters
that end no line, the row of carets follows the row that shows the line, and the two begin in the
same cell of the terminal. There is a caret for each highlighted character, the first one under the
first highlighted cell. So the carets are under the highlighted cells, from the first to the last,
exactly if there is no tab in the span: a tab is four cells above and one caret below. There are no
carets, and the program panics, if the first highlighted cell is further to the right than space
can be wide. -/
theorem carets_ofSpan (hspan : source.span? span.start span.stop = some span)
    (hsingle : (source.location span.start).line =
      lastLine (source.location span.start) (source.location span.stop))
    (hcovers : ∃ c ∈ source.charsIn span, isLineEnd c = false) (help : Option String) :
    ∃ above below cells indent count, ∃ gutter empty behind : List Char,
      (ofSpan source span help).rows = above ++
        .line (source.location span.start).line cells :: .carets indent count help :: below ∧
      (((Row.line (source.location span.start).line cells).printed source.path
        (ofSpan source span help).width).render false).toList =
          gutter ++ (shownCells cells).map Prod.fst ∧
      (((Row.carets indent count help).printed source.path
        (ofSpan source span help).width).render false).toList =
          empty ++ (if indent ≤ widestSpace
            then List.replicate indent ' ' ++ List.replicate count '^' ++ behind else []) ∧
      ((ofSpan source span help).printed.panicked = true ↔ widestSpace < indent) ∧
      gutter.length = empty.length ∧
      count = (cells.filter Cell.highlighted).length ∧
      (highlightedPositions cells).head? = some indent ∧
      (highlightedPositions cells = List.range' indent count ↔ '\t' ∉ source.charsIn span) := by
  obtain ⟨start, stop, hstart, hstop, hpos, -, -, -, -, hrows⟩ := Source.exists_rows_of_span? hspan
  have hlocation : source.location span.start = start := by rw [location, hstart, Option.getD_some]
  have hend : source.location span.stop = stop := by rw [location, hstop, Option.getD_some]
  rw [hlocation, hend] at hsingle
  rw [hlocation, hrows help]
  obtain ⟨line, first, middle, last, hline, hcells, hfirst, hmiddle, hne, htab⟩ :=
    exists_parts_of_line hspan hstart hstop hsingle hcovers
  have hrow := lineRow?_eq_some_iff.mpr ⟨line, hline, congrArg (Row.line start.line) hcells⟩
  have hindent : caretIndent source start = (first.flatMap cellText).length := by
    rw [caretIndent, hline, Option.getD_some, hfirst, cellsWidth_eq]
  have hcarets : caretRow source span start help =
      .carets (first.flatMap cellText).length middle.length help := by
    rw [caretRow, hindent, hmiddle, if_neg (fun hzero => hne (List.length_eq_zero_iff.mp hzero))]
  obtain ⟨above, habove⟩ := exists_rowsAbove_of_single hpos hsingle hrow
  have hsplit := rowsOf_of_single source span help hsingle
  rw [hcarets, habove, List.append_assoc, List.singleton_append] at hsplit
  have hwidth : digitCount start.line ≤ (ofSpan source span help).width := by
    rw [ofSpan, hlocation, hend]
    exact digitCount_le (by omega)
  obtain ⟨gutter, hlength, hgutter⟩ := exists_gutter_render_line source.path
    (marked first false ++ marked middle true ++ marked last false) hwidth
  refine ⟨above, rowsBelow source start stop, _, _, _, gutter, _, _, hsplit, hgutter,
    toList_render_carets _ _ _ _ _, ?_, ?_, ?_, ?_, ?_⟩
  · rw [panicked_ofSpan hstart hstop, hindent, and_iff_right hsingle]
  · rw [hlength, List.length_append, List.length_replicate]
    rfl
  · rw [filter_marked, marked, List.length_map]
  · have hpositive := length_le_flatMap_cellText middle
    have hsome := List.length_pos_iff.mpr hne
    rw [highlightedPositions_marked, List.head?_range', if_neg (by omega)]
  · rw [highlightedPositions_marked, htab, ← length_eq_flatMap_cellText_iff]
    constructor
    · intro hrange
      have hlengths := congrArg List.length hrange
      rw [List.length_range', List.length_range'] at hlengths
      exact hlengths.symm
    · intro heq
      rw [heq]

/-- A tab in front of the span is as wide in the row of carets as above it. -/
theorem carets_ofSpan_behind_tab :
    (Source.ofText "a" "\tbc\n").span? 1 3 = some ⟨1, 3⟩ ∧
    ∃ above below cells indent count,
      (ofSpan (.ofText "a" "\tbc\n") ⟨1, 3⟩ none).rows =
        above ++ .line 1 cells :: .carets indent count none :: below ∧
      highlightedPositions cells = List.range' indent count := by
  have hspan : (Source.ofText "a" "\tbc\n").span? 1 3 = some ⟨1, 3⟩ := by decide
  have hcovers : ∃ c ∈ (Source.ofText "a" "\tbc\n").charsIn ⟨1, 3⟩, isLineEnd c = false :=
    ⟨'b', by decide, by decide⟩
  obtain ⟨above, below, cells, indent, count, -, -, -, hrows, -, -, -, -, -, -, hcarets⟩ :=
    @carets_ofSpan _ ⟨1, 3⟩ hspan (by decide) hcovers none
  exact ⟨hspan, above, below, cells, indent, count, hrows, hcarets.mpr (by decide)⟩

/-- Three carets stand under the six cells of two letters and a tab between them. -/
theorem carets_short_of_tab :
    (Source.ofText "a" "b\tc\n").span? 0 3 = some ⟨0, 3⟩ ∧
    (ofSpan (.ofText "a" "b\tc\n") ⟨0, 3⟩ none).rows =
      [.heading ⟨1, 1⟩, .gutter, .line 1 [⟨'b', true⟩, ⟨'\t', true⟩, ⟨'c', true⟩],
        .carets 0 3 none, .line 2 [], .gutter] ∧
    highlightedPositions [⟨'b', true⟩, ⟨'\t', true⟩, ⟨'c', true⟩] = [0, 1, 2, 3, 4, 5] ∧
    List.range' 0 3 ≠ [0, 1, 2, 3, 4, 5] := by
  decide

end Excerpt

end TokenScan
