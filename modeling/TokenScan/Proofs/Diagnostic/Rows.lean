import TokenScan.Proofs.Scan.Bounds
import TokenScan.Proofs.Source.Placement

/-!
The source rows of an excerpt. A cell is chosen by comparing its line and column with the ends of
the span, while the span is a range of bytes. Locations come in the order of their offsets, so the
cells chosen on one line are those of the characters of the span on it, and the rows go through all
the lines on which the span has any.
-/

namespace TokenScan

open Text

theorem Location.isWithin_iff {here start stop : Location} :
    here.isWithin start stop = true ↔
      (start.line < here.line ∨ start.line = here.line ∧ start.column ≤ here.column) ∧
        (here.line < stop.line ∨ here.line = stop.line ∧ here.column < stop.column) := by
  have hbefore (first second : Location) : first.isBefore second = true ↔
      first.line < second.line ∨ first.line = second.line ∧ first.column < second.column := by
    rw [isBefore, Ordering.isLT_iff_eq_lt, order_eq_lt_iff]
  rw [isWithin, Bool.and_eq_true, Bool.not_eq_true', ← Bool.not_eq_true, hbefore, hbefore]
  omega

namespace Source

variable {source : Source} {span : Span} {start stop location : Location} {offset number : Nat}

theorem isWithin_iff (hstart : source.location? span.start = some start)
    (hstop : source.location? span.stop = some stop)
    (hlocation : source.location? offset = some location) :
    location.isWithin start stop = true ↔ span.start ≤ offset ∧ offset < span.stop := by
  rw [Location.isWithin, Bool.and_eq_true, Bool.not_eq_true', ← Bool.not_eq_true,
    Location.isBefore, Location.isBefore, order_eq_compare hlocation hstart,
    order_eq_compare hlocation hstop, Ordering.isLT_iff_eq_lt, Ordering.isLT_iff_eq_lt,
    Nat.compare_eq_lt, Nat.compare_eq_lt, Nat.not_lt]

/-- A span does not end before it begins. -/
theorem location_le_of_span? (hspan : source.span? span.start span.stop = some span)
    (hstart : source.location? span.start = some start)
    (hstop : source.location? span.stop = some stop) :
    start.line < stop.line ∨ start.line = stop.line ∧ start.column ≤ stop.column := by
  obtain ⟨between, hslice, -⟩ := Option.map_eq_some_iff.mp hspan
  obtain ⟨before, after, -, hbefore, hbehind⟩ := slice?_eq_some_iff.mp hslice
  have hle : span.start ≤ span.stop := by
    rw [byteLength_append] at hbehind
    omega
  have hnot : ¬ stop.order start = .lt := by
    rw [order_eq_compare hstop hstart, Nat.compare_eq_lt]
    exact Nat.not_lt.mpr hle
  rw [Location.order_eq_lt_iff] at hnot
  omega

theorem line_le_lastLine (hspan : source.span? span.start span.stop = some span)
    (hstart : source.location? span.start = some start)
    (hstop : source.location? span.stop = some stop) :
    start.line ≤ Excerpt.lastLine start stop := by
  have hle := location_le_of_span? hspan hstart hstop
  rw [Excerpt.lastLine]
  split <;> omega

def charsWithin (source : Source) (start stop : Location) (number : Nat) : List Char :=
  ((placed number 1 ((source.line? number).getD [])).filter fun entry =>
    entry.1.isWithin start stop).map Prod.snd

/-- There is nothing of a span above the line on which it begins, nor below that on which it
ends. -/
theorem charsWithin_eq_nil (source : Source)
    (h : number < start.line ∨ Excerpt.lastLine start stop < number) :
    source.charsWithin start stop number = [] := by
  rw [charsWithin, List.map_eq_nil_iff, List.filter_eq_nil_iff]
  rintro ⟨here, c⟩ hentry hwithin
  obtain ⟨hline, hcolumn, -, -⟩ := mem_placed hentry
  obtain ⟨hlate, hearly⟩ := Location.isWithin_iff.mp hwithin
  dsimp only at hlate hearly
  rw [Excerpt.lastLine] at h
  split at h <;> omega

/-- Lines that hold a span have its characters. -/
theorem flatMap_charsWithin {first count : Nat}
    (hspan : source.span? span.start span.stop = some span)
    (hstart : source.location? span.start = some start)
    (hstop : source.location? span.stop = some stop) (hfirst : first ≤ start.line)
    (hlast : Excerpt.lastLine start stop < first + count) :
    (List.range' first count).flatMap (source.charsWithin start stop) = source.charsIn span := by
  obtain ⟨between, hslice, -⟩ := Option.map_eq_some_iff.mp hspan
  have hall := filter_located hslice hstart hstop
  rw [located_eq, List.filter_flatMap, List.map_flatMap] at hall
  have hnone (number : Nat) (h : number < start.line ∨ Excerpt.lastLine start stop < number) :=
    source.charsWithin_eq_nil h
  have hbounds := line_le_lastLine hspan hstart hstop
  have hpos : 1 ≤ start.line := (one_le_of_location? hstart).1
  have hcount : Excerpt.lastLine start stop < 1 + source.lineCount := by
    obtain ⟨line, hline, -⟩ := exists_line_of_location? hstop
    obtain ⟨hindex, -⟩ := List.getElem?_eq_some_iff.mp hline
    rw [Excerpt.lastLine, lineCount]
    split <;> omega
  rw [flatMap_range'_eq hnone hfirst hbounds hlast, ← flatMap_range'_eq hnone hpos hbounds hcount,
    charsIn, hslice, Option.getD_some]
  exact hall

end Source

namespace Excerpt

open Source

variable {source : Source} {span : Span} {start stop : Location} {help : Option String}
  {number : Nat} {line : List Char}

def Row.highlighted : Row → List Char
  | .line _ cells => (cells.filter Cell.highlighted).flatMap fun cell => cellText cell.character
  | .heading _ | .gutter | .carets _ _ _ | .note _ => []

theorem cells_eq (start stop : Location) (number : Nat) (line : List Char) :
    cells start stop number line = (placed number 1 line).map fun entry =>
      ⟨entry.2, entry.1.isWithin start stop⟩ := by
  rw [cells, placed, List.map_map]
  rfl

theorem lineRow?_eq_some_iff {row : Row} : lineRow? source start stop number = some row ↔
    ∃ line, source.line? number = some line ∧
      .line number (cells start stop number (trimLineEnd line)) = row :=
  Option.map_eq_some_iff

theorem mem_range'_of_line? (h : source.line? number = some line) :
    number ∈ List.range' 1 source.lineCount := by
  cases number with
  | zero => cases h
  | succ index =>
    obtain ⟨entry, hentry, -⟩ := Option.map_eq_some_iff.mp h
    obtain ⟨hindex, -⟩ := List.getElem?_eq_some_iff.mp hentry
    rw [List.mem_range'_1, lineCount]
    omega

theorem isBody_of_line? (h : source.line? number = some line) :
    IsBody (trimLineEnd line) line := by
  cases number with
  | zero => cases h
  | succ index =>
    obtain ⟨entry, hentry, rfl⟩ := Option.map_eq_some_iff.mp h
    have hmem := List.mem_of_getElem? hentry
    rw [source.lines_eq] at hmem
    exact isBody_of_mem_linesFrom hmem

/-- What is left of a line are its characters that end no line, where they stand on it. -/
theorem filter_placed_line (h : source.line? number = some line) (column : Nat) :
    ((placed number column line).filter fun entry => !isLineEnd entry.2) =
      placed number column (trimLineEnd line) := by
  have hbody := isBody_of_line? h
  obtain ⟨ending, hsplit, hending⟩ := hbody.exists_ending
  have hfirst : ∀ entry ∈ placed number column (trimLineEnd line),
      (!isLineEnd entry.2) = true := by
    intro entry hentry
    rw [hbody.plain _ (mem_placed hentry).2.2.2, Bool.not_false]
  have hsecond : ∀ entry ∈ placed number (column + (trimLineEnd line).length) ending,
      ¬ (!isLineEnd entry.2) = true := by
    intro entry hentry
    rw [hending _ (mem_placed hentry).2.2.2, Bool.not_true]
    exact Bool.false_ne_true
  calc (placed number column line).filter fun entry => !isLineEnd entry.2
    _ = (placed number column (trimLineEnd line ++ ending)).filter fun entry =>
          !isLineEnd entry.2 := by rw [← hsplit]
    _ = placed number column (trimLineEnd line) := by
      rw [placed_append, List.filter_append, List.filter_eq_self.mpr hfirst,
        List.filter_eq_nil_iff.mpr hsecond, List.append_nil]

/-- A row that shows a line highlights the characters on it that are in the span and end no line. -/
theorem highlighted_lineRow? (source : Source) (start stop : Location) (number : Nat) :
    (lineRow? source start stop number).toList.flatMap Row.highlighted =
      ((source.charsWithin start stop number).filter fun c => !isLineEnd c).flatMap cellText := by
  rw [lineRow?, charsWithin]
  cases hline : source.line? number with
  | none => rfl
  | some line =>
    have hcells : (cells start stop number (trimLineEnd line)).filter Cell.highlighted =
        (((placed number 1 line).filter fun entry => entry.1.isWithin start stop).filter
          fun entry => !isLineEnd entry.2).map fun entry =>
            ⟨entry.2, entry.1.isWithin start stop⟩ := by
      rw [List.filter_comm, filter_placed_line hline, cells_eq, List.filter_map]
      rfl
    simp only [Option.map_some, Option.toList_some, List.flatMap_singleton, Option.getD_some,
      Row.highlighted]
    rw [hcells, List.filter_map, List.flatMap_map, List.flatMap_map]
    rfl

/-- The rows of an excerpt highlight the characters of the span that end no line. -/
theorem highlighted_rowsOf (hspan : source.span? span.start span.stop = some span)
    (hstart : source.location? span.start = some start)
    (hstop : source.location? span.stop = some stop) (help : Option String) :
    (rowsOf source span start stop help).flatMap Row.highlighted =
      ((source.charsIn span).filter fun c => !isLineEnd c).flatMap cellText := by
  have hpos := (one_le_of_location? hstart).1
  have hbounds := line_le_lastLine hspan hstart hstop
  have hrows : (rowsOf source span start stop help).flatMap Row.highlighted =
      (List.range' (start.line - 1) (lastLine start stop + 2 - start.line) ++
        [lastLine start stop + 1]).flatMap fun number =>
          (lineRow? source start stop number).toList.flatMap Row.highlighted := by
    have hnote : (help.map Row.note).toList.flatMap Row.highlighted = [] := by
      cases help <;> rfl
    rw [rowsOf, List.flatMap_append, List.flatMap_singleton, ← List.flatMap_assoc,
      ← List.filterMap_eq_flatMap_toList]
    split
    · simp [Row.highlighted, caretRow]
    · simp [Row.highlighted, hnote]
  -- The line below the span has the next number after those of the lines above.
  have hnext : lastLine start stop + 1 =
      start.line - 1 + (lastLine start stop + 2 - start.line) := by omega
  rw [hrows, hnext, ← List.range'_1_concat]
  simp only [highlighted_lineRow?]
  rw [← List.flatMap_assoc, ← List.filter_flatMap, flatMap_charsWithin hspan hstart hstop] <;> omega

/-- Nothing is highlighted below the last line of the span. -/
theorem highlighted_rowsBelow (source : Source) (start stop : Location) :
    (rowsBelow source start stop).flatMap Row.highlighted = [] := by
  have hnone : source.charsWithin start stop (lastLine start stop + 1) = [] :=
    source.charsWithin_eq_nil (.inr (Nat.lt_succ_self (lastLine start stop)))
  rw [rowsBelow, List.flatMap_append, highlighted_lineRow?, hnone]
  rfl

/-- The lines of a span are shown. -/
theorem mem_rowsAbove_of_lineRow? {row : Row} (h : lineRow? source start stop number = some row)
    (hfirst : start.line ≤ number) (hlast : number ≤ lastLine start stop) :
    row ∈ rowsAbove source start stop := by
  have hlines : row ∈ (List.range' (start.line - 1)
      (lastLine start stop + 2 - start.line)).filterMap (lineRow? source start stop) := by
    refine List.mem_filterMap.mpr ⟨number, ?_, h⟩
    rw [List.mem_range'_1]
    omega
  exact List.mem_append_right _ hlines

/-- Each cell of a row that shows a line stands for the character at the location where it is, and
is highlighted if the offset of the character is in the span. -/
theorem exists_offset_of_cell (hstart : source.location? span.start = some start)
    (hstop : source.location? span.stop = some stop) (hline : source.line? number = some line)
    {index : Nat} {cell : Cell}
    (hcell : (cells start stop number (trimLineEnd line))[index]? = some cell) :
    ∃ before after, source.chars = before ++ cell.character :: after ∧
      source.location? (byteLength before) = some ⟨number, index + 1⟩ ∧
      (cell.highlighted = true ↔
        span.start ≤ byteLength before ∧ byteLength before < span.stop) := by
  rw [cells_eq, List.getElem?_map] at hcell
  obtain ⟨⟨here, c⟩, hentry, rfl⟩ := Option.map_eq_some_iff.mp hcell
  have hhere : here = ⟨number, index + 1⟩ := by
    rw [placed, List.getElem?_map, List.getElem?_zipIdx, Option.map_map] at hentry
    obtain ⟨d, -, hpair⟩ := Option.map_eq_some_iff.mp hentry
    rw [← (Prod.mk.inj hpair).1, Nat.add_comm]
  have hplaced : (here, c) ∈ placed number 1 line := by
    have hmem := List.mem_of_getElem? hentry
    rw [← filter_placed_line hline] at hmem
    exact (List.mem_filter.mp hmem).1
  have hlocated : (here, c) ∈ located ⟨1, 1⟩ [] source.chars := by
    have hnumber := mem_range'_of_line? hline
    rw [located_eq]
    refine List.mem_flatMap.mpr ⟨number, hnumber, ?_⟩
    rw [hline]
    exact hplaced
  obtain ⟨before, after, hchars, hwalk⟩ := exists_append_of_mem_located hlocated
  rw [List.append_nil] at hwalk
  have hlocation : source.location? (byteLength before) = some here := by
    rw [location?_of_append hchars, ← hwalk]
  refine ⟨before, after, hchars, ?_, isWithin_iff hstart hstop hlocation⟩
  rw [hlocation, hhere]

/-- The line that a character of the span is on is shown. -/
theorem exists_row_of_location? (hstart : source.location? span.start = some start)
    (hstop : source.location? span.stop = some stop) {offset : Nat} {location : Location}
    (hlocation : source.location? offset = some location) (hfirst : span.start ≤ offset)
    (hlast : offset < span.stop) :
    ∃ cells, Row.line location.line cells ∈ rowsAbove source start stop := by
  obtain ⟨line, -, hline, -⟩ := exists_line_of_location? hlocation
  have hcolumn := (one_le_of_location? hlocation).2
  have hwithin := (isWithin_iff hstart hstop hlocation).mpr ⟨hfirst, hlast⟩
  obtain ⟨hlate, hearly⟩ := Location.isWithin_iff.mp hwithin
  have hrow : lineRow? source start stop location.line =
      some (.line location.line (cells start stop location.line (trimLineEnd line.chars))) :=
    lineRow?_eq_some_iff.mpr ⟨line.chars, hline, rfl⟩
  refine ⟨_, mem_rowsAbove_of_lineRow? hrow (by omega) ?_⟩
  rw [lastLine]
  split <;> omega

end Excerpt

end TokenScan
