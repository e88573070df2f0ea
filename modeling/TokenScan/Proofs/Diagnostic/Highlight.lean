import TokenScan.Proofs.Diagnostic.Rows

/-!
What a terminal highlights of an excerpt. Only the cells of the span are underlined, so what is
drawn with the pen for highlights is what the rows of the excerpt highlight, and that is the span.
-/

namespace TokenScan

open Text

def Pen.highlight : Pen :=
  { bold := true, underline := true, foreground := some .red }

/-- Of some characters and the pens they are drawn with, those that are highlighted. -/
def highlighted (drawn : List (Char × Pen)) : List Char :=
  (drawn.filter fun entry => entry.2 = Pen.highlight).map Prod.fst

theorem highlighted_append (first second : List (Char × Pen)) :
    highlighted (first ++ second) = highlighted first ++ highlighted second := by
  rw [highlighted, List.filter_append, List.map_append]
  rfl

theorem highlighted_flatMap {α : Type} (parts : List α) (drawn : α → List (Char × Pen)) :
    highlighted (parts.flatMap drawn) = parts.flatMap fun part => highlighted (drawn part) := by
  rw [highlighted, List.filter_flatMap, List.map_flatMap]
  rfl

theorem highlighted_eq_nil {drawn : List (Char × Pen)}
    (h : ∀ entry ∈ drawn, entry.2.underline = false) : highlighted drawn = [] := by
  rw [highlighted, List.map_eq_nil_iff, List.filter_eq_nil_iff]
  intro entry hentry hpen
  have hunderline := h entry hentry
  rw [of_decide_eq_true hpen] at hunderline
  cases hunderline

namespace Excerpt

open Printed Styled

def Cell.pen (cell : Cell) : Pen :=
  if cell.highlighted then .highlight else {}

def Cell.drawn (cell : Cell) : List (Char × Pen) :=
  (cellText cell.character).map fun c => (c, cell.pen)

theorem drawn_cell (cell : Cell) : cell.styled.drawn = cell.drawn := by
  have hshown : (String.ofList (cellText cell.character)).toList = cellText cell.character :=
    String.toList_ofList
  rw [Cell.styled, Cell.drawn, Cell.pen]
  cases cell.highlighted with
  | true =>
    rw [if_pos rfl, if_pos rfl, drawn, drawn_marks_painted, drawn_marks_painted,
      drawn_marks_painted, marks, hshown, Mark.drawn_map_shown]
    rfl
  | false =>
    rw [if_neg Bool.false_ne_true, if_neg Bool.false_ne_true, drawn_text, hshown]

theorem highlighted_drawn_cells (cells : List Cell) :
    highlighted (cells.flatMap Cell.drawn) =
      (cells.filter Cell.highlighted).flatMap fun cell => cellText cell.character := by
  induction cells with
  | nil => rfl
  | cons cell cells ih =>
    have hfirst : highlighted cell.drawn =
        if cell.highlighted then cellText cell.character else [] := by
      rw [highlighted, Cell.drawn, Cell.pen]
      cases cell.highlighted <;> simp [List.filter_map, Function.comp_def, Pen.highlight]
    rw [List.flatMap_cons, highlighted_append, ih, hfirst, List.filter_cons]
    cases cell.highlighted <;> rfl

/-- A row that shows a line draws a gutter without any underline, and then the cells. -/
theorem exists_gutter_of_line (path : String) (width number : Nat) (cells : List Cell) :
    ∃ gutter, ((Row.line number cells).printed path width).styled.drawn =
        gutter ++ cells.flatMap Cell.drawn ∧
      ∀ entry ∈ gutter, entry.2.underline = false := by
  have hcells : (cells.map Cell.styled).flatMap drawn = cells.flatMap Cell.drawn := by
    rw [List.flatMap_map]
    exact List.flatMap_congr fun cell _ => drawn_cell cell
  rw [Row.printed, drawn_write, drawn_concat, List.flatMap_append, hcells]
  refine ⟨_, rfl, ?_⟩
  rw [← drawn_concat]
  apply underline_of_mem_drawn
  simp [marks_concat, marks, bar]

theorem underline_not_mem_emptyGutter (width : Nat) :
    Mark.on .underline ∉ (concat [emptyGutter width, " "]).marks := by
  simp [emptyGutter, bar, marks_concat, marks]

theorem underline_of_mem_drawn_row {path : String} {width : Nat} {row : Row}
    (h : ∀ number cells, row ≠ .line number cells) :
    ∀ entry ∈ (row.printed path width).styled.drawn, entry.2.underline = false := by
  apply underline_of_mem_drawn_styled
  cases row with
  | line number cells => exact absurd rfl (h number cells)
  | heading location => simp [Row.printed, marks_concat, marks]
  | gutter => simp [Row.printed, emptyGutter, bar, marks_concat, marks]
  | carets indent count help =>
    intro part hpart
    obtain ⟨printed, hprinted, hmem⟩ := exists_of_mem_parts_sequence hpart
    simp only [List.mem_cons, List.not_mem_nil, or_false] at hprinted
    rcases hprinted with rfl | rfl | rfl
    · rw [List.mem_singleton.mp hmem]
      exact underline_not_mem_emptyGutter width
    · rw [eq_spaces_of_mem_parts_pad hmem]
      simp [marks]
    · rw [List.mem_singleton.mp hmem]
      cases help <;> simp [helpText, marks_concat, marks]
  | note content => simp [Row.printed, helpText, marks_concat, marks]

/-- A terminal highlights of a row what the row does. -/
theorem highlighted_drawn_row (path : String) (width : Nat) (row : Row) :
    highlighted (row.printed path width).styled.drawn = row.highlighted := by
  cases row with
  | line number cells =>
    obtain ⟨gutter, hdrawn, hgutter⟩ := exists_gutter_of_line path width number cells
    rw [hdrawn, highlighted_append, highlighted_eq_nil hgutter, highlighted_drawn_cells]
    rfl
  | heading _ | gutter | carets _ _ _ | note _ =>
    exact highlighted_eq_nil (underline_of_mem_drawn_row nofun)

/-- What is drawn of a row on a line of its own. -/
def Row.drawnLine (path : String) (width : Nat) (row : Row) : List (Char × Pen) :=
  (row.printed path width).styled.drawn ++ [('\n', ({} : Pen))]

theorem flatMap_drawn_parts (path : String) (width : Nat) (rows : List Row) :
    (rows.flatMap fun row => (row.printed path width).parts ++ [text "\n"]).flatMap drawn =
      rows.flatMap (Row.drawnLine path width) := by
  rw [List.flatMap_assoc]
  apply List.flatMap_congr
  intro row _
  rw [List.flatMap_append, ← drawn_styled, List.flatMap_singleton, drawn_text]
  rfl

theorem highlighted_drawnLines (path : String) (width : Nat) (rows : List Row) :
    highlighted (rows.flatMap (Row.drawnLine path width)) = rows.flatMap Row.highlighted := by
  rw [highlighted_flatMap]
  apply List.flatMap_congr
  intro row _
  rw [Row.drawnLine, highlighted_append, highlighted_drawn_row]
  exact List.append_nil _

/-- A row shows a line of a source without its terminator. It is drawn as a gutter and the cells of
the line, and each cell is highlighted if its character is in the span. -/
structure ShowsLine (source : Source) (span : Span) (path : String) (width number : Nat)
    (cells : List Cell) : Prop where
  line : ∃ line, source.line? number = some line ∧ cells.map Cell.character = trimLineEnd line
  drawn : ∃ gutter, ((Row.line number cells).printed path width).styled.drawn =
      gutter ++ cells.flatMap Cell.drawn ∧
    ∀ entry ∈ gutter, entry.2.underline = false
  offset : ∀ index cell, cells[index]? = some cell →
    ∃ before after, source.chars = before ++ cell.character :: after ∧
      source.location? (byteLength before) = some ⟨number, index + 1⟩ ∧
      (cell.highlighted = true ↔
        span.start ≤ byteLength before ∧ byteLength before < span.stop)

variable {source : Source} {span : Span} {start stop : Location} {number : Nat} {row : Row}

theorem showsLine_of_lineRow? (hstart : source.location? span.start = some start)
    (hstop : source.location? span.stop = some stop) (path : String) (width : Nat)
    (h : lineRow? source start stop number = some row) :
    ∃ cells, row = .line number cells ∧ ShowsLine source span path width number cells := by
  obtain ⟨line, hline, rfl⟩ := lineRow?_eq_some_iff.mp h
  refine ⟨_, rfl, ?_, exists_gutter_of_line path width number _,
    fun _ _ => exists_offset_of_cell hstart hstop hline⟩
  refine ⟨line, hline, ?_⟩
  rw [cells_eq, List.map_map]
  exact map_snd_placed number 1 (trimLineEnd line)

/-- An excerpt is drawn row by row. If the carets cannot be printed, what is drawn are the rows
above them, which highlight as much as all the rows, and the front of the next row. -/
theorem exists_shown_ofSpan (hstart : source.location? span.start = some start)
    (hstop : source.location? span.stop = some stop) (help : Option String) :
    ∃ (shown rest : List Row) (behind : List (Char × Pen)),
      (ofSpan source span help).rows = shown ++ rest ∧
      rowsAbove source start stop <+: shown ∧
      rest.flatMap Row.highlighted = [] ∧
      (ofSpan source span help).printed.styled.drawn =
        shown.flatMap (Row.drawnLine source.path (ofSpan source span help).width) ++ behind ∧
      (∀ entry ∈ behind, entry.2.underline = false) ∧
      ((ofSpan source span help).printed.panicked = false → rest = [] ∧ behind = []) := by
  have hrows := rows_ofSpan hstart hstop help
  cases hpanicked : (ofSpan source span help).printed.panicked with
  | false =>
    refine ⟨_, [], [], (List.append_nil _).symm, ?_, rfl, ?_, nofun, fun _ => ⟨rfl, rfl⟩⟩
    · rw [hrows]
      exact rowsAbove_isPrefix source span start stop help
    · rw [drawn_styled, parts_printed hpanicked, flatMap_drawn_parts, List.append_nil]
      rfl
  | true =>
    have hsingle := ((panicked_ofSpan hstart hstop help).mp hpanicked).1
    rw [rowsOf_of_single source span help hsingle] at hrows
    refine ⟨_, _, (concat [emptyGutter (ofSpan source span help).width, " "]).drawn, hrows,
      List.prefix_rfl, ?_, ?_, ?_, nofun⟩
    · rw [List.flatMap_cons, highlighted_rowsBelow]
      rfl
    · rw [drawn_styled, parts_printed_ofSpan_of_panicked hstart hstop hpanicked,
        List.flatMap_append, flatMap_drawn_parts, List.flatMap_singleton]
    · exact underline_of_mem_drawn (underline_not_mem_emptyGutter _)

/-- The highlight is the span. In order, the characters drawn highlighted are those of the span that
end no line, and so a terminal draws them if the help has no escape either. The excerpt is drawn row
by row, in each row that shows a line the characters of the span are highlighted and no others, and
in the rest of it nothing is underlined. The line of each character of the span is shown. All this
holds of what is drawn before a panic as well, which leaves rows out only where it happens. -/
theorem highlighted_ofSpan (hspan : source.span? span.start span.stop = some span)
    (hpath : '\x1b' ∉ source.path.toList) (hchars : '\x1b' ∉ source.chars) (help : Option String) :
    ∃ (shown rest : List Row) (behind : List (Char × Pen)),
      highlighted (ofSpan source span help).printed.styled.drawn =
        ((source.charsIn span).filter fun c => !isLineEnd c).flatMap cellText ∧
      ((∀ content ∈ help, '\x1b' ∉ content.toList) →
        drawnBy ((ofSpan source span help).printed.render true) =
          (ofSpan source span help).printed.styled.drawn) ∧
      (ofSpan source span help).rows = shown ++ rest ∧
      (ofSpan source span help).printed.styled.drawn =
        shown.flatMap (fun row =>
          (row.printed source.path (ofSpan source span help).width).styled.drawn ++
            [('\n', ({} : Pen))]) ++ behind ∧
      (∀ row ∈ shown,
        (∃ number cells, row = .line number cells ∧
          ShowsLine source span source.path (ofSpan source span help).width number cells) ∨
        ∀ entry ∈ (row.printed source.path (ofSpan source span help).width).styled.drawn,
          entry.2.underline = false) ∧
      (∀ entry ∈ behind, entry.2.underline = false) ∧
      ((ofSpan source span help).printed.panicked = false → rest = [] ∧ behind = []) ∧
      ∀ before c after, source.chars = before ++ c :: after →
        span.start ≤ byteLength before → byteLength before < span.stop →
        ∃ location cells, source.location? (byteLength before) = some location ∧
          Row.line location.line cells ∈ shown := by
  obtain ⟨start, stop, hstart, hstop, -, -, -, -, -, hrows⟩ := Source.exists_rows_of_span? hspan
  obtain ⟨shown, rest, behind, hsplit, habove, hrest, hdrawn, hbehind, hall⟩ :=
    exists_shown_ofSpan hstart hstop help
  rw [hrows help] at hsplit
  refine ⟨shown, rest, behind, ?_, ?_, (hrows help).trans hsplit, hdrawn, ?_, hbehind, hall, ?_⟩
  · have hshown : shown.flatMap Row.highlighted =
        (rowsOf source span start stop help).flatMap Row.highlighted := by
      rw [hsplit, List.flatMap_append, hrest, List.append_nil]
    rw [hdrawn, highlighted_append, highlighted_drawnLines, highlighted_eq_nil hbehind,
      List.append_nil, hshown, highlighted_rowsOf hspan hstart hstop]
  · exact fun hhelp => drawnBy_render (isPlain_ofSpan span hpath hchars hhelp)
  · intro row hrow
    have hmem : row ∈ rowsOf source span start stop help :=
      hsplit ▸ List.mem_append_left rest hrow
    rcases mem_rowsOf hmem with rfl | rfl | ⟨number, hline⟩ | ⟨-, rfl⟩ | ⟨content, -, rfl⟩
    · exact .inr (underline_of_mem_drawn_row nofun)
    · exact .inr (underline_of_mem_drawn_row nofun)
    · exact .inl ⟨number, showsLine_of_lineRow? hstart hstop _ _ hline⟩
    · exact .inr (underline_of_mem_drawn_row nofun)
    · exact .inr (underline_of_mem_drawn_row nofun)
  · intro before c after hbefore hfirst hlast
    have hlocation := Source.location?_of_append hbefore
    obtain ⟨cells, hcells⟩ := exists_row_of_location? hstart hstop hlocation hfirst hlast
    exact ⟨_, cells, hlocation, habove.subset hcells⟩

/-- A span from the middle of a terminator to the end of the line below. -/
theorem highlighted_ofSpan_inside_pair :
    (Source.ofText "a" "b\r\n\tc\nd").span? 2 5 = some ⟨2, 5⟩ ∧
    highlighted (drawnBy ((ofSpan (.ofText "a" "b\r\n\tc\nd") ⟨2, 5⟩ none).printed.render true)) =
      [' ', ' ', ' ', ' ', 'c'] := by
  have hspan : (Source.ofText "a" "b\r\n\tc\nd").span? 2 5 = some ⟨2, 5⟩ := by decide
  have hchars : '\x1b' ∉ (Source.ofText "a" "b\r\n\tc\nd").chars := by decide
  have hpath : '\x1b' ∉ (Source.ofText "a" "b\r\n\tc\nd").path.toList := by decide
  obtain ⟨-, -, -, hspanned, hread, -⟩ := @highlighted_ofSpan _ ⟨2, 5⟩ hspan hpath hchars none
  refine ⟨hspan, ?_⟩
  rw [hread nofun, hspanned]
  decide

end Excerpt

end TokenScan
