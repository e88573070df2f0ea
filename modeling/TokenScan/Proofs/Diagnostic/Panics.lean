import TokenScan.Proofs.Diagnostic.Plain
import TokenScan.Proofs.Source.LineTable

/-!
Excerpts that cannot be printed. Of all the rows only that of the carets can panic, and it does if
the characters in front of the span take more cells than a width may have. What stands above the
carets is printed nevertheless.
-/

namespace TokenScan

open Text

/-! ### Places on the first line -/

theorem Location.across_of_isUnbroken (location : Location) {before : List Char}
    (h : IsUnbroken before) (after : List Char) :
    location.across before after = ⟨location.line, location.column + before.length⟩ := by
  induction before generalizing location with
  | nil => rfl
  | cons c before ih =>
    obtain ⟨hc, hbefore⟩ := isUnbroken_cons_iff.mp h
    rw [across, ih _ hbefore, past, endsLine_eq_false hc, if_neg Bool.false_ne_true,
      List.length_cons, Nat.add_assoc, Nat.add_comm 1]

namespace Source

variable {source : Source} {before after : List Char}

theorem location?_of_isUnbroken (hchars : source.chars = before ++ after)
    (h : IsUnbroken before) :
    source.location? (byteLength before) = some ⟨1, 1 + before.length⟩ := by
  rw [location?_of_append hchars, Location.across_of_isUnbroken _ h]

theorem exists_line_of_isUnbroken (hchars : source.chars = before ++ after)
    (h : IsUnbroken before) : ∃ rest, source.line? 1 = some (before ++ rest) := by
  obtain ⟨rest, later, hlines, -, -⟩ := linesFrom_eq_cons (0 + byteLength before) after
  refine ⟨rest, ?_⟩
  rw [line?, source.lines_eq, Text.lines, hchars, linesFrom_append_of_isUnbroken h, hlines]
  rfl

end Source

namespace Excerpt

open Printed Styled

variable {source : Source} {span : Span} {start stop : Location} {help : Option String} {row : Row}

/-! ### Widths -/

theorem length_cellText (c : Char) : (cellText c).length = cellWidth c := by
  rw [cellText, cellWidth]
  split <;> rfl

theorem cellsWidth_eq (chars : List Char) :
    cellsWidth chars = (chars.flatMap cellText).length := by
  have hfold (width : Nat) : chars.foldl (fun width c => width + cellWidth c) width =
      width + (chars.flatMap cellText).length := by
    induction chars generalizing width with
    | nil => rfl
    | cons c chars ih =>
      rw [List.foldl_cons, ih, List.flatMap_cons, List.length_append, length_cellText,
        Nat.add_assoc]
  rw [cellsWidth, hfold, Nat.zero_add]

/-! ### Rows -/

theorem panicked_carets {path : String} {width indent count : Nat} :
    ((Row.carets indent count help).printed path width).panicked = true ↔
      widestSpace < indent := by
  rw [Row.printed, panicked_sequence, ← panicked_pad]
  simp

theorem panicked_of_lineRow? {number : Nat} (path : String) (width : Nat)
    (h : lineRow? source start stop number = some row) :
    (row.printed path width).panicked = false := by
  obtain ⟨line, -, rfl⟩ := Option.map_eq_some_iff.mp h
  rfl

/-- The rows down to the last line of the span. The carets come next if there are any. -/
def rowsAbove (source : Source) (start stop : Location) : List Row :=
  [.heading start, .gutter] ++
    (List.range' (start.line - 1) (lastLine start stop + 2 - start.line)).filterMap
      (lineRow? source start stop)

def rowsBelow (source : Source) (start stop : Location) : List Row :=
  (lineRow? source start stop (lastLine start stop + 1)).toList ++ [.gutter]

theorem rowsOf_of_single (source : Source) (span : Span) (help : Option String)
    (h : start.line = lastLine start stop) :
    rowsOf source span start stop help =
      rowsAbove source start stop ++
        caretRow source span start help :: rowsBelow source start stop := by
  rw [rowsOf, if_pos h, rowsAbove, rowsBelow]
  simp only [List.append_assoc, List.cons_append, List.nil_append]

theorem rowsAbove_isPrefix (source : Source) (span : Span) (start stop : Location)
    (help : Option String) :
    rowsAbove source start stop <+: rowsOf source span start stop help := by
  rw [rowsOf, rowsAbove]
  split <;> simp only [List.append_assoc, List.prefix_append_right_inj, List.prefix_append]

theorem panicked_of_mem_rowsAbove (path : String) (width : Nat)
    (h : row ∈ rowsAbove source start stop) : (row.printed path width).panicked = false := by
  rw [rowsAbove, List.mem_append, List.mem_filterMap] at h
  rcases h with hfront | ⟨number, -, hline⟩
  · simp only [List.mem_cons, List.not_mem_nil, or_false] at hfront
    rcases hfront with rfl | rfl <;> rfl
  · exact panicked_of_lineRow? path width hline

theorem eq_caretRow_of_panicked {path : String} {width : Nat}
    (hrow : row ∈ rowsOf source span start stop help)
    (h : (row.printed path width).panicked = true) :
    start.line = lastLine start stop ∧ row = caretRow source span start help := by
  rcases mem_rowsOf hrow with rfl | rfl | ⟨number, hline⟩ | hcarets | ⟨content, -, rfl⟩
  · cases h
  · cases h
  · rw [panicked_of_lineRow? path width hline] at h
    cases h
  · exact hcarets
  · cases h

/-! ### Excerpts -/

def Row.printedLine (path : String) (width : Nat) (row : Row) : Printed :=
  (row.printed path width).andThen (write (text "\n"))

theorem printed_eq (excerpt : Excerpt) :
    excerpt.printed = sequence (excerpt.rows.map (Row.printedLine excerpt.path excerpt.width)) :=
  rfl

theorem panicked_printed {excerpt : Excerpt} : excerpt.printed.panicked = true ↔
    ∃ row ∈ excerpt.rows, (row.printed excerpt.path excerpt.width).panicked = true := by
  simp [printed_eq, Row.printedLine]

theorem rows_ofSpan (hstart : source.location? span.start = some start)
    (hstop : source.location? span.stop = some stop) (help : Option String) :
    (ofSpan source span help).rows = rowsOf source span start stop help := by
  rw [ofSpan, Source.location, Source.location, hstart, hstop]
  rfl

/-- An excerpt cannot be printed if its span stays on one line and too much stands in front of it
there. -/
theorem panicked_ofSpan (hstart : source.location? span.start = some start)
    (hstop : source.location? span.stop = some stop) (help : Option String) :
    (ofSpan source span help).printed.panicked = true ↔
      start.line = lastLine start stop ∧ widestSpace < caretIndent source start := by
  rw [panicked_printed, rows_ofSpan hstart hstop]
  constructor
  · rintro ⟨row, hrow, hpanicked⟩
    obtain ⟨hsingle, rfl⟩ := eq_caretRow_of_panicked hrow hpanicked
    exact ⟨hsingle, panicked_carets.mp hpanicked⟩
  · rintro ⟨hsingle, hwide⟩
    refine ⟨caretRow source span start help, ?_, panicked_carets.mpr hwide⟩
    rw [rowsOf_of_single source span help hsingle]
    exact List.mem_append_right _ List.mem_cons_self

theorem parts_printedLine {path : String} {width : Nat}
    (h : (row.printed path width).panicked = false) :
    (row.printedLine path width).parts = (row.printed path width).parts ++ [text "\n"] :=
  parts_andThen _ h

theorem panicked_printedLine {path : String} {width : Nat} :
    (row.printedLine path width).panicked = (row.printed path width).panicked := by
  simp [Row.printedLine]

theorem flatMap_parts_printedLine {path : String} {width : Nat} {rows : List Row}
    (h : ∀ row ∈ rows, (row.printed path width).panicked = false) :
    (rows.map (Row.printedLine path width)).flatMap Printed.parts =
      rows.flatMap fun row => (row.printed path width).parts ++ [text "\n"] := by
  rw [List.flatMap_map]
  exact List.flatMap_congr fun row hrow => parts_printedLine (h row hrow)

theorem parts_printed {excerpt : Excerpt} (h : excerpt.printed.panicked = false) :
    excerpt.printed.parts = excerpt.rows.flatMap fun row =>
      (row.printed excerpt.path excerpt.width).parts ++ [text "\n"] := by
  have hrows : ∀ row ∈ excerpt.rows,
      (row.printed excerpt.path excerpt.width).panicked = false := by
    intro row hrow
    rw [← Bool.not_eq_true]
    intro hpanicked
    rw [panicked_printed.mpr ⟨row, hrow, hpanicked⟩] at h
    cases h
  rw [printed_eq, parts_sequence, flatMap_parts_printedLine hrows]
  rw [List.forall_mem_map]
  intro row hrow
  rw [panicked_printedLine, hrows row hrow]

/-- If the carets cannot be printed, what stands above them is, with the front of their row. -/
theorem parts_printed_of_panicked {excerpt : Excerpt} {above below : List Row}
    {indent count : Nat} (hrows : excerpt.rows = above ++ .carets indent count help :: below)
    (habove : ∀ row ∈ above, (row.printed excerpt.path excerpt.width).panicked = false)
    (hwide : widestSpace < indent) :
    excerpt.printed.parts =
      above.flatMap (fun row => (row.printed excerpt.path excerpt.width).parts ++ [text "\n"]) ++
        [concat [emptyGutter excerpt.width, " "]] := by
  have hcarets : ((Row.carets indent count help).printed excerpt.path excerpt.width).panicked =
      true := panicked_carets.mpr hwide
  have hline : ((Row.carets indent count help).printedLine excerpt.path excerpt.width).parts =
      [concat [emptyGutter excerpt.width, " "]] := by
    rw [Row.printedLine, andThen_of_panicked _ hcarets, Row.printed, pad_of_lt hwide]
    rfl
  rw [printed_eq, hrows, List.map_append, List.map_cons, parts_sequence_of_panicked,
    flatMap_parts_printedLine habove, hline]
  · rw [List.forall_mem_map]
    intro row hrow
    rw [panicked_printedLine, habove row hrow]
  · rw [panicked_printedLine, hcarets]

theorem parts_printed_ofSpan_of_panicked (hstart : source.location? span.start = some start)
    (hstop : source.location? span.stop = some stop)
    (h : (ofSpan source span help).printed.panicked = true) :
    (ofSpan source span help).printed.parts =
      (rowsAbove source start stop).flatMap (fun row =>
        (row.printed source.path (ofSpan source span help).width).parts ++ [text "\n"]) ++
        [concat [emptyGutter (ofSpan source span help).width, " "]] := by
  obtain ⟨hsingle, hwide⟩ := (panicked_ofSpan hstart hstop help).mp h
  have hrows := rowsOf_of_single source span help hsingle
  rw [← rows_ofSpan hstart hstop help] at hrows
  exact parts_printed_of_panicked hrows (fun _ => panicked_of_mem_rowsAbove _ _) hwide

/-! ### A quote behind tabs -/

def quoteBehindTabs (count : Nat) : List Char :=
  List.replicate count '\t' ++ ['"']

theorem isUnbroken_tabs (count : Nat) : IsUnbroken (List.replicate count '\t') := by
  intro c hc
  rw [List.eq_of_mem_replicate hc]
  rfl

theorem byteLength_tabs (count : Nat) : byteLength (List.replicate count '\t') = count := by
  induction count with
  | zero => rfl
  | succ count ih =>
    rw [List.replicate_succ, byteLength_cons, ih, Nat.add_comm]
    rfl

theorem cellsWidth_tabs (count : Nat) : cellsWidth (List.replicate count '\t') = 4 * count := by
  have htab : (cellText '\t').length = 4 := rfl
  simp [cellsWidth_eq, htab, Nat.mul_comm]

section Quote

variable {count : Nat} (hchars : source.chars = quoteBehindTabs count)

include hchars

theorem span?_quote : source.span? count (count + 1) = some ⟨count, count + 1⟩ := by
  have hslice : slice? source.chars count (count + 1) = some ['"'] := by
    refine slice?_eq_some_iff.mpr ⟨List.replicate count '\t', [], ?_, byteLength_tabs count, ?_⟩
    · rw [hchars, quoteBehindTabs, List.append_nil]
    · rw [byteLength_append, byteLength_tabs]
      rfl
  rw [Source.span?, hslice]
  rfl

theorem location?_quote : source.location? count = some ⟨1, 1 + count⟩ := by
  have hlocation := Source.location?_of_isUnbroken hchars (isUnbroken_tabs count)
  rwa [byteLength_tabs, List.length_replicate] at hlocation

theorem location?_behind_quote : source.location? (count + 1) = some ⟨1, 1 + (count + 1)⟩ := by
  have hunbroken : IsUnbroken (quoteBehindTabs count) := by
    intro c hc
    rcases List.mem_append.mp hc with htab | hquote
    · exact isUnbroken_tabs count c htab
    · rw [List.mem_singleton.mp hquote]
      rfl
  have hend : source.chars = quoteBehindTabs count ++ [] := by rw [hchars, List.append_nil]
  have hlocation := Source.location?_of_isUnbroken hend hunbroken
  rw [quoteBehindTabs, byteLength_append, byteLength_tabs, List.length_append,
    List.length_replicate] at hlocation
  exact hlocation

theorem caretIndent_quote : caretIndent source ⟨1, 1 + count⟩ = 4 * count := by
  obtain ⟨rest, hline⟩ := Source.exists_line_of_isUnbroken hchars (isUnbroken_tabs count)
  have htake : (List.replicate count '\t' ++ rest).take count = List.replicate count '\t' := by
    rw [List.take_append_of_le_length (by simp), List.take_of_length_le (by simp)]
  rw [caretIndent, hline, Option.getD_some, Nat.add_sub_cancel_left, htake, cellsWidth_tabs]

/-- What shows the quote can be printed unless the tabs take too many cells. -/
theorem panicked_quote (help : Option String) :
    (ofSpan source ⟨count, count + 1⟩ help).printed.panicked = true ↔
      widestSpace < 4 * count := by
  rw [@panicked_ofSpan source ⟨count, count + 1⟩ _ _ (location?_quote hchars)
    (location?_behind_quote hchars), caretIndent_quote hchars, lastLine]
  simp

end Quote

end Excerpt

end TokenScan
