import TokenScan.Proofs.Diagnostic.Rows
import TokenScan.Proofs.Styled.Marks

/-!
The layout of an excerpt without colours. Which of the lines around a span exist is known only from
the table of lines, while the room for their numbers is fixed before the table is asked. It is
enough for all of them, because it is that of a number at least as large as any that is shown.
-/

namespace TokenScan

open Text

namespace Excerpt

open Printed Source Styled

variable {source : Source} {span : Span} {start stop : Location} {help : Option String}

/-! ### Rows as text

`gutterText` is the front of a row up to the bar, with a label right in front of it. The others are
the rows by their kinds. -/

def gutterText (width : Nat) (label : List Char) : List Char :=
  List.replicate (width - label.length) ' ' ++ label ++ [' ', '┃']

def headingText (path : String) (width : Nat) (location : Location) : List Char :=
  List.replicate width ' ' ++ "--> ".toList ++ path.toList ++ ':' :: location.text.toList

def lineText (width number : Nat) (body : List Char) : List Char :=
  gutterText width (Nat.toDigits 10 number) ++ ' ' :: body.flatMap cellText

def caretText (width indent count : Nat) (help : Option String) : List Char :=
  gutterText width [] ++ ' ' :: (List.replicate indent ' ' ++ List.replicate count '^' ++
    (help.map fun content => " help: ".toList ++ content.toList).getD [])

def noteText (width : Nat) (content : String) : List Char :=
  List.replicate width ' ' ++ " = help: ".toList ++ content.toList

theorem toList_spaces (count : Nat) : (spaces count).toList = List.replicate count ' ' :=
  String.toList_ofList

theorem toList_render_cell (cell : Cell) :
    (cell.styled.render false).toList = cellText cell.character := by
  rw [Cell.styled]
  cases cell.highlighted <;> simp [render_painted]

theorem toList_render_heading (path : String) (width : Nat) (location : Location) :
    (((Row.heading location).printed path width).render false).toList =
      headingText path width location := by
  simp [Row.printed, toList_render_concat, render_painted, toList_spaces, headingText]

theorem toList_render_emptyGutter (width : Nat) :
    ((emptyGutter width).render false).toList = gutterText width [] := by
  simp [emptyGutter, bar, toList_render_concat, render_painted, toList_spaces, gutterText]

theorem toList_render_gutter (path : String) (width : Nat) :
    ((Row.gutter.printed path width).render false).toList = gutterText width [] := by
  rw [Row.printed, render_write, toList_render_emptyGutter]

theorem toList_render_line (path : String) (width number : Nat) (cells : List Cell) :
    (((Row.line number cells).printed path width).render false).toList =
      lineText width number (cells.map Cell.character) := by
  have hcells : (cells.map Cell.styled).flatMap (fun part => (part.render false).toList) =
      (cells.map Cell.character).flatMap cellText := by
    rw [List.flatMap_map, List.flatMap_map]
    exact List.flatMap_congr fun cell _ => toList_render_cell cell
  have hdigits : number.repr.length = (Nat.toDigits 10 number).length := by
    rw [← String.length_toList, Nat.toList_repr]
  rw [Row.printed, render_write, toList_render_concat, List.flatMap_append, hcells]
  simp [render_painted, bar, toList_spaces, hdigits, lineText, gutterText]

/-- What is printed in front of the indent of the carets. -/
theorem toList_render_caretFront (width : Nat) :
    ((concat [emptyGutter width, " "]).render false).toList = gutterText width [] ++ [' '] := by
  simp [toList_render_concat, toList_render_emptyGutter]

theorem toList_render_caretRow (path : String) (width : Nat) {indent : Nat} (count : Nat)
    (help : Option String) (h : indent ≤ widestSpace) :
    (((Row.carets indent count help).printed path width).render false).toList =
      caretText width indent count help := by
  have hparts : ((Row.carets indent count help).printed path width).parts =
      [concat [emptyGutter width, " "], text (spaces indent),
        concat (painted .bold (painted .red (String.ofList (List.replicate count '^'))) ::
          (help.map helpText).toList)] := by
    rw [Row.printed, pad_of_le h]
    rfl
  rw [toList_render, hparts, List.flatMap_cons, toList_render_caretFront]
  cases help <;> simp [render_painted, toList_render_concat, toList_spaces, helpText, caretText]

theorem toList_render_note (path : String) (width : Nat) (content : String) :
    (((Row.note content).printed path width).render false).toList = noteText width content := by
  simp [Row.printed, helpText, toList_render_concat, render_painted, toList_spaces, noteText]

/-! ### The bar -/

theorem digitCount_le {number other : Nat} (h : number ≤ other) :
    digitCount number ≤ digitCount other := by
  have hpos : 0 < digitCount other := Nat.length_toDigits_pos
  have hother := (Nat.length_toDigits_le_iff (b := 10) (by decide) hpos).mp (Nat.le_refl _)
  exact (Nat.length_toDigits_le_iff (by decide) hpos).mpr (Nat.lt_of_le_of_lt h hother)

/-- A label that fits does not move the bar. -/
theorem idxOf_bar_gutterText {width : Nat} {label : List Char} (hlabel : '┃' ∉ label)
    (hfits : label.length ≤ width) (behind : List Char) :
    (gutterText width label ++ behind).idxOf '┃' = width + 1 := by
  have hfront : '┃' ∉ List.replicate (width - label.length) ' ' ++ label ++ [' '] := by
    simp [hlabel]
  have hsplit : gutterText width label ++ behind =
      List.replicate (width - label.length) ' ' ++ label ++ [' '] ++ '┃' :: behind := by
    simp [gutterText]
  rw [hsplit, List.idxOf_append_of_notMem hfront, List.idxOf_cons_self]
  simp
  omega

theorem idxOf_bar_lineText {width number : Nat} (h : digitCount number ≤ width)
    (body : List Char) : (lineText width number body).idxOf '┃' = width + 1 := by
  have hdigits : '┃' ∉ Nat.toDigits 10 number :=
    not_mem_toDigits (by decide) (fun _ => Nat.digitChar_ne '┃' (by decide)) number
  exact idxOf_bar_gutterText hdigits h _

/-! ### Rows without line feeds -/

theorem newline_not_mem_gutterText {width : Nat} {label : List Char} (h : '\n' ∉ label) :
    '\n' ∉ gutterText width label := by
  simp [gutterText, h]

theorem newline_not_mem_cells {body : List Char} (h : '\n' ∉ body) :
    '\n' ∉ body.flatMap cellText := by
  intro hmem
  obtain ⟨c, hc, hcell⟩ := List.mem_flatMap.mp hmem
  rw [cellText] at hcell
  split at hcell
  · exact absurd (List.eq_of_mem_replicate hcell) (by decide)
  · rw [← List.mem_singleton.mp hcell] at hc
    exact h hc

theorem newline_not_mem_lineText {width number : Nat} {body : List Char} (h : '\n' ∉ body) :
    '\n' ∉ lineText width number body := by
  have hdigits : '\n' ∉ Nat.toDigits 10 number :=
    not_mem_toDigits (by decide) digitChar_ne_newline number
  rw [lineText, List.mem_append, List.mem_cons, not_or, not_or]
  exact ⟨newline_not_mem_gutterText hdigits, by decide, newline_not_mem_cells h⟩

theorem newline_not_mem_headingText {path : String} {width : Nat} {location : Location}
    (h : '\n' ∉ path.toList) : '\n' ∉ headingText path width location := by
  simp [headingText, h, location.newline_not_mem_text]

theorem newline_not_mem_caretText {width indent count : Nat}
    (h : ∀ content ∈ help, '\n' ∉ content.toList) :
    '\n' ∉ caretText width indent count help := by
  have hgutter := @newline_not_mem_gutterText width [] (by simp)
  cases help with
  | none => simp [caretText, hgutter]
  | some content => simp [caretText, hgutter, h content rfl]

theorem newline_not_mem_noteText {width : Nat} {content : String} (h : '\n' ∉ content.toList) :
    '\n' ∉ noteText width content := by
  simp [noteText, h]

/-! ### The lines shown -/

def bodiesFrom (source : Source) (first last : Nat) : List (Nat × List Char) :=
  (List.range' first (last + 1 - first)).filterMap fun number =>
    (source.line? number).map fun line => (number, trimLineEnd line)

theorem mem_bodiesFrom_iff {first last number : Nat} {body : List Char} :
    (number, body) ∈ bodiesFrom source first last ↔
      first ≤ number ∧ number ≤ last ∧
        ∃ line, source.line? number = some line ∧ IsBody body line := by
  rw [bodiesFrom, List.mem_filterMap]
  constructor
  · rintro ⟨shown, hshown, hentry⟩
    obtain ⟨line, hline, hpair⟩ := Option.map_eq_some_iff.mp hentry
    obtain ⟨rfl, rfl⟩ := Prod.mk.inj hpair
    rw [List.mem_range'_1] at hshown
    exact ⟨hshown.1, by omega, line, hline, isBody_of_line? hline⟩
  · rintro ⟨hfirst, hlast, line, hline, hbody⟩
    refine ⟨number, List.mem_range'_1.mpr ⟨hfirst, by omega⟩, ?_⟩
    rw [hline, Option.map_some, hbody.trimLineEnd_eq]

theorem pairwise_bodiesFrom (source : Source) (first last : Nat) :
    (bodiesFrom source first last).Pairwise fun above below => above.1 < below.1 := by
  have hnumbers : (List.range' first (last + 1 - first)).Pairwise (· < ·) := List.pairwise_lt_range'
  refine hnumbers.filterMap _ ?_
  intro above below hlt entry hentry later hlater
  obtain ⟨line, -, rfl⟩ := Option.map_eq_some_iff.mp hentry
  obtain ⟨next, -, rfl⟩ := Option.map_eq_some_iff.mp hlater
  exact hlt

theorem bodiesFrom_succ {first last : Nat} (h : first ≤ last + 1) :
    bodiesFrom source first (last + 1) = bodiesFrom source first last ++
      ((source.line? (last + 1)).map fun line => (last + 1, trimLineEnd line)).toList := by
  have hcount : last + 1 + 1 - first = last + 1 - first + 1 := by omega
  have hnext : first + (last + 1 - first) = last + 1 := by omega
  rw [bodiesFrom, bodiesFrom, hcount, List.range'_1_concat, List.filterMap_append, hnext,
    List.filterMap_cons, List.filterMap_nil]
  cases source.line? (last + 1) <;> rfl

theorem filter_bodiesFrom {first last : Nat} (h : first ≤ last + 1) :
    ((bodiesFrom source first (last + 1)).filter fun entry => entry.1 ≤ last) =
      bodiesFrom source first last := by
  have hkept : ∀ entry ∈ bodiesFrom source first last, decide (entry.1 ≤ last) = true :=
    fun _ hentry => decide_eq_true (mem_bodiesFrom_iff.mp hentry).2.1
  have hnext : ∀ entry ∈ ((source.line? (last + 1)).map fun line =>
      (last + 1, trimLineEnd line)).toList, ¬ decide (entry.1 ≤ last) = true := by
    intro entry hentry
    obtain ⟨line, -, rfl⟩ := Option.map_eq_some_iff.mp (Option.mem_toList.mp hentry)
    simp
  rw [bodiesFrom_succ h, List.filter_append, List.filter_eq_self.mpr hkept,
    List.filter_eq_nil_iff.mpr hnext, List.append_nil]

/-- The row that shows a line, and the row of carets behind it if the span stays on that line. -/
def rowsAt (source : Source) (span : Span) (start stop : Location) (help : Option String)
    (entry : Nat × List Char) : List Row :=
  .line entry.1 (cells start stop entry.1 entry.2) ::
    if entry.1 = start.line ∧ lastLine start stop = start.line
    then [caretRow source span start help] else []

theorem flatMap_rowsAt {number : Nat}
    (h : ¬ (number = start.line ∧ lastLine start stop = start.line)) :
    ((source.line? number).map fun line => (number, trimLineEnd line)).toList.flatMap
      (rowsAt source span start stop help) = (lineRow? source start stop number).toList := by
  rw [lineRow?]
  cases source.line? number with
  | none => rfl
  | some line => simp [rowsAt, h]

/-- All the lines shown are in one sequence, from the one above the span to the one below it. -/
theorem rowsOf_eq (hpos : 1 ≤ start.line) (hle : start.line ≤ lastLine start stop)
    {line : List Char} (hline : source.line? start.line = some line) :
    rowsOf source span start stop help =
      [.heading start, .gutter] ++
        (bodiesFrom source (start.line - 1) (lastLine start stop + 1)).flatMap
          (rowsAt source span start stop help) ++
        [.gutter] ++
        if lastLine start stop = start.line then [] else (help.map Row.note).toList := by
  have hflat : (bodiesFrom source (start.line - 1) (lastLine start stop + 1)).flatMap
      (rowsAt source span start stop help) =
        (List.range' (start.line - 1) (lastLine start stop + 2 - start.line) ++
          [lastLine start stop + 1]).flatMap fun number =>
            ((source.line? number).map fun line => (number, trimLineEnd line)).toList.flatMap
              (rowsAt source span start stop help) := by
    have hcount : lastLine start stop + 1 + 1 - (start.line - 1) =
        lastLine start stop + 2 - start.line + 1 := by omega
    have hnext : lastLine start stop + 1 =
        start.line - 1 + (lastLine start stop + 2 - start.line) := by omega
    rw [bodiesFrom, hcount, List.filterMap_eq_flatMap_toList, List.flatMap_assoc, hnext,
      List.range'_1_concat]
  rw [hflat, List.flatMap_append, List.flatMap_singleton, rowsOf]
  by_cases hsingle : lastLine start stop = start.line
  · have hcount : lastLine start stop + 2 - start.line = 2 := by omega
    have hnumbers : List.range' (start.line - 1) 2 = [start.line - 1, start.line] := by
      rw [List.range'_1_concat, Nat.sub_add_cancel hpos]
      rfl
    have habove := @flatMap_rowsAt source span start stop help (start.line - 1) (by omega)
    have hbelow := @flatMap_rowsAt source span start stop help (lastLine start stop + 1) (by omega)
    have hrow : lineRow? source start stop start.line =
        some (.line start.line (cells start stop start.line (trimLineEnd line))) :=
      lineRow?_eq_some_iff.mpr ⟨line, hline, rfl⟩
    have hhere : ((source.line? start.line).map fun line =>
        (start.line, trimLineEnd line)).toList.flatMap (rowsAt source span start stop help) =
          [.line start.line (cells start stop start.line (trimLineEnd line)),
            caretRow source span start help] := by
      simp [hline, rowsAt, hsingle]
    rw [if_pos hsingle.symm, if_pos hsingle, hbelow, hcount, hnumbers,
      List.filterMap_eq_flatMap_toList]
    simp [habove, hhere, hrow]
  · have hlines := fun number =>
      @flatMap_rowsAt source span start stop help number fun h => hsingle h.2
    rw [if_neg (Ne.symm hsingle), if_neg hsingle]
    simp only [hlines]
    rw [List.filterMap_eq_flatMap_toList]
    simp

/-! ### The last line -/

theorem lastLine_eq_of_charsIn_eq_nil (hspan : source.span? span.start span.stop = some span)
    (hstart : source.location? span.start = some start)
    (hstop : source.location? span.stop = some stop) (h : source.charsIn span = []) :
    lastLine start stop = start.line := by
  obtain ⟨between, hslice, -⟩ := Option.map_eq_some_iff.mp hspan
  obtain ⟨before, after, -, hbefore, hbehind⟩ := slice?_eq_some_iff.mp hslice
  rw [charsIn, hslice, Option.getD_some] at h
  rw [← hbefore] at hstart
  rw [← hbehind, h, List.append_nil, hstart, Option.some_inj] at hstop
  rw [← hstop, lastLine, if_neg (by omega)]

/-- The line on which a span ends is that of its last character. -/
theorem exists_column_of_charsIn_eq (hspan : source.span? span.start span.stop = some span)
    (hstart : source.location? span.start = some start)
    (hstop : source.location? span.stop = some stop) {before : List Char} {c : Char}
    (h : source.charsIn span = before ++ [c]) :
    ∃ column, source.location? (span.start + byteLength before) =
      some ⟨lastLine start stop, column⟩ := by
  obtain ⟨between, hslice, -⟩ := Option.map_eq_some_iff.mp hspan
  obtain ⟨front, after, hchars, hfront, hbehind⟩ := slice?_eq_some_iff.mp hslice
  rw [charsIn, hslice, Option.getD_some] at h
  rw [h] at hchars hbehind
  have hlast : source.chars = front ++ before ++ ([c] ++ after) := by simp [hchars]
  have hlocation := location?_of_append hlast
  have hend : source.location? span.stop =
      some (Location.past (Location.across ⟨1, 1⟩ (front ++ before) ([c] ++ after)) c after) := by
    rw [← hbehind, location?_of_append hchars, ← List.append_assoc, Location.across_append]
    rfl
  rw [byteLength_append, hfront] at hlocation
  rw [hstop, Option.some_inj] at hend
  generalize Location.across ⟨1, 1⟩ (front ++ before) ([c] ++ after) = last at hlocation hend
  have hcolumn := (one_le_of_location? hlocation).2
  have hnot : ¬ last.order start = .lt := by
    rw [order_eq_compare hlocation hstart, Nat.compare_eq_lt]
    omega
  rw [Location.order_eq_lt_iff] at hnot
  have hline : lastLine start stop = last.line := by
    rw [lastLine, hend, Location.past]
    split <;> dsimp only <;> split <;> omega
  rw [hline]
  exact ⟨last.column, hlocation⟩

/-! ### The whole excerpt -/

/-- The rows of text that show a span, given where it begins, the line on which it ends, and the
lines around it by their numbers and bodies. The carets stand below the line of a span that stays on
one, and have the help on their row. Without them the help has a row of its own. -/
def layout (path : String) (start : Location) (last : Nat) (lines : List (Nat × List Char))
    (indent count : Nat) (help : Option String) : List (List Char) :=
  let width := digitCount (last + 1)
  [headingText path width start, gutterText width []] ++
    lines.flatMap (fun entry => lineText width entry.1 entry.2 ::
      if entry.1 = start.line ∧ last = start.line
      then [caretText width indent count help] else []) ++
    [gutterText width []] ++
    if last = start.line then [] else (help.map (noteText width)).toList

def layoutAbove (path : String) (start : Location) (last : Nat)
    (lines : List (Nat × List Char)) : List (List Char) :=
  let width := digitCount (last + 1)
  [headingText path width start, gutterText width []] ++
    (lines.filter fun entry => entry.1 ≤ last).map fun entry => lineText width entry.1 entry.2

def caretCount (source : Source) (span : Span) : Nat :=
  max 1 (trimLineEnd (source.charsIn span)).length

theorem caretRow_eq : caretRow source span start help =
    .carets (caretIndent source start) (caretCount source span) help := by
  rw [caretRow, caretIndent, caretCount]
  congr 1
  split <;> omega

def Row.chars (path : String) (width : Nat) (row : Row) : List Char :=
  ((row.printed path width).render false).toList

theorem chars_line (path : String) (width number : Nat) (body : List Char) :
    (Row.line number (cells start stop number body)).chars path width =
      lineText width number body := by
  rw [Row.chars, toList_render_line, cells_eq, List.map_map]
  exact congrArg (lineText width number) (map_snd_placed number 1 body)

theorem map_chars_rowsOf {path : String} {width : Nat} (hpos : 1 ≤ start.line)
    (hle : start.line ≤ lastLine start stop) {line : List Char}
    (hline : source.line? start.line = some line)
    (hwidth : width = digitCount (lastLine start stop + 1))
    (hfits : start.line = lastLine start stop → caretIndent source start ≤ widestSpace) :
    (rowsOf source span start stop help).map (Row.chars path width) =
      layout path start (lastLine start stop)
        (bodiesFrom source (start.line - 1) (lastLine start stop + 1))
        (caretIndent source start) (caretCount source span) help := by
  have hrows (entry : Nat × List Char) :
      (rowsAt source span start stop help entry).map (Row.chars path width) =
        lineText width entry.1 entry.2 ::
          if entry.1 = start.line ∧ lastLine start stop = start.line
          then [caretText width (caretIndent source start) (caretCount source span) help]
          else [] := by
    rw [rowsAt, List.map_cons, chars_line, caretRow_eq]
    split
    · next hsingle =>
      rw [List.map_singleton, Row.chars, toList_render_caretRow _ _ _ _ (hfits hsingle.2.symm)]
    · rfl
  have hnote : (if lastLine start stop = start.line then []
      else (help.map Row.note).toList).map (Row.chars path width) =
          if lastLine start stop = start.line then [] else (help.map (noteText width)).toList := by
    split
    · rfl
    · cases help <;> simp [Row.chars, toList_render_note]
  rw [rowsOf_eq hpos hle hline, List.map_append, List.map_append, List.map_append, List.map_flatMap,
    hnote, layout, ← hwidth]
  simp only [hrows, List.map_cons, List.map_nil, Row.chars, toList_render_heading,
    toList_render_gutter]

theorem map_chars_rowsAbove {path : String} {width : Nat} (hpos : 1 ≤ start.line)
    (hle : start.line ≤ lastLine start stop)
    (hwidth : width = digitCount (lastLine start stop + 1)) :
    (rowsAbove source start stop).map (Row.chars path width) =
      layoutAbove path start (lastLine start stop)
        (bodiesFrom source (start.line - 1) (lastLine start stop + 1)) := by
  have hcount : lastLine start stop + 2 - start.line =
      lastLine start stop + 1 - (start.line - 1) := by omega
  have hlines : (fun number => (lineRow? source start stop number).map (Row.chars path width)) =
      fun number => ((source.line? number).map fun line => (number, trimLineEnd line)).map
        fun entry => lineText width entry.1 entry.2 := by
    funext number
    rw [lineRow?]
    cases source.line? number with
    | none => rfl
    | some line => exact congrArg some (chars_line path width number _)
  rw [rowsAbove, layoutAbove, filter_bodiesFrom (by omega), bodiesFrom, List.map_append,
    List.map_filterMap, List.map_filterMap, ← hwidth, hcount, hlines]
  simp only [List.map_cons, List.map_nil, Row.chars, toList_render_heading, toList_render_gutter]

theorem flatMap_toList_parts (path : String) (width : Nat) (rows : List Row) :
    (rows.flatMap fun row => (row.printed path width).parts ++ [text "\n"]).flatMap
        (fun part => (part.render false).toList) =
      (rows.map (Row.chars path width)).flatMap fun row => row ++ ['\n'] := by
  rw [List.flatMap_assoc, List.flatMap_map]
  apply List.flatMap_congr
  intro row _
  rw [List.flatMap_append, ← toList_render, List.flatMap_singleton, render_text]
  rfl

theorem newline_not_mem_layout {path : String} {last indent count : Nat}
    {lines : List (Nat × List Char)} (hpath : '\n' ∉ path.toList)
    (hlines : ∀ entry ∈ lines, '\n' ∉ entry.2) (hhelp : ∀ content ∈ help, '\n' ∉ content.toList) :
    ∀ row ∈ layout path start last lines indent count help, '\n' ∉ row := by
  have hgutter := @newline_not_mem_gutterText (digitCount (last + 1)) [] (by simp)
  intro row hrow
  simp only [layout, List.mem_append, List.mem_cons, List.not_mem_nil, or_false] at hrow
  rcases hrow with (((rfl | rfl) | hline) | rfl) | hnote
  · exact newline_not_mem_headingText hpath
  · exact hgutter
  · obtain ⟨entry, hentry, hrow⟩ := List.mem_flatMap.mp hline
    rcases List.mem_cons.mp hrow with rfl | hcarets
    · exact newline_not_mem_lineText (hlines entry hentry)
    · split at hcarets
      · rw [List.mem_singleton.mp hcarets]
        exact newline_not_mem_caretText hhelp
      · cases hcarets
  · exact hgutter
  · split at hnote
    · cases hnote
    · obtain ⟨content, hcontent, rfl⟩ := Option.map_eq_some_iff.mp (Option.mem_toList.mp hnote)
      exact newline_not_mem_noteText (hhelp content hcontent)

/-- What an excerpt prints without colours, row by row: a heading with the location where the span
begins, an empty row, the lines from the one above the span to the one below that on which its last
character is, as far as they exist, an empty row, and the help. The help stands with the carets,
below the line of the span if it stays on one, or else at the end. Where a row has a bar, it is in
the same cell as in all the others. If the indent of the carets is wider than space can be, the
program panics in the row of carets, with all that belongs above it printed. -/
theorem layout_ofSpan (hspan : source.span? span.start span.stop = some span)
    (hpath : '\n' ∉ source.path.toList) (hhelp : ∀ content ∈ help, '\n' ∉ content.toList) :
    ∃ (start : Location) (last : Nat) (lines : List (Nat × List Char)),
      source.location? span.start = some start ∧
      (source.charsIn span = [] → last = start.line) ∧
      (∀ before c, source.charsIn span = before ++ [c] →
        ∃ column, source.location? (span.start + byteLength before) = some ⟨last, column⟩) ∧
      lines.Pairwise (fun above below => above.1 < below.1) ∧
      (∀ number body, (number, body) ∈ lines ↔
        start.line - 1 ≤ number ∧ number ≤ last + 1 ∧
          ∃ line, source.line? number = some line ∧ IsBody body line) ∧
      (∃ body, (start.line, body) ∈ lines) ∧
      ((ofSpan source span help).printed.panicked = true ↔
        last = start.line ∧ widestSpace < caretIndent source start) ∧
      ((ofSpan source span help).printed.panicked = false →
        IsRows
          (layout source.path start last lines (caretIndent source start) (caretCount source span)
            help)
          ((ofSpan source span help).printed.render false).toList) ∧
      ((ofSpan source span help).printed.panicked = true →
        ((ofSpan source span help).printed.render false).toList =
          (layoutAbove source.path start last lines).flatMap (fun row => row ++ ['\n']) ++
            (gutterText (digitCount (last + 1)) [] ++ [' '])) ∧
      (∀ number body, (number, body) ∈ lines →
        (lineText (digitCount (last + 1)) number body).idxOf '┃' = digitCount (last + 1) + 1) ∧
      (caretText (digitCount (last + 1)) (caretIndent source start) (caretCount source span)
        help).idxOf '┃' = digitCount (last + 1) + 1 ∧
      (gutterText (digitCount (last + 1)) []).idxOf '┃' = digitCount (last + 1) + 1 := by
  obtain ⟨start, stop, hstart, hstop, hpos, -, -, -, -, hrows⟩ := Source.exists_rows_of_span? hspan
  have hle := line_le_lastLine hspan hstart hstop
  obtain ⟨entry, -, hline, -⟩ := exists_line_of_location? hstart
  have hwidth : (ofSpan source span help).width = digitCount (lastLine start stop + 1) := by
    rw [ofSpan, location, location, hstart, hstop]
    rfl
  have hpanicked := panicked_ofSpan hstart hstop help
  rw [eq_comm (a := start.line)] at hpanicked
  have hmem : ∀ number body,
      (number, body) ∈ bodiesFrom source (start.line - 1) (lastLine start stop + 1) ↔
        start.line - 1 ≤ number ∧ number ≤ lastLine start stop + 1 ∧
          ∃ line, source.line? number = some line ∧ IsBody body line :=
    fun _ _ => mem_bodiesFrom_iff
  refine ⟨start, lastLine start stop, _, hstart, lastLine_eq_of_charsIn_eq_nil hspan hstart hstop,
    fun _ _ => exists_column_of_charsIn_eq hspan hstart hstop, pairwise_bodiesFrom _ _ _, hmem, ?_,
    hpanicked, fun hprints => ⟨?_, ?_⟩, ?_, ?_, ?_, ?_⟩
  · exact ⟨_, (hmem _ _).mpr ⟨by omega, by omega, _, hline, isBody_of_line? hline⟩⟩
  · have hfits : start.line = lastLine start stop → caretIndent source start ≤ widestSpace := by
      intro hsingle
      refine Nat.le_of_not_lt fun hwide => ?_
      rw [hpanicked.mpr ⟨hsingle.symm, hwide⟩] at hprints
      cases hprints
    rw [toList_render, parts_printed hprints, flatMap_toList_parts, hrows help]
    exact congrArg _ (map_chars_rowsOf hpos hle hline hwidth hfits)
  · apply newline_not_mem_layout hpath ?_ hhelp
    rintro ⟨number, body⟩ hentry hnewline
    obtain ⟨-, -, line, -, hbody⟩ := (hmem number body).mp hentry
    exact absurd (hbody.plain '\n' hnewline) (by decide)
  · intro hbroken
    rw [toList_render, parts_printed_ofSpan_of_panicked hstart hstop hbroken, List.flatMap_append,
      flatMap_toList_parts, List.flatMap_singleton, toList_render_caretFront, hwidth,
      map_chars_rowsAbove hpos hle rfl]
  · intro number body hentry
    exact idxOf_bar_lineText (digitCount_le ((hmem number body).mp hentry).2.1) body
  · exact idxOf_bar_gutterText (by simp) (Nat.zero_le _) _
  · rw [← List.append_nil (gutterText _ _)]
    exact idxOf_bar_gutterText (by simp) (Nat.zero_le _) _

/-- The number of the line below takes one digit more than that of the line of the span. -/
theorem layout_ofSpan_ninth_line :
    (Source.ofText "a.lex" "\n\n\n\n\n\n\n\na\tb\r\n").span? 8 13 = some ⟨8, 13⟩ ∧
    ∃ lines, (8, []) ∈ lines ∧ (9, ['a', '\t', 'b']) ∈ lines ∧ (10, []) ∈ lines ∧
      IsRows (layout "a.lex" ⟨9, 1⟩ 9 lines 0 3 (some "text"))
        ((ofSpan (.ofText "a.lex" "\n\n\n\n\n\n\n\na\tb\r\n") ⟨8, 13⟩
          (some "text")).printed.render false).toList ∧
      (lineText 2 9 ['a', '\t', 'b']).idxOf '┃' = 3 ∧ (lineText 2 10 []).idxOf '┃' = 3 := by
  have hspan : (Source.ofText "a.lex" "\n\n\n\n\n\n\n\na\tb\r\n").span? 8 13 = some ⟨8, 13⟩ := by
    decide
  have hhelp : ∀ content ∈ some "text", '\n' ∉ content.toList := by
    rintro content ⟨⟩
    decide
  obtain ⟨start, last, lines, hstart, -, hlast, -, hlines, -, hpanicked, hrows, -, hbar, -, -⟩ :=
    @layout_ofSpan _ ⟨8, 13⟩ (some "text") hspan (by decide) hhelp
  have hfirst : (Source.ofText "a.lex" "\n\n\n\n\n\n\n\na\tb\r\n").location? 8 = some ⟨9, 1⟩ := by
    decide
  have hend : (Source.ofText "a.lex" "\n\n\n\n\n\n\n\na\tb\r\n").location? 12 = some ⟨9, 5⟩ := by
    decide
  obtain rfl : ⟨9, 1⟩ = start := Option.some.inj (hfirst.symm.trans hstart)
  obtain ⟨column, hcolumn⟩ := hlast ['a', '\t', 'b', '\r'] '\n' (by decide)
  obtain rfl : 9 = last :=
    congrArg Location.line (Option.some.inj (hend.symm.trans hcolumn))
  have habove := (hlines 8 []).mpr
    ⟨by decide, by decide, ['\n'], by decide, nofun, ['\n'], by decide⟩
  have hplain : ∀ c ∈ ['a', '\t', 'b'], isLineEnd c = false := by simp [isLineEnd]
  have hhere := (hlines 9 ['a', '\t', 'b']).mpr
    ⟨by decide, by decide, ['a', '\t', 'b', '\r', '\n'], by decide, hplain, ['\r', '\n'], by decide⟩
  have hbelow := (hlines 10 []).mpr ⟨by decide, by decide, [], by decide, nofun, [], by decide⟩
  have hindent : caretIndent (.ofText "a.lex" "\n\n\n\n\n\n\n\na\tb\r\n") ⟨9, 1⟩ = 0 := by decide
  have hprints : (ofSpan (.ofText "a.lex" "\n\n\n\n\n\n\n\na\tb\r\n") ⟨8, 13⟩
      (some "text")).printed.panicked = false := by
    rw [← Bool.not_eq_true, hpanicked, hindent]
    simp
  exact ⟨hspan, lines, habove, hhere, hbelow, hrows hprints, hbar 9 _ hhere, hbar 10 _ hbelow⟩

/-- Behind so many tabs the row of carets is not finished, and nothing comes after it. -/
theorem not_isRows_behind_many_tabs :
    (Source.ofChars "<test>" (quoteBehindTabs 16384)).span? 16384 16385 =
      some ⟨16384, 16385⟩ ∧
    (ofSpan (.ofChars "<test>" (quoteBehindTabs 16384)) ⟨16384, 16385⟩
      (some "text")).printed.panicked = true ∧
    ∀ rows, ¬ IsRows rows ((ofSpan (.ofChars "<test>" (quoteBehindTabs 16384)) ⟨16384, 16385⟩
      (some "text")).printed.render false).toList := by
  have hpanicked := (@panicked_quote (.ofChars "<test>" (quoteBehindTabs 16384)) 16384 rfl
    (some "text")).mpr (by decide)
  refine ⟨span?_quote rfl, hpanicked, fun rows hrows => ?_⟩
  rw [toList_render, @parts_printed_ofSpan_of_panicked _ ⟨16384, 16385⟩ _ _ _
    (location?_quote rfl) (location?_behind_quote rfl) hpanicked, List.flatMap_append,
    List.flatMap_singleton, toList_render_caretFront, ← List.append_assoc] at hrows
  exact absurd hrows.eq_newline (by decide)

end Excerpt

end TokenScan
