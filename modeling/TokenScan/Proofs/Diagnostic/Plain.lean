import TokenScan.Diagnostic.Report
import TokenScan.Proofs.Source.Locations
import TokenScan.Proofs.Styled.Decoration
import TokenScan.Proofs.Styled.Printing

/-!
What diagnostics show. A message or an excerpt shows what it was given, numbers, and fixed words and
signs, and none of these but the given texts can hold an escape. So if the path and the text of a
source hold none, neither does anything printed about the source.
-/

namespace TokenScan

open Text

namespace Text

theorem digitChar_ne_escape (digit : Nat) : digit.digitChar ≠ '\x1b' :=
  Nat.digitChar_ne '\x1b' (by decide)

theorem escape_not_mem_toString (number : Nat) : '\x1b' ∉ (toString number).toList :=
  not_mem_toString digitChar_ne_escape number

/-- The escape is itself shown by its code point. -/
theorem escape_not_mem_escape (c : Char) : '\x1b' ∉ escape c := by
  have hcode (d : Char) : '\x1b' ∉ codePointEscape d := by
    have hdigits := not_mem_toDigits (by decide : 1 < 16) digitChar_ne_escape d.toNat
    simp [codePointEscape, hdigits]
  have hprintable : isPrintable '\x1b' = false := by
    have hmem : unprintable.contains '\x1b' = true :=
      List.any_eq_true.mpr ⟨(0x0, 0x1F), List.mem_cons_self, by decide⟩
    rw [isPrintable, hmem, Bool.not_true]
  unfold escape
  repeat' split
  · decide
  · decide
  · decide
  · decide
  · next hquote => rcases hquote with rfl | rfl | rfl <;> decide
  · exact hcode c
  · next hplain =>
    rw [List.mem_singleton]
    rintro rfl
    rw [hprintable] at hplain
    simp at hplain

theorem mem_of_mem_trimLineEnd {c : Char} {text : List Char} (h : c ∈ trimLineEnd text) :
    c ∈ text := by
  rw [trimLineEnd, List.mem_reverse] at h
  exact List.mem_reverse.mp ((List.dropWhile_sublist _).subset h)

end Text

theorem Source.mem_chars_of_mem_line? {source : Source} {number : Nat} {line : List Char} {c : Char}
    (h : source.line? number = some line) (hc : c ∈ line) : c ∈ source.chars := by
  cases number with
  | zero => cases h
  | succ index =>
    obtain ⟨entry, hentry, rfl⟩ := Option.map_eq_some_iff.mp h
    obtain ⟨before, after, htext, -⟩ :=
      slice?_eq_some_iff.mp (slice?_of_mem_lines (List.mem_of_getElem? hentry))
    rw [htext]
    exact List.mem_append_left _ (List.mem_append_right _ hc)

namespace Location

theorem escape_not_mem_text (location : Location) : '\x1b' ∉ location.text.toList :=
  location.not_mem_text digitChar_ne_escape (by decide)

end Location

namespace Excerpt

open Printed Styled

variable {source : Source} {span : Span} {start stop : Location} {help : Option String} {row : Row}

/-- The rows that an excerpt can have. -/
theorem mem_rowsOf (h : row ∈ rowsOf source span start stop help) :
    row = .heading start ∨ row = .gutter ∨
      (∃ number, lineRow? source start stop number = some row) ∨
      (start.line = lastLine start stop ∧ row = caretRow source span start help) ∨
      ∃ content ∈ help, row = .note content := by
  have hlines (numbers : List Nat) (hrow : row ∈ numbers.filterMap (lineRow? source start stop)) :
      ∃ number, lineRow? source start stop number = some row := by
    obtain ⟨number, -, hnumber⟩ := List.mem_filterMap.mp hrow
    exact ⟨number, hnumber⟩
  have hnext (hrow : row ∈ (lineRow? source start stop (lastLine start stop + 1)).toList) :
      ∃ number, lineRow? source start stop number = some row :=
    ⟨_, Option.mem_toList.mp hrow⟩
  rw [rowsOf] at h
  split at h
  · next hsingle =>
    simp only [List.mem_append, List.mem_cons, List.not_mem_nil, or_false] at h
    rcases h with ((((hhead | hgutter) | hrow) | hcarets) | hrow) | hgutter
    · exact .inl hhead
    · exact .inr (.inl hgutter)
    · exact .inr (.inr (.inl (hlines _ hrow)))
    · exact .inr (.inr (.inr (.inl ⟨hsingle, hcarets⟩)))
    · exact .inr (.inr (.inl (hnext hrow)))
    · exact .inr (.inl hgutter)
  · simp only [List.mem_append, List.mem_cons, List.not_mem_nil, or_false, Option.mem_toList,
      Option.map_eq_some_iff] at h
    rcases h with ((((hhead | hgutter) | hrow) | hrow) | hgutter) | ⟨content, hcontent, hnote⟩
    · exact .inl hhead
    · exact .inr (.inl hgutter)
    · exact .inr (.inr (.inl (hlines _ hrow)))
    · exact .inr (.inr (.inl (hnext (Option.mem_toList.mpr hrow))))
    · exact .inr (.inl hgutter)
    · exact .inr (.inr (.inr (.inr ⟨content, hcontent, hnote.symm⟩)))

/-! ### Rows that show no escape -/

theorem isPlain_bar : bar.IsPlain := by
  simp [bar]

theorem isPlain_emptyGutter (width : Nat) : (emptyGutter width).IsPlain := by
  simp [emptyGutter, escape_not_mem_spaces, isPlain_bar]

theorem isPlain_cell {cell : Cell} (h : cell.character ≠ '\x1b') : cell.styled.IsPlain := by
  have hshown : '\x1b' ∉ cellText cell.character := by
    rw [cellText]
    split
    · decide
    · exact fun hmem => h (List.mem_singleton.mp hmem).symm
  rw [Cell.styled]
  split <;> simpa using hshown

theorem isPlain_helpText {content : String} (h : '\x1b' ∉ content.toList) :
    (helpText content).IsPlain := by
  simp [helpText, h]

theorem isPlain_heading {path : String} (width : Nat) (location : Location)
    (h : '\x1b' ∉ path.toList) : ((Row.heading location).printed path width).styled.IsPlain := by
  simp [Row.printed, isPlain_write, escape_not_mem_spaces, location.escape_not_mem_text, h]

theorem isPlain_gutter (path : String) (width : Nat) :
    (Row.gutter.printed path width).styled.IsPlain :=
  isPlain_write.mpr (isPlain_emptyGutter width)

theorem isPlain_line (path : String) (width number : Nat) {cells : List Cell}
    (h : ∀ cell ∈ cells, cell.character ≠ '\x1b') :
    ((Row.line number cells).printed path width).styled.IsPlain := by
  have hnumber := escape_not_mem_toString number
  have hcells : ∀ cell ∈ cells, cell.styled.IsPlain := fun cell hcell => isPlain_cell (h cell hcell)
  rw [Row.printed, isPlain_write, isPlain_concat, List.forall_mem_append, List.forall_mem_map]
  refine ⟨?_, hcells⟩
  simp only [List.forall_mem_cons, isPlain_painted, isPlain_hAppend, isPlain_text]
  refine ⟨⟨escape_not_mem_spaces _, hnumber⟩, ?_, isPlain_bar, ?_, List.forall_mem_nil _⟩ <;> simp

theorem isPlain_carets (path : String) (width indent count : Nat)
    (h : ∀ content ∈ help, '\x1b' ∉ content.toList) :
    ((Row.carets indent count help).printed path width).styled.IsPlain := by
  have hcarets := escape_not_mem_replicate count (show '^' ≠ '\x1b' by decide)
  have hhelp : ∀ part ∈ (help.map helpText).toList, part.IsPlain := by
    intro part hpart
    obtain ⟨content, hcontent, rfl⟩ := Option.map_eq_some_iff.mp (Option.mem_toList.mp hpart)
    exact isPlain_helpText (h content hcontent)
  apply isPlain_sequence
  simp only [List.forall_mem_cons, isPlain_write, isPlain_concat, isPlain_painted, isPlain_text]
  refine ⟨⟨isPlain_emptyGutter width, ?_, List.forall_mem_nil _⟩, isPlain_pad indent,
    ⟨hcarets, hhelp⟩, List.forall_mem_nil _⟩
  simp

theorem isPlain_note {path content : String} (width : Nat) (h : '\x1b' ∉ content.toList) :
    ((Row.note content).printed path width).styled.IsPlain := by
  simp [Row.printed, isPlain_write, escape_not_mem_spaces, isPlain_helpText h]

/-- The cells of a line are its characters. -/
theorem mem_chars_of_lineRow? {number other : Nat} {cells : List Cell} {cell : Cell}
    (h : lineRow? source start stop number = some (.line other cells)) (hcell : cell ∈ cells) :
    cell.character ∈ source.chars := by
  obtain ⟨line, hline, hrow⟩ := Option.map_eq_some_iff.mp h
  obtain ⟨-, rfl⟩ := Row.line.inj hrow
  obtain ⟨⟨c, column⟩, hc, rfl⟩ := List.mem_map.mp hcell
  have hmem : c ∈ trimLineEnd line := by
    have hpair := List.mem_map_of_mem (f := Prod.fst) hc
    rwa [List.zipIdx_map_fst] at hpair
  exact Source.mem_chars_of_mem_line? hline (mem_of_mem_trimLineEnd hmem)

/-- An excerpt shows no escape if there is none in the path, the text and the help. -/
theorem isPlain_ofSpan (span : Span) (hpath : '\x1b' ∉ source.path.toList)
    (hchars : '\x1b' ∉ source.chars) (hhelp : ∀ content ∈ help, '\x1b' ∉ content.toList) :
    (ofSpan source span help).printed.styled.IsPlain := by
  apply isPlain_sequence
  rw [List.forall_mem_map]
  intro row hrow
  refine isPlain_andThen ?_ (isPlain_write.mpr (isPlain_text.mpr (by simp)))
  rcases mem_rowsOf hrow with rfl | rfl | ⟨number, hline⟩ | ⟨-, rfl⟩ | ⟨content, hcontent, rfl⟩
  · exact isPlain_heading _ _ hpath
  · exact isPlain_gutter _ _
  · obtain ⟨line, -, rfl⟩ := Option.map_eq_some_iff.mp hline
    apply isPlain_line
    rintro cell hcell heq
    exact hchars (heq ▸ mem_chars_of_lineRow? hline hcell)
  · exact isPlain_carets _ _ _ _ hhelp
  · exact isPlain_note _ (hhelp content hcontent)

end Excerpt

open Printed Styled

theorem Severity.isPlain_message (severity : Severity) {content : String}
    (h : '\x1b' ∉ content.toList) : (severity.message content).IsPlain := by
  cases severity <;> simp [message, heading, h]

namespace Problem

theorem escape_not_mem_text (start : Nat) (problem : Problem) :
    '\x1b' ∉ (problem.text start).toList := by
  cases problem with
  | unexpectedCharacter c =>
    have htext : (unexpectedCharacter c).text start =
        "unexpected character `" ++ String.ofList (escape c) ++ "` at offset " ++
          toString start := rfl
    have hcharacter : '\x1b' ∉ (String.ofList (escape c)).toList := by
      rw [String.toList_ofList]
      exact escape_not_mem_escape c
    have hoffset := escape_not_mem_toString start
    simp only [htext, String.toList_append, List.mem_append, not_or]
    refine ⟨⟨⟨?_, hcharacter⟩, ?_⟩, hoffset⟩ <;> simp
  | unterminatedString =>
    show '\x1b' ∉ "found an unterminated string literal".toList
    simp
  | unterminatedBlockComment =>
    show '\x1b' ∉ "found an unclosed `/*` comment".toList
    simp
  | numericOverflow =>
    show '\x1b' ∉ "numeric literal is too large".toList
    simp

theorem escape_not_mem_help? (problem : Problem) :
    ∀ content ∈ problem.help?, '\x1b' ∉ content.toList := by
  have hlargest := escape_not_mem_toString Lexeme.largestNumber
  cases problem with
  | unterminatedString => simp [help?]
  | numericOverflow =>
    rintro content hcontent
    obtain rfl := Option.some.inj hcontent
    rw [String.toList_append, List.mem_append]
    refine not_or.mpr ⟨?_, hlargest⟩
    simp
  | unterminatedBlockComment | unexpectedCharacter c => simp [help?]

end Problem

/-- A report shows no escape if there is none in the path and the text of its source. -/
theorem Report.isPlain_printed (report : Report) (hpath : '\x1b' ∉ report.source.path.toList)
    (hchars : '\x1b' ∉ report.source.chars) : report.printed.styled.IsPlain := by
  have hmessage := Severity.isPlain_message report.diagnostic.severity
    (Problem.escape_not_mem_text report.diagnostic.span.start report.diagnostic.problem)
  have hexcerpt := Excerpt.isPlain_ofSpan report.diagnostic.span hpath hchars
    (Problem.escape_not_mem_help? report.diagnostic.problem)
  refine isPlain_andThen (isPlain_write.mpr ?_) hexcerpt
  simp [hmessage]

end TokenScan
