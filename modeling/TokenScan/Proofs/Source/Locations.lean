import Mathlib.Data.List.Induction
import TokenScan.Proofs.Source.Walk
import TokenScan.Proofs.Text.Rows
import TokenScan.Source.Span

/-!
What locations say about offsets. Where an offset lies between two characters, the line of its
location counts the terminators that end there or before it, and the column counts the characters
since the last of them. Locations therefore come in the order of their offsets, an offset can be
found again from its location, and spans can be compared by the locations of their ends.
-/

namespace TokenScan

open Text

namespace Text

/-- Whether a line terminator ends at the byte offset. A carriage return in front of a line feed
is none, since the two are one terminator that ends behind the line feed. -/
def endsTerminator (text : List Char) (offset : Nat) : Bool :=
  match splitAt? text offset with
  | none => false
  | some (before, after) =>
      before.getLast? = some '\n' || (before.getLast? = some '\r' && after.head? != some '\n')

def terminatorEnds (text : List Char) (offset : Nat) : List Nat :=
  (List.range (offset + 1)).filter (endsTerminator text)

theorem endsTerminator_behind (before after : List Char) (c : Char) :
    endsTerminator (before ++ c :: after) (byteLength (before ++ [c])) = endsLine c after := by
  have hsplit : splitAt? (before ++ c :: after) (byteLength (before ++ [c])) =
      some (before ++ [c], after) := splitAt?_eq_some_iff.mpr ⟨by simp, rfl⟩
  rw [endsTerminator, hsplit]
  simp [endsLine]

theorem endsTerminator_inside {c : Char} {extra : Nat} (before after : List Char)
    (hpos : extra ≠ 0) (h : extra < c.utf8Size) :
    endsTerminator (before ++ c :: after) (byteLength before + extra) = false := by
  have hsplit : splitAt? (before ++ c :: after) (byteLength before + extra) = none := by
    rw [splitAt?_append, splitAt?_cons, if_neg hpos, if_neg (Nat.not_le.mpr h), Option.map_none]
  rw [endsTerminator, hsplit]

@[simp]
theorem terminatorEnds_zero (text : List Char) : terminatorEnds text 0 = [] := by
  simp [terminatorEnds, endsTerminator]

/-- Behind a character there is one terminator more than in front of it if the character ends its
line, and otherwise there are the same ones. -/
theorem terminatorEnds_behind (before after : List Char) (c : Char) :
    terminatorEnds (before ++ c :: after) (byteLength (before ++ [c])) =
      terminatorEnds (before ++ c :: after) (byteLength before) ++
        if endsLine c after then [byteLength (before ++ [c])] else [] := by
  have hends := endsTerminator_behind before after c
  have hpos := c.utf8Size_pos
  obtain ⟨inner, hinner⟩ : ∃ inner, c.utf8Size = inner + 1 := ⟨c.utf8Size - 1, by omega⟩
  have hlength : byteLength (before ++ [c]) = byteLength before + 1 + inner := by
    rw [byteLength_append, byteLength_cons, byteLength_nil]
    omega
  rw [hlength] at hends ⊢
  have hnone : ((List.range inner).map (byteLength before + 1 + ·)).filter
      (endsTerminator (before ++ c :: after)) = [] := by
    rw [List.filter_eq_nil_iff]
    intro offset hoffset
    obtain ⟨extra, hextra, hsum⟩ := List.mem_map.mp hoffset
    have hsmall := List.mem_range.mp hextra
    rw [← hsum, Nat.add_assoc, endsTerminator_inside before after (by omega) (by omega)]
    exact Bool.false_ne_true
  rw [terminatorEnds, List.range_succ, List.range_add, List.filter_append, List.filter_append,
    hnone, List.append_nil, List.filter_cons, List.filter_nil, hends]
  rfl

end Text

namespace Location

theorem toList_text (location : Location) :
    location.text.toList =
      (toString location.line).toList ++ ':' :: (toString location.column).toList := by
  rw [text, String.toList_append, String.toList_append, List.append_assoc]
  rfl

/-- Only digits and a colon are printed for a location. -/
theorem not_mem_text {c : Char} (hdigit : ∀ digit : Nat, digit.digitChar ≠ c) (hcolon : c ≠ ':')
    (location : Location) : c ∉ location.text.toList := by
  rw [toList_text, List.mem_append, List.mem_cons, not_or, not_or]
  exact ⟨not_mem_toString hdigit _, hcolon, not_mem_toString hdigit _⟩

theorem newline_not_mem_text (location : Location) : '\n' ∉ location.text.toList :=
  location.not_mem_text digitChar_ne_newline (by decide)

theorem toList_text_injective : Function.Injective fun place : Location => place.text.toList := by
  intro first second h
  have hcolon (number : Nat) : ':' ∉ (toString number).toList :=
    not_mem_toString (fun _ => Nat.digitChar_ne ':' (by decide)) number
  dsimp only at h
  rw [toList_text, toList_text] at h
  obtain ⟨hline, hcolumn⟩ := append_cons_inj (hcolon first.line) (hcolon second.line) h
  cases first
  cases second
  exact congrArg₂ mk (toList_toString_inj hline) (toList_toString_inj hcolumn)

theorem order_self (location : Location) : location.order location = .eq := by
  simp [order]

theorem order_swap (first second : Location) : (first.order second).swap = second.order first := by
  rw [order, order, Ordering.swap_then, Nat.compare_swap, Nat.compare_swap]

theorem order_eq_lt_iff {first second : Location} :
    first.order second = .lt ↔
      first.line < second.line ∨ first.line = second.line ∧ first.column < second.column := by
  simp [order, Ordering.then_eq_lt, Nat.compare_eq_lt]

/-- A walk over some text comes to a later location. -/
theorem order_across {before : List Char} (location : Location) (after : List Char)
    (h : before ≠ []) : location.order (location.across before after) = .lt := by
  rw [order_eq_lt_iff]
  induction before generalizing location with
  | nil => exact absurd rfl h
  | cons c before ih =>
    have hpast : location.line < (location.past c (before ++ after)).line ∨
        location.line = (location.past c (before ++ after)).line ∧
          location.column < (location.past c (before ++ after)).column := by
      rw [past]
      split
      · exact .inl (Nat.lt_succ_self _)
      · exact .inr ⟨rfl, Nat.lt_succ_self _⟩
    rw [across]
    by_cases hbefore : before = []
    · rw [hbefore] at hpast ⊢
      exact hpast
    · have hlater := ih (location.past c (before ++ after)) hbefore
      omega

/-- A walk from the start of a text counts the terminators, and the characters behind the last. -/
theorem across_eq_count (before after : List Char) :
    ∃ front between, before = front ++ between ∧
      byteLength front = (terminatorEnds (before ++ after) (byteLength before)).getLastD 0 ∧
      Location.across ⟨1, 1⟩ before after =
        ⟨(terminatorEnds (before ++ after) (byteLength before)).length + 1,
          between.length + 1⟩ := by
  induction before using List.reverseRecOn generalizing after with
  | nil => exact ⟨[], [], rfl, by simp, by simp [across]⟩
  | append_singleton before c ih =>
    obtain ⟨front, between, hbefore, hfront, hwalk⟩ := ih (c :: after)
    have htext : before ++ [c] ++ after = before ++ c :: after := by simp
    rw [htext, across_append, List.singleton_append, hwalk, terminatorEnds_behind, across, across,
      List.nil_append, past]
    by_cases hends : endsLine c after = true
    · rw [if_pos hends, if_pos hends, List.getLastD_concat, List.length_append]
      exact ⟨before ++ [c], [], (List.append_nil _).symm, rfl, rfl⟩
    · rw [if_neg hends, if_neg hends, List.append_nil]
      refine ⟨front, between ++ [c], ?_, hfront, ?_⟩
      · rw [hbefore, List.append_assoc]
      · rw [List.length_append]
        rfl

end Location

namespace Text

theorem exists_append_of_mem_linesFrom {start : Nat} {text : List Char} {line : Line}
    (h : line ∈ linesFrom start text) :
    ∃ before after, text = before ++ line.chars ++ after ∧
      start + byteLength before = line.start := by
  induction text generalizing start line with
  | nil =>
    rw [linesFrom_nil, List.mem_singleton] at h
    rw [h]
    exact ⟨[], [], rfl, rfl⟩
  | cons c rest ih =>
    have hbehind : line ∈ linesFrom (start + c.utf8Size) rest →
        ∃ before after, c :: rest = before ++ line.chars ++ after ∧
          start + byteLength before = line.start := by
      intro hline
      obtain ⟨before, after, hrest, hstart⟩ := ih hline
      refine ⟨c :: before, after, by simp [hrest], ?_⟩
      rw [byteLength_cons, ← Nat.add_assoc, hstart]
    rw [linesFrom_cons] at h
    by_cases hends : endsLine c rest = true
    · rw [if_pos hends] at h
      rcases List.mem_cons.mp h with hhead | htail
      · rw [hhead]
        exact ⟨[], rest, rfl, rfl⟩
      · exact hbehind htail
    · rw [if_neg hends] at h
      obtain ⟨chars, later, hlines, -, -⟩ := linesFrom_eq_cons (start + c.utf8Size) rest
      rw [hlines] at h hbehind
      rcases List.mem_cons.mp h with hhead | htail
      · -- The first line is that of the text behind the character, with the character in front.
        obtain ⟨before, after, hrest, hstart⟩ := ih (hlines ▸ List.mem_cons_self)
        have hbefore : before = [] := byteLength_eq_zero_iff.mp (by simpa using hstart)
        rw [hhead]
        exact ⟨[], after, by simp [hrest, hbefore], rfl⟩
      · exact hbehind (List.mem_cons_of_mem _ htail)

theorem Line.holding?_eq_some {offset number found : Nat} {lines : List Line} {line : Line}
    (h : holding? offset number lines = some (found, line)) :
    (lines.head? = some line ∨ line.start ≤ offset) ∧
      ∃ index, found = number + index ∧ lines[index]? = some line := by
  fun_induction holding? offset number lines with
  | case1 => cases h
  | case2 number first =>
    cases h
    exact ⟨.inl rfl, 0, rfl, rfl⟩
  | case3 number first next rest hreached ih =>
    obtain ⟨hstart, index, hfound, hline⟩ := ih h
    refine ⟨.inr ?_, index + 1, by omega, hline⟩
    rcases hstart with hnext | hstart
    · exact Option.some.inj hnext ▸ hreached
    · exact hstart
  | case4 number first next rest =>
    cases h
    exact ⟨.inl rfl, 0, rfl, rfl⟩

end Text

namespace Source

def IsBoundary (source : Source) (offset : Nat) : Prop :=
  ∃ before, before <+: source.chars ∧ byteLength before = offset

variable {source : Source} {offset later : Nat} {location second : Location}

theorem location?_of_append {before after : List Char} (h : source.chars = before ++ after) :
    source.location? (byteLength before) = some (Location.across ⟨1, 1⟩ before after) := by
  rw [location?_eq, splitAt?_eq_some_iff.mpr ⟨h, rfl⟩, Option.map_some]

theorem exists_append_of_location? (h : source.location? offset = some location) :
    ∃ before after, source.chars = before ++ after ∧ byteLength before = offset ∧
      Location.across ⟨1, 1⟩ before after = location := by
  rw [location?_eq, Option.map_eq_some_iff] at h
  obtain ⟨⟨before, after⟩, hsplit, hwalk⟩ := h
  obtain ⟨htext, hlength⟩ := splitAt?_eq_some_iff.mp hsplit
  exact ⟨before, after, htext, hlength, hwalk⟩

theorem isSome_location?_iff : (source.location? offset).isSome ↔ source.IsBoundary offset := by
  constructor
  · intro hsome
    obtain ⟨location, hlocation⟩ := Option.isSome_iff_exists.mp hsome
    obtain ⟨before, after, htext, hlength, -⟩ := exists_append_of_location? hlocation
    exact ⟨before, ⟨after, htext.symm⟩, hlength⟩
  · intro hboundary
    obtain ⟨before, ⟨after, htext⟩, hlength⟩ := hboundary
    rw [← hlength, location?_of_append htext.symm]
    rfl

theorem IsBoundary.le_size (h : source.IsBoundary offset) : offset ≤ source.size := by
  obtain ⟨before, ⟨after, htext⟩, hlength⟩ := h
  rw [size, ← htext, byteLength_append]
  omega

theorem location?_eq_none_iff :
    source.location? offset = none ↔ source.size < offset ∨ ¬ source.IsBoundary offset := by
  rw [← Option.not_isSome_iff_eq_none, isSome_location?_iff]
  constructor
  · exact .inr
  · intro hout hboundary
    rcases hout with hpast | hnot
    · exact absurd hboundary.le_size (Nat.not_le.mpr hpast)
    · exact hnot hboundary

theorem location?_eq_count (h : source.IsBoundary offset) :
    ∃ between,
      slice? source.chars ((terminatorEnds source.chars offset).getLastD 0) offset =
        some between ∧
      source.location? offset =
        some ⟨(terminatorEnds source.chars offset).length + 1, between.length + 1⟩ := by
  obtain ⟨before, ⟨after, htext⟩, hlength⟩ := h
  obtain ⟨front, between, hbefore, hfront, hwalk⟩ := Location.across_eq_count before after
  rw [htext, hlength] at hfront hwalk
  refine ⟨between, slice?_eq_some_iff.mpr ⟨front, after, ?_, hfront, ?_⟩, ?_⟩
  · rw [← hbefore, htext]
  · rw [← hbefore, hlength]
  · rw [← hlength, location?_of_append htext.symm, hwalk, hlength]

/-- Between the two characters of a terminator one is still on the line that they end. -/
theorem location?_inside_pair {before after : List Char}
    (h : source.chars = before ++ '\r' :: '\n' :: after) :
    source.location? (byteLength before + 1) =
      (source.location? (byteLength before)).map fun location =>
        ⟨location.line, location.column + 1⟩ := by
  have hbehind : source.chars = (before ++ ['\r']) ++ '\n' :: after := by simp [h]
  have hlength : byteLength (before ++ ['\r']) = byteLength before + 1 :=
    byteLength_append before ['\r']
  rw [← hlength, location?_of_append hbehind, location?_of_append h, Location.across_append]
  rfl

/-- Locations come in the order of their offsets. -/
theorem order_of_lt (hlocation : source.location? offset = some location)
    (hsecond : source.location? later = some second) (h : offset < later) :
    location.order second = .lt := by
  obtain ⟨before, after, htext, hlength, hwalk⟩ := exists_append_of_location? hlocation
  obtain ⟨longer, rest, hrest, hlonger, hwalks⟩ := exists_append_of_location? hsecond
  have hsplit := splitAt?_append before after (later - offset)
  rw [← htext, hlength, Nat.add_sub_cancel' (Nat.le_of_lt h),
    splitAt?_eq_some_iff.mpr ⟨hrest, hlonger⟩] at hsplit
  obtain ⟨⟨between, behind⟩, hbetween, hpair⟩ := Option.map_eq_some_iff.mp hsplit.symm
  obtain ⟨hafter, hextra⟩ := splitAt?_eq_some_iff.mp hbetween
  obtain ⟨hjoined, hbehind⟩ := Prod.mk.inj hpair
  have hnonempty : between ≠ [] := by
    intro hempty
    rw [hempty, byteLength_nil] at hextra
    omega
  rw [← hwalks, ← hjoined, Location.across_append, ← hbehind, ← hafter, hwalk]
  exact Location.order_across location behind hnonempty

theorem order_eq_compare (hlocation : source.location? offset = some location)
    (hsecond : source.location? later = some second) :
    location.order second = compare offset later := by
  rcases Nat.lt_trichotomy offset later with hlt | heq | hgt
  · rw [order_of_lt hlocation hsecond hlt, Nat.compare_eq_lt.mpr hlt]
  · rw [heq, hsecond] at hlocation
    rw [heq, Option.some.inj hlocation, Location.order_self, Nat.compare_eq_eq.mpr rfl]
  · rw [← Location.order_swap, order_of_lt hsecond hlocation hgt, Nat.compare_eq_gt.mpr hgt]
    rfl

/-- A line of the table has the text of the source from its start to its end. -/
theorem slice?_of_mem_lines {line : Line} (h : line ∈ source.lines) :
    slice? source.chars line.start line.stop = some line.chars := by
  rw [source.lines_eq] at h
  obtain ⟨before, after, htext, hstart⟩ := exists_append_of_mem_linesFrom h
  rw [Nat.zero_add] at hstart
  refine slice?_eq_some_iff.mpr ⟨before, after, htext, hstart, ?_⟩
  rw [byteLength_append, hstart, Line.stop]

/-- An offset is found again by going from the start of the line as far as the column says. -/
theorem exists_line_of_location? (h : source.location? offset = some location) :
    ∃ line, source.lines[location.line - 1]? = some line ∧
      source.line? location.line = some line.chars ∧
      slice? source.chars line.start line.stop = some line.chars ∧
      location.column - 1 ≤ line.chars.length ∧
      offset = line.start + byteLength (line.chars.take (location.column - 1)) := by
  obtain ⟨⟨number, line⟩, hholding, hmap⟩ := Option.bind_eq_some_iff.mp h
  obtain ⟨⟨before, after⟩, hsplit, hlocation⟩ := Option.map_eq_some_iff.mp hmap
  obtain ⟨hchars, hlength⟩ := splitAt?_eq_some_iff.mp hsplit
  obtain ⟨hfirst, index, hnumber, hline⟩ := Line.holding?_eq_some hholding
  have hindex : number = index + 1 := by omega
  have hstart : line.start ≤ offset := by
    rcases hfirst with hhead | hstart
    · obtain ⟨chars, later, hlines, -, -⟩ := linesFrom_eq_cons 0 source.chars
      rw [source.lines_eq, Text.lines, hlines] at hhead
      rw [← Option.some.inj hhead]
      exact Nat.zero_le offset
    · exact hstart
  rw [← hlocation, hindex]
  refine ⟨line, hline, ?_, slice?_of_mem_lines (List.mem_of_getElem? hline), ?_, ?_⟩
  · rw [line?, hline, Option.map_some]
  · simp [hchars]
  · have htake : line.chars.take before.length = before := by simp [hchars]
    rw [Nat.add_sub_cancel, htake]
    omega

theorem exists_location?_of_span? {span : Span}
    (h : source.span? span.start span.stop = some span) :
    ∃ first last, source.location? span.start = some first ∧
      source.location? span.stop = some last := by
  obtain ⟨between, hslice, -⟩ := Option.map_eq_some_iff.mp h
  obtain ⟨before, after, htext, hstart, hstop⟩ := slice?_eq_some_iff.mp hslice
  have hbehind : source.chars = before ++ (between ++ after) := by
    rw [htext, List.append_assoc]
  rw [← hstart, ← hstop]
  exact ⟨_, _, location?_of_append hbehind, location?_of_append htext⟩

theorem span_order_eq {first second : Span}
    (hfirst : source.span? first.start first.stop = some first)
    (hsecond : source.span? second.start second.stop = some second) :
    ∃ firstStart firstStop secondStart secondStop,
      source.location? first.start = some firstStart ∧
      source.location? first.stop = some firstStop ∧
      source.location? second.start = some secondStart ∧
      source.location? second.stop = some secondStop ∧
      first.order second =
        (firstStart.order secondStart).then (firstStop.order secondStop) := by
  obtain ⟨firstStart, firstStop, hstart, hstop⟩ := exists_location?_of_span? hfirst
  obtain ⟨secondStart, secondStop, hsecondStart, hsecondStop⟩ := exists_location?_of_span? hsecond
  refine ⟨_, _, _, _, hstart, hstop, hsecondStart, hsecondStop, ?_⟩
  rw [Span.order, order_eq_compare hstart hsecondStart, order_eq_compare hstop hsecondStop]

/-- An offset has a location unless it is past the end or inside a character. The line counts the
terminators that end there or before, and the column the characters since the last of them. An
offset inside a terminator belongs to the line that it ends, and the end has a location. Locations
are in the order of their offsets, each is enough to find the offset again, and the order of spans
is that of the locations of their ends. -/
theorem locations_match_offsets (source : Source) :
    (∀ offset, source.location? offset = none ↔
      source.size < offset ∨ ¬ source.IsBoundary offset) ∧
    (∀ offset, source.IsBoundary offset → ∃ between,
      slice? source.chars ((terminatorEnds source.chars offset).getLastD 0) offset =
        some between ∧
      source.location? offset =
        some ⟨(terminatorEnds source.chars offset).length + 1, between.length + 1⟩) ∧
    (∀ before after, source.chars = before ++ '\r' :: '\n' :: after →
      source.location? (byteLength before + 1) =
        (source.location? (byteLength before)).map fun location =>
          ⟨location.line, location.column + 1⟩) ∧
    (source.location? source.size).isSome ∧
    (∀ first second firstLocation secondLocation,
      source.location? first = some firstLocation →
      source.location? second = some secondLocation →
      firstLocation.order secondLocation = compare first second) ∧
    (∀ offset location, source.location? offset = some location →
      ∃ line, source.lines[location.line - 1]? = some line ∧
        source.line? location.line = some line.chars ∧
        slice? source.chars line.start line.stop = some line.chars ∧
        location.column - 1 ≤ line.chars.length ∧
        offset = line.start + byteLength (line.chars.take (location.column - 1))) ∧
    ∀ first second : Span,
      source.span? first.start first.stop = some first →
      source.span? second.start second.stop = some second →
      ∃ firstStart firstStop secondStart secondStop,
        source.location? first.start = some firstStart ∧
        source.location? first.stop = some firstStop ∧
        source.location? second.start = some secondStart ∧
        source.location? second.stop = some secondStop ∧
        first.order second =
          (firstStart.order secondStart).then (firstStop.order secondStop) := by
  refine ⟨fun _ => location?_eq_none_iff, fun _ => location?_eq_count,
    fun _ _ => location?_inside_pair, ?_, fun _ _ _ _ => order_eq_compare,
    fun _ _ => exists_line_of_location?, fun _ _ => span_order_eq⟩
  exact isSome_location?_iff.mpr ⟨source.chars, List.prefix_refl _, rfl⟩

end Source

end TokenScan
