import Mathlib.Data.List.Chain
import TokenScan.Proofs.Source.Locations
import TokenScan.Source.Cursor

/-!
Where reading and the line table can take one. A cursor that is moved by reading holds just the text
behind its offset, so whatever stands between two of its places is a span of the source. The lines
of a source follow one another from its start to its end, so there is one for each offset, and
counting the lines that end before the offset finds it.
-/

namespace TokenScan

open Text

/-! ### Cursors -/

namespace Cursor

/-- A cursor comes to another by reading one character after another. -/
inductive Reads : Cursor → Cursor → Prop
  | refl (cursor : Cursor) : Reads cursor cursor
  | next {cursor after later : Cursor} {item : Nat × Char} :
      cursor.next? = some (item, after) → Reads after later → Reads cursor later

/-- The cursor has read some characters of its source, and holds those that remain. -/
structure HasRead (cursor : Cursor) (before : List Char) : Prop where
  chars : cursor.source.chars = before ++ cursor.rest
  offset : cursor.offset = byteLength before

variable {cursor later last : Cursor} {before : List Char}

theorem past_past (cursor : Cursor) (first second between rest : List Char) :
    (cursor.past first between).past second rest = cursor.past (first ++ second) rest := by
  rw [past, past, past, byteLength_append, Nat.add_assoc]

theorem reads_past {read rest : List Char} (h : cursor.rest = read ++ rest) :
    cursor.Reads (cursor.past read rest) := by
  induction read generalizing cursor with
  | nil =>
    have hsame : cursor.past [] rest = cursor := by
      rw [past, byteLength_nil, Nat.add_zero, ← List.nil_append rest, ← h]
    rw [hsame]
    exact .refl cursor
  | cons c read ih =>
    have hnext : cursor.next? = some ((cursor.offset, c), cursor.past [c] (read ++ rest)) := by
      rw [next?, h]
      rfl
    have hrest : (cursor.past [c] (read ++ rest)).Reads
        ((cursor.past [c] (read ++ rest)).past read rest) := ih rfl
    rw [past_past] at hrest
    exact .next hnext hrest

theorem reads_eatWhile (cursor : Cursor) (condition : Char → Bool) :
    cursor.Reads (cursor.eatWhile condition) :=
  reads_past List.takeWhile_append_dropWhile.symm

theorem Reads.trans (h : cursor.Reads later) (hlater : later.Reads last) : cursor.Reads last := by
  induction h with
  | refl cursor => exact hlater
  | next hnext _ ih => exact .next hnext (ih hlater)

/-- Reading a character adds it to what has been read. -/
theorem HasRead.next? (h : cursor.HasRead before) {item : Nat × Char}
    (hnext : cursor.next? = some (item, later)) :
    later.source = cursor.source ∧ later.HasRead (before ++ [item.2]) := by
  unfold Cursor.next? at hnext
  split at hnext
  · cases hnext
  · next c rest hrest =>
    cases hnext
    refine ⟨rfl, ?_, ?_⟩
    · rw [List.append_assoc, List.singleton_append]
      exact hrest ▸ h.chars
    · rw [past, h.offset, byteLength_append]

/-- What a cursor holds is always what is left of its source. -/
theorem HasRead.reads (h : cursor.HasRead before) (hreads : cursor.Reads later) :
    later.source = cursor.source ∧ ∃ read, later.HasRead (before ++ read) := by
  induction hreads generalizing before with
  | refl cursor => exact ⟨rfl, [], by rwa [List.append_nil]⟩
  | next hnext _ ih =>
    obtain ⟨hsource, hafter⟩ := h.next? hnext
    obtain ⟨hlater, read, hread⟩ := ih hafter
    rw [List.append_assoc] at hread
    exact ⟨hlater.trans hsource, _, hread⟩

theorem HasRead.slice? (h : cursor.HasRead before) :
    slice? cursor.source.chars cursor.offset cursor.source.size = some cursor.rest := by
  refine slice?_eq_some_iff.mpr ⟨before, [], ?_, h.offset.symm, ?_⟩
  · rw [h.chars, List.append_nil]
  · rw [← h.chars, Source.size]

/-- Two places of a cursor make a span. -/
theorem HasRead.spanFrom? (h : cursor.HasRead before) (hreads : cursor.Reads later) :
    later.spanFrom? cursor.offset = some ⟨cursor.offset, later.offset⟩ := by
  obtain ⟨-, read, hread⟩ := h.reads hreads
  have hslice : Text.slice? later.source.chars cursor.offset later.offset = some read :=
    slice?_eq_some_iff.mpr ⟨before, later.rest, hread.chars, h.offset.symm, hread.offset.symm⟩
  rw [Cursor.spanFrom?, Source.span?, hslice]
  rfl

end Cursor

theorem Source.hasRead_cursor (source : Source) : source.cursor.HasRead [] :=
  ⟨rfl, rfl⟩

/-! ### Lines -/

namespace Text

/-- Each line of a text starts where the one before it stops. -/
theorem isChain_linesFrom (start : Nat) (text : List Char) :
    (linesFrom start text).IsChain fun line next => next.start = line.stop := by
  induction text generalizing start with
  | nil => exact .singleton _
  | cons c rest ih =>
    have hrest := ih (start + c.utf8Size)
    obtain ⟨chars, later, hlines, -, -⟩ := linesFrom_eq_cons (start + c.utf8Size) rest
    rw [hlines] at hrest
    rw [linesFrom_cons, hlines]
    split
    · refine .cons_cons ?_ hrest
      simp [Line.stop]
    · cases later with
      | nil => exact .singleton _
      | cons next later =>
        obtain ⟨hnext, hlater⟩ := List.isChain_cons_cons.mp hrest
        refine .cons_cons ?_ hlater
        rw [hnext]
        simp [Line.stop, Nat.add_assoc]

namespace Line

/-- The index of the line that holds an offset: how many lines stop at or before it, but never past
the last line. -/
def indexAt (offset : Nat) (lines : List Line) : Nat :=
  min (lines.takeWhile fun line => line.stop ≤ offset).length (lines.length - 1)

variable {offset number : Nat} {line next : Line} {lines rest : List Line}

theorem indexAt_of_stop_le (h : line.stop ≤ offset) :
    indexAt offset (line :: next :: rest) = indexAt offset (next :: rest) + 1 := by
  rw [indexAt, indexAt, List.takeWhile_cons_of_pos (by simpa using h)]
  simp only [List.length_cons]
  omega

theorem indexAt_of_lt_stop (h : offset < line.stop) : indexAt offset (line :: rest) = 0 := by
  have hstop : ¬ line.stop ≤ offset := Nat.not_le.mpr h
  rw [indexAt, List.takeWhile_cons_of_neg (by simpa using hstop)]
  exact Nat.zero_min _

/-- Where lines follow one another, counting those that stop at or before an offset finds the one
that holds it. -/
theorem holding?_eq_getElem? (hchain : lines.IsChain fun line next => next.start = line.stop) :
    holding? offset number lines =
      lines[indexAt offset lines]?.map fun line => (number + indexAt offset lines, line) := by
  fun_induction holding? offset number lines with
  | case1 => rfl
  | case2 number line => simp [indexAt]
  | case3 number line next rest hreached ih =>
    obtain ⟨hnext, hrest⟩ := List.isChain_cons_cons.mp hchain
    have hstop : line.stop ≤ offset := hnext ▸ hreached
    rw [ih hrest, indexAt_of_stop_le hstop, List.getElem?_cons_succ, Nat.add_assoc, Nat.add_comm 1]
  | case4 number line next rest hreached =>
    obtain ⟨hnext, -⟩ := List.isChain_cons_cons.mp hchain
    have hstop : offset < line.stop := hnext ▸ Nat.not_le.mp hreached
    rw [indexAt_of_lt_stop hstop]
    rfl

end Line

end Text

namespace Source

variable {source : Source} {offset : Nat}

theorem lineCount_pos (source : Source) : 0 < source.lineCount := by
  obtain ⟨chars, later, hlines, -, -⟩ := linesFrom_eq_cons 0 source.chars
  rw [lineCount, source.lines_eq, Text.lines, hlines]
  exact Nat.succ_pos _

theorem isChain_lines (source : Source) :
    source.lines.IsChain fun line next => next.start = line.stop := by
  rw [source.lines_eq]
  exact isChain_linesFrom 0 source.chars

/-- The location of an offset is read off the line found by counting: it is on that line, behind
the characters between the start of the line and the offset. -/
theorem location?_eq_indexAt (h : source.IsBoundary offset) :
    ∃ line between, source.lines[Line.indexAt offset source.lines]? = some line ∧
      slice? source.chars line.start offset = some between ∧
      source.location? offset =
        some ⟨Line.indexAt offset source.lines + 1, between.length + 1⟩ := by
  obtain ⟨location, hlocation⟩ := Option.isSome_iff_exists.mp (isSome_location?_iff.mpr h)
  have hlocated := hlocation
  rw [location?, Line.holding?_eq_getElem? source.isChain_lines] at hlocated
  obtain ⟨⟨number, found⟩, hfound, hmap⟩ := Option.bind_eq_some_iff.mp hlocated
  obtain ⟨line, hline, hnumber⟩ := Option.map_eq_some_iff.mp hfound
  obtain ⟨⟨between, behind⟩, hsplit, rfl⟩ := Option.map_eq_some_iff.mp hmap
  obtain ⟨rfl, rfl⟩ := Prod.mk.inj hnumber
  obtain ⟨hchars, hlength⟩ := splitAt?_eq_some_iff.mp hsplit
  have hstart : line.start ≤ offset := by
    -- The line is the one by which the offset is found again from its location.
    obtain ⟨_, hsame, -, -, -, hoffset⟩ := exists_line_of_location? hlocation
    rw [Nat.add_sub_cancel_left, hline, Option.some_inj] at hsame
    rw [hoffset, hsame]
    exact Nat.le_add_right _ _
  refine ⟨line, between, hline, ?_, by rw [hlocation, Nat.add_comm 1]⟩
  obtain ⟨before, after, htext, hbefore, -⟩ :=
    slice?_eq_some_iff.mp (slice?_of_mem_lines (List.mem_of_getElem? hline))
  refine slice?_eq_some_iff.mpr ⟨before, behind ++ after, ?_, hbefore, ?_⟩
  · rw [htext, hchars, List.append_assoc, List.append_assoc, List.append_assoc]
  · rw [byteLength_append, hbefore, hlength, Nat.add_sub_cancel' hstart]

end Source

end TokenScan
