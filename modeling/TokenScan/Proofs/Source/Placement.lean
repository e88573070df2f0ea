import TokenScan.Proofs.Source.Cursors
import TokenScan.Proofs.Text.Parts

/-!
Where the characters of a source stand. `located` gives every character of a text the location that
a walk comes to in front of it. Read line after line, these are the lines of the source with their
numbers and columns (`Source.located_eq`), and those from one location up to another are the
characters between the two offsets (`Source.filter_located`).
-/

namespace TokenScan

open Text

def Location.isWithin (here start stop : Location) : Bool :=
  !here.isBefore start && here.isBefore stop

namespace Text

def isLineEnd (c : Char) : Bool :=
  c = '\n' || c = '\r'

/-! ### The end of a line -/

theorem trimLineEnd_eq (text : List Char) :
    trimLineEnd text = (text.reverse.dropWhile isLineEnd).reverse := rfl

theorem trimLineEnd_append_of_isLineEnd {body ending : List Char}
    (h : ∀ c ∈ ending, isLineEnd c = true) : trimLineEnd (body ++ ending) = trimLineEnd body := by
  have hreverse : ∀ c ∈ ending.reverse, isLineEnd c = true :=
    fun c hc => h c (List.mem_reverse.mp hc)
  rw [trimLineEnd_eq, trimLineEnd_eq, List.reverse_append, List.dropWhile_append_of_pos hreverse]

theorem trimLineEnd_eq_self {body : List Char} (h : ∀ c ∈ body, isLineEnd c = false) :
    trimLineEnd body = body := by
  rw [trimLineEnd_eq]
  cases hreverse : body.reverse with
  | nil => rw [List.dropWhile_nil, ← hreverse, List.reverse_reverse]
  | cons c rest =>
    have hc := h c (List.mem_reverse.mp (hreverse ▸ List.mem_cons_self))
    rw [List.dropWhile_cons_of_neg (by rw [hc]; exact Bool.false_ne_true), ← hreverse,
      List.reverse_reverse]

theorem isLineEnd_of_endsLine {c : Char} {rest : List Char} (h : endsLine c rest = true) :
    isLineEnd c = true := by
  rw [endsLine, Bool.or_eq_true, Bool.and_eq_true] at h
  rw [isLineEnd, Bool.or_eq_true]
  exact h.imp_right And.left

theorem eq_of_endsLine_eq_false {c : Char} {rest : List Char} (h : endsLine c rest = false) :
    isLineEnd c = false ∨ c = '\r' ∧ rest.head? = some '\n' := by
  by_cases hreturn : c = '\r'
  · right
    subst hreturn
    simpa [endsLine] using h
  · left
    have hnewline : c ≠ '\n' := by
      rintro rfl
      simp [endsLine] at h
    simp [isLineEnd, hreturn, hnewline]

/-- The body of a line is what stands in front of its terminator, or all of it if it has none. -/
structure IsBody (body line : List Char) : Prop where
  plain : ∀ c ∈ body, isLineEnd c = false
  line_eq : ∃ terminator ∈ [[], ['\n'], ['\r'], ['\r', '\n']], line = body ++ terminator

theorem IsBody.exists_ending {body line : List Char} (h : IsBody body line) :
    ∃ ending, line = body ++ ending ∧ ∀ c ∈ ending, isLineEnd c = true := by
  obtain ⟨ending, hending, hline⟩ := h.line_eq
  have hends : ∀ terminator ∈ [[], ['\n'], ['\r'], ['\r', '\n']],
      ∀ c ∈ terminator, isLineEnd c = true := by simp [isLineEnd]
  exact ⟨ending, hline, hends ending hending⟩

/-- Trimming a line leaves its body. -/
theorem IsBody.trimLineEnd_eq {body line : List Char} (h : IsBody body line) :
    trimLineEnd line = body := by
  obtain ⟨ending, hline, hending⟩ := h.exists_ending
  rw [hline, trimLineEnd_append_of_isLineEnd hending, trimLineEnd_eq_self h.plain]

theorem exists_body_of_mem_linesFrom {start : Nat} {text : List Char} {line : Line}
    (h : line ∈ linesFrom start text) : ∃ body, IsBody body line.chars := by
  induction text generalizing start line with
  | nil =>
    obtain rfl := List.mem_singleton.mp h
    exact ⟨[], nofun, [], by simp, rfl⟩
  | cons c rest ih =>
    rw [linesFrom_cons] at h
    cases hends : endsLine c rest with
    | true =>
      rw [hends, if_pos rfl] at h
      rcases List.mem_cons.mp h with rfl | hlater
      · refine ⟨[], nofun, [c], ?_, rfl⟩
        have hc := isLineEnd_of_endsLine hends
        rw [isLineEnd, Bool.or_eq_true, decide_eq_true_eq, decide_eq_true_eq] at hc
        rcases hc with rfl | rfl <;> simp
      · exact ih hlater
    | false =>
      rw [hends, if_neg Bool.false_ne_true] at h
      obtain ⟨chars, later, hlines, -, -⟩ := linesFrom_eq_cons (start + c.utf8Size) rest
      rw [hlines] at h
      rcases List.mem_cons.mp h with rfl | hlater
      · rcases eq_of_endsLine_eq_false hends with hplain | ⟨rfl, hhead⟩
        · obtain ⟨body, hbody, terminator, hterminator, hchars⟩ := ih (hlines ▸ List.mem_cons_self)
          refine ⟨c :: body, List.forall_mem_cons.mpr ⟨hplain, hbody⟩, terminator, hterminator, ?_⟩
          simp [← hchars]
        · -- The line feed behind the carriage return is a line of its own in the rest.
          obtain ⟨tail, rfl⟩ := List.head?_eq_some_iff.mp hhead
          have hnewline : endsLine '\n' tail = true := by simp [endsLine]
          rw [linesFrom_cons, hnewline, if_pos rfl] at hlines
          obtain ⟨hfirst, -⟩ := List.cons.inj hlines
          obtain ⟨-, rfl⟩ := Line.mk.inj hfirst
          exact ⟨[], nofun, ['\r', '\n'], by simp, rfl⟩
      · exact ih (hlines ▸ List.mem_cons_of_mem _ hlater)

theorem isBody_of_mem_linesFrom {start : Nat} {text : List Char} {line : Line}
    (h : line ∈ linesFrom start text) : IsBody (trimLineEnd line.chars) line.chars := by
  obtain ⟨body, hbody⟩ := exists_body_of_mem_linesFrom h
  rwa [hbody.trimLineEnd_eq]

/-! ### Locations of characters -/

/-- The characters of a text with their locations, given that of the first and the text behind. -/
def located (location : Location) (after : List Char) : List Char → List (Location × Char)
  | [] => []
  | c :: rest => (location, c) :: located (location.past c (rest ++ after)) after rest

def placed (number column : Nat) (line : List Char) : List (Location × Char) :=
  (line.zipIdx column).map fun (c, column) => (⟨number, column⟩, c)

theorem located_append (location : Location) (first second after : List Char) :
    located location after (first ++ second) =
      located location (second ++ after) first ++
        located (location.across first (second ++ after)) after second := by
  induction first generalizing location with
  | nil => rfl
  | cons c first ih =>
    rw [List.cons_append, located, ih, List.append_assoc]
    rfl

theorem map_snd_located (location : Location) (after text : List Char) :
    (located location after text).map Prod.snd = text := by
  induction text generalizing location with
  | nil => rfl
  | cons c text ih => rw [located, List.map_cons, ih]

theorem exists_append_of_mem_located {location here : Location} {after text : List Char} {c : Char}
    (h : (here, c) ∈ located location after text) :
    ∃ before rest, text = before ++ c :: rest ∧
      here = location.across before (c :: rest ++ after) := by
  induction text generalizing location with
  | nil => cases h
  | cons d text ih =>
    rcases List.mem_cons.mp h with heq | hlater
    · obtain ⟨rfl, rfl⟩ := Prod.mk.inj heq
      exact ⟨[], text, rfl, rfl⟩
    · obtain ⟨before, rest, rfl, rfl⟩ := ih hlater
      exact ⟨d :: before, rest, rfl, by simp [Location.across]⟩

/-- A walk comes to no character before its start, nor to one behind its end. -/
theorem isBefore_of_mem_located {location : Location} {after text : List Char}
    {entry : Location × Char} (h : entry ∈ located location after text) :
    entry.1.isBefore location = false ∧ entry.1.isBefore (location.across text after) = true := by
  obtain ⟨here, c⟩ := entry
  obtain ⟨before, rest, rfl, rfl⟩ := exists_append_of_mem_located h
  constructor
  · by_cases hbefore : before = []
    · subst hbefore
      rw [Location.isBefore, Location.across, Location.order_self]
      rfl
    · rw [Location.isBefore, ← Location.order_swap,
        Location.order_across location (c :: rest ++ after) hbefore]
      rfl
  · rw [Location.isBefore, Location.across_append,
      Location.order_across _ after (List.cons_ne_nil c rest)]
    rfl

theorem placed_append (number column : Nat) (first second : List Char) :
    placed number column (first ++ second) =
      placed number column first ++ placed number (column + first.length) second := by
  rw [placed, List.zipIdx_append, List.map_append]
  rfl

theorem map_snd_placed (number column : Nat) (line : List Char) :
    (placed number column line).map Prod.snd = line := by
  rw [placed, List.map_map]
  exact List.zipIdx_map_fst column line

theorem mem_placed {number column : Nat} {line : List Char} {here : Location} {c : Char}
    (h : (here, c) ∈ placed number column line) :
    here.line = number ∧ column ≤ here.column ∧ here.column < column + line.length ∧ c ∈ line := by
  obtain ⟨⟨d, position⟩, hmem, heq⟩ := List.mem_map.mp h
  obtain ⟨rfl, rfl⟩ := Prod.mk.inj heq
  obtain ⟨hfirst, hlast, hd⟩ := List.mem_zipIdx hmem
  exact ⟨rfl, hfirst, hlast, hd ▸ List.getElem_mem _⟩

/-- A walk over a text goes along its lines. -/
theorem located_eq_placed {start : Nat} {text : List Char} {first : Line} {later : List Line}
    (number column : Nat) (h : linesFrom start text = first :: later) :
    located ⟨number, column⟩ [] text =
      placed number column first.chars ++
        (later.zipIdx (number + 1)).flatMap fun (line, number) => placed number 1 line.chars := by
  induction text generalizing start first later number column with
  | nil =>
    obtain ⟨rfl, rfl⟩ := List.cons.inj h
    rfl
  | cons c rest ih =>
    obtain ⟨chars, others, hlines, -, -⟩ := linesFrom_eq_cons (start + c.utf8Size) rest
    rw [linesFrom_cons, hlines] at h
    rw [located, List.append_nil, Location.past]
    cases hends : endsLine c rest with
    | true =>
      rw [hends, if_pos rfl] at h
      obtain ⟨rfl, rfl⟩ := List.cons.inj h
      rw [if_pos rfl, ih _ _ hlines, List.zipIdx_cons, List.flatMap_cons]
      rfl
    | false =>
      rw [hends, if_neg Bool.false_ne_true] at h
      obtain ⟨rfl, rfl⟩ := List.cons.inj h
      rw [if_neg Bool.false_ne_true, ih _ _ hlines]
      rfl

end Text

namespace Source

variable {source : Source}

/-- The characters of a source stand where they stand in its lines. -/
theorem located_eq (source : Source) :
    located ⟨1, 1⟩ [] source.chars =
      (List.range' 1 source.lineCount).flatMap fun number =>
        placed number 1 ((source.line? number).getD []) := by
  obtain ⟨chars, later, hlines, -, -⟩ := linesFrom_eq_cons 0 source.chars
  have hwalk := located_eq_placed 1 1 hlines
  have hzip : located ⟨1, 1⟩ [] source.chars =
      (source.lines.zipIdx 1).flatMap fun (line, number) => placed number 1 line.chars := by
    rw [hwalk, source.lines_eq, Text.lines, hlines, List.zipIdx_cons, List.flatMap_cons]
  have hpair : ∀ entry ∈ source.lines.zipIdx 1,
      placed entry.2 1 entry.1.chars = placed entry.2 1 ((source.line? entry.2).getD []) := by
    rintro ⟨line, number⟩ hentry
    obtain ⟨index, rfl⟩ := Nat.exists_eq_add_of_le (List.le_snd_of_mem_zipIdx hentry)
    have hget := List.mk_add_mem_zipIdx_iff_getElem?.mp hentry
    rw [Nat.add_comm 1 index, line?, hget, Option.map_some, Option.getD_some]
  rw [hzip, List.flatMap_congr hpair, lineCount, ← List.zipIdx_map_snd 1 source.lines,
    List.flatMap_map]

/-- From the location of one end of a span up to that of the other stand its characters. -/
theorem filter_located {span : Span} {start stop : Location} {between : List Char}
    (hslice : slice? source.chars span.start span.stop = some between)
    (hstart : source.location? span.start = some start)
    (hstop : source.location? span.stop = some stop) :
    ((located ⟨1, 1⟩ [] source.chars).filter fun entry =>
      entry.1.isWithin start stop).map Prod.snd = between := by
  obtain ⟨before, after, htext, hbefore, hbehind⟩ := slice?_eq_some_iff.mp hslice
  rw [List.append_assoc] at htext
  rw [← hbefore, location?_of_append htext, Option.some_inj] at hstart
  rw [← List.append_assoc] at htext
  rw [← hbehind, location?_of_append htext, Option.some_inj, Location.across_append,
    hstart] at hstop
  have hfirst : ∀ entry ∈ located ⟨1, 1⟩ (between ++ after) before,
      entry.1.isWithin start stop = false := by
    intro entry hentry
    have hearly := (isBefore_of_mem_located hentry).2
    rw [hstart] at hearly
    rw [Location.isWithin, hearly, Bool.not_true, Bool.false_and]
  have hmiddle : ∀ entry ∈ located start after between, entry.1.isWithin start stop = true := by
    intro entry hentry
    obtain ⟨hlate, hearly⟩ := isBefore_of_mem_located hentry
    rw [hstop] at hearly
    rw [Location.isWithin, hlate, hearly, Bool.not_false, Bool.true_and]
  have hlast : ∀ entry ∈ located stop [] after, entry.1.isWithin start stop = false := by
    intro entry hentry
    rw [Location.isWithin, (isBefore_of_mem_located hentry).1, Bool.and_false]
  rw [htext, List.append_assoc, located_append, located_append, List.append_nil, List.append_nil,
    hstart, hstop, ← List.append_assoc, filter_between hfirst hmiddle hlast,
    map_snd_located]

end Source

end TokenScan
