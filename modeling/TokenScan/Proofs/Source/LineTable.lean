import TokenScan.Proofs.Source.Placement
import TokenScan.Proofs.Source.Returns
import TokenScan.Proofs.Text.Utf8

/-!
The table of lines. There is one way to cut a text behind each of its terminators, where a carriage
return and the line feed behind it are one terminator, and the table of a source is the text cut in
that way. The ranges in it are those found by going over the bytes of the source one by one, so
each of them begins and ends between two characters.
-/

namespace TokenScan

open Text

namespace Text

def IsUnbroken (text : List Char) : Prop :=
  ∀ c ∈ text, isLineEnd c = false

/-- The line ends with a terminator and has no other, given the text behind it. -/
inductive IsTerminated : List Char → List Char → Prop where
  | newline {body rest : List Char} : IsUnbroken body → IsTerminated (body ++ ['\n']) rest
  | pair {body rest : List Char} : IsUnbroken body → IsTerminated (body ++ ['\r', '\n']) rest
  | loneReturn {body rest : List Char} : IsUnbroken body → rest.head? ≠ some '\n' →
      IsTerminated (body ++ ['\r']) rest

/-- The lines in order are the text, the last one is unbroken, and each of the others ends with the
one terminator it has. -/
structure IsLineTable (text : List Char) (lines : List (List Char)) : Prop where
  flatten_eq : lines.flatten = text
  terminated : ∀ before line behind, lines = before ++ line :: behind → behind ≠ [] →
    IsTerminated line behind.flatten
  last : ∃ line, lines.getLast? = some line ∧ IsUnbroken line

variable {text line body rest : List Char} {lines : List (List Char)}

theorem isUnbroken_nil : IsUnbroken [] :=
  nofun

theorem isUnbroken_cons_iff {c : Char} :
    IsUnbroken (c :: rest) ↔ isLineEnd c = false ∧ IsUnbroken rest :=
  List.forall_mem_cons

theorem endsLine_eq_false {c : Char} (h : isLineEnd c = false) (rest : List Char) :
    endsLine c rest = false := by
  rw [Bool.eq_false_iff] at h ⊢
  exact mt isLineEnd_of_endsLine h

theorem IsTerminated.ne_nil (h : IsTerminated line rest) : line ≠ [] := by
  cases h <;> simp

theorem IsTerminated.cons {c : Char} (hc : isLineEnd c = false) (h : IsTerminated line rest) :
    IsTerminated (c :: line) rest := by
  cases h with
  | newline hbody => exact .newline (isUnbroken_cons_iff.mpr ⟨hc, hbody⟩)
  | pair hbody => exact .pair (isUnbroken_cons_iff.mpr ⟨hc, hbody⟩)
  | loneReturn hbody hrest => exact .loneReturn (isUnbroken_cons_iff.mpr ⟨hc, hbody⟩) hrest

/-- A text is its last line or begins with a line that is ended. -/
theorem isUnbroken_or_isTerminated (text : List Char) :
    IsUnbroken text ∨ ∃ line rest, text = line ++ rest ∧ IsTerminated line rest := by
  induction text with
  | nil => exact .inl isUnbroken_nil
  | cons c text ih =>
    by_cases hnewline : c = '\n'
    · exact .inr ⟨[c], text, rfl, hnewline ▸ .newline isUnbroken_nil⟩
    by_cases hreturn : c = '\r'
    · by_cases hhead : text.head? = some '\n'
      · obtain ⟨tail, rfl⟩ := List.head?_eq_some_iff.mp hhead
        exact .inr ⟨[c, '\n'], tail, rfl, hreturn ▸ .pair isUnbroken_nil⟩
      · exact .inr ⟨[c], text, rfl, hreturn ▸ .loneReturn isUnbroken_nil hhead⟩
    have hc : isLineEnd c = false := by simp [isLineEnd, hnewline, hreturn]
    rcases ih with hunbroken | ⟨line, rest, rfl, hline⟩
    · exact .inl (isUnbroken_cons_iff.mpr ⟨hc, hunbroken⟩)
    · exact .inr ⟨c :: line, rest, rfl, hline.cons hc⟩

/-! ### Cutting off the first line -/

theorem linesFrom_append_of_isUnbroken (h : IsUnbroken body) (start : Nat) (text : List Char) :
    linesFrom start (body ++ text) =
      joinFirst start body (linesFrom (start + byteLength body) text) := by
  induction body generalizing start with
  | nil => exact (joinFirst_nil start text).symm
  | cons c body ih =>
    obtain ⟨hc, hbody⟩ := isUnbroken_cons_iff.mp h
    rw [List.cons_append, linesFrom_cons, endsLine_eq_false hc, if_neg Bool.false_ne_true,
      ih hbody, joinFirst_joinFirst, byteLength_cons, Nat.add_assoc]
    rfl

theorem linesFrom_of_isUnbroken (h : IsUnbroken text) (start : Nat) :
    linesFrom start text = [⟨start, text⟩] := by
  have hlines := linesFrom_append_of_isUnbroken h start []
  simpa [joinFirst] using hlines

theorem linesFrom_append_ending {ending : List Char} (hbody : IsUnbroken body)
    (hending : ∀ start, linesFrom start (ending ++ rest) =
      ⟨start, ending⟩ :: linesFrom (start + byteLength ending) rest) (start : Nat) :
    linesFrom start (body ++ ending ++ rest) =
      ⟨start, body ++ ending⟩ :: linesFrom (start + byteLength (body ++ ending)) rest := by
  rw [List.append_assoc, linesFrom_append_of_isUnbroken hbody, hending, joinFirst,
    byteLength_append, Nat.add_assoc]

/-- A line that is ended is the first of the table, and the others are those of the text behind. -/
theorem linesFrom_of_isTerminated (h : IsTerminated line rest) (start : Nat) :
    linesFrom start (line ++ rest) = ⟨start, line⟩ :: linesFrom (start + byteLength line) rest := by
  cases h with
  | newline hbody =>
    exact linesFrom_append_ending hbody (fun start => by simp [linesFrom_cons, endsLine]) start
  | pair hbody =>
    refine linesFrom_append_ending hbody (fun start => ?_) start
    simp [linesFrom_cons, endsLine, joinFirst, Nat.add_assoc]
  | loneReturn hbody hrest =>
    refine linesFrom_append_ending hbody (fun start => ?_) start
    simp [linesFrom_cons, endsLine, hrest]

/-! ### The only table -/

theorem isLineTable_singleton (h : IsUnbroken text) : IsLineTable text [text] where
  flatten_eq := by simp
  terminated := by
    intro before line behind hlines hne
    have hlength := congrArg List.length hlines
    have hpos := List.length_pos_iff.mpr hne
    simp only [List.length_append, List.length_cons, List.length_nil] at hlength
    omega
  last := ⟨text, rfl, h⟩

theorem IsLineTable.cons (hline : IsTerminated line text) (h : IsLineTable text lines) :
    IsLineTable (line ++ text) (line :: lines) where
  flatten_eq := by rw [List.flatten_cons, h.flatten_eq]
  terminated := by
    intro before other behind hlines hne
    cases before with
    | nil =>
      obtain ⟨rfl, rfl⟩ := List.cons.inj hlines
      rwa [h.flatten_eq]
    | cons first before =>
      obtain ⟨rfl, hlater⟩ := List.cons.inj hlines
      exact h.terminated before other behind hlater hne
  last := by
    obtain ⟨last, hlast, hunbroken⟩ := h.last
    refine ⟨last, ?_, hunbroken⟩
    rw [List.getLast?_cons, hlast, Option.getD_some]

theorem IsLineTable.of_cons (h : IsLineTable text (line :: lines)) :
    lines = [] ∧ text = line ∧ IsUnbroken line ∨
      ∃ rest, text = line ++ rest ∧ IsTerminated line rest ∧ IsLineTable rest lines := by
  have hflatten := h.flatten_eq
  rw [List.flatten_cons] at hflatten
  obtain ⟨last, hlast, hunbroken⟩ := h.last
  cases lines with
  | nil =>
    obtain rfl : line = last := Option.some.inj hlast
    exact .inl ⟨rfl, by simpa using hflatten.symm, hunbroken⟩
  | cons next lines =>
    refine .inr ⟨_, hflatten.symm, h.terminated [] line _ rfl (List.cons_ne_nil _ _), rfl, ?_, ?_⟩
    · intro before other behind hlines
      exact h.terminated (line :: before) other behind (by rw [hlines, List.cons_append])
    · rw [List.getLast?_cons_cons] at hlast
      exact ⟨last, hlast, hunbroken⟩

/-- The lines of a text are a table of it. -/
theorem isLineTable_linesFrom (start : Nat) (text : List Char) :
    IsLineTable text ((linesFrom start text).map Line.chars) := by
  rcases isUnbroken_or_isTerminated text with hunbroken | ⟨line, rest, htext, hline⟩
  · rw [linesFrom_of_isUnbroken hunbroken]
    exact isLineTable_singleton hunbroken
  · have hpos := List.length_pos_iff.mpr hline.ne_nil
    rw [htext, linesFrom_of_isTerminated hline]
    exact (isLineTable_linesFrom _ rest).cons hline
termination_by text.length
decreasing_by
  rw [htext, List.length_append]
  omega

/-- There is no other table. -/
theorem IsLineTable.eq_linesFrom (h : IsLineTable text lines) (start : Nat) :
    lines = (linesFrom start text).map Line.chars := by
  induction lines generalizing text start with
  | nil =>
    obtain ⟨last, hlast, -⟩ := h.last
    cases hlast
  | cons line lines ih =>
    rcases h.of_cons with ⟨rfl, rfl, hunbroken⟩ | ⟨rest, rfl, hline, hlater⟩
    · rw [linesFrom_of_isUnbroken hunbroken]
      rfl
    · rw [linesFrom_of_isTerminated hline, List.map_cons, ← ih hlater]

/-- A table does not part a carriage return from the line feed behind it. -/
theorem IsLineTable.not_parted (h : IsLineTable text lines) {before behind : List (List Char)}
    (hlines : lines = before ++ behind) (hreturn : before.flatten.getLast? = some '\r') :
    behind.flatten.head? ≠ some '\n' := by
  intro hnewline
  have hbehind : behind ≠ [] := by
    rintro rfl
    cases hnewline
  rcases List.eq_nil_or_concat before with rfl | ⟨before, line, rfl⟩
  · cases hreturn
  · rw [List.concat_eq_append, List.append_assoc] at hlines
    have hline := h.terminated before line behind hlines hbehind
    rw [List.concat_eq_append, List.flatten_append, List.flatten_singleton] at hreturn
    cases hline with
    | newline => simp at hreturn
    | pair => simp at hreturn
    | loneReturn _ hrest => exact hrest hnewline

theorem IsTerminated.exists_getLast? (h : IsTerminated line rest) :
    ∃ c, line.getLast? = some c ∧ isLineEnd c = true := by
  cases h with
  | newline => exact ⟨'\n', by simp, rfl⟩
  | pair => exact ⟨'\n', by simp, rfl⟩
  | loneReturn => exact ⟨'\r', by simp, rfl⟩

/-- The last line of a table is empty just if the text is, or ends with a terminator. -/
theorem IsLineTable.getLast?_eq_nil_iff (h : IsLineTable text lines) :
    lines.getLast? = some [] ↔ ∀ c, text.getLast? = some c → isLineEnd c = true := by
  induction lines generalizing text with
  | nil =>
    obtain ⟨last, hlast, -⟩ := h.last
    cases hlast
  | cons line lines ih =>
    rcases h.of_cons with ⟨rfl, rfl, hunbroken⟩ | ⟨rest, rfl, hline, hlater⟩
    · rw [List.getLast?_singleton, Option.some_inj]
      constructor
      · rintro rfl c hc
        cases hc
      · intro hends
        rw [← List.getLast?_eq_none_iff, Option.eq_none_iff_forall_not_mem]
        intro c hc
        have hnot := hunbroken c (List.mem_of_getLast? hc)
        rw [hends c hc] at hnot
        cases hnot
    · obtain ⟨last, hlast, -⟩ := hlater.last
      obtain ⟨d, hd, hends⟩ := hline.exists_getLast?
      rw [List.getLast?_cons, hlast, Option.getD_some, ← hlast, ih hlater, List.getLast?_append, hd]
      cases rest.getLast? with
      | none => simp [hends]
      | some c => simp

/-! ### Terminators -/

theorem line_across (start : Nat) (text : List Char) (location : Location) :
    (location.across text []).line + 1 = location.line + (linesFrom start text).length := by
  induction text generalizing start location with
  | nil => rfl
  | cons c rest ih =>
    have hlater := ih (start + c.utf8Size) (location.past c rest)
    rw [Location.across, List.append_nil, hlater, linesFrom_cons, Location.past]
    split
    · rw [List.length_cons]
      dsimp only
      omega
    · rw [length_joinFirst]

/-- There is one line more than there are terminators. -/
theorem length_linesFrom_eq (text : List Char) :
    (linesFrom 0 text).length = (terminatorEnds text (byteLength text)).length + 1 := by
  obtain ⟨_, _, -, -, hwalk⟩ := Location.across_eq_count text []
  have hlines := line_across 0 text ⟨1, 1⟩
  rw [hwalk, List.append_nil] at hlines
  dsimp only at hlines
  omega

/-! ### Bytes -/

namespace Utf8

def endsLineAt (byte : UInt8) (rest : List UInt8) : Bool :=
  byte = 0x0A || (byte = 0x0D && rest.head? != some 0x0A)

/-- The ranges of the lines of some bytes, given where the first line began and where the bytes
stand. -/
def rangesFrom (start index : Nat) : List UInt8 → List (Nat × Nat)
  | [] => [(start, index)]
  | byte :: rest =>
      if endsLineAt byte rest then
        (start, index + 1) :: rangesFrom (index + 1) (index + 1) rest
      else
        rangesFrom start (index + 1) rest

/-- The byte of a character of ASCII is part of the form of that character only. -/
theorem ofNat_mem_utf8EncodeChar_iff {a c : Char} (ha : a.toNat < 0x80) :
    UInt8.ofNat a.toNat ∈ String.utf8EncodeChar c ↔ c = a := by
  have hnumber : c = a ↔ c.val.toNat = a.toNat := Char.toNat_inj.symm
  rw [hnumber, String.utf8EncodeChar]
  split_ifs
  all_goals
    simp only [List.mem_cons, List.not_mem_nil, or_false, ← UInt8.toNat_inj, UInt8.toNat_ofNat']
    omega

theorem newline_mem_utf8EncodeChar_iff {c : Char} :
    0x0A ∈ String.utf8EncodeChar c ↔ c = '\n' :=
  @ofNat_mem_utf8EncodeChar_iff '\n' c (by decide)

theorem return_mem_utf8EncodeChar_iff {c : Char} :
    0x0D ∈ String.utf8EncodeChar c ↔ c = '\r' :=
  @ofNat_mem_utf8EncodeChar_iff '\r' c (by decide)

theorem head?_encode_eq_newline_iff {text : List Char} :
    (encode text).head? = some 0x0A ↔ text.head? = some '\n' := by
  cases text with
  | nil => simp
  | cons c rest =>
    obtain ⟨first, bytes, hform⟩ := exists_utf8EncodeChar_eq_cons c
    rw [encode_cons, hform, List.cons_append, List.head?_cons, List.head?_cons, Option.some_inj,
      Option.some_inj]
    constructor
    · rintro rfl
      exact newline_mem_utf8EncodeChar_iff.mp (hform ▸ List.mem_cons_self)
    · rintro rfl
      exact (List.cons.inj hform).1.symm

/-- Bytes that end no line are passed over. -/
theorem rangesFrom_append {bytes : List UInt8} (h : ∀ byte ∈ bytes, byte ≠ 0x0A ∧ byte ≠ 0x0D)
    (start index : Nat) (rest : List UInt8) :
    rangesFrom start index (bytes ++ rest) = rangesFrom start (index + bytes.length) rest := by
  induction bytes generalizing index with
  | nil => rfl
  | cons byte bytes ih =>
    obtain ⟨⟨hnewline, hreturn⟩, hbytes⟩ := List.forall_mem_cons.mp h
    have hends : endsLineAt byte (bytes ++ rest) = false := by
      simp [endsLineAt, hnewline, hreturn]
    rw [List.cons_append, rangesFrom, hends, if_neg Bool.false_ne_true, ih hbytes,
      List.length_cons, Nat.add_assoc, Nat.add_comm 1]

/-- The bytes of a character end a line just if the character does. -/
theorem rangesFrom_encode_cons (start index : Nat) (c : Char) (rest : List Char) :
    rangesFrom start index (encode (c :: rest)) =
      if endsLine c rest then
        (start, index + c.utf8Size) ::
          rangesFrom (index + c.utf8Size) (index + c.utf8Size) (encode rest)
      else
        rangesFrom start (index + c.utf8Size) (encode rest) := by
  rw [encode_cons]
  by_cases hnewline : c = '\n'
  · subst hnewline
    rfl
  by_cases hreturn : c = '\r'
  · subst hreturn
    have hends : endsLineAt 0x0D (encode rest) = endsLine '\r' rest := by
      rw [Bool.eq_iff_iff]
      simp [endsLineAt, endsLine, head?_encode_eq_newline_iff]
    rw [← hends]
    rfl
  · have hbytes : ∀ byte ∈ String.utf8EncodeChar c, byte ≠ 0x0A ∧ byte ≠ 0x0D := by
      rintro byte hbyte
      refine ⟨?_, ?_⟩
      · rintro rfl
        exact hnewline (newline_mem_utf8EncodeChar_iff.mp hbyte)
      · rintro rfl
        exact hreturn (return_mem_utf8EncodeChar_iff.mp hbyte)
    have hends : endsLine c rest = false := by simp [endsLine, hnewline, hreturn]
    rw [rangesFrom_append hbytes, String.length_utf8EncodeChar, hends, if_neg Bool.false_ne_true]

/-- Going over the bytes finds the ranges of the lines. -/
theorem rangesFrom_encode {text : List Char} {first : Line} {later : List Line} {index : Nat}
    (start : Nat) (h : linesFrom index text = first :: later) :
    rangesFrom start index (encode text) =
      (start, first.stop) :: later.map fun line => (line.start, line.stop) := by
  induction text generalizing start index first later with
  | nil =>
    obtain ⟨rfl, rfl⟩ := List.cons.inj h
    rfl
  | cons c rest ih =>
    obtain ⟨chars, others, hlines, -, -⟩ := linesFrom_eq_cons (index + c.utf8Size) rest
    rw [linesFrom_cons, hlines] at h
    rw [rangesFrom_encode_cons, ih _ hlines, ih _ hlines]
    split at h
    · next hends =>
      obtain ⟨rfl, rfl⟩ := List.cons.inj h
      simp [hends, Line.stop]
    · next hends =>
      obtain ⟨rfl, rfl⟩ := List.cons.inj h
      simp [hends, Line.stop, Nat.add_assoc]

end Utf8

end Text

namespace Source

variable {source : Source} {number : Nat}

/-- The text of each line of a source. -/
theorem isLineTable (source : Source) :
    IsLineTable source.chars (source.lines.map Line.chars) := by
  rw [source.lines_eq]
  exact isLineTable_linesFrom 0 source.chars

theorem line?_add_one (source : Source) (index : Nat) :
    source.line? (index + 1) = (source.lines.map Line.chars)[index]? := by
  rw [line?, List.getElem?_map]

theorem line?_eq_none_iff :
    source.line? number = none ↔ number = 0 ∨ source.lineCount < number := by
  cases number with
  | zero => exact iff_of_true rfl (.inl rfl)
  | succ index =>
    rw [line?, Option.map_eq_none_iff, List.getElem?_eq_none_iff, lineCount]
    omega

theorem map_line? (source : Source) :
    (List.range' 1 source.lineCount).map source.line? =
      (source.lines.map Line.chars).map some := by
  apply List.ext_getElem
  · simp [lineCount]
  · intro index _ hindex
    rw [List.length_map, List.length_map] at hindex
    rw [List.getElem_map, List.getElem_map, List.getElem_map, List.getElem_range', Nat.one_mul,
      Nat.add_comm, line?, List.getElem?_eq_getElem hindex, Option.map_some]

theorem line?_lineCount (source : Source) :
    source.line? source.lineCount = (source.lines.map Line.chars).getLast? := by
  obtain ⟨index, hcount⟩ := Nat.exists_eq_add_one.mpr source.lineCount_pos
  rw [hcount, line?_add_one, List.getLast?_eq_getElem?, List.length_map, ← lineCount, hcount]
  rfl

example : (ofText "a.lex" "a\r\r\nb\n\r").lines.map Line.chars =
    [['a', '\r'], ['\r', '\n'], ['b', '\n'], ['\r'], []] := by
  decide

/-- The ranges of the lines, found by going over the bytes of the source. -/
theorem rangesFrom_chars (source : Source) :
    Utf8.rangesFrom 0 0 (Utf8.encode source.chars) =
      source.lines.map fun line => (line.start, line.stop) := by
  obtain ⟨chars, later, hlines, -, -⟩ := linesFrom_eq_cons 0 source.chars
  rw [Utf8.rangesFrom_encode 0 hlines, source.lines_eq, Text.lines, hlines]
  rfl

theorem isBoundary_of_mem_lines {line : Line} (h : line ∈ source.lines) :
    source.IsBoundary line.start ∧ source.IsBoundary line.stop := by
  obtain ⟨before, after, htext, hstart, hstop⟩ := slice?_eq_some_iff.mp (slice?_of_mem_lines h)
  refine ⟨⟨before, ⟨line.chars ++ after, ?_⟩, hstart⟩, ⟨before ++ line.chars, ⟨after, ?_⟩, hstop⟩⟩
  · rw [htext, List.append_assoc]
  · rw [htext]

theorem line?_eq_slice? (source : Source) (index : Nat) :
    source.line? (index + 1) =
      (Utf8.rangesFrom 0 0 (Utf8.encode source.chars))[index]?.bind fun (start, stop) =>
        slice? source.chars start stop := by
  rw [rangesFrom_chars, line?, List.getElem?_map]
  cases hline : source.lines[index]? with
  | none => rfl
  | some line => exact (slice?_of_mem_lines (List.mem_of_getElem? hline)).symm

/-- The lines that a source gives for the numbers from one to their count, and for no others, are
its text cut behind each terminator, which is the only such way to cut it. So there is one line
more than there are terminators, and an empty one behind a terminator at the end. A carriage return
is not parted from its line feed, and the ranges found by going over the bytes lie between
characters. -/
theorem line_table (source : Source) :
    (List.range' 1 source.lineCount).map source.line? =
      (source.lines.map Line.chars).map some ∧
    (∀ number, source.line? number = none ↔ number = 0 ∨ source.lineCount < number) ∧
    (∀ lines, IsLineTable source.chars lines ↔ lines = source.lines.map Line.chars) ∧
    source.lineCount = (terminatorEnds source.chars source.size).length + 1 ∧
    (source.chars = [] → source.lineCount = 1) ∧
    (source.line? source.lineCount = some [] ↔
      ∀ c, source.chars.getLast? = some c → c = '\n' ∨ c = '\r') ∧
    (∀ before behind, source.lines.map Line.chars = before ++ behind →
      before.flatten.getLast? = some '\r' → behind.flatten.head? ≠ some '\n') ∧
    Utf8.rangesFrom 0 0 (Utf8.encode source.chars) =
      source.lines.map (fun line => (line.start, line.stop)) ∧
    (∀ line ∈ source.lines, source.IsBoundary line.start ∧ source.IsBoundary line.stop) ∧
    ∀ index, source.line? (index + 1) =
      (Utf8.rangesFrom 0 0 (Utf8.encode source.chars))[index]?.bind fun (start, stop) =>
        slice? source.chars start stop := by
  have htable := source.isLineTable
  have hcount : source.lineCount = (terminatorEnds source.chars source.size).length + 1 := by
    rw [lineCount, source.lines_eq]
    exact length_linesFrom_eq source.chars
  refine ⟨source.map_line?, fun _ => line?_eq_none_iff, ?_, hcount, ?_, ?_,
    fun _ _ => htable.not_parted, source.rangesFrom_chars, fun _ => isBoundary_of_mem_lines,
    source.line?_eq_slice?⟩
  · intro lines
    constructor
    · intro hlines
      rw [source.lines_eq]
      exact hlines.eq_linesFrom 0
    · rintro rfl
      exact htable
  · intro hempty
    rw [hcount, size, hempty, byteLength_nil, terminatorEnds_zero]
    rfl
  · rw [line?_lineCount, htable.getLast?_eq_nil_iff]
    simp [isLineEnd]

end Source

end TokenScan
