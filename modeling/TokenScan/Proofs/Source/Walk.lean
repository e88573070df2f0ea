import TokenScan.Source.Location

/-!
Locations read by walking. Going over a text one character after another leads from one location
to another: a character that ends its line leads to the start of the next, and any other one a
column on. `Source.location?_eq` is that the line table gives each offset the location that a walk
from the start of the source comes to.
-/

namespace TokenScan

open Text

namespace Location

def past (location : Location) (c : Char) (rest : List Char) : Location :=
  if endsLine c rest then ⟨location.line + 1, 1⟩ else ⟨location.line, location.column + 1⟩

/-- The location after the first of two texts. -/
def across (location : Location) : List Char → List Char → Location
  | [], _ => location
  | c :: before, after => (location.past c (before ++ after)).across before after

def down (distance : Nat) (location : Location) : Location :=
  ⟨location.line + distance, location.column⟩

theorem across_append (location : Location) (first second after : List Char) :
    location.across (first ++ second) after =
      (location.across first (second ++ after)).across second after := by
  induction first generalizing location with
  | nil => rfl
  | cons c first ih =>
    have hrest : first ++ second ++ after = first ++ (second ++ after) :=
      List.append_assoc first second after
    rw [List.cons_append, across, ih, hrest]
    rfl

theorem past_down (distance : Nat) (location : Location) (c : Char) (rest : List Char) :
    (location.down distance).past c rest = (location.past c rest).down distance := by
  unfold past
  split
  · simp [down, Nat.add_right_comm]
  · rfl

theorem across_down (distance : Nat) (location : Location) (before after : List Char) :
    (location.down distance).across before after =
      (location.across before after).down distance := by
  induction before generalizing location with
  | nil => rfl
  | cons c before ih => rw [across, past_down, ih, across]

end Location

namespace Text

@[simp]
theorem splitAt?_zero (text : List Char) : splitAt? text 0 = some ([], text) := by
  cases text <;> rfl

theorem splitFrom?_eq_map (passed text : List Char) (offset : Nat) :
    splitFrom? passed text offset =
      (splitAt? text offset).map fun (before, after) => (passed.reverse ++ before, after) := by
  apply Option.ext
  rintro ⟨before, after⟩
  rw [splitFrom?_eq_some_iff, Option.map_eq_some_iff]
  constructor
  · rintro ⟨between, hbefore, htext, hlength⟩
    have hsplit := splitAt?_eq_some_iff.mpr ⟨htext, hlength⟩
    exact ⟨(between, after), hsplit, by rw [hbefore]⟩
  · rintro ⟨⟨between, rest⟩, hsplit, hpair⟩
    obtain ⟨htext, hlength⟩ := splitAt?_eq_some_iff.mp hsplit
    obtain ⟨hbefore, hafter⟩ := Prod.mk.inj hpair
    exact ⟨between, hbefore.symm, hafter ▸ htext, hlength⟩

theorem splitAt?_cons (c : Char) (rest : List Char) (offset : Nat) :
    splitAt? (c :: rest) offset =
      if offset = 0 then some ([], c :: rest)
      else if c.utf8Size ≤ offset then
        (splitAt? rest (offset - c.utf8Size)).map fun (before, after) => (c :: before, after)
      else none := by
  cases offset with
  | zero => rfl
  | succ offset =>
    rw [splitAt?, splitFrom?, if_neg (Nat.succ_ne_zero offset)]
    split
    · exact splitFrom?_eq_map [c] rest _
    · rfl

theorem splitAt?_append (passed text : List Char) (offset : Nat) :
    splitAt? (passed ++ text) (byteLength passed + offset) =
      (splitAt? text offset).map fun (before, after) => (passed ++ before, after) := by
  induction passed with
  | nil => simp
  | cons c passed ih =>
    have hpos := c.utf8Size_pos
    have hne : byteLength (c :: passed) + offset ≠ 0 := by
      rw [byteLength_cons]
      omega
    have hfits : c.utf8Size ≤ byteLength (c :: passed) + offset := by
      rw [byteLength_cons]
      omega
    have hrest : byteLength (c :: passed) + offset - c.utf8Size = byteLength passed + offset := by
      rw [byteLength_cons]
      omega
    rw [List.cons_append, splitAt?_cons, if_neg hne, if_pos hfits, hrest, ih, Option.map_map]
    rfl

theorem splitAt?_append_left {first second : List Char} {offset : Nat}
    (h : offset ≤ byteLength first) :
    splitAt? (first ++ second) offset =
      (splitAt? first offset).map fun (before, after) => (before, after ++ second) := by
  induction first generalizing offset with
  | nil =>
    have hzero : offset = 0 := Nat.le_zero.mp h
    simp [hzero]
  | cons c first ih =>
    rw [List.cons_append, splitAt?_cons, splitAt?_cons]
    split
    · rfl
    · split
      · have hrest : offset - c.utf8Size ≤ byteLength first := by
          rw [byteLength_cons] at h
          omega
        rw [ih hrest, Option.map_map, Option.map_map]
        rfl
      · rfl

/-- Of the lines of a text the first starts where the text does, and the others behind the first. -/
theorem linesFrom_eq_cons (start : Nat) (text : List Char) :
    ∃ chars later, linesFrom start text = ⟨start, chars⟩ :: later ∧ chars.head? = text.head? ∧
      ∀ line ∈ later, start + byteLength chars ≤ line.start := by
  induction text generalizing start with
  | nil => exact ⟨[], [], rfl, rfl, nofun⟩
  | cons c rest ih =>
    obtain ⟨chars, later, hlines, -, hlater⟩ := ih (start + c.utf8Size)
    rw [linesFrom_cons, hlines]
    split
    · refine ⟨[c], _, rfl, rfl, ?_⟩
      intro line hline
      rw [byteLength_cons, byteLength_nil]
      rcases List.mem_cons.mp hline with hhead | htail
      · rw [hhead]
        exact Nat.le_refl _
      · have hstart := hlater line htail
        omega
    · refine ⟨c :: chars, later, rfl, rfl, ?_⟩
      intro line hline
      have hstart := hlater line hline
      rw [byteLength_cons]
      omega

theorem joinFirst_nil (start : Nat) (text : List Char) :
    joinFirst start [] (linesFrom start text) = linesFrom start text := by
  obtain ⟨chars, later, hlines, -, -⟩ := linesFrom_eq_cons start text
  rw [hlines]
  rfl

theorem joinFirst_joinFirst (start between : Nat) (first second : List Char) (lines : List Line) :
    joinFirst start first (joinFirst between second lines) =
      joinFirst start (first ++ second) lines := by
  cases lines with
  | nil => rfl
  | cons line later => simp [joinFirst]

end Text

/-- Walking over a character first and then on to an offset behind it. -/
theorem Location.map_across_cons {c : Char} {rest : List Char} {offset : Nat} (location : Location)
    (h : c.utf8Size ≤ offset) :
    ((splitAt? (c :: rest) offset).map fun (before, after) => location.across before after) =
      (splitAt? rest (offset - c.utf8Size)).map fun (before, after) =>
        (location.past c rest).across before after := by
  have hpos := c.utf8Size_pos
  rw [splitAt?_cons, if_neg (by omega), if_pos h, Option.map_map]
  apply Option.map_congr
  rintro ⟨before, after⟩ hsplit
  obtain ⟨htext, -⟩ := splitAt?_eq_some_iff.mp hsplit
  rw [htext]
  rfl

/-- The location of an offset in the line of a table that holds it, given the number of the first
line. -/
def Text.Line.locate? (offset number : Nat) (lines : List Line) : Option Location :=
  (Line.holding? offset number lines).bind fun (number, line) =>
    (splitAt? line.chars (offset - line.start)).map fun (before, _) =>
      ⟨number, before.length + 1⟩

namespace Text.Line

theorem holding?_of_lt {offset number : Nat} {line : Line} {later : List Line}
    (h : ∀ next ∈ later, offset < next.start) :
    holding? offset number (line :: later) = some (number, line) := by
  cases later with
  | nil => rfl
  | cons next later =>
    have hnext := h next List.mem_cons_self
    rw [holding?, if_neg (Nat.not_le.mpr hnext)]

theorem locate?_of_le {offset number : Nat} {line next : Line} {later : List Line}
    (h : next.start ≤ offset) :
    locate? offset number (line :: next :: later) =
      locate? offset (number + 1) (next :: later) := by
  rw [locate?, locate?, holding?, if_pos h]

theorem locate?_first {number start extra : Nat} {passed chars : List Char} {later : List Line}
    (hlater : ∀ line ∈ later, start + byteLength passed + extra < line.start) :
    locate? (start + byteLength passed + extra) number (⟨start, passed ++ chars⟩ :: later) =
      (splitAt? chars extra).map fun (before, _) =>
        (⟨number, (passed ++ before).length + 1⟩ : Location) := by
  have hoffset : start + byteLength passed + extra - start = byteLength passed + extra := by
    omega
  have hholding := @holding?_of_lt _ number ⟨start, passed ++ chars⟩ later hlater
  simp only [locate?, hholding, Option.bind_some, hoffset, splitAt?_append, Option.map_map]
  rfl

/-- An offset at or inside the character behind some of the first line is located by a walk. -/
theorem locate?_of_lt {number start extra : Nat} {passed chars : List Char} {c : Char}
    {later : List Line} (rest : List Char) (hinside : extra < c.utf8Size)
    (hlater : ∀ line ∈ later, start + byteLength passed + extra < line.start) :
    locate? (start + byteLength passed + extra) number (⟨start, passed ++ c :: chars⟩ :: later) =
      (splitAt? (c :: rest) extra).map fun (before, after) =>
        Location.across ⟨number, passed.length + 1⟩ before after := by
  have hnot : ¬ c.utf8Size ≤ extra := Nat.not_le.mpr hinside
  rw [locate?_first hlater, splitAt?_cons, splitAt?_cons, if_neg hnot, if_neg hnot]
  split
  · simp [Location.across]
  · rfl

/-- An offset in the rest of a text whose first line began earlier is located by a walk. -/
theorem locate?_joinFirst (number start extra : Nat) (passed text : List Char) :
    locate? (start + byteLength passed + extra) number
        (joinFirst start passed (linesFrom (start + byteLength passed) text)) =
      (splitAt? text extra).map fun (before, after) =>
        Location.across ⟨number, passed.length + 1⟩ before after := by
  induction text generalizing number start extra passed with
  | nil =>
    rw [linesFrom_nil, joinFirst, locate?_first (by simp)]
    apply Option.map_congr
    rintro ⟨before, after⟩ hsplit
    obtain ⟨htext, -⟩ := splitAt?_eq_some_iff.mp hsplit
    have hbefore : before = [] := (List.append_eq_nil_iff.mp htext.symm).1
    simp [hbefore, Location.across]
  | cons c rest ih =>
    by_cases hfits : c.utf8Size ≤ extra
    · rw [Location.map_across_cons _ hfits, Location.past, linesFrom_cons]
      by_cases hends : endsLine c rest = true
      · -- The next line begins behind the character, with nothing of it passed yet.
        have hoffset : start + byteLength passed + extra =
            start + byteLength passed + c.utf8Size + byteLength [] + (extra - c.utf8Size) := by
          rw [byteLength_nil]
          omega
        have hreached : start + byteLength passed + c.utf8Size ≤
            start + byteLength passed + extra := by omega
        have hnext := ih (number + 1) (start + byteLength passed + c.utf8Size)
          (extra - c.utf8Size) []
        rw [← hoffset, byteLength_nil, Nat.add_zero (start + _ + _), joinFirst_nil] at hnext
        obtain ⟨chars, later, hlines, -, -⟩ :=
          linesFrom_eq_cons (start + byteLength passed + c.utf8Size) rest
        rw [hlines] at hnext ⊢
        rw [if_pos hends, if_pos hends, joinFirst, locate?_of_le hreached, hnext]
        rfl
      · -- The character is one more that is passed of the same line.
        have hlength : byteLength (passed ++ [c]) = byteLength passed + c.utf8Size := by simp
        have hoffset : start + byteLength (passed ++ [c]) + (extra - c.utf8Size) =
            start + byteLength passed + extra := by
          rw [hlength]
          omega
        have hnext := ih number start (extra - c.utf8Size) (passed ++ [c])
        rw [hoffset, hlength, ← Nat.add_assoc] at hnext
        rw [if_neg hends, if_neg hends, joinFirst_joinFirst, hnext, List.length_append]
        rfl
    · obtain ⟨chars, later, hlines, hhead, hlater⟩ :=
        linesFrom_eq_cons (start + byteLength passed) (c :: rest)
      obtain ⟨more, hchars⟩ := List.head?_eq_some_iff.mp hhead
      rw [hchars] at hlines hlater
      rw [hlines, joinFirst]
      apply locate?_of_lt rest (by omega)
      intro line hline
      have hstart := hlater line hline
      rw [byteLength_cons] at hstart
      omega

end Text.Line

/-- The location of an offset is the one that a walk from the start of the source comes to. -/
theorem Source.location?_eq (source : Source) (offset : Nat) :
    source.location? offset =
      (splitAt? source.chars offset).map fun (before, after) =>
        Location.across ⟨1, 1⟩ before after := by
  have hwalk := Line.locate?_joinFirst 1 0 offset [] source.chars
  rw [byteLength_nil, Nat.add_zero, Nat.zero_add, joinFirst_nil] at hwalk
  rw [location?, source.lines_eq]
  exact hwalk

/-! ### A source behind another -/

theorem Location.across_append_of_getLast? {before after : List Char} (location : Location)
    (more : List Char) (hlast : ∀ d, (before ++ after).getLast? = some d → d = '\n') :
    location.across before (after ++ more) = location.across before after := by
  induction before generalizing location with
  | nil => rfl
  | cons c before ih =>
    have hends : endsLine c (before ++ after ++ more) = endsLine c (before ++ after) := by
      cases hrest : before ++ after with
      | nil =>
        have hc : c = '\n' := hlast c (by simp [hrest])
        simp [endsLine, hc]
      | cons d rest => rfl
    have hlater : ∀ d, (before ++ after).getLast? = some d → d = '\n' := by
      intro d hd
      apply hlast d
      rw [List.cons_append, List.getLast?_cons, hd, Option.getD_some]
    rw [Location.across, Location.across, ih _ hlater, Location.past, Location.past,
      ← List.append_assoc, hends]

/-- A walk over a text that ends with a line feed comes to the start of its last line. -/
theorem Location.across_of_getLast? {text : List Char} (start : Nat) (location : Location)
    (hlast : text.getLast? = some '\n') :
    location.across text [] = ⟨location.line + ((linesFrom start text).length - 1), 1⟩ := by
  induction text generalizing start location with
  | nil => cases hlast
  | cons c rest ih =>
    obtain ⟨chars, later, hlines, -, -⟩ := linesFrom_eq_cons (start + c.utf8Size) rest
    cases rest with
    | nil =>
      have hc : c = '\n' := by simpa using hlast
      simp [Location.across, Location.past, hc, endsLine, linesFrom_cons]
    | cons d rest =>
      have htail : (d :: rest).getLast? = some '\n' := by simpa using hlast
      have hwalk := ih (start + c.utf8Size) (location.past c (d :: rest)) htail
      rw [Location.across, List.append_nil, hwalk, linesFrom_cons start c, hlines, Location.past]
      split
      · simp only [List.length_cons, Location.mk.injEq, and_true]
        omega
      · rfl

namespace Source

variable {first second joined : Source} {offset : Nat}

/-- Text put behind a source that ends with a line feed leaves its locations alone. -/
theorem location?_of_le_size (hjoined : joined.chars = first.chars ++ second.chars)
    (hlast : first.chars.getLast? = some '\n') (h : offset ≤ first.size) :
    joined.location? offset = first.location? offset := by
  rw [location?_eq, location?_eq, hjoined, splitAt?_append_left h, Option.map_map]
  apply Option.map_congr
  rintro ⟨before, after⟩ hsplit
  obtain ⟨htext, -⟩ := splitAt?_eq_some_iff.mp hsplit
  apply Location.across_append_of_getLast?
  intro d hd
  rw [← htext, hlast] at hd
  exact (Option.some.inj hd).symm

/-- Text in front of a source that ends with a line feed moves its locations down by the lines in
front. -/
theorem location?_add_size (hjoined : joined.chars = first.chars ++ second.chars)
    (hlast : first.chars.getLast? = some '\n') :
    joined.location? (offset + first.size) =
      (second.location? offset).map (Location.down (first.lineCount - 1)) := by
  rw [location?_eq, location?_eq, hjoined, size, Nat.add_comm, splitAt?_append, Option.map_map,
    Option.map_map]
  apply Option.map_congr
  rintro ⟨before, after⟩ -
  have hend : ∀ d, (first.chars ++ []).getLast? = some d → d = '\n' := by
    intro d hd
    rw [List.append_nil, hlast] at hd
    exact (Option.some.inj hd).symm
  have hwalk := calc
    Location.across ⟨1, 1⟩ first.chars (before ++ after)
    _ = Location.across ⟨1, 1⟩ first.chars [] :=
      Location.across_append_of_getLast? ⟨1, 1⟩ (before ++ after) hend
    _ = Location.down (first.lineCount - 1) ⟨1, 1⟩ := by
      rw [Location.across_of_getLast? 0 _ hlast, lineCount, first.lines_eq]
      rfl
  show Location.across ⟨1, 1⟩ (first.chars ++ before) after = _
  rw [Location.across_append, hwalk, Location.across_down]
  rfl

end Source

end TokenScan
