/-!
Byte offsets into text. Text is a list of characters, and an offset counts bytes of its UTF-8
form, so only some offsets fall between two characters. `splitAt?` is the one place where an
offset meets text: it splits exactly at those boundaries, and slices and boundary tests are
read off it.
-/

namespace TokenScan.Text

/-- The number of bytes in the UTF-8 form of the text. -/
def byteLength (text : List Char) : Nat :=
  text.foldl (fun length c => length + c.utf8Size) 0

@[simp]
theorem byteLength_nil : byteLength [] = 0 := rfl

theorem foldl_add_utf8Size (length : Nat) (text : List Char) :
    text.foldl (fun length c => length + c.utf8Size) length = length + byteLength text := by
  induction text generalizing length with
  | nil => rfl
  | cons c rest ih =>
    have whole : byteLength (c :: rest) = 0 + c.utf8Size + byteLength rest :=
      ih (0 + c.utf8Size)
    have rest : (c :: rest).foldl (fun length c => length + c.utf8Size) length =
        length + c.utf8Size + byteLength rest := ih (length + c.utf8Size)
    omega

@[simp]
theorem byteLength_cons (c : Char) (rest : List Char) :
    byteLength (c :: rest) = c.utf8Size + byteLength rest := by
  rw [byteLength, List.foldl_cons, foldl_add_utf8Size, Nat.zero_add]

@[simp]
theorem byteLength_append (before after : List Char) :
    byteLength (before ++ after) = byteLength before + byteLength after := by
  induction before with
  | nil => simp
  | cons c before ih => simp [ih, Nat.add_assoc]

@[simp]
theorem byteLength_reverse (text : List Char) : byteLength text.reverse = byteLength text := by
  induction text with
  | nil => rfl
  | cons c text ih => simp [ih, Nat.add_comm]

theorem byteLength_eq_zero_iff {text : List Char} : byteLength text = 0 ↔ text = [] := by
  cases text with
  | nil => simp
  | cons c rest =>
    have := c.utf8Size_pos
    simp only [byteLength_cons, reduceCtorEq, iff_false]
    omega

/-- Splitting with the characters already passed held in reverse. -/
def splitFrom? (passed : List Char) : List Char → Nat → Option (List Char × List Char)
  | rest, 0 => some (passed.reverse, rest)
  | [], _ + 1 => none
  | c :: rest, offset + 1 =>
      if c.utf8Size ≤ offset + 1 then
        splitFrom? (c :: passed) rest (offset + 1 - c.utf8Size)
      else
        none

/-- The text before and after a byte offset. There is none when the offset lies inside a
character or past the end. -/
def splitAt? (text : List Char) (offset : Nat) : Option (List Char × List Char) :=
  splitFrom? [] text offset

theorem splitFrom?_eq_some_iff {passed text : List Char} {offset : Nat}
    {before after : List Char} :
    splitFrom? passed text offset = some (before, after) ↔
      ∃ between, before = passed.reverse ++ between ∧ text = between ++ after ∧
        byteLength between = offset := by
  fun_induction splitFrom? passed text offset with
  | case1 passed rest =>
    constructor
    · intro h
      simp only [Option.some.injEq, Prod.mk.injEq] at h
      exact ⟨[], by simp [h.1], by simp [h.2], rfl⟩
    · rintro ⟨between, rfl, rfl, h⟩
      obtain rfl := byteLength_eq_zero_iff.mp h
      simp
  | case2 passed offset =>
    constructor
    · intro h
      cases h
    · rintro ⟨between, _, h, hlength⟩
      obtain ⟨rfl, _⟩ := List.append_eq_nil_iff.mp h.symm
      simp at hlength
  | case3 passed c rest offset fits ih =>
    rw [ih]
    constructor
    · rintro ⟨between, rfl, rfl, h⟩
      refine ⟨c :: between, by simp, rfl, ?_⟩
      rw [byteLength_cons, h]
      exact Nat.add_sub_cancel' fits
    · rintro ⟨between, rfl, h, hlength⟩
      cases between with
      | nil => simp at hlength
      | cons d between =>
        simp only [List.cons_append, List.cons.injEq] at h
        obtain ⟨rfl, rfl⟩ := h
        simp only [byteLength_cons] at hlength
        exact ⟨between, by simp, rfl, by omega⟩
  | case4 passed c rest offset tooLong =>
    constructor
    · intro h
      cases h
    · rintro ⟨between, _, h, hlength⟩
      cases between with
      | nil => simp at hlength
      | cons d between =>
        simp only [List.cons_append, List.cons.injEq] at h
        obtain ⟨rfl, _⟩ := h
        simp only [byteLength_cons] at hlength
        omega

/-- A split succeeds exactly when the text is the two parts in order and the first has the
given length. -/
theorem splitAt?_eq_some_iff {text : List Char} {offset : Nat} {before after : List Char} :
    splitAt? text offset = some (before, after) ↔
      text = before ++ after ∧ byteLength before = offset := by
  rw [splitAt?, splitFrom?_eq_some_iff]
  simp

def isBoundary (text : List Char) (offset : Nat) : Bool :=
  (splitAt? text offset).isSome

/-- The text from one byte offset up to another. There is none when the offsets are reversed,
out of range, or inside a character. -/
def slice? (text : List Char) (start stop : Nat) : Option (List Char) :=
  if start ≤ stop then
    (splitAt? text start).bind fun (_, after) =>
      (splitAt? after (stop - start)).map fun (between, _) => between
  else
    none

/-- A slice is the part of the text that has exactly `start` bytes before it and ends at
`stop`. -/
theorem slice?_eq_some_iff {text : List Char} {start stop : Nat} {between : List Char} :
    slice? text start stop = some between ↔
      ∃ before after, text = before ++ between ++ after ∧ byteLength before = start ∧
        byteLength (before ++ between) = stop := by
  unfold slice?
  constructor
  · intro h
    split at h
    · next ordered =>
      obtain ⟨⟨before, rest⟩, hfirst, h⟩ := Option.bind_eq_some_iff.mp h
      obtain ⟨⟨inner, after⟩, hsecond, rfl⟩ := Option.map_eq_some_iff.mp h
      obtain ⟨rfl, hbefore⟩ := splitAt?_eq_some_iff.mp hfirst
      obtain ⟨rfl, hinner⟩ := splitAt?_eq_some_iff.mp hsecond
      refine ⟨before, after, by simp, hbefore, ?_⟩
      simp only [byteLength_append]
      omega
    · cases h
  · rintro ⟨before, after, rfl, hbefore, hstop⟩
    simp only [byteLength_append] at hstop
    have hfirst : splitAt? (before ++ between ++ after) start =
        some (before, between ++ after) :=
      splitAt?_eq_some_iff.mpr ⟨by simp, hbefore⟩
    have hsecond : splitAt? (between ++ after) (stop - start) = some (between, after) :=
      splitAt?_eq_some_iff.mpr ⟨rfl, by omega⟩
    rw [if_pos (by omega), hfirst]
    simp [hsecond]

end TokenScan.Text
