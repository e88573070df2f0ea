import Mathlib.Data.List.Basic
import Mathlib.Data.List.Forall2
import TokenScan.Text.Utf8

/-!
What decoding reads. The ranges that a first byte announces are just those of the bytes behind it
in the UTF-8 form of some character, so a character is read from the front of some bytes exactly
when its form stands there. Bytes are therefore decoded exactly when they are the form of a text.
Any other bytes are refused behind the longest text at their front, with the length of the part
behind it that a character still could have begun with.
-/

namespace TokenScan.Text.Utf8

def InRange (byte : UInt8) (range : Nat × Nat) : Prop :=
  range.1 ≤ byte.toNat ∧ byte.toNat ≤ range.2

/-- The number held by a sequence, given the number held by its first bytes and those behind. -/
def numberFrom (number : Nat) (bytes : List UInt8) : Nat :=
  bytes.foldl (fun number byte => number * 64 + (byte.toNat - 0x80)) number

@[simp]
theorem numberFrom_nil (number : Nat) : numberFrom number [] = number :=
  rfl

@[simp]
theorem numberFrom_cons (number : Nat) (byte : UInt8) (bytes : List UInt8) :
    numberFrom number (byte :: bytes) =
      numberFrom (number * 64 + (byte.toNat - 0x80)) bytes := by
  rw [numberFrom, List.foldl_cons, numberFrom]

/-! ### Sequences and characters -/

/-- What a first byte announces, by the length of the sequence. The second byte is restricted
where a shorter sequence would do, where the number would be a surrogate, and where it would be
past the last one. -/
theorem announce?_eq_some_iff {first bits : Nat} {ranges : List (Nat × Nat)} :
    announce? first = some (bits, ranges) ↔
      (first ≤ 0x7F ∧ bits = first ∧ ranges = []) ∨
      (0xC2 ≤ first ∧ first ≤ 0xDF ∧ bits = first - 0xC0 ∧ ranges = [continuation]) ∨
      (0xE0 ≤ first ∧ first ≤ 0xEF ∧ bits = first - 0xE0 ∧
        ranges = [(if first = 0xE0 then 0xA0 else 0x80, if first = 0xED then 0x9F else 0xBF),
          continuation]) ∨
      (0xF0 ≤ first ∧ first ≤ 0xF4 ∧ bits = first - 0xF0 ∧
        ranges = [(if first = 0xF0 then 0x90 else 0x80, if first = 0xF4 then 0x8F else 0xBF),
          continuation, continuation]) := by
  have hpair {number : Nat} {places : List (Nat × Nat)} :
      some (number, places) = some (bits, ranges) ↔ bits = number ∧ ranges = places := by
    rw [Option.some_inj, Prod.mk.injEq, eq_comm, eq_comm (a := places)]
  unfold announce?
  split_ifs <;> simp only [hpair, continuation, false_iff]
  all_goals grind

theorem toNat_ofNat {number : Nat} (h : number.isValidChar) :
    (Char.ofNat number).val.toNat = number := by
  rw [Char.ofNat, dif_pos h]
  rfl

/-! The form of a character whose number is held by two, three or four bytes. -/

section Forms

variable {first second third fourth : UInt8}

theorem utf8EncodeChar_two (hfirst : 0xC2 ≤ first.toNat ∧ first.toNat ≤ 0xDF)
    (hsecond : InRange second continuation) :
    String.utf8EncodeChar (Char.ofNat (numberFrom (first.toNat - 0xC0) [second])) =
      [first, second] := by
  simp only [InRange, continuation] at hsecond
  simp only [numberFrom_cons, numberFrom_nil]
  unfold String.utf8EncodeChar
  rw [toNat_ofNat (Or.inl (by omega)), if_neg (by omega), if_pos (by omega)]
  simp only [List.cons.injEq, and_true, ← UInt8.toNat_inj, UInt8.toNat_ofNat']
  refine ⟨?_, ?_⟩ <;> omega

theorem utf8EncodeChar_three (hfirst : 0xE0 ≤ first.toNat ∧ first.toNat ≤ 0xEF)
    (hsecond : InRange second (if first.toNat = 0xE0 then 0xA0 else 0x80,
      if first.toNat = 0xED then 0x9F else 0xBF))
    (hthird : InRange third continuation) :
    String.utf8EncodeChar (Char.ofNat (numberFrom (first.toNat - 0xE0) [second, third])) =
      [first, second, third] := by
  simp only [InRange, continuation] at hsecond hthird
  simp only [numberFrom_cons, numberFrom_nil]
  have hvalid : (((first.toNat - 0xE0) * 64 + (second.toNat - 0x80)) * 64 +
      (third.toNat - 0x80)).isValidChar := by
    simp only [Nat.isValidChar]
    split_ifs at hsecond <;> omega
  have hlong : 0x7FF < ((first.toNat - 0xE0) * 64 + (second.toNat - 0x80)) * 64 +
      (third.toNat - 0x80) := by
    split_ifs at hsecond <;> omega
  have hrange : 0x80 ≤ second.toNat ∧ second.toNat ≤ 0xBF := by
    split_ifs at hsecond <;> omega
  clear hsecond
  unfold String.utf8EncodeChar
  rw [toNat_ofNat hvalid, if_neg (by omega), if_neg (by omega), if_pos (by omega)]
  simp only [List.cons.injEq, and_true, ← UInt8.toNat_inj, UInt8.toNat_ofNat']
  refine ⟨?_, ?_, ?_⟩ <;> omega

theorem utf8EncodeChar_four (hfirst : 0xF0 ≤ first.toNat ∧ first.toNat ≤ 0xF4)
    (hsecond : InRange second (if first.toNat = 0xF0 then 0x90 else 0x80,
      if first.toNat = 0xF4 then 0x8F else 0xBF))
    (hthird : InRange third continuation) (hfourth : InRange fourth continuation) :
    String.utf8EncodeChar
        (Char.ofNat (numberFrom (first.toNat - 0xF0) [second, third, fourth])) =
      [first, second, third, fourth] := by
  simp only [InRange, continuation] at hsecond hthird hfourth
  simp only [numberFrom_cons, numberFrom_nil]
  have hbounds : 0xFFFF < (((first.toNat - 0xF0) * 64 + (second.toNat - 0x80)) * 64 +
      (third.toNat - 0x80)) * 64 + (fourth.toNat - 0x80) ∧
      (((first.toNat - 0xF0) * 64 + (second.toNat - 0x80)) * 64 +
        (third.toNat - 0x80)) * 64 + (fourth.toNat - 0x80) < 0x110000 := by
    split_ifs at hsecond <;> omega
  have hrange : 0x80 ≤ second.toNat ∧ second.toNat ≤ 0xBF := by
    split_ifs at hsecond <;> omega
  clear hsecond
  unfold String.utf8EncodeChar
  rw [toNat_ofNat (Or.inr (by omega)), if_neg (by omega), if_neg (by omega), if_neg (by omega)]
  simp only [List.cons.injEq, and_true, ← UInt8.toNat_inj, UInt8.toNat_ofNat']
  refine ⟨?_, ?_, ?_, ?_⟩ <;> omega

end Forms

/-- A first byte and those that it announces are the form of the character with the number that
they hold. -/
theorem utf8EncodeChar_ofNat {first : UInt8} {bits : Nat} {ranges : List (Nat × Nat)}
    {bytes : List UInt8} (h : announce? first.toNat = some (bits, ranges))
    (hbytes : List.Forall₂ InRange bytes ranges) :
    String.utf8EncodeChar (Char.ofNat (numberFrom bits bytes)) = first :: bytes := by
  obtain ⟨hhigh, hbits, rfl⟩ | ⟨hlow, hhigh, hbits, rfl⟩ | ⟨hlow, hhigh, hbits, rfl⟩ |
    ⟨hlow, hhigh, hbits, rfl⟩ := announce?_eq_some_iff.mp h
  · cases hbytes
    unfold String.utf8EncodeChar
    rw [numberFrom_nil, hbits, toNat_ofNat (Or.inl (by omega)), if_pos hhigh, UInt8.ofNat_toNat]
  · cases hbytes with | cons hsecond hbytes =>
    cases hbytes
    rw [hbits]
    exact utf8EncodeChar_two ⟨hlow, hhigh⟩ hsecond
  · cases hbytes with | cons hsecond hbytes =>
    cases hbytes with | cons hthird hbytes =>
    cases hbytes
    rw [hbits]
    exact utf8EncodeChar_three ⟨hlow, hhigh⟩ hsecond hthird
  · cases hbytes with | cons hsecond hbytes =>
    cases hbytes with | cons hthird hbytes =>
    cases hbytes with | cons hfourth hbytes =>
    cases hbytes
    rw [hbits]
    exact utf8EncodeChar_four ⟨hlow, hhigh⟩ hsecond hthird hfourth

/-- The number of every character is held by a first byte and those that it announces. -/
theorem exists_numberFrom_eq (c : Char) :
    ∃ (first : UInt8) (bits : Nat) (ranges : List (Nat × Nat)) (bytes : List UInt8),
      announce? first.toNat = some (bits, ranges) ∧ List.Forall₂ InRange bytes ranges ∧
        numberFrom bits bytes = c.toNat := by
  have hvalid : c.toNat < 0xD800 ∨ 0xDFFF < c.toNat ∧ c.toNat < 0x110000 := c.valid
  by_cases hone : c.toNat ≤ 0x7F
  · refine ⟨UInt8.ofNat c.toNat, _, [], [], announce?_eq_some_iff.mpr (.inl ⟨?_, rfl, rfl⟩),
      .nil, ?_⟩
    all_goals
      simp only [numberFrom_nil, UInt8.toNat_ofNat']
      omega
  by_cases htwo : c.toNat ≤ 0x7FF
  · refine ⟨UInt8.ofNat (c.toNat / 64 + 0xC0), _, _, [UInt8.ofNat (c.toNat % 64 + 0x80)],
      announce?_eq_some_iff.mpr (.inr (.inl ⟨?_, ?_, rfl, rfl⟩)), .cons ?_ .nil, ?_⟩
    all_goals
      simp only [InRange, continuation, numberFrom_cons, numberFrom_nil, UInt8.toNat_ofNat']
      omega
  by_cases hthree : c.toNat ≤ 0xFFFF
  · refine ⟨UInt8.ofNat (c.toNat / 4096 + 0xE0), _, _,
      [UInt8.ofNat (c.toNat / 64 % 64 + 0x80), UInt8.ofNat (c.toNat % 64 + 0x80)],
      announce?_eq_some_iff.mpr (.inr (.inr (.inl ⟨?_, ?_, rfl, rfl⟩))),
      .cons ?_ (.cons ?_ .nil), ?_⟩
    all_goals
      simp only [InRange, continuation, numberFrom_cons, numberFrom_nil, UInt8.toNat_ofNat']
      try split_ifs
      all_goals omega
  · refine ⟨UInt8.ofNat (c.toNat / 262144 + 0xF0), _, _,
      [UInt8.ofNat (c.toNat / 4096 % 64 + 0x80), UInt8.ofNat (c.toNat / 64 % 64 + 0x80),
        UInt8.ofNat (c.toNat % 64 + 0x80)],
      announce?_eq_some_iff.mpr (.inr (.inr (.inr ⟨?_, ?_, rfl, rfl⟩))),
      .cons ?_ (.cons ?_ (.cons ?_ .nil)), ?_⟩
    all_goals
      simp only [InRange, continuation, numberFrom_cons, numberFrom_nil, UInt8.toNat_ofNat']
      try split_ifs
      all_goals omega

/-- The forms of characters are the first bytes that announce something with those that they
announce. -/
theorem utf8EncodeChar_eq_cons_iff {c : Char} {first : UInt8} {bytes : List UInt8} :
    String.utf8EncodeChar c = first :: bytes ↔
      ∃ bits ranges, announce? first.toNat = some (bits, ranges) ∧
        List.Forall₂ InRange bytes ranges ∧ Char.ofNat (numberFrom bits bytes) = c := by
  constructor
  · intro h
    -- Some sequence holds the number, and its bytes can only be those of the form.
    obtain ⟨start, bits, ranges, later, hstart, hlater, hnumber⟩ := exists_numberFrom_eq c
    have hc : Char.ofNat (numberFrom bits later) = c := by rw [hnumber, Char.ofNat_toNat]
    have hform := utf8EncodeChar_ofNat hstart hlater
    rw [hc, h, List.cons.injEq] at hform
    obtain ⟨rfl, rfl⟩ := hform
    exact ⟨bits, ranges, hstart, hlater, hc⟩
  · rintro ⟨bits, ranges, hfirst, hbytes, rfl⟩
    exact utf8EncodeChar_ofNat hfirst hbytes

theorem exists_utf8EncodeChar_eq_cons (c : Char) :
    ∃ first bytes, String.utf8EncodeChar c = first :: bytes := by
  obtain ⟨first, bits, ranges, bytes, hfirst, hbytes, hnumber⟩ := exists_numberFrom_eq c
  refine ⟨first, bytes, ?_⟩
  rw [← utf8EncodeChar_ofNat hfirst hbytes, hnumber, Char.ofNat_toNat]

/-- There are bytes for every range that is announced. -/
theorem forall₂_inRange {first bits : Nat} {ranges : List (Nat × Nat)}
    (h : announce? first = some (bits, ranges)) :
    List.Forall₂ InRange (ranges.map fun range => UInt8.ofNat range.1) ranges := by
  obtain ⟨-, -, rfl⟩ | ⟨-, -, -, rfl⟩ | ⟨-, -, -, rfl⟩ | ⟨-, -, -, rfl⟩ :=
    announce?_eq_some_iff.mp h
  all_goals
    simp only [List.map_cons, List.map_nil, List.forall₂_cons, List.Forall₂.nil, and_true,
      InRange, continuation, UInt8.toNat_ofNat']
    try split_ifs
    all_goals omega

/-! ### The front of some bytes -/

def IsBeginning (bytes : List UInt8) : Prop :=
  ∃ c, bytes <+: String.utf8EncodeChar c

theorem isBeginning_nil : IsBeginning [] :=
  ⟨default, List.nil_prefix⟩

/-- A character can begin with a first byte and some of those that it announces. -/
theorem isBeginning_cons_iff {first : UInt8} {bytes : List UInt8} :
    IsBeginning (first :: bytes) ↔
      ∃ bits done later, announce? first.toNat = some (bits, done ++ later) ∧
        List.Forall₂ InRange bytes done := by
  constructor
  · rintro ⟨c, rest, hc⟩
    rw [List.cons_append] at hc
    obtain ⟨bits, ranges, hfirst, hranges, -⟩ := utf8EncodeChar_eq_cons_iff.mp hc.symm
    have hdone := List.forall₂_take bytes.length hranges
    rw [List.take_left] at hdone
    refine ⟨bits, ranges.take bytes.length, ranges.drop bytes.length, ?_, hdone⟩
    rw [hfirst, List.take_append_drop]
  · rintro ⟨bits, done, later, hfirst, hdone⟩
    -- The places that are still open are filled with the least bytes that they allow.
    have hlater := List.forall₂_drop done.length (forall₂_inRange hfirst)
    rw [← List.map_drop, List.drop_left] at hlater
    exact ⟨_, _, (utf8EncodeChar_ofNat hfirst (List.rel_append hdone hlater)).symm⟩

theorem isBeginning_of_isPrefix {front bytes : List UInt8} (h : front <+: bytes)
    (hbytes : IsBeginning bytes) : IsBeginning front := by
  obtain ⟨c, hc⟩ := hbytes
  exact ⟨c, h.trans hc⟩

/-- No character begins with a byte that is not allowed at its place. -/
theorem not_isBeginning_of_not_inRange {first : UInt8} {bits : Nat}
    {done later : List (Nat × Nat)} {place : Nat × Nat}
    (h : announce? first.toNat = some (bits, done ++ place :: later)) {before : List UInt8}
    (hbefore : List.Forall₂ InRange before done) {byte : UInt8} (hbyte : ¬ InRange byte place) :
    ¬ IsBeginning (first :: (before ++ [byte])) := by
  intro hbeginning
  obtain ⟨otherBits, places, rest, hother, hplaces⟩ := isBeginning_cons_iff.mp hbeginning
  have hranges : places ++ rest = (done ++ [place]) ++ later := by
    rw [h, Option.some_inj, Prod.mk.injEq] at hother
    rw [← hother.2, List.append_assoc, List.singleton_append]
  have hlength : places.length = (done ++ [place]).length := by
    rw [← hplaces.length_eq, List.length_append, List.length_append, hbefore.length_eq]
    rfl
  obtain ⟨rfl, -⟩ := List.append_inj hranges hlength
  have hlast := List.forall₂_drop_append _ _ _ hplaces
  rw [← hbefore.length_eq, List.drop_left, List.forall₂_cons] at hlast
  exact hbyte hlast.1

/-- How the bytes behind a first one go on: they fill the places, they end before, or there is one
that is not allowed at its place. -/
theorem continueSequence_cases (number length : Nat) (ranges : List (Nat × Nat))
    (bytes : List UInt8) :
    (∃ filled rest, bytes = filled ++ rest ∧ List.Forall₂ InRange filled ranges ∧
      continueSequence number length ranges bytes =
        .character (Char.ofNat (numberFrom number filled)) rest) ∨
    (∃ done place later, ranges = done ++ place :: later ∧ List.Forall₂ InRange bytes done ∧
      continueSequence number length ranges bytes = .incomplete) ∨
    (∃ before byte rest done place later, bytes = before ++ byte :: rest ∧
      ranges = done ++ place :: later ∧ List.Forall₂ InRange before done ∧
      ¬ InRange byte place ∧
      continueSequence number length ranges bytes = .malformed (length + before.length)) := by
  fun_induction continueSequence number length ranges bytes with
  | case1 number length bytes => exact Or.inl ⟨[], bytes, rfl, .nil, rfl⟩
  | case2 number length place later => exact Or.inr (Or.inl ⟨[], place, later, rfl, .nil, rfl⟩)
  | case3 number length low high later byte bytes hbyte ih =>
    obtain ⟨filled, rest, rfl, hfilled, h⟩ | ⟨done, place, later, rfl, hdone, h⟩ |
      ⟨before, wrong, rest, done, place, later, rfl, rfl, hbefore, hwrong, h⟩ := ih
    · refine Or.inl ⟨byte :: filled, rest, rfl, .cons hbyte hfilled, ?_⟩
      rw [h, numberFrom_cons]
    · exact Or.inr (Or.inl ⟨(low, high) :: done, place, later, rfl, .cons hbyte hdone, h⟩)
    · refine Or.inr (Or.inr ⟨byte :: before, wrong, rest, (low, high) :: done, place, later, rfl,
        rfl, .cons hbyte hbefore, hwrong, ?_⟩)
      rw [h, List.length_cons, Nat.add_right_comm, Nat.add_assoc]
  | case4 number length low high later byte bytes hbyte =>
    exact Or.inr (Or.inr ⟨[], byte, bytes, [], (low, high), later, rfl, rfl, .nil, hbyte, rfl⟩)

/-- Bytes that fill the announced places are read, and none behind them. -/
theorem continueSequence_append {number length : Nat} {ranges : List (Nat × Nat)}
    {filled : List UInt8} (h : List.Forall₂ InRange filled ranges) (rest : List UInt8) :
    continueSequence number length ranges (filled ++ rest) =
      .character (Char.ofNat (numberFrom number filled)) rest := by
  induction h generalizing number length with
  | nil => rfl
  | @cons byte place filled ranges hbyte _ ih =>
    obtain ⟨low, high⟩ := place
    have hallowed : low ≤ byte.toNat ∧ byte.toNat ≤ high := hbyte
    rw [List.cons_append, continueSequence, if_pos hallowed, ih, numberFrom_cons]

/-- A character is read just where its form stands. -/
theorem readFront_eq_character_iff {first : UInt8} {bytes : List UInt8} {c : Char}
    {rest : List UInt8} :
    readFront first bytes = .character c rest ↔
      first :: bytes = String.utf8EncodeChar c ++ rest := by
  constructor
  · intro h
    unfold readFront at h
    split at h
    · cases h
    · next bits ranges hfirst =>
      obtain ⟨filled, later, rfl, hfilled, hread⟩ | ⟨_, _, _, _, _, hread⟩ |
        ⟨_, _, _, _, _, _, _, _, _, _, hread⟩ := continueSequence_cases bits 1 ranges bytes
      · rw [h, Front.character.injEq] at hread
        obtain ⟨rfl, rfl⟩ := hread
        rw [utf8EncodeChar_ofNat hfirst hfilled, List.cons_append]
      · rw [h] at hread
        cases hread
      · rw [h] at hread
        cases hread
  · intro h
    obtain ⟨start, filled, hform⟩ := exists_utf8EncodeChar_eq_cons c
    obtain ⟨bits, ranges, hstart, hfilled, rfl⟩ := utf8EncodeChar_eq_cons_iff.mp hform
    rw [hform, List.cons_append, List.cons.injEq] at h
    obtain ⟨rfl, rfl⟩ := h
    rw [readFront, hstart]
    exact continueSequence_append hfilled rest

/-- The first `length` bytes are the longest part at the front of some bytes that is good. -/
structure IsLongestFront (good : List UInt8 → Prop) (bytes : List UInt8) (length : Nat) :
    Prop where
  length_le : length ≤ bytes.length
  good_take : good (bytes.take length)
  longest : ∀ longer ≤ bytes.length, good (bytes.take longer) → longer ≤ length

/-- The longest beginning of a character ends where one byte more is too much. -/
theorem isLongestFront_isBeginning {front rest : List UInt8} {byte : UInt8}
    (hfront : IsBeginning front) (hmore : ¬ IsBeginning (front ++ [byte])) :
    IsLongestFront IsBeginning (front ++ byte :: rest) front.length where
  length_le := by rw [List.length_append]; exact Nat.le_add_right _ _
  good_take := by rwa [List.take_left]
  longest longer _ hlonger := by
    by_contra hlt
    have hprefix : front ++ [byte] <+: (front ++ byte :: rest).take longer := by
      rw [List.prefix_take_iff]
      refine ⟨?_, ?_⟩
      · rw [← List.singleton_append (l := rest), ← List.append_assoc]
        exact List.prefix_append _ _
      · rw [List.length_append, List.length_singleton]
        omega
    exact hmore (isBeginning_of_isPrefix hprefix hlonger)

/-- Bytes that end inside a character could still begin one. -/
theorem isBeginning_of_readFront_eq_incomplete {first : UInt8} {bytes : List UInt8}
    (h : readFront first bytes = .incomplete) : IsBeginning (first :: bytes) := by
  unfold readFront at h
  split at h
  · cases h
  · next bits ranges hfirst =>
    obtain ⟨_, _, _, _, hread⟩ | ⟨done, place, later, rfl, hdone, -⟩ |
      ⟨_, _, _, _, _, _, _, _, _, _, hread⟩ := continueSequence_cases bits 1 ranges bytes
    · rw [h] at hread
      cases hread
    · exact isBeginning_cons_iff.mpr ⟨bits, done, place :: later, hfirst, hdone⟩
    · rw [h] at hread
      cases hread

/-- Bytes that begin no character are refused behind the part that still could, or behind the
first of them if there is no such part. -/
theorem isLongestFront_of_readFront_eq_malformed {first : UInt8} {bytes : List UInt8}
    {length : Nat} (h : readFront first bytes = .malformed length) :
    ∃ front, length = max front 1 ∧ front < (first :: bytes).length ∧
      IsLongestFront IsBeginning (first :: bytes) front := by
  unfold readFront at h
  split at h
  · next hfirst =>
    have hnone : ¬ IsBeginning ([] ++ [first]) := by
      rw [List.nil_append, isBeginning_cons_iff]
      rintro ⟨_, _, _, hsome, -⟩
      rw [hfirst] at hsome
      cases hsome
    cases h
    exact ⟨0, rfl, Nat.succ_pos _, isLongestFront_isBeginning isBeginning_nil hnone⟩
  · next bits ranges hfirst =>
    obtain ⟨_, _, _, _, hread⟩ | ⟨_, _, _, _, _, hread⟩ |
      ⟨before, byte, rest, done, place, later, rfl, rfl, hbefore, hbyte, hread⟩ :=
        continueSequence_cases bits 1 ranges bytes
    · rw [h] at hread
      cases hread
    · rw [h] at hread
      cases hread
    · rw [h, Front.malformed.injEq] at hread
      have hfront : IsBeginning (first :: before) :=
        isBeginning_cons_iff.mpr ⟨bits, done, place :: later, hfirst, hbefore⟩
      refine ⟨(first :: before).length, ?_, ?_, isLongestFront_isBeginning hfront
        (not_isBeginning_of_not_inRange hfirst hbefore hbyte)⟩
      · rw [hread, List.length_cons]
        omega
      · rw [List.length_cons, List.length_cons, List.length_append, List.length_cons]
        omega

/-! ### Texts -/

def IsText (bytes : List UInt8) : Prop :=
  ∃ text, encode text = bytes

@[simp]
theorem encode_nil : encode [] = [] :=
  rfl

@[simp]
theorem encode_cons (c : Char) (text : List Char) :
    encode (c :: text) = String.utf8EncodeChar c ++ encode text :=
  List.flatMap_cons

/-- What stands at the front of some bytes is the form of at most one character. -/
theorem utf8EncodeChar_append_inj {c other : Char} {bytes otherBytes : List UInt8}
    (h : String.utf8EncodeChar c ++ bytes = String.utf8EncodeChar other ++ otherBytes) :
    c = other ∧ bytes = otherBytes := by
  obtain ⟨first, later, hform⟩ := exists_utf8EncodeChar_eq_cons c
  have hread : readFront first (later ++ bytes) = .character c bytes := by
    rw [readFront_eq_character_iff, hform, List.cons_append]
  have hother : readFront first (later ++ bytes) = .character other otherBytes := by
    rw [readFront_eq_character_iff, ← h, hform, List.cons_append]
  rw [hread, Front.character.injEq] at hother
  exact hother

theorem isText_append_iff {c : Char} {bytes : List UInt8} :
    IsText (String.utf8EncodeChar c ++ bytes) ↔ IsText bytes := by
  constructor
  · rintro ⟨text, htext⟩
    cases text with
    | nil =>
      obtain ⟨first, later, hform⟩ := exists_utf8EncodeChar_eq_cons c
      rw [encode_nil, hform, List.cons_append] at htext
      cases htext
    | cons other text =>
      rw [encode_cons] at htext
      exact ⟨text, (utf8EncodeChar_append_inj htext).2⟩
  · rintro ⟨text, rfl⟩
    exact ⟨c :: text, encode_cons c text⟩

/-- A fault of bytes that are no text: where the longest text at their front ends, and how many
bytes from there on a character could still begin with. -/
structure IsFault (bytes : List UInt8) (index length : Nat) : Prop where
  text : IsLongestFront IsText bytes index
  index_lt : index < bytes.length
  beginning : IsLongestFront IsBeginning (bytes.drop index) length

/-- A fault is at the front if no character is read there. -/
theorem isFault_zero {first : UInt8} {bytes : List UInt8} {length : Nat}
    (hread : ∀ c rest, readFront first bytes ≠ .character c rest)
    (hlength : IsLongestFront IsBeginning (first :: bytes) length) :
    IsFault (first :: bytes) 0 length where
  text.length_le := Nat.zero_le _
  text.good_take := ⟨[], rfl⟩
  text.longest longer _ hlonger := by
    cases longer with
    | zero => exact Nat.le_refl 0
    | succ longer =>
      exfalso
      rw [List.take_succ_cons] at hlonger
      obtain ⟨text, htext⟩ := hlonger
      cases text with
      | nil => cases htext
      | cons c text =>
        apply hread c (encode text ++ bytes.drop longer)
        rw [readFront_eq_character_iff, ← List.append_assoc, ← encode_cons, htext,
          List.cons_append, List.take_append_drop]
  index_lt := Nat.succ_pos _
  beginning := hlength

/-- A character in front moves a fault. -/
theorem IsFault.append {bytes : List UInt8} {index length : Nat} (h : IsFault bytes index length)
    (c : Char) : IsFault (String.utf8EncodeChar c ++ bytes) (c.utf8Size + index) length where
  text.length_le := by
    rw [List.length_append, String.length_utf8EncodeChar]
    exact Nat.add_le_add_left h.text.length_le _
  text.good_take := by
    rw [← String.length_utf8EncodeChar, List.take_length_add_append, isText_append_iff]
    exact h.text.good_take
  text.longest longer hle hlonger := by
    rw [List.length_append, String.length_utf8EncodeChar] at hle
    obtain hshort | ⟨more, rfl⟩ : longer ≤ c.utf8Size ∨ ∃ more, longer = c.utf8Size + more := by
      obtain hshort | hlong := Nat.le_total longer c.utf8Size
      · exact Or.inl hshort
      · exact Or.inr (Nat.exists_eq_add_of_le hlong)
    · exact Nat.le_add_right_of_le hshort
    · rw [← String.length_utf8EncodeChar, List.take_length_add_append, isText_append_iff]
        at hlonger
      exact Nat.add_le_add_left (h.text.longest more (by omega) hlonger) _
  index_lt := by
    rw [List.length_append, String.length_utf8EncodeChar]
    exact Nat.add_lt_add_left h.index_lt _
  beginning := by
    rw [← String.length_utf8EncodeChar, List.drop_length_add_append]
    exact h.beginning

/-! ### Decoding -/

theorem decodeFrom_of_character {read : List Char} {index : Nat} {first : UInt8} {c : Char}
    {bytes rest : List UInt8} (h : readFront first bytes = .character c rest) :
    decodeFrom read index (first :: bytes) = decodeFrom (c :: read) (index + c.utf8Size) rest := by
  rw [decodeFrom]
  split
  · next found =>
    cases h.symm.trans found
    rfl
  · next found => cases h.symm.trans found
  · next found => cases h.symm.trans found

theorem decodeFrom_of_malformed {read : List Char} {index length : Nat} {first : UInt8}
    {bytes : List UInt8} (h : readFront first bytes = .malformed length) :
    decodeFrom read index (first :: bytes) = .error (.malformed index length) := by
  rw [decodeFrom]
  split
  · next found => cases h.symm.trans found
  · next found =>
    cases h.symm.trans found
    rfl
  · next found => cases h.symm.trans found

theorem decodeFrom_encode (read : List Char) (index : Nat) (text : List Char) :
    decodeFrom read index (encode text) = .ok (read.reverse ++ text) := by
  induction text generalizing read index with
  | nil => rw [encode_nil, decodeFrom, List.append_nil]
  | cons c text ih =>
    obtain ⟨first, later, hform⟩ := exists_utf8EncodeChar_eq_cons c
    have hread : readFront first (later ++ encode text) = .character c (encode text) := by
      rw [readFront_eq_character_iff, hform, List.cons_append]
    rw [encode_cons, hform, List.cons_append, decodeFrom_of_character hread, ih,
      List.reverse_cons, List.append_assoc, List.singleton_append]

/-- Bytes that are no text are refused at their fault. -/
theorem decodeFrom_cases (read : List Char) (index : Nat) (bytes : List UInt8) :
    IsText bytes ∨ ∃ front length, IsFault bytes front length ∧
      decodeFrom read index bytes = .error
        (if front + length = bytes.length then .incomplete (index + front)
          else .malformed (index + front) (max length 1)) := by
  fun_induction decodeFrom read index bytes with
  | case1 read index => exact Or.inl ⟨[], rfl⟩
  | case2 read index first bytes c rest hread ih =>
    -- A fault of the rest is one of the whole, moved by the character in front.
    rw [readFront_eq_character_iff.mp hread, isText_append_iff]
    obtain htext | ⟨front, length, hfault, herror⟩ := ih
    · exact Or.inl htext
    · refine Or.inr ⟨c.utf8Size + front, length, hfault.append c, ?_⟩
      rw [herror, List.length_append, String.length_utf8EncodeChar]
      simp only [Nat.add_assoc, Nat.add_left_cancel_iff]
  | case3 read index first bytes length hread =>
    obtain ⟨front, rfl, hlt, hfront⟩ := isLongestFront_of_readFront_eq_malformed hread
    refine Or.inr ⟨0, front, isFault_zero (fun c rest h => ?_) hfront, ?_⟩
    · rw [hread] at h
      cases h
    · rw [Nat.zero_add, Nat.add_zero, if_neg (Nat.ne_of_lt hlt)]
  | case4 read index first bytes hread =>
    have hbeginning := isBeginning_of_readFront_eq_incomplete hread
    refine Or.inr ⟨0, (first :: bytes).length, isFault_zero (fun c rest h => ?_) ?_, ?_⟩
    · rw [hread] at h
      cases h
    · exact ⟨Nat.le_refl _, by rwa [List.take_length], fun longer hle _ => hle⟩
    · rw [Nat.zero_add, Nat.add_zero, if_pos rfl]

/-- Bytes are decoded just if they are the form of a text, and then to that text. -/
theorem decode_eq_ok_iff {bytes : List UInt8} {text : List Char} :
    decode bytes = .ok text ↔ bytes = encode text := by
  constructor
  · intro h
    obtain ⟨other, rfl⟩ | ⟨front, length, -, herror⟩ := decodeFrom_cases [] 0 bytes
    · rw [decode, decodeFrom_encode, List.reverse_nil, List.nil_append, Except.ok.injEq] at h
      rw [h]
    · rw [decode, herror] at h
      cases h
  · rintro rfl
    rw [decode, decodeFrom_encode, List.reverse_nil, List.nil_append]

/-- Bytes that are not decoded have a fault, and the error tells where it is. -/
theorem exists_isFault_of_decode_eq_error {bytes : List UInt8} {error : Error}
    (h : decode bytes = .error error) :
    ∃ index length, IsFault bytes index length ∧
      error = if index + length = bytes.length then .incomplete index
        else .malformed index (max length 1) := by
  obtain ⟨text, htext⟩ | ⟨front, length, hfault, herror⟩ := decodeFrom_cases [] 0 bytes
  · rw [decode_eq_ok_iff.mpr htext.symm] at h
    cases h
  · refine ⟨front, length, hfault, ?_⟩
    rw [decode, herror, Nat.zero_add, Except.error.injEq] at h
    exact h.symm

end TokenScan.Text.Utf8
