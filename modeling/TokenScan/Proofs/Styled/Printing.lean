import TokenScan.Printed
import TokenScan.Proofs.Styled.Pen

/-!
What is printed before a panic. Things printed in sequence come out in full if none of them panics,
and up to the first one that does otherwise.
-/

namespace TokenScan

open Styled

namespace Styled

theorem escape_not_mem_replicate (count : Nat) {c : Char} (h : c ≠ '\x1b') :
    '\x1b' ∉ (String.ofList (List.replicate count c)).toList := by
  rw [String.toList_ofList]
  exact fun hmem => h (List.eq_of_mem_replicate hmem).symm

theorem escape_not_mem_spaces (count : Nat) : '\x1b' ∉ (spaces count).toList :=
  escape_not_mem_replicate count (by decide)

end Styled

namespace Printed

variable {first second printed : Printed} {all before : List Printed}

@[simp]
theorem parts_write (part : Styled) : (write part).parts = [part] := rfl

@[simp]
theorem panicked_write (part : Styled) : (write part).panicked = false := rfl

theorem pad_of_le {width : Nat} (h : width ≤ widestSpace) : pad width = write (spaces width) :=
  if_pos h

theorem pad_of_lt {width : Nat} (h : widestSpace < width) : pad width = { panicked := true } :=
  if_neg (Nat.not_le.mpr h)

theorem panicked_pad {width : Nat} : (pad width).panicked = true ↔ widestSpace < width := by
  rcases Nat.lt_or_ge widestSpace width with hwide | hfits
  · simp [pad_of_lt hwide, hwide]
  · simp [pad_of_le hfits, Nat.not_lt.mpr hfits]

theorem eq_spaces_of_mem_parts_pad {width : Nat} {part : Styled} (h : part ∈ (pad width).parts) :
    part = text (spaces width) := by
  rw [pad] at h
  split at h
  · exact List.mem_singleton.mp h
  · cases h

theorem andThen_of_panicked (second : Printed) (h : first.panicked = true) :
    first.andThen second = first := by
  rw [andThen, if_pos h]

theorem parts_andThen (second : Printed) (h : first.panicked = false) :
    (first.andThen second).parts = first.parts ++ second.parts := by
  rw [andThen, h]
  rfl

@[simp]
theorem panicked_andThen :
    (first.andThen second).panicked = (first.panicked || second.panicked) := by
  cases h : first.panicked with
  | true => rw [andThen_of_panicked second h, h, Bool.true_or]
  | false =>
    rw [andThen, h]
    rfl

theorem empty_andThen (printed : Printed) : ({} : Printed).andThen printed = printed := rfl

theorem andThen_empty (printed : Printed) : printed.andThen {} = printed := by
  obtain ⟨parts, panicked⟩ := printed
  cases panicked <;> simp [andThen]

theorem andThen_assoc (first second third : Printed) :
    (first.andThen second).andThen third = first.andThen (second.andThen third) := by
  cases hfirst : first.panicked with
  | true => simp only [andThen_of_panicked _ hfirst]
  | false =>
    cases hsecond : second.panicked with
    | true =>
      rw [andThen_of_panicked third hsecond, andThen_of_panicked]
      rw [panicked_andThen, hfirst, hsecond, Bool.false_or]
    | false => simp [andThen, hfirst, hsecond]

theorem sequence_cons (printed : Printed) (all : List Printed) :
    sequence (printed :: all) = printed.andThen (sequence all) := rfl

@[simp]
theorem panicked_sequence (all : List Printed) :
    (sequence all).panicked = all.any Printed.panicked := by
  induction all with
  | nil => rfl
  | cons printed all ih => rw [sequence_cons, panicked_andThen, ih, List.any_cons]

theorem parts_sequence (h : ∀ printed ∈ all, printed.panicked = false) :
    (sequence all).parts = all.flatMap Printed.parts := by
  induction all with
  | nil => rfl
  | cons printed all ih =>
    obtain ⟨hfirst, hrest⟩ := List.forall_mem_cons.mp h
    rw [sequence_cons, parts_andThen _ hfirst, ih hrest, List.flatMap_cons]

/-- Nothing is printed behind the first panic. -/
theorem parts_sequence_of_panicked (after : List Printed)
    (hbefore : ∀ earlier ∈ before, earlier.panicked = false) (h : printed.panicked = true) :
    (sequence (before ++ printed :: after)).parts =
      before.flatMap Printed.parts ++ printed.parts := by
  induction before with
  | nil => rw [List.nil_append, sequence_cons, andThen_of_panicked _ h, List.flatMap_nil,
      List.nil_append]
  | cons earlier before ih =>
    obtain ⟨hfirst, hrest⟩ := List.forall_mem_cons.mp hbefore
    rw [List.cons_append, sequence_cons, parts_andThen _ hfirst, ih hrest, List.flatMap_cons,
      List.append_assoc]

theorem exists_of_mem_parts_sequence {part : Styled} (h : part ∈ (sequence all).parts) :
    ∃ printed ∈ all, part ∈ printed.parts := by
  induction all with
  | nil => cases h
  | cons printed all ih =>
    rw [sequence_cons] at h
    cases hfirst : printed.panicked with
    | true =>
      rw [andThen_of_panicked _ hfirst] at h
      exact ⟨printed, List.mem_cons_self, h⟩
    | false =>
      rw [parts_andThen _ hfirst, List.mem_append] at h
      rcases h with hhere | hlater
      · exact ⟨printed, List.mem_cons_self, hhere⟩
      · obtain ⟨other, hother, hpart⟩ := ih hlater
        exact ⟨other, List.mem_cons_of_mem printed hother, hpart⟩

/-! ### The text -/

theorem toList_render (colors : Bool) (printed : Printed) :
    (printed.render colors).toList =
      printed.parts.flatMap fun part => (part.render colors).toList :=
  toList_render_concat colors printed.parts

@[simp]
theorem render_write (colors : Bool) (part : Styled) :
    (write part).render colors = part.render colors := by
  apply String.toList_injective
  simp [toList_render]

theorem render_andThen (colors : Bool) (second : Printed) (h : first.panicked = false) :
    (first.andThen second).render colors = first.render colors ++ second.render colors := by
  apply String.toList_injective
  rw [String.toList_append, toList_render, toList_render, toList_render, parts_andThen second h,
    List.flatMap_append]

theorem render_sequence (colors : Bool) (h : ∀ printed ∈ all, printed.panicked = false) :
    (sequence all).render colors = String.join (all.map (render colors)) := by
  induction all with
  | nil => rfl
  | cons printed all ih =>
    obtain ⟨hfirst, hrest⟩ := List.forall_mem_cons.mp h
    rw [sequence_cons, render_andThen colors _ hfirst, ih hrest, List.map_cons, String.join_cons]

theorem render_sequence_of_panicked (colors : Bool) (after : List Printed)
    (hbefore : ∀ earlier ∈ before, earlier.panicked = false) (h : printed.panicked = true) :
    (sequence (before ++ printed :: after)).render colors =
      String.join (before.map (render colors)) ++ printed.render colors := by
  induction before with
  | nil => simp [sequence_cons, andThen_of_panicked _ h]
  | cons earlier before ih =>
    obtain ⟨hfirst, hrest⟩ := List.forall_mem_cons.mp hbefore
    rw [List.cons_append, sequence_cons, render_andThen colors _ hfirst, ih hrest, List.map_cons,
      String.join_cons, String.append_assoc]

theorem drawn_styled (printed : Printed) :
    printed.styled.drawn = printed.parts.flatMap Styled.drawn :=
  drawn_concat printed.parts

@[simp]
theorem drawn_write (part : Styled) : (write part).styled.drawn = part.drawn := by
  simp [drawn_styled]

theorem underline_of_mem_drawn_styled
    (h : ∀ part ∈ printed.parts, Mark.on .underline ∉ part.marks) :
    ∀ entry ∈ printed.styled.drawn, entry.2.underline = false := by
  rw [drawn_styled, List.forall_mem_flatMap]
  exact fun part hpart => Styled.underline_of_mem_drawn (h part hpart)

theorem isPlain_styled : printed.styled.IsPlain ↔ ∀ part ∈ printed.parts, part.IsPlain :=
  isPlain_concat

theorem isPlain_write {part : Styled} : (write part).styled.IsPlain ↔ part.IsPlain := by
  simp [isPlain_styled]

theorem isPlain_pad (width : Nat) : (pad width).styled.IsPlain := by
  refine isPlain_styled.mpr fun part hpart => ?_
  rw [eq_spaces_of_mem_parts_pad hpart]
  exact isPlain_text.mpr (escape_not_mem_spaces width)

theorem isPlain_andThen (hfirst : first.styled.IsPlain) (hsecond : second.styled.IsPlain) :
    (first.andThen second).styled.IsPlain := by
  cases h : first.panicked with
  | true =>
    rw [andThen_of_panicked _ h]
    exact hfirst
  | false =>
    rw [isPlain_styled, parts_andThen _ h, List.forall_mem_append]
    exact ⟨isPlain_styled.mp hfirst, isPlain_styled.mp hsecond⟩

theorem isPlain_sequence (h : ∀ printed ∈ all, printed.styled.IsPlain) :
    (sequence all).styled.IsPlain := by
  refine isPlain_styled.mpr fun part hpart => ?_
  obtain ⟨printed, hprinted, hmem⟩ := exists_of_mem_parts_sequence hpart
  exact isPlain_styled.mp (h printed hprinted) part hmem

end Printed

end TokenScan
