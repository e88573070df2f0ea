import TokenScan.Proofs.Styled.Marks

/-!
The pen of a terminal. Control sequences change the pen, and a character is drawn with the pen as
they leave it. Every layer of paint ends with a reset, so a value begins and ends with the pen that
paints nothing, and what one part of a value draws does not depend on the parts in front of it.
-/

namespace TokenScan

/-- How a terminal draws a character. Without a foreground it uses the usual one. -/
structure Pen where
  bold : Bool := false
  underline : Bool := false
  foreground : Option Paint := none
deriving Repr, DecidableEq

/-- The pen after a paint is turned on. A colour takes the place of the one before. -/
def Pen.painted (pen : Pen) : Paint → Pen
  | .bold => { pen with bold := true }
  | .underline => { pen with underline := true }
  | color => { pen with foreground := some color }

def Pen.after (pen : Pen) : Mark → Pen
  | .shown _ => pen
  | .on paint => pen.painted paint
  | .off => {}

namespace Mark

variable {pen : Pen} {marks : List Mark}

/-- The characters that marks show, each with the pen it is drawn with, given the pen at first. -/
def drawn (pen : Pen) : List Mark → List (Char × Pen)
  | [] => []
  | mark :: rest => (mark.shown?.map fun c => (c, pen)).toList ++ drawn (pen.after mark) rest

theorem drawn_append (pen : Pen) (first second : List Mark) :
    drawn pen (first ++ second) = drawn pen first ++ drawn (first.foldl Pen.after pen) second := by
  induction first generalizing pen with
  | nil => rfl
  | cons mark first ih =>
    rw [List.cons_append, drawn, ih, ← List.append_assoc]
    rfl

theorem drawn_map_shown (pen : Pen) (chars : List Char) :
    drawn pen (chars.map shown) = chars.map fun c => (c, pen) := by
  induction chars with
  | nil => rfl
  | cons c chars ih =>
    rw [List.map_cons, List.map_cons, ← ih]
    rfl

/-- Nothing is drawn underlined before the underline is turned on. -/
theorem underline_of_mem_drawn (hmarks : on .underline ∉ marks) (hpen : pen.underline = false) :
    ∀ entry ∈ drawn pen marks, entry.2.underline = false := by
  induction marks generalizing pen with
  | nil => nofun
  | cons mark marks ih =>
    obtain ⟨hmark, hrest⟩ := not_or.mp (mt List.mem_cons.mpr hmarks)
    have hafter : (pen.after mark).underline = false := by
      cases mark with
      | shown c => exact hpen
      | on paint =>
        cases paint with
        | underline => exact absurd rfl hmark
        | bold | red | yellow | cyan => exact hpen
      | off => rfl
    rw [drawn, List.forall_mem_append]
    refine ⟨?_, ih hrest hafter⟩
    intro entry hentry
    obtain ⟨c, -, rfl⟩ := Option.map_eq_some_iff.mp (Option.mem_toList.mp hentry)
    exact hpen

end Mark

def drawnBy (printed : String) : List (Char × Pen) :=
  Mark.drawn {} (readMarks printed.toList)

namespace Styled

def drawn (styled : Styled) : List (Char × Pen) :=
  Mark.drawn {} styled.marks

/-- A value leaves the pen as it was or paints nothing any more. -/
theorem foldl_after_marks (styled : Styled) (pen : Pen) :
    styled.marks.foldl Pen.after pen = pen ∨ styled.marks.foldl Pen.after pen = {} := by
  induction styled generalizing pen with
  | text content =>
    left
    rw [marks]
    induction content.toList with
    | nil => rfl
    | cons c chars ih => exact ih
  | painted paint inner =>
    right
    rw [marks, List.foldl_cons, List.foldl_append]
    rfl
  | append first second ihFirst ihSecond =>
    rw [marks, List.foldl_append]
    rcases ihFirst pen with hfirst | hfirst
    · rw [hfirst]
      exact ihSecond pen
    · rw [hfirst]
      exact .inr ((ihSecond {}).elim id id)

theorem drawn_append (first second : Styled) :
    (first ++ second).drawn = first.drawn ++ second.drawn := by
  have hpen : first.marks.foldl Pen.after {} = {} := (first.foldl_after_marks {}).elim id id
  rw [drawn, marks_hAppend, Mark.drawn_append, hpen]
  rfl

theorem drawn_text (content : String) :
    (text content).drawn = content.toList.map fun c => (c, {}) :=
  Mark.drawn_map_shown {} content.toList

theorem marks_concat (parts : List Styled) : (concat parts).marks = parts.flatMap marks := by
  induction parts with
  | nil => rfl
  | cons part parts ih =>
    rw [List.flatMap_cons, ← ih]
    rfl

theorem drawn_concat (parts : List Styled) : (concat parts).drawn = parts.flatMap drawn := by
  induction parts with
  | nil => rfl
  | cons part parts ih =>
    rw [List.flatMap_cons, ← ih]
    exact drawn_append part (concat parts)

/-- What is painted is drawn with the pen that has the paint, and the reset behind it draws
nothing. -/
theorem drawn_marks_painted (pen : Pen) (paint : Paint) (inner : Styled) :
    Mark.drawn pen (painted paint inner).marks = Mark.drawn (pen.painted paint) inner.marks := by
  have hoff (pen : Pen) : Mark.drawn pen [.off] = [] := rfl
  rw [marks, Mark.drawn, Mark.drawn_append, hoff, List.append_nil]
  rfl

/-- What shows no escape of its own is drawn as it was painted. -/
theorem drawnBy_render {styled : Styled} (h : styled.IsPlain) :
    drawnBy (styled.render true) = styled.drawn := by
  rw [drawnBy, readMarks_render h]
  rfl

/-- Nothing is drawn underlined where the value has no underline. -/
theorem underline_of_mem_drawn {styled : Styled} (h : Mark.on .underline ∉ styled.marks) :
    ∀ entry ∈ styled.drawn, entry.2.underline = false :=
  Mark.underline_of_mem_drawn h rfl

end Styled

end TokenScan
