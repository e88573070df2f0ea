import TokenScan.Styled

/-!
Printed text as a terminal takes it. With colours on the text consists of characters to show, of
sequences that turn a paint on and of sequences that turn every paint off. `readMarks` takes the
text apart in this way, as long as no character to show is the escape with which the sequences
begin, and it finds again what was painted.
-/

namespace TokenScan

inductive Mark where
  /-- To show a character. -/
  | shown (c : Char)
  /-- To turn a paint on. -/
  | on (paint : Paint)
  /-- To turn every paint off. -/
  | off
deriving Repr, DecidableEq

def Paint.all : List Paint :=
  [bold, underline, red, yellow, cyan]

def Paint.parameter : Paint → List Char
  | bold => ['1']
  | underline => ['4']
  | red => ['3', '1']
  | yellow => ['3', '3']
  | cyan => ['3', '6']

theorem Paint.toList_code (paint : Paint) :
    paint.code.toList = '\x1b' :: '[' :: paint.parameter ++ ['m'] := by
  cases paint <;> rfl

theorem Paint.toList_reset : Paint.reset.toList = ['\x1b', '[', '0', 'm'] := rfl

namespace Mark

def text : Mark → List Char
  | shown c => [c]
  | on paint => paint.code.toList
  | off => Paint.reset.toList

def shown? : Mark → Option Char
  | shown c => some c
  | on _ | off => none

/-- Whether the mark can be told from the beginning of a control sequence. -/
def IsPlain (mark : Mark) : Prop :=
  mark ≠ shown '\x1b'

@[simp]
theorem isPlain_shown {c : Char} : (shown c).IsPlain ↔ c ≠ '\x1b' := by
  simp [IsPlain]

def controls : List Mark :=
  Paint.all.map on ++ [off]

theorem on_mem_controls (paint : Paint) : on paint ∈ controls := by
  cases paint <;> decide

theorem off_mem_controls : off ∈ controls := by
  decide

theorem text_ne_nil (mark : Mark) : mark.text ≠ [] := by
  cases mark with
  | shown c => exact List.cons_ne_nil c []
  | on paint => cases paint <;> decide
  | off => decide

/-- No control sequence is the beginning of another, or of anything that begins with a plain
character. -/
theorem text_isPrefix_append_iff {control mark : Mark} (rest : List Char) (h : control ∈ controls)
    (hplain : mark.IsPlain) : control.text <+: mark.text ++ rest ↔ control = mark := by
  cases control with
  | shown c => simp [controls] at h
  | on paint =>
    cases mark with
    | shown c =>
      have hne : '\x1b' ≠ c := (isPlain_shown.mp hplain).symm
      simp [text, Paint.toList_code, hne]
    | on other => cases paint <;> cases other <;> simp [text, Paint.toList_code, Paint.parameter]
    | off => cases paint <;> simp [text, Paint.toList_code, Paint.toList_reset, Paint.parameter]
  | off =>
    cases mark with
    | shown c =>
      have hne : '\x1b' ≠ c := (isPlain_shown.mp hplain).symm
      simp [text, Paint.toList_reset, hne]
    | on other =>
      cases other <;> simp [text, Paint.toList_code, Paint.toList_reset, Paint.parameter]
    | off => simp [text]

/-- The first mark of some printed text and the text after it. -/
def next? : List Char → Option (Mark × List Char)
  | [] => none
  | c :: rest =>
      match controls.find? fun control => control.text.isPrefixOf (c :: rest) with
      | some control => some (control, (c :: rest).drop control.text.length)
      | none => some (shown c, rest)

theorem length_lt_of_next? {text rest : List Char} {mark : Mark}
    (h : next? text = some (mark, rest)) : rest.length < text.length := by
  cases text with
  | nil => cases h
  | cons c text =>
    rw [next?] at h
    split at h
    · next control _ =>
      obtain ⟨rfl, rfl⟩ := Prod.mk.inj (Option.some.inj h)
      have hpos := List.length_pos_iff.mpr control.text_ne_nil
      simp only [List.length_drop, List.length_cons]
      omega
    · obtain ⟨-, rfl⟩ := Prod.mk.inj (Option.some.inj h)
      exact Nat.lt_succ_self _

theorem next?_text_append {mark : Mark} (rest : List Char) (h : mark.IsPlain) :
    next? (mark.text ++ rest) = some (mark, rest) := by
  cases mark with
  | shown c =>
    have hnone : controls.find? (fun control => control.text.isPrefixOf (c :: rest)) = none := by
      rw [List.find?_eq_none]
      intro control hcontrol hbegins
      rw [List.isPrefixOf_iff_prefix] at hbegins
      have heq := (text_isPrefix_append_iff rest hcontrol h).mp hbegins
      rw [heq] at hcontrol
      simp [controls] at hcontrol
    rw [text, List.singleton_append, next?, hnone]
  | on paint => cases paint <;> rfl
  | off => rfl

end Mark

def readMarks (text : List Char) : List Mark :=
  match _ : Mark.next? text with
  | none => []
  | some (mark, rest) => mark :: readMarks rest
termination_by text.length
decreasing_by exact Mark.length_lt_of_next? ‹_›

/-- Plain marks are read as they were written. -/
theorem readMarks_flatMap_text {marks : List Mark} (h : ∀ mark ∈ marks, mark.IsPlain) :
    readMarks (marks.flatMap Mark.text) = marks := by
  induction marks with
  | nil => rw [List.flatMap_nil, readMarks]; rfl
  | cons mark marks ih =>
    obtain ⟨hmark, hmarks⟩ := List.forall_mem_cons.mp h
    have hnext := Mark.next?_text_append (marks.flatMap Mark.text) hmark
    rw [List.flatMap_cons, readMarks]
    split
    · next hnone => cases hnext.symm.trans hnone
    · next found =>
      cases hnext.symm.trans found
      rw [ih hmarks]

namespace Styled

def marks : Styled → List Mark
  | text content => content.toList.map .shown
  | painted paint inner => .on paint :: (inner.marks ++ [.off])
  | append first second => first.marks ++ second.marks

@[simp]
theorem marks_hAppend (first second : Styled) :
    (first ++ second).marks = first.marks ++ second.marks := rfl

theorem toList_render_true (styled : Styled) :
    (styled.render true).toList = styled.marks.flatMap Mark.text := by
  induction styled with
  | text content => simp [marks, List.flatMap_map, Mark.text]
  | painted paint inner ih =>
    simp [marks, render_painted, Mark.text, String.toList_append, ih]
  | append first second ihFirst ihSecond =>
    simp [marks, String.toList_append, ihFirst, ihSecond]

theorem toList_render_false (styled : Styled) :
    (styled.render false).toList = styled.marks.filterMap Mark.shown? := by
  induction styled with
  | text content => simp [marks, List.filterMap_map, Mark.shown?, Function.comp_def]
  | painted paint inner ih =>
    simp [marks, render_painted, List.filterMap_cons, Mark.shown?, ih]
  | append first second ihFirst ihSecond =>
    simp [marks, String.toList_append, ihFirst, ihSecond]

@[simp]
theorem render_hAppend (colors : Bool) (first second : Styled) :
    (first ++ second).render colors = first.render colors ++ second.render colors :=
  render_append colors first second

theorem toList_render_concat (colors : Bool) (parts : List Styled) :
    ((concat parts).render colors).toList =
      parts.flatMap fun part => (part.render colors).toList := by
  induction parts with
  | nil => simp [concat]
  | cons part parts ih =>
    have hcons : concat (part :: parts) = append part (concat parts) := rfl
    rw [hcons, render_append, String.toList_append, ih, List.flatMap_cons]

/-- Whether what the value shows is free of the escape with which control sequences begin. -/
def IsPlain (styled : Styled) : Prop :=
  '\x1b' ∉ (styled.render false).toList

@[simp]
theorem isPlain_text {content : String} : (text content).IsPlain ↔ '\x1b' ∉ content.toList := by
  rw [IsPlain, render_text]

@[simp]
theorem isPlain_painted {paint : Paint} {inner : Styled} :
    (painted paint inner).IsPlain ↔ inner.IsPlain := by
  rw [IsPlain, IsPlain, render_painted, if_neg Bool.false_ne_true]

@[simp]
theorem isPlain_append {first second : Styled} :
    (append first second).IsPlain ↔ first.IsPlain ∧ second.IsPlain := by
  simp [IsPlain, String.toList_append]

@[simp]
theorem isPlain_hAppend {first second : Styled} :
    (first ++ second).IsPlain ↔ first.IsPlain ∧ second.IsPlain :=
  isPlain_append

@[simp]
theorem isPlain_concat {parts : List Styled} :
    (concat parts).IsPlain ↔ ∀ part ∈ parts, part.IsPlain := by
  rw [IsPlain, toList_render_concat, List.mem_flatMap, not_exists]
  exact forall_congr' fun part => not_and

@[simp]
theorem isPlain_paint {paints : List Paint} {inner : Styled} :
    (paint paints inner).IsPlain ↔ inner.IsPlain := by
  induction paints generalizing inner with
  | nil => rfl
  | cons first paints ih =>
    have hcons : paint (first :: paints) inner = paint paints (painted first inner) := rfl
    rw [hcons, ih, isPlain_painted]

theorem IsPlain.of_mem_marks {styled : Styled} (h : styled.IsPlain) {mark : Mark}
    (hmark : mark ∈ styled.marks) : mark.IsPlain := by
  rintro rfl
  rw [IsPlain, toList_render_false] at h
  exact h (List.mem_filterMap.mpr ⟨_, hmark, rfl⟩)

/-- What is printed in colours is taken apart into the marks it was written as. -/
theorem readMarks_render {styled : Styled} (h : styled.IsPlain) :
    readMarks (styled.render true).toList = styled.marks := by
  rw [toList_render_true]
  exact readMarks_flatMap_text fun _ => h.of_mem_marks

end Styled

end TokenScan
