import TokenScan.Proofs.Styled.Marks

/-!
Colours as decoration. `Decorates` says of two printed texts that the first is the second with
control sequences put in, every paint turned off again. It speaks of the characters printed and of
nothing else. `Styled.decorates` is that the two forms of whatever shows no escape of its own are
such texts.
-/

namespace TokenScan

namespace Text

/-- The text behind a control sequence, if one stands at the front: an escape, a bracket, digits and
the letter that ends it. -/
def behindSequence? : List Char → Option (List Char)
  | '\x1b' :: '[' :: rest =>
      match rest.takeWhile Char.isDigit, rest.dropWhile Char.isDigit with
      | _ :: _, 'm' :: after => some after
      | _, _ => none
  | _ => none

theorem length_lt_of_behindSequence? {text after : List Char}
    (h : behindSequence? text = some after) : after.length < text.length := by
  unfold behindSequence? at h
  split at h
  · next rest =>
    split at h
    · next hdrop =>
      have hle := (List.dropWhile_suffix Char.isDigit (l := rest)).length_le
      rw [hdrop, List.length_cons] at hle
      obtain rfl := Option.some.inj h
      simp only [List.length_cons]
      omega
    · cases h
  · cases h

def withoutSequences : List Char → List Char
  | [] => []
  | c :: rest =>
      match _ : behindSequence? (c :: rest) with
      | some after => withoutSequences after
      | none => c :: withoutSequences rest
termination_by text => text.length
decreasing_by
  · exact length_lt_of_behindSequence? ‹_›
  · exact Nat.lt_succ_self _

theorem withoutSequences_of_eq_some {text after : List Char}
    (h : behindSequence? text = some after) : withoutSequences text = withoutSequences after := by
  cases text with
  | nil => cases h
  | cons c rest =>
    rw [withoutSequences]
    split
    · next found => rw [Option.some.inj (h.symm.trans found)]
    · next hnone => cases h.symm.trans hnone

theorem withoutSequences_of_eq_none {c : Char} {rest : List Char}
    (h : behindSequence? (c :: rest) = none) :
    withoutSequences (c :: rest) = c :: withoutSequences rest := by
  rw [withoutSequences]
  split
  · next found => cases h.symm.trans found
  · rfl

def occurrences (pattern : List Char) : List Char → Nat
  | [] => 0
  | c :: rest => (if pattern.isPrefixOf (c :: rest) then 1 else 0) + occurrences pattern rest

def codeCount (text : List Char) : Nat :=
  Paint.all.foldr (fun paint count => occurrences paint.code.toList text + count) 0

def resetCount (text : List Char) : Nat :=
  occurrences Paint.reset.toList text

theorem occurrences_eq_zero {pattern text : List Char} {c : Char} (hpattern : c ∈ pattern)
    (htext : c ∉ text) : occurrences pattern text = 0 := by
  induction text with
  | nil => rfl
  | cons d text ih =>
    have hnot : ¬ pattern.isPrefixOf (d :: text) = true := by
      rw [List.isPrefixOf_iff_prefix]
      exact fun hbegins => htext (hbegins.subset hpattern)
    rw [occurrences, if_neg hnot, ih fun hc => htext (List.mem_cons_of_mem d hc)]

/-- Nothing is counted before the first character of the pattern turns up. -/
theorem occurrences_append_of_not_mem {pattern front : List Char} {c : Char} (rest : List Char)
    (hpattern : pattern.head? = some c) (hfront : c ∉ front) :
    occurrences pattern (front ++ rest) = occurrences pattern rest := by
  induction front with
  | nil => rfl
  | cons d front ih =>
    obtain ⟨hne, hfront⟩ := not_or.mp (mt List.mem_cons.mpr hfront)
    obtain ⟨tail, rfl⟩ := List.head?_eq_some_iff.mp hpattern
    have hnot : ¬ (c :: tail).isPrefixOf (d :: (front ++ rest)) = true := by
      rw [List.isPrefixOf_iff_prefix, List.cons_prefix_cons]
      exact fun hbegins => hne hbegins.1
    rw [List.cons_append, occurrences, if_neg hnot, Nat.zero_add, ih hfront]

end Text

open Text

structure Decorates (colored plain : String) : Prop where
  /-- Without the control sequences nothing is left but the other text. -/
  withoutSequences_eq : withoutSequences colored.toList = plain.toList
  /-- The other text holds nothing that a control sequence could begin with. -/
  escape_not_mem : '\x1b' ∉ plain.toList
  /-- As often as a paint is turned on, paints are turned off. -/
  resetCount_eq : resetCount colored.toList = codeCount colored.toList
  /-- No paint is turned off before it is turned on. -/
  resetCount_le : ∀ front, front <+: colored.toList → resetCount front ≤ codeCount front

namespace Mark

def isOn : Mark → Bool
  | on _ => true
  | shown _ | off => false

def isOff : Mark → Bool
  | off => true
  | shown _ | on _ => false

theorem withoutSequences_text_append {mark : Mark} (rest : List Char) (h : mark.IsPlain) :
    withoutSequences (mark.text ++ rest) = mark.shown?.toList ++ withoutSequences rest := by
  cases mark with
  | shown c =>
    have hnone : behindSequence? (c :: rest) = none := by
      unfold behindSequence?
      split
      · next heq =>
        obtain ⟨rfl, -⟩ := List.cons.inj heq
        exact absurd rfl (isPlain_shown.mp h)
      · rfl
    exact withoutSequences_of_eq_none hnone
  | on paint =>
    have hsome : behindSequence? (paint.code.toList ++ rest) = some rest := by
      cases paint <;> rfl
    exact withoutSequences_of_eq_some hsome
  | off => exact withoutSequences_of_eq_some rfl

theorem withoutSequences_flatMap_text {marks : List Mark} (h : ∀ mark ∈ marks, mark.IsPlain) :
    withoutSequences (marks.flatMap text) = marks.filterMap shown? := by
  induction marks with
  | nil => rw [List.flatMap_nil, withoutSequences, List.filterMap_nil]
  | cons mark marks ih =>
    obtain ⟨hmark, hmarks⟩ := List.forall_mem_cons.mp h
    rw [List.flatMap_cons, withoutSequences_text_append _ hmark, ih hmarks, List.filterMap_cons]
    cases mark.shown? <;> rfl

/-! ### Counting -/

theorem head?_text_of_mem_controls {control : Mark} (h : control ∈ controls) :
    control.text.head? = some '\x1b' := by
  cases control with
  | shown c => simp [controls] at h
  | on paint => cases paint <;> rfl
  | off => rfl

/-- A control sequence begins at its first character only. -/
theorem exists_text_eq_cons (mark : Mark) :
    ∃ c inner, mark.text = c :: inner ∧ '\x1b' ∉ inner := by
  cases mark with
  | shown c => exact ⟨c, [], rfl, List.not_mem_nil⟩
  | on paint =>
    refine ⟨'\x1b', '[' :: (paint.parameter ++ ['m']), Paint.toList_code paint, ?_⟩
    cases paint <;> decide
  | off => exact ⟨'\x1b', ['[', '0', 'm'], rfl, by decide⟩

/-- In front of any text, a control sequence counts once where it is looked for. -/
theorem occurrences_text_append {control mark : Mark} (rest : List Char)
    (hcontrol : control ∈ controls) (h : mark.IsPlain) :
    occurrences control.text (mark.text ++ rest) =
      (if control = mark then 1 else 0) + occurrences control.text rest := by
  obtain ⟨c, inner, htext, hinner⟩ := exists_text_eq_cons mark
  have hbegins := text_isPrefix_append_iff rest hcontrol h
  have htail := occurrences_append_of_not_mem rest (head?_text_of_mem_controls hcontrol) hinner
  rw [htext, List.cons_append] at hbegins ⊢
  rw [occurrences, htail]
  congr 1
  simp only [List.isPrefixOf_iff_prefix, hbegins]

theorem resetCount_text_append {mark : Mark} (rest : List Char) (h : mark.IsPlain) :
    resetCount (mark.text ++ rest) = (if mark.isOff then 1 else 0) + resetCount rest := by
  have hcount := occurrences_text_append rest off_mem_controls h
  rw [text] at hcount
  rw [resetCount, hcount, resetCount]
  cases mark <;> simp [isOff]

theorem codeCount_text_append {mark : Mark} (rest : List Char) (h : mark.IsPlain) :
    codeCount (mark.text ++ rest) = (if mark.isOn then 1 else 0) + codeCount rest := by
  have hcount (paint : Paint) : occurrences paint.code.toList (mark.text ++ rest) =
      (if on paint = mark then 1 else 0) + occurrences paint.code.toList rest :=
    occurrences_text_append rest (on_mem_controls paint) h
  simp only [codeCount, Paint.all, List.foldr_cons, List.foldr_nil, hcount]
  cases mark with
  | shown c => simp [isOn]
  | on paint => cases paint <;> simp [isOn] <;> omega
  | off => simp [isOn]

theorem resetCount_flatMap_text_append {marks : List Mark} (rest : List Char)
    (h : ∀ mark ∈ marks, mark.IsPlain) :
    resetCount (marks.flatMap text ++ rest) = marks.countP isOff + resetCount rest := by
  induction marks with
  | nil => simp
  | cons mark marks ih =>
    obtain ⟨hmark, hmarks⟩ := List.forall_mem_cons.mp h
    rw [List.flatMap_cons, List.append_assoc, resetCount_text_append _ hmark, ih hmarks,
      List.countP_cons]
    omega

theorem codeCount_flatMap_text_append {marks : List Mark} (rest : List Char)
    (h : ∀ mark ∈ marks, mark.IsPlain) :
    codeCount (marks.flatMap text ++ rest) = marks.countP isOn + codeCount rest := by
  induction marks with
  | nil => simp
  | cons mark marks ih =>
    obtain ⟨hmark, hmarks⟩ := List.forall_mem_cons.mp h
    rw [List.flatMap_cons, List.append_assoc, codeCount_text_append _ hmark, ih hmarks,
      List.countP_cons]
    omega

/-- Only the last character of a mark can be the letter that ends a control sequence. -/
theorem exists_text_eq_concat (mark : Mark) :
    ∃ inner c, mark.text = inner ++ [c] ∧ 'm' ∉ inner := by
  cases mark with
  | shown c => exact ⟨[], c, rfl, List.not_mem_nil⟩
  | on paint =>
    refine ⟨'\x1b' :: '[' :: paint.parameter, 'm', Paint.toList_code paint, ?_⟩
    cases paint <;> decide
  | off => exact ⟨['\x1b', '[', '0'], 'm', rfl, by decide⟩

/-- Where the letter that ends them is missing there are no control sequences. -/
theorem counts_of_not_mem {text : List Char} (h : 'm' ∉ text) :
    resetCount text = 0 ∧ codeCount text = 0 := by
  have hcode (paint : Paint) : occurrences paint.code.toList text = 0 := by
    apply occurrences_eq_zero _ h
    rw [Paint.toList_code]
    exact List.mem_append_right _ (List.mem_singleton_self 'm')
  refine ⟨occurrences_eq_zero (by decide) h, ?_⟩
  simp [codeCount, Paint.all, hcode]

/-- Wherever printed text is broken off, it consists of some of its first marks and of a part of the
next that is no control sequence. -/
theorem exists_split_of_isPrefix {marks : List Mark} {front : List Char}
    (h : front <+: marks.flatMap text) :
    ∃ first broken, first <+: marks ∧ front = first.flatMap text ++ broken ∧ 'm' ∉ broken := by
  induction marks generalizing front with
  | nil =>
    obtain rfl := List.prefix_nil.mp h
    exact ⟨[], [], List.prefix_rfl, rfl, List.not_mem_nil⟩
  | cons mark marks ih =>
    obtain ⟨inner, c, htext, hinner⟩ := exists_text_eq_concat mark
    rw [List.flatMap_cons] at h
    rcases List.prefix_or_prefix_of_prefix h (List.prefix_append (text mark) _) with
      hinside | ⟨rest, rfl⟩
    · rw [htext] at hinside
      rcases List.prefix_concat_iff.mp hinside with rfl | hbroken
      · refine ⟨[mark], [], ?_, by simp [htext], List.not_mem_nil⟩
        exact List.cons_prefix_cons.mpr ⟨rfl, List.nil_prefix⟩
      · exact ⟨[], front, List.nil_prefix, rfl, fun hm => hinner (hbroken.subset hm)⟩
    · obtain ⟨first, broken, hfirst, rfl, hbroken⟩ :=
        ih ((List.prefix_append_right_inj (text mark)).mp h)
      refine ⟨mark :: first, broken, List.cons_prefix_cons.mpr ⟨rfl, hfirst⟩, ?_, hbroken⟩
      rw [List.flatMap_cons, List.append_assoc]

/-- Paints are turned off as often as they are turned on, and never before. -/
structure Balanced (marks : List Mark) : Prop where
  countP_eq : marks.countP isOff = marks.countP isOn
  countP_le : ∀ first, first <+: marks → first.countP isOff ≤ first.countP isOn

theorem Balanced.append {first second : List Mark} (hfirst : Balanced first)
    (hsecond : Balanced second) : Balanced (first ++ second) where
  countP_eq := by
    rw [List.countP_append, List.countP_append, hfirst.countP_eq, hsecond.countP_eq]
  countP_le := by
    intro front hfront
    rcases List.prefix_or_prefix_of_prefix hfront (List.prefix_append first second) with
      hinside | ⟨rest, rfl⟩
    · exact hfirst.countP_le front hinside
    · have hrest := hsecond.countP_le rest ((List.prefix_append_right_inj first).mp hfront)
      rw [List.countP_append, List.countP_append, hfirst.countP_eq]
      omega

/-- A paint turned on in front of balanced marks and off behind them leaves them balanced. -/
theorem Balanced.painted {marks : List Mark} (paint : Paint) (h : Balanced marks) :
    Balanced (on paint :: (marks ++ [off])) where
  countP_eq := by
    simp [List.countP_cons, isOn, isOff, h.countP_eq]
  countP_le := by
    intro front hfront
    rcases List.prefix_cons_iff.mp hfront with rfl | ⟨rest, rfl, hrest⟩
    · exact Nat.le_refl 0
    · rcases List.prefix_concat_iff.mp hrest with rfl | hinside
      · simp [List.countP_cons, isOn, isOff, h.countP_eq]
      · have hle := h.countP_le rest hinside
        simp only [List.countP_cons, isOn, isOff, if_true, Bool.false_eq_true, if_false]
        omega

theorem balanced_map_shown (chars : List Char) : Balanced (chars.map shown) where
  countP_eq := by
    simp [List.countP_map, Function.comp_def, isOn, isOff]
  countP_le := by
    intro front hfront
    have hnone : front.countP isOff = 0 := by
      rw [List.countP_eq_zero]
      intro mark hmark
      obtain ⟨c, -, rfl⟩ := List.mem_map.mp (hfront.subset hmark)
      exact Bool.false_ne_true
    rw [hnone]
    exact Nat.zero_le _

end Mark

namespace Styled

theorem balanced_marks (styled : Styled) : Mark.Balanced styled.marks := by
  induction styled with
  | text content => exact Mark.balanced_map_shown content.toList
  | painted paint inner ih => exact ih.painted paint
  | append first second ihFirst ihSecond => exact ihFirst.append ihSecond

/-- What shows no escape of its own is printed in colours as it is printed without them, with
control sequences put in. -/
theorem decorates {styled : Styled} (h : styled.IsPlain) :
    Decorates (styled.render true) (styled.render false) where
  withoutSequences_eq := by
    rw [toList_render_true, toList_render_false]
    exact Mark.withoutSequences_flatMap_text fun _ => h.of_mem_marks
  escape_not_mem := h
  resetCount_eq := by
    have hplain : ∀ mark ∈ styled.marks, mark.IsPlain := fun _ => h.of_mem_marks
    have hreset := Mark.resetCount_flatMap_text_append [] hplain
    have hcode := Mark.codeCount_flatMap_text_append [] hplain
    rw [List.append_nil, ← toList_render_true] at hreset hcode
    rw [hreset, hcode, styled.balanced_marks.countP_eq]
    rfl
  resetCount_le := by
    intro front hfront
    rw [toList_render_true] at hfront
    obtain ⟨first, broken, hfirst, rfl, hbroken⟩ := Mark.exists_split_of_isPrefix hfront
    have hplain : ∀ mark ∈ first, mark.IsPlain :=
      fun _ hmark => h.of_mem_marks (hfirst.subset hmark)
    obtain ⟨hreset, hcode⟩ := Mark.counts_of_not_mem hbroken
    rw [Mark.resetCount_flatMap_text_append broken hplain,
      Mark.codeCount_flatMap_text_append broken hplain, hreset, hcode]
    exact styled.balanced_marks.countP_le first hfirst

end Styled

end TokenScan
