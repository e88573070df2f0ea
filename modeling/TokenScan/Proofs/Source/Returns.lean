import Mathlib.Data.List.Basic
import TokenScan.Proofs.Source.Walk

/-!
Carriage returns in front of line feeds. If a line feed follows each carriage return of a text, the
lines end at the line feeds. So the carriage returns can be left out without a change to the number
of lines or to where anything stands by line and column, as long as it does not begin between a
carriage return and its line feed.
-/

namespace TokenScan

open Text

namespace Text

def PairedReturns (text : List Char) : Prop :=
  ∀ before after, text = before ++ '\r' :: after → after.head? = some '\n'

def withoutReturns (text : List Char) : List Char :=
  text.filter (· ≠ '\r')

theorem pairedReturns_nil : PairedReturns [] := by
  intro before after h
  cases before <;> cases h

theorem pairedReturns_cons_iff {c : Char} {rest : List Char} :
    PairedReturns (c :: rest) ↔ (c = '\r' → rest.head? = some '\n') ∧ PairedReturns rest := by
  constructor
  · intro h
    refine ⟨?_, ?_⟩
    · rintro rfl
      exact h [] rest rfl
    · intro before after hrest
      exact h (c :: before) after (by rw [hrest, List.cons_append])
  · rintro ⟨hfirst, hrest⟩ before after h
    cases before with
    | nil =>
      obtain ⟨rfl, rfl⟩ := List.cons.inj h
      exact hfirst rfl
    | cons d before =>
      obtain ⟨rfl, htail⟩ := List.cons.inj h
      exact hrest before after htail

theorem PairedReturns.of_append {before after : List Char} (h : PairedReturns (before ++ after)) :
    PairedReturns after := by
  intro first rest hafter
  exact h (before ++ first) rest (by rw [hafter, List.append_assoc])

@[simp]
theorem withoutReturns_nil : withoutReturns [] = [] :=
  rfl

@[simp]
theorem withoutReturns_cons_return (rest : List Char) :
    withoutReturns ('\r' :: rest) = withoutReturns rest :=
  rfl

theorem withoutReturns_cons {c : Char} (h : c ≠ '\r') (rest : List Char) :
    withoutReturns (c :: rest) = c :: withoutReturns rest := by
  simp [withoutReturns, h]

@[simp]
theorem withoutReturns_append (first second : List Char) :
    withoutReturns (first ++ second) = withoutReturns first ++ withoutReturns second :=
  List.filter_append ..

theorem mem_of_mem_withoutReturns {c : Char} {text : List Char} (h : c ∈ withoutReturns text) :
    c ∈ text :=
  List.mem_of_mem_filter h

theorem withoutReturns_eq_self {text : List Char} (h : '\r' ∉ text) :
    withoutReturns text = text := by
  rw [withoutReturns, List.filter_eq_self]
  intro c hc
  have hne : c ≠ '\r' := fun heq => h (heq ▸ hc)
  simpa using hne

/-- What comes first when the carriage returns are left out came first before, or it is the line
feed of a carriage return. -/
theorem head?_of_head?_withoutReturns {text after : List Char} {c : Char}
    (hpaired : PairedReturns (text ++ after)) (hhead : (withoutReturns text).head? = some c)
    (hc : c ≠ '\n') : text.head? = some c := by
  cases text with
  | nil => cases hhead
  | cons d rest =>
    by_cases hreturn : d = '\r'
    · rw [hreturn, List.cons_append] at hpaired
      have hnext := (pairedReturns_cons_iff.mp hpaired).1 rfl
      cases rest with
      | nil => rw [hreturn] at hhead; cases hhead
      | cons e rest =>
        obtain rfl : e = '\n' := by simpa using hnext
        rw [hreturn, withoutReturns_cons_return, withoutReturns_cons (by decide)] at hhead
        exact absurd (Option.some.inj hhead).symm hc
    · rw [withoutReturns_cons hreturn] at hhead
      exact hhead

/-- No pair of characters comes together, unless the second is a line feed. -/
theorem infix_of_infix_withoutReturns {first second : Char} (hsecond : second ≠ '\n')
    {text after : List Char} (hpaired : PairedReturns (text ++ after))
    (h : [first, second] <:+: withoutReturns text) : [first, second] <:+: text := by
  induction text with
  | nil => exact h
  | cons c rest ih =>
    obtain ⟨-, hrest⟩ := pairedReturns_cons_iff.mp hpaired
    by_cases hreturn : c = '\r'
    · rw [hreturn, withoutReturns_cons_return] at h
      exact List.infix_cons_iff.mpr (Or.inr (ih hrest h))
    · rw [withoutReturns_cons hreturn, List.infix_cons_iff] at h
      rw [List.infix_cons_iff]
      obtain hprefix | hlater := h
      · -- Only a line feed could have come up to the first character from behind.
        obtain ⟨rfl, hnext⟩ := List.cons_prefix_cons.mp hprefix
        obtain ⟨tail, htail⟩ := hnext
        have hhead : rest.head? = some second :=
          head?_of_head?_withoutReturns hrest (by rw [← htail]; rfl) hsecond
        obtain ⟨tail, rfl⟩ := List.head?_eq_some_iff.mp hhead
        exact Or.inl ⟨tail, rfl⟩
      · exact Or.inr (ih hrest hlater)

theorem length_joinFirst (start : Nat) (text : List Char) (lines : List Line) :
    (joinFirst start text lines).length = lines.length := by
  cases lines <;> rfl

/-- A text has as many lines without its carriage returns. -/
theorem length_linesFrom_withoutReturns {text : List Char} (hpaired : PairedReturns text)
    (start otherStart : Nat) :
    (linesFrom otherStart (withoutReturns text)).length = (linesFrom start text).length := by
  induction text generalizing start otherStart with
  | nil => rfl
  | cons c rest ih =>
    obtain ⟨hnext, hrest⟩ := pairedReturns_cons_iff.mp hpaired
    by_cases hreturn : c = '\r'
    · have hends : endsLine c rest = false := by
        simp [endsLine, hreturn, hnext hreturn]
      rw [hreturn, withoutReturns_cons_return, linesFrom_cons start, ← hreturn, hends,
        if_neg Bool.false_ne_true, length_joinFirst]
      exact ih hrest _ _
    · have hends (after : List Char) : endsLine c after = decide (c = '\n') := by
        simp [endsLine, hreturn]
      rw [withoutReturns_cons hreturn, linesFrom_cons, linesFrom_cons start, hends, hends]
      split
      · rw [List.length_cons, List.length_cons, ih hrest]
      · rw [length_joinFirst, length_joinFirst, ih hrest]

end Text

/-- A walk that does not end between a carriage return and its line feed comes to the same location
without the carriage returns. -/
theorem Location.across_withoutReturns {before after : List Char}
    (hpaired : PairedReturns (before ++ after)) (hlast : before.getLast? ≠ some '\r')
    (location : Location) :
    location.across (withoutReturns before) (withoutReturns after) =
      location.across before after := by
  cases before with
  | nil => rfl
  | cons c before =>
    obtain ⟨hnext, hrest⟩ := pairedReturns_cons_iff.mp hpaired
    by_cases hreturn : c = '\r'
    · cases before with
      | nil => exact absurd (by rw [hreturn]; rfl) hlast
      | cons d before =>
        -- The pair is passed at one go. The column that the carriage return adds is lost behind it.
        obtain rfl : d = '\n' := by simpa using hnext hreturn
        have hlater : before.getLast? ≠ some '\r' := by
          intro hreturn
          apply hlast
          rw [List.getLast?_cons, List.getLast?_cons, hreturn]
          rfl
        have hwalk := across_withoutReturns (pairedReturns_cons_iff.mp hrest).2 hlater
          ⟨location.line + 1, 1⟩
        rw [hreturn, withoutReturns_cons_return, withoutReturns_cons (by decide)]
        simp only [across, past, endsLine]
        simpa using hwalk
    · have hlater : before.getLast? ≠ some '\r' := by
        intro hlater
        apply hlast
        rw [List.getLast?_cons, hlater]
        rfl
      have hpast : location.past c (withoutReturns before ++ withoutReturns after) =
          location.past c (before ++ after) := by
        simp [past, endsLine, hreturn]
      rw [withoutReturns_cons hreturn, across, across, hpast]
      exact across_withoutReturns hrest hlater _

end TokenScan
