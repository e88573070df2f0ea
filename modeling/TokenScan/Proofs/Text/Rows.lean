import Mathlib.Data.List.Basic

/-!
Printed text in rows. What is printed up to a character that it does not hold can be told from what
is printed behind. A row is ended by a line feed, so rows that hold none themselves can be read back
from the text, and counting the line feeds counts them.
-/

namespace TokenScan.Text

/-- A text is parted in one way only at the first place where a character stands. -/
theorem append_cons_inj {stop : Char} {first second after behind : List Char}
    (hfirst : stop ∉ first) (hsecond : stop ∉ second)
    (h : first ++ stop :: after = second ++ stop :: behind) : first = second ∧ after = behind := by
  induction first generalizing second with
  | nil =>
    cases second with
    | nil => exact ⟨rfl, (List.cons.inj h).2⟩
    | cons c second =>
      obtain ⟨rfl, -⟩ := List.cons.inj h
      exact absurd List.mem_cons_self hsecond
  | cons c first ih =>
    rw [List.mem_cons, not_or] at hfirst
    cases second with
    | nil => exact absurd (List.cons.inj h).1.symm hfirst.1
    | cons d second =>
      rw [List.mem_cons, not_or] at hsecond
      obtain ⟨rfl, hrest⟩ := List.cons.inj h
      obtain ⟨rfl, hbehind⟩ := ih hfirst.2 hsecond.2 hrest
      exact ⟨rfl, hbehind⟩

/-- The text is the rows in order, and the line feeds in it are those that end them. -/
structure IsRows (rows : List (List Char)) (text : List Char) : Prop where
  text_eq : text = rows.flatMap fun row => row ++ ['\n']
  newline_not_mem : ∀ row ∈ rows, '\n' ∉ row

/-- A text in rows ends with a line feed. -/
theorem IsRows.eq_newline {rows : List (List Char)} {text : List Char} {c : Char}
    (h : IsRows rows (text ++ [c])) : c = '\n' := by
  have htext := h.text_eq
  rcases List.eq_nil_or_concat rows with rfl | ⟨front, row, rfl⟩
  · simp at htext
  · rw [List.concat_eq_append, List.flatMap_append, List.flatMap_singleton,
      ← List.append_assoc] at htext
    exact List.singleton_inj.mp (List.append_inj' htext rfl).2

/-- Line feeds end the rows or stand in them. -/
theorem count_newline_flatMap (rows : List (List Char)) :
    (rows.flatMap fun row => row ++ ['\n']).count '\n' =
      rows.length + rows.flatten.count '\n' := by
  induction rows with
  | nil => rfl
  | cons row rows ih =>
    rw [List.flatMap_cons, List.count_append, List.count_append, ih, List.count_singleton_self,
      List.flatten_cons, List.count_append, List.length_cons]
    omega

theorem flatMap_newline_inj {rows others : List (List Char)} (hrows : ∀ row ∈ rows, '\n' ∉ row)
    (hothers : ∀ row ∈ others, '\n' ∉ row)
    (h : (rows.flatMap fun row => row ++ ['\n']) = others.flatMap fun row => row ++ ['\n']) :
    rows = others := by
  induction rows generalizing others with
  | nil =>
    cases others with
    | nil => rfl
    | cons other others => simp at h
  | cons row rows ih =>
    cases others with
    | nil => simp at h
    | cons other others =>
      obtain ⟨hrow, hlater⟩ := List.forall_mem_cons.mp hrows
      obtain ⟨hother, hrest⟩ := List.forall_mem_cons.mp hothers
      simp only [List.flatMap_cons, List.append_assoc, List.singleton_append] at h
      obtain ⟨hsame, hbehind⟩ := append_cons_inj hrow hother h
      rw [hsame, ih hlater hrest hbehind]

/-- A text has no more than one way to be read in rows. -/
theorem IsRows.unique {rows others : List (List Char)} {text : List Char} (h : IsRows rows text)
    (hothers : IsRows others text) : rows = others :=
  flatMap_newline_inj h.newline_not_mem hothers.newline_not_mem
    (h.text_eq.symm.trans hothers.text_eq)

/-! ### Numbers in rows -/

/-- A number is printed in digits only. -/
theorem not_mem_toDigits {base : Nat} {c : Char} (hbase : 1 < base)
    (hc : ∀ digit : Nat, digit.digitChar ≠ c) (number : Nat) : c ∉ Nat.toDigits base number := by
  induction number using Nat.strongRecOn with
  | _ number ih =>
    by_cases hsmall : number < base
    · rw [Nat.toDigits_of_lt_base hsmall, List.mem_singleton]
      exact (hc number).symm
    · have hlarge := Nat.le_of_not_lt hsmall
      have hless : number / base < number := Nat.div_lt_self (by omega) hbase
      rw [Nat.toDigits_of_base_le hbase hlarge, List.mem_append, List.mem_singleton]
      exact not_or.mpr ⟨ih _ hless, (hc (number % base)).symm⟩

theorem not_mem_toString {c : Char} (hc : ∀ digit : Nat, digit.digitChar ≠ c) (number : Nat) :
    c ∉ (toString number).toList := by
  rw [Nat.toString_eq_repr, Nat.toList_repr]
  exact not_mem_toDigits (by decide) hc number

theorem digitChar_ne_newline (digit : Nat) : digit.digitChar ≠ '\n' :=
  Nat.digitChar_ne '\n' (by decide)

theorem toList_toString_inj {first second : Nat}
    (h : (toString first).toList = (toString second).toList) : first = second := by
  rw [Nat.toString_eq_repr, Nat.toString_eq_repr, Nat.toList_repr, Nat.toList_repr] at h
  have hread := congrArg (fun digits => Nat.ofDigitChars 10 digits 0) h
  simpa only [Nat.ofDigitChars_ten_toDigits] using hread

end TokenScan.Text
