import Mathlib.Data.List.Basic

/-!
Lists in parts. Scans, sources and excerpts are read part after part, and what belongs to some of
the parts is picked from all of them by where it stands. What is picked is then the same as what
these parts give alone, since the parts around them give nothing.
-/

namespace TokenScan.Text

/-- A filter that takes a middle part whole, and nothing in front of it or behind. -/
theorem filter_between {α : Type} {keep : α → Bool} {before middle behind : List α}
    (hbefore : ∀ x ∈ before, keep x = false) (hmiddle : ∀ x ∈ middle, keep x = true)
    (hbehind : ∀ x ∈ behind, keep x = false) :
    (before ++ middle ++ behind).filter keep = middle := by
  have hnoneBefore : before.filter keep = [] := by
    simpa [List.filter_eq_nil_iff] using hbefore
  have hall : middle.filter keep = middle := List.filter_eq_self.mpr hmiddle
  have hnoneBehind : behind.filter keep = [] := by
    simpa [List.filter_eq_nil_iff] using hbehind
  rw [List.filter_append, List.filter_append, hnoneBefore, hall, hnoneBehind, List.nil_append,
    List.append_nil]

/-- Numbers below and above which there is nothing can be left out. -/
theorem flatMap_range'_eq {α : Type} {f : Nat → List α} {first count low high : Nat}
    (h : ∀ number, number < low ∨ high < number → f number = []) (hfirst : first ≤ low)
    (hbounds : low ≤ high) (hlast : high < first + count) :
    (List.range' first count).flatMap f = (List.range' low (high + 1 - low)).flatMap f := by
  have hbefore : (List.range' first (low - first)).flatMap f = [] := by
    rw [List.flatMap_eq_nil_iff]
    intro number hnumber
    rw [List.mem_range'_1] at hnumber
    exact h number (.inl (by omega))
  have hbehind : (List.range' (high + 1) (first + count - (high + 1))).flatMap f = [] := by
    rw [List.flatMap_eq_nil_iff]
    intro number hnumber
    rw [List.mem_range'_1] at hnumber
    exact h number (.inr (by omega))
  have hcount : count = low - first + (high + 1 - low + (first + count - (high + 1))) := by omega
  have hlow : first + (low - first) = low := by omega
  have hhigh : low + (high + 1 - low) = high + 1 := by omega
  rw [hcount, ← List.range'_append_1, hlow, ← List.range'_append_1, hhigh, List.flatMap_append,
    List.flatMap_append, hbefore, hbehind, List.nil_append, List.append_nil]

end TokenScan.Text
