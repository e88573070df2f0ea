import Mathlib.Data.List.Pairwise
import TokenScan.Proofs.Scan.Warnings
import TokenScan.Proofs.Text.Parts

/-!
What sorting does to the tokens and the diagnostics of a scan. Both are ordered by a rank, then by
their spans, and only then by what they carry. In a scan no two of them begin at one place, so what
they carry never decides, and sorting puts together what has the same rank and leaves it in the
order of the source.
-/

namespace TokenScan

open Text Piece

/-! ### Entries with a rank and a span -/

section Ranks

variable {α : Type} {rank : α → Nat} {span : α → Span} {payload : α → Nat}

def byPlace (rank : α → Nat) (span : α → Span) (first second : α) : Ordering :=
  (compare (rank first) (rank second)).then ((span first).order (span second))

def byRank (rank : α → Nat) (span : α → Span) (payload : α → Nat) (first second : α) : Ordering :=
  (byPlace rank span first second).then (compare (payload first) (payload second))

/-- A lower rank, or the same rank and a place further in front. -/
def IsAhead (rank : α → Nat) (span : α → Span) (first second : α) : Prop :=
  rank first < rank second ∨
    rank first = rank second ∧ (span first).start < (span second).start

structure SortsTo (sort : List α → List α) (order : α → α → Ordering) (rank : α → Nat)
    (span : α → Span) (items sorted : List α) : Prop where
  sort_eq : sort items = sorted
  /-- There is no other list of the same entries that the order allows. -/
  unique : ∀ other : List α, other.Perm items →
    other.Pairwise (fun first second => order first second ≠ .gt) → other = sorted
  ne_eq : items.Pairwise fun first second => order first second ≠ .eq
  /-- Rank and span decide between any two of the entries. -/
  order_eq : ∀ first ∈ items, ∀ second ∈ items,
    order first second = byPlace rank span first second
  /-- Whatever else of the entries changes, they are sorted the same way. -/
  sort_map : ∀ change : α → α,
    (∀ x ∈ items, rank (change x) = rank x ∧ span (change x) = span x) →
    sort (items.map change) = sorted.map change

instance : Std.TransCmp (byRank rank span payload) :=
  inferInstanceAs (Std.TransCmp (compareLex (compareLex (compareOn rank)
    (compareLex (compareOn fun x => (span x).start) (compareOn fun x => (span x).stop)))
      (compareOn payload)))

/-- An order that compares payloads only between entries of one rank is one by rank. -/
theorem eq_byRank {payloadOrder : α → α → Ordering}
    (h : ∀ first second, rank first = rank second →
      payloadOrder first second = compare (payload first) (payload second)) (first second : α) :
    (compare (rank first) (rank second)).then
        (((span first).order (span second)).then (payloadOrder first second)) =
      byRank rank span payload first second := by
  rw [byRank, byPlace, Ordering.then_assoc]
  cases hrank : compare (rank first) (rank second) with
  | lt => rfl
  | eq => rw [h first second (Nat.compare_eq_eq.mp hrank)]
  | gt => rfl

theorem byPlace_eq_lt {first second : α} (h : IsAhead rank span first second) :
    byPlace rank span first second = .lt := by
  rw [byPlace]
  rcases h with hrank | ⟨hrank, hstart⟩
  · rw [Nat.compare_eq_lt.mpr hrank]
    rfl
  · rw [Nat.compare_eq_eq.mpr hrank, Span.order_eq_lt hstart]
    rfl

theorem byPlace_eq_gt {first second : α} (h : IsAhead rank span second first) :
    byPlace rank span first second = .gt := by
  rw [byPlace]
  rcases h with hrank | ⟨hrank, hstart⟩
  · rw [Nat.compare_eq_gt.mpr hrank]
    rfl
  · rw [Nat.compare_eq_eq.mpr hrank.symm, Span.order, Nat.compare_eq_gt.mpr hstart]
    rfl

theorem byRank_eq_lt {first second : α} (h : IsAhead rank span first second) :
    byRank rank span payload first second = .lt := by
  rw [byRank, byPlace_eq_lt h]
  rfl

theorem byRank_eq_gt {first second : α} (h : IsAhead rank span second first) :
    byRank rank span payload first second = .gt := by
  rw [byRank, byPlace_eq_gt h]
  rfl

section Sorted

variable {items sorted : List α}

theorem isAhead_or_of_mem (h : sorted.Pairwise (IsAhead rank span)) {first second : α}
    (hfirst : first ∈ sorted) (hsecond : second ∈ sorted) :
    first = second ∨ IsAhead rank span first second ∨ IsAhead rank span second first := by
  by_cases hsame : first = second
  · exact .inl hsame
  · have hpairs : sorted.Pairwise fun first second =>
        IsAhead rank span first second ∨ IsAhead rank span second first := h.imp Or.inl
    have hsymm : Std.Symm fun first second =>
        IsAhead rank span first second ∨ IsAhead rank span second first := ⟨fun _ _ => Or.symm⟩
    exact .inr (hpairs.forall hfirst hsecond hsame)

/-- Where each entry is ahead of those behind it, no other arrangement is in order. -/
theorem eq_of_pairwise_ne_gt (hperm : sorted.Perm items)
    (hsorted : sorted.Pairwise (IsAhead rank span)) {other : List α} (hother : other.Perm items)
    (hordered : other.Pairwise fun first second => byRank rank span payload first second ≠ .gt) :
    other = sorted := by
  have hsame : other.Perm sorted := hother.trans hperm.symm
  -- Two entries that may stand either way round are one, since neither is ahead of the other.
  refine List.Perm.eq_of_pairwise ?_ hordered (hsorted.imp ?_) hsame
  · intro first second hfirst hsecond hle hge
    rcases isAhead_or_of_mem hsorted (hsame.mem_iff.mp hfirst) hsecond with heq | hahead | hahead
    · exact heq
    · exact absurd (byRank_eq_gt hahead) hge
    · exact absurd (byRank_eq_gt hahead) hle
  · intro first second hahead
    rw [byRank_eq_lt hahead]
    exact Ordering.noConfusion

theorem mergeSort_byRank (hperm : sorted.Perm items)
    (hsorted : sorted.Pairwise (IsAhead rank span)) :
    (items.mergeSort fun first second => (byRank rank span payload first second).isLE) =
      sorted := by
  apply eq_of_pairwise_ne_gt hperm hsorted (List.mergeSort_perm items _)
  refine (List.pairwise_mergeSort ?_ ?_ items).imp ?_
  · exact fun _ _ _ => Std.TransCmp.isLE_trans
  · intro first second
    have hswap : byRank rank span payload first second =
      (byRank rank span payload second first).swap := Std.OrientedCmp.eq_swap
    rw [hswap]
    cases byRank rank span payload second first <;> rfl
  · intro first second hle
    exact Ordering.isLE_iff_ne_gt.mp hle

/-- Entries are sorted to any arrangement of them in which each is ahead of those behind it. -/
theorem sortsTo_of_eq_byRank {order : α → α → Ordering} (horder : order = byRank rank span payload)
    (hperm : sorted.Perm items) (hsorted : sorted.Pairwise (IsAhead rank span)) :
    SortsTo (fun items => items.mergeSort fun first second => (order first second).isLE) order rank
      span items sorted := by
  subst horder
  refine ⟨mergeSort_byRank hperm hsorted, fun _ => eq_of_pairwise_ne_gt hperm hsorted, ?_, ?_, ?_⟩
  · have hsymm {first second : α} (hne : byRank rank span payload first second ≠ .eq) :
        byRank rank span payload second first ≠ .eq := mt Std.OrientedCmp.eq_symm hne
    refine (hperm.pairwise_iff hsymm).mp (hsorted.imp ?_)
    intro first second hahead
    rw [byRank_eq_lt hahead]
    exact Ordering.noConfusion
  · intro first hfirst second hsecond
    rcases isAhead_or_of_mem hsorted (hperm.mem_iff.mpr hfirst) (hperm.mem_iff.mpr hsecond) with
      rfl | hahead | hahead
    · simp [byRank]
    · rw [byRank_eq_lt hahead, byPlace_eq_lt hahead]
    · rw [byRank_eq_gt hahead, byPlace_eq_gt hahead]
  · intro change hchange
    apply mergeSort_byRank (hperm.map change)
    rw [List.pairwise_map]
    refine hsorted.imp_of_mem ?_
    intro first second hfirst hsecond hahead
    obtain ⟨hrank, hspan⟩ := hchange first (hperm.mem_iff.mp hfirst)
    obtain ⟨hsecondRank, hsecondSpan⟩ := hchange second (hperm.mem_iff.mp hsecond)
    rwa [IsAhead, hrank, hspan, hsecondRank, hsecondSpan]

end Sorted

end Ranks

/-! ### Buckets -/

section Buckets

variable {α κ : Type} [DecidableEq κ] {key : α → κ} {keys : List κ} {items : List α}

/-- The entries with each of the keys, as they stand among the others. -/
def buckets (key : α → κ) (keys : List κ) (items : List α) : List α :=
  keys.flatMap fun bucket => items.filter fun x => key x = bucket

/-- What has one of the keys is in one of the buckets. -/
theorem perm_buckets (hnodup : keys.Nodup) :
    (buckets key keys items).Perm (items.filter fun x => key x ∈ keys) := by
  induction keys with
  | nil => simp [buckets]
  | cons first keys ih =>
    obtain ⟨hfirst, hkeys⟩ := List.nodup_cons.mp hnodup
    have hbucket : (items.filter fun x => key x ∈ first :: keys).filter (key · = first) =
        items.filter (key · = first) := by
      rw [List.filter_filter]
      exact List.filter_congr fun x _ => by simp +contextual
    have hothers : ((items.filter fun x => key x ∈ first :: keys).filter fun x =>
        !decide (key x = first)) = items.filter fun x => key x ∈ keys := by
      rw [List.filter_filter]
      refine List.filter_congr fun x _ => ?_
      by_cases hx : key x = first <;> simp [hx, hfirst]
    have hsplit := List.filter_append_perm (fun x => decide (key x = first))
      (items.filter fun x => key x ∈ first :: keys)
    rw [hbucket, hothers] at hsplit
    exact ((ih hkeys).append_left _).trans hsplit

/-- With the keys in order, each entry is ahead of those behind it. -/
theorem pairwise_buckets {position : κ → Nat} {span : α → Span}
    (hkeys : keys.Pairwise fun first second => position first < position second)
    (hitems : items.Pairwise fun first second => (span first).start < (span second).start) :
    (buckets key keys items).Pairwise (IsAhead (fun x => position (key x)) span) := by
  refine List.pairwise_flatMap.mpr ⟨?_, hkeys.imp ?_⟩
  · intro bucket _
    refine (hitems.filter _).imp_of_mem ?_
    intro first second hfirst hsecond hstart
    have hfirstKey := of_decide_eq_true (List.mem_filter.mp hfirst).2
    have hsecondKey := of_decide_eq_true (List.mem_filter.mp hsecond).2
    exact .inr ⟨congrArg position (hfirstKey.trans hsecondKey.symm), hstart⟩
  · intro before behind hposition first hfirst second hsecond
    have hfirstKey := of_decide_eq_true (List.mem_filter.mp hfirst).2
    have hsecondKey := of_decide_eq_true (List.mem_filter.mp hsecond).2
    rw [← hfirstKey, ← hsecondKey] at hposition
    exact .inl hposition

end Buckets

/-! ### Tokens and diagnostics -/

def Lexeme.payload : Lexeme → Nat
  | .number amount => amount
  | .keyword word => word.position
  | .operator c | .symbol c => c.toNat
  | .string _ | .identifier _ => 0

def Problem.payload : Problem → Nat
  | .unexpectedCharacter c => c.toNat
  | .unterminatedString | .unterminatedBlockComment | .numericOverflow => 0

theorem Kind.eq_of_position_eq {first second : Kind} (h : first.position = second.position) :
    first = second := by
  cases first <;> cases second <;> first | rfl | cases h

theorem Lexeme.payloadOrder_eq {first second : Lexeme}
    (h : first.kind.position = second.kind.position) :
    first.payloadOrder second = compare first.payload second.payload := by
  have hkind := Kind.eq_of_position_eq h
  cases first <;> cases second <;> first | rfl | cases hkind

theorem Problem.payloadOrder_eq {first second : Problem} (h : first.position = second.position) :
    first.payloadOrder second = compare first.payload second.payload := by
  cases first <;> cases second <;> first | rfl | cases h

theorem Token.order_eq_byRank :
    Token.order = byRank (fun token => token.kind.position) Token.span
      (fun token => token.lexeme.payload) := by
  funext first second
  exact eq_byRank (fun _ _ => Lexeme.payloadOrder_eq) first second

theorem Diagnostic.order_eq_byRank :
    Diagnostic.order = byRank (fun diagnostic => diagnostic.problem.position) Diagnostic.span
      (fun diagnostic => diagnostic.problem.payload) := by
  funext first second
  exact eq_byRank (fun _ _ => Problem.payloadOrder_eq) first second

namespace Source

variable {configuration : Configuration} {source : Source} {tokens : List Token}
  {diagnostics : List Diagnostic}

/-- One bucket of tokens for each kind. -/
theorem sortsTo_tokens (h : source.scan configuration = (.ok tokens, diagnostics)) :
    SortsTo Token.sorted Token.order (fun token => token.kind.position) Token.span tokens
      (buckets Token.kind Kind.all tokens) := by
  obtain ⟨run, hcut, -, rfl, -⟩ := scan_eq_ok_iff.mp h
  refine sortsTo_of_eq_byRank Token.order_eq_byRank ?_ ?_
  · have hall : ∀ kind : Kind, kind ∈ Kind.all := by
      intro kind
      cases kind <;> decide
    have hperm := @perm_buckets _ _ _ Token.kind Kind.all (Piece.tokens 0 run) (by decide)
    rwa [List.filter_eq_self.mpr fun token _ => decide_eq_true (hall token.kind)] at hperm
  · exact pairwise_buckets (by decide) (pairwise_start_tokens 0 hcut.text_ne_nil)

/-- The warning of an opener, if there is one, and then those of numbers. -/
theorem sortsTo_diagnostics {overflows : List Diagnostic} {unclosed : Option Diagnostic}
    (hnumbers : ∀ diagnostic ∈ overflows, diagnostic.problem = .numericOverflow)
    (hunclosed : ∀ diagnostic, unclosed = some diagnostic →
      diagnostic.problem = .unterminatedString ∨ diagnostic.problem = .unterminatedBlockComment)
    (hstarts : (overflows ++ unclosed.toList).Pairwise fun first second =>
      first.span.start < second.span.start) :
    SortsTo Diagnostic.sorted Diagnostic.order (fun diagnostic => diagnostic.problem.position)
      Diagnostic.span (overflows ++ unclosed.toList) (unclosed.toList ++ overflows) := by
  refine sortsTo_of_eq_byRank Diagnostic.order_eq_byRank List.perm_append_comm ?_
  refine List.pairwise_append.mpr ⟨?_, ?_, ?_⟩
  · cases unclosed with
    | none => exact List.Pairwise.nil
    | some diagnostic => exact List.pairwise_singleton _ _
  · refine (List.pairwise_append.mp hstarts).1.imp_of_mem ?_
    intro first second hfirst hsecond hstart
    exact .inr ⟨by simp only [hnumbers first hfirst, hnumbers second hsecond], hstart⟩
  · intro opener hopener number hnumber
    left
    simp only [hnumbers number hnumber]
    rcases hunclosed opener (Option.mem_toList.mp hopener) with hproblem | hproblem <;>
      rw [hproblem] <;> decide

/-- Sorting the tokens of a scan puts those of each kind together, the kinds in their order and the
tokens of one kind in the order of the source. Sorting its diagnostics puts the warning of an
opener in front of those of numbers, and changes nothing else. -/
theorem sorted_of_scan (h : source.scan configuration = (.ok tokens, diagnostics)) :
    SortsTo Token.sorted Token.order (fun token => token.kind.position) Token.span tokens
      ([.number, .string, .keyword, .operator, .identifier, .symbol].flatMap fun kind =>
        tokens.filter fun token => token.kind = kind) ∧
    ∃ unclosed : Option Diagnostic,
      diagnostics.filter (fun diagnostic => diagnostic.problem ≠ .numericOverflow) =
        unclosed.toList ∧
      (∀ diagnostic, unclosed = some diagnostic → diagnostic.problem = .unterminatedString ∨
        diagnostic.problem = .unterminatedBlockComment) ∧
      SortsTo Diagnostic.sorted Diagnostic.order (fun diagnostic => diagnostic.problem.position)
        Diagnostic.span diagnostics (unclosed.toList ++
          diagnostics.filter fun diagnostic => diagnostic.problem = .numericOverflow) := by
  refine ⟨sortsTo_tokens h, ?_⟩
  obtain ⟨run, hcut, -, -, rfl⟩ := scan_eq_ok_iff.mp h
  obtain ⟨overflows, unclosed, hall, hnumbers, hunclosed⟩ := hcut.exists_warnings
  have hstarts := pairwise_start_diagnostics 0 hcut.text_ne_nil
  rw [hall] at hstarts ⊢
  have hopener : ∀ diagnostic ∈ unclosed.toList, diagnostic.problem ≠ .numericOverflow := by
    intro diagnostic hdiagnostic
    rcases hunclosed diagnostic (Option.mem_toList.mp hdiagnostic) with hproblem | hproblem <;>
      rw [hproblem] <;> nofun
  have hother : (overflows ++ unclosed.toList).filter
      (fun diagnostic => diagnostic.problem ≠ .numericOverflow) = unclosed.toList := by
    rw [← List.append_nil (overflows ++ unclosed.toList)]
    exact filter_between (by simpa using hnumbers) (by simpa using hopener) nofun
  have hsame : (overflows ++ unclosed.toList).filter
      (fun diagnostic => diagnostic.problem = .numericOverflow) = overflows := by
    rw [← List.nil_append overflows]
    exact filter_between nofun (by simpa using hnumbers) (by simpa using hopener)
  rw [hsame]
  exact ⟨unclosed, hother, hunclosed, sortsTo_diagnostics hnumbers hunclosed hstarts⟩

theorem sorted_of_scan_mixed :
    (ofText "a.lex" "b+18446744073709551616 if \"").scan
        { grammar := .full, keywords := .wholeWord } =
      (.ok [⟨⟨0, 1⟩, .identifier ['b']⟩, ⟨⟨1, 2⟩, .operator '+'⟩,
        ⟨⟨2, 22⟩, .number 18446744073709551615⟩, ⟨⟨23, 25⟩, .keyword .ifWord⟩],
        [⟨⟨2, 22⟩, .numericOverflow⟩, ⟨⟨26, 27⟩, .unterminatedString⟩]) ∧
    Token.sorted [⟨⟨0, 1⟩, .identifier ['b']⟩, ⟨⟨1, 2⟩, .operator '+'⟩,
        ⟨⟨2, 22⟩, .number 18446744073709551615⟩, ⟨⟨23, 25⟩, .keyword .ifWord⟩] =
      [⟨⟨2, 22⟩, .number 18446744073709551615⟩, ⟨⟨23, 25⟩, .keyword .ifWord⟩,
        ⟨⟨1, 2⟩, .operator '+'⟩, ⟨⟨0, 1⟩, .identifier ['b']⟩] ∧
    Diagnostic.sorted [⟨⟨2, 22⟩, .numericOverflow⟩, ⟨⟨26, 27⟩, .unterminatedString⟩] =
      [⟨⟨26, 27⟩, .unterminatedString⟩, ⟨⟨2, 22⟩, .numericOverflow⟩] := by
  have hscan : (ofText "a.lex" "b+18446744073709551616 if \"").scan
        { grammar := .full, keywords := .wholeWord } =
      (.ok [⟨⟨0, 1⟩, .identifier ['b']⟩, ⟨⟨1, 2⟩, .operator '+'⟩,
        ⟨⟨2, 22⟩, .number 18446744073709551615⟩, ⟨⟨23, 25⟩, .keyword .ifWord⟩],
        [⟨⟨2, 22⟩, .numericOverflow⟩, ⟨⟨26, 27⟩, .unterminatedString⟩]) :=
    scan_eq_ok_iff.mpr ⟨[.identifier ['b'], .operator '+', .number "18446744073709551616".toList,
      .blank ' ', .keyword .ifWord, .blank ' ', .string [] false], by decide, by decide, by decide,
      by decide⟩
  obtain ⟨htokens, unclosed, hunclosed, -, hdiagnostics⟩ := sorted_of_scan hscan
  rw [← hunclosed] at hdiagnostics
  exact ⟨hscan, htokens.sort_eq.trans (by decide), hdiagnostics.sort_eq.trans (by decide)⟩

end Source

end TokenScan
