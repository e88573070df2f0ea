import Mathlib.Data.List.Forall2
import TokenScan.Proofs.Scan.Steps
import TokenScan.Proofs.Source.Locations
import TokenScan.Proofs.Source.Returns

/-!
Scans without carriage returns. If a line feed follows each carriage return of a text, the carriage
returns can be left out: no rule looks past a blank, and a comment and a string keep their ends.
The scan finds the same tokens at the same locations, a string apart, which loses its own carriage
returns, and complains of the same at the same locations.
-/

namespace TokenScan

open Text

/-! ### Pieces -/

def Lexeme.withoutReturns : Lexeme → Lexeme
  | string content => string (Text.withoutReturns content)
  | lexeme => lexeme

namespace Piece

def withoutReturns? : Piece → Option Piece
  | blank c => if c = '\r' then none else some (blank c)
  | lineComment body ended => some (lineComment (Text.withoutReturns body) ended)
  | blockComment body closed => some (blockComment (Text.withoutReturns body) closed)
  | string content closed => some (string (Text.withoutReturns content) closed)
  | piece => some piece

theorem withoutReturns?_eq_none_iff {piece : Piece} :
    piece.withoutReturns? = none ↔ piece = blank '\r' := by
  cases piece <;> simp [withoutReturns?]

variable {configuration : Configuration} {piece other : Piece}

theorem withoutReturns?_blank_eq_some {c : Char} (h : (blank c).withoutReturns? = some other) :
    c ≠ '\r' ∧ other = blank c := by
  simp only [withoutReturns?] at h
  split at h
  · cases h
  · next hreturn => exact ⟨hreturn, (Option.some.inj h).symm⟩

theorem isFatal_of_withoutReturns?_eq_some (h : piece.withoutReturns? = some other) :
    other.isFatal = piece.isFatal := by
  cases piece with
  | blank c =>
    obtain ⟨-, rfl⟩ := withoutReturns?_blank_eq_some h
    rfl
  | _ =>
    cases h
    rfl

/-- What is left of a piece has the text that is left of its text. -/
theorem text_of_withoutReturns?_eq_some (hfits : piece.Fits configuration)
    (h : piece.withoutReturns? = some other) :
    other.text = Text.withoutReturns piece.text := by
  have hsame (hsolid : piece.isSolid = true) (hpiece : some piece = some other) :
      other.text = Text.withoutReturns piece.text := by
    rw [← Option.some.inj hpiece,
      withoutReturns_eq_self (not_mem_text_of_isSolid hfits hsolid (by decide))]
  cases piece with
  | blank c =>
    obtain ⟨hreturn, rfl⟩ := withoutReturns?_blank_eq_some h
    rw [text, withoutReturns_cons hreturn, withoutReturns_nil]
  | lineComment body ended => cases h; cases ended <;> simp [text, withoutReturns_cons]
  | blockComment body closed => cases h; cases closed <;> simp [text, withoutReturns_cons]
  | string content closed => cases h; cases closed <;> simp [text, withoutReturns_cons]
  | keyword word => exact hsame rfl h
  | operator c => exact hsame rfl h
  | identifier name => exact hsame rfl h
  | number digits => exact hsame rfl h
  | symbol c => exact hsame rfl h
  | unexpected c => exact hsame rfl h

/-- What is left of a piece is one that the same grammar has a rule for. -/
theorem Fits.withoutReturns? {after : List Char} (hfits : piece.Fits configuration)
    (hpaired : PairedReturns (piece.text ++ after)) (h : piece.withoutReturns? = some other) :
    other.Fits configuration := by
  obtain ⟨grammar, matching⟩ := configuration
  cases piece with
  | blank c =>
    obtain ⟨-, rfl⟩ := withoutReturns?_blank_eq_some h
    exact hfits
  | lineComment body ended =>
    cases h
    cases grammar with
    | full => exact fun hmem => hfits (mem_of_mem_withoutReturns hmem)
    | arithmetic => exact hfits
  | blockComment body closed =>
    cases h
    cases grammar with
    | full =>
      have hbody : PairedReturns (body ++ ((if closed then ['*', '/'] else []) ++ after)) :=
        @PairedReturns.of_append ['/', '*'] _ (by simpa [text] using hpaired)
      exact fun hinfix => hfits (infix_of_infix_withoutReturns (by decide) hbody hinfix)
    | arithmetic => exact hfits
  | string content closed =>
    cases h
    cases grammar with
    | full => exact fun hmem => hfits (mem_of_mem_withoutReturns hmem)
    | arithmetic => exact hfits
  | _ =>
    cases h
    exact hfits

/-- What is left of a piece ends before what is left of the rest. The rest may begin with a line
feed where it began with a carriage return, but a piece that ends before the one ends before the
other. -/
theorem EndsBefore.withoutReturns? {grammar : Grammar} {rest : List Char}
    (hends : piece.EndsBefore grammar rest) (hpaired : PairedReturns rest)
    (h : piece.withoutReturns? = some other) :
    other.EndsBefore grammar (Text.withoutReturns rest) := by
  have hhead {c : Char} (hc : (Text.withoutReturns rest).head? = some c) :
      c = '\n' ∨ rest.head? = some c := by
    by_cases hfeed : c = '\n'
    · exact Or.inl hfeed
    · exact Or.inr (head?_of_head?_withoutReturns (by rwa [List.append_nil]) hc hfeed)
  have hrun {condition : Char → Bool} (hfeed : condition '\n' = false)
      (hrest : ∀ c, rest.head? = some c → condition c = false) :
      ∀ c, (Text.withoutReturns rest).head? = some c → condition c = false := by
    intro c hc
    obtain rfl | hsame := hhead hc
    · exact hfeed
    · exact hrest c hsame
  have hempty (hrest : rest = []) : Text.withoutReturns rest = [] := by
    rw [hrest, withoutReturns_nil]
  cases piece with
  | blank c =>
    obtain ⟨-, rfl⟩ := withoutReturns?_blank_eq_some h
    trivial
  | lineComment body ended =>
    cases h
    cases ended with
    | true => trivial
    | false => exact hempty hends
  | blockComment body closed =>
    cases h
    cases closed with
    | true => trivial
    | false => exact hempty hends
  | string content closed =>
    cases h
    cases closed with
    | true => trivial
    | false => exact hempty hends
  | keyword word =>
    cases h
    exact hrun (by decide) hends
  | identifier name =>
    cases h
    exact hrun (by decide) hends
  | number digits =>
    cases h
    exact hrun (by decide) hends
  | operator c =>
    cases h
    intro hfull hslash d hd
    obtain rfl | hsame := hhead hd
    · decide
    · exact hends hfull hslash d hsame
  | symbol c => cases h; trivial
  | unexpected c => cases h; trivial

/-- Without its carriage returns a text begins with what is left of its first piece. -/
theorem next?_withoutReturns {text rest : List Char} (hpaired : PairedReturns text)
    (hnext : next? configuration text = some (piece, rest))
    (h : piece.withoutReturns? = some other) :
    next? configuration (Text.withoutReturns text) = some (other, Text.withoutReturns rest) := by
  obtain ⟨rfl, hfits, hends⟩ := next?_eq_some_iff.mp hnext
  rw [next?_eq_some_iff, withoutReturns_append, text_of_withoutReturns?_eq_some hfits h]
  exact ⟨rfl, hfits.withoutReturns? hpaired h, hends.withoutReturns? hpaired.of_append h⟩

end Piece

open Piece

/-- Without its carriage returns a text is cut into what is left of its pieces. -/
theorem pieces_withoutReturns (configuration : Configuration) {text : List Char}
    (hpaired : PairedReturns text) :
    pieces configuration (Text.withoutReturns text) =
      (pieces configuration text).filterMap withoutReturns? := by
  cases hnext : next? configuration text with
  | none =>
    cases text with
    | nil => rw [withoutReturns_nil, pieces_nil, List.filterMap_nil]
    | cons c tail =>
      rw [next?_cons] at hnext
      split at hnext <;> cases hnext
  | some cut =>
    obtain ⟨piece, rest⟩ := cut
    have hshorter := length_lt_of_next? hnext
    have htext := text_append_of_next? hnext
    have hrest : PairedReturns rest := by
      rw [← htext] at hpaired
      exact hpaired.of_append
    have ih := pieces_withoutReturns configuration hrest
    rw [pieces_of_next?_eq_some hnext]
    cases hleft : piece.withoutReturns? with
    | none =>
      -- Nothing is left of the piece, and the text that is left is that of the rest.
      obtain rfl := withoutReturns?_eq_none_iff.mp hleft
      have hsame : Text.withoutReturns text = Text.withoutReturns rest := by
        rw [← htext]
        rfl
      rw [hsame, ih, List.filterMap_cons_none hleft]
      rfl
    | some other =>
      rw [pieces_of_next?_eq_some (next?_withoutReturns hpaired hnext hleft),
        List.filterMap_cons_some hleft, isFatal_of_withoutReturns?_eq_some hleft, ih]
      split
      · rw [List.filterMap_nil]
      · rfl
termination_by text.length

/-! ### Tokens and diagnostics -/

namespace Piece

variable {configuration : Configuration} {piece other : Piece}

theorem lexeme?_of_withoutReturns?_eq_some (h : piece.withoutReturns? = some other) :
    other.lexeme? = piece.lexeme?.map Lexeme.withoutReturns := by
  cases piece with
  | blank c =>
    obtain ⟨-, rfl⟩ := withoutReturns?_blank_eq_some h
    rfl
  | string content closed =>
    cases h
    cases closed <;> rfl
  | _ =>
    cases h
    rfl

theorem problem?_of_withoutReturns?_eq_some (h : piece.withoutReturns? = some other) :
    other.problem? = piece.problem? := by
  cases piece with
  | blank c =>
    obtain ⟨-, rfl⟩ := withoutReturns?_blank_eq_some h
    rfl
  | blockComment body closed =>
    cases h
    cases closed <;> rfl
  | string content closed =>
    cases h
    cases closed <;> rfl
  | _ =>
    cases h
    rfl

theorem anyFatal_filterMap_withoutReturns? (run : List Piece) :
    anyFatal (run.filterMap withoutReturns?) = anyFatal run := by
  induction run with
  | nil => rfl
  | cons piece run ih =>
    cases hleft : piece.withoutReturns? with
    | none =>
      obtain rfl := withoutReturns?_eq_none_iff.mp hleft
      rw [List.filterMap_cons_none hleft, ih]
      rfl
    | some other =>
      rw [List.filterMap_cons_some hleft, anyFatal, List.any_cons, ← anyFatal, ih,
        isFatal_of_withoutReturns?_eq_some hleft]
      rfl

/-- A line feed begins no piece but a blank. -/
theorem head?_text_append_ne (hfits : piece.Fits configuration) (hblank : ∀ c, piece ≠ blank c)
    (after : List Char) : (piece.text ++ after).head? ≠ some '\n' := by
  have hsolid (h : piece.isSolid = true) : (piece.text ++ after).head? ≠ some '\n' := by
    obtain ⟨c, rest, htext⟩ := List.exists_cons_of_ne_nil hfits.text_ne_nil
    have hnot : '\n' ∉ piece.text := not_mem_text_of_isSolid hfits h (by decide)
    rw [htext] at hnot ⊢
    intro hhead
    obtain rfl : c = '\n' := Option.some.inj hhead
    exact hnot List.mem_cons_self
  cases piece with
  | blank c => exact absurd rfl (hblank c)
  | lineComment body ended => simp [text]
  | blockComment body closed => simp [text]
  | string content closed => simp [text]
  | _ => exact hsolid rfl

/-- A carriage return ends no piece that contributes a token. -/
theorem getLast?_append_text_ne (hfits : piece.Fits configuration) {lexeme : Lexeme}
    (h : piece.lexeme? = some lexeme) (before : List Char) :
    (before ++ piece.text).getLast? ≠ some '\r' := by
  have hsolid (h : piece.isSolid = true) : piece.text.getLast? ≠ some '\r' :=
    fun hlast => not_mem_text_of_isSolid hfits h (by decide) (List.mem_of_getLast? hlast)
  rw [List.getLast?_append_of_ne_nil before hfits.text_ne_nil]
  cases piece with
  | blank c => cases h
  | lineComment body ended => cases h
  | blockComment body closed => cases h
  | string content closed =>
    cases closed with
    | true =>
      rw [text, if_pos rfl, List.getLast?_concat]
      decide
    | false => cases h
  | _ => exact hsolid rfl

end Piece

namespace Source

def SameLocation (first second : Source) (offset otherOffset : Nat) : Prop :=
  ∃ location, first.location? offset = some location ∧
    second.location? otherOffset = some location

end Source

/-- A token of one source and a token of another are the same at the same location, but for the
carriage returns in a string. -/
structure Token.IsSameWithoutReturns (source stripped : Source) (token other : Token) : Prop where
  kind : other.kind = token.kind
  lexeme : other.lexeme = token.lexeme.withoutReturns
  start : source.SameLocation stripped token.span.start other.span.start
  stop : source.SameLocation stripped token.span.stop other.span.stop

structure Diagnostic.IsSame (source stripped : Source) (diagnostic other : Diagnostic) :
    Prop where
  problem : other.problem = diagnostic.problem
  start : source.SameLocation stripped diagnostic.span.start other.span.start

namespace Source

variable {configuration : Configuration} {source stripped : Source}

/-- The end of a part of the source that does not end between a carriage return and its line feed
keeps its location. -/
theorem sameLocation_withoutReturns (hpaired : PairedReturns source.chars)
    (hstripped : stripped.chars = withoutReturns source.chars) {before after : List Char}
    (hchars : source.chars = before ++ after) (hlast : before.getLast? ≠ some '\r') :
    source.SameLocation stripped (byteLength before) (byteLength (withoutReturns before)) := by
  have hother : stripped.chars = withoutReturns before ++ withoutReturns after := by
    rw [hstripped, hchars, withoutReturns_append]
  rw [hchars] at hpaired
  refine ⟨_, location?_of_append hchars, ?_⟩
  rw [location?_of_append hother, Location.across_withoutReturns hpaired hlast]

section Pieces

variable (hpaired : PairedReturns source.chars)
  (hstripped : stripped.chars = withoutReturns source.chars)
include hpaired hstripped

/-- The beginning of a piece that is no blank keeps its location. -/
theorem sameLocation_start {before after : List Char} {piece : Piece}
    (hchars : source.chars = before ++ (piece.text ++ after))
    (hfits : piece.Fits configuration) (hblank : ∀ c, piece ≠ .blank c) :
    source.SameLocation stripped (byteLength before) (byteLength (withoutReturns before)) := by
  apply sameLocation_withoutReturns hpaired hstripped hchars
  intro hlast
  -- A carriage return in front of the piece would make it begin with a line feed.
  obtain ⟨front, rfl⟩ := List.getLast?_eq_some_iff.mp hlast
  have hnext := hpaired front (piece.text ++ after)
    (by rw [hchars, List.append_assoc, List.singleton_append])
  exact Piece.head?_text_append_ne hfits hblank after hnext

theorem forall₂_token? {before after : List Char} {piece other : Piece}
    (hchars : source.chars = before ++ (piece.text ++ after)) (hfits : piece.Fits configuration)
    (hleft : piece.withoutReturns? = some other) :
    List.Forall₂ (Token.IsSameWithoutReturns source stripped)
      (piece.token? (byteLength before)).toList
      (other.token? (byteLength (withoutReturns before))).toList := by
  have hlexeme := Piece.lexeme?_of_withoutReturns?_eq_some hleft
  rw [Piece.token?, Piece.token?, hlexeme]
  cases hfound : piece.lexeme? with
  | none => exact .nil
  | some lexeme =>
    have hblank (c : Char) : piece ≠ .blank c := by
      rintro rfl
      cases hfound
    have hstart := sameLocation_start hpaired hstripped hchars hfits hblank
    have hstop := sameLocation_withoutReturns hpaired hstripped
      (by rw [hchars, List.append_assoc]) (Piece.getLast?_append_text_ne hfits hfound before)
    rw [byteLength_append, withoutReturns_append, byteLength_append,
      ← Piece.text_of_withoutReturns?_eq_some hfits hleft] at hstop
    refine .cons ⟨?_, rfl, hstart, hstop⟩ .nil
    cases lexeme <;> rfl

theorem forall₂_diagnostic? {before after : List Char} {piece other : Piece}
    (hchars : source.chars = before ++ (piece.text ++ after)) (hfits : piece.Fits configuration)
    (hleft : piece.withoutReturns? = some other) :
    List.Forall₂ (Diagnostic.IsSame source stripped)
      (piece.diagnostic? (byteLength before)).toList
      (other.diagnostic? (byteLength (withoutReturns before))).toList := by
  have hproblem := Piece.problem?_of_withoutReturns?_eq_some hleft
  rw [Piece.diagnostic?, Piece.diagnostic?, hproblem]
  cases hfound : piece.problem? with
  | none => exact .nil
  | some found =>
    have hblank (c : Char) : piece ≠ .blank c := by
      rintro rfl
      cases hfound
    exact .cons ⟨rfl, sameLocation_start hpaired hstripped hchars hfits hblank⟩ .nil

end Pieces

/-- What is read off the pieces of a source one by one is related to what is read off what is left
of them. -/
theorem forall₂_collect {α : Type} {related : α → α → Prop} {read : Nat → Piece → List α}
    (hreturn : ∀ start, read start (.blank '\r') = [])
    (hread : ∀ (before after : List Char) (piece other : Piece),
      source.chars = before ++ (piece.text ++ after) → piece.Fits configuration →
      piece.withoutReturns? = some other →
      List.Forall₂ related (read (byteLength before) piece)
        (read (byteLength (withoutReturns before)) other))
    {run : List Piece} (hfits : ∀ piece ∈ run, piece.Fits configuration)
    {before after : List Char} (hchars : source.chars = before ++ (Piece.textOf run ++ after)) :
    List.Forall₂ related (Piece.collect read (byteLength before) run)
      (Piece.collect read (byteLength (withoutReturns before))
        (run.filterMap Piece.withoutReturns?)) := by
  induction run generalizing before with
  | nil => exact .nil
  | cons piece run ih =>
    obtain ⟨hpiece, hrun⟩ := List.forall_mem_cons.mp hfits
    rw [Piece.textOf_cons, List.append_assoc] at hchars
    have hlater := @ih hrun (before ++ piece.text) (by rw [hchars, List.append_assoc])
    rw [byteLength_append, withoutReturns_append, byteLength_append] at hlater
    cases hleft : piece.withoutReturns? with
    | none =>
      obtain rfl := Piece.withoutReturns?_eq_none_iff.mp hleft
      rw [List.filterMap_cons_none hleft, Piece.collect, hreturn, List.nil_append]
      exact hlater
    | some other =>
      rw [List.filterMap_cons_some hleft, Piece.collect, Piece.collect,
        Piece.text_of_withoutReturns?_eq_some hpiece hleft]
      exact List.rel_append (hread before _ piece other hchars hpiece hleft) hlater

theorem lineCount_withoutReturns (hpaired : PairedReturns source.chars)
    (hstripped : stripped.chars = withoutReturns source.chars) :
    stripped.lineCount = source.lineCount := by
  rw [lineCount, lineCount, stripped.lines_eq, source.lines_eq, hstripped]
  exact length_linesFrom_withoutReturns hpaired 0 0

/-- If a line feed follows each carriage return, leaving out the carriage returns changes neither
whether the scan is stopped, nor what the tokens are and where they begin and end by line and
column, nor what is complained of and where that begins, nor the number of lines. Only strings
lose the carriage returns that they held. -/
theorem scan_withoutReturns (configuration : Configuration)
    (hpaired : PairedReturns source.chars)
    (hstripped : stripped.chars = withoutReturns source.chars) :
    ((∃ tokens, (source.scan configuration).1 = .ok tokens) ↔
      ∃ others, (stripped.scan configuration).1 = .ok others) ∧
    (∀ tokens others, (source.scan configuration).1 = .ok tokens →
      (stripped.scan configuration).1 = .ok others →
      List.Forall₂ (Token.IsSameWithoutReturns source stripped) tokens others) ∧
    List.Forall₂ (Diagnostic.IsSame source stripped) (source.scan configuration).2
      (stripped.scan configuration).2 ∧
    stripped.lineCount = source.lineCount := by
  obtain ⟨after, hafter⟩ := textOf_pieces_isPrefix configuration source.chars
  have hchars : source.chars = [] ++ (Piece.textOf (pieces configuration source.chars) ++ after) :=
    hafter.symm
  have hfits : ∀ piece ∈ pieces configuration source.chars, piece.Fits configuration :=
    fun piece hpiece => fits_of_mem_pieces hpiece
  have htokens : List.Forall₂ (Token.IsSameWithoutReturns source stripped)
      (Piece.tokens 0 (pieces configuration source.chars))
      (Piece.tokens 0 ((pieces configuration source.chars).filterMap Piece.withoutReturns?)) := by
    rw [Piece.tokens_eq_collect, Piece.tokens_eq_collect]
    refine forall₂_collect (fun _ => rfl) ?_ hfits hchars
    intro before after piece other
    exact forall₂_token? hpaired hstripped
  have hdiagnostics : List.Forall₂ (Diagnostic.IsSame source stripped)
      (Piece.diagnostics 0 (pieces configuration source.chars))
      (Piece.diagnostics 0
        ((pieces configuration source.chars).filterMap Piece.withoutReturns?)) := by
    rw [Piece.diagnostics_eq_collect, Piece.diagnostics_eq_collect]
    refine forall₂_collect (fun _ => rfl) ?_ hfits hchars
    intro before after piece other
    exact forall₂_diagnostic? hpaired hstripped
  rw [scan_eq, scan_eq, hstripped, pieces_withoutReturns configuration hpaired, resultOf, resultOf,
    Piece.anyFatal_filterMap_withoutReturns?]
  refine ⟨?_, ?_, hdiagnostics, lineCount_withoutReturns hpaired hstripped⟩
  · split <;> simp
  · intro tokens others hsource hother
    split at hsource
    · cases hsource
    · next hfatal =>
      rw [if_neg hfatal] at hother
      cases hsource
      cases hother
      exact htokens

theorem scan_withoutReturns_string :
    ∃ others, ((ofText "feeds.lex" "a\n\"x\ny\"\"").scan {}).1 = .ok others ∧
      List.Forall₂ (Token.IsSameWithoutReturns (ofText "returns.lex" "a\r\n\"x\r\ny\"\"")
        (ofText "feeds.lex" "a\n\"x\ny\"\""))
        [⟨⟨0, 1⟩, .identifier ['a']⟩, ⟨⟨3, 9⟩, .string ['x', '\r', '\n', 'y']⟩] others := by
  have hscan : (ofText "returns.lex" "a\r\n\"x\r\ny\"\"").scan {} =
      (.ok [⟨⟨0, 1⟩, .identifier ['a']⟩, ⟨⟨3, 9⟩, .string ['x', '\r', '\n', 'y']⟩],
        [⟨⟨9, 10⟩, .unterminatedString⟩]) :=
    scan_eq_ok_iff.mpr ⟨[.identifier ['a'], .blank '\r', .blank '\n',
      .string ['x', '\r', '\n', 'y'] true, .string [] false], by decide, by decide, rfl, rfl⟩
  have hchars : (ofText "returns.lex" "a\r\n\"x\r\ny\"\"").chars =
      ['a', '\r', '\n', '"', 'x', '\r', '\n', 'y', '"', '"'] := by decide
  have hpaired : PairedReturns (ofText "returns.lex" "a\r\n\"x\r\ny\"\"").chars := by
    rw [hchars]
    simp [pairedReturns_cons_iff, pairedReturns_nil]
  obtain ⟨hiff, htokens, -, -⟩ := @scan_withoutReturns _
    (ofText "feeds.lex" "a\n\"x\ny\"\"") {} hpaired (by decide)
  obtain ⟨others, hothers⟩ := hiff.mp ⟨_, congrArg Prod.fst hscan⟩
  exact ⟨others, hothers, htokens _ others (congrArg Prod.fst hscan) hothers⟩

end Source

end TokenScan
