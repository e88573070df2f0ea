import Mathlib.Data.List.Forall2
import TokenScan.Proofs.Scan.Steps

/-!
What the keyword policy changes. No keyword is a single character, so the policy that asks for one
never finds any, and both policies cut a text of the full grammar at the same places and complain of
the same. The policy that looks at whole words takes those that spell a keyword for that keyword,
and changes nothing else. Since keywords come before words in the order of tokens, the list with
more keywords is the smaller one.
-/

namespace TokenScan

open Text Piece

namespace Token

def SpellsKeyword (token : Token) : Prop :=
  ∃ word : Keyword, token.lexeme = .identifier word.letters

/-- How a token of the policy that looks at single characters is related to the token that the other
policy makes in its place. -/
inductive Reclassifies : Token → Token → Prop where
  | keep {token : Token} : ¬ token.SpellsKeyword → Reclassifies token token
  | toKeyword (span : Span) (word : Keyword) :
      Reclassifies ⟨span, .identifier word.letters⟩ ⟨span, .keyword word⟩

variable {first second : Token} {single whole : List Token}

theorem Reclassifies.span_eq (h : Reclassifies first second) : first.span = second.span := by
  cases h <;> rfl

theorem Reclassifies.value_eq (h : Reclassifies first second) :
    first.lexeme.value = second.lexeme.value := by
  cases h with
  | keep => rfl
  | toKeyword span word => exact String.ofList_toList

theorem Reclassifies.not_spellsKeyword (h : Reclassifies first second) :
    ¬ second.SpellsKeyword := by
  cases h with
  | keep hnot => exact hnot
  | toKeyword span word =>
    intro hspells
    obtain ⟨other, hother⟩ := hspells
    cases hother

theorem order_self (token : Token) : token.order token = .eq := by
  obtain ⟨span, lexeme⟩ := token
  have hpayload : lexeme.payloadOrder lexeme = .eq := by
    cases lexeme <;> simp [Lexeme.payloadOrder]
  simp [order, Span.order, hpayload]

/-- A token that is kept is equal to what it becomes, and one that is not comes behind it. -/
theorem Reclassifies.order_eq (h : Reclassifies first second) :
    (first.order second = .eq ∧ ¬ first.SpellsKeyword) ∨
      first.order second = .gt ∧ first.SpellsKeyword := by
  cases h with
  | keep hnot => exact .inl ⟨order_self first, hnot⟩
  | toKeyword span word =>
    have hkinds : compare Kind.identifier.position Kind.keyword.position = .gt := by decide
    refine .inr ⟨?_, word, rfl⟩
    rw [order]
    exact congrArg (Ordering.then · _) hkinds

theorem map_eq_of_forall₂ {β : Type} {read : Token → β} (h : List.Forall₂ Reclassifies single whole)
    (hread : ∀ {first second : Token}, Reclassifies first second → read first = read second) :
    single.map read = whole.map read := by
  induction h with
  | nil => rfl
  | cons htoken _ ih => rw [List.map_cons, List.map_cons, hread htoken, ih]

theorem not_spellsKeyword_of_forall₂ (h : List.Forall₂ Reclassifies single whole) :
    ∀ token ∈ whole, ¬ token.SpellsKeyword := by
  induction h with
  | nil => exact nofun
  | cons htoken _ ih => exact List.forall_mem_cons.mpr ⟨htoken.not_spellsKeyword, ih⟩

/-- The first token that becomes a keyword decides the order of the lists. -/
theorem listOrder_of_forall₂ (h : List.Forall₂ Reclassifies single whole) :
    (listOrder single whole = .eq ∧ ∀ token ∈ single, ¬ token.SpellsKeyword) ∨
      listOrder single whole = .gt ∧ ∃ token ∈ single, token.SpellsKeyword := by
  induction h with
  | nil => exact .inl ⟨rfl, nofun⟩
  | @cons first second single whole htoken _ ih =>
    have hlist : listOrder (first :: single) (second :: whole) =
        (first.order second).then (listOrder single whole) := List.compareLex_cons_cons
    rw [hlist]
    rcases htoken.order_eq with ⟨hequal, hnot⟩ | ⟨hgreater, hspells⟩
    · rw [hequal]
      rcases ih with ⟨hrest, hnone⟩ | ⟨hrest, token, hmem, hspells⟩
      · exact .inl ⟨hrest, List.forall_mem_cons.mpr ⟨hnot, hnone⟩⟩
      · exact .inr ⟨hrest, token, List.mem_cons_of_mem first hmem, hspells⟩
    · rw [hgreater]
      exact .inr ⟨rfl, first, List.mem_cons_self, hspells⟩

end Token

namespace Piece

/-- The piece that the policy for whole words reads in place of one that the other policy reads. -/
def classified : Piece → Piece
  | identifier name => ofWord .wholeWord name
  | piece => piece

@[simp]
theorem text_classified (piece : Piece) : piece.classified.text = piece.text := by
  cases piece with
  | identifier name => exact text_ofWord .wholeWord name
  | _ => rfl

theorem textOf_classified (run : List Piece) : textOf (run.map classified) = textOf run := by
  induction run with
  | nil => rfl
  | cons piece run ih => rw [List.map_cons, textOf_cons, textOf_cons, text_classified, ih]

/-- Both policies cut a text at the same places. -/
theorem AreCut.classified {run : List Piece} {rest : List Char}
    (h : AreCut { grammar := .full, keywords := .singleCharacter } run rest) :
    AreCut { grammar := .full, keywords := .wholeWord } (run.map Piece.classified) rest := by
  induction run with
  | nil => trivial
  | cons piece run ih =>
    obtain ⟨hfatal, hfits, hends, hrun⟩ := h
    have hlater := ih hrun
    rw [← textOf_classified] at hends
    cases piece with
    | identifier name =>
      obtain ⟨hword, -⟩ := hfits
      obtain ⟨hfitsWord, hendsWord⟩ := ofWord_fits .wholeWord hword hends
      exact ⟨hfitsWord.isFatal_eq_false, hfitsWord, hendsWord, hlater⟩
    | keyword word =>
      have hpolicy : KeywordMatching.singleCharacter = .wholeWord := hfits
      cases hpolicy
    | _ => exact ⟨hfatal, hfits, hends, hlater⟩

theorem classified_identifier (name : List Char) :
    (∃ word : Keyword, name = word.letters ∧ (identifier name).classified = keyword word) ∨
      (∀ word : Keyword, name ≠ word.letters) ∧
        (identifier name).classified = identifier name := by
  cases hfound : Keyword.ofLetters? name with
  | none =>
    refine .inr ⟨?_, by simp [classified, ofWord, hfound]⟩
    intro word hname
    rw [hname, Keyword.ofLetters?_letters] at hfound
    cases hfound
  | some word =>
    exact .inl ⟨word, Keyword.letters_of_ofLetters? hfound, by simp [classified, ofWord, hfound]⟩

theorem forall₂_token?_self {piece : Piece}
    (h : ∀ word : Keyword, piece.lexeme? ≠ some (.identifier word.letters)) (start : Nat) :
    List.Forall₂ Token.Reclassifies (piece.token? start).toList (piece.token? start).toList := by
  rw [token?]
  cases hlexeme : piece.lexeme? with
  | none => exact .nil
  | some lexeme =>
    refine .cons (.keep ?_) .nil
    intro hspells
    obtain ⟨word, hword⟩ := hspells
    exact h word (hlexeme.trans (congrArg some hword))

theorem forall₂_token?_classified (start : Nat) (piece : Piece) :
    List.Forall₂ Token.Reclassifies (piece.token? start).toList
      (piece.classified.token? start).toList := by
  cases piece with
  | identifier name =>
    rcases classified_identifier name with ⟨word, hname, hkeyword⟩ | ⟨hnot, hsame⟩
    · rw [hkeyword, hname]
      exact .cons (.toKeyword _ word) .nil
    · rw [hsame]
      apply forall₂_token?_self
      intro word hword
      exact hnot word (Lexeme.identifier.inj (Option.some.inj hword))
  | string content closed =>
    apply forall₂_token?_self
    intro word hword
    cases closed <;> cases hword
  | _ =>
    apply forall₂_token?_self
    intro word hword
    cases hword

theorem forall₂_tokens_classified (start : Nat) (run : List Piece) :
    List.Forall₂ Token.Reclassifies (tokens start run) (tokens start (run.map classified)) := by
  induction run generalizing start with
  | nil => exact .nil
  | cons piece run ih =>
    rw [List.map_cons, tokens, tokens, text_classified]
    exact List.rel_append (forall₂_token?_classified start piece) (ih _)

theorem diagnostics_classified (start : Nat) (run : List Piece) :
    diagnostics start (run.map classified) = diagnostics start run := by
  have hproblem : ∀ piece : Piece, piece.classified.problem? = piece.problem? := by
    intro piece
    cases piece with
    | identifier name =>
      rcases classified_identifier name with ⟨word, -, hkeyword⟩ | ⟨-, hsame⟩
      · rw [hkeyword]
        rfl
      · rw [hsame]
    | _ => rfl
  induction run generalizing start with
  | nil => rfl
  | cons piece run ih =>
    rw [List.map_cons, diagnostics, diagnostics, text_classified, ih, diagnostic?, diagnostic?,
      hproblem]

theorem kind_ne_keyword_of_mem_tokens {run : List Piece} {token : Token}
    (hcut : AreCut { grammar := .full, keywords := .singleCharacter } run [])
    (h : token ∈ tokens 0 run) : token.kind ≠ .keyword := by
  obtain ⟨first, piece, last, hsplit, htoken⟩ := exists_piece_of_mem_tokens h
  have hfits : piece.FitsFull .singleCharacter := (hcut.fits piece (by simp [hsplit])).2
  obtain ⟨lexeme, hlexeme, hmade⟩ := Option.map_eq_some_iff.mp htoken
  rw [← hmade]
  intro hkind
  cases piece with
  | keyword word =>
    have hpolicy : KeywordMatching.singleCharacter = .wholeWord := hfits
    cases hpolicy
  | string content closed =>
    cases closed <;> cases hlexeme
    cases hkind
  | _ => cases hlexeme <;> cases hkind

end Piece

namespace Source

/-- Under the full grammar the two keyword policies find tokens at the same places, with the same
values, and report the same. The tokens differ only where a word spells a keyword, which is one
under the policy for whole words and a mere word under the other. So the tokens of the two policies
are equal where no word spells a keyword, and otherwise those of the policy for whole words come
first. -/
theorem scan_keywords (source : Source) :
    ∃ single whole diagnostics,
      source.scan { grammar := .full, keywords := .singleCharacter } = (.ok single, diagnostics) ∧
      source.scan { grammar := .full, keywords := .wholeWord } = (.ok whole, diagnostics) ∧
      List.Forall₂ Token.Reclassifies single whole ∧
      single.map Token.span = whole.map Token.span ∧
      single.map (fun token => token.lexeme.value) = whole.map (fun token => token.lexeme.value) ∧
      (∀ token ∈ single, token.kind ≠ .keyword) ∧
      (∀ token ∈ whole, ¬ token.SpellsKeyword) ∧
      (Token.listOrder single whole = .eq ↔ ∀ token ∈ single, ¬ token.SpellsKeyword) ∧
      (Token.listOrder single whole = .gt ↔ ∃ token ∈ single, token.SpellsKeyword) ∧
      Token.listOrder single whole ≠ .lt := by
  obtain ⟨htext, hcut⟩ := areCut_pieces (anyFatal_pieces_full .singleCharacter source.chars)
  have hpairs := forall₂_tokens_classified 0
    (pieces { grammar := .full, keywords := .singleCharacter } source.chars)
  refine ⟨_, _, _, scan_eq_ok_iff.mpr ⟨_, hcut, htext.symm, rfl, rfl⟩,
    scan_eq_ok_iff.mpr ⟨_, hcut.classified, ?_, rfl, (diagnostics_classified 0 _).symm⟩, hpairs,
    Token.map_eq_of_forall₂ hpairs Token.Reclassifies.span_eq,
    Token.map_eq_of_forall₂ hpairs Token.Reclassifies.value_eq,
    fun token htoken => kind_ne_keyword_of_mem_tokens hcut htoken,
    Token.not_spellsKeyword_of_forall₂ hpairs, ?_⟩
  · rw [textOf_classified, htext]
  · rcases Token.listOrder_of_forall₂ hpairs with ⟨hequal, hnone⟩ | ⟨hgreater, hsome⟩
    · simpa [hequal] using hnone
    · simpa [hgreater] using hsome

end Source

end TokenScan
