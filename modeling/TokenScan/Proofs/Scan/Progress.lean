import TokenScan.Proofs.Scan.Readers

/-!
Scanning makes progress. Wherever a reader has come to, a call of `Cursor.lex` either finds nothing
left and changes nothing, or takes the cursor on to a later place between two characters. So the
loop of calls that a scan makes ends, and a text has at least as many characters as the loop makes
calls before the last one.
-/

namespace TokenScan

open Text

structure Lexed.Progresses {Held : Type} (source : Source) (cursor : Cursor) (held : Held)
    (lexed : Lexed Held) : Prop where
  endOfSource_iff : lexed.result = .error .endOfSource ↔ cursor.isAtEnd = true
  /-- Where nothing is left nothing happens. -/
  unchanged : cursor.isAtEnd = true → lexed.cursor = cursor ∧ lexed.held = held
  /-- Where something is left some of it is read, whatever comes of it. -/
  advances : cursor.isAtEnd = false → cursor.offset < lexed.cursor.offset
  boundary : source.IsBoundary lexed.cursor.offset
  le_size : lexed.cursor.offset ≤ source.size
  /-- A token spans all that was read. -/
  span : ∀ token, lexed.result = .ok (some token) →
    token.span = ⟨cursor.offset, lexed.cursor.offset⟩
  /-- What stops a scan is one character. -/
  fatal : lexed.result = .error .fatal →
    ∃ c, cursor.next? = some ((cursor.offset, c), lexed.cursor)

theorem Piece.next?_eq_none_iff {configuration : Configuration} {text : List Char} :
    next? configuration text = none ↔ text = [] := by
  cases text with
  | nil => simp [next?]
  | cons c rest =>
    rw [next?_cons]
    cases configuration.grammar <;> simp

theorem Piece.exists_eq_unexpected {piece : Piece} (h : piece.isFatal = true) :
    ∃ c, piece = unexpected c := by
  cases piece with
  | unexpected c => exact ⟨c, rfl⟩
  | _ => cases h

/-- A call makes progress at every cursor that holds what is left of its source. -/
theorem Cursor.HasRead.progresses_lex {Held : Type} {cursor : Cursor} {before : List Char}
    (h : cursor.HasRead before) (configuration : Configuration) (handler : Handler Held)
    (held : Held) :
    (cursor.lex configuration handler held).Progresses cursor.source cursor held := by
  have hreads := cursor.reads_lex configuration handler held
  obtain ⟨hsource, read, hread⟩ := h.reads hreads
  have hboundary := hread.isBoundary
  rw [hsource] at hboundary
  cases hnext : Piece.next? configuration cursor.rest with
  | none =>
    have hend : cursor.isAtEnd = true := by
      rw [isAtEnd, Piece.next?_eq_none_iff.mp hnext]
      rfl
    rw [cursor.lex_of_next?_eq_none handler held hnext] at hboundary ⊢
    exact
      { endOfSource_iff := iff_of_true rfl hend
        unchanged := fun _ => ⟨rfl, rfl⟩
        advances := fun hleft => absurd hleft (by rw [hend]; exact Bool.noConfusion)
        boundary := hboundary
        le_size := hboundary.le_size
        span := by
          intro token htoken
          cases htoken
        fatal := by
          intro hstop
          cases hstop }
  | some cut =>
    obtain ⟨piece, rest⟩ := cut
    have hrest := Piece.text_append_of_next? hnext
    have hpositive := Piece.byteLength_text_pos (Piece.text_ne_nil_of_next? hnext)
    have hleft : cursor.isAtEnd = false := by
      rw [isAtEnd, List.isEmpty_eq_false_iff, ← hrest]
      exact List.append_ne_nil_of_left_ne_nil (Piece.text_ne_nil_of_next? hnext) rest
    rw [cursor.lex_of_next?_eq_some handler held hnext] at hboundary ⊢
    refine ⟨?_, ?_, ?_, hboundary, hboundary.le_size, ?_, ?_⟩
    · rw [hleft]
      cases piece.isFatal <;> simp
    · intro hend
      simp [hleft] at hend
    · intro _
      exact Nat.lt_add_of_pos_right hpositive
    · intro token htoken
      dsimp only at htoken
      split at htoken
      · cases htoken
      · exact Piece.span_of_token?_eq_some (Except.ok.inj htoken)
    · intro hstop
      dsimp only at hstop
      split at hstop
      · next hfatal =>
        obtain ⟨c, rfl⟩ := Piece.exists_eq_unexpected hfatal
        refine ⟨c, ?_⟩
        rw [Cursor.next?, ← hrest]
        rfl
      · cases hstop

/-- The loop of a scan, given up after some number of calls of `Cursor.lex`. -/
def tokenizeWithin {Held : Type} (configuration : Configuration) (handler : Handler Held) :
    Nat → Cursor → Held → Array Token → Option (Except LexError (List Token) × Held)
  | 0, _, _, _ => none
  | calls + 1, cursor, held, found =>
      let lexed := cursor.lex configuration handler held
      match lexed.result with
      | .error .endOfSource => some (.ok found.toList, lexed.held)
      | .error .fatal => some (.error .fatal, lexed.held)
      | .ok token? =>
          tokenizeWithin configuration handler calls lexed.cursor lexed.held
            (found ++ token?.toList)

/-- One call for each character left and one more are enough. -/
theorem tokenizeWithin_eq {Held : Type} (configuration : Configuration) (handler : Handler Held)
    {calls : Nat} {cursor : Cursor} (h : cursor.rest.length < calls) (held : Held)
    (found : Array Token) :
    tokenizeWithin configuration handler calls cursor held found =
      some (tokenizeFrom configuration handler cursor held found) := by
  induction calls generalizing cursor held found with
  | zero => exact absurd h (Nat.not_lt_zero _)
  | succ calls ih =>
    rw [tokenizeWithin]
    cases hnext : Piece.next? configuration cursor.rest with
    | none =>
      rw [cursor.lex_of_next?_eq_none handler held hnext,
        tokenizeFrom_of_next?_eq_none handler held found hnext]
    | some cut =>
      obtain ⟨piece, rest⟩ := cut
      rw [cursor.lex_of_next?_eq_some handler held hnext,
        tokenizeFrom_of_next?_eq_some handler held found hnext]
      cases piece.isFatal with
      | true => rfl
      | false =>
        have hshorter := Piece.length_lt_of_next? hnext
        have hrest : (cursor.past piece.text rest).rest.length < calls :=
          Nat.lt_of_lt_of_le hshorter (Nat.le_of_lt_succ h)
        exact ih hrest _ _

/-- Two blanks take three calls. -/
example : (tokenizeWithin {} Handler.discard 2 (Source.ofChars "" [' ', ' ']).cursor ()
    #[]).isNone = true := by decide

/-- Scanning makes progress and ends. Wherever a reader has come to by any actions, a call of
`Cursor.lex` says that the source is at its end just if it is, and changes nothing then. Any other
call goes on to a later place between two characters of the source, whether it gives a token, which
spans what was read, gives none, or stops at a character, which is all it reads then. So a scan is
over after at most one call for each character of its source and one more. -/
theorem tokenize_ends (configuration : Configuration) {Held : Type} (handler : Handler Held)
    (held : Held) (source : Source) :
    (∀ (actions : List Reader.Action) (cursor : Cursor),
      ((Reader.ofSource source).after actions).cursor = cursor →
      (cursor.lex configuration handler held).Progresses source cursor held) ∧
    tokenizeWithin configuration handler (source.chars.length + 1) source.cursor held #[] =
      some (tokenize configuration handler source held) := by
  constructor
  · rintro actions cursor rfl
    have hwithin := Reader.isWithin_after source actions
    obtain ⟨hsource, before, hread⟩ := source.hasRead_cursor.reads hwithin.cursor
    have hprogress := hread.progresses_lex configuration handler held
    rwa [hsource] at hprogress
  · exact tokenizeWithin_eq configuration handler (Nat.lt_succ_self _) held #[]

end TokenScan
