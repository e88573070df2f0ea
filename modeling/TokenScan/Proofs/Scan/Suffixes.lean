import TokenScan.Proofs.Scan.Operations
import TokenScan.Proofs.Scan.Readers

/-!
Lexing from some place in a source on. A cursor may stand anywhere between two characters, also
inside what a scan from the beginning takes for a word, a string or a comment. What is read from
there depends on the text behind the cursor alone: another source that begins with that text is
read just so, except that all offsets are smaller by that of the cursor. This holds of everything
that a reader can be asked, one action at a time, and therefore of whatever it is asked in a row.
-/

namespace TokenScan

open Text

/-! ### Further on in a source -/

def Step.shift (distance : Nat) (step : Step) : Step where
  span := step.span.shift distance
  result := step.result.map (Option.map (Token.shift distance))
  diagnostics := step.diagnostics.map (Diagnostic.shift distance)

def Text.shiftItem (distance : Nat) (item : Nat × Char) : Nat × Char :=
  (item.1 + distance, item.2)

namespace Reader

def Action.shift (distance : Nat) : Action → Action
  | .spanFrom start => .spanFrom (start + distance)
  | action => action

def Answer.shift (distance : Nat) : Answer → Answer
  | .item found => .item (found.map (shiftItem distance))
  | .items found => .items (found.map (shiftItem distance))
  | .span found => .span (found.map (Span.shift distance))
  | .lexed result diagnostics =>
      .lexed (result.map (Option.map (Token.shift distance)))
        (diagnostics.map (Diagnostic.shift distance))
  | answer => answer

end Reader

/-- The step that reads a piece further on. -/
theorem Piece.step_add (start distance : Nat) (piece : Piece) :
    piece.step (start + distance) = (piece.step start).shift distance := by
  have hspan : (⟨start + distance, start + distance + byteLength piece.text⟩ : Span) =
      Span.shift distance ⟨start, start + byteLength piece.text⟩ := by
    rw [Span.shift, Nat.add_right_comm]
  rw [step, step, Step.shift, hspan, token?_add, diagnostic?_add, Option.toList_map]
  cases piece.isFatal <;> rfl

namespace Text

/-- A slice of a text is one of any longer text that ends with it. -/
theorem slice?_append_right (before text : List Char) (start stop : Nat) :
    slice? (before ++ text) (start + byteLength before) (stop + byteLength before) =
      slice? text start stop := by
  rw [slice?, slice?, Nat.add_comm start, splitAt?_append, Option.bind_map]
  simp only [Nat.add_comm (byteLength before) start, Nat.add_le_add_iff_right,
    Nat.add_sub_add_right]
  rfl

end Text

theorem Source.span?_add {source moved : Source} {before : List Char}
    (h : moved.chars = before ++ source.chars) (start stop : Nat) :
    moved.span? (start + byteLength before) (stop + byteLength before) =
      (source.span? start stop).map (Span.shift (byteLength before)) := by
  rw [span?, span?, h, slice?_append_right, Option.map_map]
  rfl

/-! ### Cursors -/

namespace Cursor

def call (configuration : Configuration) (cursor : Cursor) : Step :=
  let lexed := cursor.lex configuration Handler.store #[]
  { span := ⟨cursor.offset, lexed.cursor.offset⟩
    result := lexed.result
    diagnostics := lexed.held.toList.map Report.diagnostic }

/-- The calls of `Cursor.lex` that follow one another from a cursor. The last is the one that finds
the end of the source, which is not among the steps of a scan, or a character that cannot be
accepted. -/
def calls (configuration : Configuration) (cursor : Cursor) : List Step :=
  match _ : (cursor.lex configuration Handler.store #[]).result with
  | .error _ => [cursor.call configuration]
  | .ok _ =>
      cursor.call configuration ::
        (cursor.lex configuration Handler.store #[]).cursor.calls configuration
termination_by cursor.rest.length
decreasing_by exact Cursor.rest_lex_lt ‹_›

/-- The second cursor stands before the same text as the first, in a source that has some text in
front of that of the first. -/
structure Follows (before : List Char) (cursor moved : Cursor) : Prop where
  chars : moved.source.chars = before ++ cursor.source.chars
  offset : moved.offset = cursor.offset + byteLength before
  rest : moved.rest = cursor.rest

variable {configuration : Configuration} {before : List Char} {cursor moved : Cursor}

theorem calls_of_error {error : LexError}
    (h : (cursor.lex configuration Handler.store #[]).result = .error error) :
    cursor.calls configuration = [cursor.call configuration] := by
  rw [calls]
  split
  · rfl
  · next hok => cases h.symm.trans hok

theorem calls_of_ok {token? : Option Token}
    (h : (cursor.lex configuration Handler.store #[]).result = .ok token?) :
    cursor.calls configuration =
      cursor.call configuration ::
        (cursor.lex configuration Handler.store #[]).cursor.calls configuration := by
  rw [calls]
  split
  · next herror => cases h.symm.trans herror
  · rfl

theorem call_of_next?_eq_none (h : Piece.next? configuration cursor.rest = none) :
    cursor.call configuration = ⟨⟨cursor.offset, cursor.offset⟩, .error .endOfSource, []⟩ := by
  rw [call, cursor.lex_of_next?_eq_none Handler.store #[] h]
  rfl

theorem call_of_next?_eq_some {piece : Piece} {rest : List Char}
    (h : Piece.next? configuration cursor.rest = some (piece, rest)) :
    cursor.call configuration = piece.step cursor.offset := by
  rw [call, cursor.lex_of_next?_eq_some Handler.store #[] h]
  dsimp only
  rw [map_diagnostic_store]
  rfl

namespace Follows

/-! What is done with one of the cursors is done with the other. -/

theorem past (h : Follows before cursor moved) (read rest : List Char) :
    Follows before (cursor.past read rest) (moved.past read rest) := by
  refine ⟨h.chars, ?_, rfl⟩
  rw [Cursor.past, Cursor.past, h.offset, Nat.add_right_comm]

theorem next?_eq_none (h : Follows before cursor moved) (hnext : cursor.next? = none) :
    moved.next? = none := by
  unfold next? at hnext ⊢
  rw [h.rest]
  split at hnext
  · rfl
  · cases hnext

theorem next?_eq_some (h : Follows before cursor moved) {item : Nat × Char} {after : Cursor}
    (hnext : cursor.next? = some (item, after)) :
    ∃ later, moved.next? = some (shiftItem (byteLength before) item, later) ∧
      Follows before after later := by
  unfold next? at hnext ⊢
  rw [h.rest]
  split at hnext
  · cases hnext
  · next c rest hrest =>
    cases hnext
    rw [h.offset]
    exact ⟨_, rfl, h.past [c] rest⟩

theorem eatWhile (h : Follows before cursor moved) (condition : Char → Bool) :
    Follows before (cursor.eatWhile condition) (moved.eatWhile condition) := by
  rw [Cursor.eatWhile, Cursor.eatWhile, h.rest]
  exact h.past _ _

theorem take (h : Follows before cursor moved) (count : Nat) :
    (moved.take count).1 = (cursor.take count).1.map (shiftItem (byteLength before)) ∧
      Follows before (cursor.take count).2 (moved.take count).2 := by
  induction count generalizing cursor moved with
  | zero => exact ⟨rfl, h⟩
  | succ count ih =>
    rw [Cursor.take, Cursor.take]
    cases hnext : cursor.next? with
    | none =>
      rw [h.next?_eq_none hnext]
      exact ⟨rfl, h⟩
    | some found =>
      obtain ⟨item, after⟩ := found
      obtain ⟨later, hmoved, hlater⟩ := h.next?_eq_some hnext
      obtain ⟨hitems, hlast⟩ := ih hlater
      rw [hmoved]
      refine ⟨?_, hlast⟩
      dsimp only
      rw [hitems, List.map_cons]

theorem spanFrom? (h : Follows before cursor moved) (start : Nat) :
    moved.spanFrom? (start + byteLength before) =
      (cursor.spanFrom? start).map (Span.shift (byteLength before)) := by
  rw [Cursor.spanFrom?, Cursor.spanFrom?, h.offset]
  exact Source.span?_add h.chars start cursor.offset

theorem call (h : Follows before cursor moved) (configuration : Configuration) :
    moved.call configuration = (cursor.call configuration).shift (byteLength before) := by
  cases hnext : Piece.next? configuration cursor.rest with
  | none =>
    rw [call_of_next?_eq_none hnext, call_of_next?_eq_none (h.rest ▸ hnext), h.offset]
    rfl
  | some cut =>
    rw [call_of_next?_eq_some hnext, call_of_next?_eq_some (h.rest ▸ hnext), h.offset,
      Piece.step_add]

theorem lex {First Second : Type} (h : Follows before cursor moved)
    (configuration : Configuration) (first : Handler First) (second : Handler Second)
    (firstHeld : First) (secondHeld : Second) :
    Follows before (cursor.lex configuration first firstHeld).cursor
      (moved.lex configuration second secondHeld).cursor := by
  cases hnext : Piece.next? configuration cursor.rest with
  | none =>
    rw [cursor.lex_of_next?_eq_none first firstHeld hnext,
      moved.lex_of_next?_eq_none second secondHeld (h.rest ▸ hnext)]
    exact h
  | some cut =>
    rw [cursor.lex_of_next?_eq_some first firstHeld hnext,
      moved.lex_of_next?_eq_some second secondHeld (h.rest ▸ hnext)]
    exact h.past _ _

/-- The calls from the one are those from the other. -/
theorem calls {cursor moved : Cursor} (h : Follows before cursor moved)
    (configuration : Configuration) :
    moved.calls configuration =
      (cursor.calls configuration).map (Step.shift (byteLength before)) := by
  have hcall := h.call configuration
  have hresult : (moved.lex configuration Handler.store #[]).result =
      (cursor.lex configuration Handler.store #[]).result.map
        (Option.map (Token.shift (byteLength before))) := congrArg Step.result hcall
  -- Both stop at the same call. Before it there are ever fewer characters to come.
  cases hlexed : (cursor.lex configuration Handler.store #[]).result with
  | error error =>
    rw [hlexed] at hresult
    rw [calls_of_error hlexed, calls_of_error hresult, hcall]
    rfl
  | ok token? =>
    rw [hlexed] at hresult
    have hshorter := rest_lex_lt hlexed
    have hlater := (h.lex configuration Handler.store Handler.store #[] #[]).calls configuration
    rw [calls_of_ok hlexed, calls_of_ok hresult, hcall, hlater]
    rfl
termination_by cursor.rest.length

end Follows

end Cursor

/-! ### Readers -/

namespace Reader

structure Follows (before : List Char) (reader moved : Reader) : Prop where
  cursor : Cursor.Follows before reader.cursor moved.cursor
  saved : List.Forall₂ (Cursor.Follows before) reader.saved moved.saved

variable {before : List Char} {reader moved : Reader}

/-- An action has the same answer further on, and leaves the readers at the same place. -/
theorem Follows.perform (h : Follows before reader moved) (action : Action) :
    (moved.perform (action.shift (byteLength before))).1 =
        (reader.perform action).1.shift (byteLength before) ∧
      Follows before (reader.perform action).2
        (moved.perform (action.shift (byteLength before))).2 := by
  have hcursor := h.cursor
  cases action with
  | next =>
    change (moved.perform .next).1 = _ ∧ Follows before _ (moved.perform .next).2
    rw [Reader.perform, Reader.perform]
    cases hnext : reader.cursor.next? with
    | none =>
      rw [hcursor.next?_eq_none hnext]
      exact ⟨rfl, h⟩
    | some found =>
      obtain ⟨item, after⟩ := found
      obtain ⟨later, hmoved, hlater⟩ := hcursor.next?_eq_some hnext
      rw [hmoved]
      exact ⟨rfl, hlater, h.saved⟩
  | peek =>
    refine ⟨?_, h⟩
    exact congrArg (fun rest => Answer.character rest.head?) hcursor.rest
  | isAtEnd =>
    refine ⟨?_, h⟩
    exact congrArg (fun rest => Answer.truth rest.isEmpty) hcursor.rest
  | startsWith pattern =>
    refine ⟨?_, h⟩
    exact congrArg (fun rest => Answer.truth (pattern.isPrefixOf rest)) hcursor.rest
  | eatWhile condition => exact ⟨rfl, hcursor.eatWhile condition, h.saved⟩
  | take count =>
    obtain ⟨hitems, hlast⟩ := hcursor.take count
    exact ⟨congrArg Answer.items hitems, hlast, h.saved⟩
  | spanFrom start => exact ⟨congrArg Answer.span (hcursor.spanFrom? start), h⟩
  | lex configuration =>
    have hcall := hcursor.call configuration
    refine ⟨?_, hcursor.lex configuration Handler.store Handler.store #[] #[], h.saved⟩
    exact congrArg (fun step => Answer.lexed step.result step.diagnostics) hcall
  | save => exact ⟨rfl, hcursor, .cons hcursor h.saved⟩
  | restore =>
    change (moved.perform .restore).1 = _ ∧ Follows before _ (moved.perform .restore).2
    have hsaved := h.saved
    cases hreader : reader.saved with
    | nil =>
      rw [hreader, List.forall₂_nil_left_iff] at hsaved
      rw [perform_restore_of_nil hreader, perform_restore_of_nil hsaved]
      exact ⟨rfl, h⟩
    | cons cursor saved =>
      rw [hreader, List.forall₂_cons_left_iff] at hsaved
      obtain ⟨other, rest, hother, hrest, hmoved⟩ := hsaved
      rw [perform_restore_of_cons hreader, perform_restore_of_cons hmoved]
      exact ⟨rfl, hother, hrest⟩

/-- So have any actions in a row. -/
theorem Follows.performAll (h : Follows before reader moved) (actions : List Action) :
    moved.performAll (actions.map (Action.shift (byteLength before))) =
      (reader.performAll actions).map fun (answer, offset) =>
        (answer.shift (byteLength before), offset + byteLength before) := by
  induction actions generalizing reader moved with
  | nil => rfl
  | cons action actions ih =>
    obtain ⟨hanswer, hnext⟩ := h.perform action
    rw [List.map_cons, Reader.performAll, Reader.performAll]
    dsimp only
    rw [hanswer, hnext.cursor.offset, ih hnext]
    rfl

end Reader

/-! ### From a place between two characters on -/

namespace Cursor

variable {source : Source} {cursor other : Cursor} {before rest : List Char}

/-- A cursor is at an offset in one way only, with just the characters behind it. -/
theorem HasRead.eq_of_offset (h : cursor.HasRead before) (hother : other.HasRead rest)
    (hsource : other.source = cursor.source) (hoffset : other.offset = cursor.offset) :
    other = cursor := by
  have hchars : rest ++ other.rest = before ++ cursor.rest := by
    rw [← hother.chars, hsource, h.chars]
  have hlength : byteLength rest = byteLength before := by
    rw [← hother.offset, hoffset, h.offset]
  obtain ⟨-, hrest⟩ := eq_of_byteLength_eq hchars hlength
  obtain ⟨otherSource, otherOffset, otherRest⟩ := other
  obtain ⟨cursorSource, cursorOffset, cursorRest⟩ := cursor
  dsimp only at hsource hoffset hrest
  rw [hsource, hoffset, hrest]

/-- It is where the cursor before a text of its own is that begins there. -/
theorem HasRead.follows (h : cursor.HasRead before) (path : String) :
    Follows before (Source.ofChars path cursor.rest).cursor cursor :=
  ⟨h.chars, h.offset.trans (Nat.zero_add _).symm, rfl⟩

end Cursor

namespace Source

variable {source : Source} {offset : Nat}

/-- Between any two characters of a source there is a cursor that reads on from there. -/
theorem IsBoundary.exists_cursor (h : source.IsBoundary offset) :
    ∃ cursor before, source.cursor.Reads cursor ∧ cursor.source = source ∧
      cursor.HasRead before ∧ cursor.offset = offset := by
  obtain ⟨before, ⟨rest, hchars⟩, hlength⟩ := h
  have hrest : source.cursor.rest = before ++ rest := hchars.symm
  have hoffset : (source.cursor.past before rest).offset = byteLength before := Nat.zero_add _
  exact ⟨source.cursor.past before rest, before, Cursor.reads_past hrest, rfl,
    ⟨hrest, hoffset⟩, hoffset.trans hlength⟩

/-- Reading depends on the text to come only. At every offset between two characters there is one
cursor of the source. The calls that follow from it, and the answers to whatever it is asked, are
those of a fresh source that holds the text behind the offset and nothing else, with the offset
added to every span and to every place of the cursor. In neither is there a span missing that a
call needs, wherever the cursor has got to. -/
theorem lex_from_boundary (h : source.IsBoundary offset) (path : String) :
    ∃ cursor remaining,
      (∀ other, source.cursor.Reads other ∧ other.offset = offset ↔ other = cursor) ∧
      slice? source.chars offset source.size = some remaining ∧
      (∀ configuration, cursor.calls configuration =
        ((ofChars path remaining).cursor.calls configuration).map (Step.shift offset)) ∧
      (∀ actions, Reader.performAll { cursor } (actions.map (Reader.Action.shift offset)) =
        ((Reader.ofSource (ofChars path remaining)).performAll actions).map
          fun (answer, place) => (answer.shift offset, place + offset)) ∧
      ∀ later, cursor.Reads later ∨ (ofChars path remaining).cursor.Reads later →
        ∀ configuration {Held : Type} (handler : Handler Held) held,
          later.lexByOperations? configuration handler held =
            some (later.lex configuration handler held) := by
  obtain ⟨cursor, before, hreads, hsource, hread, hoffset⟩ := h.exists_cursor
  have hlength : byteLength before = offset := hread.offset.symm.trans hoffset
  have hslice := hread.slice?
  rw [hsource, hoffset] at hslice
  have hfollows := hread.follows path
  refine ⟨cursor, cursor.rest, ?_, hslice, ?_, ?_, ?_⟩
  · intro other
    constructor
    · rintro ⟨hother, hsame⟩
      obtain ⟨hfrom, text, htext⟩ := source.hasRead_cursor.reads hother
      exact hread.eq_of_offset htext (hfrom.trans hsource.symm) (hsame.trans hoffset.symm)
    · rintro rfl
      exact ⟨hreads, hoffset⟩
  · intro configuration
    rw [hfollows.calls configuration, hlength]
  · intro actions
    have hreaders : Reader.Follows before (Reader.ofSource (ofChars path cursor.rest))
        { cursor } := ⟨hfollows, .nil⟩
    rw [← hlength, hreaders.performAll actions]
  · rintro later (hlater | hlater) configuration Held handler held
    · obtain ⟨-, read, hbehind⟩ := hread.reads hlater
      exact hbehind.lexByOperations?_eq configuration handler held
    · obtain ⟨-, read, hbehind⟩ := (ofChars path cursor.rest).hasRead_cursor.reads hlater
      exact hbehind.lexByOperations?_eq configuration handler held

/-- A scan of the whole source takes the end of it for a string. -/
theorem lex_from_boundary_in_string :
    (ofChars "a.lex" "a\"é/*".toList).IsBoundary 2 ∧
    ∃ cursor, (ofChars "a.lex" "a\"é/*".toList).cursor.Reads cursor ∧ cursor.offset = 2 ∧
      cursor.calls { grammar := .full, keywords := .wholeWord } =
        [⟨⟨2, 4⟩, .ok (some ⟨⟨2, 4⟩, .symbol 'é'⟩), []⟩,
          ⟨⟨4, 6⟩, .ok none, [⟨⟨4, 6⟩, .unterminatedBlockComment⟩]⟩,
          ⟨⟨6, 6⟩, .error .endOfSource, []⟩] := by
  have hboundary : (ofChars "a.lex" "a\"é/*".toList).IsBoundary 2 :=
    ⟨['a', '"'], ⟨['é', '/', '*'], rfl⟩, rfl⟩
  obtain ⟨cursor, remaining, hcursor, hslice, hcalls, -, -⟩ := lex_from_boundary hboundary "b.lex"
  obtain ⟨hreads, hoffset⟩ := (hcursor cursor).mpr rfl
  obtain rfl : ['é', '/', '*'] = remaining := Option.some.inj hslice
  refine ⟨hboundary, cursor, hreads, hoffset, ?_⟩
  rw [hcalls, Cursor.calls_of_ok rfl, Cursor.calls_of_ok rfl, Cursor.calls_of_error rfl]
  rfl

end Source

end TokenScan
