import TokenScan.Scan.Basic

/-!
The pieces of a scan. A scan cuts its text into pieces one after another, up to the first one that
stops it. The pieces depend on the text alone, and where each of them begins is determined by those
before it, so tokens and diagnostics can be read off the list of pieces. `tokenizeFrom_eq` says
that scanning finds exactly these.
-/

namespace TokenScan

open Text

/-- The pieces of a text in order. Nothing follows a piece that stops the scan. -/
def pieces (configuration : Configuration) (text : List Char) : List Piece :=
  match _ : Piece.next? configuration text with
  | none => []
  | some (piece, rest) => piece :: if piece.isFatal then [] else pieces configuration rest
termination_by text.length
decreasing_by exact Piece.length_lt_of_next? ‹_›

theorem pieces_of_next?_eq_none {configuration : Configuration} {text : List Char}
    (h : Piece.next? configuration text = none) : pieces configuration text = [] := by
  rw [pieces]
  split
  · rfl
  · next found => cases h.symm.trans found

theorem pieces_of_next?_eq_some {configuration : Configuration} {text rest : List Char}
    {piece : Piece} (h : Piece.next? configuration text = some (piece, rest)) :
    pieces configuration text =
      piece :: if piece.isFatal then [] else pieces configuration rest := by
  rw [pieces]
  split
  · next found => cases h.symm.trans found
  · next found =>
    cases h.symm.trans found
    rfl

namespace Piece

/-- The tokens of some pieces of which the first begins at an offset. -/
def tokens (start : Nat) : List Piece → List Token
  | [] => []
  | piece :: rest => (piece.token? start).toList ++ tokens (start + byteLength piece.text) rest

def diagnostics (start : Nat) : List Piece → List Diagnostic
  | [] => []
  | piece :: rest =>
      (piece.diagnostic? start).toList ++ diagnostics (start + byteLength piece.text) rest

def anyFatal (pieces : List Piece) : Bool :=
  pieces.any isFatal

end Piece

/-- What a scan answers, given the tokens found before, when the pieces still to come are known. -/
def resultOf (start : Nat) (found : List Token) (pieces : List Piece) :
    Except LexError (List Token) :=
  if Piece.anyFatal pieces then .error .fatal else .ok (found ++ Piece.tokens start pieces)

/-- Reading at the end of a source changes nothing. -/
theorem Cursor.lex_of_next?_eq_none {Held : Type} {configuration : Configuration}
    {cursor : Cursor} (handler : Handler Held) (held : Held)
    (h : Piece.next? configuration cursor.rest = none) :
    cursor.lex configuration handler held =
      { result := .error .endOfSource, cursor, held } := by
  unfold lex
  rw [h]

/-- Reading elsewhere reads the next piece. -/
theorem Cursor.lex_of_next?_eq_some {Held : Type} {configuration : Configuration}
    {cursor : Cursor} {piece : Piece} {rest : List Char} (handler : Handler Held) (held : Held)
    (h : Piece.next? configuration cursor.rest = some (piece, rest)) :
    cursor.lex configuration handler held =
      { result := if piece.isFatal then .error .fatal else .ok (piece.token? cursor.offset)
        cursor := cursor.past piece.text rest
        held := handler.receiveAll held
          ((piece.diagnostic? cursor.offset).toList.map (Report.mk cursor.source)) } := by
  unfold lex
  rw [h]

theorem resultOf_cons_of_isFatal {piece : Piece} (start : Nat) (found : List Token)
    (h : piece.isFatal = true) : resultOf start found [piece] = .error .fatal := by
  simp [resultOf, Piece.anyFatal, h]

theorem resultOf_cons_of_not_isFatal {piece : Piece} (start : Nat) (found : List Token)
    (rest : List Piece) (h : piece.isFatal = false) :
    resultOf start found (piece :: rest) =
      resultOf (start + byteLength piece.text) (found ++ (piece.token? start).toList) rest := by
  simp [resultOf, Piece.anyFatal, Piece.tokens, h]

/-- Scanning at the end of a source answers with the tokens found before. -/
theorem tokenizeFrom_of_next?_eq_none {Held : Type} {configuration : Configuration}
    {cursor : Cursor} (handler : Handler Held) (held : Held) (found : Array Token)
    (h : Piece.next? configuration cursor.rest = none) :
    tokenizeFrom configuration handler cursor held found = (.ok found.toList, held) := by
  have lexed := cursor.lex_of_next?_eq_none handler held h
  rw [tokenizeFrom]
  split <;> simp_all

/-- Scanning elsewhere goes on after the next piece, unless that piece stops it. -/
theorem tokenizeFrom_of_next?_eq_some {Held : Type} {configuration : Configuration}
    {cursor : Cursor} {piece : Piece} {rest : List Char} (handler : Handler Held) (held : Held)
    (found : Array Token) (h : Piece.next? configuration cursor.rest = some (piece, rest)) :
    tokenizeFrom configuration handler cursor held found =
      let after := handler.receiveAll held
        ((piece.diagnostic? cursor.offset).toList.map (Report.mk cursor.source))
      if piece.isFatal then (.error .fatal, after)
      else
        tokenizeFrom configuration handler (cursor.past piece.text rest) after
          (found ++ (piece.token? cursor.offset).toList) := by
  have lexed := cursor.lex_of_next?_eq_some handler held h
  cases fatal : piece.isFatal with
  | true =>
    rw [fatal, if_pos rfl] at lexed
    rw [tokenizeFrom]
    split <;> simp_all
  | false =>
    rw [fatal, if_neg Bool.false_ne_true] at lexed
    rw [tokenizeFrom]
    split <;> simp_all

/-- Scanning from a cursor finds the tokens of the pieces to come, unless one of them stops it, and
hands over their diagnostics in order. -/
theorem tokenizeFrom_eq {Held : Type} (configuration : Configuration) (handler : Handler Held)
    (cursor : Cursor) (held : Held) (found : Array Token) :
    tokenizeFrom configuration handler cursor held found =
      (resultOf cursor.offset found.toList (pieces configuration cursor.rest),
        handler.receiveAll held
          ((Piece.diagnostics cursor.offset (pieces configuration cursor.rest)).map
            (Report.mk cursor.source))) := by
  cases h : Piece.next? configuration cursor.rest with
  | none =>
    rw [tokenizeFrom_of_next?_eq_none handler held found h, pieces_of_next?_eq_none h]
    simp [resultOf, Piece.anyFatal, Piece.tokens, Piece.diagnostics, Handler.receiveAll]
  | some cut =>
    obtain ⟨piece, rest⟩ := cut
    rw [tokenizeFrom_of_next?_eq_some handler held found h, pieces_of_next?_eq_some h]
    cases fatal : piece.isFatal with
    | true =>
      rw [if_pos rfl, if_pos rfl, resultOf_cons_of_isFatal cursor.offset found.toList fatal]
      simp [Piece.diagnostics]
    | false =>
      have shorter := Piece.length_lt_of_next? h
      rw [if_neg Bool.false_ne_true, if_neg Bool.false_ne_true,
        resultOf_cons_of_not_isFatal cursor.offset found.toList _ fatal,
        tokenizeFrom_eq configuration handler (cursor.past piece.text rest)]
      simp [Piece.diagnostics, Handler.receiveAll_append, Cursor.past]
termination_by cursor.rest.length

end TokenScan
