import TokenScan.Text.Offset

/-!
Lines of text. A line runs up to and including its terminator, which is a line feed, a carriage
return followed by a line feed, or a lone carriage return. The text after the last terminator
is a line as well, so there is always at least one line and the lines in order give back the
text.
-/

namespace TokenScan.Text

/-- A line of a text: the byte offset where it starts, and its characters, terminator
included. -/
structure Line where
  start : Nat
  chars : List Char
deriving Repr, DecidableEq

def Line.stop (line : Line) : Nat :=
  line.start + byteLength line.chars

/-- Whether a character ends its line, given the text after it. A carriage return leaves the
end of the line to a line feed that follows it. -/
def endsLine (c : Char) (rest : List Char) : Bool :=
  c = '\n' || (c = '\r' && rest.head? != some '\n')

def trimLineEnd (text : List Char) : List Char :=
  (text.reverse.dropWhile fun c => c = '\n' || c = '\r').reverse

/-- The lines already complete, followed by those of a text whose first line began earlier:
`start` is where it began and `read` holds its characters so far in reverse. -/
def linesInto (complete : Array Line) (start : Nat) (read : List Char) :
    List Char → Array Line
  | [] => complete.push ⟨start, read.reverse⟩
  | c :: rest =>
      if endsLine c rest then
        let line : Line := ⟨start, (c :: read).reverse⟩
        linesInto (complete.push line) line.stop [] rest
      else
        linesInto complete start (c :: read) rest

def linesFrom (start : Nat) (text : List Char) : List Line :=
  (linesInto #[] start [] text).toList

def lines (text : List Char) : List Line :=
  linesFrom 0 text

/-- The same lines when more text stands at the beginning of the first one. -/
def joinFirst (start : Nat) (text : List Char) : List Line → List Line
  | [] => []
  | line :: rest => ⟨start, text ++ line.chars⟩ :: rest

theorem linesInto_toList (complete : Array Line) (start : Nat) (read text : List Char) :
    (linesInto complete start read text).toList =
      complete.toList ++ (linesInto #[] start read text).toList := by
  induction text generalizing complete start read with
  | nil => simp [linesInto]
  | cons c rest ih =>
    simp only [linesInto]
    split
    · rw [ih, ih (#[].push _)]
      simp
    · exact ih complete start (c :: read)

theorem linesInto_read (start : Nat) (read text : List Char) :
    (linesInto #[] start read text).toList =
      joinFirst start read.reverse (linesFrom (start + byteLength read) text) := by
  induction text generalizing start read with
  | nil => simp [linesFrom, linesInto, joinFirst]
  | cons c rest ih =>
    simp only [linesFrom, linesInto]
    split
    · rw [linesInto_toList, linesInto_toList (#[].push _)]
      have stops : start + (byteLength read + c.utf8Size) =
          start + byteLength read + c.utf8Size := by omega
      simp [joinFirst, Line.stop, stops]
    · rw [ih, ih (start + byteLength read) [c]]
      have stops : start + byteLength read + byteLength [c] =
          start + byteLength (c :: read) := by
        simp only [byteLength_cons, byteLength_nil]
        omega
      rw [stops]
      cases linesFrom (start + byteLength (c :: read)) rest with
      | nil => rfl
      | cons line lines => simp [joinFirst]

@[simp]
theorem linesFrom_nil (start : Nat) : linesFrom start [] = [⟨start, []⟩] := rfl

/-- A character that ends its line is a line of its own when it comes first. Any other one
stands at the beginning of the first line of the text after it. -/
theorem linesFrom_cons (start : Nat) (c : Char) (rest : List Char) :
    linesFrom start (c :: rest) =
      if endsLine c rest then ⟨start, [c]⟩ :: linesFrom (start + c.utf8Size) rest
      else joinFirst start [c] (linesFrom (start + c.utf8Size) rest) := by
  rw [linesFrom, linesInto]
  split
  · rw [linesInto_toList]
    simp [Line.stop, linesFrom]
  · simpa using linesInto_read start [c] rest

end TokenScan.Text
