/-!
Text with terminal decoration. Everything the program prints is built as a `Styled` value, and
`render` is the only place where such a value becomes text, so the choice between coloured and
plain output is made once, at the end, and cannot change what is said.
-/

namespace TokenScan

inductive Paint where
  | bold
  | underline
  | red
  | yellow
  | cyan
deriving Repr, DecidableEq

def Paint.code : Paint → String
  | .bold => "\x1b[1m"
  | .underline => "\x1b[4m"
  | .red => "\x1b[31m"
  | .yellow => "\x1b[33m"
  | .cyan => "\x1b[36m"

def Paint.reset : String :=
  "\x1b[0m"

/-- Text, parts of which may be painted. Paints nest, and each layer ends with a reset of its
own. -/
inductive Styled where
  | text (content : String)
  | painted (paint : Paint) (inner : Styled)
  | append (first second : Styled)
deriving Repr

namespace Styled

instance : Append Styled := ⟨append⟩

instance : Coe String Styled := ⟨text⟩

def concat (parts : List Styled) : Styled :=
  parts.foldr append (text "")

def spaces (count : Nat) : String :=
  String.ofList (List.replicate count ' ')

/-- Applies paints to a part, the first one innermost. -/
def paint (paints : List Paint) (inner : Styled) : Styled :=
  paints.foldl (fun painting next => painted next painting) inner

def renderTo (colors : Bool) (out : String) : Styled → String
  | text content => out ++ content
  | painted paint inner =>
      if colors then renderTo colors (out ++ paint.code) inner ++ Paint.reset
      else renderTo colors out inner
  | append first second => renderTo colors (renderTo colors out first) second

/-- The text to print, with control sequences only if colours are on. -/
def render (colors : Bool) (styled : Styled) : String :=
  renderTo colors "" styled

theorem renderTo_eq (colors : Bool) (out : String) (styled : Styled) :
    renderTo colors out styled = out ++ render colors styled := by
  have shape : ∀ out, renderTo colors out styled = out ++ renderTo colors "" styled := by
    induction styled with
    | text content => simp [renderTo]
    | painted paint inner ih =>
      intro out
      simp only [renderTo]
      split
      · rw [ih, ih ("" ++ paint.code)]
        simp [String.append_assoc]
      · exact ih out
    | append first second ihFirst ihSecond =>
      intro out
      simp only [renderTo]
      rw [ihSecond, ihFirst, ihSecond (renderTo colors "" first), String.append_assoc]
  exact shape out

@[simp]
theorem render_text (colors : Bool) (content : String) :
    render colors (text content) = content := by
  simp [render, renderTo]

@[simp]
theorem render_append (colors : Bool) (first second : Styled) :
    render colors (append first second) = render colors first ++ render colors second := by
  rw [render, renderTo, renderTo_eq, renderTo_eq]
  simp

theorem render_painted (colors : Bool) (paint : Paint) (inner : Styled) :
    render colors (painted paint inner) =
      if colors then paint.code ++ render colors inner ++ Paint.reset
      else render colors inner := by
  rw [render, renderTo, renderTo_eq, renderTo_eq]
  simp

end Styled

end TokenScan
