/-!
# FilterQuery.Command.Style

Emphasis on a terminal.  A styled piece of text stands between the sequence
that sets its style and the one that resets it, be the piece empty; where
colour is off, pieces are plain.  A piece may itself hold reset sequences, as
queries may hold anything: each is followed by the style once more, which keeps
the emphasis up to the end of the piece.
-/

namespace FilterQuery.Command

/-- What emphasis is used for. -/
inductive Style where
  | success
  | strong
  | faint
  | lineNumber
  | marker
  | failure
deriving DecidableEq

namespace Style

/-! ## sequences -/

/-- The parameters of the terminal's style sequence. -/
def parameters : Style → String
  | .success => "1;32"
  | .strong => "1"
  | .faint => "2"
  | .lineNumber => "1;2"
  | .marker => "33"
  | .failure => "1;31"

/-- The sequence that sets the style. -/
def start (style : Style) : List Char := "\x1b[".toList ++ style.parameters.toList ++ ['m']

/-- The sequence that resets any style. -/
def reset : List Char := ['\x1b', '[', '0', 'm']

/-! ## pieces -/

/-- One pass over a piece that repeats `start` behind each reset sequence; `done`
is what was written so far, last first. -/
def resumeFrom (start done : List Char) : List Char → List Char
  | [] => done.reverse
  | '\x1b' :: '[' :: '0' :: 'm' :: cs =>
    resumeFrom start (start.reverse ++ (reset.reverse ++ done)) cs
  | c :: cs => resumeFrom start (c :: done) cs

/-- Give a piece of text a style. -/
def paint (color : Bool) (style : Style) (text : String) : String :=
  if color then
    String.ofList (style.start ++ resumeFrom style.start [] text.toList ++ reset)
  else text

/-- Without colour nothing is added. -/
@[simp] theorem paint_false (style : Style) (text : String) : paint false style text = text := rfl

end Style

end FilterQuery.Command
