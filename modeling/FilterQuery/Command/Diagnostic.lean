import FilterQuery.Command.Style
import FilterQuery.Parse.Error

/-!
# FilterQuery.Command.Diagnostic

How an error is shown to people who type queries: the line of the query that it
points at, a caret below the very character, and a message.

* `locate` finds the line and column of a byte position;
* `render` puts the picture together.
-/

namespace FilterQuery.Command

/-! ## places in a query -/

/-- A place in a query: the number of its line, the characters of that line
before it, and the line without the blanks at its end. -/
structure Location where
  line : Nat
  column : Nat
  text : List Char
deriving DecidableEq

/-- The place of a byte position.  Lines end at line feeds; a carriage return
before one counts as a blank at the end of the line. -/
def locate (source : List Char) (position : Nat) : Location :=
  let before := Text.charsBefore position source
  let after := source.drop before.length
  let start := (before.reverse.takeWhile (· != '\n')).reverse
  { line := before.count '\n' + 1
    column := start.length
    text := Text.trimRight (start ++ after.takeWhile (· != '\n')) }

/-! ## messages -/

/-- What could have come, in a phrase. -/
def phraseExpected (expected : List Expectation) : String :=
  if expected = [.expression] then "a comparison or `(`"
  else
    (if 1 < expected.length then "one of: " else "") ++
      ", ".intercalate (expected.map Expectation.describe)

/-- The error in words, without its place, which the caret shows. -/
def describeError : ParseError → String
  | .scan e => e.reason.message
  | .unexpected e =>
    "encountered an unexpected " ++ e.found.describe ++ " while expecting " ++
      phraseExpected e.expected
  | .fieldNotAllowed field => (ParseError.fieldNotAllowed field).message
  | .tooDeep _ limit => "groups may be nested at most " ++ toString limit ++ " levels deep"
  | .tooHigh _ limit => "query combines more than " ++ toString limit ++ " levels of AND/OR"

/-! ## the picture -/

/-- The line of the query after its number, and the caret below. -/
def renderLocation (color : Bool) (place : Location) : String :=
  let number := toString place.line
  let indent := place.column + number.length + "line ".length + ":  ".length
  Style.lineNumber.paint color "line " ++ Style.lineNumber.paint color number ++
    Style.lineNumber.paint color ":  " ++ String.ofList place.text ++ "\n" ++
    String.ofList (List.replicate indent ' ') ++ Style.marker.paint color "^" ++ "\n"

/-- The error as it is shown; one that has no place is its message alone. -/
def renderError (color : Bool) (source : String) (e : ParseError) : String :=
  let picture :=
    match e.position? with
    | some position => renderLocation color (locate source.toList position)
    | none => ""
  picture ++ Style.failure.paint color "error: " ++ Style.strong.paint color (describeError e) ++
    "\n"

end FilterQuery.Command
