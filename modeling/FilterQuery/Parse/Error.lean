import FilterQuery.Token.Scan

/-!
# FilterQuery.Parse.Error

Why a query is rejected, and how that is put in words.
-/

namespace FilterQuery

/-! ## syntax errors -/

/-- What may come next at some point of a query. -/
inductive Expectation where
  | expression
  | operator
  | value
  | connective
  | closeGroup
  | endOfInput
deriving DecidableEq

/-- How messages refer to it. -/
def Expectation.describe : Expectation → String
  | .expression => "expression"
  | .operator => "comparison operator"
  | .value => "value"
  | .connective => "AND/OR"
  | .closeGroup => "`)`"
  | .endOfInput => "end of input"

/-- Something else came than what could have come. -/
structure SyntaxError where
  position : Nat
  expected : List Expectation
  found : Lookahead
deriving DecidableEq

/-- Alternatives in one phrase: commas between all but the last two. -/
def alternatives : List String → String
  | [] => "nothing"
  | [name] => name
  | [name, last] => name ++ " or " ++ last
  | name :: names => name ++ ", " ++ alternatives names

/-- What could have come, what came instead, and where. -/
def SyntaxError.message (e : SyntaxError) : String :=
  "expected " ++ alternatives (e.expected.map Expectation.describe) ++ " but found " ++
    e.found.describe ++ " at position " ++ toString e.position

/-! ## all errors -/

/-- Why a query is rejected.  Positions are those of the parenthesis that opens
one group too many, and of the connective that makes the predicate too high. -/
inductive ParseError where
  | scan (e : ScanError)
  | unexpected (e : SyntaxError)
  | fieldNotAllowed (field : String)
  | tooDeep (position limit : Nat)
  | tooHigh (position limit : Nat)
deriving DecidableEq

namespace ParseError

/-- The byte that the error points at, if it points at one. -/
def position? : ParseError → Option Nat
  | .scan e => some e.position
  | .unexpected e => some e.position
  | .fieldNotAllowed _ => none
  | .tooDeep position _ => some position
  | .tooHigh position _ => some position

/-- The error in one line, its place included. -/
def message : ParseError → String
  | .scan e => e.message
  | .unexpected e => e.message
  | .fieldNotAllowed field => "querying on field `" ++ field ++ "` is not allowed"
  | .tooDeep position limit =>
    "groups nested deeper than " ++ toString limit ++ " levels at position " ++ toString position
  | .tooHigh position limit =>
    "predicate tree higher than " ++ toString limit ++ " levels at position " ++
      toString position

end ParseError

end FilterQuery
