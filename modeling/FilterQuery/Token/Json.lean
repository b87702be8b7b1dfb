import FilterQuery.Json
import FilterQuery.Token

/-!
# FilterQuery.Token.Json

Tokens in JSON.  A kind without further data is a string, any other an object
with one member.
-/

namespace FilterQuery

/-- A kind by its name, or as an object that holds its data under that name. -/
def Token.Kind.toJson : Token.Kind → Json
  | .field => .string "Field"
  | .operator op => .object [("Operator", .string op.name)]
  | .keyword connective => .object [("Keyword", .string connective.code)]
  | .openGroup => .string "LParen"
  | .closeGroup => .string "RParen"
  | .literal quoted => .object [("Literal", .object [("quoted", .boolean quoted)])]

namespace Lookahead

/-- The kind of what was found; the end of the input counts as a kind here. -/
def kindJson : Lookahead → Json
  | .token t => t.kind.toJson
  | .endOfInput _ => .string "End"

/-- What was found: its kind, its text and its position. -/
def toJson (found : Lookahead) : Json :=
  .object [("kind", found.kindJson), ("text", .string found.text),
    ("position", .integer found.position)]

end Lookahead

/-- All tokens in order, the end of the input behind them. -/
def TokenStream.toJson (stream : TokenStream) : Json :=
  .array (stream.lookaheads.map Lookahead.toJson)

end FilterQuery
