import FilterQuery.Dump
import FilterQuery.Token

/-!
# FilterQuery.Token.Dump

Dumps of tokens.
-/

namespace FilterQuery

/-- A kind by its name, with its data behind if it has any. -/
def Token.Kind.dump : Token.Kind → Dump
  | .field => .atom "Field"
  | .operator op => .tuple "Operator" [.atom op.name]
  | .keyword connective => .tuple "Keyword" [.atom connective.name]
  | .openGroup => .atom "LParen"
  | .closeGroup => .atom "RParen"
  | .literal quoted => .fields "Literal" [("quoted", .ofBool quoted)]

namespace Lookahead

/-- The kind of what was found; the end of the input counts as a kind here. -/
def kindDump : Lookahead → Dump
  | .token t => t.kind.dump
  | .endOfInput _ => .atom "End"

/-- What was found: its kind, its text and its position. -/
def dump (found : Lookahead) : Dump :=
  .fields "Token" [("kind", found.kindDump), ("text", .string found.text),
    ("position", .ofNat found.position)]

end Lookahead

/-- All tokens in order, the end of the input behind them. -/
def TokenStream.dump (stream : TokenStream) : Dump :=
  .list (stream.lookaheads.map Lookahead.dump)

end FilterQuery
